import CommandRelay.Broker.Membership
import CommandRelay.Broker.Routing

/-!
# What clients are told about the desktop

The desktop slot of an account belongs to the latest registration until that
connection is unregistered, and the last status each client was sent is the
current one.
-/

namespace CommandRelay

open Foundation

/-!
## The desktop slot
-/

namespace BrokerEvent

def seats (u : String) (c : ConnId) (capabilities : Option (List String)) :
    BrokerEvent -> Bool
  | ⟨_, .registerDesktop v tx caps, _⟩ => v = u ∧ tx = c ∧ caps = capabilities
  | _ => false

def unseats (u : String) (c : ConnId) : BrokerEvent -> Bool
  | ⟨_, .registerDesktop v _ _, _⟩ => v = u
  | ⟨_, .unregisterDesktop v conn, _⟩ => v = u ∧ conn = c
  | _ => false

end BrokerEvent

/-- The latest registration was of the connection, with these capabilities, and it
has not been unregistered since. -/
def Seated (log : List BrokerEvent) (u : String) (c : ConnId)
    (capabilities : Option (List String)) : Prop :=
  Standing (BrokerEvent.seats u c capabilities) (BrokerEvent.unseats u c) log

namespace Broker

def slot (b : Broker) (u : String) : Option ConnId × Option (List String) :=
  ((b.entry u).desktopTx, (b.entry u).desktopCapabilities)

theorem slot_congr {b b' : Broker} {u : String} (h : b'.account u = b.account u) :
    b'.slot u = b.slot u := by
  simp [slot, entry, h]

theorem slot_exec {b : Broker} {now : Instant} {op : BrokerCall} {u : String}
    (h : AccountPart.desktop ∉ op.touches) : (b.exec now op).1.slot u = b.slot u := by
  by_cases hu : op.subject? = some u
  · have hagree := (b.entry u).after_agree .desktop b.alive now h
    unfold slot
    rw [← show _ = ((b.entry u).desktopTx, (b.entry u).desktopCapabilities) from hagree]
    unfold entry
    rw [account_exec_subject hu]
    cases hcreates : op.creates with
    | true => rfl
    | false =>
        cases hst : b.account u with
        | some st => simp
        | none =>
            simp only [Bool.false_eq_true, if_false, Option.map_none, Option.getD_none]
            exact (AccountState.new.after_agree .desktop b.alive now h).symm
  · exact slot_congr (account_exec_other hu)

theorem slot_registerDesktop (b : Broker) (u : String) (tx : ConnId)
    (capabilities : Option (List String)) :
    (b.registerDesktop u tx capabilities).slot u = (some tx, capabilities) := by
  simp [slot, entry, account_registerDesktop]

theorem slot_unregisterDesktop (b : Broker) (u : String) (conn : ConnId) :
    (b.unregisterDesktop u conn).slot u =
      if (b.entry u).heldByOther conn then b.slot u else (none, none) := by
  unfold slot entry
  rw [account_unregisterDesktop, if_pos rfl]
  cases b.account u with
  | none => rfl
  | some st =>
      have hstale : (st.dropUploadsOf conn).heldByOther conn = st.heldByOther conn := rfl
      simp only [Option.map_some, Option.getD_some, AccountState.withoutDesktop, hstale]
      by_cases hother : st.heldByOther conn = true
      · rw [if_pos hother, if_pos hother]
        rfl
      · rw [if_neg hother, if_neg hother]

theorem slot_exec_other {b : Broker} {now : Instant} {op : BrokerCall} {u : String}
    (hu : op.subject? ≠ some u) : (b.exec now op).1.slot u = b.slot u :=
  slot_congr (account_exec_other hu)

end Broker

namespace AccountState

theorem heldByOther_eq_true {st : AccountState} {conn : ConnId} :
    st.heldByOther conn = true <-> exists c, st.desktopTx = some c ∧ c ≠ conn := by
  unfold heldByOther
  cases st.desktopTx with
  | none => simp
  | some c => simp

end AccountState

namespace BrokerRun

/-- The slot of an account agrees with the history of the run. -/
structure SlotHistory (s : BrokerRun) (u : String) : Prop where
  seated : forall c capabilities, s.broker.slot u = (some c, capabilities) <->
    Seated s.log u c capabilities
  vacant : (s.broker.slot u).1 = none -> (s.broker.slot u).2 = none

theorem SlotHistory.of_idle {s : BrokerRun} {u : String} {now : Instant} {op : BrokerCall}
    (h : s.SlotHistory u) (hslot : (s.broker.exec now op).1.slot u = s.broker.slot u)
    (hidle : forall c capabilities, (s.event now op).seats u c capabilities = false ∧
      (s.event now op).unseats u c = false) : (s.perform now op).SlotHistory u where
  seated := by
    intro c capabilities
    show (s.broker.exec now op).1.slot u = _ <-> Seated (s.event now op :: s.log) u c _
    rw [hslot, Seated, standing_cons, (hidle c capabilities).1, (hidle c capabilities).2,
      h.seated c capabilities]
    simp [Seated]
  vacant := by
    show ((s.broker.exec now op).1.slot u).1 = none ->
      ((s.broker.exec now op).1.slot u).2 = none
    rw [hslot]
    exact h.vacant

theorem SlotHistory.registerDesktop {s : BrokerRun} {u : String} (now : Instant) (tx : ConnId)
    (capabilities : Option (List String)) :
    (s.perform now (.registerDesktop u tx capabilities)).SlotHistory u := by
  have hslot : (s.broker.exec now (.registerDesktop u tx capabilities)).1.slot u =
      (some tx, capabilities) := s.broker.slot_registerDesktop u tx capabilities
  constructor
  · intro c caps
    show (s.broker.exec now (.registerDesktop u tx capabilities)).1.slot u = _ <-> _
    rw [hslot, perform, Seated, standing_cons]
    simp [event, BrokerEvent.seats, BrokerEvent.unseats]
  · intro hnone
    rw [show (s.perform now (.registerDesktop u tx capabilities)).broker.slot u = _ from hslot]
      at hnone
    cases hnone

theorem SlotHistory.unregisterDesktop {s : BrokerRun} {u : String} (h : s.SlotHistory u)
    (now : Instant) (conn : ConnId) :
    (s.perform now (.unregisterDesktop u conn)).SlotHistory u := by
  have hslot : (s.broker.exec now (.unregisterDesktop u conn)).1.slot u =
      if (s.broker.entry u).heldByOther conn then s.broker.slot u else (none, none) :=
    s.broker.slot_unregisterDesktop u conn
  constructor
  · intro c capabilities
    show (s.broker.exec now (.unregisterDesktop u conn)).1.slot u = _ <-> _
    rw [hslot, perform, Seated, standing_cons]
    simp only [event, BrokerEvent.seats, BrokerEvent.unseats, Bool.false_eq_true, false_or,
      true_and, decide_eq_false_iff_not]
    change _ <-> ¬ conn = c ∧ Seated s.log u c capabilities
    rw [← h.seated c capabilities]
    by_cases hother : (s.broker.entry u).heldByOther conn = true
    · rw [if_pos hother]
      rcases AccountState.heldByOther_eq_true.mp hother with ⟨holder, hholder, hne⟩
      refine ⟨fun hc => ⟨?_, hc⟩, fun hc => hc.2⟩
      intro heq
      have hc' : (s.broker.entry u).desktopTx = some c := congrArg Prod.fst hc
      rw [hholder] at hc'
      exact hne ((Option.some.inj hc').trans heq.symm)
    · rw [if_neg hother]
      refine ⟨fun hc => by simp at hc, fun hc => ?_⟩
      have hc' : (s.broker.entry u).desktopTx = some c := congrArg Prod.fst hc.2
      exact absurd (AccountState.heldByOther_eq_true.mpr ⟨c, hc', fun heq => hc.1 heq.symm⟩)
        hother
  · show ((s.broker.exec now (.unregisterDesktop u conn)).1.slot u).1 = none -> _
    rw [show (s.perform now (.unregisterDesktop u conn)).broker.slot u = _ from hslot, hslot]
    by_cases hother : (s.broker.entry u).heldByOther conn = true
    · rw [if_pos hother]
      exact h.vacant
    · rw [if_neg hother]
      exact fun _ => rfl

theorem SlotHistory.perform {s : BrokerRun} {u : String} (h : s.SlotHistory u) (now : Instant)
    (op : BrokerCall) : (s.perform now op).SlotHistory u := by
  cases op
  case registerDesktop v tx capabilities =>
      by_cases hv : v = u
      · subst hv
        exact SlotHistory.registerDesktop now tx capabilities
      · refine h.of_idle (Broker.slot_exec_other fun hu => hv (Option.some.inj hu)) ?_
        simp [event, BrokerEvent.seats, BrokerEvent.unseats, hv]
  case unregisterDesktop v conn =>
      by_cases hv : v = u
      · subst hv
        exact h.unregisterDesktop now conn
      · refine h.of_idle (Broker.slot_exec_other fun hu => hv (Option.some.inj hu)) ?_
        simp [event, BrokerEvent.seats, BrokerEvent.unseats, hv]
  all_goals
    exact h.of_idle (Broker.slot_exec (by simp [BrokerCall.touches])) fun _ _ => ⟨rfl, rfl⟩

theorem slotHistory_of_runs {labels : List BrokerLabel} {s : BrokerRun}
    (hrun : Runs labels s) (u : String) : s.SlotHistory u := by
  refine runs_induction (motive := fun s => s.SlotHistory u) ?_ ?_ ?_ hrun
  · constructor
    · intro c capabilities
      refine iff_of_false (fun h => ?_) not_standing_nil
      have hnone : Broker.new.slot u = (none, none) := rfl
      rw [show init.broker.slot u = _ from hnone] at h
      cases h
    · exact fun _ => rfl
  · intro s now op h _
    exact h.perform now op
  · intro s s' h hquiet
    have hslot := Broker.slot_congr (hquiet.account u)
    exact
      { seated := by rw [hslot, hquiet.log]; exact h.seated
        vacant := by rw [hslot]; exact h.vacant }

end BrokerRun

/-!
## The last status sent
-/

def statusTo? (c : ConnId) : ConnId × WsMessage -> Option (Bool × Option (List String))
  | (tx, .text (.desktopStatus online capabilities)) =>
      if tx = c then some (online, capabilities) else none
  | _ => none

def lastStatus? (c : ConnId) (history : List (ConnId × WsMessage)) :
    Option (Bool × Option (List String)) :=
  history.findSome? (statusTo? c)

theorem lastStatus?_append (c : ConnId) (new old : List (ConnId × WsMessage)) :
    lastStatus? c (new ++ old) = (lastStatus? c new).or (lastStatus? c old) :=
  List.findSome?_append

theorem lastStatus?_sent {txs : List ConnId} {c : ConnId} (hc : c ∈ txs) (online : Bool)
    (capabilities : Option (List String)) :
    lastStatus? c ((txs.map fun tx =>
      (tx, WsMessage.text (.desktopStatus online capabilities))).reverse) =
      some (online, capabilities) := by
  have hall : forall m, m ∈ (txs.map fun tx =>
      (tx, WsMessage.text (.desktopStatus online capabilities))).reverse ->
      m = (m.1, WsMessage.text (.desktopStatus online capabilities)) := by
    intro m hm
    rcases List.mem_map.mp (List.mem_reverse.mp hm) with ⟨tx, _, rfl⟩
    rfl
  cases hfound : lastStatus? c ((txs.map fun tx =>
      (tx, WsMessage.text (.desktopStatus online capabilities))).reverse) with
  | none =>
      have hnone := List.findSome?_eq_none_iff.mp hfound
        (c, WsMessage.text (.desktopStatus online capabilities))
        (List.mem_reverse.mpr (List.mem_map.mpr ⟨c, hc, rfl⟩))
      simp [statusTo?] at hnone
  | some status =>
      rcases List.exists_of_findSome?_eq_some hfound with ⟨m, hm, hstatus⟩
      rw [hall m hm] at hstatus
      simp only [statusTo?, Option.ite_none_right_eq_some] at hstatus
      exact hstatus.2.symm

theorem lastStatus?_other {m : ConnId × WsMessage} {c : ConnId}
    (h : m.1 ≠ c ∨ forall online capabilities, m.2 ≠ .text (.desktopStatus online capabilities)) :
    lastStatus? c [m] = none := by
  refine List.findSome?_eq_none_iff.mpr fun m' hm' => ?_
  rw [List.mem_singleton.mp hm']
  rcases m with ⟨tx, msg⟩
  unfold statusTo?
  split
  · rename_i heq
    cases heq
    rcases h with hne | hmsg
    · exact if_neg hne
    · exact absurd rfl (hmsg _ _)
  · rfl

namespace Broker

def status (b : Broker) (u : String) : Bool × Option (List String) :=
  ((b.slot u).1.isSome, (b.slot u).2)

/-- The last status sent to a connection since a point of the history is the current
one, and when there is none no desktop is registered. -/
def Told (b : Broker) (u : String) (c : ConnId) (mark : Nat) : Prop :=
  match lastStatus? c (b.delivered.take (b.delivered.length - mark)) with
  | some status => status = b.status u
  | none => (b.slot u).1 = none

def Announces (b b' : Broker) (u : String) (c : ConnId) : Prop :=
  exists new, b'.delivered = new ++ b.delivered ∧
    (lastStatus? c new = some (b'.status u) ∨
      lastStatus? c new = none ∧ b'.slot u = b.slot u)

def Welcomes (b b' : Broker) (u : String) (c : ConnId) : Prop :=
  exists new, b'.delivered = new ++ b.delivered ∧
    (lastStatus? c new = some (b'.status u) ∨
      lastStatus? c new = none ∧ (b'.slot u).1 = none)

section

variable {b b' : Broker} {u : String} {c : ConnId} {mark : Nat}

theorem window_append {new : List (ConnId × WsMessage)}
    (hnew : b'.delivered = new ++ b.delivered) (hmark : mark ≤ b.delivered.length) :
    b'.delivered.take (b'.delivered.length - mark) =
      new ++ b.delivered.take (b.delivered.length - mark) := by
  have hlength : b'.delivered.length - mark =
      new.length + (b.delivered.length - mark) := by
    rw [hnew, List.length_append]
    omega
  rw [hlength, hnew, List.take_length_add_append]

theorem Told.announced (h : b.Told u c mark) (hmark : mark ≤ b.delivered.length)
    (hannounce : Announces b b' u c) : b'.Told u c mark := by
  rcases hannounce with ⟨new, hnew, hlast⟩
  unfold Told at h ⊢
  rw [window_append hnew hmark, lastStatus?_append]
  rcases hlast with htold | ⟨hsilent, hslot⟩
  · rw [htold]
    rfl
  · rw [hsilent, Option.none_or]
    unfold status at h ⊢
    rw [hslot]
    exact h

theorem Welcomes.told (h : Welcomes b b' u c) : b'.Told u c b.delivered.length := by
  rcases h with ⟨new, hnew, hlast⟩
  unfold Told
  rw [window_append hnew (Nat.le_refl _), Nat.sub_self, List.take_zero, List.append_nil]
  rcases hlast with htold | ⟨hsilent, hslot⟩
  · rw [htold]
  · rw [hsilent]
    exact hslot

theorem announces_of_silent {new : List (ConnId × WsMessage)}
    (hnew : b'.delivered = new ++ b.delivered) (hsilent : lastStatus? c new = none)
    (hslot : b'.slot u = b.slot u) : Announces b b' u c :=
  ⟨new, hnew, Or.inr ⟨hsilent, hslot⟩⟩

theorem announces_sendAll {txs : List ConnId} {online : Bool}
    {capabilities : Option (List String)} {mid : Broker} {old : List (ConnId × WsMessage)}
    (hsent : b' = mid.sendAll txs (.text (.desktopStatus online capabilities)))
    (hmid : mid.delivered = old ++ b.delivered) (hc : c ∈ txs) (halive : mid.alive c = true)
    (hstatus : b'.status u = (online, capabilities)) : Announces b b' u c := by
  subst hsent
  have hmem : c ∈ txs.filter mid.alive := List.mem_filter.mpr ⟨hc, halive⟩
  have hdelivered : (mid.sendAll txs (.text (.desktopStatus online capabilities))).delivered =
      (((txs.filter mid.alive).map fun tx =>
        (tx, WsMessage.text (.desktopStatus online capabilities))).reverse ++ old) ++
        b.delivered := by
    rw [delivered_sendAll, hmid, List.append_assoc]
  refine ⟨_, hdelivered, Or.inl ?_⟩
  rw [lastStatus?_append, lastStatus?_sent hmem, hstatus]
  rfl

end

theorem announces_registerDesktop {b : Broker} {u : String} {c : ConnId} (tx : ConnId)
    (capabilities : Option (List String))
    (hc : c ∈ (b.clients u).map ClientConnection.tx) (halive : b.alive c = true) :
    Announces b (b.registerDesktop u tx capabilities) u c := by
  have hevicted : exists old, (b.evictDesktop (b.entry u)).delivered = old ++ b.delivered := by
    unfold evictDesktop
    cases (b.entry u).desktopTx with
    | none => exact ⟨[], rfl⟩
    | some holder =>
        simp only [delivered_send]
        by_cases hholder : b.alive holder = true
        · exact ⟨[(holder, .close)], if_pos hholder⟩
        · exact ⟨[], if_neg hholder⟩
  have hsame : (b.evictDesktop (b.entry u)).alive c = b.alive c := by
    unfold evictDesktop
    cases (b.entry u).desktopTx with
    | none => rfl
    | some holder => exact alive_send b holder .close c
  rcases hevicted with ⟨old, hold⟩
  refine announces_sendAll rfl hold hc (hsame.trans halive) ?_
  rw [status, slot_registerDesktop]
  rfl

theorem announces_unregisterDesktop {b : Broker} {u : String} {c : ConnId} (conn : ConnId)
    (hc : c ∈ (b.clients u).map ClientConnection.tx) (halive : b.alive c = true) :
    Announces b (b.unregisterDesktop u conn) u c := by
  have hslot := b.slot_unregisterDesktop u conn
  unfold clients at hc
  unfold entry at hslot hc
  unfold unregisterDesktop at hslot ⊢
  cases hst : b.account u with
  | none => exact announces_of_silent (List.nil_append _).symm rfl rfl
  | some st =>
      have hstale : (st.dropUploadsOf conn).heldByOther conn = st.heldByOther conn := rfl
      simp only [hst, Option.getD_some, hstale] at hslot hc ⊢
      by_cases hother : st.heldByOther conn = true
      · rw [if_pos hother] at hslot ⊢
        rw [if_pos hother] at hslot
        exact announces_of_silent (List.nil_append _).symm rfl hslot
      · rw [if_neg hother] at hslot ⊢
        rw [if_neg hother] at hslot
        refine announces_sendAll rfl (List.nil_append _).symm hc halive ?_
        rw [status, hslot]
        rfl

theorem registerClient_cases (b : Broker) (u : String) (tx : ConnId) (info : ClientInfo) :
    (exists new, (b.registerClient u tx info).1.delivered = new ++ b.delivered ∧
      (forall c, c ≠ tx -> lastStatus? c new = none) ∧
      ((b.registerClient u tx info).2 = .ok () -> b.alive tx = true ->
        lastStatus? tx new = some (b.status u) ∨
          lastStatus? tx new = none ∧ (b.slot u).1 = none)) ∧
      (b.registerClient u tx info).1.slot u = b.slot u := by
  have hslot : (b.registerClient u tx info).1.slot u = b.slot u :=
    @slot_exec b 0 (.registerClient u tx info) u (by simp [BrokerCall.touches])
  refine ⟨?_, hslot⟩
  have hreplay : forall clients : List ClientConnection,
      exists new, ((b.put u { b.entry u with clients := clients }).replayDesktopStatus
          { b.entry u with clients := clients } tx).delivered = new ++ b.delivered ∧
        (forall c, c ≠ tx -> lastStatus? c new = none) ∧
        (b.alive tx = true -> lastStatus? tx new = some (b.status u) ∨
          lastStatus? tx new = none ∧ (b.slot u).1 = none) := by
    intro clients
    unfold replayDesktopStatus
    cases hholder : (b.entry u).desktopTx with
    | none => exact ⟨[], rfl, fun _ _ => rfl, fun _ => Or.inr ⟨rfl, hholder⟩⟩
    | some holder =>
        have hstatus : b.status u = (true, (b.entry u).desktopCapabilities) := by
          unfold status slot
          rw [hholder]
          rfl
        simp only [delivered_send]
        by_cases halive : b.alive tx = true
        · refine ⟨[(tx, .text (.desktopStatus true (b.entry u).desktopCapabilities))],
            if_pos halive, fun c hc => lastStatus?_other (Or.inl hc.symm), fun _ => Or.inl ?_⟩
          rw [hstatus]
          simp [lastStatus?, statusTo?]
        · exact ⟨[], if_neg halive, fun _ _ => rfl, fun h => absurd h halive⟩
  unfold registerClient
  by_cases hmem : tx ∈ (b.entry u).clientTxs
  · simp only [if_pos hmem]
    rcases hreplay _ with ⟨new, hnew, hothers, htold⟩
    exact ⟨new, hnew, hothers, fun _ => htold⟩
  · by_cases hfull : maxClients ≤ (b.entry u).clients.length
    · simp only [if_neg hmem, if_pos hfull]
      exact ⟨[], rfl, fun _ _ => rfl, fun h => by cases h⟩
    · simp only [if_neg hmem, if_neg hfull]
      rcases hreplay _ with ⟨new, hnew, hothers, htold⟩
      exact ⟨new, hnew, hothers, fun _ => htold⟩

theorem announces_registerClient {b : Broker} {u : String} {c : ConnId} (tx : ConnId)
    (info : ClientInfo) (hc : c ∈ (b.clients u).map ClientConnection.tx)
    (halive : b.alive c = true) : Announces b (b.registerClient u tx info).1 u c := by
  rcases b.registerClient_cases u tx info with ⟨⟨new, hnew, hothers, htold⟩, hslot⟩
  by_cases htx : c = tx
  · subst htx
    have hok : (b.registerClient u c info).2 = .ok () :=
      (b.registerClient_ok u c info).mpr (Or.inl hc)
    refine ⟨new, hnew, ?_⟩
    rcases htold hok halive with hstatus | ⟨hsilent, _⟩
    · exact Or.inl (by rw [hstatus, status, status, hslot])
    · exact Or.inr ⟨hsilent, hslot⟩
  · exact announces_of_silent hnew (hothers c htx) hslot

theorem welcomes_registerClient {b : Broker} {u : String} {c : ConnId} {info : ClientInfo}
    (hok : (b.registerClient u c info).2 = .ok ()) (halive : b.alive c = true) :
    Welcomes b (b.registerClient u c info).1 u c := by
  rcases b.registerClient_cases u c info with ⟨⟨new, hnew, _, htold⟩, hslot⟩
  refine ⟨new, hnew, ?_⟩
  rw [status, hslot]
  exact htold hok halive

end Broker

def BrokerCall.isPresence (u : String) : BrokerCall -> Bool
  | registerDesktop v _ _ | unregisterDesktop v _ => v = u
  | registerClient v _ _ | unregisterClient v _ _ => v = u
  | unregisterDevice v _ => v = u
  | _ => false

namespace Broker

variable {b : Broker} {now : Instant} {op : BrokerCall} {u : String} {c : ConnId}

theorem announces_exec (hop : op.isPresence u = true)
    (hc : c ∈ (b.clients u).map ClientConnection.tx) (halive : b.alive c = true) :
    Announces b (b.exec now op).1 u c := by
  cases op <;> simp [BrokerCall.isPresence] at hop
  case registerDesktop v tx capabilities =>
      subst hop
      exact announces_registerDesktop tx capabilities hc halive
  case unregisterDesktop v conn =>
      subst hop
      exact announces_unregisterDesktop conn hc halive
  case registerClient v tx info =>
      subst hop
      exact announces_registerClient tx info hc halive
  case unregisterClient v d conn =>
      subst hop
      have hdelivered : (b.exec now (.unregisterClient v d conn)).1.delivered =
          b.delivered := by
        show (b.withAccount v () _).1.delivered = b.delivered
        unfold withAccount
        cases b.account v <;> rfl
      exact announces_of_silent (hdelivered.trans (List.nil_append _).symm) rfl
        (slot_exec (by simp [BrokerCall.touches]))
  case unregisterDevice v d =>
      subst hop
      have hdelivered : (b.exec now (.unregisterDevice v d)).1.delivered =
          b.delivered := by
        show (b.withAccount v () _).1.delivered = b.delivered
        unfold withAccount
        cases b.account v <;> rfl
      exact announces_of_silent (hdelivered.trans (List.nil_append _).symm) rfl
        (slot_exec (by simp [BrokerCall.touches]))

theorem joins_cases (hbefore : c ∉ (b.clients u).map ClientConnection.tx)
    (hafter : c ∈ ((b.exec now op).1.clients u).map ClientConnection.tx) :
    exists info, op = .registerClient u c info ∧ (b.registerClient u c info).2 = .ok () := by
  by_cases hu : op.subject? = some u
  · rw [clients_exec hu] at hafter
    cases op
    case registerClient v tx info =>
        cases hu
        by_cases hroom : tx ∈ (b.clients u).map ClientConnection.tx ∨
            ¬ maxClients ≤ (b.clients u).length
        · have hholds : ((b.entry u).withClient tx info).Holds .clients c := by
            rw [AccountState.Holds, AccountState.clientTxs, AccountState.clients_withClient]
            exact hafter
          rcases AccountState.holds_withClient tx info hholds with hold | hnew
          · exact absurd hold hbefore
          · subst hnew
            exact ⟨info, rfl, (b.registerClient_ok u c info).mpr hroom⟩
        · have hrefused : AccountState.clientsAfter (.registerClient u tx info) (b.clients u) =
              b.clients u := AccountState.joined_refused hroom
          rw [hrefused] at hafter
          exact absurd hafter hbefore
    case unregisterClient v d conn =>
        rcases List.mem_map.mp hafter with ⟨e, he, htx⟩
        exact absurd (List.mem_map.mpr ⟨e, (List.mem_filter.mp he).1, htx⟩) hbefore
    case unregisterDevice v d =>
        rcases List.mem_map.mp hafter with ⟨e, he, htx⟩
        exact absurd (List.mem_map.mpr ⟨e, (List.mem_filter.mp he).1, htx⟩) hbefore
    all_goals exact absurd hafter hbefore
  · rw [clients_exec_other hu] at hafter
    exact absurd hafter hbefore

end Broker

/-!
## Watching one client

A notified run also keeps where the history stood when the client last joined the
clients list, and when it was last registered.
-/

structure NotifiedRun where
  run : BrokerRun
  joined : Nat
  registered : Nat

namespace NotifiedRun

variable (u : String) (c : ConnId)

def init : NotifiedRun where
  run := BrokerRun.init
  joined := 0
  registered := 0

/-- The run is made of the operations on the account's slot and clients, and of
background steps. -/
def concerns : BrokerLabel -> Bool
  | .call _ op => op.isPresence u
  | _ => true

def registers (b : Broker) : BrokerLabel -> Bool
  | .call _ (.registerClient v tx info) =>
      decide (v = u ∧ tx = c) && (b.registerClient v tx info).2.isOk
  | _ => false

def joins (before after : Broker) : Bool :=
  decide (c ∉ (before.clients u).map ClientConnection.tx ∧
    c ∈ (after.clients u).map ClientConnection.tx)

def step (w : NotifiedRun) (l : BrokerLabel) : Option NotifiedRun :=
  if concerns u l then
    (w.run.step l).map fun s =>
      { run := s
        joined :=
          if joins u c w.run.broker s.broker then w.run.broker.delivered.length
          else w.joined
        registered :=
          if registers u c w.run.broker l then w.run.broker.delivered.length
          else w.registered }
  else none

def Runs (labels : List BrokerLabel) (w : NotifiedRun) : Prop :=
  follow (step u c) init labels = some w

/-- What the slot means, and what a listed client whose writer is running has been
told about it. -/
structure Truthful (w : NotifiedRun) : Prop where
  seated : forall capabilities, w.run.broker.slot u = (some c, capabilities) <->
    Seated w.run.log u c capabilities
  vacant : (w.run.broker.slot u).1 = none -> (w.run.broker.slot u).2 = none
  joined : c ∈ (w.run.broker.clients u).map ClientConnection.tx ->
    w.run.broker.alive c = true -> w.run.broker.Told u c w.joined
  registered : c ∈ (w.run.broker.clients u).map ClientConnection.tx ->
    w.run.broker.alive c = true -> w.run.broker.Told u c w.registered

/-- The invariant of the two marks. -/
structure Notified (w : NotifiedRun) : Prop where
  joined_le : w.joined ≤ w.run.broker.delivered.length
  registered_le : w.registered ≤ w.run.broker.delivered.length
  told : c ∈ (w.run.broker.clients u).map ClientConnection.tx ->
    w.run.broker.alive c = true ->
      w.run.broker.Told u c w.joined ∧ w.run.broker.Told u c w.registered

variable {u : String} {c : ConnId}

theorem registers_eq_true {b : Broker} {l : BrokerLabel} (h : registers u c b l = true) :
    exists now info, l = .call now (.registerClient u c info) ∧
      (b.registerClient u c info).2 = .ok () := by
  unfold registers at h
  split at h
  · rename_i now v tx info
    rw [Bool.and_eq_true, decide_eq_true_eq] at h
    rcases h with ⟨⟨rfl, rfl⟩, hok⟩
    refine ⟨now, info, rfl, ?_⟩
    cases hreply : (b.registerClient v tx info).2 with
    | ok done => rfl
    | error reason =>
        rw [hreply] at hok
        cases hok
  · cases h

/-- A step that only adds messages which tell the client of every change keeps the
invariant, when no mark moves. -/
theorem Notified.keep {w : NotifiedRun} {s : BrokerRun} (h : w.Notified u c)
    (hclients : c ∈ (s.broker.clients u).map ClientConnection.tx ->
      c ∈ (w.run.broker.clients u).map ClientConnection.tx)
    (halive : s.broker.alive c = true -> w.run.broker.alive c = true)
    (hgrows : w.run.broker.delivered.length ≤ s.broker.delivered.length)
    (hannounce : c ∈ (w.run.broker.clients u).map ClientConnection.tx ->
      w.run.broker.alive c = true -> Broker.Announces w.run.broker s.broker u c) :
    Notified u c { run := s, joined := w.joined, registered := w.registered } where
  joined_le := Nat.le_trans h.joined_le hgrows
  registered_le := Nat.le_trans h.registered_le hgrows
  told := by
    intro hc hlive
    rcases h.told (hclients hc) (halive hlive) with ⟨hjoined, hregistered⟩
    have hannounced := hannounce (hclients hc) (halive hlive)
    exact ⟨hjoined.announced h.joined_le hannounced,
      hregistered.announced h.registered_le hannounced⟩

end NotifiedRun

namespace Broker

theorem delivered_exec_length (b : Broker) (now : Instant) (op : BrokerCall) :
    b.delivered.length ≤ (b.exec now op).1.delivered.length := by
  rcases enqueues_exec b now op with ⟨new, hnew, _⟩
  rw [hnew, List.length_append]
  exact Nat.le_add_left _ _

theorem delivered_runNudge (b : Broker) (tx : ConnId) (now : Instant) : exists new,
    (b.runNudge tx now).delivered = new ++ b.delivered ∧
      forall c, lastStatus? c new = none := by
  unfold runNudge
  simp only []
  split
  · rw [delivered_send]
    split
    · refine ⟨[(tx, .text .resyncRequired)], rfl, fun c => lastStatus?_other (Or.inr ?_)⟩
      intro online capabilities heq
      cases heq
    · exact ⟨[], rfl, fun _ => rfl⟩
  · exact ⟨[], rfl, fun _ => rfl⟩

end Broker

namespace NotifiedRun

variable {u : String} {c : ConnId}

theorem notified_background {w : NotifiedRun} {s : BrokerRun} (h : w.Notified u c)
    (hquiet : BrokerRun.Quiet w.run s) {new : List (ConnId × WsMessage)}
    (hnew : s.broker.delivered = new ++ w.run.broker.delivered)
    (hsilent : lastStatus? c new = none) :
    Notified u c { run := s, joined := w.joined, registered := w.registered } := by
  have hclients := Broker.clients_congr (hquiet.account u)
  refine h.keep (by rw [hclients]; exact id) (hquiet.alive c) ?_ ?_
  · rw [hnew, List.length_append]
    exact Nat.le_add_left _ _
  · intro _ _
    exact Broker.announces_of_silent hnew hsilent (Broker.slot_congr (hquiet.account u))

theorem notified_call {w : NotifiedRun} {now : Instant} {op : BrokerCall}
    (h : w.Notified u c) (hop : op.isPresence u = true) :
    Notified u c
      { run := w.run.perform now op
        joined :=
          if joins u c w.run.broker (w.run.broker.exec now op).1 then
            w.run.broker.delivered.length
          else w.joined
        registered :=
          if registers u c w.run.broker (.call now op) then w.run.broker.delivered.length
          else w.registered } := by
  have hgrows := w.run.broker.delivered_exec_length now op
  have halive : (w.run.broker.exec now op).1.alive c = true ->
      w.run.broker.alive c = true := fun hlive =>
    (Broker.alive_exec w.run.broker now op c).symm.trans hlive
  -- A registration of the client tells it from the history before it.
  have hfresh : registers u c w.run.broker (.call now op) = true ->
      (w.run.broker.exec now op).1.alive c = true ->
      (w.run.broker.exec now op).1.Told u c w.run.broker.delivered.length := by
    intro hregisters hlive
    rcases registers_eq_true hregisters with ⟨now', info, hlabel, hok⟩
    cases hlabel
    exact (Broker.welcomes_registerClient hok (halive hlive)).told
  by_cases hjoins : joins u c w.run.broker (w.run.broker.exec now op).1 = true
  · have hregisters : registers u c w.run.broker (.call now op) = true := by
      rcases of_decide_eq_true hjoins with ⟨hbefore, hafter⟩
      rcases Broker.joins_cases hbefore hafter with ⟨info, hop', hok⟩
      subst hop'
      simp [registers, hok, Except.isOk, Except.toBool]
    rw [if_pos hjoins, if_pos hregisters]
    exact
      { joined_le := hgrows
        registered_le := hgrows
        told := fun _ hlive => ⟨hfresh hregisters hlive, hfresh hregisters hlive⟩ }
  · have hkeep : Notified u c
        { run := w.run.perform now op, joined := w.joined, registered := w.registered } := by
      refine h.keep ?_ halive hgrows (fun hc hlive => Broker.announces_exec hop hc hlive)
      intro hafter
      by_cases hbefore : c ∈ (w.run.broker.clients u).map ClientConnection.tx
      · exact hbefore
      · exact absurd (decide_eq_true ⟨hbefore, hafter⟩) hjoins
    rw [if_neg hjoins]
    by_cases hregisters : registers u c w.run.broker (.call now op) = true
    · rw [if_pos hregisters]
      exact
        { joined_le := hkeep.joined_le
          registered_le := hgrows
          told := fun hc hlive => ⟨(hkeep.told hc hlive).1, hfresh hregisters hlive⟩ }
    · rw [if_neg hregisters]
      exact hkeep

theorem notified_step {w w' : NotifiedRun} {l : BrokerLabel} (h : w.Notified u c)
    (hstep : step u c w l = some w') : w'.Notified u c := by
  unfold step at hstep
  by_cases hconcerns : concerns u l = true
  · rw [if_pos hconcerns] at hstep
    rcases Option.map_eq_some_iff.mp hstep with ⟨s, hs, rfl⟩
    have hidle : BrokerRun.Quiet w.run s -> joins u c w.run.broker s.broker = false := by
      intro hquiet
      unfold joins
      rw [Broker.clients_congr (hquiet.account u)]
      simp
    cases l with
    | call now op =>
        by_cases hclock : w.run.clock ≤ now
        · simp only [BrokerRun.step, if_pos hclock, Option.some.injEq] at hs
          subst hs
          exact notified_call h hconcerns
        · simp [BrokerRun.step, hclock] at hs
    | nudge now tx =>
        rcases BrokerRun.step_cases hs with ⟨_, _, hlabel, _⟩ | hquiet
        · cases hlabel
        · rw [hidle hquiet]
          rcases w.run.broker.delivered_runNudge tx now with ⟨new, hnew, hsilent⟩
          by_cases hguard : w.run.clock ≤ now ∧ tx ∈ w.run.broker.nudges
          · simp only [BrokerRun.step, if_pos hguard, Option.some.injEq] at hs
            subst hs
            exact notified_background h hquiet hnew (hsilent c)
          · simp [BrokerRun.step, hguard] at hs
    | drain tx =>
        rcases BrokerRun.step_cases hs with ⟨_, _, hlabel, _⟩ | hquiet
        · cases hlabel
        · rw [hidle hquiet]
          simp only [BrokerRun.step, Option.some.injEq] at hs
          subst hs
          exact notified_background h hquiet (List.nil_append _).symm rfl
    | stopWriter tx =>
        rcases BrokerRun.step_cases hs with ⟨_, _, hlabel, _⟩ | hquiet
        · cases hlabel
        · rw [hidle hquiet]
          simp only [BrokerRun.step, Option.some.injEq] at hs
          subst hs
          exact notified_background h hquiet (List.nil_append _).symm rfl
  · rw [if_neg hconcerns] at hstep
    cases hstep

theorem runs_run {labels : List BrokerLabel} {w w' : NotifiedRun}
    (h : follow (step u c) w labels = some w') :
    follow BrokerRun.step w.run labels = some w'.run := by
  induction labels generalizing w with
  | nil =>
      rw [follow_nil] at h
      cases h
      rfl
  | cons l rest ih =>
      rcases follow_cons_eq_some.mp h with ⟨mid, hmid, hrest⟩
      unfold step at hmid
      by_cases hconcerns : concerns u l = true
      · rw [if_pos hconcerns] at hmid
        rcases Option.map_eq_some_iff.mp hmid with ⟨s, hs, rfl⟩
        exact follow_cons_eq_some.mpr ⟨s, hs, ih hrest⟩
      · rw [if_neg hconcerns] at hmid
        cases hmid

/--
After every run of registrations and their ends on an account, the slot is that of
the latest desktop that has not left, and every listed client whose writer is
running was last told the current status of the desktop.
-/
theorem clients_told {labels : List BrokerLabel} {w : NotifiedRun}
    (hrun : Runs u c labels w) : w.Truthful u c := by
  have hnotified : w.Notified u c := by
    have hall : Admits (step u c) (fun _ _ => True) init labels :=
      admits_of_forall (fun _ _ => trivial) init labels
    refine follow_invariant (motive := Notified u c) ?_ ?_ hrun hall
    · intro w l w' h _ hstep
      exact notified_step h hstep
    · exact
        { joined_le := Nat.le_refl _
          registered_le := Nat.le_refl _
          told := fun hc => by cases hc }
  have hslot : w.run.SlotHistory u := BrokerRun.slotHistory_of_runs (runs_run hrun) u
  exact
    { seated := hslot.seated c
      vacant := hslot.vacant
      joined := fun hc hlive => (hnotified.told hc hlive).1
      registered := fun hc hlive => (hnotified.told hc hlive).2 }

theorem clients_told_example : exists w,
    Runs "user" 2 [.call 0 (.registerDesktop "user" 1 none),
      .call 1 (.registerClient "user" 2 ⟨"phone", "Phone", "192.0.2.1", ""⟩),
      .call 2 (.registerDesktop "user" 3 none),
      .call 3 (.unregisterDesktop "user" 1)] w ∧ w.Truthful "user" 2 := by
  have hrun : exists w, Runs "user" 2 [.call 0 (.registerDesktop "user" 1 none),
      .call 1 (.registerClient "user" 2 ⟨"phone", "Phone", "192.0.2.1", ""⟩),
      .call 2 (.registerDesktop "user" 3 none),
      .call 3 (.unregisterDesktop "user" 1)] w := ⟨_, rfl⟩
  rcases hrun with ⟨w, hw⟩
  exact ⟨w, hw, clients_told hw⟩

end NotifiedRun

end CommandRelay
