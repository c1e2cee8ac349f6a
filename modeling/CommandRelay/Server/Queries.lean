import CommandRelay.Broker.Supervisor
import CommandRelay.Server.Relay

/-!
# Queries in flight and the desktop that is online

A supervisor query that is issued again while it is in flight changes its owner and is
not forwarded again.  The table of pending queries outlives desktop connections, and
the decision to forward and the forward are separate calls.
-/

namespace CommandRelay

open Foundation

/-!
## Queries in flight
-/

namespace Broker

def desktop? (b : Broker) (u : String) : Option ConnId :=
  b.part u AccountState.desktopTx

def InFlight (b : Broker) (now : Instant) (u id : String) : Prop :=
  exists e, b.query? u id = some e ∧ e.stored = none ∧ e.live now = true

def queried (b : Broker) (now : Instant) (u : String) : Bool :=
  ((b.account u).map fun st => st.supervisorPending.entries.any fun e =>
    e.2.stored.isNone && e.2.live now).getD false

def inFlight (b : Broker) (now : Instant) (u id : String) : Bool :=
  (b.query? u id).any fun e => e.stored.isNone && e.live now

section

variable {b b' : Broker} {now start : Instant} {u id : String} {tx : ConnId}

theorem inFlight_iff : b.inFlight now u id = true <-> b.InFlight now u id := by
  unfold inFlight InFlight
  cases b.query? u id with
  | none => simp
  | some e => simp

theorem InFlight.queried (h : b.InFlight now u id) : b.queried now u = true := by
  rcases h with ⟨e, he, hstored, hlive⟩
  rcases Option.bind_eq_some_iff.mp he with ⟨st, hst, hentry⟩
  unfold Broker.queried
  rw [hst, Option.map_some, Option.getD_some]
  exact List.any_eq_true.mpr
    ⟨⟨id, e⟩, AList.mem_lookup_iff.mp hentry, by simp [hstored, hlive]⟩

theorem InFlight.earlier (hclock : start ≤ now) (h : b.InFlight now u id) :
    b.InFlight start u id := by
  rcases h with ⟨e, he, hstored, hlive⟩
  refine ⟨e, he, hstored, ?_⟩
  have hle : elapsedSecs start e.created ≤ elapsedSecs now e.created :=
    Nat.div_le_div_right (Nat.sub_le_sub_right hclock e.created)
  simp only [SupervisorEntry.live, decide_eq_true_eq] at hlive ⊢
  exact Nat.lt_of_le_of_lt hle hlive

theorem inFlight_congr (h : b'.account u = b.account u) :
    b'.InFlight now u id <-> b.InFlight now u id := by
  have hsame : b'.query? u id = b.query? u id := part_congr h
  unfold InFlight
  rw [hsame]

theorem swept_of_eq {entry : Option SupervisorEntry} {e : SupervisorEntry}
    (h : SupervisorEntry.swept now entry = some e) : entry = some e ∧ e.live now = true :=
  Option.filter_eq_some_iff.mp h

/-- A query in flight after an operation was in flight before, or the operation has
decided to forward it. -/
theorem inFlight_exec {op : BrokerCall} (h : (b.exec now op).1.InFlight now u id) :
    (exists conn, op = .beginSupervisorQuery u id conn ∧
        (b.exec now (.beginSupervisorQuery u id conn)).2 = .forward) ∨
      b.InFlight now u id := by
  rcases h with ⟨e, he, hstored, hlive⟩
  by_cases htouches : op.subject? = some u ∧ .supervisor ∈ op.touches
  · rcases htouches with ⟨hu, htouches⟩
    cases op <;> simp [BrokerCall.touches] at htouches
    case beginSupervisorQuery v i conn =>
        cases hu
        rw [query?_beginSupervisorQuery] at he
        by_cases hid : id = i
        · subst hid
          rw [if_pos rfl] at he
          cases hreply : (b.exec now (.beginSupervisorQuery u id conn)).2 with
          | replay stored =>
              rw [hreply] at he
              cases he
          | capacity =>
              rw [hreply] at he
              exact Or.inr ⟨e, (swept_of_eq he).1, hstored, hlive⟩
          | reowned =>
              rw [hreply] at he
              rcases Option.map_eq_some_iff.mp he with ⟨old, hold, rfl⟩
              exact Or.inr ⟨old, (swept_of_eq hold).1, hstored, (swept_of_eq hold).2⟩
          | forward => exact Or.inl ⟨conn, rfl, hreply⟩
        · rw [if_neg hid] at he
          exact Or.inr ⟨e, (swept_of_eq he).1, hstored, hlive⟩
    case resolveSupervisor v i reply =>
        cases hu
        rw [query?_resolveSupervisor] at he
        by_cases hid : id = i
        · subst hid
          rw [if_pos rfl] at he
          cases hreply : (b.exec now (.resolveSupervisor u id reply)).2 with
          | delivered =>
              rw [hreply] at he
              cases he
          | stored =>
              rw [hreply] at he
              rcases Option.map_eq_some_iff.mp he with ⟨old, _, rfl⟩
              cases hstored
          | unknown =>
              rw [hreply] at he
              exact Or.inr ⟨e, (swept_of_eq he).1, hstored, hlive⟩
        · rw [if_neg hid] at he
          exact Or.inr ⟨e, (swept_of_eq he).1, hstored, hlive⟩
  · rw [query?_exec_other (by rwa [not_and_or] at htouches)] at he
    exact Or.inr ⟨e, he, hstored, hlive⟩

theorem inFlight_of_reowned {conn : ConnId}
    (h : (b.exec now (.beginSupervisorQuery u id conn)).2 = .reowned) :
    b.InFlight now u id := by
  have hdecided := b.exec_beginSupervisorQuery_decided now u id conn
  rw [h] at hdecided
  rcases hdecided with ⟨e, he, hstored⟩
  exact ⟨e, (swept_of_eq he).1, hstored, (swept_of_eq he).2⟩

theorem not_inFlight_of_forward {conn : ConnId}
    (h : (b.exec now (.beginSupervisorQuery u id conn)).2 = .forward) :
    ¬ b.InFlight now u id := by
  rintro ⟨e, he, _, hlive⟩
  have hdecided := b.exec_beginSupervisorQuery_decided now u id conn
  rw [h] at hdecided
  have hswept : SupervisorEntry.swept now (b.query? u id) = none := hdecided
  rw [he] at hswept
  simp [SupervisorEntry.swept, Option.filter, hlive] at hswept

theorem desktop?_congr (h : b'.account u = b.account u) : b'.desktop? u = b.desktop? u :=
  part_congr h

theorem desktop?_exec_other {op : BrokerCall}
    (h : op.subject? ≠ some u ∨ .desktop ∉ op.touches) :
    (b.exec now op).1.desktop? u = b.desktop? u := by
  by_cases hu : op.subject? = some u
  · have habout := h.resolve_left (not_not_intro hu)
    refine part_exec (fun slot => slot) hu rfl (fun _ => rfl) ?_
    have hagree := (b.entry u).after_agree .desktop b.alive now habout
    exact (Prod.mk.inj hagree).1
  · exact part_congr (account_exec_other hu)

theorem desktop?_eq_some : b.desktop? u = some tx <-> b.Holds u .desktop tx :=
  Option.bind_eq_some_iff

end

end Broker

/-!
## What the desktop has been told
-/

def WsMessage.asks (id : String) : WsMessage -> Bool
  | .text (.supervisorQuery i ..) => i = id
  | _ => false

namespace RelayEvent

def issues (u id : String) (e : RelayEvent) : Bool :=
  match e.answered with
  | ⟨.broker (.beginSupervisorQuery v i _), .forward⟩ => v = u && i = id
  | _ => false

/-- The query in flight is taken over by the connection that issues it again. -/
def reowns (u id : String) (e : RelayEvent) : Bool :=
  match e.answered with
  | ⟨.broker (.beginSupervisorQuery v i _), .reowned⟩ => v = u && i = id
  | _ => false

def queries (u id : String) (desktop : ConnId) (e : RelayEvent) : Bool :=
  match e.answered.call with
  | .broker (.sendToDesktop v _) =>
      v = u && e.enqueued.any fun m => m.1 = desktop && m.2.asks id
  | _ => false

end RelayEvent

namespace Relay

def KnownTo (u id : String) (desktop : ConnId) (log : List RelayEvent) : Prop :=
  Standing (RelayEvent.queries u id desktop) (RelayEvent.issues u id) log

/-- A query that has just been taken over is known to the desktop that is registered. -/
def ReownedKnown (s : Relay) : Prop :=
  forall e rest, s.log = e :: rest -> forall u id, e.reowns u id = true ->
    exists desktop, s.broker.desktop? u = some desktop ∧ KnownTo u id desktop rest

def forwardingQuery? (s : Relay) (c : ConnId) : Option (String × String) :=
  match s.upcoming c with
  | some (.broker (.sendToDesktop u (.text (.supervisorQuery id ..)))) => some (u, id)
  | _ => none

def nextOp? (s : Relay) (c : ConnId) : Option BrokerCall :=
  match s.activity c with
  | .handling _ _ _ (.invoke (.broker op) _) => some op
  | .closing (.invoke (.broker op) _) => some op
  | _ => none

/-- While a query of the account is in flight its desktop neither changes nor leaves; a
query is forwarded to a desktop that can receive it; and it is not issued again between
the decision to forward it and the forward. -/
def keepsQueries (s : Relay) : RelayLabel -> Bool
  | .resume c a =>
      match s.nextOp? c with
      | some (.registerDesktop u tx _) => s.broker.desktop? u = some tx || !s.broker.queried a.now u
      | some (.unregisterDesktop u conn) =>
          (s.broker.desktop? u).any (fun desktop => desktop ≠ conn) || !s.broker.queried a.now u
      | some (.sendToDesktop u (.text (.supervisorQuery ..))) =>
          (s.broker.desktop? u).any s.broker.alive
      | some (.beginSupervisorQuery u id _) =>
          !s.broker.inFlight a.now u id ||
            s.log.all fun e => s.forwardingQuery? e.conn ≠ some (u, id)
      | _ => true
  | _ => true

def KeepsQueries (s : Relay) (l : RelayLabel) : Prop :=
  s.keepsQueries l = true

instance (s : Relay) (l : RelayLabel) : Decidable (s.KeepsQueries l) :=
  inferInstanceAs (Decidable (_ = true))

/-- Where a query in flight stands: the desktop that is registered has been told, or a
handler is about to tell it. -/
def Forwarded (s : Relay) (u id : String) : Prop :=
  (exists desktop, s.broker.desktop? u = some desktop ∧ KnownTo u id desktop s.log) ∨
    exists e, e ∈ s.log ∧ s.forwardingQuery? e.conn = some (u, id)

structure Queried (s : Relay) : Prop where
  forwarded : forall {u id}, s.broker.InFlight s.clock u id -> s.Forwarded u id
  reowned : s.ReownedKnown

theorem queried_init (auth : AuthManager) (database : Database) :
    Queried (init auth database) where
  forwarded := by
    rintro u id ⟨e, he, _⟩
    simp [init, broker, Broker.query?, Broker.part, Broker.account, Broker.new] at he
  reowned := by
    intro e rest hlog
    exact absurd hlog.symm (by simp [init])

section

variable {env : Env} {s s' : Relay} {l : RelayLabel} {c : ConnId} {u id : String}

theorem slot_kept {a : Ambient} {op : BrokerCall} (hkeeps : s.KeepsQueries (.resume c a))
    (hnext : s.nextOp? c = some op) (hflight : s.broker.InFlight a.now u id) {desktop : ConnId}
    (hslot : s.broker.desktop? u = some desktop) :
    (s.broker.exec a.now op).1.desktop? u = some desktop := by
  have hqueried := hflight.queried
  by_cases htouches : op.subject? = some u ∧ .desktop ∈ op.touches
  · rcases htouches with ⟨hu, htouches⟩
    simp only [KeepsQueries, keepsQueries, hnext] at hkeeps
    rcases Broker.desktop?_eq_some.mp hslot with ⟨st, hst, htx⟩
    have hafter := Broker.account_exec_of_some op a.now hst hu
    cases op <;> simp [BrokerCall.touches] at htouches
    case registerDesktop v tx capabilities =>
        cases hu
        simp [hqueried, hslot] at hkeeps
        rw [hkeeps]
        exact Broker.desktop?_eq_some.mpr ⟨_, hafter, rfl⟩
    case unregisterDesktop v conn =>
        cases hu
        simp [hqueried, hslot] at hkeeps
        have htx : st.desktopTx = some desktop := htx
        have hheld : (st.dropUploadsOf conn).heldByOther conn = true := by
          simp [AccountState.heldByOther, AccountState.dropUploadsOf, htx, hkeeps]
        refine Broker.desktop?_eq_some.mpr ⟨_, hafter, ?_⟩
        show (st.withoutDesktop conn).desktopTx = some desktop
        unfold AccountState.withoutDesktop
        rw [if_pos hheld]
        exact htx
  · rw [Broker.desktop?_exec_other (by rwa [not_and_or] at htouches)]
    exact hslot

theorem activity_of_forwarding (h : s.forwardingQuery? c = some (u, id)) :
    exists frame role past msg next, s.activity c = .handling frame role past
      (.invoke (.broker (.sendToDesktop u (.text msg))) next) ∧
      (WsMessage.text msg).asks id = true := by
  unfold forwardingQuery? at h
  split at h
  · rename_i v i kind session text fingerprint hnext
    cases h
    rcases activity_of_upcoming hnext with ⟨frame, role, past, next, hact⟩
    exact ⟨frame, role, past, _, next, hact, by simp [WsMessage.asks]⟩
  · cases h

theorem forwarding_of_activity {frame : Inbound} {role : ConnectionRole} {past : List CallAnswer}
    {msg : ControlMessage}
    {next : (Call.broker (.sendToDesktop u (.text msg))).Reply -> Handler Unit}
    (hact : s.activity c = .handling frame role past
      (.invoke (.broker (.sendToDesktop u (.text msg))) next))
    (hasks : (WsMessage.text msg).asks id = true) : s.forwardingQuery? c = some (u, id) := by
  unfold forwardingQuery? upcoming
  rw [hact]
  cases msg <;> simp [WsMessage.asks] at hasks ⊢
  exact hasks

theorem known_of_forward {a : Ambient} {msg : ControlMessage}
    (hkeeps : (s.broker.desktop? u).any s.broker.alive = true)
    (hasks : (WsMessage.text msg).asks id = true) :
    exists desktop,
      (s.perform env c a (.broker (.sendToDesktop u (.text msg)))).broker.desktop? u =
        some desktop ∧
      KnownTo u id desktop (s.perform env c a (.broker (.sendToDesktop u (.text msg)))).log := by
  cases hslot : s.broker.desktop? u with
  | none =>
      rw [hslot] at hkeeps
      cases hkeeps
  | some desktop =>
      rw [hslot] at hkeeps
      refine ⟨desktop, ?_, standing_cons.mpr (Or.inl ?_)⟩
      · have hkept := @Broker.desktop?_exec_other s.broker a.now u (.sendToDesktop u (.text msg))
          (Or.inl (by simp [BrokerCall.subject?]))
        exact hkept.trans hslot
      · have hmem : (desktop, WsMessage.text msg) ∈
            newlyEnqueued s.broker (s.broker.sendToDesktop u (.text msg)).1 :=
          Broker.mem_sendToDesktop (Broker.desktop?_eq_some.mp hslot) hkeeps
        have hany : (newlyEnqueued s.broker (s.broker.sendToDesktop u (.text msg)).1).any
            (fun m => m.1 = desktop && m.2.asks id) = true :=
          List.any_eq_true.mpr ⟨_, hmem, by simp [hasks]⟩
        simp only [RelayEvent.queries, decide_true, Bool.true_and]
        exact hany

theorem forwarding_step (hs : Sound s) (hkeeps : s.KeepsQueries l) (hstep : Transition env s l s')
    {e : RelayEvent} (hmem : e ∈ s.log) (h : s.forwardingQuery? e.conn = some (u, id)) :
    s'.Forwarded u id := by
  rcases activity_of_forwarding h with ⟨frame, role, past, msg, next, hact, hasks⟩
  cases handling_next hstep hact with
  | waits _ hact' =>
      exact Or.inr ⟨e, mem_log_step hs hstep hmem, forwarding_of_activity hact' hasks⟩
  | calls hlabel htask hs' =>
      cases hlabel
      cases htask
      have hready : (s.broker.desktop? u).any s.broker.alive = true := by
        simp only [KeepsQueries, keepsQueries, nextOp?, hact] at hkeeps
        cases msg <;> simp [WsMessage.asks] at hasks
        exact hkeeps
      rw [hs']
      exact Or.inl (known_of_forward hready hasks)
  | panics htask => cases htask
  | returns htask => cases htask

theorem knownTo_step {desktop : ConnId} {e : RelayEvent} (hissues : e.issues u id = false)
    (h : KnownTo u id desktop s.log) : KnownTo u id desktop (e :: s.log) :=
  standing_cons.mpr (Or.inr ⟨hissues, h⟩)

theorem not_issues {a : Ambient} {op : BrokerCall} {enqueued : List (ConnId × WsMessage)}
    (hflight : s.broker.InFlight a.now u id) :
    RelayEvent.issues u id
      { conn := c, now := a.now, answered := ⟨.broker op, s.answer env a (.broker op)⟩,
        enqueued := enqueued } = false := by
  apply Bool.eq_false_iff.mpr
  intro hissues
  cases op
  case beginSupervisorQuery v i conn =>
      cases hreply : s.answer env a (.broker (.beginSupervisorQuery v i conn)) with
      | forward =>
          rw [hreply] at hissues
          have hboth : v = u ∧ i = id := by simpa [RelayEvent.issues] using hissues
          rcases hboth with ⟨rfl, rfl⟩
          exact Broker.not_inFlight_of_forward hreply hflight
      | _ => rw [hreply] at hissues; cases hissues
  all_goals cases hissues

theorem forwarding_of_decided (hs : Sound s) {a : Ambient} {conn : ConnId} {frame : Inbound}
    {role : ConnectionRole} {past : List CallAnswer}
    {next : (Call.broker (.beginSupervisorQuery u id conn)).Reply -> Handler Unit}
    (hbusy : s.activity c = .handling frame role past
      (.invoke (.broker (.beginSupervisorQuery u id conn)) next))
    (hreply : s.answer env a (.broker (.beginSupervisorQuery u id conn)) = .forward)
    (hact : s'.activity c = .handling frame role
      (⟨.broker (.beginSupervisorQuery u id conn), .forward⟩ :: past) (next .forward)) :
    s'.forwardingQuery? c = some (u, id) := by
  have hbehaves := hs.behaves hbusy
  have hframe : exists kind session text fingerprint,
      frame.control? = some (.supervisorQuery id kind session text fingerprint) := by
    cases hbehaves.1.permitted with
    | privately hcall => cases hcall
    | ownUpload hrole hcall => cases hcall
    | desktopCall hrole hcall => cases hcall
    | query hrole hframe => exact ⟨_, _, _, _, hframe⟩
  rcases hframe with ⟨kind, session, text, fingerprint, hframe⟩
  have hnext := hbehaves.2 .forward
  cases htask : next .forward with
  | done value =>
      rw [htask] at hnext
      have hdue : nextCall? frame
          (⟨.broker (.beginSupervisorQuery u id conn), .forward⟩ :: past) = none := hnext
      simp [nextCall?, hframe] at hdue
  | invoke call rest =>
      rw [htask] at hnext
      have hcall := hnext.1.due
        (.broker (.sendToDesktop u (.text (.supervisorQuery id kind session text fingerprint))))
        (by simp [nextCall?, hframe])
      subst hcall
      rw [htask] at hact
      exact forwarding_of_activity hact (by simp [WsMessage.asks])

theorem forwarded_call (hs : Sound s) (hq : s.Queried) {a : Ambient} {op : BrokerCall}
    (hclock : s.clock ≤ a.now) (hkeeps : s.KeepsQueries (.resume c a))
    (hstep : Transition env s (.resume c a) s') (hnext : s.nextOp? c = some op)
    (hbroker : s'.broker = (s.broker.exec a.now op).1)
    (hlog : s'.log = (s.perform env c a (.broker op)).log)
    (hflight : s.broker.InFlight a.now u id) : s'.Forwarded u id := by
  rcases hq.forwarded (hflight.earlier hclock) with
    ⟨desktop, hslot, hknown⟩ | ⟨e, hmem, hforwarding⟩
  · refine Or.inl ⟨desktop, ?_, ?_⟩
    · rw [hbroker]
      exact slot_kept hkeeps hnext hflight hslot
    · rw [hlog]
      exact knownTo_step (not_issues hflight) hknown
  · exact forwarding_step hs hkeeps hstep hmem hforwarding

theorem forwarded_step (hs : Sound s) (hq : s.Queried) (hkeeps : s.KeepsQueries l)
    (hstep : Transition env s l s') (h : s'.broker.InFlight s'.clock u id) :
    s'.Forwarded u id := by
  cases step_effect hs hstep with
  | none haccount hlog hclock halive =>
      have hflight := ((Broker.inFlight_congr (haccount u)).mp h).earlier hclock
      rcases hq.forwarded hflight with ⟨desktop, hslot, hknown⟩ | ⟨e, hmem, hforwarding⟩
      · refine Or.inl ⟨desktop, (Broker.desktop?_congr (haccount u)).trans hslot, ?_⟩
        rw [hlog]
        exact hknown
      · exact forwarding_step hs hkeeps hstep hmem hforwarding
  | handler hclock hbusy hbroker hlog hnow =>
      rename_i c a frame role past call next
      rw [hbroker, hnow] at h
      rcases broker_perform_cases env s c a call with ⟨op, rfl⟩ | ⟨hother, hsame⟩
      · rcases Broker.inFlight_exec h with ⟨conn, rfl, hreply⟩ | hflight
        · refine Or.inr ⟨_, by rw [hlog]; exact List.mem_cons_self, ?_⟩
          have hanswer : s.answer env a (.broker (.beginSupervisorQuery u id conn)) = .forward :=
            hreply
          refine forwarding_of_decided hs hbusy hanswer ?_
          cases handling_next hstep hbusy with
          | waits _ hact' =>
              exact absurd rfl (conn_ne_of_waiting hstep hbusy hact' hlog)
          | calls hlabel htask hs' =>
              cases hlabel
              cases htask
              rw [hs', activity_setActivity_same, hanswer]
          | panics htask => cases htask
          | returns htask => cases htask
        · exact forwarded_call hs hq hclock hkeeps hstep (by simp [nextOp?, hbusy]) hbroker hlog
            hflight
      · rw [hsame] at h
        rcases hq.forwarded (h.earlier hclock) with
          ⟨desktop, hslot, hknown⟩ | ⟨e, hmem, hforwarding⟩
        · refine Or.inl ⟨desktop, ?_, ?_⟩
          · rw [hbroker, hsame]
            exact hslot
          · rw [hlog, log_perform]
            refine knownTo_step ?_ hknown
            cases call
            case broker op => exact absurd rfl (hother op)
            all_goals rfl
        · exact forwarding_step hs hkeeps hstep hmem hforwarding
  | cleanup hclock hbusy hcall hbroker hlog hnow =>
      rename_i c a op next
      rw [hbroker, hnow] at h
      rcases Broker.inFlight_exec h with ⟨conn, rfl, _⟩ | hflight
      · generalize s.role c = role at hcall
        cases hcall
      · exact forwarded_call hs hq hclock hkeeps hstep (by simp [nextOp?, hbusy]) hbroker hlog
          hflight

theorem known_of_reowned (hq : s.Queried) {a : Ambient} {conn : ConnId}
    (hclock : s.clock ≤ a.now) (hkeeps : s.KeepsQueries (.resume c a))
    (hnext : s.nextOp? c = some (.beginSupervisorQuery u id conn))
    (hreply : s.answer env a (.broker (.beginSupervisorQuery u id conn)) = .reowned) :
    exists desktop, s.broker.desktop? u = some desktop ∧ KnownTo u id desktop s.log := by
  have hflight : s.broker.InFlight a.now u id := Broker.inFlight_of_reowned hreply
  rcases hq.forwarded (hflight.earlier hclock) with hknown | ⟨e, hmem, hforwarding⟩
  · exact hknown
  · simp only [KeepsQueries, keepsQueries, hnext, Broker.inFlight_iff.mpr hflight, Bool.not_true,
      Bool.false_or] at hkeeps
    have hnot := List.all_eq_true.mp hkeeps e hmem
    simp [hforwarding] at hnot

theorem reowned_step (hs : Sound s) (hq : s.Queried) (hkeeps : s.KeepsQueries l)
    (hstep : Transition env s l s') : s'.ReownedKnown := by
  intro e rest hnewest u id hreowns
  have hcall : forall {c a op}, l = .resume c a -> s.clock ≤ a.now -> s.nextOp? c = some op ->
      s'.broker = (s.broker.exec a.now op).1 ->
      s'.log = (s.perform env c a (.broker op)).log ->
      exists desktop, s'.broker.desktop? u = some desktop ∧ KnownTo u id desktop rest := by
    intro c a op hlabel hclock hnext hbroker hlog
    rw [hlog, log_perform] at hnewest
    cases hnewest
    cases op
    case beginSupervisorQuery v i conn =>
        cases hreply : s.answer env a (.broker (.beginSupervisorQuery v i conn)) with
        | reowned =>
            rw [hreply] at hreowns
            have hboth : v = u ∧ i = id := by simpa [RelayEvent.reowns] using hreowns
            rcases hboth with ⟨rfl, rfl⟩
            rcases known_of_reowned hq hclock (hlabel ▸ hkeeps) hnext hreply with
              ⟨desktop, hslot, hknown⟩
            refine ⟨desktop, ?_, hknown⟩
            rw [hbroker, Broker.desktop?_exec_other (Or.inr (by simp [BrokerCall.touches]))]
            exact hslot
        | _ => rw [hreply] at hreowns; cases hreowns
    all_goals cases hreowns
  cases step_effect hs hstep with
  | none haccount hlog hclock halive =>
      rw [hlog] at hnewest
      rcases hq.reowned e rest hnewest u id hreowns with ⟨desktop, hslot, hknown⟩
      exact ⟨desktop, (Broker.desktop?_congr (haccount u)).trans hslot, hknown⟩
  | handler hclock hbusy hbroker hlog hnow =>
      rename_i c a frame role past call next
      rcases broker_perform_cases env s c a call with ⟨op, rfl⟩ | ⟨hother, -⟩
      · exact hcall rfl hclock (by simp [nextOp?, hbusy]) hbroker hlog
      · rw [hlog, log_perform] at hnewest
        cases hnewest
        cases call
        case broker op => exact absurd rfl (hother op)
        all_goals cases hreowns
  | cleanup hclock hbusy hcleanup hbroker hlog hnow =>
      exact hcall rfl hclock (by simp [nextOp?, hbusy]) hbroker hlog

theorem queried_step (hs : Sound s) (hq : s.Queried) (hkeeps : s.KeepsQueries l)
    (hstep : Transition env s l s') : s'.Queried where
  forwarded := forwarded_step hs hq hkeeps hstep
  reowned := reowned_step hs hq hkeeps hstep

end

/--
In every run in which an account's desktop neither changes nor leaves while a query is in
flight, every forward finds a desktop that can receive it, and no query is issued again
between the decision to forward it and the forward, a query that is taken over is known
to the desktop that is registered.
-/
theorem reowned_known {env : Env} {auth : AuthManager} {database : Database}
    {labels : List RelayLabel} {s : Relay} (hrun : Runs env auth database labels s)
    (hok : Admits (step env) KeepsQueries (init auth database) labels) : s.ReownedKnown :=
  (admitted_induction (queried_init auth database)
    (fun _ _ _ hs hq hl hnext => queried_step hs hq hl hnext) hrun hok).2.reowned

/-- The phone issues a query: two calls decide about it, the third forwards it. -/
def phoneQuery : Inbound :=
  Deployment.message (.supervisorQuery "query" "summary" none none none)

theorem reowned_known_example : exists s,
    Runs Deployment.env Deployment.auth Deployment.database
      (deskAndPhone ++ Deployment.turn 2 phoneQuery 3 ++ Deployment.start 2 phoneQuery 2) s ∧
      (s.log.head?.any fun e => e.reowns "user" "query") = true ∧ s.ReownedKnown := by
  have hend : (Deployment.after (deskAndPhone ++ Deployment.turn 2 phoneQuery 3 ++
      Deployment.start 2 phoneQuery 2)).map
      (fun s => s.log.head?.any fun e => e.reowns "user" "query") = some true := by
    decide +kernel
  rcases Option.map_eq_some_iff.mp hend with ⟨s, hrun, hreowned⟩
  exact ⟨s, hrun, hreowned, reowned_known hrun (by decide +kernel)⟩

/-- A desktop that takes over while the query is in flight has never heard of it when the
phone issues it again. -/
theorem reowned_at_successor : exists s,
    Runs Deployment.env Deployment.auth Deployment.database
      (deskAndPhone ++ Deployment.turn 2 phoneQuery 3 ++ takeOver ++
        Deployment.start 2 phoneQuery 2) s ∧ ¬ s.ReownedKnown := by
  have hend : (Deployment.after (deskAndPhone ++ Deployment.turn 2 phoneQuery 3 ++ takeOver ++
      Deployment.start 2 phoneQuery 2)).map
      (fun s => (s.log.head?.any fun e => e.reowns "user" "query", s.broker.desktop? "user",
        s.log.all fun e => !e.queries "user" "query" 3)) = some (true, some 3, true) := by
    decide +kernel
  rcases Option.map_eq_some_iff.mp hend with ⟨s, hrun, hfacts⟩
  simp only [Prod.mk.injEq] at hfacts
  rcases hfacts with ⟨hreowned, hslot, hnever⟩
  refine ⟨s, hrun, fun h => ?_⟩
  cases hlog : s.log with
  | nil => simp [hlog] at hreowned
  | cons e rest =>
      rw [hlog] at hreowned hnever
      rcases h e rest hlog "user" "query" hreowned with ⟨desktop, hdesktop, hknown⟩
      rw [hslot] at hdesktop
      cases hdesktop
      rcases hknown with ⟨since, f, before, hrest, hqueries, _⟩
      have hnot := List.all_eq_true.mp hnever f (by simp [hrest])
      simp [hqueries] at hnot

end Relay

end CommandRelay
