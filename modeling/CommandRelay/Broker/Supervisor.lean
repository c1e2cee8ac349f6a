import CommandRelay.Broker.Runs

/-!
# Supervisor replies

The query under one id of one account is a small machine of its own: it is in
flight, or holds a parked reply, or is absent.  The first part states that
machine over its own steps and relates it to the trace of those steps; the
second part shows that the broker's table runs it.
-/

namespace CommandRelay

open Foundation

/-!
## The trace of one query
-/

/-- What happens to one query: it is issued and decided, or answered. -/
inductive SupervisorStep where
  | asked (now : Instant) (conn : ConnId) (decision : SupervisorQueryDecision)
  | answered (now : Instant) (reply : ControlMessage) (outcome : SupervisorResolveOutcome)

namespace SupervisorStep

def forwards : SupervisorStep -> Bool
  | asked _ _ .forward => true
  | _ => false

def handsOut : SupervisorStep -> Bool
  | asked _ _ (.replay _) => true
  | answered _ _ .delivered => true
  | _ => false

def replays : SupervisorStep -> Bool
  | asked _ _ (.replay _) => true
  | _ => false

def parks? : SupervisorStep -> Option ControlMessage
  | answered _ reply .stored => some reply
  | _ => none

def asker? : SupervisorStep -> Option ConnId
  | asked _ conn _ => some conn
  | answered .. => none

end SupervisorStep

section Trace

def lastAsker (trace : List SupervisorStep) : Option ConnId :=
  trace.findSome? SupervisorStep.asker?

def lastParked (trace : List SupervisorStep) : Option ControlMessage :=
  trace.findSome? SupervisorStep.parks?

def lastForward : List SupervisorStep -> Option Instant
  | [] => none
  | .asked now _ .forward :: _ => some now
  | _ :: rest => lastForward rest

/-- How often a reply was handed out since the last forward decision. -/
def handedOut : List SupervisorStep -> Nat
  | [] => 0
  | .asked _ _ .forward :: _ => 0
  | step :: rest => (if step.handsOut then 1 else 0) + handedOut rest

/-- The reply parked since the last forward decision and not replayed since. -/
def parkedReply : List SupervisorStep -> Option ControlMessage
  | [] => none
  | .asked _ _ .forward :: _ => none
  | .asked _ _ (.replay _) :: _ => none
  | .answered _ reply .stored :: _ => some reply
  | _ :: rest => parkedReply rest

end Trace

section TraceLemmas

variable {trace since before : List SupervisorStep} {step : SupervisorStep}
  {t now : Instant} {c conn : ConnId}

theorem handedOut_since (h : forall step, step ∈ since -> step.forwards = false) :
    handedOut (since ++ .asked t c .forward :: before) =
      (since.filter SupervisorStep.handsOut).length := by
  induction since with
  | nil => rfl
  | cons step rest ih =>
      have hrest := ih fun s hs => h s (List.mem_cons_of_mem _ hs)
      have hstep := h step List.mem_cons_self
      rcases step with ⟨now, conn, decision⟩ | ⟨now, reply, outcome⟩
      · cases decision <;>
          simp_all [handedOut, List.filter_cons, SupervisorStep.handsOut,
            SupervisorStep.forwards, Nat.add_comm]
      · cases outcome <;>
          simp_all [handedOut, List.filter_cons, SupervisorStep.handsOut, Nat.add_comm]

theorem lastForward_eq_none (h : forall step, step ∈ trace -> step.forwards = false) :
    lastForward trace = none := by
  induction trace with
  | nil => rfl
  | cons step rest ih =>
      have hrest := ih fun s hs => h s (List.mem_cons_of_mem _ hs)
      have hstep := h step List.mem_cons_self
      rcases step with ⟨now, conn, decision⟩ | ⟨now, reply, outcome⟩
      · cases decision <;> simp_all [lastForward, SupervisorStep.forwards]
      · exact hrest

theorem lastForward_since (h : forall step, step ∈ since -> step.forwards = false) :
    lastForward (since ++ .asked t c .forward :: before) = some t := by
  induction since with
  | nil => rfl
  | cons step rest ih =>
      have hrest := ih fun s hs => h s (List.mem_cons_of_mem _ hs)
      have hstep := h step List.mem_cons_self
      rcases step with ⟨now, conn, decision⟩ | ⟨now, reply, outcome⟩
      · cases decision <;> simp_all [lastForward, SupervisorStep.forwards]
      · exact hrest

theorem handsOut_cons (trace : List SupervisorStep) (h : step.handsOut = true) :
    handedOut (step :: trace) = handedOut trace + 1 ∧
      lastForward (step :: trace) = lastForward trace := by
  rcases step with ⟨now, conn, decision⟩ | ⟨now, reply, outcome⟩
  · cases decision <;> simp_all [handedOut, lastForward, SupervisorStep.handsOut, Nat.add_comm]
  · cases outcome <;> simp_all [handedOut, lastForward, SupervisorStep.handsOut, Nat.add_comm]

theorem parkedReply_cons (trace : List SupervisorStep)
    (hforward : step.forwards = false) (hreplay : step.replays = false)
    (hparks : step.parks? = none) :
    parkedReply (step :: trace) = parkedReply trace ∧
      lastForward (step :: trace) = lastForward trace := by
  rcases step with ⟨now, conn, decision⟩ | ⟨now, reply, outcome⟩
  · cases decision <;>
      simp_all [parkedReply, lastForward, SupervisorStep.forwards, SupervisorStep.replays]
  · cases outcome <;> simp_all [parkedReply, lastForward, SupervisorStep.parks?]

end TraceLemmas

/-!
## The single-query machine
-/

namespace SupervisorEntry

def swept (now : Instant) (entry : Option SupervisorEntry) : Option SupervisorEntry :=
  entry.filter (live now)

def Decided (entry : Option SupervisorEntry) : SupervisorQueryDecision -> Prop
  | .replay stored => exists e, entry = some e ∧ e.stored = some stored
  | .reowned => exists e, entry = some e ∧ e.stored = none
  | .capacity => entry = none
  | .forward => entry = none

def afterAsk (conn : ConnId) (now : Instant) :
    SupervisorQueryDecision -> Option SupervisorEntry -> Option SupervisorEntry
  | .replay _, _ => none
  | .reowned, entry => entry.map fun e => { e with owner := conn }
  | .capacity, entry => entry
  | .forward, _ => some { owner := conn, stored := none, created := now }

def Answered (alive : ConnId -> Bool) (entry : Option SupervisorEntry) :
    SupervisorResolveOutcome -> Prop
  | .delivered => exists e, entry = some e ∧ alive e.owner = true
  | .stored => exists e, entry = some e ∧ alive e.owner = false
  | .unknown => entry = none

def afterReply (reply : ControlMessage) :
    SupervisorResolveOutcome -> Option SupervisorEntry -> Option SupervisorEntry
  | .delivered, _ => none
  | .stored, entry => entry.map fun e => { e with stored := some reply }
  | .unknown, entry => entry

end SupervisorEntry

/-- The entry of a query against the trace of its steps, newest first. -/
structure SupervisorHistory (trace : List SupervisorStep) (clock : Instant)
    (alive : ConnId -> Bool) (entry : Option SupervisorEntry) : Prop where
  owner_eq : forall e, entry = some e -> lastAsker trace = some e.owner
  created_eq : forall e, entry = some e -> lastForward trace = some e.created
  stored_eq : forall e, entry = some e -> e.stored = parkedReply trace
  stored_dead : forall e, entry = some e -> e.stored ≠ none -> alive e.owner = false
  unanswered : forall e, entry = some e -> handedOut trace = 0
  handed_le : handedOut trace ≤ 1
  never_forwarded : lastForward trace = none -> handedOut trace = 0
  parked_unanswered : parkedReply trace ≠ none -> handedOut trace = 0
  parked_last : forall reply, parkedReply trace = some reply ->
    lastParked trace = some reply
  kept : forall t, lastForward trace = some t -> handedOut trace = 0 ->
    elapsedSecs clock t < supervisorGcSecs -> entry ≠ none

namespace SupervisorHistory

variable {trace : List SupervisorStep} {clock now : Instant} {alive alive' : ConnId -> Bool}
  {entry : Option SupervisorEntry} {conn : ConnId} {reply : ControlMessage}

theorem start : SupervisorHistory [] clock alive none where
  owner_eq := by simp
  created_eq := by simp
  stored_eq := by simp
  stored_dead := by simp
  unanswered := by simp
  handed_le := Nat.zero_le 1
  never_forwarded := fun _ => rfl
  parked_unanswered := fun _ => rfl
  parked_last := by simp [parkedReply]
  kept := by simp [lastForward]

theorem advance (h : SupervisorHistory trace clock alive entry) (hclock : clock ≤ now)
    (halive : forall tx, alive' tx = true -> alive tx = true) :
    SupervisorHistory trace now alive' entry :=
  { h with
    stored_dead := by
      intro e he hstored
      have hdead := h.stored_dead e he hstored
      cases hlive : alive' e.owner with
      | false => rfl
      | true => simp [halive _ hlive] at hdead
    kept := by
      intro t ht hunanswered hfresh
      refine h.kept t ht hunanswered (Nat.lt_of_le_of_lt ?_ hfresh)
      exact Nat.div_le_div_right (Nat.sub_le_sub_right hclock t) }

theorem swept (h : SupervisorHistory trace now alive entry) :
    SupervisorHistory trace now alive (SupervisorEntry.swept now entry) := by
  have hsub : forall e, SupervisorEntry.swept now entry = some e -> entry = some e :=
    fun _ he => (Option.filter_eq_some_iff.mp he).1
  exact
    { h with
      owner_eq := fun e he => h.owner_eq e (hsub e he)
      created_eq := fun e he => h.created_eq e (hsub e he)
      stored_eq := fun e he => h.stored_eq e (hsub e he)
      stored_dead := fun e he => h.stored_dead e (hsub e he)
      unanswered := fun e he => h.unanswered e (hsub e he)
      kept := by
        intro t ht hunanswered hfresh
        cases hentry : entry with
        | none => exact absurd hentry (h.kept t ht hunanswered hfresh)
        | some e =>
            have hcreated : e.created = t :=
              Option.some.inj ((h.created_eq e hentry).symm.trans ht)
            simp [SupervisorEntry.swept, Option.filter, SupervisorEntry.live, hcreated,
              hfresh] }

theorem asked_replay (h : SupervisorHistory trace now alive entry) {e : SupervisorEntry}
    (hentry : entry = some e) {stored : ControlMessage} :
    SupervisorHistory (.asked now conn (.replay stored) :: trace) now alive none := by
  have hhanded : handedOut (.asked now conn (.replay stored) :: trace) = 1 := by
    simp [handedOut, SupervisorStep.handsOut, h.unanswered e hentry]
  refine
    { owner_eq := by simp
      created_eq := by simp
      stored_eq := by simp
      stored_dead := by simp
      unanswered := by simp
      handed_le := Nat.le_of_eq hhanded
      never_forwarded := ?_
      parked_unanswered := by simp [parkedReply]
      parked_last := by simp [parkedReply]
      kept := by simp [hhanded] }
  simp [lastForward, h.created_eq e hentry]

theorem asked_reowned (h : SupervisorHistory trace now alive entry) {e : SupervisorEntry}
    (hentry : entry = some e) (hstored : e.stored = none) :
    SupervisorHistory (.asked now conn .reowned :: trace) now alive
      (some { e with owner := conn }) := by
  have hhanded : handedOut (.asked now conn .reowned :: trace) = handedOut trace := by
    simp [handedOut, SupervisorStep.handsOut]
  refine
    { owner_eq := ?_
      created_eq := ?_
      stored_eq := ?_
      stored_dead := ?_
      unanswered := fun _ _ => hhanded.trans (h.unanswered e hentry)
      handed_le := hhanded ▸ h.handed_le
      never_forwarded := fun hnone => hhanded.trans (h.never_forwarded hnone)
      parked_unanswered := fun hparked => hhanded.trans (h.parked_unanswered hparked)
      parked_last := h.parked_last
      kept := by simp }
  · rintro _ ⟨rfl⟩
    rfl
  · rintro _ ⟨rfl⟩
    exact h.created_eq e hentry
  · rintro _ ⟨rfl⟩
    exact h.stored_eq e hentry
  · rintro _ ⟨rfl⟩ hsome
    exact absurd hstored hsome

theorem asked_capacity (h : SupervisorHistory trace now alive none) :
    SupervisorHistory (.asked now conn .capacity :: trace) now alive none := by
  have hhanded : handedOut (.asked now conn .capacity :: trace) = handedOut trace := by
    simp [handedOut, SupervisorStep.handsOut]
  exact
    { owner_eq := by simp
      created_eq := by simp
      stored_eq := by simp
      stored_dead := by simp
      unanswered := by simp
      handed_le := hhanded ▸ h.handed_le
      never_forwarded := fun hnone => hhanded.trans (h.never_forwarded hnone)
      parked_unanswered := fun hparked => hhanded.trans (h.parked_unanswered hparked)
      parked_last := h.parked_last
      kept := fun t ht hunanswered => h.kept t ht (hhanded ▸ hunanswered) }

theorem asked_forward :
    SupervisorHistory (.asked now conn .forward :: trace) now alive
      (some { owner := conn, stored := none, created := now }) where
  owner_eq := by
    rintro _ ⟨rfl⟩
    rfl
  created_eq := by
    rintro _ ⟨rfl⟩
    rfl
  stored_eq := by
    rintro _ ⟨rfl⟩
    rfl
  stored_dead := by
    rintro _ ⟨rfl⟩ hsome
    exact absurd rfl hsome
  unanswered := fun _ _ => rfl
  handed_le := Nat.zero_le 1
  never_forwarded := fun _ => rfl
  parked_unanswered := fun _ => rfl
  parked_last := by simp [parkedReply]
  kept := by simp

theorem asked (h : SupervisorHistory trace now alive entry) (conn : ConnId)
    {decision : SupervisorQueryDecision}
    (hdecided : SupervisorEntry.Decided entry decision) :
    SupervisorHistory (.asked now conn decision :: trace) now alive
      (SupervisorEntry.afterAsk conn now decision entry) := by
  cases decision with
  | replay stored =>
      rcases hdecided with ⟨e, hentry, _⟩
      exact h.asked_replay hentry
  | reowned =>
      rcases hdecided with ⟨e, hentry, hstored⟩
      simp only [SupervisorEntry.afterAsk, hentry, Option.map_some]
      exact h.asked_reowned hentry hstored
  | capacity =>
      have hnone : entry = none := hdecided
      subst hnone
      exact h.asked_capacity
  | forward => exact asked_forward

theorem answered_delivered (h : SupervisorHistory trace now alive entry)
    {e : SupervisorEntry} (hentry : entry = some e) (halive : alive e.owner = true) :
    SupervisorHistory (.answered now reply .delivered :: trace) now alive none := by
  have hhanded : handedOut (.answered now reply .delivered :: trace) = 1 := by
    simp [handedOut, SupervisorStep.handsOut, h.unanswered e hentry]
  have hstored : parkedReply trace = none := by
    rw [← h.stored_eq e hentry]
    by_contra hsome
    simp [h.stored_dead e hentry hsome] at halive
  refine
    { owner_eq := by simp
      created_eq := by simp
      stored_eq := by simp
      stored_dead := by simp
      unanswered := by simp
      handed_le := Nat.le_of_eq hhanded
      never_forwarded := by simp [lastForward, h.created_eq e hentry]
      parked_unanswered := by simp [parkedReply, hstored]
      parked_last := by simp [parkedReply, hstored]
      kept := by simp [hhanded] }

/-- The reply is parked, because the owner is gone. -/
theorem answered_stored (h : SupervisorHistory trace now alive entry)
    {e : SupervisorEntry} (hentry : entry = some e) (hdead : alive e.owner = false) :
    SupervisorHistory (.answered now reply .stored :: trace) now alive
      (some { e with stored := some reply }) := by
  have hhanded : handedOut (.answered now reply .stored :: trace) = 0 := by
    simp [handedOut, SupervisorStep.handsOut, h.unanswered e hentry]
  refine
    { owner_eq := ?_
      created_eq := ?_
      stored_eq := ?_
      stored_dead := ?_
      unanswered := fun _ _ => hhanded
      handed_le := hhanded ▸ Nat.zero_le 1
      never_forwarded := fun _ => hhanded
      parked_unanswered := fun _ => hhanded
      parked_last := ?_
      kept := by simp }
  · rintro _ ⟨rfl⟩
    exact h.owner_eq e hentry
  · rintro _ ⟨rfl⟩
    exact h.created_eq e hentry
  · rintro _ ⟨rfl⟩
    rfl
  · rintro _ ⟨rfl⟩ _
    exact hdead
  · rintro _ ⟨rfl⟩
    rfl

theorem answered_unknown (h : SupervisorHistory trace now alive none) :
    SupervisorHistory (.answered now reply .unknown :: trace) now alive none := by
  have hhanded : handedOut (.answered now reply .unknown :: trace) = handedOut trace := by
    simp [handedOut, SupervisorStep.handsOut]
  exact
    { owner_eq := by simp
      created_eq := by simp
      stored_eq := by simp
      stored_dead := by simp
      unanswered := by simp
      handed_le := hhanded ▸ h.handed_le
      never_forwarded := fun hnone => hhanded.trans (h.never_forwarded hnone)
      parked_unanswered := fun hparked => hhanded.trans (h.parked_unanswered hparked)
      parked_last := h.parked_last
      kept := fun t ht hunanswered => h.kept t ht (hhanded ▸ hunanswered) }

theorem answered (h : SupervisorHistory trace now alive entry) (reply : ControlMessage)
    {outcome : SupervisorResolveOutcome}
    (hanswered : SupervisorEntry.Answered alive entry outcome) :
    SupervisorHistory (.answered now reply outcome :: trace) now alive
      (SupervisorEntry.afterReply reply outcome entry) := by
  cases outcome with
  | delivered =>
      rcases hanswered with ⟨e, hentry, halive⟩
      exact h.answered_delivered hentry halive
  | stored =>
      rcases hanswered with ⟨e, hentry, hdead⟩
      simp only [SupervisorEntry.afterReply, hentry, Option.map_some]
      exact h.answered_stored hentry hdead
  | unknown =>
      have hnone : entry = none := hanswered
      subst hnone
      exact h.answered_unknown

end SupervisorHistory

/-!
## The broker's table
-/

namespace AccountState

variable (st : AccountState) (queryId id : String) (conn : ConnId) (now : Instant)

def queryAt (id : String) (st : AccountState) : Option SupervisorEntry :=
  st.supervisorPending.lookup id

theorem queryAt_gcSupervisor :
    (st.gcSupervisor now).queryAt id = SupervisorEntry.swept now (st.queryAt id) :=
  Table.lookup_retain (SupervisorEntry.live now) st.supervisorPending id

theorem beginSupervisorQuery_decided :
    SupervisorEntry.Decided (SupervisorEntry.swept now (st.queryAt queryId))
      (st.beginSupervisorQuery queryId conn now).2 := by
  rw [← queryAt_gcSupervisor]
  unfold beginSupervisorQuery queryAt
  cases hentry : (st.gcSupervisor now).supervisorPending.lookup queryId with
  | none =>
      by_cases hcap : maxPendingSupervisor ≤ (st.gcSupervisor now).supervisorPending.size
      · simp [hentry, hcap, SupervisorEntry.Decided]
      · simp [hentry, hcap, SupervisorEntry.Decided]
  | some e => cases hstored : e.stored <;> simp [hentry, hstored, SupervisorEntry.Decided]

theorem queryAt_beginSupervisorQuery :
    (st.beginSupervisorQuery queryId conn now).1.queryAt id =
      if id = queryId then
        SupervisorEntry.afterAsk conn now (st.beginSupervisorQuery queryId conn now).2
          (SupervisorEntry.swept now (st.queryAt id))
      else SupervisorEntry.swept now (st.queryAt id) := by
  rw [← queryAt_gcSupervisor]
  unfold beginSupervisorQuery queryAt
  cases hentry : (st.gcSupervisor now).supervisorPending.lookup queryId with
  | none =>
      by_cases hcap : maxPendingSupervisor ≤ (st.gcSupervisor now).supervisorPending.size
      · by_cases hid : id = queryId
        · subst hid
          simp [hentry, hcap, SupervisorEntry.afterAsk]
        · simp [hentry, hcap, hid]
      · by_cases hid : id = queryId
        · subst hid
          simp [hentry, hcap, SupervisorEntry.afterAsk]
        · simp [hentry, hcap, hid, AList.lookup_insert_ne hid]
  | some e =>
      by_cases hid : id = queryId
      · subst hid
        cases hstored : e.stored <;>
          simp [hentry, hstored, SupervisorEntry.afterAsk, Table.lookup_modify_same,
            AList.lookup_erase]
      · cases hstored : e.stored <;>
          simp [hentry, hstored, hid, Table.lookup_modify_ne _ _ hid,
            AList.lookup_erase_ne hid]

theorem queryAt_withReply (alive : ConnId -> Bool) (reply : ControlMessage)
    {outcome : SupervisorResolveOutcome}
    (houtcome : SupervisorEntry.Answered alive
      (SupervisorEntry.swept now (st.queryAt queryId)) outcome) :
    (st.withReply alive queryId reply now).queryAt id =
      if id = queryId then
        SupervisorEntry.afterReply reply outcome
          (SupervisorEntry.swept now (st.queryAt id))
      else SupervisorEntry.swept now (st.queryAt id) := by
  rw [← queryAt_gcSupervisor] at houtcome ⊢
  unfold withReply queryAt
  unfold queryAt at houtcome
  cases hentry : (st.gcSupervisor now).supervisorPending.lookup queryId with
  | none =>
      rw [hentry] at houtcome
      cases outcome <;> simp [SupervisorEntry.Answered] at houtcome
      by_cases hid : id = queryId
      · subst hid
        simp [hentry, SupervisorEntry.afterReply]
      · simp [hentry, hid]
  | some e =>
      rw [hentry] at houtcome
      cases outcome <;> simp [SupervisorEntry.Answered] at houtcome
      · by_cases hid : id = queryId
        · subst hid
          simp [hentry, houtcome, SupervisorEntry.afterReply, AList.lookup_erase]
        · simp [hentry, houtcome, hid, AList.lookup_erase_ne hid]
      · by_cases hid : id = queryId
        · subst hid
          simp [hentry, houtcome, SupervisorEntry.afterReply, Table.lookup_modify_same]
        · simp [hentry, houtcome, hid, Table.lookup_modify_ne _ _ hid]

end AccountState

namespace BrokerEvent

def supervisorStep? (u id : String) : BrokerEvent -> Option SupervisorStep
  | ⟨now, .beginSupervisorQuery v queryId conn, decision⟩ =>
      if u = v ∧ id = queryId then some (.asked now conn decision) else none
  | ⟨now, .resolveSupervisor v queryId reply, outcome⟩ =>
      if u = v ∧ id = queryId then some (.answered now reply outcome) else none
  | _ => none

end BrokerEvent

namespace Broker

def query? (b : Broker) (u id : String) : Option SupervisorEntry :=
  b.part u (AccountState.queryAt id)

theorem query?_of_entry (b : Broker) (u id : String) :
    (b.entry u).queryAt id = b.query? u id :=
  field_entry b u rfl

theorem exec_beginSupervisorQuery_decided (b : Broker) (now : Instant) (u id : String)
    (conn : ConnId) :
    SupervisorEntry.Decided (SupervisorEntry.swept now (b.query? u id))
      (b.exec now (.beginSupervisorQuery u id conn)).2 := by
  rw [← query?_of_entry]
  exact (b.entry u).beginSupervisorQuery_decided id conn now

theorem query?_beginSupervisorQuery (b : Broker) (now : Instant) (u queryId id : String)
    (conn : ConnId) :
    (b.exec now (.beginSupervisorQuery u queryId conn)).1.query? u id =
      if id = queryId then
        SupervisorEntry.afterAsk conn now
          (b.exec now (.beginSupervisorQuery u queryId conn)).2
          (SupervisorEntry.swept now (b.query? u id))
      else SupervisorEntry.swept now (b.query? u id) :=
  part_exec
    (fun entry =>
      if id = queryId then
        SupervisorEntry.afterAsk conn now
          (b.exec now (.beginSupervisorQuery u queryId conn)).2
          (SupervisorEntry.swept now entry)
      else SupervisorEntry.swept now entry)
    rfl rfl (by simp [BrokerCall.creates])
    ((b.entry u).queryAt_beginSupervisorQuery queryId id conn now)

theorem exec_resolveSupervisor_answered (b : Broker) (now : Instant) (u id : String)
    (reply : ControlMessage) :
    SupervisorEntry.Answered b.alive (SupervisorEntry.swept now (b.query? u id))
      (b.exec now (.resolveSupervisor u id reply)).2 := by
  show SupervisorEntry.Answered b.alive _ (b.resolveSupervisor u id reply now).2
  unfold resolveSupervisor query? part
  cases b.account u with
  | none => exact rfl
  | some st =>
      rw [Option.bind_some, ← AccountState.queryAt_gcSupervisor]
      unfold AccountState.queryAt
      cases hentry : (st.gcSupervisor now).supervisorPending.lookup id with
      | none => simp [hentry, SupervisorEntry.Answered]
      | some e =>
          by_cases hsent : (b.send e.owner (.text reply)).2 = true
          · have halive : b.alive e.owner = true := (send_delivers _ _ _).symm.trans hsent
            simp [hentry, hsent, SupervisorEntry.Answered, halive]
          · have hdead : b.alive e.owner = false := by
              rw [send_delivers] at hsent
              simpa [alive] using hsent
            simp [hentry, hsent, SupervisorEntry.Answered, hdead]

theorem query?_resolveSupervisor (b : Broker) (now : Instant) (u queryId id : String)
    (reply : ControlMessage) :
    (b.exec now (.resolveSupervisor u queryId reply)).1.query? u id =
      if id = queryId then
        SupervisorEntry.afterReply reply
          (b.exec now (.resolveSupervisor u queryId reply)).2
          (SupervisorEntry.swept now (b.query? u id))
      else SupervisorEntry.swept now (b.query? u id) := by
  have houtcome := b.exec_resolveSupervisor_answered now u queryId reply
  rw [← query?_of_entry] at houtcome
  refine part_exec
    (fun entry =>
      if id = queryId then
        SupervisorEntry.afterReply reply
          (b.exec now (.resolveSupervisor u queryId reply)).2
          (SupervisorEntry.swept now entry)
      else SupervisorEntry.swept now entry)
    rfl rfl ?_ ((b.entry u).queryAt_withReply queryId id now b.alive reply houtcome)
  intro _
  cases (b.exec now (.resolveSupervisor u queryId reply)).2 <;>
    simp [SupervisorEntry.afterReply, SupervisorEntry.swept]

theorem query?_exec_other {b : Broker} {now : Instant} {c : BrokerCall} {u : String}
    (h : c.subject? ≠ some u ∨ .supervisor ∉ c.touches) (id : String) :
    (b.exec now c).1.query? u id = b.query? u id := by
  by_cases hu : c.subject? = some u
  · have habout := h.resolve_left (not_not_intro hu)
    refine part_exec (fun entry => entry) hu rfl (fun _ => rfl) ?_
    exact congrArg (AList.lookup id) ((b.entry u).after_agree _ b.alive now habout)
  · exact part_congr (account_exec_other hu)

theorem delivered_resolveSupervisor {b : Broker} {now : Instant} {u id : String}
    {reply : ControlMessage} {e : SupervisorEntry}
    (hentry : SupervisorEntry.swept now (b.query? u id) = some e)
    (halive : b.alive e.owner = true) :
    (b.exec now (.resolveSupervisor u id reply)).1.delivered =
      (e.owner, .text reply) :: b.delivered := by
  show (b.resolveSupervisor u id reply now).1.delivered = _
  have hsent : (b.channels e.owner).receiverAlive = true := halive
  unfold resolveSupervisor
  unfold query? part at hentry
  cases hst : b.account u with
  | none => simp [hst, SupervisorEntry.swept] at hentry
  | some st =>
      rw [hst, Option.bind_some, ← AccountState.queryAt_gcSupervisor] at hentry
      unfold AccountState.queryAt at hentry
      simp [hentry, send, hsent, put, setChannel]

end Broker

namespace BrokerRun

def supervisorTrace (u id : String) (s : BrokerRun) : List SupervisorStep :=
  s.log.filterMap (BrokerEvent.supervisorStep? u id)

def SupervisorInvariant (u id : String) (s : BrokerRun) : Prop :=
  SupervisorHistory (s.supervisorTrace u id) s.clock s.broker.alive (s.broker.query? u id)

theorem supervisor_perform {s : BrokerRun} {u id : String}
    (h : s.SupervisorInvariant u id) {now : Instant} (hclock : s.clock ≤ now)
    (c : BrokerCall) : (s.perform now c).SupervisorInvariant u id := by
  have halive : (s.perform now c).broker.alive = s.broker.alive :=
    funext (Broker.alive_exec s.broker now c)
  have hnow : SupervisorHistory (s.supervisorTrace u id) now s.broker.alive
      (s.broker.query? u id) := SupervisorHistory.advance h hclock fun _ h => h
  unfold SupervisorInvariant
  rw [halive]
  show SupervisorHistory _ now _ ((s.broker.exec now c).1.query? u id)
  by_cases habout : c.subject? = some u ∧ .supervisor ∈ c.touches
  · rcases habout with ⟨hu, htouches⟩
    cases c <;> try simp [BrokerCall.touches] at htouches
    case beginSupervisorQuery v queryId conn =>
        cases hu
        rw [Broker.query?_beginSupervisorQuery]
        by_cases hid : id = queryId
        · subst hid
          rw [if_pos rfl]
          have hasked :=
            hnow.swept.asked conn (s.broker.exec_beginSupervisorQuery_decided now u id conn)
          simpa [supervisorTrace, perform, event, BrokerEvent.supervisorStep?] using hasked
        · rw [if_neg hid]
          simpa [supervisorTrace, perform, event, BrokerEvent.supervisorStep?, hid] using
            hnow.swept
    case resolveSupervisor v queryId reply =>
        cases hu
        rw [Broker.query?_resolveSupervisor]
        by_cases hid : id = queryId
        · subst hid
          rw [if_pos rfl]
          have hanswered :=
            hnow.swept.answered reply (s.broker.exec_resolveSupervisor_answered now u id reply)
          simpa [supervisorTrace, perform, event, BrokerEvent.supervisorStep?] using hanswered
        · rw [if_neg hid]
          simpa [supervisorTrace, perform, event, BrokerEvent.supervisorStep?, hid] using
            hnow.swept
  · rw [not_and_or] at habout
    rw [Broker.query?_exec_other habout]
    have hstep : BrokerEvent.supervisorStep? u id (s.event now c) = none := by
      cases c <;>
        simp_all [event, BrokerEvent.supervisorStep?, BrokerCall.subject?,
          BrokerCall.touches, eq_comm]
    simpa [supervisorTrace, perform, hstep] using hnow

theorem supervisor_invariant {labels : List BrokerLabel} {s : BrokerRun}
    (hrun : Runs labels s) (u id : String) : s.SupervisorInvariant u id := by
  refine runs_induction (motive := fun s => s.SupervisorInvariant u id) ?_ ?_ ?_ hrun
  · exact SupervisorHistory.start
  · intro s now c h hclock
    exact supervisor_perform h hclock c
  · intro s s' h hquiet
    unfold SupervisorInvariant supervisorTrace
    rw [hquiet.log, show s'.broker.query? u id = s.broker.query? u id from
      Broker.part_congr (hquiet.account u)]
    exact SupervisorHistory.advance h hquiet.clock hquiet.alive

theorem supervisorTrace_perform (s : BrokerRun) (u id : String) (now : Instant)
    (c : BrokerCall) :
    (s.perform now c).supervisorTrace u id =
      ((s.event now c).supervisorStep? u id).toList ++ s.supervisorTrace u id := by
  unfold supervisorTrace perform
  cases hstep : (s.event now c).supervisorStep? u id with
  | none => simp [hstep]
  | some step => simp [hstep]

theorem history_of_trace_suffix {labels : List BrokerLabel} {s : BrokerRun} {u id : String}
    (hrun : Runs labels s) {later earlier : List SupervisorStep}
    (htrace : s.supervisorTrace u id = later ++ earlier) :
    exists clock alive entry, SupervisorHistory earlier clock alive entry := by
  rcases List.filterMap_eq_append_iff.mp htrace with ⟨newer, older, hlog, _, holder⟩
  rcases runs_of_log_suffix hrun hlog with ⟨labels', s', hrun', hlog'⟩
  have h := supervisor_invariant hrun' u id
  unfold SupervisorInvariant supervisorTrace at h
  rw [hlog', holder] at h
  exact ⟨_, _, _, h⟩

theorem swept_of_forwards {s : BrokerRun} {u id : String} {now : Instant} {c : BrokerCall}
    {step : SupervisorStep} (hstep : (s.event now c).supervisorStep? u id = some step)
    (hforward : step.forwards = true) :
    SupervisorEntry.swept now (s.broker.query? u id) = none := by
  cases c <;> simp [event, BrokerEvent.supervisorStep?] at hstep
  case beginSupervisorQuery v queryId conn =>
      rcases hstep with ⟨⟨rfl, rfl⟩, rfl⟩
      have hdecided := s.broker.exec_beginSupervisorQuery_decided now u id conn
      cases hdecision : (s.broker.exec now (.beginSupervisorQuery u id conn)).2 with
      | forward =>
          rw [hdecision] at hdecided
          exact hdecided
      | replay stored => simp [hdecision, SupervisorStep.forwards] at hforward
      | reowned => simp [hdecision, SupervisorStep.forwards] at hforward
      | capacity => simp [hdecision, SupervisorStep.forwards] at hforward
  case resolveSupervisor v queryId reply =>
      rcases hstep with ⟨_, rfl⟩
      simp [SupervisorStep.forwards] at hforward

theorem parked_stays {labels : List BrokerLabel} {s : BrokerRun} {u id : String}
    (hrun : Runs labels s) {reply : ControlMessage} {t : Instant}
    {parked : List SupervisorStep} (hreply : parkedReply parked = some reply)
    (hforward : lastForward parked = some t) {after : List SupervisorStep}
    (htrace : s.supervisorTrace u id = after ++ parked)
    (hafter : forall step, step ∈ after -> step.replays = false ∧ step.parks? = none)
    (hfresh : elapsedSecs s.clock t < supervisorGcSecs) :
    parkedReply (s.supervisorTrace u id) = some reply ∧
      lastForward (s.supervisorTrace u id) = some t := by
  have hall : s.SupervisorInvariant u id ∧ forall after,
      s.supervisorTrace u id = after ++ parked ->
      (forall step, step ∈ after -> step.replays = false ∧ step.parks? = none) ->
      elapsedSecs s.clock t < supervisorGcSecs ->
      parkedReply (s.supervisorTrace u id) = some reply ∧
        lastForward (s.supervisorTrace u id) = some t := by
    refine runs_induction (motive := fun s => s.SupervisorInvariant u id ∧ forall after,
      s.supervisorTrace u id = after ++ parked ->
      (forall step, step ∈ after -> step.replays = false ∧ step.parks? = none) ->
      elapsedSecs s.clock t < supervisorGcSecs ->
      parkedReply (s.supervisorTrace u id) = some reply ∧
        lastForward (s.supervisorTrace u id) = some t) ?_ ?_ ?_ hrun
    · refine ⟨SupervisorHistory.start, fun after htrace _ _ => ?_⟩
      have hnil : parked = [] := (List.append_eq_nil_iff.mp htrace.symm).2
      simp [hnil, parkedReply] at hreply
    · rintro s now c ⟨h, ih⟩ hclock
      refine ⟨supervisor_perform h hclock c, fun after htrace hafter hfresh => ?_⟩
      have hearlier : elapsedSecs s.clock t < supervisorGcSecs :=
        Nat.lt_of_le_of_lt (Nat.div_le_div_right (Nat.sub_le_sub_right hclock t)) hfresh
      rw [supervisorTrace_perform] at htrace ⊢
      cases hstep : (s.event now c).supervisorStep? u id with
      | none =>
          rw [hstep] at htrace
          exact ih after htrace hafter hearlier
      | some step =>
          rw [hstep] at htrace
          cases after with
          | nil =>
              rw [htrace, List.nil_append]
              exact ⟨hreply, hforward⟩
          | cons newest rest =>
              simp only [Option.toList_some, List.cons_append, List.nil_append,
                List.cons.injEq] at htrace
              rcases htrace with ⟨rfl, htrace⟩
              rcases ih rest htrace (fun s hs => hafter s (List.mem_cons_of_mem _ hs))
                hearlier with ⟨hparked, hlast⟩
              have hnow := SupervisorHistory.advance h hclock fun _ halive => halive
              have hpresent := hnow.swept.kept t hlast
                (h.parked_unanswered (by simp [hparked])) hfresh
              have hnot : step.forwards = false := by
                by_contra hforwards
                exact hpresent (swept_of_forwards hstep (by simpa using hforwards))
              have hkeep := hafter step List.mem_cons_self
              rcases parkedReply_cons (s.supervisorTrace u id) hnot hkeep.1 hkeep.2 with
                ⟨hp, hl⟩
              exact ⟨hp.trans hparked, hl.trans hlast⟩
    · rintro s s' ⟨h, ih⟩ hquiet
      have htrace : s'.supervisorTrace u id = s.supervisorTrace u id := by
        simp [supervisorTrace, hquiet.log]
      refine ⟨?_, fun after hafter' hafter hfresh => ?_⟩
      · unfold SupervisorInvariant
        rw [htrace, show s'.broker.query? u id = s.broker.query? u id from
          Broker.part_congr (hquiet.account u)]
        exact SupervisorHistory.advance h hquiet.clock hquiet.alive
      · rw [htrace] at hafter' ⊢
        exact ih after hafter' hafter (Nat.lt_of_le_of_lt
          (Nat.div_le_div_right (Nat.sub_le_sub_right hquiet.clock t)) hfresh)
  exact hall.2 after htrace hafter hfresh

/--
What the relay promises about the query under one id: in its trace so far, and
for any next operation.
-/
structure SupervisorGoverned (u id : String) (s : BrokerRun) : Prop where
  handed_out_once : forall later since before t c,
    s.supervisorTrace u id = later ++ (since ++ .asked t c .forward :: before) ->
    (forall step, step ∈ since -> step.forwards = false) ->
    (since.filter SupervisorStep.handsOut).length ≤ 1
  forwarded_first : forall later step before,
    s.supervisorTrace u id = later ++ step :: before -> step.handsOut = true ->
    exists f, f ∈ before ∧ f.forwards = true
  delivered_to_asker : forall now reply, s.clock ≤ now ->
    (s.broker.exec now (.resolveSupervisor u id reply)).2 = .delivered ->
    exists c, lastAsker (s.supervisorTrace u id) = some c ∧
      (s.broker.exec now (.resolveSupervisor u id reply)).1.delivered =
        (c, .text reply) :: s.broker.delivered
  replay_last_parked : forall now c stored, s.clock ≤ now ->
    (s.broker.exec now (.beginSupervisorQuery u id c)).2 = .replay stored ->
    lastParked (s.supervisorTrace u id) = some stored
  parked_kept : forall after t' reply since t c before,
    s.supervisorTrace u id =
      after ++ .answered t' reply .stored :: (since ++ .asked t c .forward :: before) ->
    (forall step, step ∈ since -> step.forwards = false) ->
    (forall step, step ∈ after -> step.replays = false ∧ step.parks? = none) ->
    forall now c', s.clock ≤ now -> elapsedSecs now t < supervisorGcSecs ->
      (s.broker.exec now (.beginSupervisorQuery u id c')).2 = .replay reply

theorem Broker.replay_of_stored {b : Broker} {now : Instant} {u id : String} {c : ConnId}
    {e : SupervisorEntry} {reply : ControlMessage}
    (hentry : SupervisorEntry.swept now (b.query? u id) = some e)
    (hstored : e.stored = some reply) :
    (b.exec now (.beginSupervisorQuery u id c)).2 = .replay reply := by
  have hdecided := b.exec_beginSupervisorQuery_decided now u id c
  rw [hentry] at hdecided
  cases hdecision : (b.exec now (.beginSupervisorQuery u id c)).2 with
  | replay stored =>
      rw [hdecision] at hdecided
      rcases hdecided with ⟨e', he', hstored'⟩
      cases he'
      rw [hstored, Option.some.injEq] at hstored'
      rw [hstored']
  | reowned =>
      rw [hdecision] at hdecided
      rcases hdecided with ⟨e', he', hstored'⟩
      cases he'
      simp [hstored] at hstored'
  | capacity => simp [hdecision, SupervisorEntry.Decided] at hdecided
  | forward => simp [hdecision, SupervisorEntry.Decided] at hdecided

/-- Every supervisor query of every run is governed. -/
theorem supervisor_governed {labels : List BrokerLabel} {s : BrokerRun}
    (hrun : Runs labels s) (u id : String) : SupervisorGoverned u id s := by
  have h := supervisor_invariant hrun u id
  have hat : forall now, s.clock ≤ now ->
      SupervisorHistory (s.supervisorTrace u id) now s.broker.alive
        (SupervisorEntry.swept now (s.broker.query? u id)) :=
    fun now hclock => (SupervisorHistory.advance h hclock fun _ halive => halive).swept
  refine
    { handed_out_once := ?_
      forwarded_first := ?_
      delivered_to_asker := ?_
      replay_last_parked := ?_
      parked_kept := ?_ }
  · intro later since before t c htrace hsince
    rcases history_of_trace_suffix hrun htrace with ⟨clock, alive, entry, hpart⟩
    rw [← handedOut_since hsince]
    exact hpart.handed_le
  · intro later step before htrace hhands
    rcases history_of_trace_suffix hrun htrace with ⟨clock, alive, entry, hpart⟩
    rcases handsOut_cons before hhands with ⟨hcount, hlast⟩
    by_contra hnone
    have hbefore : lastForward before = none := by
      refine lastForward_eq_none fun f hf => ?_
      by_contra hforward
      exact hnone ⟨f, hf, by simpa using hforward⟩
    have hzero := hpart.never_forwarded (hlast.trans hbefore)
    omega
  · intro now reply hclock hdelivered
    have hanswered := s.broker.exec_resolveSupervisor_answered now u id reply
    rw [hdelivered] at hanswered
    rcases hanswered with ⟨e, hentry, halive⟩
    exact ⟨e.owner, (hat now hclock).owner_eq e hentry,
      Broker.delivered_resolveSupervisor hentry halive⟩
  · intro now c stored hclock hreplay
    have hdecided := s.broker.exec_beginSupervisorQuery_decided now u id c
    rw [hreplay] at hdecided
    rcases hdecided with ⟨e, hentry, hstored⟩
    exact h.parked_last stored (((hat now hclock).stored_eq e hentry).symm.trans hstored)
  · intro after t' reply since t c before htrace hsince hafter now c' hclock hfresh
    have hearlier : elapsedSecs s.clock t < supervisorGcSecs :=
      Nat.lt_of_le_of_lt (Nat.div_le_div_right (Nat.sub_le_sub_right hclock t)) hfresh
    have hlast : lastForward (.answered t' reply .stored ::
        (since ++ .asked t c .forward :: before)) = some t := lastForward_since hsince
    rcases parked_stays hrun rfl hlast htrace hafter hearlier with ⟨hparked, hforward⟩
    have hpresent := (hat now hclock).kept t hforward
      (h.parked_unanswered (by simp [hparked])) hfresh
    rcases Option.ne_none_iff_exists'.mp hpresent with ⟨e, hentry⟩
    have hstored : e.stored = some reply := ((hat now hclock).stored_eq e hentry).trans hparked
    exact Broker.replay_of_stored hentry hstored

theorem supervisor_governed_example : exists s,
    Runs [.call 0 (.beginSupervisorQuery "user" "query" 1), .stopWriter 1,
      .call 5 (.resolveSupervisor "user" "query" .ping)] s ∧
      SupervisorGoverned "user" "query" s := by
  have hrun : Runs [.call 0 (.beginSupervisorQuery "user" "query" 1), .stopWriter 1,
      .call 5 (.resolveSupervisor "user" "query" .ping)] _ := rfl
  exact ⟨_, hrun, supervisor_governed hrun "user" "query"⟩

end BrokerRun

end CommandRelay
