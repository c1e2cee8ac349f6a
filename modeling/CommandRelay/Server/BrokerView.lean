import CommandRelay.Broker.Membership
import CommandRelay.Server.Relay

/-!
# The relay as a run of its broker

Handlers, cleanups, keep-alives, writers, resync tasks and the shutdown all reach
the broker through its public operations.  So the broker of a relay goes through a
broker run, and what holds of every broker run holds of every relay.
-/

namespace CommandRelay

open Foundation

def BrokerCall.isSend : BrokerCall -> Bool
  | send .. => true
  | _ => false

/-- The operations of a log that do more than send a message. -/
def BrokerEvent.substance (log : List BrokerEvent) : List BrokerEvent :=
  log.filter fun e => !e.call.isSend

def RelayEvent.operation? (e : RelayEvent) : Option BrokerEvent :=
  match e.answered with
  | ⟨.broker op, r⟩ => some ⟨e.now, op, r⟩
  | _ => none

namespace BrokerRun

theorem follow_sends (r : BrokerRun) (now : Instant) (hclock : r.clock ≤ now)
    (txs : List ConnId) (msg : WsMessage) :
    exists r', follow step r (txs.map fun tx => .call now (.send tx msg)) = some r' ∧
      r'.broker = r.broker.sendAll txs msg ∧ r'.clock ≤ now ∧
      BrokerEvent.substance r'.log = BrokerEvent.substance r.log := by
  induction txs generalizing r with
  | nil => exact ⟨r, rfl, rfl, hclock, rfl⟩
  | cons tx rest ih =>
      rcases ih (r.perform now (.send tx msg)) (Nat.le_refl now) with
        ⟨r', hfollow, hbroker, hle, hlog⟩
      exact ⟨r', follow_cons_eq_some.mpr ⟨_, if_pos hclock, hfollow⟩, hbroker, hle, hlog⟩

end BrokerRun

theorem Broker.broadcastShutdown_eq_sendAll (b : Broker) :
    b.broadcastShutdown =
      b.sendAll (b.accounts.entries.flatMap fun e => e.2.desktopTx.toList ++ e.2.clientTxs)
        (.text .relayShuttingDown) := by
  unfold broadcastShutdown sendAll
  rw [List.foldl_flatMap]

namespace Relay

/-- A broker run has come to where a relay's broker is, through the operations the
relay has logged and some sends. -/
structure Mirrored (s : Relay) (r : BrokerRun) : Prop where
  broker : r.broker = s.broker
  clock : r.clock ≤ s.clock
  log : BrokerEvent.substance r.log =
    BrokerEvent.substance (s.log.filterMap RelayEvent.operation?)

/-- The steps of a broker that go with one step of its relay: background steps, sends, and
the operation that the relay has logged. -/
def Accompanies (labels : List BrokerLabel) (s s' : Relay) : Prop :=
  forall now op, .call now op ∈ labels -> op.isSend = true ∨
    exists e, s'.log = e :: s.log ∧ e.answered.call = .broker op

section

variable {env : Env} {s s' : Relay} {r : BrokerRun}

theorem accompanies_nil : Accompanies [] s s' := by
  intro now op hmem
  cases hmem

theorem Mirrored.idle (h : s.Mirrored r) (hbroker : s'.broker = s.broker)
    (hclock : s.clock ≤ s'.clock) (hlog : s'.log = s.log) : s'.Mirrored r where
  broker := h.broker.trans hbroker.symm
  clock := Nat.le_trans h.clock hclock
  log := by rw [hlog, h.log]

theorem Mirrored.sends (h : s.Mirrored r) (txs : List ConnId) (msg : WsMessage)
    (hbroker : s'.broker = s.broker.sendAll txs msg) (hclock : s'.clock = s.clock)
    (hlog : s'.log = s.log) :
    exists labels r', follow BrokerRun.step r labels = some r' ∧ Accompanies labels s s' ∧
      s'.Mirrored r' := by
  rcases r.follow_sends s.clock h.clock txs msg with ⟨r', hfollow, hsent, hle, hsubstance⟩
  refine ⟨_, r', hfollow, ?_, ?_, ?_, ?_⟩
  · intro now op hmem
    rcases List.mem_map.mp hmem with ⟨tx, _, hcall⟩
    cases hcall
    exact Or.inl rfl
  · rw [hsent, hbroker, h.broker]
  · rw [hclock]
    exact hle
  · rw [hsubstance, hlog, h.log]

theorem Mirrored.background (h : s.Mirrored r) {l : BrokerLabel} {r' : BrokerRun}
    (hstep : BrokerRun.step r l = some r') (hl : forall now op, l ≠ .call now op)
    (hbroker : r'.broker = s'.broker) (hclock : r'.clock ≤ s'.clock) (hsame : r'.log = r.log)
    (hlog : s'.log = s.log) :
    exists labels r', follow BrokerRun.step r labels = some r' ∧ Accompanies labels s s' ∧
      s'.Mirrored r' := by
  refine ⟨[l], r', follow_cons_eq_some.mpr ⟨r', hstep, rfl⟩, ?_, hbroker, hclock, ?_⟩
  · intro now op hmem
    exact absurd (List.mem_singleton.mp hmem).symm (hl now op)
  · rw [hsame, hlog, h.log]

theorem Mirrored.perform (h : s.Mirrored r) (c : ConnId) {a : Ambient} (hclock : s.clock ≤ a.now)
    (call : Call) :
    exists labels r', follow BrokerRun.step r labels = some r' ∧
      Accompanies labels s (s.perform env c a call) ∧ (s.perform env c a call).Mirrored r' := by
  by_cases hop : exists op, call = .broker op
  · rcases hop with ⟨op, rfl⟩
    have hnow : r.clock ≤ a.now := Nat.le_trans h.clock hclock
    refine ⟨[.call a.now op], r.perform a.now op, ?_, ?_, ?_, Nat.le_refl _, ?_⟩
    · exact follow_cons_eq_some.mpr ⟨_, if_pos hnow, rfl⟩
    · intro now op' hmem
      cases List.mem_singleton.mp hmem
      exact Or.inr ⟨_, rfl, rfl⟩
    · show (r.broker.exec a.now op).1 = (s.broker.exec a.now op).1
      rw [h.broker]
    · have hevent : r.event a.now op = ⟨a.now, op, (s.broker.exec a.now op).2⟩ := by
        rw [BrokerRun.event, h.broker]
      show BrokerEvent.substance (r.event a.now op :: r.log) =
        BrokerEvent.substance (⟨a.now, op, (s.broker.exec a.now op).2⟩ ::
          s.log.filterMap RelayEvent.operation?)
      rw [hevent]
      have hlog := h.log
      unfold BrokerEvent.substance at hlog ⊢
      rw [List.filter_cons, List.filter_cons, hlog]
  · have hother : forall op, call ≠ .broker op := fun op heq => hop ⟨op, heq⟩
    refine ⟨[], r, rfl, accompanies_nil,
      h.broker.trans (s.broker_perform_other env c hother).symm,
      Nat.le_trans h.clock hclock, ?_⟩
    have hnone : RelayEvent.operation?
        { conn := c, now := a.now, answered := ⟨call, s.answer env a call⟩
          enqueued := newlyEnqueued s.broker (s.app.exec env a call).1.broker } = none := by
      unfold RelayEvent.operation?
      cases call <;> first | rfl | exact absurd rfl (hother _)
    rw [log_perform, List.filterMap_cons_none hnone]
    exact h.log

theorem Mirrored.step (h : s.Mirrored r) {l : RelayLabel} (hstep : step env s l = some s') :
    exists labels r', follow BrokerRun.step r labels = some r' ∧ Accompanies labels s s' ∧
      s'.Mirrored r' := by
  cases step_taken hstep with
  | connect hvacant => exact h.sends [_] (.text Handler.serverHello) rfl rfl rfl
  | receive hidle => exact ⟨[], r, rfl, accompanies_nil, h.idle rfl (Nat.le_refl _) rfl⟩
  | resume hclock hbusy =>
      rcases h.perform _ hclock _ with ⟨labels, r', hfollow, hmade, hmirrored⟩
      exact ⟨labels, r', hfollow, hmade, hmirrored.idle rfl (Nat.le_refl _) rfl⟩
  | panic hclock hbusy =>
      rcases h.perform _ hclock _ with ⟨labels, r', hfollow, hmade, hmirrored⟩
      exact ⟨labels, r', hfollow, hmade, hmirrored.idle rfl (Nat.le_refl _) rfl⟩
  | clean hclock hbusy =>
      rcases h.perform _ hclock _ with ⟨labels, r', hfollow, hmade, hmirrored⟩
      exact ⟨labels, r', hfollow, hmade, hmirrored.idle rfl (Nat.le_refl _) rfl⟩
  | returned hbusy => exact ⟨[], r, rfl, accompanies_nil, h.idle rfl (Nat.le_refl _) rfl⟩
  | closed hbusy =>
      rename_i c
      refine h.background (l := .stopWriter c) rfl (fun _ _ h => by cases h) ?_ h.clock rfl rfl
      show r.broker.stopWriter c = s.broker.stopWriter c
      rw [h.broker]
  | hangUp hidle => exact ⟨[], r, rfl, accompanies_nil, h.idle rfl (Nat.le_refl _) rfl⟩
  | ping hidle => exact h.sends [_] (.text .ping) rfl rfl rfl
  | nudge hclock hwaits =>
      rename_i c now
      have hrun : r.clock ≤ now ∧ c ∈ r.broker.nudges :=
        ⟨Nat.le_trans h.clock hclock, h.broker ▸ hwaits⟩
      refine h.background (l := .nudge now c) (if_pos hrun) (fun _ _ h => by cases h) ?_
        (Nat.le_refl _) rfl rfl
      show r.broker.runNudge c now = s.broker.runNudge c now
      rw [h.broker]
  | drain hopened =>
      rename_i c
      refine h.background (l := .drain c) rfl (fun _ _ h => by cases h) ?_ h.clock rfl rfl
      show r.broker.drain c = s.broker.drain c
      rw [h.broker]
  | stopWriter hopened =>
      rename_i c
      refine h.background (l := .stopWriter c) rfl (fun _ _ h => by cases h) ?_ h.clock rfl rfl
      show r.broker.stopWriter c = s.broker.stopWriter c
      rw [h.broker]
  | shutdown => exact h.sends _ _ s.broker.broadcastShutdown_eq_sendAll rfl rfl
  | administer => exact ⟨[], r, rfl, accompanies_nil, h.idle rfl (Nat.le_refl _) rfl⟩

def operation? (s : Relay) : RelayLabel -> Option BrokerCall
  | .resume c _ =>
      match s.activity c with
      | .handling _ _ _ (.invoke (.broker op) _) => some op
      | .closing (.invoke (.broker op) _) => some op
      | _ => none
  | _ => none

theorem operation_of_log {l : RelayLabel} {e : RelayEvent} {op : BrokerCall}
    (hstep : step env s l = some s') (hlog : s'.log = e :: s.log)
    (hcall : e.answered.call = .broker op) : s.operation? l = some op := by
  have hsilent : s'.log ≠ s.log := fun hsame => List.cons_ne_self e s.log (hlog.symm.trans hsame)
  cases step_transition hstep with
  | connect _ _ _ hsame _ _ => exact absurd hsame hsilent
  | receive hidle => exact absurd rfl hsilent
  | resume hclock hbusy =>
      injection hlog with he
      subst he
      subst hcall
      simp only [operation?, hbusy]
  | panic hclock hbusy =>
      injection hlog with he
      subst he
      cases hcall
  | returned hbusy => exact absurd rfl hsilent
  | hangUp hidle => exact absurd rfl hsilent
  | clean hclock hbusy =>
      injection hlog with he
      subst he
      subst hcall
      simp only [operation?, hbusy]
  | closed hbusy => exact absurd rfl hsilent
  | background hquiet => exact absurd hquiet.log hsilent

/-- What the broker keeps in all its steps but for some operations, a step of the relay keeps
that makes none of those. -/
theorem broker_kept {motive : Broker -> Prop} {keeps : BrokerCall -> Bool} {l : RelayLabel}
    (hsends : forall tx msg, keeps (.send tx msg) = true)
    (hkept : forall {run run' : BrokerRun} {label}, run.step label = some run' ->
      (forall now op, label = .call now op -> keeps op = true) ->
        motive run.broker -> motive run'.broker)
    (hstep : step env s l = some s') (hok : (s.operation? l).all keeps = true)
    (h : motive s.broker) : motive s'.broker := by
  have hself : s.Mirrored
      { broker := s.broker, clock := s.clock, log := s.log.filterMap RelayEvent.operation? } :=
    ⟨rfl, Nat.le_refl _, rfl⟩
  rcases hself.step hstep with ⟨labels, run, hfollow, hmade, hmirrored⟩
  rw [← hmirrored.broker]
  refine follow_invariant (motive := fun run : BrokerRun => motive run.broker)
    (fun _ _ _ hrun hlabel hnext => hkept hnext hlabel hrun) h hfollow
    (admits_of_mem (fun label hmem now op hlabel => ?_) _)
  subst hlabel
  rcases hmade now op hmem with hsend | ⟨e, hlog, hcall⟩
  · cases op with
    | send tx msg => exact hsends tx msg
    | _ => cases hsend
  · rw [operation_of_log hstep hlog hcall] at hok
    exact hok

end

/-- The broker of a relay that a run reaches is reached by a broker run, which makes the
operations the relay has logged and, besides them, only sends. -/
theorem broker_runs {env : Env} {auth : AuthManager} {database : Database}
    {labels : List RelayLabel} {s : Relay} (hrun : Runs env auth database labels s) :
    exists steps r, BrokerRun.Runs steps r ∧ s.Mirrored r := by
  refine runs_labels_induction (motive := fun _ s =>
    exists steps r, BrokerRun.Runs steps r ∧ s.Mirrored r) ?_ ?_ hrun
  · exact ⟨[], BrokerRun.init, rfl, rfl, Nat.le_refl _, rfl⟩
  · rintro labels s l s' - ⟨steps, r, hruns, hmirrored⟩ hstep
    rcases hmirrored.step hstep with ⟨more, r', hfollow, _, hmirrored'⟩
    exact ⟨steps ++ more, r', follow_append_eq_some.mpr ⟨r, hruns, hfollow⟩, hmirrored'⟩

theorem Mirrored.follows {env : Env} {s s' : Relay} {more : List RelayLabel} {r : BrokerRun}
    (h : s.Mirrored r) (hfollow : follow (Relay.step env) s more = some s') :
    exists next r', follow BrokerRun.step r next = some r' ∧ s'.Mirrored r' := by
  induction more generalizing s r with
  | nil =>
      cases hfollow
      exact ⟨[], r, rfl, h⟩
  | cons l rest ih =>
      rcases follow_cons_eq_some.mp hfollow with ⟨mid, hstep, hrest⟩
      rcases h.step hstep with ⟨now, r', hnow, _, hmirrored⟩
      rcases ih hmirrored hrest with ⟨next, r'', hnext, hend⟩
      exact ⟨now ++ next, r'', follow_append_eq_some.mpr ⟨r', hnow, hnext⟩, hend⟩

/-- The relay refines its broker: wherever a run of the relay has come to, one run of the
broker has come to as well, and goes on with the relay however that goes on, making the same
operations at the same times with the same answers. -/
theorem refines_broker {env : Env} {auth : AuthManager} {database : Database}
    {labels : List RelayLabel} {s : Relay} (hrun : Runs env auth database labels s) :
    exists steps r, BrokerRun.Runs steps r ∧ s.Mirrored r ∧
      forall more s', follow (step env) s more = some s' ->
        exists next r', follow BrokerRun.step r next = some r' ∧ s'.Mirrored r' := by
  rcases broker_runs hrun with ⟨steps, r, hruns, hmirrored⟩
  exact ⟨steps, r, hruns, hmirrored, fun _ _ hfollow => hmirrored.follows hfollow⟩

theorem refines_broker_example : exists s s' steps next r r',
    Runs Deployment.env Deployment.auth Deployment.database deskAndPhone s ∧
      follow (step Deployment.env) s takeOver = some s' ∧ BrokerRun.Runs steps r ∧
      s.Mirrored r ∧ follow BrokerRun.step r next = some r' ∧ s'.Mirrored r' := by
  have hend : (Deployment.after (deskAndPhone ++ takeOver)).isSome = true := by decide +kernel
  rcases Option.isSome_iff_exists.mp hend with ⟨s', hs'⟩
  rcases follow_append_eq_some.mp hs' with ⟨s, hrun, hfollow⟩
  rcases refines_broker hrun with ⟨steps, r, hruns, hmirrored, hgoes⟩
  rcases hgoes takeOver s' hfollow with ⟨next, r', hnext, hmirrored'⟩
  exact ⟨s, s', steps, next, r, r', hrun, hfollow, hruns, hmirrored, hnext, hmirrored'⟩

theorem broker_induction {motive : Broker -> Prop}
    (h : forall steps r, BrokerRun.Runs steps r -> motive r.broker)
    {env : Env} {auth : AuthManager} {database : Database} {labels : List RelayLabel}
    {s : Relay} (hrun : Runs env auth database labels s) : motive s.broker := by
  rcases broker_runs hrun with ⟨steps, r, hruns, hmirrored⟩
  rw [← hmirrored.broker]
  exact h steps r hruns

theorem nodup_clients {env : Env} {auth : AuthManager} {database : Database}
    {labels : List RelayLabel} {s : Relay} (hrun : Runs env auth database labels s)
    (u : String) : ((s.broker.clients u).map ClientConnection.tx).Nodup :=
  broker_induction (motive := fun b => ((b.clients u).map ClientConnection.tx).Nodup)
    (fun _ _ hruns => (BrokerRun.roster_of_runs hruns u).nodup) hrun

end Relay

end CommandRelay
