import CommandRelay.Broker.Runs

/-!
# Backpressure

A client that falls behind is paused: its dirty flag stops live output until it
asks for a session list.  It can only know that it must ask when a resync was
enqueued to it, which is the work of a spawned task under a rate limit.
-/

namespace CommandRelay

open Foundation

namespace Broker

def dirty (b : Broker) (tx : ConnId) : Bool :=
  (b.channels tx).dirty

/-- The connection is registered as a client of some account. -/
def registered (b : Broker) (tx : ConnId) : Prop :=
  exists u st, b.account u = some st ∧ tx ∈ st.clientTxs

def isResyncTo (tx : ConnId) : ConnId × WsMessage -> Bool
  | (tx', .text .resyncRequired) => decide (tx' = tx)
  | _ => false

def resyncs (b : Broker) (tx : ConnId) : Nat :=
  b.delivered.countP (isResyncTo tx)

/-!
## Raising the flag

Every operation that raises a flag spawns a task for it, and no operation takes a
task away.
-/

structure Warns (b b' : Broker) : Prop where
  raised : forall tx, b'.dirty tx = true -> b.dirty tx = true ∨ tx ∈ b'.nudges
  kept : forall tx, tx ∈ b.nudges -> tx ∈ b'.nudges

theorem Warns.refl (b : Broker) : Warns b b :=
  ⟨fun _ => Or.inl, fun _ h => h⟩

theorem Warns.trans {b b' b'' : Broker} (h : Warns b b') (h' : Warns b' b'') :
    Warns b b'' where
  raised := by
    intro tx hdirty
    rcases h'.raised tx hdirty with hbefore | hwaiting
    · rcases h.raised tx hbefore with hfirst | hwaiting
      · exact Or.inl hfirst
      · exact Or.inr (h'.kept tx hwaiting)
    · exact Or.inr hwaiting
  kept := fun tx hwaiting => h'.kept tx (h.kept tx hwaiting)

theorem dirty_setChannel (b : Broker) (tx : ConnId) (ch : Channel) (tx' : ConnId) :
    (b.setChannel tx ch).dirty tx' = if tx' = tx then ch.dirty else b.dirty tx' := by
  by_cases htx : tx' = tx
  · subst htx
    simp [dirty, setChannel]
  · simp [dirty, setChannel, htx]

/-- A step that only changes accounts, the queue or the counters of channels, or
clears flags. -/
theorem Warns.of_dirty {b b' : Broker}
    (hdirty : forall tx, b'.dirty tx = true -> b.dirty tx = true)
    (hnudges : b'.nudges = b.nudges) : Warns b b' :=
  ⟨fun tx h => Or.inl (hdirty tx h), fun _ h => hnudges ▸ h⟩

theorem Warns.setChannel (b : Broker) (tx : ConnId) {ch : Channel}
    (h : ch.dirty = true -> b.dirty tx = true) : Warns b (b.setChannel tx ch) := by
  refine Warns.of_dirty (fun tx' hdirty => ?_) rfl
  rw [dirty_setChannel] at hdirty
  by_cases htx : tx' = tx
  · subst htx
    exact h (by simpa using hdirty)
  · simpa [htx] using hdirty

theorem dirty_send (b : Broker) (tx : ConnId) (msg : WsMessage) (tx' : ConnId) :
    (b.send tx msg).1.dirty tx' = b.dirty tx' := by
  rw [send_frame]
  show (b.setChannel tx ((b.channels tx).send msg).1).dirty tx' = b.dirty tx'
  rw [dirty_setChannel]
  by_cases htx : tx' = tx
  · simp [htx, dirty]
  · simp [htx]

theorem Warns.send (b : Broker) (tx : ConnId) (msg : WsMessage) :
    Warns b (b.send tx msg).1 :=
  Warns.of_dirty (fun tx' h => (dirty_send b tx msg tx').symm.trans h)
    (nudges_send b tx msg)

theorem Warns.outputTo (b : Broker) (tx : ConnId) (msg : WsMessage) :
    Warns b (b.outputTo tx msg) := by
  unfold Broker.outputTo Broker.sendOutput
  by_cases hdirty : (b.channels tx).dirty = true
  · simp only [hdirty, if_true]
    exact Warns.refl b
  · by_cases hover : (b.channels tx).overBudget msg = true
    · simp only [if_neg hdirty, if_pos hover, if_true]
      refine ⟨fun tx' hraised => ?_, fun tx' h => List.mem_append_left _ h⟩
      by_cases htx : tx' = tx
      · exact Or.inr (by simp [htx])
      · refine Or.inl ?_
        have hsame := dirty_setChannel b tx { b.channels tx with dirty := true } tx'
        rw [if_neg htx] at hsame
        exact hsame.symm.trans hraised
    · simp only [if_neg hdirty, if_neg hover]
      exact Warns.send b tx msg

theorem Warns.stepRelation : StepRelation Warns where
  refl := Warns.refl
  trans := Warns.trans
  put := fun _ _ _ => Warns.of_dirty (fun _ h => h) rfl
  send := Warns.send
  clearDirty := fun b tx => Warns.setChannel b tx fun h => by
    simp [Channel.clearDirty] at h
  outputTo := Warns.outputTo

end Broker

/-!
## Watching one connection

A watched run also keeps whether a resync was enqueued to the connection since
its flag was last raised.  This is read off the broker before and after each
step.
-/

structure WatchedRun where
  run : BrokerRun
  told : Bool

namespace WatchedRun

variable (c : ConnId)

def init : WatchedRun where
  run := BrokerRun.init
  told := false

def observe (before after : Broker) (told : Bool) : Bool :=
  if before.dirty c = false ∧ after.dirty c = true then false
  else told || decide (before.resyncs c < after.resyncs c)

def step (w : WatchedRun) (l : BrokerLabel) : Option WatchedRun :=
  (w.run.step l).map fun s =>
    { run := s, told := observe c w.run.broker s.broker w.told }

def Runs (labels : List BrokerLabel) (w : WatchedRun) : Prop :=
  follow (step c) init labels = some w

/--
A client that is paused, while its writer is running and none of its resync tasks
is waiting, has been told to resync since it was paused.
-/
def PausedTold (w : WatchedRun) : Prop :=
  w.run.broker.registered c -> w.run.broker.alive c = true ->
    w.run.broker.dirty c = true -> c ∉ w.run.broker.nudges -> w.told = true

/-- The last waiting resync task of a paused connection runs within the rate limit,
and nothing was enqueued since the flag was raised. -/
def swallowsNudge (w : WatchedRun) : BrokerLabel -> Bool
  | .nudge now tx =>
      decide (tx = c) && w.run.broker.dirty c && !w.told &&
        !(w.run.broker.channels c).nudgeDue now &&
        decide (w.run.broker.nudges.count c = 1)
  | _ => false

end WatchedRun

namespace Broker

theorem dirty_runNudge (b : Broker) (tx : ConnId) (now : Instant) (tx' : ConnId) :
    (b.runNudge tx now).dirty tx' = b.dirty tx' := by
  unfold runNudge
  by_cases hdue : (b.channels tx).nudgeDue now = true
  · simp only [if_pos hdue, dirty_send]
    rw [dirty_setChannel]
    by_cases htx : tx' = tx
    · subst htx
      simp [dirty]
    · simp only [if_neg htx]
      rfl
  · simp only [if_neg hdue]
    rfl

theorem nudges_runNudge (b : Broker) (tx : ConnId) (now : Instant) :
    (b.runNudge tx now).nudges = b.nudges.erase tx := by
  unfold runNudge
  by_cases hdue : (b.channels tx).nudgeDue now = true
  · simp only [if_pos hdue, nudges_send]
    rfl
  · simp only [if_neg hdue]

theorem resyncs_runNudge {b : Broker} {tx : ConnId} {now : Instant}
    (halive : b.alive tx = true) (hdue : (b.channels tx).nudgeDue now = true) :
    (b.runNudge tx now).resyncs tx = b.resyncs tx + 1 := by
  have hlive : (b.channels tx).receiverAlive = true := halive
  unfold runNudge
  simp [hdue, send, setChannel, hlive, resyncs, isResyncTo]

theorem dirty_drain (b : Broker) (tx tx' : ConnId) :
    (b.drain tx).dirty tx' = b.dirty tx' := by
  unfold drain
  rw [dirty_setChannel]
  by_cases htx : tx' = tx
  · subst htx
    unfold Channel.drain
    cases hqueue : (b.channels tx').queue with
    | nil => simp [dirty]
    | cons msg rest => cases msg <;> simp [dirty, Channel.stop]
  · simp [htx]

theorem dirty_stopWriter (b : Broker) (tx tx' : ConnId) :
    (b.stopWriter tx).dirty tx' = b.dirty tx' := by
  unfold stopWriter
  rw [dirty_setChannel]
  by_cases htx : tx' = tx
  · subst htx
    simp [dirty, Channel.stop]
  · simp [htx]

end Broker

namespace WatchedRun

variable {c : ConnId}

/-- A paused connection with a running writer has been told, or a task is waiting to
tell it. -/
def Covered (c : ConnId) (w : WatchedRun) : Prop :=
  w.run.broker.alive c = true -> w.run.broker.dirty c = true ->
    w.told = true ∨ c ∈ w.run.broker.nudges

/-- A step that keeps the flag, the tasks and every dead receiver keeps the
connection covered. -/
theorem covered_quiet {w : WatchedRun} {s : BrokerRun} (h : w.Covered c)
    (halive : s.broker.alive c = true -> w.run.broker.alive c = true)
    (hwarns : w.run.broker.Warns s.broker) :
    Covered c { run := s, told := observe c w.run.broker s.broker w.told } := by
  intro hlive hdirty
  rcases hwarns.raised c hdirty with hbefore | hwaiting
  · rcases h (halive hlive) hbefore with htold | hwaiting
    · exact Or.inl (by simp [observe, hbefore, htold])
    · exact Or.inr (hwarns.kept c hwaiting)
  · exact Or.inr hwaiting

theorem covered_nudge {w : WatchedRun} {now : Instant} {tx : ConnId} (h : w.Covered c)
    (hok : swallowsNudge c w (.nudge now tx) = false) :
    Covered c
      { run := { w.run with broker := w.run.broker.runNudge tx now, clock := now }
        told := observe c w.run.broker (w.run.broker.runNudge tx now) w.told } := by
  intro hlive hdirty
  have hbefore : w.run.broker.dirty c = true :=
    (Broker.dirty_runNudge w.run.broker tx now c).symm.trans hdirty
  have hliveBefore : w.run.broker.alive c = true :=
    (Broker.alive_runNudge w.run.broker tx now c).symm.trans hlive
  by_cases htold : w.told = true
  · exact Or.inl (by simp [observe, hbefore, htold])
  · have hwaiting := (h hliveBefore hbefore).resolve_left htold
    by_cases htx : tx = c
    · subst htx
      by_cases hdue : (w.run.broker.channels tx).nudgeDue now = true
      · refine Or.inl ?_
        simp [observe, hbefore, Broker.resyncs_runNudge hliveBefore hdue]
      · refine Or.inr ?_
        have hmore : w.run.broker.nudges.count tx ≠ 1 := by
          simpa [swallowsNudge, hbefore, htold, hdue] using hok
        have hcount : 0 < w.run.broker.nudges.count tx := List.count_pos_iff.mpr hwaiting
        rw [Broker.nudges_runNudge]
        refine List.count_pos_iff.mp ?_
        rw [List.count_erase_self]
        omega
    · refine Or.inr ?_
      rw [Broker.nudges_runNudge]
      exact (List.mem_erase_of_ne (Ne.symm htx)).mpr hwaiting

theorem covered_step {w w' : WatchedRun} {l : BrokerLabel} (h : w.Covered c)
    (hok : swallowsNudge c w l = false) (hstep : step c w l = some w') : w'.Covered c := by
  rcases Option.map_eq_some_iff.mp hstep with ⟨s, hs, rfl⟩
  cases l with
  | call now call =>
      by_cases hclock : w.run.clock ≤ now
      · simp only [BrokerRun.step, if_pos hclock, Option.some.injEq] at hs
        subst hs
        exact covered_quiet h
          (fun hlive => (Broker.alive_exec w.run.broker now call c).symm.trans hlive)
          (Broker.Warns.stepRelation.exec w.run.broker now call)
      · simp [BrokerRun.step, hclock] at hs
  | nudge now tx =>
      by_cases hguard : w.run.clock ≤ now ∧ tx ∈ w.run.broker.nudges
      · simp only [BrokerRun.step, if_pos hguard, Option.some.injEq] at hs
        subst hs
        exact covered_nudge h hok
      · simp [BrokerRun.step, hguard] at hs
  | drain tx =>
      simp only [BrokerRun.step, Option.some.injEq] at hs
      subst hs
      exact covered_quiet h Broker.alive_of_alive_drain
        (Broker.Warns.of_dirty
          (fun tx' hd => (Broker.dirty_drain w.run.broker tx tx').symm.trans hd) rfl)
  | stopWriter tx =>
      simp only [BrokerRun.step, Option.some.injEq] at hs
      subst hs
      exact covered_quiet h Broker.alive_of_alive_stopWriter
        (Broker.Warns.of_dirty
          (fun tx' hd => (Broker.dirty_stopWriter w.run.broker tx tx').symm.trans hd) rfl)

/-- In a run in which the rate limit never swallows the last resync task of a
connection that was not told yet, a paused client has been told to resync. -/
theorem paused_told {labels : List BrokerLabel} {w : WatchedRun} (hrun : Runs c labels w)
    (hok : Admits (step c) (fun w l => swallowsNudge c w l = false) init labels) :
    w.PausedTold c := by
  have hcovered : w.Covered c := by
    refine follow_invariant (motive := Covered c) ?_ ?_ hrun hok
    · intro w l w' h hl hstep
      exact covered_step h hl hstep
    · intro _ hdirty
      simp [init, BrokerRun.init, Broker.dirty, Broker.new, Channel.new] at hdirty
  intro _ halive hdirty hwaiting
  exact (hcovered halive hdirty).resolve_right hwaiting

/-!
## A second backlog soon after the first

Live output larger than the whole budget pauses a client that is not paused yet.
-/

def output (n : Nat) : WsMessage :=
  .binary (ptyOutput :: List.replicate n 0)

theorem isPtyOutput_output (n : Nat) : (output n).isPtyOutput = true := by
  simp [output, WsMessage.isPtyOutput]

theorem overBudget_output {n : Nat} (hn : clientOutputBudgetBytes ≤ n) (ch : Channel) :
    ch.overBudget (output n) = true := by
  have hlen : (output n).byteLen = n + 1 := by
    simp [output, WsMessage.byteLen]
  unfold Channel.overBudget
  rw [hlen]
  exact decide_eq_true (by omega)

def paused (b : Broker) (tx : ConnId) : Broker :=
  { b.setChannel tx { b.channels tx with dirty := true } with nudges := b.nudges ++ [tx] }

theorem broadcast_output {b : Broker} {u : String} {st : AccountState} {tx : ConnId}
    {n : Nat} (hn : clientOutputBudgetBytes ≤ n) (haccount : b.account u = some st)
    (hclients : st.clientTxs = [tx]) (hclean : b.dirty tx = false) :
    b.broadcastToClients u (output n) = paused b tx := by
  have hdirty : ¬ (b.channels tx).dirty = true := by
    simpa [Broker.dirty] using hclean
  have hsent : b.sendOutput tx (output n) =
      (b.setChannel tx { b.channels tx with dirty := true }, true) := by
    simp only [Broker.sendOutput, if_neg hdirty, if_pos (overBudget_output hn _)]
  simp only [Broker.broadcastToClients, haccount, if_pos (isPtyOutput_output n), hclients,
    Broker.broadcastOutput, List.foldl_cons, List.foldl_nil, Broker.outputTo, hsent,
    if_true]
  rfl

theorem step_output {w : WatchedRun} {u : String} {st : AccountState} {now : Instant}
    {n : Nat} (hn : clientOutputBudgetBytes ≤ n) (hclock : w.run.clock ≤ now)
    (haccount : w.run.broker.account u = some st) (hclients : st.clientTxs = [c])
    (hclean : w.run.broker.dirty c = false) :
    step c w (.call now (.broadcastToClients u (output n))) =
      some
        { run :=
            { broker := paused w.run.broker c
              clock := now
              log := ⟨now, .broadcastToClients u (output n), ()⟩ :: w.run.log }
          told := observe c w.run.broker (paused w.run.broker c) w.told } := by
  simp only [step, BrokerRun.step, if_pos hclock, Option.map_some, BrokerRun.perform,
    BrokerRun.event, Broker.exec, broadcast_output hn haccount hclients hclean]

def phone : ClientInfo where
  deviceId := "phone"
  deviceName := "Phone"
  ip := "10.0.0.1"
  connectedAt := "2024-01-01T00:00:00+00:00"

def firstBacklog (n : Nat) : List BrokerLabel :=
  [.call 0 (.registerClient "user" 1 phone),
    .call 1 (.broadcastToClients "user" (output n)),
    .nudge 2 1]

def afterFirstBacklog (n : Nat) : WatchedRun where
  run :=
    { broker :=
        (paused (Broker.new.registerClient "user" 1 phone).1 1).runNudge 1 2
      clock := 2
      log :=
        [⟨1, .broadcastToClients "user" (output n), ()⟩,
          ⟨0, .registerClient "user" 1 phone, .ok ()⟩] }
  told := true

theorem runs_firstBacklog {n : Nat} (hn : clientOutputBudgetBytes ≤ n) :
    Runs 1 (firstBacklog n) (afterFirstBacklog n) := by
  have hpause : step 1
      ⟨BrokerRun.init.perform 0 (.registerClient "user" 1 phone), false⟩
      (.call 1 (.broadcastToClients "user" (output n))) = some _ :=
    step_output hn (by decide) rfl rfl rfl
  exact follow_cons_eq_some.mpr ⟨_, rfl, follow_cons_eq_some.mpr ⟨_, hpause, rfl⟩⟩

theorem admits_firstBacklog {n : Nat} (hn : clientOutputBudgetBytes ≤ n) :
    Admits (step 1) (fun w l => swallowsNudge 1 w l = false) init (firstBacklog n) := by
  have hpause : step 1
      ⟨BrokerRun.init.perform 0 (.registerClient "user" 1 phone), false⟩
      (.call 1 (.broadcastToClients "user" (output n))) = some _ :=
    step_output hn (by decide) rfl rfl rfl
  exact ⟨rfl, (admits_cons hpause).mpr ⟨rfl, rfl, trivial⟩⟩

theorem paused_told_example :
    (afterFirstBacklog clientOutputBudgetBytes).PausedTold 1 :=
  paused_told (runs_firstBacklog (Nat.le_refl _)) (admits_firstBacklog (Nat.le_refl _))

/-- The client recovers, falls behind again within ten seconds, and is not told. -/
def secondBacklog (n : Nat) : List BrokerLabel :=
  firstBacklog n ++
    [.call 3 (.noteSessionListRequest "user" "phone" 1),
      .call 4 (.broadcastToClients "user" (output n)),
      .nudge 5 1]

def afterRecovery (n : Nat) : WatchedRun where
  run :=
    { broker :=
        (afterFirstBacklog n).run.broker.noteSessionListRequest "user" "phone" 1
      clock := 3
      log :=
        ⟨3, .noteSessionListRequest "user" "phone" 1, ()⟩ :: (afterFirstBacklog n).run.log }
  told := true

def afterSecondBacklog (n : Nat) : WatchedRun where
  run :=
    { broker := (paused (afterRecovery n).run.broker 1).runNudge 1 5
      clock := 5
      log := ⟨4, .broadcastToClients "user" (output n), ()⟩ :: (afterRecovery n).run.log }
  told := false

theorem runs_secondBacklog {n : Nat} (hn : clientOutputBudgetBytes ≤ n) :
    Runs 1 (secondBacklog n) (afterSecondBacklog n) := by
  have hrecover : step 1 (afterFirstBacklog n)
      (.call 3 (.noteSessionListRequest "user" "phone" 1)) = some (afterRecovery n) := rfl
  have hpause : step 1 (afterRecovery n)
      (.call 4 (.broadcastToClients "user" (output n))) = some _ :=
    step_output hn (Nat.le_succ 3) rfl rfl rfl
  exact follow_append_eq_some.mpr ⟨_, runs_firstBacklog hn,
    follow_cons_eq_some.mpr ⟨_, hrecover, follow_cons_eq_some.mpr ⟨_, hpause, rfl⟩⟩⟩

theorem not_pausedTold_secondBacklog (n : Nat) : ¬ (afterSecondBacklog n).PausedTold 1 := by
  intro htold
  have hfalse : false = true := htold ⟨"user", _, rfl, List.mem_singleton.mpr rfl⟩ rfl rfl
    (List.not_mem_nil)
  contradiction

/-- The second backlog is never announced to the client. -/
theorem second_backlog_untold : exists w,
    Runs 1 (secondBacklog clientOutputBudgetBytes) w ∧ ¬ w.PausedTold 1 :=
  ⟨_, runs_secondBacklog (Nat.le_refl _), not_pausedTold_secondBacklog _⟩

end WatchedRun

end CommandRelay
