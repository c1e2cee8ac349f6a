import CommandRelay.Broker.Frames

/-!
# Runs of the broker

A broker run interleaves operations of any connections with the background
steps of writers and resync tasks, on one nondecreasing clock.  It keeps the
operations made so far and their answers, newest first.
-/

namespace CommandRelay

open Foundation

/-- One operation of a run, with the time it was made and its answer. -/
structure BrokerEvent where
  now : Instant
  call : BrokerCall
  reply : call.Reply

structure BrokerRun where
  broker : Broker
  clock : Instant
  log : List BrokerEvent

inductive BrokerLabel where
  | call (now : Instant) (c : BrokerCall)
  | nudge (now : Instant) (tx : ConnId)
  | drain (tx : ConnId)
  | stopWriter (tx : ConnId)

namespace BrokerRun

def init : BrokerRun where
  broker := Broker.new
  clock := 0
  log := []

def event (s : BrokerRun) (now : Instant) (c : BrokerCall) : BrokerEvent :=
  ⟨now, c, (s.broker.exec now c).2⟩

def perform (s : BrokerRun) (now : Instant) (c : BrokerCall) : BrokerRun where
  broker := (s.broker.exec now c).1
  clock := now
  log := s.event now c :: s.log

def step (s : BrokerRun) : BrokerLabel -> Option BrokerRun
  | .call now c => if s.clock ≤ now then some (s.perform now c) else none
  | .nudge now tx =>
      if s.clock ≤ now ∧ tx ∈ s.broker.nudges then
        some { s with broker := s.broker.runNudge tx now, clock := now }
      else none
  | .drain tx => some { s with broker := s.broker.drain tx }
  | .stopWriter tx => some { s with broker := s.broker.stopWriter tx }

def Runs (labels : List BrokerLabel) (s : BrokerRun) : Prop :=
  follow step init labels = some s

/-- A background step: it leaves every account and the log alone, and revives no
receiver. -/
structure Quiet (s s' : BrokerRun) : Prop where
  account : forall u, s'.broker.account u = s.broker.account u
  log : s'.log = s.log
  clock : s.clock ≤ s'.clock
  alive : forall tx, s'.broker.alive tx = true -> s.broker.alive tx = true

theorem step_cases {s s' : BrokerRun} {l : BrokerLabel} (h : step s l = some s') :
    (exists now c, l = .call now c ∧ s.clock ≤ now ∧ s' = s.perform now c) ∨
      Quiet s s' := by
  cases l with
  | call now c =>
      by_cases hclock : s.clock ≤ now
      · simp only [step, if_pos hclock, Option.some.injEq] at h
        exact Or.inl ⟨now, c, rfl, hclock, h.symm⟩
      · simp [step, hclock] at h
  | nudge now tx =>
      by_cases hguard : s.clock ≤ now ∧ tx ∈ s.broker.nudges
      · simp only [step, if_pos hguard, Option.some.injEq] at h
        subst h
        exact Or.inr
          { account := fun u => Broker.account_runNudge s.broker tx now u
            log := rfl
            clock := hguard.1
            alive := fun tx' h => (Broker.alive_runNudge s.broker tx now tx').symm.trans h }
      · simp [step, hguard] at h
  | drain tx =>
      simp only [step, Option.some.injEq] at h
      subst h
      exact Or.inr
        { account := fun _ => rfl
          log := rfl
          clock := Nat.le_refl _
          alive := fun _ => Broker.alive_of_alive_drain }
  | stopWriter tx =>
      simp only [step, Option.some.injEq] at h
      subst h
      exact Or.inr
        { account := fun _ => rfl
          log := rfl
          clock := Nat.le_refl _
          alive := fun _ => Broker.alive_of_alive_stopWriter }

/--
What holds at the start, and is kept by the operations that meet a condition and
by background steps, holds at the end of every run that admits the condition.
-/
theorem admitted_induction {motive : BrokerRun -> Prop} {ok : BrokerRun -> BrokerLabel -> Prop}
    (hinit : motive init)
    (hcall : forall s now c, motive s -> ok s (.call now c) -> s.clock ≤ now ->
      motive (s.perform now c))
    (hquiet : forall s s', motive s -> Quiet s s' -> motive s')
    {labels : List BrokerLabel} {s : BrokerRun} (hrun : Runs labels s)
    (hok : Admits step ok init labels) : motive s := by
  refine follow_invariant ?_ hinit hrun hok
  intro s l s' hs hl hstep
  rcases step_cases hstep with ⟨now, c, rfl, hclock, rfl⟩ | hq
  · exact hcall s now c hs hl hclock
  · exact hquiet s s' hs hq

theorem runs_induction {motive : BrokerRun -> Prop} (hinit : motive init)
    (hcall : forall s now c, motive s -> s.clock ≤ now -> motive (s.perform now c))
    (hquiet : forall s s', motive s -> Quiet s s' -> motive s')
    {labels : List BrokerLabel} {s : BrokerRun} (hrun : Runs labels s) : motive s := by
  have hall : Admits step (fun _ _ => True) init labels :=
    admits_of_forall (fun _ _ => trivial) init labels
  exact admitted_induction hinit (fun s now c hs _ hclock => hcall s now c hs hclock)
    hquiet hrun hall

theorem runs_snoc {labels : List BrokerLabel} {s s' : BrokerRun} {l : BrokerLabel}
    (hrun : Runs labels s) (hstep : step s l = some s') : Runs (labels ++ [l]) s' :=
  follow_append_eq_some.mpr
    ⟨s, hrun, follow_cons_eq_some.mpr ⟨s', hstep, follow_nil s'⟩⟩

theorem runs_of_log_suffix {labels : List BrokerLabel} {s : BrokerRun}
    (hrun : Runs labels s) {later earlier : List BrokerEvent}
    (hlog : s.log = later ++ earlier) :
    exists labels' s', Runs labels' s' ∧ s'.log = earlier := by
  have hall : (exists labels, Runs labels s) ∧
      forall later, s.log = later ++ earlier ->
        exists labels' s', Runs labels' s' ∧ s'.log = earlier := by
    have hall : Admits step (fun _ _ => True) init labels :=
      admits_of_forall (fun _ _ => trivial) init labels
    refine follow_invariant (motive := fun s =>
      (exists labels, Runs labels s) ∧ forall later, s.log = later ++ earlier ->
        exists labels' s', Runs labels' s' ∧ s'.log = earlier) ?_ ?_ hrun hall
    · rintro s l s' ⟨⟨before, hbefore⟩, ih⟩ _ hstep
      refine ⟨⟨before ++ [l], runs_snoc hbefore hstep⟩, fun later hlog => ?_⟩
      cases later with
      | nil => exact ⟨before ++ [l], s', runs_snoc hbefore hstep, hlog⟩
      | cons e later =>
          rcases step_cases hstep with ⟨now, c, rfl, _, rfl⟩ | hq
          · simp only [perform, List.cons_append, List.cons.injEq] at hlog
            exact ih later hlog.2
          · exact ih (e :: later) (hq.log ▸ hlog)
    · refine ⟨⟨[], rfl⟩, fun later hlog => ?_⟩
      have hearlier : earlier = [] := (List.append_eq_nil_iff.mp hlog.symm).2
      exact ⟨[], init, rfl, hearlier.symm⟩
  exact hall.2 later hlog

end BrokerRun

end CommandRelay
