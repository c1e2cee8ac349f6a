import CommandRelay.Foundation.Watchdog
import CommandRelay.Server.Relay

/-!
# Keep-alive

A socket's loop waits for a frame or for the tick of its ping interval, whichever comes
first, and handles a frame to the end before it waits again.  Any frame counts as liveness;
the tick that finds three pings unanswered ends the loop.
-/

namespace CommandRelay

open Foundation

def pingInterval : Instant := 30 * 1000000000

/-- A socket that leaves more pings than this unanswered is disconnected. -/
def maxPingMisses : Nat := 3

/-- What a loop of the relay wakes up for. -/
inductive Wake where
  | connect (c : ConnId) (ip : String)
  | tick (c : ConnId)
  | message (c : ConnId) (frame : Inbound)
  | gone (c : ConnId)
  | other (l : RelayLabel)

structure TimedLabel where
  now : Instant
  wake : Wake

/-- The relay with its clock, and the ping interval of every socket. -/
structure TimedRelay where
  relay : Relay
  loops : ConnId -> Watchdog
  clock : Instant

def RelayLabel.reads : RelayLabel -> Option Instant
  | .resume _ a => some a.now
  | .nudge _ now => some now
  | _ => none

def RelayLabel.isLoop : RelayLabel -> Bool
  | .connect .. | .receive .. | .hangUp _ | .ping _ => true
  | _ => false

namespace TimedRelay

def init (auth : AuthManager) (database : Database) : TimedRelay where
  relay := Relay.init auth database
  loops := fun _ => Watchdog.start 0
  clock := 0

/-- What a loop may wake up for at the time: a tick once it is due, and a step outside the
loops at the time that it reads. -/
def ready (s : TimedRelay) (now : Instant) : Wake -> Bool
  | .tick c => (s.loops c).due ≤ now
  | .other l => !l.isLoop && l.reads.all fun t => t = now
  | _ => true

def stepFor (s : TimedRelay) : Wake -> RelayLabel
  | .connect c ip => .connect c ip
  | .tick c => if maxPingMisses < (s.loops c).misses + 1 then .hangUp c else .ping c
  | .message c frame => .receive c frame
  | .gone c => .hangUp c
  | .other l => l

def loopsAfter (s : TimedRelay) (l : TimedLabel) : ConnId -> Watchdog :=
  match l.wake with
  | .connect c _ => Function.update s.loops c (Watchdog.start l.now)
  | .tick c => Function.update s.loops c ((s.loops c).tick pingInterval)
  | .message c _ => Function.update s.loops c (s.loops c).feed
  | _ => s.loops

def step (env : Env) (s : TimedRelay) (l : TimedLabel) : Option TimedRelay :=
  if s.clock ≤ l.now ∧ s.ready l.now l.wake then
    (s.relay.step env (s.stepFor l.wake)).map fun relay =>
      { relay := relay, loops := s.loopsAfter l, clock := l.now }
  else none

def Runs (env : Env) (auth : AuthManager) (database : Database) (labels : List TimedLabel)
    (s : TimedRelay) : Prop :=
  follow (step env) (init auth database) labels = some s

/-- No tick of an idle socket is overdue by more than the slack: its loop is never held up
for longer. -/
def Attended (slack : Instant) (c : ConnId) (s : TimedRelay) (l : TimedLabel) : Prop :=
  s.relay.activity c = .idle -> l.now ≤ (s.loops c).due + slack

end TimedRelay

/-!
## What a connection was last heard of
-/

namespace TimedLabel

def hears (c : ConnId) (l : TimedLabel) : Bool :=
  match l.wake with
  | .connect c' _ | .message c' _ => c' = c
  | _ => false

def ticks (c : ConnId) (l : TimedLabel) : Bool :=
  match l.wake with
  | .tick c' => c' = c
  | _ => false

end TimedLabel

def heardAt (c : ConnId) (labels : List TimedLabel) : Instant :=
  labels.foldl (fun t l => if l.hears c then l.now else t) 0

/-- The ticks of a connection since it was last heard of. -/
def unanswered (c : ConnId) (labels : List TimedLabel) : Nat :=
  labels.foldl (fun n l => if l.hears c then 0 else if l.ticks c then n + 1 else n) 0

@[simp] theorem heardAt_snoc (c : ConnId) (labels : List TimedLabel) (l : TimedLabel) :
    heardAt c (labels ++ [l]) = if l.hears c then l.now else heardAt c labels := by
  simp [heardAt]

@[simp] theorem unanswered_snoc (c : ConnId) (labels : List TimedLabel) (l : TimedLabel) :
    unanswered c (labels ++ [l]) =
      if l.hears c then 0 else if l.ticks c then unanswered c labels + 1
      else unanswered c labels := by
  simp [unanswered]

namespace Activity

def isLooping : Activity -> Bool
  | idle | handling .. => true
  | _ => false

end Activity

namespace Relay

section

variable {env : Env} {s s' : Relay} {c : ConnId}

theorem receive_eq_some {frame : Inbound} (h : s.step env (.receive c frame) = some s') :
    s.activity c = .idle := by
  cases hact : s.activity c with
  | idle => rfl
  | _ => simp [step, hact] at h

theorem ping_eq_some (h : s.step env (.ping c) = some s') :
    s.activity c = .idle ∧ s.setBroker (s.broker.send c (.text .ping)).1 = s' := by
  cases hact : s.activity c with
  | idle => exact ⟨rfl, by simpa [step, hact] using h⟩
  | _ => simp [step, hact] at h

theorem hangUp_eq_some (h : s.step env (.hangUp c) = some s') :
    s.activity c = .idle ∧
      s.setActivity c (.closing (Handler.cleanup (s.role c) c)) = s' := by
  cases hact : s.activity c with
  | idle => exact ⟨rfl, by simpa [step, hact] using h⟩
  | _ => simp [step, hact] at h

theorem looping_step {l : RelayLabel}
    (h : s.step env l = some s') (hafter : (s'.activity c).isLooping = true) :
    (s.activity c).isLooping = true ∨ exists ip, l = .connect c ip := by
  cases step_transition h with
  | connect hvacant hsockets haccount hlog hclock halive =>
      rename_i c' ip
      by_cases hc : c = c'
      · subst hc
        exact Or.inr ⟨ip, rfl⟩
      · refine Or.inl ?_
        simpa [activity, hsockets, hc] using hafter
  | receive hidle =>
      rename_i c' frame
      by_cases hc : c = c'
      · subst hc
        simp [hidle, Activity.isLooping]
      · rw [activity_setActivity_ne s _ hc] at hafter
        exact Or.inl hafter
  | resume hclock hbusy =>
      rename_i c' a frame role past call next
      by_cases hc : c = c'
      · subst hc
        simp [hbusy, Activity.isLooping]
      · rw [activity_setActivity_ne _ _ hc, activity_perform] at hafter
        exact Or.inl hafter
  | panic hclock hbusy =>
      rename_i c' a frame role past next
      by_cases hc : c = c'
      · subst hc
        simp [hbusy, Activity.isLooping]
      · rw [activity_setActivity_ne _ _ hc, activity_perform] at hafter
        exact Or.inl hafter
  | returned hbusy =>
      rename_i c' frame role past
      by_cases hc : c = c'
      · subst hc
        simp [hbusy, Activity.isLooping]
      · rw [activity_setActivity_ne s _ hc] at hafter
        exact Or.inl hafter
  | hangUp hidle =>
      rename_i c'
      by_cases hc : c = c'
      · subst hc
        simp [hidle, Activity.isLooping]
      · rw [activity_setActivity_ne s _ hc] at hafter
        exact Or.inl hafter
  | clean hclock hbusy =>
      rename_i c' a call next
      by_cases hc : c = c'
      · subst hc
        rw [activity_setActivity_same] at hafter
        cases hafter
      · rw [activity_setActivity_ne _ _ hc, activity_perform] at hafter
        exact Or.inl hafter
  | closed hbusy =>
      rename_i c'
      by_cases hc : c = c'
      · subst hc
        rw [activity_setActivity_same] at hafter
        cases hafter
      · rw [activity_setActivity_ne _ _ hc] at hafter
        exact Or.inl hafter
  | background hquiet =>
      refine Or.inl ?_
      simpa [activity, hquiet.sockets] using hafter

end

end Relay

namespace TimedRelay

section

variable {env : Env} {auth : AuthManager} {database : Database} {labels : List TimedLabel}
  {s s' : TimedRelay} {l : TimedLabel} {c : ConnId} {slack : Instant}

theorem step_eq_some (h : step env s l = some s') :
    s.clock ≤ l.now ∧ s.ready l.now l.wake = true ∧
      s.relay.step env (s.stepFor l.wake) = some s'.relay ∧ s'.loops = s.loopsAfter l ∧
      s'.clock = l.now := by
  unfold step at h
  by_cases hfits : s.clock ≤ l.now ∧ s.ready l.now l.wake = true
  · rw [if_pos hfits] at h
    rcases Option.map_eq_some_iff.mp h with ⟨relay, hrelay, rfl⟩
    exact ⟨hfits.1, hfits.2, hrelay, rfl, rfl⟩
  · rw [if_neg hfits] at h
    cases h

theorem wake_cases (c : ConnId) (l : TimedLabel) :
    (exists ip, l.wake = .connect c ip) ∨ (exists frame, l.wake = .message c frame) ∨
      l.wake = .tick c ∨ l.hears c = false ∧ l.ticks c = false := by
  unfold TimedLabel.hears TimedLabel.ticks
  cases l.wake with
  | connect c' ip =>
      by_cases hc : c' = c
      · exact Or.inl ⟨ip, hc ▸ rfl⟩
      · simp [hc]
  | tick c' =>
      by_cases hc : c' = c
      · exact Or.inr (Or.inr (Or.inl (hc ▸ rfl)))
      · simp [hc]
  | message c' frame =>
      by_cases hc : c' = c
      · exact Or.inr (Or.inl ⟨frame, hc ▸ rfl⟩)
      · simp [hc]
  | gone c' => simp
  | other r => simp

theorem loopsAfter_other (hhears : l.hears c = false) (hticks : l.ticks c = false) :
    s.loopsAfter l c = s.loops c := by
  unfold TimedLabel.hears at hhears
  unfold TimedLabel.ticks at hticks
  unfold loopsAfter
  cases hwake : l.wake with
  | connect c' ip =>
      rw [hwake] at hhears
      exact Function.update_of_ne (fun h => of_decide_eq_false hhears h.symm) _ _
  | tick c' =>
      rw [hwake] at hticks
      exact Function.update_of_ne (fun h => of_decide_eq_false hticks h.symm) _ _
  | message c' frame =>
      rw [hwake] at hhears
      exact Function.update_of_ne (fun h => of_decide_eq_false hhears h.symm) _ _
  | gone c' => rfl
  | other r => rfl

theorem loopsAfter_connect {ip : String} (h : l.wake = .connect c ip) :
    s.loopsAfter l c = Watchdog.start l.now := by
  simp [loopsAfter, h]

theorem loopsAfter_message {frame : Inbound} (h : l.wake = .message c frame) :
    s.loopsAfter l c = (s.loops c).feed := by
  simp [loopsAfter, h]

theorem loopsAfter_tick (h : l.wake = .tick c) :
    s.loopsAfter l c = (s.loops c).tick pingInterval := by
  simp [loopsAfter, h]

theorem idle_of_message {frame : Inbound} (hnext : step env s l = some s')
    (h : l.wake = .message c frame) : s.relay.activity c = .idle := by
  rcases step_eq_some hnext with ⟨_, _, hrelay, _⟩
  rw [h] at hrelay
  exact Relay.receive_eq_some hrelay

theorem tick_cases (hnext : step env s l = some s') (h : l.wake = .tick c) :
    s.relay.activity c = .idle ∧ (s.loops c).due ≤ l.now ∧
      ((s.loops c).misses < maxPingMisses ∧
          s.relay.setBroker (s.relay.broker.send c (.text .ping)).1 = s'.relay ∨
        maxPingMisses < (s.loops c).misses + 1 ∧
          s.relay.setActivity c (.closing (Handler.cleanup (s.relay.role c) c)) = s'.relay) := by
  rcases step_eq_some hnext with ⟨_, hready, hrelay, _⟩
  rw [h] at hready hrelay
  have hdue : (s.loops c).due ≤ l.now := of_decide_eq_true hready
  by_cases hover : maxPingMisses < (s.loops c).misses + 1
  · simp only [stepFor, if_pos hover] at hrelay
    rcases Relay.hangUp_eq_some hrelay with ⟨hidle, hcut⟩
    exact ⟨hidle, hdue, Or.inr ⟨hover, hcut⟩⟩
  · simp only [stepFor, if_neg hover] at hrelay
    rcases Relay.ping_eq_some hrelay with ⟨hidle, hping⟩
    exact ⟨hidle, hdue, Or.inl ⟨by omega, hping⟩⟩

theorem hears_of_connect {ip : String} (hready : s.ready l.now l.wake = true)
    (h : s.stepFor l.wake = .connect c ip) : l.hears c = true := by
  unfold TimedLabel.hears
  cases hwake : l.wake with
  | connect c' ip' =>
      rw [hwake] at h
      cases h
      exact decide_eq_true rfl
  | tick c' =>
      simp only [hwake, stepFor] at h
      split at h <;> cases h
  | message c' frame =>
      rw [hwake] at h
      cases h
  | gone c' =>
      rw [hwake] at h
      cases h
  | other r =>
      rw [hwake] at h hready
      have hconnect : r = .connect c ip := h
      rw [hconnect] at hready
      cases hready

/-!
## Along a run
-/

/-- A loop counts the ticks since its connection was last heard of, and goes on only while
they are within the limit. -/
structure Counts (c : ConnId) (labels : List TimedLabel) (s : TimedRelay) : Prop where
  misses : (s.loops c).misses = unanswered c labels
  patient : (s.relay.activity c).isLooping = true -> (s.loops c).misses ≤ maxPingMisses

theorem Counts.step (hc : Counts c labels s) (hnext : step env s l = some s') :
    Counts c (labels ++ [l]) s' := by
  rcases step_eq_some hnext with ⟨_, hready, hrelay, hloops, _⟩
  rcases wake_cases c l with ⟨ip, hwake⟩ | ⟨frame, hwake⟩ | hwake | ⟨hhears, hticks⟩
  · have hloop : s'.loops c = Watchdog.start l.now := by rw [hloops, loopsAfter_connect hwake]
    refine ⟨?_, fun _ => ?_⟩
    · rw [hloop]
      simp [Watchdog.start, TimedLabel.hears, hwake]
    · rw [hloop]
      exact Nat.zero_le _
  · have hloop : s'.loops c = (s.loops c).feed := by rw [hloops, loopsAfter_message hwake]
    refine ⟨?_, fun _ => ?_⟩
    · rw [hloop]
      simp [Watchdog.feed, TimedLabel.hears, hwake]
    · rw [hloop]
      exact Nat.zero_le _
  · have hloop : s'.loops c = (s.loops c).tick pingInterval := by
      rw [hloops, loopsAfter_tick hwake]
    refine ⟨?_, fun hlooping => ?_⟩
    · rw [hloop]
      simp [Watchdog.tick, TimedLabel.hears, TimedLabel.ticks, hwake, hc.misses]
    · rw [hloop]
      rcases tick_cases hnext hwake with ⟨_, _, ⟨hroom, _⟩ | ⟨_, hcut⟩⟩
      · exact hroom
      · rw [← hcut, Relay.activity_setActivity_same] at hlooping
        cases hlooping
  · have hloop : s'.loops c = s.loops c := by rw [hloops, loopsAfter_other hhears hticks]
    refine ⟨?_, fun hlooping => ?_⟩
    · rw [hloop, unanswered_snoc, hhears, hticks]
      exact hc.misses
    · rw [hloop]
      refine hc.patient ?_
      rcases Relay.looping_step hrelay hlooping with hbefore | ⟨ip, hconnect⟩
      · exact hbefore
      · rw [hears_of_connect hready hconnect] at hhears
        cases hhears

theorem counts_of_runs (hrun : Runs env auth database labels s) : Counts c labels s :=
  follow_labels_induction (motive := Counts c)
    ⟨rfl, fun h => by cases h⟩ (fun _ _ _ _ _ hc hnext => hc.step hnext) hrun

theorem keeps_of_runs (hrun : Runs env auth database labels s)
    (hattended : Admits (step env) (Attended slack c) (init auth database) labels) :
    (s.loops c).Keeps pingInterval slack (heardAt c labels) s.clock := by
  refine follow_labels_induction (motive := fun labels s =>
    Admits (TimedRelay.step env) (Attended slack c) (init auth database) labels ->
      (s.loops c).Keeps pingInterval slack (heardAt c labels) s.clock)
    (fun _ => Watchdog.keeps_start) ?_ hrun hattended
  intro labels s l s' hrun ih hnext hattended
  rcases (admits_append hrun).mp hattended with ⟨hbefore, hl, _⟩
  have hkeeps := ih hbefore
  rcases step_eq_some hnext with ⟨hclock, _, _, hloops, hnow⟩
  rw [hnow, hloops, heardAt_snoc]
  rcases wake_cases c l with ⟨ip, hwake⟩ | ⟨frame, hwake⟩ | hwake | ⟨hhears, hticks⟩
  · rw [loopsAfter_connect hwake, if_pos (by simp [TimedLabel.hears, hwake])]
    exact Watchdog.keeps_start
  · rw [loopsAfter_message hwake, if_pos (by simp [TimedLabel.hears, hwake])]
    exact hkeeps.feed hclock (hl (idle_of_message hnext hwake))
  · rw [loopsAfter_tick hwake, if_neg (by simp [TimedLabel.hears, hwake])]
    exact hkeeps.tick (tick_cases hnext hwake).2.1
  · rw [loopsAfter_other hhears hticks, hhears]
    exact hkeeps.later hclock

theorem runs_relay (hrun : Runs env auth database labels s) :
    exists steps, Relay.Runs env auth database steps s.relay := by
  refine follow_labels_induction (motive := fun _ s =>
    exists steps, Relay.Runs env auth database steps s.relay) ?_ ?_ hrun
  · exact ⟨[], rfl⟩
  · rintro labels s l s' _ ⟨steps, hsteps⟩ hnext
    exact ⟨_, Relay.runs_snoc hsteps (step_eq_some hnext).2.2.1⟩

/-- The keep-alive cuts a connection exactly when three pings in a row are unanswered, and
pings it otherwise; and if its loop has been attended, it has then been silent for as many
intervals. -/
theorem cut_exact (hrun : Runs env auth database labels s) (hnext : step env s l = some s')
    (htick : l.wake = .tick c) :
    (s'.relay.activity c ≠ .idle <-> unanswered c labels = maxPingMisses) ∧
      (s'.relay.activity c = .idle ->
        s'.relay = s.relay.setBroker (s.relay.broker.send c (.text .ping)).1) ∧
      forall slack, Admits (step env) (Attended slack c) (init auth database) labels ->
        s'.relay.activity c ≠ .idle ->
          heardAt c labels + pingInterval * maxPingMisses ≤ l.now + slack := by
  have hcounts := counts_of_runs (c := c) hrun
  rcases tick_cases hnext htick with ⟨hidle, hdue, ⟨hroom, hping⟩ | ⟨hover, hcut⟩⟩
  · have hafter : s'.relay.activity c = .idle := by
      rw [← hping]
      exact hidle
    have hmisses := hcounts.misses
    exact ⟨⟨fun h => absurd hafter h, fun h => by omega⟩, fun _ => hping.symm,
      fun _ _ h => absurd hafter h⟩
  · have hafter : s'.relay.activity c ≠ .idle := by
      rw [← hcut, Relay.activity_setActivity_same]
      exact fun h => by cases h
    have hpatient := hcounts.patient (by rw [hidle]; rfl)
    have hmisses := hcounts.misses
    exact ⟨⟨fun _ => by omega, fun _ => hafter⟩, fun h => absurd h hafter,
      fun _ hattended _ => (keeps_of_runs hrun hattended).silence_ge hover hdue⟩

end

/-- Whether a socket is idle can be evaluated. -/
instance decidableIdle : (act : Activity) -> Decidable (act = .idle)
  | .idle => isTrue rfl
  | .vacant | .handling .. | .closing _ | .closed | .panicked => isFalse fun h => by cases h

instance decidableAttended (slack : Instant) (c : ConnId) (s : TimedRelay) (l : TimedLabel) :
    Decidable (Attended slack c s l) :=
  inferInstanceAs (Decidable (_ -> _))

def silentPeer : List TimedLabel :=
  [⟨0, .connect 1 "192.0.2.1"⟩, ⟨0, .tick 1⟩, ⟨pingInterval, .tick 1⟩, ⟨2 * pingInterval, .tick 1⟩]

def lastTick : TimedLabel :=
  ⟨3 * pingInterval, .tick 1⟩

def startOf (labels : List TimedLabel) : Option TimedRelay :=
  follow (step Deployment.env) (init Deployment.auth Deployment.database) labels

theorem cut_exact_example : exists s s',
    Runs Deployment.env Deployment.auth Deployment.database silentPeer s ∧
      step Deployment.env s lastTick = some s' ∧ s'.relay.activity 1 ≠ .idle ∧
      unanswered 1 silentPeer = maxPingMisses ∧
      heardAt 1 silentPeer + pingInterval * maxPingMisses ≤ 3 * pingInterval + 0 := by
  have hend : (startOf silentPeer).map (fun s => (step Deployment.env s lastTick).map fun s' =>
      decide (s'.relay.activity 1 = .idle)) = some (some false) := by decide +kernel
  have hattended : Admits (step Deployment.env) (Attended 0 1)
      (init Deployment.auth Deployment.database) silentPeer := by decide +kernel
  rcases Option.map_eq_some_iff.mp hend with ⟨s, hrun, hlast⟩
  rcases Option.map_eq_some_iff.mp hlast with ⟨s', hnext, hcut⟩
  have hcut : s'.relay.activity 1 ≠ .idle := of_decide_eq_false hcut
  rcases cut_exact hrun hnext rfl with ⟨hiff, _, hsilent⟩
  exact ⟨s, s', hrun, hnext, hcut, hiff.mp hcut, hsilent 0 hattended hcut⟩

/-- The peer of an attended idle socket has been heard of within four intervals. -/
theorem silence_bounded {env : Env} {auth : AuthManager} {database : Database}
    {labels : List TimedLabel} {s : TimedRelay} {l : TimedLabel} {c : ConnId} {slack : Instant}
    (hrun : Runs env auth database labels s)
    (hattended : Admits (step env) (Attended slack c) (init auth database) labels)
    (hidle : s.relay.activity c = .idle) (hl : Attended slack c s l) :
    l.now ≤ heardAt c labels + pingInterval * (maxPingMisses + 1) + slack := by
  have hpatient := (counts_of_runs (c := c) hrun).patient (by rw [hidle]; rfl)
  exact (keeps_of_runs hrun hattended).silence_le hpatient (hl hidle)

theorem silence_bounded_example : exists s,
    Runs Deployment.env Deployment.auth Deployment.database silentPeer s ∧
      s.relay.activity 1 = .idle ∧
      lastTick.now ≤ heardAt 1 silentPeer + pingInterval * (maxPingMisses + 1) + 0 := by
  have hend : (startOf silentPeer).map (fun s =>
      (decide (s.relay.activity 1 = .idle), decide (Attended 0 1 s lastTick))) =
      some (true, true) := by decide +kernel
  have hattended : Admits (step Deployment.env) (Attended 0 1)
      (init Deployment.auth Deployment.database) silentPeer := by decide +kernel
  rcases Option.map_eq_some_iff.mp hend with ⟨s, hrun, hfacts⟩
  simp only [Prod.mk.injEq, decide_eq_true_eq] at hfacts
  exact ⟨s, hrun, hfacts.1, silence_bounded hrun hattended hfacts.1 hfacts.2⟩

end TimedRelay

end CommandRelay
