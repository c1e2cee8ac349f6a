import CommandRelay.Broker.Account
import CommandRelay.Foundation.Program
import CommandRelay.Foundation.Runs

/-!
# Connection slots

A connection attempt takes one of the server's slots before its upgrade, and gives it back
when it is refused or when its socket ends.  The handler of the attempt and its socket
access the shared counter one atomic operation at a time.  Between them stands the
upgrade, whose callback runs only when it succeeds.
-/

namespace CommandRelay

open Foundation

def maxTotalConnections : Nat := 50

def wsRateLimitPerMinute : Nat := 10

/-- The accesses of an attempt to what the server shares. -/
inductive SlotCall where
  | load
  | fetchAdd
  | fetchSub
  | checkWsRateLimit (ip : String)

/-- What the handler answers; an upgrade leaves the connection to its callback. -/
inductive UpgradeResponse where
  | serviceUnavailable
  | tooManyRequests
  | onUpgrade

def SlotCall.Reply : SlotCall -> Type
  | load => Nat
  | fetchAdd => Unit
  | fetchSub => Unit
  | checkWsRateLimit _ => Bool

abbrev SlotTask := Program SlotCall SlotCall.Reply

namespace SlotTask

def tryAcquireConnection : SlotTask (Except BrokerError Unit) := do
  let current : Nat ← Program.perform SlotCall.load
  if maxTotalConnections ≤ current then
    return .error .serverAtCapacity
  else
    Program.perform SlotCall.fetchAdd
    return .ok ()

def releaseConnection : SlotTask Unit :=
  Program.perform SlotCall.fetchSub

def refuse : SlotTask UpgradeResponse := do
  releaseConnection
  return .tooManyRequests

def wsAcquired (ip : String) : SlotTask UpgradeResponse := do
  let allowed : Bool ← Program.perform (SlotCall.checkWsRateLimit ip)
  if allowed then
    return .onUpgrade
  else
    refuse

def wsHandler (ip : String) : SlotTask UpgradeResponse := do
  match ← tryAcquireConnection with
  | .error _ => return .serviceUnavailable
  | .ok _ => wsAcquired ip

end SlotTask

/-- Where an attempt stands. -/
inductive AttemptStage where
  | handling (task : SlotTask UpgradeResponse)
  | serving
  | closing (task : SlotTask Unit)
  | failed

/-- A connection attempt, and whether it has acquired a slot. -/
structure Attempt where
  acquired : Bool
  stage : AttemptStage

namespace Attempt

def isOver (a : Attempt) : Bool :=
  match a.stage with
  | .handling (.done .serviceUnavailable) => true
  | .handling (.done .tooManyRequests) => true
  | .closing (.done _) => true
  | .failed => true
  | _ => false

def occupies (a : Attempt) : Bool :=
  a.acquired && !a.isOver

def upgradeFailed (a : Attempt) : Bool :=
  match a.stage with
  | .failed => true
  | _ => false

def next? (a : Attempt) : Option SlotCall :=
  match a.stage with
  | .handling (.invoke call _) => some call
  | .closing (.invoke call _) => some call
  | _ => none

end Attempt

/-- What the server shares, and the attempts in the order of their arrival. -/
structure SlotServer where
  totalConnections : Nat
  wsRateLimits : Table String (List Instant)
  attempts : List Attempt

inductive SlotLabel where
  | arrive (ip : String)
  | resume (i : Nat) (now : Instant)
  | upgrade (i : Nat)
  | fail (i : Nat)
  | hangUp (i : Nat)

/-- One more, in a `usize` that wraps. -/
def addUsize (n : Nat) : Nat :=
  if n = 0xffffffffffffffff then 0 else n + 1

/-- One less, in a `usize` that wraps. -/
def subUsize (n : Nat) : Nat :=
  if n = 0 then 0xffffffffffffffff else n - 1

theorem addUsize_eq {n : Nat} (h : n ≠ 0xffffffffffffffff) : addUsize n = n + 1 :=
  if_neg h

theorem subUsize_eq {n : Nat} (h : 0 < n) : subUsize n = n - 1 :=
  if_neg (Nat.ne_of_gt h)

namespace SlotServer

def init : SlotServer where
  totalConnections := 0
  wsRateLimits := ∅
  attempts := []

def checkWsRateLimit (s : SlotServer) (ip : String) (now : Instant) : SlotServer × Bool :=
  let timestamps := ((s.wsRateLimits.lookup ip).getD []).filter fun t => now < t + 60000000000
  if wsRateLimitPerMinute ≤ timestamps.length then
    ({ s with wsRateLimits := s.wsRateLimits.insert ip timestamps }, false)
  else
    ({ s with wsRateLimits := s.wsRateLimits.insert ip (timestamps ++ [now]) }, true)

def exec (s : SlotServer) (now : Instant) : (call : SlotCall) -> SlotServer × call.Reply
  | .load => (s, s.totalConnections)
  | .fetchAdd => ({ s with totalConnections := addUsize s.totalConnections }, ())
  | .fetchSub => ({ s with totalConnections := subUsize s.totalConnections }, ())
  | .checkWsRateLimit ip => s.checkWsRateLimit ip now

def setAttempt (s : SlotServer) (i : Nat) (a : Attempt) : SlotServer :=
  { s with attempts := s.attempts.set i a }

def acquiredAfter (acquired : Bool) : SlotCall -> Bool
  | .fetchAdd => true
  | _ => acquired

def step (s : SlotServer) : SlotLabel -> Option SlotServer
  | .arrive ip =>
      some { s with attempts := s.attempts ++ [⟨false, .handling (SlotTask.wsHandler ip)⟩] }
  | .resume i now =>
      match s.attempts[i]? with
      | some ⟨acquired, .handling (.invoke call next)⟩ =>
          some ((s.exec now call).1.setAttempt i
            ⟨acquiredAfter acquired call, .handling (next (s.exec now call).2)⟩)
      | some ⟨acquired, .closing (.invoke call next)⟩ =>
          some ((s.exec now call).1.setAttempt i
            ⟨acquiredAfter acquired call, .closing (next (s.exec now call).2)⟩)
      | _ => none
  | .upgrade i =>
      match s.attempts[i]? with
      | some ⟨acquired, .handling (.done .onUpgrade)⟩ => some (s.setAttempt i ⟨acquired, .serving⟩)
      | _ => none
  | .fail i =>
      match s.attempts[i]? with
      | some ⟨acquired, .handling (.done .onUpgrade)⟩ => some (s.setAttempt i ⟨acquired, .failed⟩)
      | _ => none
  | .hangUp i =>
      match s.attempts[i]? with
      | some ⟨acquired, .serving⟩ =>
          some (s.setAttempt i ⟨acquired, .closing SlotTask.releaseConnection⟩)
      | _ => none

def Runs (labels : List SlotLabel) (s : SlotServer) : Prop :=
  follow step init labels = some s

/-- The counter counts the attempts that have a slot, is never taken below zero, and is
zero when no attempt is under way. -/
structure Counted (s : SlotServer) : Prop where
  total : s.totalConnections = s.attempts.countP Attempt.occupies
  positive : forall a, a ∈ s.attempts -> a.next? = some .fetchSub -> 0 < s.totalConnections
  rest : (forall a, a ∈ s.attempts -> a.isOver = true) -> s.totalConnections = 0

def fitsSlot (s : SlotServer) : SlotLabel -> Bool
  | .resume i _ =>
      match s.attempts[i]?.bind Attempt.next? with
      | some .fetchAdd => s.totalConnections ≠ 0xffffffffffffffff
      | _ => true
  | _ => true

def keepsSlots (s : SlotServer) (l : SlotLabel) : Bool :=
  match l with
  | .fail _ => false
  | l => s.fitsSlot l

def FitsSlot (s : SlotServer) (l : SlotLabel) : Prop :=
  s.fitsSlot l = true

def KeepsSlots (s : SlotServer) (l : SlotLabel) : Prop :=
  s.keepsSlots l = true

instance (s : SlotServer) (l : SlotLabel) : Decidable (s.KeepsSlots l) :=
  inferInstanceAs (Decidable (_ = true))

end SlotServer

/-!
## Attempts one by one
-/

namespace Attempt

/-- Every place an attempt comes to. -/
inductive Reached : Attempt -> Prop where
  | arrived {ip} : Reached ⟨false, .handling (SlotTask.wsHandler ip)⟩
  | admitted {ip} : Reached ⟨false, .handling (.invoke .fetchAdd fun _ => SlotTask.wsAcquired ip)⟩
  | acquired {ip} : Reached ⟨true, .handling (SlotTask.wsAcquired ip)⟩
  | limited : Reached ⟨true, .handling SlotTask.refuse⟩
  | full : Reached ⟨false, .handling (.done .serviceUnavailable)⟩
  | refused : Reached ⟨true, .handling (.done .tooManyRequests)⟩
  | returned : Reached ⟨true, .handling (.done .onUpgrade)⟩
  | serving : Reached ⟨true, .serving⟩
  | closing : Reached ⟨true, .closing SlotTask.releaseConnection⟩
  | ended : Reached ⟨true, .closing (.done ())⟩
  | failed : Reached ⟨true, .failed⟩

def holds (a : Attempt) : Bool :=
  a.occupies || a.upgradeFailed

/-- What one access of an attempt does to the counter and to what the attempt holds. -/
inductive Access (s : SlotServer) (now : Instant) (a : Attempt) (call : SlotCall) (a' : Attempt) :
    Prop where
  | keeps (htotal : (s.exec now call).1.totalConnections = s.totalConnections)
      (hholds : a'.holds = a.holds) : Access s now a call a'
  | takes (hcall : call = .fetchAdd) (hfree : a.holds = false) (hholds : a'.holds = true) :
      Access s now a call a'
  | gives (hcall : call = .fetchSub) (hheld : a.holds = true) (hholds : a'.holds = false) :
      Access s now a call a'

end Attempt

namespace SlotServer

theorem checkWsRateLimit_shared (s : SlotServer) (ip : String) (now : Instant) :
    (s.checkWsRateLimit ip now).1.totalConnections = s.totalConnections ∧
      (s.checkWsRateLimit ip now).1.attempts = s.attempts := by
  unfold checkWsRateLimit
  simp only []
  split <;> exact ⟨rfl, rfl⟩

theorem attempts_exec (s : SlotServer) (now : Instant) (call : SlotCall) :
    (s.exec now call).1.attempts = s.attempts := by
  cases call with
  | checkWsRateLimit ip => exact (s.checkWsRateLimit_shared ip now).2
  | _ => simp only [exec]

theorem total_fetchAdd (s : SlotServer) (now : Instant) :
    (s.exec now .fetchAdd).1.totalConnections = addUsize s.totalConnections := by
  simp only [exec]

theorem total_fetchSub (s : SlotServer) (now : Instant) :
    (s.exec now .fetchSub).1.totalConnections = subUsize s.totalConnections := by
  simp only [exec]

end SlotServer

namespace SlotTask

theorem wsHandler_eq (ip : String) :
    wsHandler ip = .invoke .load fun current =>
      if maxTotalConnections ≤ (show Nat from current) then .done .serviceUnavailable
      else .invoke .fetchAdd fun _ => wsAcquired ip := by
  refine congrArg (Program.invoke SlotCall.load) (funext fun current => ?_)
  have hcurrent : forall n : Nat, (((if maxTotalConnections ≤ n then
      (pure (.error .serverAtCapacity) : SlotTask (Except BrokerError Unit))
    else do
      Program.perform SlotCall.fetchAdd
      return .ok ()) >>= fun acquired =>
        match acquired with
        | .error _ => pure .serviceUnavailable
        | .ok _ => wsAcquired ip) : SlotTask UpgradeResponse) =
      if maxTotalConnections ≤ n then .done .serviceUnavailable
      else .invoke .fetchAdd fun _ => wsAcquired ip := by
    intro n
    split <;> rfl
  exact hcurrent current

theorem wsAcquired_eq (ip : String) :
    wsAcquired ip = .invoke (.checkWsRateLimit ip) fun allowed =>
      if (show Bool from allowed) = true then .done .onUpgrade else refuse := rfl

end SlotTask

namespace Attempt

section

variable {s : SlotServer} {now : Instant} {held : Bool} {call : SlotCall}

theorem reached_handling {next : call.Reply -> SlotTask UpgradeResponse}
    (h : Reached ⟨held, .handling (.invoke call next)⟩) :
    Reached ⟨SlotServer.acquiredAfter held call, .handling (next (s.exec now call).2)⟩ ∧
      Access s now ⟨held, .handling (.invoke call next)⟩ call
        ⟨SlotServer.acquiredAfter held call, .handling (next (s.exec now call).2)⟩ := by
  generalize ha : (⟨held, .handling (.invoke call next)⟩ : Attempt) = a at h
  cases h with
  | arrived =>
      rw [SlotTask.wsHandler_eq] at ha
      cases ha
      have hload : (s.exec now .load).2 = s.totalConnections := rfl
      by_cases hfull : maxTotalConnections ≤ s.totalConnections
      · simp only [hload, if_pos hfull]
        exact ⟨.full, .keeps rfl rfl⟩
      · simp only [hload, if_neg hfull]
        exact ⟨.admitted, .keeps rfl rfl⟩
  | admitted =>
      cases ha
      exact ⟨.acquired, .takes rfl rfl rfl⟩
  | acquired =>
      rename_i ip
      rw [SlotTask.wsAcquired_eq] at ha
      cases ha
      have hsame := (s.checkWsRateLimit_shared ip now).1
      cases (s.exec now (.checkWsRateLimit ip)).2 with
      | true => exact ⟨.returned, .keeps hsame rfl⟩
      | false => exact ⟨.limited, .keeps hsame rfl⟩
  | limited =>
      cases ha
      exact ⟨.refused, .gives rfl rfl rfl⟩
  | _ => cases ha

theorem reached_closing {next : call.Reply -> SlotTask Unit}
    (h : Reached ⟨held, .closing (.invoke call next)⟩) :
    Reached ⟨SlotServer.acquiredAfter held call, .closing (next (s.exec now call).2)⟩ ∧
      Access s now ⟨held, .closing (.invoke call next)⟩ call
        ⟨SlotServer.acquiredAfter held call, .closing (next (s.exec now call).2)⟩ := by
  generalize ha : (⟨held, .closing (.invoke call next)⟩ : Attempt) = a at h
  cases h with
  | closing =>
      cases ha
      exact ⟨.ended, .gives rfl rfl rfl⟩
  | _ => cases ha

theorem holds_of_releasing {a : Attempt} (h : Reached a) (hnext : a.next? = some .fetchSub) :
    a.holds = true := by
  cases h with
  | arrived =>
      rw [SlotTask.wsHandler_eq] at hnext
      cases hnext
  | acquired =>
      rw [SlotTask.wsAcquired_eq] at hnext
      cases hnext
  | limited => rfl
  | closing => rfl
  | _ => cases hnext

end

end Attempt

/-!
## Runs
-/

namespace SlotServer

variable {s s' : SlotServer} {l : SlotLabel} {labels : List SlotLabel} {i : Nat} {a a' : Attempt}

/-- What every step keeps: the counter counts the attempts that hold a slot. -/
structure Held (s : SlotServer) : Prop where
  reached : forall a, a ∈ s.attempts -> a.Reached
  total : s.totalConnections = s.attempts.countP Attempt.holds

theorem reached_setAttempt {more : SlotServer} (h : s.Held) (hattempts : more.attempts = s.attempts)
    (ha' : a'.Reached) : forall a, a ∈ (more.setAttempt i a').attempts -> a.Reached := by
  intro a ha
  rcases List.mem_or_eq_of_mem_set ha with hold | rfl
  · exact h.reached a (hattempts ▸ hold)
  · exact ha'

theorem countP_pos {p : Attempt -> Bool} (ha : s.attempts[i]? = some a) (hp : p a = true) :
    0 < s.attempts.countP p :=
  List.countP_pos_iff.mpr ⟨a, List.mem_of_getElem? ha, hp⟩

theorem countP_setAttempt (p : Attempt -> Bool) {more : SlotServer}
    (hattempts : more.attempts = s.attempts) (ha : s.attempts[i]? = some a) (a' : Attempt) :
    (more.setAttempt i a').attempts.countP p + (if p a then 1 else 0) =
      s.attempts.countP p + (if p a' then 1 else 0) := by
  rcases List.getElem?_eq_some_iff.mp ha with ⟨hi, hget⟩
  have hle : (if p a = true then 1 else 0) ≤ s.attempts.countP p := by
    split
    · rename_i hp
      exact countP_pos ha hp
    · exact Nat.zero_le _
  show (more.attempts.set i a').countP p + _ = _
  rw [hattempts, List.countP_set hi, hget]
  omega

theorem held_moved (h : s.Held) (ha : s.attempts[i]? = some a) (ha' : a'.Reached)
    (hholds : a'.holds = a.holds) : (s.setAttempt i a').Held where
  reached := reached_setAttempt h rfl ha'
  total := by
    have hcount := countP_setAttempt Attempt.holds rfl ha a'
    rw [hholds] at hcount
    exact h.total.trans (Nat.add_right_cancel hcount).symm

theorem held_access {now : Instant} {call : SlotCall} (h : s.Held) (ha : s.attempts[i]? = some a)
    (ha' : a'.Reached) (haccess : Attempt.Access s now a call a')
    (hfits : call = .fetchAdd -> s.totalConnections ≠ 0xffffffffffffffff) :
    ((s.exec now call).1.setAttempt i a').Held where
  reached := reached_setAttempt h (s.attempts_exec now call) ha'
  total := by
    have hcount := countP_setAttempt Attempt.holds (s.attempts_exec now call) ha a'
    have htotal := h.total
    show (s.exec now call).1.totalConnections = _
    cases haccess with
    | keeps hsame hholds =>
        rw [hholds] at hcount
        omega
    | takes hcall hfree hholds =>
        subst hcall
        rw [total_fetchAdd, addUsize_eq (hfits rfl)]
        rw [hfree, hholds] at hcount
        simp only [Bool.false_eq_true, if_false, if_true] at hcount
        omega
    | gives hcall hheld hholds =>
        subst hcall
        have hpos := countP_pos ha hheld
        rw [total_fetchSub, subUsize_eq (by omega)]
        rw [hheld, hholds] at hcount
        simp only [Bool.false_eq_true, if_false, if_true] at hcount
        omega

theorem total_of_resumed {now : Instant} (hfits : s.FitsSlot (.resume i now))
    (ha : s.attempts[i]? = some a) (hnext : a.next? = some .fetchAdd) :
    s.totalConnections ≠ 0xffffffffffffffff := by
  simp only [FitsSlot, fitsSlot, ha, Option.bind_some, hnext] at hfits
  exact of_decide_eq_true hfits

theorem held_step (h : s.Held) (hfits : s.FitsSlot l) (hstep : step s l = some s') : s'.Held := by
  cases l with
  | arrive ip =>
      cases hstep
      constructor
      · intro a ha
        rcases List.mem_append.mp ha with hold | hnew
        · exact h.reached a hold
        · cases List.mem_singleton.mp hnew
          exact .arrived
      · show s.totalConnections = List.countP Attempt.holds (s.attempts ++ _)
        rw [List.countP_append, h.total]
        rfl
  | resume i now =>
      simp only [step] at hstep
      split at hstep
      · rename_i held call next hget
        cases hstep
        rcases Attempt.reached_handling (h.reached _ (List.mem_of_getElem? hget)) with
          ⟨hnext, haccess⟩
        exact held_access h hget hnext haccess fun hcall =>
          total_of_resumed hfits hget (congrArg some hcall)
      · rename_i held call next hget
        cases hstep
        rcases Attempt.reached_closing (h.reached _ (List.mem_of_getElem? hget)) with
          ⟨hnext, haccess⟩
        exact held_access h hget hnext haccess fun hcall =>
          total_of_resumed hfits hget (congrArg some hcall)
      · cases hstep
  | upgrade i =>
      simp only [step] at hstep
      split at hstep
      · rename_i held hget
        cases hstep
        cases h.reached _ (List.mem_of_getElem? hget) with
        | returned => exact held_moved h hget .serving rfl
      · cases hstep
  | fail i =>
      simp only [step] at hstep
      split at hstep
      · rename_i held hget
        cases hstep
        cases h.reached _ (List.mem_of_getElem? hget) with
        | returned => exact held_moved h hget .failed rfl
      · cases hstep
  | hangUp i =>
      simp only [step] at hstep
      split at hstep
      · rename_i held hget
        cases hstep
        cases h.reached _ (List.mem_of_getElem? hget) with
        | serving => exact held_moved h hget .closing rfl
      · cases hstep

theorem held_of_runs (hrun : Runs labels s) (hok : Admits step FitsSlot init labels) : s.Held :=
  follow_invariant (motive := Held) (fun _ _ _ h hl hnext => held_step h hl hnext)
    ⟨fun _ ha => (by cases ha), rfl⟩ hrun hok

theorem countP_holds (attempts : List Attempt) :
    attempts.countP Attempt.holds =
      attempts.countP Attempt.occupies + attempts.countP Attempt.upgradeFailed := by
  induction attempts with
  | nil => rfl
  | cons a rest ih =>
      have hexcl : a.upgradeFailed = true -> a.occupies = false := by
        intro hfailed
        rcases a with ⟨held, stage⟩
        cases stage with
        | failed => exact Bool.and_false _
        | _ => cases hfailed
      rw [List.countP_cons, List.countP_cons, List.countP_cons, ih]
      unfold Attempt.holds
      cases hfailed : a.upgradeFailed with
      | true =>
          rw [hexcl hfailed]
          simp only [Bool.or_true, if_true, Bool.false_eq_true, if_false]
          omega
      | false =>
          simp only [Bool.or_false, Bool.false_eq_true, if_false]
          omega

theorem counted_iff (h : s.Held) :
    s.Counted <-> forall a, a ∈ s.attempts -> a.upgradeFailed = false := by
  have htotal := h.total.trans (countP_holds s.attempts)
  constructor
  · intro hcounted a ha
    have hnone : s.attempts.countP Attempt.upgradeFailed = 0 := by
      have := hcounted.total
      omega
    exact Bool.eq_false_iff.mpr (List.countP_eq_zero.mp hnone a ha)
  · intro hall
    have hnone : s.attempts.countP Attempt.upgradeFailed = 0 :=
      List.countP_eq_zero.mpr fun a ha => Bool.eq_false_iff.mp (hall a ha)
    refine ⟨by omega, ?_, ?_⟩
    · intro a ha hnext
      have hpos : 0 < s.attempts.countP Attempt.holds :=
        List.countP_pos_iff.mpr ⟨a, ha, Attempt.holds_of_releasing (h.reached a ha) hnext⟩
      rw [h.total]
      exact hpos
    · intro hover
      have hfree : s.attempts.countP Attempt.occupies = 0 := by
        refine List.countP_eq_zero.mpr fun a ha => ?_
        unfold Attempt.occupies
        rw [hover a ha]
        simp
      omega

theorem counted_iff_of_runs (hrun : Runs labels s) (hok : Admits step FitsSlot init labels) :
    s.Counted <-> forall a, a ∈ s.attempts -> a.upgradeFailed = false :=
  counted_iff (held_of_runs hrun hok)

theorem refused_of_failed (h : s.Held)
    (hfailed : maxTotalConnections ≤ s.attempts.countP Attempt.upgradeFailed) (now : Instant)
    (ip : String) :
    (SlotTask.wsHandler ip).run (fun s call => s.exec now call) s =
      (s, .serviceUnavailable) := by
  have htotal := h.total.trans (countP_holds s.attempts)
  have hfull : maxTotalConnections ≤ s.totalConnections := by omega
  rw [SlotTask.wsHandler_eq]
  have hload : s.exec now .load = (s, s.totalConnections) := rfl
  simp only [Program.run, hload, if_pos hfull]

theorem unfailed_step (h : forall a, a ∈ s.attempts -> a.upgradeFailed = false)
    (hl : forall i, l ≠ .fail i) (hstep : step s l = some s') :
    forall a, a ∈ s'.attempts -> a.upgradeFailed = false := by
  have hset : forall {more : SlotServer} {i : Nat} {next : Attempt},
      more.attempts = s.attempts -> next.upgradeFailed = false ->
      forall a, a ∈ (more.setAttempt i next).attempts -> a.upgradeFailed = false := by
    intro more i next hattempts hnext a ha
    rcases List.mem_or_eq_of_mem_set ha with hold | rfl
    · exact h a (hattempts ▸ hold)
    · exact hnext
  cases l with
  | arrive ip =>
      cases hstep
      intro a ha
      rcases List.mem_append.mp ha with hold | hnew
      · exact h a hold
      · cases List.mem_singleton.mp hnew
        rfl
  | resume i now =>
      simp only [step] at hstep
      split at hstep
      · cases hstep
        exact hset (s.attempts_exec now _) rfl
      · cases hstep
        exact hset (s.attempts_exec now _) rfl
      · cases hstep
  | upgrade i =>
      simp only [step] at hstep
      split at hstep
      · cases hstep
        exact hset rfl rfl
      · cases hstep
  | fail i => exact absurd rfl (hl i)
  | hangUp i =>
      simp only [step] at hstep
      split at hstep
      · cases hstep
        exact hset rfl rfl
      · cases hstep

theorem fits_of_keeps (h : s.KeepsSlots l) : s.FitsSlot l ∧ forall i, l ≠ .fail i := by
  unfold KeepsSlots keepsSlots at h
  split at h
  · cases h
  · rename_i hl
    exact ⟨h, hl⟩

/-- Slots are neither leaked nor given back twice in a run in which no upgrade fails. -/
theorem slots_counted (hrun : Runs labels s) (hok : Admits step KeepsSlots init labels) :
    s.Counted := by
  have hkept : s.Held ∧ forall a, a ∈ s.attempts -> a.upgradeFailed = false := by
    refine follow_invariant (motive := fun s => s.Held ∧
      forall a, a ∈ s.attempts -> a.upgradeFailed = false) ?_
      ⟨⟨fun _ ha => (by cases ha), rfl⟩, fun _ ha => by cases ha⟩ hrun hok
    intro t l t' ht hl hstep
    rcases fits_of_keeps hl with ⟨hfits, hnofail⟩
    exact ⟨held_step ht.1 hfits hstep, unfailed_step ht.2 hnofail hstep⟩
  exact (counted_iff hkept.1).mpr hkept.2

def admitted : List SlotLabel :=
  [.arrive "192.0.2.1", .resume 0 0, .resume 0 0, .resume 0 0]

theorem slots_counted_example : exists s,
    Runs (admitted ++ [.arrive "192.0.2.2", .upgrade 0, .resume 1 0, .hangUp 0, .resume 1 0,
      .resume 0 0]) s ∧ s.totalConnections = 1 ∧ s.Counted := by
  have hend : (follow step init (admitted ++ [.arrive "192.0.2.2", .upgrade 0, .resume 1 0,
      .hangUp 0, .resume 1 0, .resume 0 0])).map totalConnections = some 1 := by decide +kernel
  rcases Option.map_eq_some_iff.mp hend with ⟨s, hrun, htotal⟩
  exact ⟨s, hrun, htotal, slots_counted hrun (by decide +kernel)⟩

/-- An upgrade that fails keeps its slot although no attempt is under way. -/
theorem slot_leaked : exists s,
    Runs (admitted ++ [.fail 0]) s ∧ s.totalConnections = 1 ∧
      (s.attempts.all Attempt.isOver = true) ∧ ¬ s.Counted := by
  have hend : (follow step init (admitted ++ [.fail 0])).map
      (fun s => (s.totalConnections, s.attempts.all Attempt.isOver)) = some (1, true) := by
    decide +kernel
  rcases Option.map_eq_some_iff.mp hend with ⟨s, hrun, hfacts⟩
  rcases Prod.mk.inj hfacts with ⟨htotal, hover⟩
  refine ⟨s, hrun, htotal, hover, fun hcounted => ?_⟩
  have hzero := hcounted.rest (List.all_eq_true.mp hover)
  rw [htotal] at hzero
  cases hzero

end SlotServer

end CommandRelay
