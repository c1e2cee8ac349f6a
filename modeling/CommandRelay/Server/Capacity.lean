import CommandRelay.Server.Slots

/-!
# The connection cap

`try_acquire_connection` compares and adds in two accesses.  Between them the counter does
not show the slot, so other attempts may pass the same comparison.
-/

namespace CommandRelay

open Foundation

namespace Attempt

def isAdmitted (a : Attempt) : Bool :=
  match a.next? with
  | some .fetchAdd => true
  | _ => false

def isComparing (a : Attempt) : Bool :=
  match a.next? with
  | some .load => true
  | _ => false

def claims (a : Attempt) : Bool :=
  a.holds || a.isAdmitted

variable {s : SlotServer} {now : Instant} {held : Bool} {call : SlotCall}

theorem claims_handling (s : SlotServer) (now : Instant)
    {next : call.Reply -> SlotTask UpgradeResponse}
    (h : Reached ⟨held, .handling (.invoke call next)⟩) :
    (claims ⟨SlotServer.acquiredAfter held call, .handling (next (s.exec now call).2)⟩ = true ->
      claims ⟨held, .handling (.invoke call next)⟩ = true) ∨
      call = .load ∧ s.totalConnections < maxTotalConnections := by
  generalize ha : (⟨held, .handling (.invoke call next)⟩ : Attempt) = a at h
  cases h with
  | arrived =>
      rw [SlotTask.wsHandler_eq] at ha
      cases ha
      have hload : (s.exec now .load).2 = s.totalConnections := rfl
      by_cases hfull : maxTotalConnections ≤ s.totalConnections
      · simp only [hload, if_pos hfull]
        exact Or.inl fun hclaims => by cases hclaims
      · exact Or.inr ⟨rfl, Nat.not_le.mp hfull⟩
  | admitted =>
      cases ha
      exact Or.inl fun _ => rfl
  | acquired =>
      rw [SlotTask.wsAcquired_eq] at ha
      cases ha
      exact Or.inl fun _ => rfl
  | limited =>
      cases ha
      exact Or.inl fun _ => rfl
  | _ => cases ha

theorem claims_closing {next : call.Reply -> SlotTask Unit}
    (h : Reached ⟨held, .closing (.invoke call next)⟩) :
    claims ⟨SlotServer.acquiredAfter held call, .closing (next (s.exec now call).2)⟩ = true ->
      claims ⟨held, .closing (.invoke call next)⟩ = true := by
  generalize ha : (⟨held, .closing (.invoke call next)⟩ : Attempt) = a at h
  cases h with
  | closing =>
      cases ha
      exact fun _ => rfl
  | _ => cases ha

theorem eq_of_isAdmitted {a : Attempt} (h : Reached a) (hadmitted : a.isAdmitted = true) :
    exists ip, a = ⟨false, .handling (.invoke .fetchAdd fun _ => SlotTask.wsAcquired ip)⟩ := by
  cases h with
  | admitted => exact ⟨_, rfl⟩
  | arrived =>
      rw [SlotTask.wsHandler_eq] at hadmitted
      cases hadmitted
  | acquired =>
      rw [SlotTask.wsAcquired_eq] at hadmitted
      cases hadmitted
  | _ => cases hadmitted

theorem eq_of_isComparing {a : Attempt} (h : Reached a) (hcomparing : a.isComparing = true) :
    exists ip, a = ⟨false, .handling (SlotTask.wsHandler ip)⟩ := by
  cases h with
  | arrived => exact ⟨_, rfl⟩
  | acquired =>
      rw [SlotTask.wsAcquired_eq] at hcomparing
      cases hcomparing
  | _ => cases hcomparing

theorem countP_claims {attempts : List Attempt} (h : forall a, a ∈ attempts -> Reached a) :
    attempts.countP claims = attempts.countP holds + attempts.countP isAdmitted := by
  induction attempts with
  | nil => rfl
  | cons a rest ih =>
      have hrest := ih fun b hb => h b (List.mem_cons_of_mem a hb)
      rw [List.countP_cons, List.countP_cons, List.countP_cons, hrest]
      cases hadmitted : a.isAdmitted with
      | true =>
          rcases eq_of_isAdmitted (h a List.mem_cons_self) hadmitted with ⟨ip, rfl⟩
          have hfree : holds ⟨false, .handling (.invoke .fetchAdd fun _ =>
              SlotTask.wsAcquired ip)⟩ = false := rfl
          simp only [claims, hfree, hadmitted, Bool.false_or, if_true, Bool.false_eq_true, if_false]
          omega
      | false =>
          simp only [claims, hadmitted, Bool.or_false, Bool.false_eq_true, if_false]
          omega

end Attempt

namespace SlotServer

variable {s s' : SlotServer} {l : SlotLabel} {labels : List SlotLabel} {i : Nat} {a a' : Attempt}

def comparesFully (s : SlotServer) : SlotLabel -> Bool
  | .resume i _ =>
      !((s.attempts[i]?).any Attempt.isComparing) || maxTotalConnections ≤ s.totalConnections ||
        s.totalConnections + s.attempts.countP Attempt.isAdmitted < maxTotalConnections
  | _ => true

def ComparesFully (s : SlotServer) (l : SlotLabel) : Prop :=
  s.comparesFully l = true

instance (s : SlotServer) (l : SlotLabel) : Decidable (s.ComparesFully l) :=
  inferInstanceAs (Decidable (_ = true))

/-- The slots that are held or about to be added fit under the cap. -/
structure WithinCap (s : SlotServer) : Prop where
  held : s.Held
  claims : s.attempts.countP Attempt.claims ≤ maxTotalConnections

theorem WithinCap.total_le (h : s.WithinCap) : s.totalConnections ≤ maxTotalConnections := by
  have hclaims := h.claims
  rw [Attempt.countP_claims h.held.reached] at hclaims
  have htotal := h.held.total
  omega

theorem WithinCap.fits (h : s.WithinCap) (l : SlotLabel) : s.FitsSlot l := by
  have hle : s.totalConnections ≤ 50 := h.total_le
  cases l with
  | resume i now =>
      show (match s.attempts[i]?.bind Attempt.next? with
        | some .fetchAdd => decide (s.totalConnections ≠ 0xffffffffffffffff)
        | _ => true) = true
      split
      · exact decide_eq_true (by omega)
      · rfl
  | _ => rfl

theorem claims_setAttempt_le {more : SlotServer} (hattempts : more.attempts = s.attempts)
    (ha : s.attempts[i]? = some a) (hclaims : a'.claims = true -> a.claims = true) :
    (more.setAttempt i a').attempts.countP Attempt.claims ≤
      s.attempts.countP Attempt.claims := by
  have hcount := countP_setAttempt Attempt.claims hattempts ha a'
  cases hafter : a'.claims with
  | true =>
      rw [hafter, hclaims hafter] at hcount
      omega
  | false =>
      rw [hafter] at hcount
      simp only [Bool.false_eq_true, if_false] at hcount
      omega

theorem withinCap_step (h : s.WithinCap) (hl : s.ComparesFully l) (hstep : step s l = some s') :
    s'.WithinCap where
  held := held_step h.held (h.fits l) hstep
  claims := by
    have hbound := h.claims
    cases l with
    | arrive ip =>
        cases hstep
        show List.countP Attempt.claims (s.attempts ++ _) ≤ _
        rw [List.countP_append]
        exact hbound
    | resume i now =>
        simp only [step] at hstep
        split at hstep
        · rename_i held call next hget
          cases hstep
          have hreached := h.held.reached _ (List.mem_of_getElem? hget)
          rcases Attempt.claims_handling s now hreached with hkeeps | ⟨rfl, hroom⟩
          · exact Nat.le_trans
              (claims_setAttempt_le (s.attempts_exec now call) hget hkeeps) hbound
          · have hcount := countP_setAttempt Attempt.claims (s.attempts_exec now .load) hget
              ⟨acquiredAfter held .load, .handling (next (s.exec now .load).2)⟩
            have hfree : s.totalConnections + s.attempts.countP Attempt.isAdmitted <
                maxTotalConnections := by
              simp only [ComparesFully, comparesFully, hget, Option.any_some, Bool.or_eq_true,
                Bool.not_eq_true', decide_eq_true_eq] at hl
              rcases hl with (hother | hfull) | hfree
              · cases hother
              · exact absurd hroom (Nat.not_lt.mpr hfull)
              · exact hfree
            rw [h.held.total, ← Attempt.countP_claims h.held.reached] at hfree
            have hone : (if Attempt.claims ⟨acquiredAfter held .load,
                .handling (next (s.exec now .load).2)⟩ = true then 1 else 0) ≤ 1 := by
              split <;> decide
            omega
        · rename_i held call next hget
          cases hstep
          have hreached := h.held.reached _ (List.mem_of_getElem? hget)
          exact Nat.le_trans (claims_setAttempt_le (s.attempts_exec now call) hget
            (Attempt.claims_closing hreached)) hbound
        · cases hstep
    | upgrade i =>
        simp only [step] at hstep
        split at hstep
        · rename_i held hget
          cases hstep
          cases h.held.reached _ (List.mem_of_getElem? hget) with
          | returned =>
              exact Nat.le_trans (claims_setAttempt_le rfl hget fun _ => rfl) hbound
        · cases hstep
    | fail i =>
        simp only [step] at hstep
        split at hstep
        · rename_i held hget
          cases hstep
          cases h.held.reached _ (List.mem_of_getElem? hget) with
          | returned =>
              exact Nat.le_trans (claims_setAttempt_le rfl hget fun _ => rfl) hbound
        · cases hstep
    | hangUp i =>
        simp only [step] at hstep
        split at hstep
        · rename_i held hget
          cases hstep
          cases h.held.reached _ (List.mem_of_getElem? hget) with
          | serving =>
              exact Nat.le_trans (claims_setAttempt_le rfl hget fun _ => rfl) hbound
        · cases hstep

/-- The cap holds in every run in which no comparison overlooks the slots that are about to
be added. -/
theorem cap_holds (hrun : Runs labels s) (hok : Admits step ComparesFully init labels) :
    s.totalConnections ≤ 50 := by
  have hcap : s.WithinCap := by
    refine follow_invariant (motive := WithinCap)
      (fun _ _ _ h hl hnext => withinCap_step h hl hnext) ?_ hrun hok
    exact ⟨⟨fun _ ha => (by cases ha), rfl⟩, Nat.zero_le _⟩
  exact hcap.total_le

theorem cap_holds_example : exists s,
    Runs [.arrive "192.0.2.1", .arrive "192.0.2.2", .resume 0 0, .resume 1 0, .resume 1 0,
      .resume 0 0] s ∧ s.totalConnections = 2 ∧ s.totalConnections ≤ 50 := by
  have hend : (follow step init [.arrive "192.0.2.1", .arrive "192.0.2.2", .resume 0 0,
      .resume 1 0, .resume 1 0, .resume 0 0]).map totalConnections = some 2 := by decide +kernel
  rcases Option.map_eq_some_iff.mp hend with ⟨s, hrun, htotal⟩
  exact ⟨s, hrun, htotal, cap_holds hrun (by decide +kernel)⟩

def crowd (n : Nat) : List SlotLabel :=
  (List.range n).map (fun _ => .arrive "192.0.2.1") ++
    ((List.range n).map (fun i => .resume i 0) ++ (List.range n).map fun i => .resume i 0)

/-- Fifty-one attempts compare before any of them adds. -/
theorem cap_exceeded : exists s, Runs (crowd 51) s ∧ s.totalConnections = 51 := by
  have hend : (follow step init (crowd 51)).map totalConnections = some 51 := by decide +kernel
  exact Option.map_eq_some_iff.mp hend

/-!
## The condition is needed
-/

theorem exceeds_of_claims (h : s.Held) (hle : s.totalConnections ≤ maxTotalConnections)
    (hover : maxTotalConnections < s.totalConnections + s.attempts.countP Attempt.isAdmitted) :
    exists labels s', follow step s labels = some s' ∧
      maxTotalConnections < s'.totalConnections := by
  generalize hn : s.attempts.countP Attempt.isAdmitted = n at hover
  induction n generalizing s with
  | zero => omega
  | succ n ih =>
      have hpos : 0 < s.attempts.countP Attempt.isAdmitted := by omega
      rcases List.countP_pos_iff.mp hpos with ⟨a, hmem, hadmitted⟩
      rcases List.getElem?_of_mem hmem with ⟨i, hget⟩
      rcases Attempt.eq_of_isAdmitted (h.reached a hmem) hadmitted with ⟨ip, rfl⟩
      have hstep : step s (.resume i 0) = some ((s.exec 0 .fetchAdd).1.setAttempt i
          ⟨true, .handling (SlotTask.wsAcquired ip)⟩) := by
        simp only [step, hget]
        rfl
      have hadded : ((s.exec 0 .fetchAdd).1.setAttempt i
          ⟨true, .handling (SlotTask.wsAcquired ip)⟩).totalConnections =
            s.totalConnections + 1 := by
        have hfit : s.totalConnections ≤ 50 := hle
        exact addUsize_eq (by omega)
      by_cases hnow : maxTotalConnections < s.totalConnections + 1
      · refine ⟨[.resume i 0], _, follow_cons_eq_some.mpr ⟨_, hstep, follow_nil _⟩, ?_⟩
        rw [hadded]
        exact hnow
      · have hfits : s.FitsSlot (.resume i 0) := by
          have hfit : s.totalConnections ≤ 50 := hle
          simp only [FitsSlot, fitsSlot, hget, Option.bind_some]
          exact decide_eq_true (by omega)
        have hcount := countP_setAttempt Attempt.isAdmitted (s.attempts_exec 0 .fetchAdd) hget
          ⟨true, .handling (SlotTask.wsAcquired ip)⟩
        have hbefore : Attempt.isAdmitted ⟨false, .handling (.invoke .fetchAdd fun _ =>
            SlotTask.wsAcquired ip)⟩ = true := rfl
        have hafter : Attempt.isAdmitted ⟨true, .handling (SlotTask.wsAcquired ip)⟩ = false := rfl
        rw [hbefore, hafter] at hcount
        simp only [if_true, Bool.false_eq_true, if_false] at hcount
        rcases ih (held_step h hfits hstep) (by omega) (by omega) (by omega) with
          ⟨labels, s', hrun, hexceeds⟩
        exact ⟨.resume i 0 :: labels, s', follow_cons_eq_some.mpr ⟨_, hstep, hrun⟩, hexceeds⟩

/-- After any comparison that overlooks the slots about to be added, the cap can be
exceeded. -/
theorem exceeds_of_overlooked (h : s.Held) (hl : ¬ s.ComparesFully l)
    (hstep : step s l = some s') :
    exists labels s'', follow step s' labels = some s'' ∧
      maxTotalConnections < s''.totalConnections := by
  cases l with
  | resume i now =>
      simp only [ComparesFully, comparesFully, Bool.or_eq_true, not_or, Bool.not_eq_true',
        Bool.not_eq_false, decide_eq_true_eq] at hl
      rcases hl with ⟨⟨hcomparing, hroom⟩, hover⟩
      have harrived : exists ip,
          s.attempts[i]? = some ⟨false, .handling (SlotTask.wsHandler ip)⟩ := by
        cases hget : s.attempts[i]? with
        | none =>
            rw [hget] at hcomparing
            cases hcomparing
        | some a =>
            rw [hget] at hcomparing
            rcases Attempt.eq_of_isComparing (h.reached a (List.mem_of_getElem? hget)) hcomparing
              with ⟨ip, rfl⟩
            exact ⟨ip, rfl⟩
      rcases harrived with ⟨ip, hget⟩
      have hmoved : s' = s.setAttempt i
          ⟨false, .handling (.invoke .fetchAdd fun _ => SlotTask.wsAcquired ip)⟩ := by
        rw [SlotTask.wsHandler_eq] at hget
        have hload : (s.exec now .load).2 = s.totalConnections := rfl
        simp only [step, hget, hload, if_neg hroom] at hstep
        exact (Option.some.inj hstep).symm
      have hheld : s'.Held := by
        rw [hmoved]
        exact held_moved h hget .admitted rfl
      have htotal : s'.totalConnections = s.totalConnections := by rw [hmoved]; rfl
      have hcount := countP_setAttempt Attempt.isAdmitted (rfl : s.attempts = s.attempts) hget
        ⟨false, .handling (.invoke .fetchAdd fun _ => SlotTask.wsAcquired ip)⟩
      have hbefore : Attempt.isAdmitted ⟨false, .handling (SlotTask.wsHandler ip)⟩ = false := rfl
      have hafter : Attempt.isAdmitted ⟨false, .handling (.invoke .fetchAdd fun _ =>
          SlotTask.wsAcquired ip)⟩ = true := rfl
      rw [hbefore, hafter, ← hmoved] at hcount
      simp only [if_true, Bool.false_eq_true, if_false] at hcount
      exact exceeds_of_claims hheld (by omega) (by omega)
  | _ => exact absurd rfl hl

end SlotServer

end CommandRelay
