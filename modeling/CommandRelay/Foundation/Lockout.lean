import Mathlib.Data.List.Perm.Subperm

/-!
# Lockouts

A lockout counts the refusals of agents that try one secret, and admits nobody for
a period once the count reaches a limit.  An agent is admitted, may be refused, and
has its refusal recorded; these are separate events, and other agents may act in
between.  A history keeps the events at a lockout, newest first.
-/

namespace CommandRelay
namespace Foundation

inductive LockoutAct where
  | allow
  | refuse
  | record
  | clear
  | leave
  deriving DecidableEq

structure LockoutEvent (agent : Type u) where
  agent : agent
  time : Nat
  act : LockoutAct

namespace Lockout

variable {agent : Type u}

def latest : List (LockoutEvent agent) -> Nat
  | [] => 0
  | e :: _ => e.time

/-- The failures recorded since the count was last cleared. -/
def failures : List (LockoutEvent agent) -> Nat
  | [] => 0
  | e :: rest =>
      match e.act with
      | .record => failures rest + 1
      | .clear => 0
      | _ => failures rest

def lockedUntil (limit period : Nat) : List (LockoutEvent agent) -> Option Nat
  | [] => none
  | e :: rest =>
      match e.act with
      | .record =>
          if limit ≤ failures rest + 1 then some (e.time + period)
          else lockedUntil limit period rest
      | .clear => none
      | _ => lockedUntil limit period rest

/-- The refusals since a time. -/
def refusals (since : Nat) (history : List (LockoutEvent agent)) :
    List (LockoutEvent agent) :=
  history.filter fun e => decide (e.act = .refuse ∧ since ≤ e.time)

def refusalsIn (period since : Nat) (history : List (LockoutEvent agent)) :
    List (LockoutEvent agent) :=
  history.filter fun e => decide (e.act = .refuse ∧ since ≤ e.time ∧ e.time < since + period)

theorem refusalsIn_length_le (period since : Nat) (history : List (LockoutEvent agent)) :
    (refusalsIn period since history).length ≤ (refusals since history).length := by
  unfold refusalsIn refusals
  apply List.Sublist.length_le
  apply List.monotone_filter_right
  intro e he
  simp only [decide_eq_true_eq] at he ⊢
  exact ⟨he.1, he.2.1⟩

section

variable {history : List (LockoutEvent agent)}

theorem mem_refusals {since : Nat} {e : LockoutEvent agent} :
    e ∈ refusals since history <-> e ∈ history ∧ e.act = .refuse ∧ since ≤ e.time := by
  simp [refusals]

theorem refusals_cons_other {since : Nat} {e : LockoutEvent agent} (h : e.act ≠ .refuse) :
    refusals since (e :: history) = refusals since history := by
  simp [refusals, h]

theorem refusals_eq_nil {since : Nat} (h : forall e, e ∈ history -> e.time < since) :
    refusals since history = [] := by
  apply List.eq_nil_iff_forall_not_mem.mpr
  intro e he
  rcases mem_refusals.mp he with ⟨hmem, _, hsince⟩
  exact absurd (h e hmem) (Nat.not_lt.mpr hsince)

end

variable [DecidableEq agent]

def attempts : List (LockoutEvent agent) -> List agent
  | [] => []
  | e :: rest =>
      match e.act with
      | .allow => e.agent :: attempts rest
      | .refuse => attempts rest
      | _ => (attempts rest).erase e.agent

def refused : List (LockoutEvent agent) -> List agent
  | [] => []
  | e :: rest =>
      match e.act with
      | .refuse => e.agent :: refused rest
      | .record => (refused rest).erase e.agent
      | _ => refused rest

def Follows (limit period : Nat) (history : List (LockoutEvent agent))
    (e : LockoutEvent agent) : Prop :=
  latest history ≤ e.time ∧
    match e.act with
    | .allow =>
        e.agent ∉ attempts history ∧
          forall until_, lockedUntil limit period history = some until_ -> until_ ≤ e.time
    | .refuse => e.agent ∈ attempts history ∧ e.agent ∉ refused history
    | .record => e.agent ∈ refused history
    | .clear | .leave => e.agent ∉ refused history

def crowded (limit : Nat) (history : List (LockoutEvent agent)) : Bool :=
  !(attempts history).isEmpty && limit ≤ failures history + (attempts history).length

def Orderly (limit period : Nat) : List (LockoutEvent agent) -> Prop
  | [] => True
  | e :: rest =>
      Follows limit period rest e ∧ (e.act = .allow -> crowded limit rest = false) ∧
        Orderly limit period rest

variable {limit period : Nat} {history : List (LockoutEvent agent)}

/-!
## What an orderly history satisfies
-/

def Lone (period : Nat) (history : List (LockoutEvent agent)) : Prop :=
  (exists c, attempts history = [c]) ∧
    (refused history = [] ->
      forall e, e ∈ refusals 0 history -> e.time + period ≤ latest history)

structure Bounded (limit period : Nat) (history : List (LockoutEvent agent)) : Prop where
  nodup : (attempts history).Nodup
  distinct : (refused history).Nodup
  subset : forall c, c ∈ refused history -> c ∈ attempts history
  past : forall e, e ∈ history -> e.time ≤ latest history
  room : failures history + (attempts history).length ≤ limit ∨ attempts history = [] ∨
    Lone period history
  locked : limit ≤ failures history -> forall e, e ∈ refusals 0 history ->
    refused history ≠ [] ∨
      exists until_, lockedUntil limit period history = some until_ ∧ e.time + period ≤ until_
  counted : forall since,
    (forall e, e ∈ history -> e.act = .clear -> e.time < since) ->
      (refusals since history).length ≤ failures history + (refused history).length

theorem refused_eq_nil (h : Bounded limit period history) (hnone : attempts history = []) :
    refused history = [] := by
  apply List.eq_nil_iff_forall_not_mem.mpr
  intro c hc
  have hattempt := h.subset c hc
  rw [hnone] at hattempt
  cases hattempt

theorem refused_length_le (h : Bounded limit period history) :
    (refused history).length ≤ (attempts history).length :=
  (List.subperm_of_subset h.distinct h.subset).length_le

theorem past_cons {e : LockoutEvent agent} (h : Bounded limit period history)
    (hlater : latest history ≤ e.time) (f : LockoutEvent agent) (hf : f ∈ e :: history) :
    f.time ≤ e.time := by
  rcases List.mem_cons.mp hf with heq | hold
  · exact Nat.le_of_eq (congrArg LockoutEvent.time heq)
  · exact Nat.le_trans (h.past f hold) hlater

section

variable {c : agent} {t : Nat}

theorem bounded_allow (h : Bounded limit period history)
    (hf : Follows limit period history ⟨c, t, .allow⟩) (hfree : crowded limit history = false) :
    Bounded limit period (⟨c, t, .allow⟩ :: history) where
  nodup := List.nodup_cons.mpr ⟨hf.2.1, h.nodup⟩
  distinct := h.distinct
  subset := fun x hx => List.mem_cons_of_mem c (h.subset x hx)
  past := past_cons h hf.1
  room := by
    show failures history + (attempts history).length.succ ≤ limit ∨ _
    by_cases hnone : attempts history = []
    · by_cases hcount : failures history < limit
      · left
        rw [hnone]
        exact hcount
      · -- The lockout after the last recorded failure has passed.
        refine Or.inr (Or.inr ⟨⟨c, by rw [attempts, hnone]⟩, ?_⟩)
        intro _ e he
        rw [refusals_cons_other (by simp)] at he
        rcases h.locked (Nat.not_lt.mp hcount) e he with hwaiting | ⟨until_, hlocked, hlong⟩
        · exact absurd (refused_eq_nil h hnone) hwaiting
        · exact Nat.le_trans hlong (hf.2.2 until_ hlocked)
    · left
      have hroom : ¬ limit ≤ failures history + (attempts history).length := by
        simpa [crowded, hnone] using hfree
      omega
  locked := fun hcount e he => h.locked hcount e (by rwa [refusals_cons_other (by simp)] at he)
  counted := by
    intro since hclear
    rw [refusals_cons_other (by simp)]
    exact h.counted since fun e he => hclear e (List.mem_cons_of_mem _ he)

theorem bounded_refuse (h : Bounded limit period history)
    (hf : Follows limit period history ⟨c, t, .refuse⟩) :
    Bounded limit period (⟨c, t, .refuse⟩ :: history) where
  nodup := h.nodup
  distinct := List.nodup_cons.mpr ⟨hf.2.2, h.distinct⟩
  subset := by
    intro x hx
    rcases List.mem_cons.mp hx with heq | hold
    · rw [heq]
      exact hf.2.1
    · exact h.subset x hold
  past := past_cons h hf.1
  room := by
    rcases h.room with hroom | hnone | hlone
    · exact Or.inl hroom
    · exact Or.inr (Or.inl hnone)
    · exact Or.inr (Or.inr ⟨hlone.1, fun hrefused => by cases hrefused⟩)
  locked := fun _ _ _ => Or.inl (by simp [refused])
  counted := by
    intro since hclear
    have hold := h.counted since fun e he => hclear e (List.mem_cons_of_mem _ he)
    have hlength : (refusals since (⟨c, t, .refuse⟩ :: history)).length ≤
        (refusals since history).length + 1 := by
      unfold refusals
      rw [List.filter_cons]
      split
      · exact Nat.le_refl _
      · exact Nat.le_succ _
    show _ ≤ failures history + ((refused history).length + 1)
    omega

theorem bounded_record (h : Bounded limit period history)
    (hf : Follows limit period history ⟨c, t, .record⟩) :
    Bounded limit period (⟨c, t, .record⟩ :: history) := by
  have hattempt : c ∈ attempts history := h.subset c hf.2
  have hattempts : ((attempts history).erase c).length + 1 = (attempts history).length := by
    rw [List.length_erase_of_mem hattempt]
    have := List.length_pos_of_mem hattempt
    omega
  have hrefused : ((refused history).erase c).length + 1 = (refused history).length := by
    rw [List.length_erase_of_mem hf.2]
    have := List.length_pos_of_mem hf.2
    omega
  refine
    { nodup := h.nodup.erase c
      distinct := h.distinct.erase c
      subset := ?_
      past := past_cons h hf.1
      room := ?_
      locked := ?_
      counted := ?_ }
  · intro x hx
    rcases h.distinct.mem_erase_iff.mp hx with ⟨hne, hmem⟩
    exact h.nodup.mem_erase_iff.mpr ⟨hne, h.subset x hmem⟩
  · show failures history + 1 + ((attempts history).erase c).length ≤ limit ∨
      (attempts history).erase c = [] ∨ _
    rcases h.room with hroom | hnone | ⟨⟨x, hx⟩, _⟩
    · exact Or.inl (by omega)
    · rw [hnone] at hattempt
      cases hattempt
    · have hc : c = x := by simpa [hx] using hattempt
      exact Or.inr (Or.inl (by rw [hx, hc]; simp))
  · intro hcount e he
    have hcount : limit ≤ failures history + 1 := hcount
    refine Or.inr ⟨t + period, if_pos hcount, ?_⟩
    exact Nat.add_le_add_right (past_cons h hf.1 e (mem_refusals.mp he).1) period
  · intro since hclear
    rw [refusals_cons_other (by simp)]
    have hold := h.counted since fun e he => hclear e (List.mem_cons_of_mem _ he)
    show _ ≤ failures history + 1 + ((refused history).erase c).length
    omega

theorem room_erase (h : Bounded limit period history) {n : Nat} (hn : n ≤ failures history) :
    n + ((attempts history).erase c).length ≤ limit ∨ (attempts history).erase c = [] ∨
      (attempts history).erase c = attempts history ∧ Lone period history := by
  have hlength : ((attempts history).erase c).length ≤ (attempts history).length :=
    List.erase_sublist.length_le
  rcases h.room with hroom | hnone | hlone
  · exact Or.inl (by omega)
  · exact Or.inr (Or.inl (by rw [hnone]; rfl))
  · rcases hlone with ⟨⟨x, hx⟩, hrest⟩
    by_cases hc : x = c
    · exact Or.inr (Or.inl (by rw [hx, hc]; simp))
    · refine Or.inr (Or.inr ⟨?_, ⟨x, hx⟩, hrest⟩)
      rw [hx]
      exact List.erase_of_not_mem (by simpa using fun hcx => hc hcx.symm)

theorem subset_erase (h : Bounded limit period history) (hc : c ∉ refused history) (x : agent)
    (hx : x ∈ refused history) : x ∈ (attempts history).erase c := by
  refine h.nodup.mem_erase_iff.mpr ⟨?_, h.subset x hx⟩
  intro heq
  exact hc (heq ▸ hx)

theorem lone_later (h : Lone period history) {e : LockoutEvent agent}
    (hattempts : attempts (e :: history) = attempts history)
    (hrefused : refused (e :: history) = refused history) (hact : e.act ≠ .refuse)
    (hlater : latest history ≤ e.time) : Lone period (e :: history) := by
  refine ⟨by rw [hattempts]; exact h.1, ?_⟩
  intro hnone f hf
  rw [refusals_cons_other hact] at hf
  rw [hrefused] at hnone
  exact Nat.le_trans (h.2 hnone f hf) hlater

theorem bounded_leave (h : Bounded limit period history)
    (hf : Follows limit period history ⟨c, t, .leave⟩) :
    Bounded limit period (⟨c, t, .leave⟩ :: history) where
  nodup := h.nodup.erase c
  distinct := h.distinct
  subset := subset_erase h hf.2
  past := past_cons h hf.1
  room := by
    rcases room_erase (c := c) h (Nat.le_refl _) with hroom | hnone | ⟨hsame, hlone⟩
    · exact Or.inl hroom
    · exact Or.inr (Or.inl hnone)
    · exact Or.inr (Or.inr (lone_later hlone hsame rfl (by simp) hf.1))
  locked := fun hcount e he => h.locked hcount e (by rwa [refusals_cons_other (by simp)] at he)
  counted := by
    intro since hclear
    rw [refusals_cons_other (by simp)]
    exact h.counted since fun e he => hclear e (List.mem_cons_of_mem _ he)

theorem bounded_clear (hlimit : 0 < limit) (h : Bounded limit period history)
    (hf : Follows limit period history ⟨c, t, .clear⟩) :
    Bounded limit period (⟨c, t, .clear⟩ :: history) where
  nodup := h.nodup.erase c
  distinct := h.distinct
  subset := subset_erase h hf.2
  past := past_cons h hf.1
  room := by
    rcases room_erase (c := c) h (Nat.zero_le _) with hroom | hnone | ⟨hsame, hlone⟩
    · exact Or.inl hroom
    · exact Or.inr (Or.inl hnone)
    · exact Or.inr (Or.inr (lone_later hlone hsame rfl (by simp) hf.1))
  locked := fun hcount => absurd hcount (Nat.not_le.mpr hlimit)
  counted := by
    -- Every event so far is before the period that starts after the clearing.
    intro since hclear
    have ht : t < since := hclear _ List.mem_cons_self rfl
    rw [refusals_eq_nil fun e he => Nat.lt_of_le_of_lt (past_cons h hf.1 e he) ht]
    exact Nat.zero_le _

end

theorem bounded_of_orderly (hlimit : 0 < limit) (h : Orderly limit period history) :
    Bounded limit period history := by
  induction history with
  | nil =>
      exact
        { nodup := List.nodup_nil
          distinct := List.nodup_nil
          subset := fun c hc => by cases hc
          past := fun e he => by cases he
          room := Or.inr (Or.inl rfl)
          locked := fun _ e he => by cases he
          counted := fun since _ => Nat.zero_le _ }
  | cons e rest ih =>
      rcases h with ⟨hfollows, hfree, hrest⟩
      have hbounded := ih hrest
      rcases e with ⟨c, t, act⟩
      cases act with
      | allow => exact bounded_allow hbounded hfollows (hfree rfl)
      | refuse => exact bounded_refuse hbounded hfollows
      | record => exact bounded_record hbounded hfollows
      | clear => exact bounded_clear hlimit hbounded hfollows
      | leave => exact bounded_leave hbounded hfollows

theorem mem_attempts_other {e : LockoutEvent agent} {x : agent} (hne : x ≠ e.agent) :
    x ∈ attempts (e :: history) <-> x ∈ attempts history := by
  rcases e with ⟨c, t, act⟩
  cases act <;> simp [attempts, hne, List.mem_erase_of_ne hne]

theorem mem_refused_other {e : LockoutEvent agent} {x : agent} (hne : x ≠ e.agent) :
    x ∈ refused (e :: history) <-> x ∈ refused history := by
  rcases e with ⟨c, t, act⟩
  cases act <;> simp [refused, hne, List.mem_erase_of_ne hne]

theorem agent_mem_attempts {e : LockoutEvent agent} (h : Bounded limit period history)
    (hf : Follows limit period history e) :
    e.agent ∈ attempts (e :: history) <-> e.act = .allow ∨ e.act = .refuse := by
  rcases e with ⟨c, t, act⟩
  cases act with
  | allow => simp [attempts]
  | refuse => simpa [attempts] using hf.2.1
  | record => simpa [attempts] using h.nodup.not_mem_erase
  | clear => simpa [attempts] using h.nodup.not_mem_erase
  | leave => simpa [attempts] using h.nodup.not_mem_erase

theorem agent_mem_refused {e : LockoutEvent agent} (h : Bounded limit period history)
    (hf : Follows limit period history e) :
    e.agent ∈ refused (e :: history) <-> e.act = .refuse := by
  rcases e with ⟨c, t, act⟩
  cases act with
  | allow => simpa [refused] using fun hc => hf.2.1 (h.subset c hc)
  | refuse => simp [refused]
  | record => simpa [refused] using h.distinct.not_mem_erase
  | clear => simpa [refused] using hf.2
  | leave => simpa [refused] using hf.2

/-!
## Refusals in a period
-/

theorem refusalsIn_of_lone {e : LockoutEvent agent} {since : Nat}
    (h : Bounded limit period history) (hlone : Lone period history)
    (hfollows : Follows limit period history e) (hact : e.act = .refuse)
    (hbefore : e.time < since + period) : refusalsIn period since history = [] := by
  rcases e with ⟨c, t, act⟩
  cases hact
  have hwaits : refused history = [] := by
    rcases hlone.1 with ⟨x, hx⟩
    have hc : c = x := by simpa [hx] using hfollows.2.1
    apply List.eq_nil_iff_forall_not_mem.mpr
    intro y hy
    have hy' := h.subset y hy
    rw [hx, ← hc] at hy'
    exact hfollows.2.2 (List.mem_singleton.mp hy' ▸ hy)
  apply List.eq_nil_iff_forall_not_mem.mpr
  intro f hf
  simp only [refusalsIn, List.mem_filter, decide_eq_true_eq] at hf
  rcases hf with ⟨hmem, hrefuse, hfrom, _⟩
  have hlong := hlone.2 hwaits f (mem_refusals.mpr ⟨hmem, hrefuse, Nat.zero_le _⟩)
  have hlater : latest history ≤ t := hfollows.1
  have hbefore : t < since + period := hbefore
  omega

/--
In an orderly history, no period in which the count is not cleared has more
refusals than the limit.
-/
theorem refusals_le_limit (hlimit : 0 < limit) (h : Orderly limit period history) (since : Nat)
    (hclear : forall e, e ∈ history -> e.act = .clear -> since ≤ e.time ->
      since + period ≤ e.time) :
    (refusalsIn period since history).length ≤ limit := by
  induction history with
  | nil => exact Nat.zero_le _
  | cons e rest ih =>
      have hall := bounded_of_orderly hlimit h
      rcases h with ⟨hfollows, _, hrest⟩
      have hbounded := bounded_of_orderly hlimit hrest
      by_cases hin : e.act = .refuse ∧ since ≤ e.time ∧ e.time < since + period
      · have hcount : (refusalsIn period since (e :: rest)).length =
            (refusalsIn period since rest).length + 1 := by
          simp [refusalsIn, hin.1, hin.2.1, hin.2.2]
        have hnever : forall f, f ∈ e :: rest -> f.act = .clear -> f.time < since := by
          intro f hf hact
          have hpast := past_cons hbounded hfollows.1 f hf
          by_cases hsince : since ≤ f.time
          · have := hclear f hf hact hsince
            omega
          · exact Nat.not_le.mp hsince
        have hcounted := hall.counted since hnever
        have hwaiting := refused_length_le hall
        have hle := refusalsIn_length_le period since (e :: rest)
        rcases hbounded.room with hroom | hnone | hlone
        · rcases e with ⟨c, t, act⟩
          cases hin.1
          have hfailures : failures (⟨c, t, .refuse⟩ :: rest) = failures rest := rfl
          have hattempts : attempts (⟨c, t, .refuse⟩ :: rest) = attempts rest := rfl
          rw [hfailures] at hcounted
          rw [hattempts] at hwaiting
          omega
        · rcases e with ⟨c, t, act⟩
          cases hin.1
          have hattempt : c ∈ attempts rest := hfollows.2.1
          rw [hnone] at hattempt
          cases hattempt
        · rw [hcount, refusalsIn_of_lone hbounded hlone hfollows hin.1 hin.2.2]
          exact hlimit
      · have hsame : refusalsIn period since (e :: rest) = refusalsIn period since rest := by
          unfold refusalsIn
          rw [List.filter_cons_of_neg (by simpa using hin)]
        rw [hsame]
        exact ih hrest fun f hf => hclear f (List.mem_cons_of_mem e hf)

end Lockout

end Foundation
end CommandRelay
