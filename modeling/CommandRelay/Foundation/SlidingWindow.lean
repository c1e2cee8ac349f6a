import Mathlib.Data.List.Basic

/-!
# Sliding windows

A sliding window admits a call while fewer than `limit` admitted calls lie within `period`
of it.  It keeps the times of admitted calls and forgets, at every call, those that have
left the window.  A history lists the times of the calls, newest first.
-/

namespace CommandRelay
namespace Foundation
namespace SlidingWindow

/-- The times that lie within the period before `now`. -/
def within (period now : Nat) (times : List Nat) : List Nat :=
  times.filter fun t => now < t + period

def offer (limit period now : Nat) (times : List Nat) : List Nat × Bool :=
  let kept := within period now times
  if limit ≤ kept.length then (kept, false) else (kept ++ [now], true)

variable (limit period : Nat)

def kept : List Nat -> List Nat
  | [] => []
  | now :: earlier => (offer limit period now (kept earlier)).1

def admits (earlier : List Nat) (now : Nat) : Bool :=
  (offer limit period now (kept limit period earlier)).2

def admitted : List Nat -> List Nat
  | [] => []
  | now :: earlier =>
      if admits limit period earlier now then now :: admitted earlier else admitted earlier

/-- The admitted calls of the period that ends at `stop`. -/
def inPeriod (stop : Nat) (history : List Nat) : List Nat :=
  (admitted limit period history).filter fun t => t ≤ stop ∧ stop < t + period

/-- The times of a history never decrease. -/
def Ordered (history : List Nat) : Prop :=
  history.Pairwise fun newer older => older ≤ newer

variable {limit period}

theorem offer_fst (now : Nat) (times : List Nat) :
    (offer limit period now times).1 =
      if (offer limit period now times).2 then within period now times ++ [now]
      else within period now times := by
  unfold offer
  by_cases hfull : limit ≤ (within period now times).length
  · simp [hfull]
  · simp [hfull]

theorem offer_snd (now : Nat) (times : List Nat) :
    (offer limit period now times).2 = true <-> (within period now times).length < limit := by
  unfold offer
  by_cases hfull : limit ≤ (within period now times).length
  · simp [hfull]
  · simp [hfull, Nat.not_le.mp hfull]

theorem kept_cons (now : Nat) (earlier : List Nat) :
    kept limit period (now :: earlier) =
      if admits limit period earlier now then
        within period now (kept limit period earlier) ++ [now]
      else within period now (kept limit period earlier) :=
  offer_fst now (kept limit period earlier)

theorem admitted_cons (now : Nat) (earlier : List Nat) :
    admitted limit period (now :: earlier) =
      if admits limit period earlier now then now :: admitted limit period earlier
      else admitted limit period earlier :=
  rfl

theorem within_within {now later : Nat} (h : now ≤ later) (times : List Nat) :
    within period later (within period now times) = within period later times := by
  unfold within
  rw [List.filter_filter]
  apply List.filter_congr
  intro t _
  by_cases hlater : later < t + period
  · simp [hlater, Nat.lt_of_le_of_lt h hlater]
  · simp [hlater]

theorem within_append (now : Nat) (times times' : List Nat) :
    within period now (times ++ times') = within period now times ++ within period now times' :=
  List.filter_append times times'

/-- Nothing that was forgotten can matter: at every later time, the kept times within the
period are the admitted ones. -/
theorem within_kept {history : List Nat} (hordered : Ordered history) {later : Nat}
    (hlater : forall t, t ∈ history -> t ≤ later) :
    within period later (kept limit period history) =
      (within period later (admitted limit period history)).reverse := by
  induction history generalizing later with
  | nil => rfl
  | cons now earlier ih =>
      rcases List.pairwise_cons.mp hordered with ⟨hnow, hearlier⟩
      have hle : now ≤ later := hlater now List.mem_cons_self
      have hrest := ih hearlier fun t ht => hlater t (List.mem_cons_of_mem now ht)
      rw [kept_cons, admitted_cons]
      by_cases hadmits : admits limit period earlier now = true
      · rw [if_pos hadmits, if_pos hadmits, within_append, within_within hle, hrest]
        by_cases hin : later < now + period
        · simp [within, hin]
        · simp [within, hin]
      · rw [if_neg hadmits, if_neg hadmits, within_within hle, hrest]

/-- A call is admitted exactly when fewer than `limit` of the calls admitted before it lie
within the period. -/
theorem admits_iff {now : Nat} {earlier : List Nat} (hordered : Ordered (now :: earlier)) :
    admits limit period earlier now = true <->
      (within period now (admitted limit period earlier)).length < limit := by
  rcases List.pairwise_cons.mp hordered with ⟨hnow, hearlier⟩
  rw [admits, offer_snd, within_kept hearlier hnow, List.length_reverse]

theorem inPeriod_le {history : List Nat} (hordered : Ordered history) (stop : Nat) :
    (inPeriod limit period stop history).length ≤ limit := by
  induction history with
  | nil => exact Nat.zero_le limit
  | cons now earlier ih =>
      rcases List.pairwise_cons.mp hordered with ⟨hnow, hearlier⟩
      have hrest := ih hearlier
      unfold inPeriod at hrest ⊢
      rw [admitted_cons]
      by_cases hadmits : admits limit period earlier now = true
      · rw [if_pos hadmits]
        by_cases hin : now ≤ stop ∧ stop < now + period
        · rw [List.filter_cons_of_pos (by simpa using hin), List.length_cons]
          -- What lies in this period lay within the period before the newest call.
          have hroom := (admits_iff hordered).mp hadmits
          have hsub : ((admitted limit period earlier).filter
              fun t => t ≤ stop ∧ stop < t + period).length ≤
              (within period now (admitted limit period earlier)).length := by
            apply List.Sublist.length_le
            apply List.monotone_filter_right
            intro t ht
            simp only [decide_eq_true_eq] at ht ⊢
            exact Nat.lt_of_le_of_lt hin.1 ht.2
          omega
        · rw [List.filter_cons_of_neg (by simpa using hin)]
          exact hrest
      · rw [if_neg hadmits]
        exact hrest

theorem admitted_drop {later earlier : List Nat} {refused : Nat}
    (hordered : Ordered (later ++ refused :: earlier))
    (hrefused : admits limit period earlier refused = false) :
    admitted limit period (later ++ refused :: earlier) =
      admitted limit period (later ++ earlier) := by
  induction later with
  | nil =>
      rw [List.nil_append, List.nil_append, admitted_cons, hrefused]
      rfl
  | cons now later ih =>
      rw [List.cons_append] at hordered
      have hshorter : Ordered (now :: (later ++ earlier)) :=
        hordered.sublist
          ((List.sublist_cons_self refused earlier).append_left later |>.cons_cons now)
      have hrest := ih (List.pairwise_cons.mp hordered).2
      have hsame : admits limit period (later ++ refused :: earlier) now =
          admits limit period (later ++ earlier) now := by
        rw [Bool.eq_iff_iff, admits_iff hordered, admits_iff hshorter, hrest]
      rw [List.cons_append, List.cons_append, admitted_cons, admitted_cons, hsame, hrest]

theorem admits_drop {later earlier : List Nat} {refused now : Nat}
    (hordered : Ordered (now :: (later ++ refused :: earlier)))
    (hrefused : admits limit period earlier refused = false) :
    admits limit period (later ++ refused :: earlier) now =
      admits limit period (later ++ earlier) now := by
  have hshorter : Ordered (now :: (later ++ earlier)) :=
    hordered.sublist ((List.sublist_cons_self refused earlier).append_left later |>.cons_cons now)
  rw [Bool.eq_iff_iff, admits_iff hordered, admits_iff hshorter,
    admitted_drop (List.pairwise_cons.mp hordered).2 hrefused]

end SlidingWindow
end Foundation
end CommandRelay
