import CommandRelay.Foundation.Runs

/-!
# Runs seen through a filter

Part of a system may be watched by a second system that makes only some of its
steps.  When every shown step is matched and every hidden one goes unnoticed, the
shown steps of a run, in their order, are a run of the second system.
-/

namespace CommandRelay
namespace Foundation

section

variable {state : Type u} {view : Type v} {label : Type w}

/-- A relation between a system and what is seen of it, kept by the steps that meet
a condition: a shown step is a step of the view, a hidden one leaves the view alone. -/
structure SeenBy (step : state -> label -> Option state) (step' : view -> label -> Option view)
    (ok : state -> label -> Prop) (shown : label -> Bool) (rel : state -> view -> Prop) :
    Prop where
  shows : forall {s t l s'}, rel s t -> ok s l -> shown l = true -> step s l = some s' ->
    exists t', step' t l = some t' ∧ rel s' t'
  hides : forall {s t l s'}, rel s t -> ok s l -> shown l = false -> step s l = some s' ->
    rel s' t

variable {step : state -> label -> Option state} {step' : view -> label -> Option view}
  {ok : state -> label -> Prop} {shown : label -> Bool} {rel : state -> view -> Prop}

theorem SeenBy.follow_filter (h : SeenBy step step' ok shown rel) {s r : state} {t : view}
    {ls : List label} (hrel : rel s t) (hrun : follow step s ls = some r)
    (hok : Admits step ok s ls) :
    exists t', follow step' t (ls.filter shown) = some t' ∧ rel r t' := by
  induction ls generalizing s t with
  | nil =>
      cases hrun
      exact ⟨t, rfl, hrel⟩
  | cons l rest ih =>
      rcases follow_cons_eq_some.mp hrun with ⟨s', hstep, hrest⟩
      rcases (admits_cons hstep).mp hok with ⟨hl, hadmits⟩
      cases hshown : shown l with
      | true =>
          rcases h.shows hrel hl hshown hstep with ⟨t', hseen, hrel'⟩
          rcases ih hrel' hrest hadmits with ⟨t'', hrun', hend⟩
          refine ⟨t'', ?_, hend⟩
          rw [List.filter_cons_of_pos hshown]
          exact follow_cons_eq_some.mpr ⟨t', hseen, hrun'⟩
      | false =>
          rw [List.filter_cons_of_neg (Bool.eq_false_iff.mp hshown)]
          exact ih (h.hides hrel hl hshown hstep) hrest hadmits

end

end Foundation
end CommandRelay
