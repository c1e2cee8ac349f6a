/-!
# Runs of a transition system

A transition system is a partial step function on labelled steps.  A run is a
list of labels that the system can follow; a run admits a condition when every
one of its steps meets the condition in the state it is taken from.
-/

namespace CommandRelay
namespace Foundation

variable {state : Type u} {label : Type v}

/-- The state reached by a list of steps, when every one of them is possible. -/
def follow (step : state -> label -> Option state) :
    state -> List label -> Option state
  | s, [] => some s
  | s, l :: rest =>
      match step s l with
      | none => none
      | some s' => follow step s' rest

/-- Every step of the list meets the condition where it is taken. -/
def Admits (step : state -> label -> Option state) (ok : state -> label -> Prop) :
    state -> List label -> Prop
  | _, [] => True
  | s, l :: rest =>
      ok s l ∧
        match step s l with
        | none => True
        | some s' => Admits step ok s' rest

/-- Whether a run admits a decidable condition can be evaluated. -/
instance decidableAdmits (step : state -> label -> Option state)
    (ok : state -> label -> Prop) [forall s l, Decidable (ok s l)] (s : state)
    (ls : List label) : Decidable (Admits step ok s ls) :=
  match ls with
  | [] => isTrue trivial
  | l :: rest =>
      match hstep : step s l with
      | none => decidable_of_iff (ok s l) (by simp [Admits, hstep])
      | some s' =>
          have := decidableAdmits step ok s' rest
          decidable_of_iff (ok s l ∧ Admits step ok s' rest) (by simp [Admits, hstep])

section

variable {step : state -> label -> Option state} {ok : state -> label -> Prop}

@[simp] theorem follow_nil (s : state) : follow step s [] = some s := rfl

theorem follow_cons_eq_some {s r : state} {l : label} {rest : List label} :
    follow step s (l :: rest) = some r <->
      exists s', step s l = some s' ∧ follow step s' rest = some r := by
  rw [follow]
  cases hstep : step s l with
  | none => simp
  | some s' => simp

theorem admits_cons {s s' : state} {l : label} {rest : List label}
    (hstep : step s l = some s') :
    Admits step ok s (l :: rest) <-> ok s l ∧ Admits step ok s' rest := by
  rw [Admits, hstep]

theorem admits_of_forall (hok : forall s l, ok s l) (s : state)
    (ls : List label) : Admits step ok s ls := by
  induction ls generalizing s with
  | nil => trivial
  | cons l rest ih =>
      refine ⟨hok s l, ?_⟩
      cases step s l with
      | none => trivial
      | some s' => exact ih s'

theorem admits_of_mem {allowed : label -> Prop} {ls : List label}
    (h : forall l, l ∈ ls -> allowed l) (s : state) :
    Admits step (fun _ l => allowed l) s ls := by
  induction ls generalizing s with
  | nil => trivial
  | cons l rest ih =>
      refine ⟨h l List.mem_cons_self, ?_⟩
      cases step s l with
      | none => trivial
      | some s' => exact ih (fun l' hl' => h l' (List.mem_cons_of_mem l hl')) s'

theorem Admits.mono {ok' : state -> label -> Prop} (hok : forall s l, ok s l -> ok' s l)
    {s : state} {ls : List label} (h : Admits step ok s ls) : Admits step ok' s ls := by
  induction ls generalizing s with
  | nil => trivial
  | cons l rest ih =>
      rcases h with ⟨hl, hrest⟩
      refine ⟨hok s l hl, ?_⟩
      cases hstep : step s l with
      | none => trivial
      | some s' =>
          rw [hstep] at hrest
          exact ih hrest

/--
An invariant of the start that every admitted step preserves holds at the end
of every admitted run.
-/
theorem follow_invariant {motive : state -> Prop}
    (hstep : forall s l s', motive s -> ok s l -> step s l = some s' -> motive s')
    {s r : state} {ls : List label} (hs : motive s)
    (hrun : follow step s ls = some r) (hok : Admits step ok s ls) :
    motive r := by
  induction ls generalizing s with
  | nil =>
      rw [follow_nil] at hrun
      cases hrun
      exact hs
  | cons l rest ih =>
      rcases follow_cons_eq_some.mp hrun with ⟨s', hs', hrest⟩
      rcases hok with ⟨hl, hadmits⟩
      rw [hs'] at hadmits
      exact ih (hstep s l s' hs hl hs') hrest hadmits

theorem follow_append_eq_some {s r : state} {ls ls' : List label} :
    follow step s (ls ++ ls') = some r <->
      exists m, follow step s ls = some m ∧ follow step m ls' = some r := by
  induction ls generalizing s with
  | nil => simp
  | cons l rest ih =>
      rw [List.cons_append, follow_cons_eq_some]
      constructor
      · rintro ⟨s', hs', hrest⟩
        rcases ih.mp hrest with ⟨m, hm, hr⟩
        exact ⟨m, follow_cons_eq_some.mpr ⟨s', hs', hm⟩, hr⟩
      · rintro ⟨m, hm, hr⟩
        rcases follow_cons_eq_some.mp hm with ⟨s', hs', hrest⟩
        exact ⟨s', hs', ih.mpr ⟨m, hrest, hr⟩⟩

/-- What holds at the start and is kept by every step holds along every run, with the
labels of the steps in view. -/
theorem follow_labels_induction {motive : List label -> state -> Prop} {start : state}
    (hinit : motive [] start)
    (hstep : forall ls s l s', follow step start ls = some s -> motive ls s ->
      step s l = some s' -> motive (ls ++ [l]) s')
    {ls : List label} {r : state} (hrun : follow step start ls = some r) : motive ls r := by
  suffices h : forall (before rest : List label) (s : state), follow step start before = some s ->
      motive before s -> follow step s rest = some r -> motive (before ++ rest) r from
    h [] ls start rfl hinit hrun
  intro before rest
  induction rest generalizing before with
  | nil =>
      intro s _ hs hr
      cases hr
      rw [List.append_nil]
      exact hs
  | cons l rest ih =>
      intro s hbefore hs hr
      rcases follow_cons_eq_some.mp hr with ⟨s', hnext, hrest⟩
      have hmore : follow step start (before ++ [l]) = some s' :=
        follow_append_eq_some.mpr ⟨s, hbefore, follow_cons_eq_some.mpr ⟨s', hnext, rfl⟩⟩
      rw [List.append_cons]
      exact ih (before ++ [l]) s' hmore (hstep before s l s' hbefore hs hnext) hrest

theorem admits_append {s m : state} {ls ls' : List label} (hrun : follow step s ls = some m) :
    Admits step ok s (ls ++ ls') <-> Admits step ok s ls ∧ Admits step ok m ls' := by
  induction ls generalizing s with
  | nil =>
      cases hrun
      simp [Admits]
  | cons l rest ih =>
      rcases follow_cons_eq_some.mp hrun with ⟨s', hs', hrest⟩
      rw [List.cons_append, admits_cons hs', admits_cons hs', ih hrest, and_assoc]

end

/-!
## Standing conditions

A log keeps the events of a run, newest first.  A condition stands when some
event of the log begins it and no later one ends it.
-/

section

variable {event : Type u} {begins ends : event -> Bool}

def Standing (begins ends : event -> Bool) (log : List event) : Prop :=
  exists since e before, log = since ++ e :: before ∧ begins e = true ∧
    forall f, f ∈ since -> ends f = false

theorem not_standing_nil : ¬ Standing begins ends [] := by
  rintro ⟨since, e, before, hlog, _⟩
  simp at hlog

theorem standing_cons {f : event} {log : List event} :
    Standing begins ends (f :: log) <->
      begins f = true ∨ ends f = false ∧ Standing begins ends log := by
  constructor
  · rintro ⟨since, e, before, hlog, he, hsince⟩
    cases since with
    | nil =>
        injection hlog with hf _
        exact Or.inl (hf ▸ he)
    | cons g rest =>
        injection hlog with hf hrest
        refine Or.inr ⟨hf ▸ hsince g List.mem_cons_self, rest, e, before, hrest, he, ?_⟩
        exact fun g' hg' => hsince g' (List.mem_cons_of_mem g hg')
  · rintro (hf | ⟨hf, since, e, before, hlog, he, hsince⟩)
    · exact ⟨[], f, log, rfl, hf, fun g hg => by cases hg⟩
    · refine ⟨f :: since, e, before, by rw [hlog]; rfl, he, ?_⟩
      intro g hg
      rcases List.mem_cons.mp hg with heq | htail
      · exact heq ▸ hf
      · exact hsince g htail

/-- Whether a condition stands can be read off the log. -/
instance decidableStanding (begins ends : event -> Bool) (log : List event) :
    Decidable (Standing begins ends log) :=
  match log with
  | [] => isFalse not_standing_nil
  | f :: rest =>
      have := decidableStanding begins ends rest
      decidable_of_iff (begins f = true ∨ ends f = false ∧ Standing begins ends rest)
        standing_cons.symm

end

end Foundation
end CommandRelay
