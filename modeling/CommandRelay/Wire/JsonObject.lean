import Mathlib.Data.List.Forall2
import Mathlib.Data.Option.Basic
import CommandRelay.Wire.Json

/-!
# Objects as JSON values

The text of an object may name a field several times and in any order.  A value keeps the
last field of each name, so two objects are the same value when they agree on every name.
-/

namespace CommandRelay
namespace Json

def valuesOf (fields : List (String × Json)) (name : String) : List Json :=
  (fields.filter fun f => f.1 = name).map Prod.snd

def last? (fields : List (String × Json)) (name : String) : Option Json :=
  (valuesOf fields name).getLast?

/-- Equality of JSON values. -/
inductive Same : Json -> Json -> Prop where
  | null : Same null null
  | bool (b : Bool) : Same (bool b) (bool b)
  | number (n : JsonNumber) : Same (number n) (number n)
  | string (s : String) : Same (string s) (string s)
  | array {items items' : List Json} (h : List.Forall₂ Same items items') :
      Same (array items) (array items')
  | object {fields fields' : List (String × Json)}
      (h : forall name, Option.Rel Same (last? fields name) (last? fields' name)) :
      Same (object fields) (object fields')

section

variable {fields fields' : List (String × Json)} {name : String}

@[simp] theorem valuesOf_nil : valuesOf [] name = [] := rfl

theorem valuesOf_cons {f : String × Json} :
    valuesOf (f :: fields) name =
      if f.1 = name then f.2 :: valuesOf fields name else valuesOf fields name := by
  unfold valuesOf
  by_cases h : f.1 = name
  · simp [h]
  · simp [h]

theorem valuesOf_append :
    valuesOf (fields ++ fields') name = valuesOf fields name ++ valuesOf fields' name := by
  simp [valuesOf]

theorem mem_valuesOf {v : Json} : v ∈ valuesOf fields name <-> (name, v) ∈ fields := by
  simp [valuesOf]

theorem valuesOf_eq_nil (h : forall f, f ∈ fields -> f.1 ≠ name) : valuesOf fields name = [] := by
  rw [List.eq_nil_iff_forall_not_mem]
  intro v hv
  exact h (name, v) (mem_valuesOf.mp hv) rfl

theorem last?_eq_none : last? fields name = none <-> valuesOf fields name = [] :=
  List.getLast?_eq_none_iff

theorem mem_of_last? {v : Json} (h : last? fields name = some v) : (name, v) ∈ fields :=
  mem_valuesOf.mp (List.mem_of_getLast? h)

end

theorem same_object_iff {fields fields' : List (String × Json)} :
    Same (object fields) (object fields') <->
      forall name, Option.Rel Same (last? fields name) (last? fields' name) := by
  constructor
  · intro h
    cases h with
    | object h => exact h
  · exact Same.object

mutual

theorem Same.refl : forall j : Json, Same j j
  | .null => .null
  | .bool b => .bool b
  | .number n => .number n
  | .string s => .string s
  | .array items => .array (same_items items)
  | .object fields => by
      constructor
      intro name
      cases h : last? fields name with
      | none => exact .none
      | some v => exact .some (same_fields fields (name, v) (mem_of_last? h))

theorem same_items : forall items : List Json, List.Forall₂ Same items items
  | [] => .nil
  | item :: rest => .cons (Same.refl item) (same_items rest)

theorem same_fields : forall (fields : List (String × Json)) (f : String × Json),
    f ∈ fields -> Same f.2 f.2
  | [], _, h => absurd h List.not_mem_nil
  | (name, v) :: rest, f, h => by
      rcases List.mem_cons.mp h with rfl | h
      · exact Same.refl v
      · exact same_fields rest f h

end

/-!
## Reading fields

A field that is read may occur once.  An optional field may be missing or be null.
-/

section

variable {α : Type}

def field (fields : List (String × Json)) (name : String) (read : Json -> Option α) :
    Option α :=
  match valuesOf fields name with
  | [v] => read v
  | _ => none

def optionalField (fields : List (String × Json)) (name : String) (read : Json -> Option α) :
    Option (Option α) :=
  match valuesOf fields name with
  | [] => some none
  | [.null] => some none
  | [v] => (read v).map some
  | _ => none

variable {fields : List (String × Json)} {name : String} {read : Json -> Option α}

theorem field_eq_some {a : α} (h : field fields name read = some a) :
    exists v, valuesOf fields name = [v] ∧ read v = some a := by
  unfold field at h
  split at h
  · next v hv => exact ⟨v, hv, h⟩
  · cases h

theorem optionalField_eq_some {o : Option α} (h : optionalField fields name read = some o) :
    (exists v a, valuesOf fields name = [v] ∧ read v = some a ∧ o = some a) ∨
      (o = none ∧ (valuesOf fields name = [] ∨ valuesOf fields name = [.null])) := by
  unfold optionalField at h
  split at h
  · next hv =>
      cases h
      exact Or.inr ⟨rfl, Or.inl hv⟩
  · next hv =>
      cases h
      exact Or.inr ⟨rfl, Or.inr hv⟩
  · next v _ hv =>
      rcases Option.map_eq_some_iff.mp h with ⟨a, ha, rfl⟩
      exact Or.inl ⟨v, a, hv, ha, rfl⟩
  · cases h

end

/-- What is written again from the fields that were read is the same value exactly when
no field was unknown and no optional field was null. -/
theorem same_reread_iff {fields written : List (String × Json)} {names : List String}
    (hread : forall name, name ∈ names -> valuesOf fields name = valuesOf written name ∨
      (valuesOf fields name = [.null] ∧ valuesOf written name = []))
    (hnames : forall f, f ∈ written -> f.1 ∈ names ∧ f.2 ≠ .null) :
    Same (object fields) (object written) <->
      forall f, f ∈ fields -> f.1 ∈ names ∧ f.2 ≠ .null := by
  rw [same_object_iff]
  constructor
  · intro hsame f hf
    have hvalue : f.2 ∈ valuesOf fields f.1 := mem_valuesOf.mpr hf
    have hname : f.1 ∈ names := by
      by_contra hunknown
      have hwritten : valuesOf written f.1 = [] :=
        valuesOf_eq_nil fun g hg heq => hunknown (heq ▸ (hnames g hg).1)
      have hrel := hsame f.1
      rw [last?_eq_none.mpr hwritten] at hrel
      cases hlast : last? fields f.1 with
      | none => exact List.not_mem_nil (last?_eq_none.mp hlast ▸ hvalue)
      | some v =>
          rw [hlast] at hrel
          cases hrel
    refine ⟨hname, ?_⟩
    rcases hread f.1 hname with heq | ⟨hnull, habsent⟩
    · rw [heq] at hvalue
      exact (hnames (f.1, f.2) (mem_valuesOf.mp hvalue)).2
    · have hrel := hsame f.1
      unfold last? at hrel
      rw [hnull, habsent] at hrel
      cases hrel
  · intro hknown name
    unfold last?
    by_cases hname : name ∈ names
    · rcases hread name hname with heq | ⟨hnull, _⟩
      · rw [heq]
        cases (valuesOf written name).getLast? with
        | none => exact .none
        | some v => exact .some (Same.refl v)
      · have hmem : (name, Json.null) ∈ fields := by
          rw [← mem_valuesOf, hnull]
          exact List.mem_singleton_self _
        exact absurd rfl (hknown _ hmem).2
    · have hfields : valuesOf fields name = [] :=
        valuesOf_eq_nil fun f hf heq => hname (heq ▸ (hknown f hf).1)
      have hwritten : valuesOf written name = [] :=
        valuesOf_eq_nil fun f hf heq => hname (heq ▸ (hnames f hf).1)
      rw [hfields, hwritten]
      exact .none

end Json
end CommandRelay
