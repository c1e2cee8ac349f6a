import Mathlib.Data.List.AList

/-!
# Keyed tables

A keyed table is Mathlib's association list with distinct keys, read as a finite
map.  The operations here are the ones a hash map offers on top of lookup,
insertion and removal: keeping the entries that pass a test, and changing one
entry in place.
-/

namespace CommandRelay
namespace Foundation

abbrev Table (key : Type u) (value : Type v) := AList (fun _ : key => value)

namespace Table

variable {key : Type u} {value : Type v}

def retain (keep : value -> Bool) (t : Table key value) : Table key value where
  entries := t.entries.filter fun e => keep e.2
  nodupKeys := t.nodupKeys.sublist List.filter_sublist

def size (t : Table key value) : Nat :=
  t.entries.length

theorem size_retain (keep : value -> Bool) (t : Table key value) :
    (t.retain keep).size = t.entries.countP fun e => keep e.2 :=
  List.countP_eq_length_filter.symm

theorem size_retain_le (keep : value -> Bool) (t : Table key value) :
    (t.retain keep).size ≤ t.size :=
  List.length_filter_le _ t.entries

variable [DecidableEq key]

def modify (k : key) (f : value -> value) (t : Table key value) :
    Table key value where
  entries := t.entries.map (Sigma.map id fun a b => if a = k then f b else b)
  nodupKeys := List.NodupKeys.map₂ _ t.entries t.nodupKeys

/-!
## Lookup
-/

theorem lookup_retain (keep : value -> Bool) (t : Table key value) (k : key) :
    (t.retain keep).lookup k = (t.lookup k).filter keep := by
  rcases t with ⟨entries, hnodup⟩
  show List.dlookup k (entries.filter fun e => keep e.2) =
    (List.dlookup k entries).filter keep
  induction entries with
  | nil => rfl
  | cons e rest ih =>
      rcases e with ⟨k', v⟩
      rcases List.nodupKeys_cons.mp hnodup with ⟨hfresh, hrest⟩
      have ih := ih hrest
      by_cases hk : k = k'
      · subst hk
        have habsent : List.dlookup k rest = none :=
          List.dlookup_eq_none.mpr hfresh
        cases hkeep : keep v with
        | true => simp [hkeep, Option.filter]
        | false => simp [hkeep, ih, habsent, Option.filter]
      · have hskip : List.dlookup k (⟨k', v⟩ :: rest) = List.dlookup k rest :=
          List.dlookup_cons_ne rest ⟨k', v⟩ hk
        cases hkeep : keep v with
        | true => simp [hkeep, hk, ih]
        | false => simp [hkeep, ih, hskip]

theorem lookup_retain_eq_some {keep : value -> Bool} {t : Table key value}
    {k : key} {v : value} :
    (t.retain keep).lookup k = some v <-> t.lookup k = some v ∧ keep v = true := by
  rw [lookup_retain, Option.filter_eq_some_iff]

theorem lookup_modify (k : key) (f : value -> value) (t : Table key value)
    (k' : key) :
    (t.modify k f).lookup k' =
      (t.lookup k').map fun v => if k' = k then f v else v := by
  exact List.dlookup_map₂ k'

theorem lookup_modify_same (k : key) (f : value -> value) (t : Table key value) :
    (t.modify k f).lookup k = (t.lookup k).map f := by
  simp [lookup_modify]

theorem lookup_modify_ne {k k' : key} (f : value -> value) (t : Table key value)
    (hne : k' ≠ k) :
    (t.modify k f).lookup k' = t.lookup k' := by
  simp [lookup_modify, hne]

theorem lookup_erase_eq_some {t : Table key value} {k k' : key} {v : value} :
    (t.erase k).lookup k' = some v <-> k' ≠ k ∧ t.lookup k' = some v := by
  by_cases hk : k' = k
  · subst hk
    simp [AList.lookup_erase]
  · simp [AList.lookup_erase_ne hk, hk]

theorem lookup_insert_of_eq (k k' : key) (v : value) (t : Table key value) :
    (t.insert k v).lookup k' = if k' = k then some v else t.lookup k' := by
  by_cases hk : k' = k
  · subst hk
    simp
  · simp [AList.lookup_insert_ne hk, hk]

/-- A sweep followed by a change under one key leaves a table as it was when every
entry passes the sweep and the one under the key stays. -/
theorem lookup_swept_iff {t t' : Table key value} {keep : value -> Bool} {k : key}
    {f : value -> Option value} (hsame : t'.lookup k = ((t.retain keep).lookup k).bind f)
    (hother : forall k', k' ≠ k -> t'.lookup k' = (t.retain keep).lookup k') :
    (forall k', t'.lookup k' = t.lookup k') <->
      (forall k' v, t.lookup k' = some v -> keep v = true) ∧
        forall v, t.lookup k = some v -> f v = some v := by
  have hkept : forall k' v, (t.retain keep).lookup k' = some v <->
      t.lookup k' = some v ∧ keep v = true :=
    fun k' v => lookup_retain_eq_some
  constructor
  · intro h
    have hpasses : forall k' v, t.lookup k' = some v -> keep v = true := by
      intro k' v hv
      by_cases hk : k' = k
      · subst hk
        have hbind := (hsame.symm.trans (h k')).trans hv
        rcases Option.bind_eq_some_iff.mp hbind with ⟨old, hold, _⟩
        have hold := (hkept k' old).mp hold
        rw [hv] at hold
        rcases hold with ⟨heq, hpass⟩
        cases heq
        exact hpass
      · exact ((hkept k' v).mp ((hother k' hk).symm.trans ((h k').trans hv))).2
    refine ⟨hpasses, fun v hv => ?_⟩
    have hbind := (hsame.symm.trans (h k)).trans hv
    rw [(hkept k v).mpr ⟨hv, hpasses k v hv⟩] at hbind
    exact hbind
  · rintro ⟨hpasses, hstay⟩ k'
    have hretain : (t.retain keep).lookup k' = t.lookup k' := by
      cases hv : t.lookup k' with
      | none =>
          apply Option.eq_none_iff_forall_ne_some.mpr
          intro v hgot
          rw [((hkept k' v).mp hgot).1] at hv
          cases hv
      | some v => exact (hkept k' v).mpr ⟨hv, hpasses k' v hv⟩
    by_cases hk : k' = k
    · subst hk
      rw [hsame, hretain]
      cases hv : t.lookup k' with
      | none => rfl
      | some v => exact hstay v hv
    · rw [hother k' hk, hretain]

theorem lookup_swept_iff_of_fixed {t t' : Table key value} {keep : value -> Bool} {k : key}
    {f : value -> Option value} {fixed : value -> Prop}
    (hsame : t'.lookup k = ((t.retain keep).lookup k).bind f)
    (hother : forall k', k' ≠ k -> t'.lookup k' = (t.retain keep).lookup k')
    (hfixed : forall v, f v = some v <-> fixed v) :
    (forall k', t'.lookup k' = t.lookup k') <->
      (forall k' v, t.lookup k' = some v -> keep v = true) ∧
        forall v, t.lookup k = some v -> fixed v := by
  rw [lookup_swept_iff hsame hother]
  apply and_congr_right
  intro _
  apply forall_congr'
  intro v
  apply imp_congr_right
  intro _
  exact hfixed v

/-!
## Size
-/

section

variable {t : Table key value}

@[simp] theorem size_modify (k : key) (f : value -> value) : (t.modify k f).size = t.size :=
  List.length_map _

theorem size_erase_le (k : key) : size (t.erase k) ≤ t.size :=
  (List.kerase_sublist k t.entries).length_le

theorem size_insert_le (k : key) (v : value) : size (t.insert k v) ≤ t.size + 1 :=
  Nat.succ_le_succ (List.kerase_sublist k t.entries).length_le

end

/-!
## Some entry has a property
-/

def Has (p : value -> Prop) (t : Table key value) : Prop :=
  exists k v, t.lookup k = some v ∧ p v

variable {p : value -> Prop} {t : Table key value}

theorem not_has_empty : ¬ Has p (∅ : Table key value) := by
  rintro ⟨k, v, hv, _⟩
  rw [AList.lookup_empty] at hv
  cases hv

theorem Has.of_retain {keep : value -> Bool} (h : Has p (t.retain keep)) : Has p t := by
  rcases h with ⟨k, v, hv, hp⟩
  exact ⟨k, v, (lookup_retain_eq_some.mp hv).1, hp⟩

theorem not_has_retain {keep : value -> Bool} (h : forall v, p v -> keep v = false) :
    ¬ Has p (t.retain keep) := by
  rintro ⟨k, v, hv, hp⟩
  have hkeep := (lookup_retain_eq_some.mp hv).2
  rw [h v hp] at hkeep
  cases hkeep

theorem Has.of_modify {k : key} {f : value -> value} (hf : forall v, p (f v) -> p v)
    (h : Has p (t.modify k f)) : Has p t := by
  rcases h with ⟨k', v, hv, hp⟩
  rw [lookup_modify] at hv
  rcases Option.map_eq_some_iff.mp hv with ⟨old, hold, hnew⟩
  refine ⟨k', old, hold, ?_⟩
  by_cases hk : k' = k
  · rw [if_pos hk] at hnew
    exact hf old (hnew ▸ hp)
  · rw [if_neg hk] at hnew
    exact hnew ▸ hp

theorem Has.of_erase {k : key} (h : Has p (t.erase k)) : Has p t := by
  rcases h with ⟨k', v, hv, hp⟩
  exact ⟨k', v, (lookup_erase_eq_some.mp hv).2, hp⟩

theorem Has.of_insert {k : key} {v : value} (h : Has p (t.insert k v)) :
    Has p t ∨ p v := by
  rcases h with ⟨k', v', hv, hp⟩
  rw [lookup_insert_of_eq] at hv
  by_cases hk : k' = k
  · rw [if_pos hk] at hv
    cases hv
    exact Or.inr hp
  · rw [if_neg hk] at hv
    exact Or.inl ⟨k', v', hv, hp⟩

/-- Whether some entry has the property can be read off the entries. -/
instance decidableHas (p : value -> Prop) [DecidablePred p] (t : Table key value) :
    Decidable (Has p t) :=
  decidable_of_iff (t.entries.any (fun e => p e.2) = true) <| by
    rw [List.any_eq_true]
    constructor
    · rintro ⟨e, he, hp⟩
      exact ⟨e.1, e.2, AList.mem_lookup_iff.mpr he, of_decide_eq_true hp⟩
    · rintro ⟨k, v, hv, hp⟩
      exact ⟨⟨k, v⟩, AList.mem_lookup_iff.mp hv, decide_eq_true hp⟩

/-!
## The entries under other keys
-/

def noneElse (test : value -> Bool) (k : key) (t : Table key value) : Bool :=
  t.entries.all fun e => e.1 = k || !test e.2

theorem noneElse_iff {test : value -> Bool} {k : key} : t.noneElse test k = true <->
    forall k' v, t.lookup k' = some v -> k' ≠ k -> test v = false := by
  unfold noneElse
  rw [List.all_eq_true]
  constructor
  · intro h k' v hv hne
    have hentry := h ⟨k', v⟩ (AList.mem_lookup_iff.mp hv)
    simpa [hne] using hentry
  · intro h e he
    by_cases hk : e.1 = k
    · simp [hk]
    · simp [h e.1 e.2 (AList.mem_lookup_iff.mpr he) hk]

end Table

end Foundation
end CommandRelay
