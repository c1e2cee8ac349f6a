import CommandRelay.Wire.Json

/-!
# JSON values that the relay keeps

A document that is held as a `serde_json::Value` has a sorted map at every object: its names
stand in order, and a name that is given twice keeps its last value.
-/

namespace CommandRelay

namespace Json

def addField (name : String) (value : Json) : List (String × Json) -> List (String × Json)
  | [] => [(name, value)]
  | f :: rest =>
      if name < f.1 then (name, value) :: f :: rest
      -- The value that comes later in the text stays.
      else if name = f.1 then f :: rest
      else f :: addField name value rest

mutual

def normalize : Json -> Json
  | .null => .null
  | .bool b => .bool b
  | .number n => .number n
  | .string s => .string s
  | .array items => .array (normalizeItems items)
  | .object fields => .object (normalizeFields fields)

def normalizeItems : List Json -> List Json
  | [] => []
  | item :: rest => normalize item :: normalizeItems rest

def normalizeFields : List (String × Json) -> List (String × Json)
  | [] => []
  | (name, value) :: rest => addField name (normalize value) (normalizeFields rest)

end

section

variable {name : String} {value : Json} {fields : List (String × Json)}

def InOrder (fields : List (String × Json)) : Prop :=
  fields.Pairwise fun f g => f.1 < g.1

theorem mem_addField {f : String × Json} (h : f ∈ addField name value fields) :
    f = (name, value) ∨ f ∈ fields := by
  induction fields with
  | nil => exact Or.inl (List.mem_singleton.mp h)
  | cons g rest ih =>
      unfold addField at h
      split at h
      · exact List.mem_cons.mp h
      · split at h
        · exact Or.inr h
        · rcases List.mem_cons.mp h with rfl | hf
          · exact Or.inr List.mem_cons_self
          · exact (ih hf).imp_right (List.mem_cons_of_mem g)

theorem inOrder_addField (h : InOrder fields) : InOrder (addField name value fields) := by
  induction fields with
  | nil => exact List.pairwise_singleton _ _
  | cons f rest ih =>
      rcases List.pairwise_cons.mp h with ⟨hf, hrest⟩
      unfold addField
      split
      · rename_i hlt
        refine List.pairwise_cons.mpr ⟨fun g hg => ?_, h⟩
        rcases List.mem_cons.mp hg with rfl | hg
        · exact hlt
        · exact String.lt_trans hlt (hf g hg)
      · split
        · exact h
        · rename_i hlt hne
          refine List.pairwise_cons.mpr ⟨fun g hg => ?_, ih hrest⟩
          rcases mem_addField hg with rfl | hg
          · exact Std.lt_of_le_of_ne (String.not_lt.mp hlt) fun heq => hne heq.symm
          · exact hf g hg

theorem addField_of_lt (h : forall f, f ∈ fields -> name < f.1) :
    addField name value fields = (name, value) :: fields := by
  cases fields with
  | nil => rfl
  | cons f rest => exact if_pos (h f List.mem_cons_self)

theorem inOrder_normalizeFields (fields : List (String × Json)) :
    InOrder (normalizeFields fields) := by
  induction fields with
  | nil => exact List.Pairwise.nil
  | cons f rest ih => exact inOrder_addField ih

theorem normalizeFields_eq_self (horder : InOrder fields)
    (hvalues : forall f, f ∈ fields -> f.2.normalize = f.2) :
    normalizeFields fields = fields := by
  induction fields with
  | nil => rfl
  | cons f rest ih =>
      rcases List.pairwise_cons.mp horder with ⟨hf, hrest⟩
      rw [normalizeFields, hvalues f List.mem_cons_self,
        ih hrest fun g hg => hvalues g (List.mem_cons_of_mem f hg)]
      exact addField_of_lt hf

mutual

theorem normalize_normalize : forall j : Json, j.normalize.normalize = j.normalize
  | .null => rfl
  | .bool _ => rfl
  | .number _ => rfl
  | .string _ => rfl
  | .array items => congrArg array (normalizeItems_normalizeItems items)
  | .object fields => congrArg object
      (normalizeFields_eq_self (inOrder_normalizeFields fields)
        (normalize_of_mem_normalizeFields fields))

theorem normalizeItems_normalizeItems : forall items : List Json,
    normalizeItems (normalizeItems items) = normalizeItems items
  | [] => rfl
  | item :: rest => by
      rw [normalizeItems, normalizeItems, normalize_normalize item,
        normalizeItems_normalizeItems rest]

theorem normalize_of_mem_normalizeFields : forall fields : List (String × Json),
    forall f, f ∈ normalizeFields fields -> f.2.normalize = f.2
  | [], f, hf => absurd hf List.not_mem_nil
  | (name, value) :: rest, f, hf => by
      rcases mem_addField hf with rfl | hf
      · exact normalize_normalize value
      · exact normalize_of_mem_normalizeFields rest f hf

end

theorem find?_addField {n : String} (h : InOrder fields) :
    (addField n value fields).find? (fun f => f.1 = name) =
      (fields.find? fun f => f.1 = name).or
        ([(n, value)].find? fun f => f.1 = name) := by
  induction fields with
  | nil => rfl
  | cons f rest ih =>
      rcases List.pairwise_cons.mp h with ⟨hf, hrest⟩
      unfold addField
      split
      · rename_i hlt
        by_cases hn : n = name
        · have hnone : (f :: rest).find? (fun g => g.1 = name) = none := by
            refine List.find?_eq_none.mpr fun g hg => ?_
            have hng : n < g.1 := by
              rcases List.mem_cons.mp hg with rfl | hg
              · exact hlt
              · exact String.lt_trans hlt (hf g hg)
            simpa [hn] using (Std.ne_of_lt (hn ▸ hng)).symm
          rw [hnone, List.find?_cons_of_pos (by simpa using hn)]
          simp [hn]
        · rw [List.find?_cons_of_neg (by simpa using hn)]
          simp [hn]
      · split
        · rename_i heq
          by_cases hn : n = name
          · rw [List.find?_cons_of_pos (by simpa using heq ▸ hn)]
            rfl
          · simp [hn]
        · by_cases hname : f.1 = name
          · rw [List.find?_cons_of_pos (by simpa using hname),
              List.find?_cons_of_pos (by simpa using hname)]
            rfl
          · rw [List.find?_cons_of_neg (by simpa using hname),
              List.find?_cons_of_neg (by simpa using hname)]
            exact ih hrest

end

/-- A `serde_json::Value`. -/
structure Value where
  json : Json
  normal : json.normalize = json

namespace Value

def ofJson (j : Json) : Value :=
  ⟨j.normalize, j.normalize_normalize⟩

@[simp] theorem ofJson_json (v : Value) : ofJson v.json = v := by
  rcases v with ⟨j, hj⟩
  simp only [ofJson, hj]

def toText (v : Value) : String :=
  v.json.toText

/-- `Value::get` with a name. -/
def get? (v : Value) (name : String) : Option Json :=
  match v.json with
  | .object fields => (fields.find? fun f => f.1 = name).map Prod.snd
  | _ => none

theorem get?_ofJson (fields : List (String × Json)) (name : String) :
    (ofJson (.object fields)).get? name =
      (fields.reverse.find? fun f => f.1 = name).map fun f => f.2.normalize := by
  show ((normalizeFields fields).find? fun f => f.1 = name).map Prod.snd = _
  induction fields with
  | nil => rfl
  | cons f rest ih =>
      rw [normalizeFields, find?_addField (inOrder_normalizeFields rest), List.reverse_cons,
        List.find?_append, Option.map_or, Option.map_or, ih]
      by_cases hname : f.1 = name <;> simp [hname]

end Value

end Json

end CommandRelay
