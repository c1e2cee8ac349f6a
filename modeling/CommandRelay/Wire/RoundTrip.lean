import Mathlib.Data.List.Nodup
import CommandRelay.Wire.Deserialize

/-!
# Control messages survive the wire

The object that a control message is written as is read back as that message, in whatever
order its fields arrive.
-/

namespace CommandRelay
namespace Json

/-!
## Objects without repeated names
-/

def objectFields : Json -> List (String × Json)
  | .object fields => fields
  | _ => []

section

variable {fields fields' : List (String × Json)} {name : String}

theorem valuesOf_perm (h : fields.Perm fields') :
    (valuesOf fields name).Perm (valuesOf fields' name) :=
  (h.filter _).map _

theorem valuesOf_of_nodup (h : (fields.map Prod.fst).Nodup) :
    valuesOf fields name = [] ∨ exists v, valuesOf fields name = [v] := by
  induction fields with
  | nil => exact Or.inl rfl
  | cons f rest ih =>
      rcases List.nodup_cons.mp h with ⟨hnew, hrest⟩
      rw [valuesOf_cons]
      split
      · next heq =>
          have hnone : valuesOf rest name = [] :=
            valuesOf_eq_nil fun g hg hname =>
              hnew (List.mem_map.mpr ⟨g, hg, hname.trans heq.symm⟩)
          rw [hnone]
          exact Or.inr ⟨f.2, rfl⟩
      · exact ih hrest

theorem valuesOf_eq_of_perm (h : fields.Perm fields') (hnodup : (fields'.map Prod.fst).Nodup) :
    valuesOf fields name = valuesOf fields' name := by
  have hperm : (valuesOf fields name).Perm (valuesOf fields' name) := valuesOf_perm h
  rcases valuesOf_of_nodup hnodup with hnone | ⟨v, hv⟩
  · rw [hnone] at hperm ⊢
    exact hperm.eq_nil
  · rw [hv] at hperm ⊢
    exact hperm.eq_singleton

end

/-!
## Values that are read as they were written
-/

section

variable {α : Type}

def readOne (read : Json -> Option α) : List Json -> Option α
  | [v] => read v
  | _ => none

def readAtMostOne (read : Json -> Option α) : List Json -> Option (Option α)
  | [] => some none
  | [.null] => some none
  | [v] => (read v).map some
  | _ => none

variable {fields : List (String × Json)} {name : String} {read : Json -> Option α}

@[simp] theorem field_eq : field fields name read = readOne read (valuesOf fields name) := rfl

@[simp] theorem optionalField_eq :
    optionalField fields name read = readAtMostOne read (valuesOf fields name) := rfl

@[simp] theorem readOne_singleton {v : Json} : readOne read [v] = read v := rfl

/-- A value is read back from what it is written as, which is never null. -/
structure Restores (write : α -> Json) (read : Json -> Option α) : Prop where
  ne_null : forall a, write a ≠ .null
  read_write : forall a, read (write a) = some a

variable {write : α -> Json}

theorem Restores.optional (h : Restores write read) (value : Option α) :
    readAtMostOne read (value.map write).toList = some value := by
  cases value with
  | none => rfl
  | some a =>
      show readAtMostOne read [write a] = some (some a)
      unfold readAtMostOne
      split
      · next heq => cases heq
      · next heq => exact absurd (List.head_eq_of_cons_eq heq) (h.ne_null a)
      · next v _ heq =>
          cases heq
          rw [h.read_write]
          rfl
      · next hmany => exact absurd rfl (hmany (write a))

theorem Restores.list (h : Restores write read) :
    Restores (fun items : List α => .array (items.map write)) (asVec? read) where
  ne_null _ := by simp
  read_write items := by
    show (items.map write).mapM read = some items
    induction items with
    | nil => rfl
    | cons a rest ih =>
        rw [List.map_cons, List.mapM_cons, h.read_write, ih]
        rfl

end

@[simp] theorem valuesOf_optional {name field : String} {value : Option Json} :
    valuesOf (optional field value) name = if field = name then value.toList else [] := by
  cases value with
  | none => simp [optional]
  | some v => simp [optional, valuesOf_cons]

@[simp] theorem mem_optional {name : String} {value : Option Json} {f : String × Json} :
    f ∈ optional name value <-> f.1 = name ∧ value = some f.2 := by
  cases value with
  | none => simp [optional]
  | some v => simp [optional, Prod.ext_iff, eq_comm]

@[simp] theorem map_fst_optional {name : String} {value : Option Json} :
    (optional name value).map Prod.fst = (value.map fun _ => name).toList := by
  cases value with
  | none => rfl
  | some v => rfl

theorem restores_string : Restores .string asStr? where
  ne_null _ := by simp
  read_write _ := rfl

theorem restores_u16 : Restores (fun n : UInt16 => ofNat n.toNat) asU16? where
  ne_null _ := by simp [ofNat]
  read_write n := by simp [ofNat, asU16?, UInt16.toNat_lt n]

theorem restores_u32 : Restores (fun n : UInt32 => ofNat n.toNat) asU32? where
  ne_null _ := by simp [ofNat]
  read_write n := by simp [ofNat, asU32?, UInt32.toNat_lt n]

theorem restores_u64 : Restores (fun n : UInt64 => ofNat n.toNat) asU64? where
  ne_null _ := by simp [ofNat]
  read_write n := by simp [ofNat, asU64?, UInt64.toNat_lt n]

theorem restores_f64 (intToF64 : Int -> F64) :
    Restores (fun x : F64 => .number (.float x.text)) (asF64? intToF64) where
  ne_null _ := by simp
  read_write _ := rfl

theorem restores_strings : Restores ofStrings (asVec? asStr?) :=
  restores_string.list

theorem asValue?_json (v : Value) : asValue? v.json = some v :=
  congrArg some v.ofJson_json

theorem restores_bool : Restores .bool asBool? where
  ne_null _ := by simp
  read_write _ := rfl

end Json

open Json

/-!
## Structs in a list
-/

theorem SessionInfo.restores : Restores SessionInfo.toJson SessionInfo.ofJson where
  ne_null _ := by simp [toJson]
  read_write s := by
    simp [toJson, ofJson, structFields?, stringField, optionalStringField, optionalString,
      valuesOf_cons, valuesOf_append, restores_string.read_write, restores_u16.read_write,
      restores_string.optional, restores_u64.optional]

theorem AccountMeta.restores : Restores AccountMeta.toJson AccountMeta.ofJson where
  ne_null _ := by simp [toJson]
  read_write a := by
    simp [toJson, ofJson, structFields?, stringField, valuesOf_cons, restores_string.read_write]

theorem DeviceInfo.restores : Restores DeviceInfo.toJson DeviceInfo.ofJson where
  ne_null _ := by simp [toJson]
  read_write d := by
    simp [toJson, ofJson, structFields?, stringField, valuesOf_cons, restores_string.read_write]

namespace ControlMessage

theorem nodup_objectFields (m : ControlMessage) : (m.toJson.objectFields.map Prod.fst).Nodup := by
  cases m <;>
    simp [toJson, tagged, objectFields, optionalString, List.nodup_append, Option.toList_nodup,
      or_imp, forall_and]

theorem toJson_eq_object (m : ControlMessage) : m.toJson = .object m.toJson.objectFields := by
  cases m <;> rfl

theorem exists_objectFields_eq (m : ControlMessage) :
    exists rest, m.toJson.objectFields = ("type", .string m.tag) :: rest := by
  cases m <;> exact ⟨_, rfl⟩

theorem valuesOf_type (m : ControlMessage) :
    valuesOf m.toJson.objectFields "type" = [.string m.tag] := by
  rcases m.exists_objectFields_eq with ⟨rest, hrest⟩
  have hvalues : valuesOf m.toJson.objectFields "type" = .string m.tag :: valuesOf rest "type" := by
    rw [hrest, valuesOf_cons, if_pos rfl]
  rcases valuesOf_of_nodup m.nodup_objectFields with hnone | ⟨v, hv⟩
  · rw [hvalues] at hnone
    cases hnone
  · rw [hvalues] at hv ⊢
    rw [(List.cons.inj hv).2]

section

variable {intToF64 : Int -> F64} {fields : List (String × Json)}

theorem ofTagged_written {m : ControlMessage}
    (h : forall name, valuesOf fields name = valuesOf m.toJson.objectFields name) :
    ofTagged intToF64 fields m.tag = some m := by
  unfold ofTagged
  cases m <;> simp only [tag]
  all_goals
    simp [toJson, tagged, objectFields, h, stringField, optionalStringField, optionalString,
      valuesOf_cons, valuesOf_append, asValue?_json, restores_string.read_write,
        restores_bool.read_write,
      restores_u16.read_write, restores_u32.read_write, restores_u64.read_write,
      (restores_f64 intToF64).read_write, SessionInfo.restores.list.read_write,
      DeviceInfo.restores.list.read_write, restores_string.optional, restores_u16.optional,
      restores_u64.optional, restores_strings.optional, AccountMeta.restores.list.optional]

theorem ofObject_of_perm {m : ControlMessage} (h : fields.Perm m.toJson.objectFields) :
    ofObject intToF64 fields = some m := by
  have hvalues : forall name, valuesOf fields name = valuesOf m.toJson.objectFields name :=
    fun name => valuesOf_eq_of_perm h m.nodup_objectFields
  have htype : stringField fields "type" = some m.tag := by
    rw [stringField, field_eq, hvalues, valuesOf_type]
    exact restores_string.read_write m.tag
  unfold ofObject
  rw [htype]
  exact ofTagged_written hvalues

end

/-- Every message is read back from the object it is written as, in whatever order the fields
of the object arrive, and no two messages are written as the same object. -/
theorem survives_the_wire (intToF64 : Int -> F64) :
    (forall m : ControlMessage, exists fields, m.toJson = .object fields ∧
      forall arrived, arrived.Perm fields -> ofObject intToF64 arrived = some m) ∧
    forall m m' : ControlMessage, forall fields fields', m.toJson = .object fields ->
      m'.toJson = .object fields' -> fields.Perm fields' -> m = m' := by
  constructor
  · intro m
    exact ⟨m.toJson.objectFields, m.toJson_eq_object, fun arrived h => ofObject_of_perm h⟩
  · intro m m' fields fields' hm hm' hperm
    have hread : ofObject intToF64 fields = some m := by
      apply ofObject_of_perm
      rw [hm]
      exact List.Perm.refl fields
    have hread' : ofObject intToF64 fields = some m' := by
      apply ofObject_of_perm
      rw [hm']
      exact hperm
    exact Option.some.inj (hread.symm.trans hread')

end ControlMessage

end CommandRelay
