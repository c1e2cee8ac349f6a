import Mathlib.Algebra.GroupWithZero.Nat
import CommandRelay.Wire.Json

/-!
# The size of a JSON text

A string costs its two quotes and the bytes of its characters' escapes.  No character costs
more than six.
-/

namespace CommandRelay

def charBytes (chars : List Char) : Nat :=
  (chars.map Char.utf8Size).sum

@[simp] theorem charBytes_nil : charBytes [] = 0 := rfl

@[simp] theorem charBytes_cons (c : Char) (chars : List Char) :
    charBytes (c :: chars) = c.utf8Size + charBytes chars := by
  simp [charBytes]

@[simp] theorem charBytes_append (chars chars' : List Char) :
    charBytes (chars ++ chars') = charBytes chars + charBytes chars' := by
  simp [charBytes]

theorem utf8ByteSize_ofList (chars : List Char) :
    (String.ofList chars).utf8ByteSize = charBytes chars := by
  induction chars with
  | nil => rfl
  | cons c rest ih =>
      have hfirst : (String.ofList [c]).utf8ByteSize = c.utf8Size := by
        rw [← String.singleton_eq_ofList, String.utf8ByteSize_singleton]
      rw [← List.singleton_append, String.ofList_append, String.utf8ByteSize_append, ih, hfirst]
      exact (charBytes_cons c rest).symm

namespace Json

def escapedBytes (s : String) : Nat :=
  charBytes (s.toList.flatMap escapeChar)

theorem charBytes_quoted (s : String) : charBytes (quoted s) = escapedBytes s + 2 := by
  have hquote : '"'.utf8Size = 1 := rfl
  simp only [quoted, List.cons_append, charBytes_cons, charBytes_append, charBytes_nil, hquote,
    escapedBytes]
  omega

theorem hexDigit_size {n : Nat} (h : n < 16) : (hexDigit n).utf8Size = 1 := by
  have hall : forall i : Fin 16, (hexDigit i.val).utf8Size = 1 := by decide
  exact hall ⟨n, h⟩

theorem charBytes_escapeChar_le (c : Char) : charBytes (escapeChar c) ≤ 6 := by
  unfold escapeChar
  split
  · decide
  split
  · decide
  split
  · decide
  split
  · decide
  split
  · decide
  split
  · decide
  split
  · decide
  split
  · rename_i hcontrol
    have hhigh := hexDigit_size (n := c.toNat / 16) (by omega)
    have hlow := hexDigit_size (n := c.toNat % 16) (by omega)
    simp only [charBytes_cons, charBytes_nil, hhigh, hlow]
    decide
  · have hsize := c.utf8Size_le_four
    simp only [charBytes_cons, charBytes_nil]
    omega

theorem escapedBytes_le (s : String) : escapedBytes s ≤ 6 * s.toList.length := by
  unfold escapedBytes
  induction s.toList with
  | nil => exact Nat.le_refl 0
  | cons c rest ih =>
      have hc := charBytes_escapeChar_le c
      rw [List.flatMap_cons, charBytes_append, List.length_cons]
      omega

def stringFields (fields : List (String × String)) : List (String × Json) :=
  fields.map fun f => (f.1, .string f.2)

def fieldBytes (fields : List (String × String)) : Nat :=
  (fields.map fun f => escapedBytes f.1 + escapedBytes f.2 + 6).sum

theorem charBytes_renderFields {fields : List (String × String)} (h : fields ≠ []) :
    charBytes (renderFields (stringFields fields)) + 1 = fieldBytes fields := by
  have hcolon : ':'.utf8Size = 1 := rfl
  have hcomma : ','.utf8Size = 1 := rfl
  induction fields with
  | nil => exact absurd rfl h
  | cons f rest ih =>
      cases rest with
      | nil =>
          simp only [stringFields, List.map_cons, List.map_nil, renderFields, render,
            charBytes_append, charBytes_cons, charBytes_quoted, hcolon, fieldBytes,
            List.sum_cons, List.sum_nil]
          omega
      | cons g rest =>
          have hrest := ih (List.cons_ne_nil g rest)
          simp only [stringFields, List.map_cons, fieldBytes, List.sum_cons] at hrest
          simp only [stringFields, List.map_cons, renderFields, render, charBytes_append,
            charBytes_cons, charBytes_quoted, hcolon, hcomma, fieldBytes, List.sum_cons]
          omega

theorem size_stringObject {fields : List (String × String)} (h : fields ≠ []) :
    (object (stringFields fields)).toText.utf8ByteSize = fieldBytes fields + 1 := by
  have hopen : (Char.ofNat 0x7b).utf8Size = 1 := by decide
  have hclose : (Char.ofNat 0x7d).utf8Size = 1 := by decide
  have hfields := charBytes_renderFields h
  simp only [toText, utf8ByteSize_ofList, render, List.cons_append, charBytes_cons,
    charBytes_append, charBytes_nil, hopen, hclose]
  omega

end Json

end CommandRelay
