import CommandRelay.Wire.BinaryFrame

/-!
# The binary frame codec

Building and parsing a frame are inverse to each other up to the id slot: the slot holds
36 bytes, so a short id arrives padded with spaces and a long one arrives cut, where the
cut bytes are still UTF-8.
-/

namespace CommandRelay

/-!
## The id slot
-/

def textBytes (s : String) : Bytes :=
  s.toUTF8.data.toList

theorem textBytes_inj {s t : String} (h : textBytes s = textBytes t) : s = t :=
  String.toByteArray_inj.mp (ByteArray.ext (Array.toList_inj.mp h))

@[simp] theorem length_textBytes (s : String) : (textBytes s).length = s.utf8ByteSize :=
  rfl

def textOf? (bytes : Bytes) : Option String :=
  String.fromUTF8? (ByteArray.mk bytes.toArray)

theorem textOf?_eq_some {bytes : Bytes} {s : String} :
    textOf? bytes = some s <-> textBytes s = bytes := by
  unfold textOf? String.fromUTF8?
  constructor
  · intro h
    by_cases hvalid : (ByteArray.mk bytes.toArray).IsValidUTF8
    · rw [dif_pos hvalid] at h
      cases h
      rfl
    · rw [dif_neg hvalid] at h
      cases h
  · rintro rfl
    have hbytes : ByteArray.mk (textBytes s).toArray = s.toByteArray := rfl
    rw [hbytes, dif_pos s.isValidUTF8]
    rfl

def idSlot (id : String) : Bytes :=
  (textBytes id).take 36 ++ List.replicate (36 - ((textBytes id).take 36).length) 0x20

@[simp] theorem length_idSlot (id : String) : (idSlot id).length = 36 := by
  unfold idSlot
  rw [List.length_append, List.length_replicate, List.length_take]
  omega

theorem idSlot_eq {id : String} (h : id.utf8ByteSize = 36) : idSlot id = textBytes id := by
  have hlength : (textBytes id).length = 36 := h
  unfold idSlot
  rw [List.take_of_length_le (Nat.le_of_eq hlength), hlength]
  exact List.append_nil _

theorem size_of_idSlot {id : String} (h : idSlot id = textBytes id) : id.utf8ByteSize = 36 := by
  rw [← length_textBytes, ← h, length_idSlot]

/-!
## Frames
-/

theorem buildBinaryFrame_eq (frameType : UInt8) (id : String) (payload : Bytes) :
    buildBinaryFrame frameType id payload = frameType :: (idSlot id ++ payload) :=
  rfl

theorem parseBinaryFrame_eq_ok {data payload : Bytes} {frameType : UInt8} {id : String} :
    parseBinaryFrame data = .ok (frameType, id, payload) <->
      knownFrameType frameType = true ∧ id.utf8ByteSize = 36 ∧
        data = frameType :: (textBytes id ++ payload) := by
  constructor
  · intro h
    unfold parseBinaryFrame at h
    cases data with
    | nil => cases h
    | cons t rest =>
        simp only [] at h
        by_cases hshort : (t :: rest).length < binaryHeaderLen
        · rw [if_pos hshort] at h
          cases h
        · rw [if_neg hshort] at h
          by_cases hknown : knownFrameType t = true
          · rw [hknown] at h
            cases hid : String.fromUTF8? (ByteArray.mk (rest.take 36).toArray) with
            | none =>
                rw [hid] at h
                cases h
            | some slot =>
                rw [hid] at h
                have hslot : textBytes slot = rest.take 36 := textOf?_eq_some.mp hid
                have hlength : 36 ≤ rest.length := Nat.le_of_succ_le_succ (Nat.not_lt.mp hshort)
                cases h
                constructor
                · exact hknown
                · constructor
                  · rw [← length_textBytes, hslot, List.length_take, Nat.min_eq_left hlength]
                  · rw [hslot]
                    exact congrArg (_ :: ·) (List.take_append_drop 36 rest).symm
          · rw [Bool.not_eq_true] at hknown
            rw [hknown] at h
            cases h
  · rintro ⟨hknown, hsize, rfl⟩
    have hlength : (textBytes id).length = 36 := hsize
    have hshort : ¬ (frameType :: (textBytes id ++ payload)).length < binaryHeaderLen := by
      rw [List.length_cons, List.length_append, hlength]
      simp only [binaryHeaderLen]
      omega
    have hslot : (textBytes id ++ payload).take 36 = textBytes id :=
      List.take_left' hlength
    have hpayload : (textBytes id ++ payload).drop 36 = payload :=
      List.drop_left' hlength
    have hid : String.fromUTF8? (ByteArray.mk (textBytes id).toArray) = some id :=
      textOf?_eq_some.mpr rfl
    unfold parseBinaryFrame
    simp only []
    rw [if_neg hshort, hknown, hslot, hid]
    show Except.ok (frameType, id, (textBytes id ++ payload).drop 36) = _
    rw [hpayload]

theorem parse_buildBinaryFrame {frameType : UInt8} {id : String} {payload : Bytes}
    {frame : UInt8 × String × Bytes} :
    parseBinaryFrame (buildBinaryFrame frameType id payload) = .ok frame <->
      knownFrameType frameType = true ∧
        exists slot, textOf? (idSlot id) = some slot ∧ frame = (frameType, slot, payload) := by
  rcases frame with ⟨t, slot, rest⟩
  rw [parseBinaryFrame_eq_ok, buildBinaryFrame_eq]
  constructor
  · rintro ⟨hknown, hsize, hframe⟩
    injection hframe with ht hbody
    have hlengths : (idSlot id).length = (textBytes slot).length := by
      rw [length_idSlot, length_textBytes, hsize]
    rcases List.append_inj hbody hlengths with ⟨hslot, hrest⟩
    subst ht
    refine ⟨hknown, slot, textOf?_eq_some.mpr hslot.symm, ?_⟩
    rw [hrest]
  · rintro ⟨hknown, slot', hslot, hframe⟩
    cases hframe
    have hbytes := textOf?_eq_some.mp hslot
    refine ⟨hknown, ?_, ?_⟩
    · rw [← length_textBytes, hbytes, length_idSlot]
    · rw [hbytes]

/-!
## Indexing

The parser reads `data[0]`, `data[1..37]` and `data[37..]`, each of which panics outside of
the data.
-/

/-- `&data[from..to]`; `none` is a panic. -/
def slice? (data : Bytes) (start stop : Nat) : Option Bytes :=
  if start ≤ stop ∧ stop ≤ data.length then some ((data.drop start).take (stop - start))
  else none

/-- The parser with its indexing written out; `none` is a panic. -/
def parseBinaryFrameIndexed (data : Bytes) :
    Option (Except ProtocolError (UInt8 × String × Bytes)) :=
  if data.length < binaryHeaderLen then
    some (.error (.frameTooShort data.length binaryHeaderLen))
  else do
    let frameType <- data[0]?
    if !knownFrameType frameType then
      some (.error (.unknownFrameType frameType))
    else
      let idBytes <- slice? data 1 37
      match textOf? idBytes with
      | none => some (.error .invalidUuid)
      | some sessionId =>
          let payload <- slice? data binaryHeaderLen data.length
          some (.ok (frameType, sessionId, payload))

theorem parseBinaryFrameIndexed_eq (data : Bytes) :
    parseBinaryFrameIndexed data = some (parseBinaryFrame data) := by
  unfold parseBinaryFrameIndexed parseBinaryFrame
  cases data with
  | nil => rfl
  | cons t rest =>
      by_cases hshort : (t :: rest).length < binaryHeaderLen
      · rw [if_pos hshort]
        simp only [if_pos hshort]
      · rw [if_neg hshort]
        simp only [if_neg hshort]
        have hlength : 37 ≤ (t :: rest).length := Nat.not_lt.mp hshort
        have hslot : slice? (t :: rest) 1 37 = some (rest.take 36) :=
          if_pos ⟨by decide, hlength⟩
        have hpayload : slice? (t :: rest) binaryHeaderLen (t :: rest).length =
            some ((t :: rest).drop binaryHeaderLen) := by
          unfold slice?
          rw [if_pos ⟨hlength, Nat.le_refl _⟩, List.take_of_length_le]
          exact Nat.le_of_eq List.length_drop
        have hid : textOf? (rest.take 36) =
            String.fromUTF8? (ByteArray.mk (rest.take 36).toArray) := rfl
        rw [hslot, hpayload]
        cases hknown : knownFrameType t with
        | true =>
            cases htext : textOf? (rest.take 36) with
            | none =>
                rw [htext] at hid
                simp [hknown, htext, ← hid]
            | some slot =>
                rw [htext] at hid
                simp [hknown, htext, ← hid]
        | false => simp [hknown]

/-!
## The codec
-/

/-- What building and parsing promise about each other, for all bytes and all texts. -/
structure FrameCodec : Prop where
  build_of_parse : forall data frameType id payload,
    parseBinaryFrame data = .ok (frameType, id, payload) ->
    buildBinaryFrame frameType id payload = data
  parse_of_build : forall frameType id payload frame,
    parseBinaryFrame (buildBinaryFrame frameType id payload) = .ok frame <->
      knownFrameType frameType = true ∧
        exists slot, textBytes slot = idSlot id ∧ frame = (frameType, slot, payload)
  parse_of_full : forall frameType id payload, knownFrameType frameType = true ->
    id.utf8ByteSize = 36 ->
    parseBinaryFrame (buildBinaryFrame frameType id payload) = .ok (frameType, id, payload)
  in_bounds : forall data, parseBinaryFrameIndexed data = some (parseBinaryFrame data)
  short : forall data, data.length < 37 ->
    parseBinaryFrame data = .error (.frameTooShort data.length binaryHeaderLen)

theorem frames_round_trip : FrameCodec where
  build_of_parse := by
    intro data frameType id payload h
    rcases parseBinaryFrame_eq_ok.mp h with ⟨_, hsize, hdata⟩
    rw [buildBinaryFrame_eq, idSlot_eq hsize, hdata]
  parse_of_build := by
    intro frameType id payload frame
    rw [parse_buildBinaryFrame]
    simp only [textOf?_eq_some]
  parse_of_full := by
    intro frameType id payload hknown hsize
    have hslot : textOf? (idSlot id) = some id :=
      textOf?_eq_some.mpr (idSlot_eq hsize).symm
    exact parse_buildBinaryFrame.mpr ⟨hknown, id, hslot, rfl⟩
  in_bounds := parseBinaryFrameIndexed_eq
  short := by
    intro data hshort
    unfold parseBinaryFrame
    cases data with
    | nil => rfl
    | cons t rest => exact if_pos hshort

end CommandRelay
