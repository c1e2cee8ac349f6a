import Mathlib.Algebra.GroupWithZero.Nat
import Mathlib.Data.List.Basic
import Mathlib.Data.List.DropRight

/-!
# The aes128gcm content coding

An encrypted content is a header and the records that follow it.  The header carries a salt,
the record size and an identifier of the key.  Every record is sealed on its own, under a nonce
that its index determines, and holds a part of the plaintext, a delimiter and zeros.
-/

namespace CommandRelay
namespace Foundation
namespace ContentCoding

/-!
## Numbers, most significant byte first
-/

def bigEndian : Nat -> Nat -> List UInt8
  | 0, _ => []
  | width + 1, n => bigEndian width (n / 256) ++ [UInt8.ofNat n]

def ofBigEndian (bytes : List UInt8) : Nat :=
  bytes.foldl (fun n b => n * 256 + b.toNat) 0

@[simp] theorem length_bigEndian (width n : Nat) : (bigEndian width n).length = width := by
  induction width generalizing n with
  | zero => rfl
  | succ width ih => rw [bigEndian, List.length_append, ih, List.length_singleton]

theorem ofBigEndian_bigEndian (width n : Nat) :
    ofBigEndian (bigEndian width n) = n % 256 ^ width := by
  induction width generalizing n with
  | zero => exact (Nat.mod_one n).symm
  | succ width ih =>
      have hlast : ofBigEndian (bigEndian width (n / 256) ++ [UInt8.ofNat n]) =
          ofBigEndian (bigEndian width (n / 256)) * 256 + n % 256 := by
        simp [ofBigEndian, List.foldl_append]
      rw [bigEndian, hlast, ih, Nat.pow_succ', Nat.mod_mul]
      omega

theorem bigEndian_zero (width : Nat) : bigEndian width 0 = List.replicate width 0 := by
  induction width with
  | zero => rfl
  | succ width ih =>
      rw [bigEndian, Nat.zero_div, ih, List.replicate_succ']
      rfl

/-!
## The header
-/

structure Header where
  salt : Vector UInt8 16
  recordSize : UInt32
  keyIdLength : UInt8
  keyId : Vector UInt8 keyIdLength.toNat

def Header.toBytes (h : Header) : List UInt8 :=
  h.salt.toList ++ bigEndian 4 h.recordSize.toNat ++ [h.keyIdLength] ++ h.keyId.toList

def takeExactly (n : Nat) (bytes : List UInt8) : Option (Vector UInt8 n × List UInt8) :=
  if h : n ≤ bytes.length then
    some (⟨(bytes.take n).toArray, by simp [h]⟩, bytes.drop n)
  else none

def readHeader (body : List UInt8) : Option (Header × List UInt8) := do
  let (salt, rest) <- takeExactly 16 body
  let (recordSize, rest) <- takeExactly 4 rest
  match rest with
  | [] => none
  | keyIdLength :: rest =>
      let (keyId, rest) <- takeExactly keyIdLength.toNat rest
      return (⟨salt, UInt32.ofNat (ofBigEndian recordSize.toList), keyIdLength, keyId⟩, rest)

theorem takeExactly_append {n : Nat} (v : Vector UInt8 n) (rest : List UInt8) :
    takeExactly n (v.toList ++ rest) = some (v, rest) := by
  have hlength : v.toList.length = n := Vector.length_toList
  have hle : n ≤ (v.toList ++ rest).length := by
    rw [List.length_append, hlength]
    exact Nat.le_add_right n rest.length
  unfold takeExactly
  rw [dif_pos hle]
  simp only [List.drop_left' hlength, List.take_left' hlength]
  rfl

theorem readHeader_append (h : Header) (content : List UInt8) :
    readHeader (h.toBytes ++ content) = some (h, content) := by
  let size : Vector UInt8 4 := ⟨(bigEndian 4 h.recordSize.toNat).toArray, by simp⟩
  have hsize : ofBigEndian size.toList = h.recordSize.toNat := by
    show ofBigEndian (bigEndian 4 h.recordSize.toNat) = h.recordSize.toNat
    rw [ofBigEndian_bigEndian]
    exact Nat.mod_eq_of_lt h.recordSize.toNat_lt
  have hbytes : h.toBytes ++ content =
      h.salt.toList ++ (size.toList ++ (h.keyIdLength :: (h.keyId.toList ++ content))) := by
    show h.salt.toList ++ size.toList ++ [h.keyIdLength] ++ h.keyId.toList ++ content = _
    simp only [List.append_assoc, List.cons_append, List.nil_append]
  unfold readHeader
  rw [hbytes, takeExactly_append]
  simp only [Option.bind_eq_bind, Option.bind_some, takeExactly_append, hsize, UInt32.ofNat_toNat]
  rfl

/-!
## Records
-/

def records (size : Nat) (content : List UInt8) : List (List UInt8) :=
  (List.range ((content.length + size - 1) / size)).map fun i => (content.drop (i * size)).take size

def recordNonce (nonce : List UInt8) (index : Nat) : List UInt8 :=
  List.zipWith (fun b c => b ^^^ c) nonce (bigEndian nonce.length index)

def unpad (delimiter : UInt8) (record : List UInt8) : Option (List UInt8) :=
  let unpadded := record.rdropWhile fun b => b = 0
  if unpadded.getLast? = some delimiter then some unpadded.dropLast else none

def delimiter : UInt8 := 1

def lastDelimiter : UInt8 := 2

theorem records_eq_singleton {size : Nat} {content : List UInt8} (hpos : 0 < content.length)
    (hle : content.length ≤ size) : records size content = [content] := by
  have hcount : (content.length + size - 1) / size = 1 := by
    apply Nat.div_eq_of_lt_le <;> omega
  unfold records
  rw [hcount]
  show [(content.drop (0 * size)).take size] = [content]
  rw [Nat.zero_mul, List.drop_zero, List.take_of_length_le hle]

theorem recordNonce_zero (nonce : List UInt8) : recordNonce nonce 0 = nonce := by
  unfold recordNonce
  rw [bigEndian_zero]
  induction nonce with
  | nil => rfl
  | cons b rest ih =>
      rw [List.length_cons, List.replicate_succ, List.zipWith_cons_cons, ih, UInt8.xor_zero]

theorem unpad_append {d : UInt8} (hd : d ≠ 0) (plaintext : List UInt8) (zeros : Nat) :
    unpad d (plaintext ++ [d] ++ List.replicate zeros 0) = some plaintext := by
  have hstrip : (plaintext ++ [d] ++ List.replicate zeros 0).rdropWhile (fun b => b = 0) =
      plaintext ++ [d] := by
    induction zeros with
    | zero =>
        rw [List.replicate_zero, List.append_nil]
        exact List.rdropWhile_concat_neg _ _ _ (by simpa using hd)
    | succ zeros ih =>
        rw [List.replicate_succ', ← List.append_assoc]
        exact (List.rdropWhile_concat_pos _ _ _ (by simp)).trans ih
  unfold unpad
  simp only [hstrip, List.getLast?_append, List.getLast?_singleton, Option.some_or, if_pos,
    List.dropLast_concat]

/-!
## Decoding
-/

/-- What the coding is built from: key derivation with a salt, and an authenticated cipher. -/
structure Suite where
  derive : (salt keyingMaterial info : List UInt8) -> Nat -> Option (List UInt8)
  openRecord : (key nonce record : List UInt8) -> Option (List UInt8)

def ascii (s : String) : List UInt8 :=
  s.toList.map fun c => UInt8.ofNat c.toNat

def keyInfo : List UInt8 := ascii "Content-Encoding: aes128gcm" ++ [0]

def nonceInfo : List UInt8 := ascii "Content-Encoding: nonce" ++ [0]

namespace Suite

variable (suite : Suite)

def openRecords (key nonce : List UInt8) : Nat -> List (List UInt8) -> Option (List UInt8)
  | _, [] => none
  | index, [record] => do
      let padded <- suite.openRecord key (recordNonce nonce index) record
      unpad lastDelimiter padded
  | index, record :: rest => do
      let padded <- suite.openRecord key (recordNonce nonce index) record
      let first <- unpad delimiter padded
      let others <- openRecords key nonce (index + 1) rest
      return first ++ others

def decode (keyingMaterial : List UInt8 -> Option (List UInt8)) (body : List UInt8) :
    Option (List UInt8) := do
  let (header, content) <- readHeader body
  -- A record holds a byte besides its delimiter and its 16-byte tag.
  if header.recordSize < 18 then none
  else
    let ikm <- keyingMaterial header.keyId.toList
    let key <- suite.derive header.salt.toList ikm keyInfo 16
    let nonce <- suite.derive header.salt.toList ikm nonceInfo 12
    suite.openRecords key nonce 0 (records header.recordSize.toNat content)

section

variable {suite} {keyingMaterial : List UInt8 -> Option (List UInt8)} {header : Header}
  {ikm key nonce record plaintext : List UInt8} {zeros : Nat}

theorem decode_record (hsize : 18 ≤ header.recordSize)
    (hikm : keyingMaterial header.keyId.toList = some ikm)
    (hkey : suite.derive header.salt.toList ikm keyInfo 16 = some key)
    (hnonce : suite.derive header.salt.toList ikm nonceInfo 12 = some nonce)
    (hpos : 0 < record.length) (hfits : record.length ≤ header.recordSize.toNat)
    (hopen : suite.openRecord key nonce record =
      some (plaintext ++ [lastDelimiter] ++ List.replicate zeros 0)) :
    suite.decode keyingMaterial (header.toBytes ++ record) = some plaintext := by
  have hrecord : suite.openRecords key nonce 0 [record] = some plaintext := by
    unfold openRecords
    rw [recordNonce_zero, hopen]
    exact unpad_append (by decide) plaintext zeros
  unfold decode
  rw [readHeader_append]
  simp only [Option.bind_eq_bind, Option.bind_some, if_neg (UInt32.not_lt.mpr hsize), hikm, hkey,
    hnonce, records_eq_singleton hpos hfits, hrecord]

end

end Suite

end ContentCoding
end Foundation
end CommandRelay
