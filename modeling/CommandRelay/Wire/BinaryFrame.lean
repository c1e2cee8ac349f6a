/-!
# Binary frames

A binary frame is one type byte, a 36-byte session id slot holding a UUID as
ASCII, and the payload.
-/

namespace CommandRelay

abbrev Bytes := List UInt8

def ptyOutput : UInt8 := 0x01
def ptyInput : UInt8 := 0x02
def ptyScrollback : UInt8 := 0x03
def ptyFileChunk : UInt8 := 0x04
def ptyFileDownloadChunk : UInt8 := 0x05

def binaryHeaderLen : Nat := 1 + 36

inductive ProtocolError where
  | frameTooShort (got expected : Nat)
  | unknownFrameType (frameType : UInt8)
  | invalidUuid
  deriving DecidableEq

def knownFrameType (t : UInt8) : Bool :=
  t = ptyOutput || t = ptyInput || t = ptyScrollback || t = ptyFileChunk ||
    t = ptyFileDownloadChunk

def parseBinaryFrame (data : Bytes) : Except ProtocolError (UInt8 × String × Bytes) :=
  match data with
  | [] => .error (.frameTooShort 0 binaryHeaderLen)
  | frameType :: rest =>
      if data.length < binaryHeaderLen then
        .error (.frameTooShort data.length binaryHeaderLen)
      else if !knownFrameType frameType then
        .error (.unknownFrameType frameType)
      else
        match String.fromUTF8? (ByteArray.mk (rest.take 36).toArray) with
        | none => .error .invalidUuid
        | some sessionId => .ok (frameType, sessionId, data.drop binaryHeaderLen)

theorem parseBinaryFrame_head {data payload : Bytes} {frameType : UInt8} {id : String}
    (h : parseBinaryFrame data = .ok (frameType, id, payload)) :
    data.head? = some frameType := by
  unfold parseBinaryFrame at h
  cases data with
  | nil => cases h
  | cons t rest =>
      simp only [] at h
      by_cases hshort : (t :: rest).length < binaryHeaderLen
      · rw [if_pos hshort] at h
        cases h
      · rw [if_neg hshort] at h
        by_cases hknown : (!knownFrameType t) = true
        · rw [if_pos hknown] at h
          cases h
        · rw [if_neg hknown] at h
          cases hid : String.fromUTF8? (ByteArray.mk (rest.take 36).toArray) with
          | none =>
              rw [hid] at h
              cases h
          | some sessionId =>
              rw [hid] at h
              cases h
              rfl

/-- Build a frame: a short id is padded with spaces, a long one cut at 36 bytes. -/
def buildBinaryFrame (frameType : UInt8) (sessionId : String) (payload : Bytes) : Bytes :=
  let idBytes := sessionId.toUTF8.data.toList.take 36
  frameType :: (idBytes ++ List.replicate (36 - idBytes.length) 0x20) ++ payload

end CommandRelay
