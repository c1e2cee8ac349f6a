import CommandRelay.Foundation.ContentCoding
import CommandRelay.Server.FanOut
import CommandRelay.Wire.FrameCodec

/-!
# Push message encryption

A push message is encrypted for the public key of a subscription (RFC 8291).  The keying
material comes from a key agreement and the subscription's authentication secret, and the
message is one record of the `aes128gcm` content coding.
-/

namespace CommandRelay

open Foundation

/-- The primitives of the crypto stack: P-256 keys, HKDF and AES-128-GCM. -/
structure PushCrypto (SecretKey PublicKey : Type) where
  publicKey : SecretKey -> PublicKey
  fromSec1Bytes : Bytes -> Except String PublicKey
  /-- The uncompressed point of a key. -/
  toEncodedPoint : PublicKey -> Bytes
  diffieHellman : SecretKey -> PublicKey -> Bytes
  /-- Extract with the salt, and expand to a length. -/
  hkdfExpand : (salt ikm info : Bytes) -> Nat -> Except String Bytes
  encrypt : (key nonce record : Bytes) -> Except String Bytes
  decrypt : (key nonce ciphertext : Bytes) -> Option Bytes

namespace PushCrypto

section

variable {SecretKey PublicKey : Type} (crypto : PushCrypto SecretKey PublicKey)

/-- `encrypt_aes128gcm_inner`, for an ephemeral key and a salt. -/
def encryptAes128gcmInner (asSecret : SecretKey) (salt : Vector UInt8 16)
    (uaPublic authSecret plaintext : Bytes) : Except PushError Bytes := do
  let uaKey <- (crypto.fromSec1Bytes uaPublic).mapError fun e =>
    .subscription s!"p256dh key: {e}"
  let asPublic := crypto.toEncodedPoint (crypto.publicKey asSecret)
  let shared := crypto.diffieHellman asSecret uaKey
  let info := textBytes "WebPush: info" ++ [0x00] ++ uaPublic ++ asPublic
  let ikm <- (crypto.hkdfExpand authSecret shared info 32).mapError .crypto
  let cek <- (crypto.hkdfExpand salt.toList ikm
    (textBytes "Content-Encoding: aes128gcm" ++ [0x00]) 16).mapError .crypto
  let nonce <- (crypto.hkdfExpand salt.toList ikm
    (textBytes "Content-Encoding: nonce" ++ [0x00]) 12).mapError .crypto
  -- A single record: the plaintext and the last-record delimiter.
  let record := plaintext ++ [0x02]
  let ciphertext <- (crypto.encrypt cek nonce record).mapError .crypto
  return salt.toList ++ ContentCoding.bigEndian 4 4096 ++ [65] ++ asPublic ++ ciphertext

/-!
## The receiver
-/

def suite : ContentCoding.Suite where
  derive salt ikm info length := (crypto.hkdfExpand salt ikm info length).toOption
  openRecord := crypto.decrypt

def keyingMaterial (uaSecret : SecretKey) (authSecret keyId : Bytes) : Option Bytes := do
  let asPublic <- (crypto.fromSec1Bytes keyId).toOption
  let shared := crypto.diffieHellman uaSecret asPublic
  let uaPublic := crypto.toEncodedPoint (crypto.publicKey uaSecret)
  let keyInfo := ContentCoding.ascii "WebPush: info" ++ [0] ++ uaPublic ++ keyId
  (crypto.hkdfExpand authSecret shared keyInfo 32).toOption

/-- What a subscription with its own key pair and authentication secret makes of a message. -/
def receive (uaSecret : SecretKey) (authSecret body : Bytes) : Option Bytes :=
  crypto.suite.decode (crypto.keyingMaterial uaSecret authSecret) body

/-!
## Correct primitives
-/

/-- The primitives are correct: both sides agree on a secret, public keys are 65 bytes that
decode back, and decryption inverts encryption. -/
structure Lawful : Prop where
  agree : forall a b, crypto.diffieHellman a (crypto.publicKey b) =
    crypto.diffieHellman b (crypto.publicKey a)
  length_toEncodedPoint : forall key, (crypto.toEncodedPoint key).length = 65
  fromSec1Bytes_toEncodedPoint : forall key,
    crypto.fromSec1Bytes (crypto.toEncodedPoint key) = .ok key
  /-- HKDF-SHA256 expands to at most 255 blocks of 32 bytes. -/
  expand : forall salt ikm info length, length ≤ 255 * 32 ->
    exists okm, crypto.hkdfExpand salt ikm info length = .ok okm ∧ okm.length = length
  /-- AES-128-GCM takes a 16-byte key, a 12-byte nonce and at most 64 GiB. -/
  encrypt_decrypt : forall key nonce record, key.length = 16 -> nonce.length = 12 ->
    record.length ≤ 2 ^ 36 ->
      exists ciphertext, crypto.encrypt key nonce record = .ok ciphertext ∧
        ciphertext.length = record.length + 16 ∧
        crypto.decrypt key nonce ciphertext = some record

/-- The keys of a message from a sender's key and a salt to a subscription. -/
structure MessageKeys (asSecret : SecretKey) (salt : Vector UInt8 16) (uaKey : PublicKey)
    (authSecret : Bytes) where
  ikm : Bytes
  cek : Bytes
  nonce : Bytes
  ikm_eq : crypto.hkdfExpand authSecret (crypto.diffieHellman asSecret uaKey)
    (ContentCoding.ascii "WebPush: info" ++ [0] ++ crypto.toEncodedPoint uaKey ++
      crypto.toEncodedPoint (crypto.publicKey asSecret)) 32 = .ok ikm
  cek_eq : crypto.hkdfExpand salt.toList ikm ContentCoding.keyInfo 16 = .ok cek
  nonce_eq : crypto.hkdfExpand salt.toList ikm ContentCoding.nonceInfo 12 = .ok nonce
  length_cek : cek.length = 16
  length_nonce : nonce.length = 12

section

variable {crypto} {asSecret : SecretKey} {salt : Vector UInt8 16} {uaKey : PublicKey}
  {authSecret plaintext ciphertext : Bytes}

theorem Lawful.exists_keys (law : crypto.Lawful) (asSecret : SecretKey)
    (salt : Vector UInt8 16) (uaKey : PublicKey) (authSecret : Bytes) :
    Nonempty (crypto.MessageKeys asSecret salt uaKey authSecret) := by
  rcases law.expand authSecret (crypto.diffieHellman asSecret uaKey)
    (ContentCoding.ascii "WebPush: info" ++ [0] ++ crypto.toEncodedPoint uaKey ++
      crypto.toEncodedPoint (crypto.publicKey asSecret)) 32 (by decide) with ⟨ikm, hikm, _⟩
  rcases law.expand salt.toList ikm ContentCoding.keyInfo 16 (by decide) with ⟨cek, hcek, hkey⟩
  rcases law.expand salt.toList ikm ContentCoding.nonceInfo 12 (by decide) with
    ⟨nonce, hnonce, hlength⟩
  exact ⟨⟨ikm, cek, nonce, hikm, hcek, hnonce, hkey, hlength⟩⟩

/-- The header of a message: its key identifier is the sender's public key. -/
def Lawful.header (law : crypto.Lawful) (asSecret : SecretKey) (salt : Vector UInt8 16) :
    ContentCoding.Header where
  salt := salt
  recordSize := 4096
  keyIdLength := 65
  keyId := ⟨(crypto.toEncodedPoint (crypto.publicKey asSecret)).toArray,
    law.length_toEncodedPoint _⟩

theorem encryptAes128gcmInner_eq (law : crypto.Lawful)
    (keys : crypto.MessageKeys asSecret salt uaKey authSecret)
    (hseal : crypto.encrypt keys.cek keys.nonce (plaintext ++ [0x02]) = .ok ciphertext) :
    crypto.encryptAes128gcmInner asSecret salt (crypto.toEncodedPoint uaKey) authSecret
        plaintext =
      .ok ((law.header asSecret salt).toBytes ++ ciphertext) := by
  have hinfo : textBytes "WebPush: info" = ContentCoding.ascii "WebPush: info" := by decide
  have hkeyInfo : textBytes "Content-Encoding: aes128gcm" ++ [0x00] = ContentCoding.keyInfo := by
    decide
  have hnonceInfo : textBytes "Content-Encoding: nonce" ++ [0x00] = ContentCoding.nonceInfo := by
    decide
  unfold encryptAes128gcmInner
  rw [law.fromSec1Bytes_toEncodedPoint, hinfo, hkeyInfo, hnonceInfo]
  simp only [Except.mapError, bind, Except.bind, keys.ikm_eq, keys.cek_eq, keys.nonce_eq, hseal]
  rfl

theorem keyingMaterial_eq (law : crypto.Lawful) {uaSecret : SecretKey}
    (keys : crypto.MessageKeys asSecret salt (crypto.publicKey uaSecret) authSecret) :
    crypto.keyingMaterial uaSecret authSecret
        (crypto.toEncodedPoint (crypto.publicKey asSecret)) = some keys.ikm := by
  unfold keyingMaterial
  rw [law.fromSec1Bytes_toEncodedPoint]
  show (crypto.hkdfExpand authSecret (crypto.diffieHellman uaSecret (crypto.publicKey asSecret))
    _ 32).toOption = some keys.ikm
  rw [law.agree uaSecret asSecret, keys.ikm_eq]
  rfl

/-- A message whose plaintext fits one record is decoded by its receiver to the plaintext. -/
theorem receive_encryptAes128gcmInner (law : crypto.Lawful) (asSecret uaSecret : SecretKey)
    (salt : Vector UInt8 16) (authSecret plaintext : Bytes)
    (hfits : plaintext.length + 17 ≤ 4096) :
    exists body,
      crypto.encryptAes128gcmInner asSecret salt
          (crypto.toEncodedPoint (crypto.publicKey uaSecret)) authSecret plaintext = .ok body ∧
        crypto.receive uaSecret authSecret body = some plaintext := by
  rcases law.exists_keys asSecret salt (crypto.publicKey uaSecret) authSecret with ⟨keys⟩
  have hlength : (plaintext ++ [0x02]).length = plaintext.length + 1 := List.length_append
  rcases law.encrypt_decrypt keys.cek keys.nonce (plaintext ++ [0x02]) keys.length_cek
    keys.length_nonce (by omega) with ⟨ciphertext, hseal, hsealed, hopen⟩
  have hkey : crypto.suite.derive salt.toList keys.ikm ContentCoding.keyInfo 16 = some keys.cek :=
    congrArg Except.toOption keys.cek_eq
  have hnonce : crypto.suite.derive salt.toList keys.ikm ContentCoding.nonceInfo 12 =
      some keys.nonce :=
    congrArg Except.toOption keys.nonce_eq
  have hrecord : crypto.suite.openRecord keys.cek keys.nonce ciphertext =
      some (plaintext ++ [ContentCoding.lastDelimiter] ++ List.replicate 0 0) := by
    rw [List.replicate_zero, List.append_nil]
    exact hopen
  have hsize : (18 : UInt32) ≤ (law.header asSecret salt).recordSize := by
    show (18 : UInt32) ≤ 4096
    decide
  have hrecordSize : ciphertext.length ≤ (law.header asSecret salt).recordSize.toNat := by
    show ciphertext.length ≤ 4096
    omega
  have hreceive : crypto.receive uaSecret authSecret
      ((law.header asSecret salt).toBytes ++ ciphertext) = some plaintext :=
    ContentCoding.Suite.decode_record hsize (keyingMaterial_eq law keys) hkey hnonce (by omega)
      hrecordSize hrecord
  exact ⟨_, encryptAes128gcmInner_eq law keys hseal, hreceive⟩

end

end

/-!
## The example of RFC 8291

Two key pairs and one message, with the values that the primitives have there.  Elsewhere keys
are zeros and a tag of zeros is added.
-/

namespace Example

open ContentCoding (bigEndian)

inductive Party where
  | applicationServer
  | userAgent
  deriving DecidableEq

open Party

def point : Party -> Bytes
  | applicationServer =>
      [0x04] ++
        bigEndian 32 0xfe33f4ab0dea71914db55823f73b54948f41306d920732dbb9a59a5328648220 ++
        bigEndian 32 0x0e597a7b7bc260ba1c227998580992e93973002f3012a28ae8f06bbb78e5ec0f
  | userAgent =>
      [0x04] ++
        bigEndian 32 0x2571b2becdfde360551aaf1ed0f4cd366c11cebe555f89bcb7b186a533391731 ++
        bigEndian 32 0x68ece2ebe018597bd30479b86e3c8f8eced577ca59187e9246990db682008b0e

def ecdhSecret : Bytes :=
  bigEndian 32 0x932acbd63208387133837b0cd995911c3441eb66000998614a592727aef6912b

def authSecret : Bytes :=
  bigEndian 16 0x05305932a1c7eabe13b6cec9fda48882

def salt : Vector UInt8 16 :=
  ⟨(bigEndian 16 0x0c6bfaadad67958803092d454676f397).toArray, by simp⟩

def ikm : Bytes :=
  bigEndian 32 0x4b895831bfcbd05c427aad16843c7cd772a0498a94dba90ecb359476c5d8cab8

def cek : Bytes :=
  bigEndian 16 0xa088555b4e0c45dcb65cdf4288a2f14e

def nonce : Bytes :=
  bigEndian 12 0xe21ffde6495727913faa7a0d

def plaintext : Bytes :=
  textBytes "When I grow up, I want to be a watermelon"

def ciphertext : Bytes :=
  bigEndian 42
    0xf297de5b429bba7153d3a4ae0caa091fd425f3b4b5414add8ab37a19c1bbb05cf5cb5b2a2e0562d55863 ++
  bigEndian 16 0x5641ec52812c6c8ff42e95ccb86be7cd

def crypto : PushCrypto Party Party where
  publicKey party := party
  fromSec1Bytes bytes :=
    if bytes = point applicationServer then .ok applicationServer
    else if bytes = point userAgent then .ok userAgent
    else .error "crypto error"
  toEncodedPoint := point
  diffieHellman a b := if a = b then List.replicate 32 0 else ecdhSecret
  hkdfExpand salt' ikm' info length :=
    if 255 * 32 < length then .error "invalid number of blocks, too large output"
    else if length = 32 ∧ salt' = authSecret ∧ ikm' = ecdhSecret ∧
        info = textBytes "WebPush: info" ++ [0] ++ point userAgent ++ point applicationServer then
      .ok ikm
    else if length = 16 ∧ salt' = salt.toList ∧ ikm' = ikm ∧ info = ContentCoding.keyInfo then
      .ok cek
    else if length = 12 ∧ salt' = salt.toList ∧ ikm' = ikm ∧
        info = ContentCoding.nonceInfo then
      .ok nonce
    else .ok (List.replicate length 0)
  encrypt key nonce' record :=
    if key = cek ∧ nonce' = nonce ∧ record = plaintext ++ [0x02] then .ok ciphertext
    else .ok (record ++ List.replicate 16 0)
  decrypt key nonce' sealed :=
    if key = cek ∧ nonce' = nonce ∧ sealed = ciphertext then some (plaintext ++ [0x02])
    else some (sealed.take (sealed.length - 16))

/-- The message of the example, byte for byte. -/
example : (crypto.encryptAes128gcmInner applicationServer salt (point userAgent) authSecret
    plaintext).toOption =
      some (salt.toList ++ [0x00, 0x00, 0x10, 0x00, 0x41] ++ point applicationServer ++
        ciphertext) := by
  decide +kernel

theorem lawful : crypto.Lawful where
  agree a b := by cases a <;> cases b <;> rfl
  length_toEncodedPoint key := by cases key <;> rfl
  fromSec1Bytes_toEncodedPoint key := by cases key <;> decide +kernel
  expand salt' ikm' info length h := by
    unfold crypto
    simp only [if_neg (Nat.not_lt.mpr h)]
    split
    · next h => exact ⟨ikm, rfl, h.1.symm⟩
    · split
      · next h => exact ⟨cek, rfl, h.1.symm⟩
      · split
        · next h => exact ⟨nonce, rfl, h.1.symm⟩
        · exact ⟨_, rfl, List.length_replicate⟩
  encrypt_decrypt key nonce' record _ _ _ := by
    unfold crypto
    by_cases hrecord : key = cek ∧ nonce' = nonce ∧ record = plaintext ++ [0x02]
    · rcases hrecord with ⟨rfl, rfl, rfl⟩
      exact ⟨ciphertext, by simp, rfl, by simp⟩
    · have hother : ¬ (key = cek ∧ nonce' = nonce ∧
          record ++ List.replicate 16 0 = ciphertext) := by
        rintro ⟨_, _, hsealed⟩
        -- The tag of the example does not end in a zero.
        have hlast : (record ++ List.replicate 16 0).getLast? = some 0 := by simp
        rw [hsealed] at hlast
        revert hlast
        decide +kernel
      refine ⟨record ++ List.replicate 16 0, if_neg hrecord, ?_, ?_⟩
      · simp
      · simp only [if_neg hother]
        simp

theorem receive_message :
    exists body,
      crypto.encryptAes128gcmInner applicationServer salt
          (crypto.toEncodedPoint (crypto.publicKey userAgent)) authSecret plaintext = .ok body ∧
        crypto.receive userAgent authSecret body = some plaintext :=
  receive_encryptAes128gcmInner lawful applicationServer userAgent salt authSecret plaintext
    (by decide)

end Example

end PushCrypto

end CommandRelay
