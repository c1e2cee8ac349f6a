import CommandRelay.Server.Handlers
import CommandRelay.Server.PushEncryption
import CommandRelay.Server.Relay
import CommandRelay.Wire.JsonSize

/-!
# The size of a push message

A notification is pushed as one record of at most 4096 bytes.  The handler clamps its title
and its body; its session id goes into the payload as the desktop sent it.
-/

namespace CommandRelay

open Foundation

/-!
## Records
-/

/-- What a push message is encrypted with: a salt, the sender's public key, and an AEAD
cipher with a 16-byte tag under the derived key and nonce. -/
structure PushCipher where
  salt : Bytes
  salt_length : salt.length = 16
  asPublic : Bytes
  asPublic_length : asPublic.length = 65
  encrypt : Bytes -> Bytes
  encrypt_length : forall record, (encrypt record).length = record.length + 16

def pushRecordSize : Nat := 4096

def pushHeaderLen : Nat := 16 + 4 + 1 + 65

namespace PushCipher

/-- `encrypt_aes128gcm_inner`: the header, and one record of the plaintext and the last-record
delimiter. -/
def encryptAes128gcmInner (cipher : PushCipher) (plaintext : Bytes) : Bytes :=
  let ciphertext := cipher.encrypt (plaintext ++ [0x02])
  (cipher.salt ++ [0x00, 0x00, 0x10, 0x00] ++ [65] ++ cipher.asPublic) ++ ciphertext

theorem length_record (cipher : PushCipher) (plaintext : Bytes) :
    ((cipher.encryptAes128gcmInner plaintext).drop pushHeaderLen).length =
      plaintext.length + 1 + 16 := by
  have hheader : (cipher.salt ++ [0x00, 0x00, 0x10, 0x00] ++ [65] ++ cipher.asPublic).length =
      pushHeaderLen := by
    simp only [List.length_append, cipher.salt_length, cipher.asPublic_length]
    rfl
  unfold encryptAes128gcmInner
  rw [List.drop_left' hheader, cipher.encrypt_length, List.length_append]
  rfl

section

variable {SecretKey PublicKey : Type} {crypto : PushCrypto SecretKey PublicKey}
  {asSecret : SecretKey} {salt : Vector UInt8 16} {uaKey : PublicKey} {authSecret : Bytes}

/-- What correct primitives seal under the keys of a message.  A record that is too long for
them is left as it is, with an empty tag. -/
def ofKeys (law : crypto.Lawful) (keys : crypto.MessageKeys asSecret salt uaKey authSecret) :
    PushCipher where
  salt := salt.toList
  salt_length := Vector.length_toList
  asPublic := crypto.toEncodedPoint (crypto.publicKey asSecret)
  asPublic_length := law.length_toEncodedPoint _
  encrypt record :=
    match crypto.encrypt keys.cek keys.nonce record with
    | .ok ciphertext =>
        if ciphertext.length = record.length + 16 then ciphertext
        else record ++ List.replicate 16 0
    | .error _ => record ++ List.replicate 16 0
  encrypt_length record := by
    split
    · split
      · assumption
      · simp
    · simp

theorem encryptAes128gcmInner_ofKeys (law : crypto.Lawful)
    (keys : crypto.MessageKeys asSecret salt uaKey authSecret) {plaintext : Bytes}
    (hlength : plaintext.length < 2 ^ 36) :
    crypto.encryptAes128gcmInner asSecret salt (crypto.toEncodedPoint uaKey) authSecret
        plaintext =
      .ok ((ofKeys law keys).encryptAes128gcmInner plaintext) := by
  have hrecord : (plaintext ++ [0x02]).length ≤ 2 ^ 36 := by
    rw [List.length_append]
    exact hlength
  rcases law.encrypt_decrypt keys.cek keys.nonce (plaintext ++ [0x02]) keys.length_cek
    keys.length_nonce hrecord with ⟨ciphertext, hseal, hsealed, _⟩
  have hencrypt : (ofKeys law keys).encrypt (plaintext ++ [0x02]) = ciphertext := by
    simp only [ofKeys, hseal, if_pos hsealed]
  have hsize : ContentCoding.bigEndian 4 (4096 : UInt32).toNat = [0x00, 0x00, 0x10, 0x00] := by
    decide
  rw [PushCrypto.encryptAes128gcmInner_eq law keys hseal, encryptAes128gcmInner, hencrypt, ← hsize]
  rfl

end

end PushCipher

/-- The payload of a push fits one record, and the record that is sealed from it is no longer
than its message declares. -/
structure FitsRecord (cipher : PushCipher) (payload : Json) : Prop where
  plaintext : payload.toText.utf8ByteSize + 1 + 16 ≤ 4096
  record : ((cipher.encryptAes128gcmInner payload.toText.toUTF8.data.toList).drop
    pushHeaderLen).length ≤ pushRecordSize

theorem fitsRecord_iff (cipher : PushCipher) (payload : Json) :
    FitsRecord cipher payload <-> payload.toText.utf8ByteSize ≤ 4079 := by
  constructor
  · intro h
    have hplaintext := h.plaintext
    omega
  · intro h
    constructor
    · omega
    · rw [PushCipher.length_record]
      show payload.toText.utf8ByteSize + 1 + 16 ≤ 4096
      omega

/-- Every payload that the handler hands to the push manager fits one record. -/
def PushesFit (cipher : PushCipher) (task : Handler Unit) : Prop :=
  Program.Obeys (fun _ call => forall username payload, call = .pushToUser username payload ->
    FitsRecord cipher payload) [] task fun _ _ => True

/-!
## The payload of a notification
-/

def notificationPayload (sessionId title body : String) : Json :=
  .object [("body", .string (Handler.takeChars 300 body)), ("sessionId", .string sessionId),
    ("title", .string (Handler.takeChars 120 title))]

/-- The bytes that a notification takes up beside what JSON needs around it. -/
def notificationBytes (sessionId title body : String) : Nat :=
  Json.escapedBytes sessionId + Json.escapedBytes (Handler.takeChars 120 title) +
    Json.escapedBytes (Handler.takeChars 300 body)

theorem size_notificationPayload (sessionId title body : String) :
    (notificationPayload sessionId title body).toText.utf8ByteSize =
      notificationBytes sessionId title body + 37 := by
  have hsize := Json.size_stringObject (List.cons_ne_nil ("body", Handler.takeChars 300 body)
    [("sessionId", sessionId), ("title", Handler.takeChars 120 title)])
  have hnames : Json.escapedBytes "sessionId" = 9 ∧ Json.escapedBytes "title" = 5 ∧
      Json.escapedBytes "body" = 4 := by decide
  refine hsize.trans ?_
  simp only [Json.fieldBytes, List.map_cons, List.map_nil, List.sum_cons, List.sum_nil, hnames,
    notificationBytes]
  omega

theorem escapedBytes_takeChars_le (n : Nat) (s : String) :
    Json.escapedBytes (Handler.takeChars n s) ≤ 6 * n := by
  have hsize := Json.escapedBytes_le (Handler.takeChars n s)
  have hlength : (Handler.takeChars n s).toList.length ≤ n := by
    rw [Handler.takeChars, String.toList_ofList]
    exact List.length_take_le n s.toList
  omega

theorem pushesFit_handleSessionNotification (cipher : PushCipher)
    (sessionId title body username : String) :
    PushesFit cipher
        (Handler.handleSessionNotification sessionId title body (.desktop username)) <->
      FitsRecord cipher (notificationPayload sessionId title body) := by
  constructor
  · intro h
    exact (h.2 ()).1 username _ rfl
  · intro h
    constructor
    · intro u payload hcall
      cases hcall
    · intro _
      constructor
      · intro u payload hcall
        cases hcall
        exact h
      · intro _
        trivial

theorem pushesFit_processWsMessage (env : Env) (cipher : PushCipher) (c : ConnId)
    (ip username sessionId title body : String) {size : Nat} (hsize : size ≤ 16 * 1024) :
    PushesFit cipher (Handler.processWsMessage env
        (.text size (some (.sessionNotification sessionId title body))) (.desktop username)
          c ip) <->
      FitsRecord cipher (notificationPayload sessionId title body) := by
  have hgate : ¬ maxTextMessageSize < size := Nat.not_lt.mpr hsize
  have htask : Handler.processWsMessage env
      (.text size (some (.sessionNotification sessionId title body))) (.desktop username) c ip =
      Handler.handleSessionNotification sessionId title body (.desktop username) := by
    simp only [Handler.processWsMessage, if_neg hgate]
    rfl
  rw [htask]
  exact pushesFit_handleSessionNotification cipher sessionId title body username

/-- What the desktop's frame makes the relay push fits one record exactly when the session id
leaves room for the clamped title and body. -/
theorem pushes_fit_iff (env : Env) (cipher : PushCipher) (c : ConnId)
    (ip username sessionId title body : String) {size : Nat} (hsize : size ≤ 16 * 1024) :
    PushesFit cipher (Handler.processWsMessage env
        (.text size (some (.sessionNotification sessionId title body))) (.desktop username)
          c ip) <->
      notificationBytes sessionId title body ≤ 4042 := by
  rw [pushesFit_processWsMessage env cipher c ip username sessionId title body hsize,
    fitsRecord_iff, size_notificationPayload]
  omega

def plainCipher : PushCipher where
  salt := List.replicate 16 0
  salt_length := rfl
  asPublic := List.replicate 65 0
  asPublic_length := rfl
  encrypt record := record ++ List.replicate 16 0
  encrypt_length record := by simp

theorem pushes_fit_iff_example :
    PushesFit plainCipher (Handler.processWsMessage Deployment.env
        (.text 100 (some (.sessionNotification "session" "Build" "finished")))
        (.desktop "user") 1 "192.0.2.1") <->
      notificationBytes "session" "Build" "finished" ≤ 4042 :=
  pushes_fit_iff Deployment.env plainCipher 1 "192.0.2.1" "user" "session" "Build" "finished"
    (by decide)

theorem escapedBytes_replicate (n : Nat) (c : Char) :
    Json.escapedBytes (String.ofList (List.replicate n c)) =
      n * charBytes (Json.escapeChar c) := by
  rw [Json.escapedBytes, String.toList_ofList]
  induction n with
  | zero => simp
  | succ n ih =>
      rw [List.replicate_succ, List.flatMap_cons, charBytes_append, ih, Nat.succ_mul]
      omega

@[irreducible] def longSessionId : String := String.ofList (List.replicate 4096 'a')

theorem escapedBytes_longSessionId : Json.escapedBytes longSessionId = 4096 := by
  have hletter : charBytes (Json.escapeChar 'a') = 1 := by decide
  unfold longSessionId
  rw [escapedBytes_replicate, hletter]

def longNotification : ControlMessage :=
  .sessionNotification longSessionId "Build" "finished"

theorem size_longNotification : longNotification.toText.utf8ByteSize = 4176 := by
  have hsize := Json.size_stringObject (List.cons_ne_nil ("type", "session_notification")
    [("sessionId", longSessionId), ("title", "Build"), ("body", "finished")])
  have hrest : Json.escapedBytes "type" = 4 ∧ Json.escapedBytes "session_notification" = 20 ∧
      Json.escapedBytes "sessionId" = 9 ∧ Json.escapedBytes "title" = 5 ∧
      Json.escapedBytes "Build" = 5 ∧ Json.escapedBytes "body" = 4 ∧
      Json.escapedBytes "finished" = 8 := by decide
  refine hsize.trans ?_
  simp only [Json.fieldBytes, List.map_cons, List.map_nil, List.sum_cons, List.sum_nil,
    escapedBytes_longSessionId, hrest]
  rfl

/-- The long notification passes the gate of a text frame, and its push does not fit. -/
theorem long_notification_overflows :
    longNotification.toText.utf8ByteSize ≤ 16 * 1024 ∧
      ¬ PushesFit plainCipher (Handler.processWsMessage Deployment.env
        (.text longNotification.toText.utf8ByteSize (some longNotification)) (.desktop "user") 1
        "192.0.2.1") := by
  have hgate : longNotification.toText.utf8ByteSize ≤ 16 * 1024 := by
    rw [size_longNotification]
    decide
  constructor
  · exact hgate
  · intro hfit
    have hrecord := (pushesFit_processWsMessage Deployment.env plainCipher 1 "192.0.2.1" "user"
      longSessionId "Build" "finished" hgate).mp hfit
    rw [fitsRecord_iff, size_notificationPayload, notificationBytes,
      escapedBytes_longSessionId] at hrecord
    omega

/-!
## The session id alone
-/

/-- Every title and every body fits beside a session id exactly when its escapes take at most
1522 bytes. -/
theorem fits_every_text_iff (sessionId : String) :
    (forall title body, notificationBytes sessionId title body ≤ 4042) <->
      Json.escapedBytes sessionId ≤ 1522 := by
  constructor
  · intro h
    -- The worst title and body consist of control characters.
    have hworst := h (String.ofList (List.replicate 120 (Char.ofNat 1)))
      (String.ofList (List.replicate 300 (Char.ofNat 1)))
    have hescape : charBytes (Json.escapeChar (Char.ofNat 1)) = 6 := by decide
    simp only [notificationBytes, Handler.takeChars, String.toList_ofList, List.take_replicate,
      escapedBytes_replicate, hescape] at hworst
    omega
  · intro h title body
    have htitle := escapedBytes_takeChars_le 120 title
    have hbody := escapedBytes_takeChars_le 300 body
    unfold notificationBytes
    omega

end CommandRelay
