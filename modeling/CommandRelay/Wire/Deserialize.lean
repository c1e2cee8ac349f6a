import Mathlib.Algebra.GroupWithZero.Nat
import CommandRelay.Wire.ControlMessage
import CommandRelay.Wire.JsonObject

/-!
# Reading control messages

The derived parser of an internally tagged enum.  It collects the fields of an object, picks
the variant by the one field that is the tag, and reads the variant's fields: an unknown
field is ignored, and a field that is named twice is an error.
-/

namespace CommandRelay

namespace Json

/-!
## Values of fields
-/

def asBool? : Json -> Option Bool
  | .bool b => some b
  | _ => none

def asU16? : Json -> Option UInt16
  | .number (.nat n) => if n < 2 ^ 16 then some (UInt16.ofNat n) else none
  | _ => none

def asU32? : Json -> Option UInt32
  | .number (.nat n) => if n < 2 ^ 32 then some (UInt32.ofNat n) else none
  | _ => none

def asU64? : Json -> Option UInt64
  | .number (.nat n) => if n < 2 ^ 64 then some (UInt64.ofNat n) else none
  | _ => none

def asF64? (intToF64 : Int -> F64) : Json -> Option F64
  | .number (.nat n) => some (intToF64 n)
  | .number (.neg n) => some (intToF64 (-n))
  | .number (.float text) => some ⟨text⟩
  | _ => none

def asValue? (j : Json) : Option Value :=
  some (Value.ofJson j)

def asVec? {α : Type} (read : Json -> Option α) : Json -> Option (List α)
  | .array items => items.mapM read
  | _ => none

/-- The fields of a struct.  A struct may be written as an array of its fields, without the
last ones that have a default. -/
def structFields? (names : List String) (required : Nat) :
    Json -> Option (List (String × Json))
  | .object fields => some fields
  | .array items =>
      if required ≤ items.length ∧ items.length ≤ names.length then some (names.zip items)
      else none
  | _ => none

section

variable (fields : List (String × Json)) (name : String)

def stringField : Option String := field fields name asStr?

def optionalStringField : Option (Option String) := optionalField fields name asStr?

variable {fields : List (String × Json)} {name : String}

theorem asStr?_eq_some {j : Json} {s : String} : j.asStr? = some s <-> j = .string s := by
  cases j <;> simp [asStr?]

theorem valuesOf_stringField {s : String} (h : stringField fields name = some s) :
    valuesOf fields name = [.string s] := by
  rcases field_eq_some h with ⟨v, hv, hs⟩
  rw [hv, asStr?_eq_some.mp hs]

theorem valuesOf_optionalStringField {o : Option String}
    (h : optionalStringField fields name = some o) :
    valuesOf fields name = (o.map Json.string).toList ∨
      (valuesOf fields name = [.null] ∧ o = none) := by
  rcases optionalField_eq_some h with ⟨v, s, hv, hs, rfl⟩ | ⟨rfl, hv | hv⟩
  · rw [hv, asStr?_eq_some.mp hs]
    exact Or.inl rfl
  · exact Or.inl hv
  · exact Or.inr ⟨hv, rfl⟩

end

end Json

open Json

def SessionInfo.ofJson (j : Json) : Option SessionInfo := do
  let fields <- structFields? ["id", "label", "cwd", "cols", "rows", "createdAt", "accountId"] 5 j
  SessionInfo.mk <$> stringField fields "id" <*> stringField fields "label" <*>
    stringField fields "cwd" <*> field fields "cols" asU16? <*> field fields "rows" asU16? <*>
    optionalField fields "createdAt" asU64? <*> optionalStringField fields "accountId"

def AccountMeta.ofJson (j : Json) : Option AccountMeta := do
  let fields <- structFields? ["id", "color", "status"] 3 j
  AccountMeta.mk <$> stringField fields "id" <*> stringField fields "color" <*>
    stringField fields "status"

def DeviceInfo.ofJson (j : Json) : Option DeviceInfo := do
  let fields <- structFields? ["id", "name", "ip", "connectedAt"] 4 j
  DeviceInfo.mk <$> stringField fields "id" <*> stringField fields "name" <*>
    stringField fields "ip" <*> stringField fields "connectedAt"

namespace ControlMessage

def ofTagged (intToF64 : Int -> F64) (fields : List (String × Json)) :
    String -> Option ControlMessage
  | "hello" =>
      hello <$> field fields "version" asU32? <*> optionalStringField fields "clientVersion" <*>
        optionalStringField fields "serverVersion"
  | "auth" =>
      auth <$> field fields "version" asU32? <*> stringField fields "username" <*>
        optionalStringField fields "passwordHash" <*> optionalStringField fields "totp" <*>
        optionalStringField fields "deviceToken" <*> optionalStringField fields "desktopKey"
  | "auth_result" =>
      authResult <$> field fields "success" asBool? <*> optionalStringField fields "token" <*>
        optionalStringField fields "deviceId" <*> optionalStringField fields "error" <*>
        optionalField fields "retryAfter" asU64?
  | "desktop_register" =>
      desktopRegister <$> field fields "version" asU32? <*>
        optionalField fields "capabilities" (asVec? asStr?)
  | "desktop_registered" => some desktopRegistered
  | "device_pending" =>
      devicePending <$> stringField fields "deviceId" <*> stringField fields "deviceName" <*>
        stringField fields "ip"
  | "device_approved" => deviceApproved <$> stringField fields "deviceId"
  | "device_rejected" => deviceRejected <$> stringField fields "deviceId"
  | "session_spawn_request" =>
      sessionSpawnRequest <$> field fields "cols" asU16? <*> field fields "rows" asU16? <*>
        optionalStringField fields "accountId"
  | "session_list_request" => some sessionListRequest
  | "session_list" =>
      sessionList <$> field fields "sessions" (asVec? SessionInfo.ofJson) <*>
        optionalField fields "accounts" (asVec? AccountMeta.ofJson)
  | "session_created" =>
      sessionCreated <$> stringField fields "sessionId" <*> stringField fields "label" <*>
        optionalField fields "createdAt" asU64? <*> optionalField fields "cols" asU16? <*>
        optionalField fields "rows" asU16? <*> optionalStringField fields "accountId"
  | "session_renamed" =>
      sessionRenamed <$> stringField fields "sessionId" <*> stringField fields "label"
  | "session_closed" => sessionClosed <$> stringField fields "sessionId"
  | "session_close_request" => sessionCloseRequest <$> stringField fields "sessionId"
  | "session_notification" =>
      sessionNotification <$> stringField fields "sessionId" <*> stringField fields "title" <*>
        stringField fields "body"
  | "context_update" =>
      contextUpdate <$> stringField fields "sessionId" <*>
        field fields "usedPct" (asF64? intToF64) <*>
        optionalField fields "usedTokens" asU64? <*> optionalField fields "maxTokens" asU64?
  | "push_subscribe" => pushSubscribe <$> field fields "subscription" asValue?
  | "push_unsubscribe" => some pushUnsubscribe
  | "vapid_key_request" => some vapidKeyRequest
  | "vapid_public_key" => vapidPublicKey <$> stringField fields "key"
  | "pty_resize" =>
      ptyResize <$> stringField fields "sessionId" <*> field fields "cols" asU16? <*>
        field fields "rows" asU16?
  | "pty_resized" =>
      ptyResized <$> stringField fields "sessionId" <*> field fields "cols" asU16? <*>
        field fields "rows" asU16?
  | "replay_begin" => some replayBegin
  | "resync_required" => some resyncRequired
  | "file_upload_begin" =>
      fileUploadBegin <$> stringField fields "upload_id" <*> stringField fields "kind" <*>
        stringField fields "name" <*> field fields "size" asU64? <*>
        stringField fields "mime" <*> optionalStringField fields "session_id"
  | "file_upload_end" =>
      fileUploadEnd <$> stringField fields "upload_id" <*> optionalStringField fields "text"
  | "file_upload_result" =>
      fileUploadResult <$> stringField fields "upload_id" <*> field fields "ok" asBool? <*>
        optionalStringField fields "path" <*> optionalStringField fields "error"
  | "file_download_request" =>
      fileDownloadRequest <$> stringField fields "download_id" <*>
        stringField fields "session_id" <*> stringField fields "path"
  | "file_download_begin" =>
      fileDownloadBegin <$> stringField fields "download_id" <*> stringField fields "name" <*>
        field fields "size" asU64? <*> stringField fields "mime"
  | "file_download_end" =>
      fileDownloadEnd <$> stringField fields "download_id" <*> field fields "ok" asBool? <*>
        optionalStringField fields "error"
  | "supervisor_query" =>
      supervisorQuery <$> stringField fields "id" <*> stringField fields "kind" <*>
        optionalStringField fields "sessionId" <*> optionalStringField fields "text" <*>
        optionalStringField fields "lastFingerprint"
  | "supervisor_result" =>
      supervisorResult <$> stringField fields "id" <*> field fields "payload" asValue?
  | "supervisor_error" =>
      supervisorError <$> stringField fields "id" <*> stringField fields "message"
  | "ping" => some ping
  | "pong" => some pong
  | "desktop_status" =>
      desktopStatus <$> field fields "online" asBool? <*>
        optionalField fields "capabilities" (asVec? asStr?)
  | "relay_shutting_down" => some relayShuttingDown
  | "connected_devices_request" => some connectedDevicesRequest
  | "connected_devices_list" =>
      connectedDevicesList <$> field fields "devices" (asVec? DeviceInfo.ofJson)
  | "device_revoke" => deviceRevoke <$> stringField fields "deviceId"
  | "device_revoked" => deviceRevoked <$> stringField fields "deviceId"
  | _ => none

/-- `serde_json::from_str` of a control message, on the fields of an object. -/
def ofObject (intToF64 : Int -> F64) (fields : List (String × Json)) : Option ControlMessage := do
  let tag <- stringField fields "type"
  ofTagged intToF64 fields tag

/-!
## The tag
-/

def tag : ControlMessage -> String
  | hello .. => "hello"
  | auth .. => "auth"
  | authResult .. => "auth_result"
  | desktopRegister .. => "desktop_register"
  | desktopRegistered => "desktop_registered"
  | devicePending .. => "device_pending"
  | deviceApproved _ => "device_approved"
  | deviceRejected _ => "device_rejected"
  | sessionSpawnRequest .. => "session_spawn_request"
  | sessionListRequest => "session_list_request"
  | sessionList .. => "session_list"
  | sessionCreated .. => "session_created"
  | sessionRenamed .. => "session_renamed"
  | sessionClosed _ => "session_closed"
  | sessionCloseRequest _ => "session_close_request"
  | sessionNotification .. => "session_notification"
  | contextUpdate .. => "context_update"
  | pushSubscribe _ => "push_subscribe"
  | pushUnsubscribe => "push_unsubscribe"
  | vapidKeyRequest => "vapid_key_request"
  | vapidPublicKey _ => "vapid_public_key"
  | ptyResize .. => "pty_resize"
  | ptyResized .. => "pty_resized"
  | replayBegin => "replay_begin"
  | resyncRequired => "resync_required"
  | fileUploadBegin .. => "file_upload_begin"
  | fileUploadEnd .. => "file_upload_end"
  | fileUploadResult .. => "file_upload_result"
  | fileDownloadRequest .. => "file_download_request"
  | fileDownloadBegin .. => "file_download_begin"
  | fileDownloadEnd .. => "file_download_end"
  | supervisorQuery .. => "supervisor_query"
  | supervisorResult .. => "supervisor_result"
  | supervisorError .. => "supervisor_error"
  | ping => "ping"
  | pong => "pong"
  | desktopStatus .. => "desktop_status"
  | relayShuttingDown => "relay_shutting_down"
  | connectedDevicesRequest => "connected_devices_request"
  | connectedDevicesList _ => "connected_devices_list"
  | deviceRevoke _ => "device_revoke"
  | deviceRevoked _ => "device_revoked"

section

variable {intToF64 : Int -> F64} {fields : List (String × Json)}

theorem map_eq_some {α β : Type} {f : α -> β} {x : Option α} {b : β} :
    f <$> x = some b <-> exists a, x = some a ∧ f a = b :=
  Option.map_eq_some_iff

theorem seq_eq_some {α β : Type} {f : Option (α -> β)} {x : Option α} {b : β} :
    f <*> x = some b <-> exists g, f = some g ∧ exists a, x = some a ∧ g a = b := by
  cases f <;> cases x <;> simp [Seq.seq]

theorem tag_of_ofTagged {name : String} {m : ControlMessage}
    (h : ofTagged intToF64 fields name = some m) : m.tag = name := by
  revert h
  unfold ofTagged
  split <;>
    simp only [map_eq_some, seq_eq_some, Option.some.injEq, reduceCtorEq, false_implies,
      exists_exists_and_eq_and, forall_exists_index, and_imp] <;>
    intros <;> subst_vars <;> rfl

theorem ofObject_eq_some {m : ControlMessage} (h : ofObject intToF64 fields = some m) :
    stringField fields "type" = some m.tag ∧ ofTagged intToF64 fields m.tag = some m := by
  rcases Option.bind_eq_some_iff.mp h with ⟨name, hname, hm⟩
  rw [tag_of_ofTagged hm]
  exact ⟨hname, hm⟩

theorem ofObject_supervisorQuery {id kind : String} {session text fingerprint : Option String}
    (h : ofObject intToF64 fields =
      some (.supervisorQuery id kind session text fingerprint)) :
    stringField fields "type" = some "supervisor_query" ∧
      stringField fields "id" = some id ∧ stringField fields "kind" = some kind ∧
      optionalStringField fields "sessionId" = some session ∧
      optionalStringField fields "text" = some text ∧
      optionalStringField fields "lastFingerprint" = some fingerprint := by
  rcases ofObject_eq_some h with ⟨htype, hquery⟩
  change supervisorQuery <$> stringField fields "id" <*> stringField fields "kind" <*>
    optionalStringField fields "sessionId" <*> optionalStringField fields "text" <*>
    optionalStringField fields "lastFingerprint" = some _ at hquery
  simp only [map_eq_some, seq_eq_some] at hquery
  rcases hquery with ⟨_, ⟨_, ⟨_, ⟨_, ⟨_, hid, rfl⟩, _, hkind, rfl⟩, _, hsession, rfl⟩,
    _, htext, rfl⟩,
    _, hfingerprint, heq⟩
  cases heq
  exact ⟨htype, hid, hkind, hsession, htext, hfingerprint⟩

end

end ControlMessage

end CommandRelay
