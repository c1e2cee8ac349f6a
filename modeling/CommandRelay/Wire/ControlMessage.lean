import CommandRelay.Wire.Value

/-!
# Control messages

All JSON control messages on the wire, with the serde names of their fields.
An optional field that is absent is left out of the object.
-/

namespace CommandRelay

/-- A finite `f64`, known by the text it prints as. -/
structure F64 where
  text : String
  deriving DecidableEq

structure SessionInfo where
  id : String
  label : String
  cwd : String
  cols : UInt16
  rows : UInt16
  createdAt : Option UInt64
  accountId : Option String
  deriving DecidableEq

/-- Account roster entry carried on `session_list`, opaque to the relay. -/
structure AccountMeta where
  id : String
  color : String
  status : String
  deriving DecidableEq

structure DeviceInfo where
  id : String
  name : String
  ip : String
  connectedAt : String
  deriving DecidableEq

inductive ControlMessage where
  -- Handshake
  | hello (version : UInt32) (clientVersion serverVersion : Option String)
  -- Auth
  | auth (version : UInt32) (username : String)
      (passwordHash totp deviceToken desktopKey : Option String)
  | authResult (success : Bool) (token deviceId error : Option String)
      (retryAfter : Option UInt64)
  -- Desktop registration
  | desktopRegister (version : UInt32) (capabilities : Option (List String))
  | desktopRegistered
  -- Device approval
  | devicePending (deviceId deviceName ip : String)
  | deviceApproved (deviceId : String)
  | deviceRejected (deviceId : String)
  -- Sessions
  | sessionSpawnRequest (cols rows : UInt16) (accountId : Option String)
  | sessionListRequest
  | sessionList (sessions : List SessionInfo)
      (accounts : Option (List AccountMeta))
  | sessionCreated (sessionId label : String) (createdAt : Option UInt64)
      (cols rows : Option UInt16) (accountId : Option String)
  | sessionRenamed (sessionId label : String)
  | sessionClosed (sessionId : String)
  | sessionCloseRequest (sessionId : String)
  -- Session events (desktop to clients)
  | sessionNotification (sessionId title body : String)
  | contextUpdate (sessionId : String) (usedPct : F64)
      (usedTokens maxTokens : Option UInt64)
  -- Web push
  | pushSubscribe (subscription : Json.Value)
  | pushUnsubscribe
  | vapidKeyRequest
  | vapidPublicKey (key : String)
  -- Resize
  | ptyResize (sessionId : String) (cols rows : UInt16)
  | ptyResized (sessionId : String) (cols rows : UInt16)
  -- Replay routing and recovery
  | replayBegin
  | resyncRequired
  -- File upload (client to desktop)
  | fileUploadBegin (uploadId kind name : String) (size : UInt64)
      (mime : String) (sessionId : Option String)
  | fileUploadEnd (uploadId : String) (text : Option String)
  | fileUploadResult (uploadId : String) (ok : Bool) (path error : Option String)
  -- File download (desktop to client)
  | fileDownloadRequest (downloadId sessionId path : String)
  | fileDownloadBegin (downloadId name : String) (size : UInt64) (mime : String)
  | fileDownloadEnd (downloadId : String) (ok : Bool) (error : Option String)
  -- Supervisor
  | supervisorQuery (id kind : String) (sessionId text lastFingerprint : Option String)
  | supervisorResult (id : String) (payload : Json.Value)
  | supervisorError (id message : String)
  -- Health
  | ping
  | pong
  | desktopStatus (online : Bool) (capabilities : Option (List String))
  | relayShuttingDown
  -- Device management
  | connectedDevicesRequest
  | connectedDevicesList (devices : List DeviceInfo)
  | deviceRevoke (deviceId : String)
  | deviceRevoked (deviceId : String)

/-!
## Serialization
-/

namespace Json

def ofNat (n : Nat) : Json :=
  .number (.nat n)

def ofStrings (items : List String) : Json :=
  .array (items.map .string)

/-- A field with `skip_serializing_if = "Option::is_none"`. -/
def optional (name : String) (value : Option Json) : List (String × Json) :=
  match value with
  | none => []
  | some v => [(name, v)]

def optionalString (name : String) (value : Option String) : List (String × Json) :=
  optional name (value.map .string)

def tagged (tag : String) (fields : List (String × Json)) : Json :=
  .object (("type", .string tag) :: fields)

end Json

namespace SessionInfo

def toJson (s : SessionInfo) : Json :=
  .object
    ([("id", .string s.id), ("label", .string s.label), ("cwd", .string s.cwd),
      ("cols", Json.ofNat s.cols.toNat), ("rows", Json.ofNat s.rows.toNat)] ++
      Json.optional "createdAt" (s.createdAt.map fun t => Json.ofNat t.toNat) ++
      Json.optionalString "accountId" s.accountId)

end SessionInfo

namespace AccountMeta

def toJson (a : AccountMeta) : Json :=
  .object [("id", .string a.id), ("color", .string a.color), ("status", .string a.status)]

end AccountMeta

namespace DeviceInfo

def toJson (d : DeviceInfo) : Json :=
  .object
    [("id", .string d.id), ("name", .string d.name), ("ip", .string d.ip),
      ("connectedAt", .string d.connectedAt)]

end DeviceInfo

namespace ControlMessage

open Json

def toJson : ControlMessage -> Json
  | hello version clientVersion serverVersion =>
      tagged "hello"
        ([("version", ofNat version.toNat)] ++
          optionalString "clientVersion" clientVersion ++
          optionalString "serverVersion" serverVersion)
  | auth version username passwordHash totp deviceToken desktopKey =>
      tagged "auth"
        ([("version", ofNat version.toNat), ("username", .string username)] ++
          optionalString "passwordHash" passwordHash ++
          optionalString "totp" totp ++
          optionalString "deviceToken" deviceToken ++
          optionalString "desktopKey" desktopKey)
  | authResult success token deviceId error retryAfter =>
      tagged "auth_result"
        ([("success", .bool success)] ++
          optionalString "token" token ++
          optionalString "deviceId" deviceId ++
          optionalString "error" error ++
          optional "retryAfter" (retryAfter.map fun t => ofNat t.toNat))
  | desktopRegister version capabilities =>
      tagged "desktop_register"
        ([("version", ofNat version.toNat)] ++
          optional "capabilities" (capabilities.map ofStrings))
  | desktopRegistered => tagged "desktop_registered" []
  | devicePending deviceId deviceName ip =>
      tagged "device_pending"
        [("deviceId", .string deviceId), ("deviceName", .string deviceName),
          ("ip", .string ip)]
  | deviceApproved deviceId =>
      tagged "device_approved" [("deviceId", .string deviceId)]
  | deviceRejected deviceId =>
      tagged "device_rejected" [("deviceId", .string deviceId)]
  | sessionSpawnRequest cols rows accountId =>
      tagged "session_spawn_request"
        ([("cols", ofNat cols.toNat), ("rows", ofNat rows.toNat)] ++
          optionalString "accountId" accountId)
  | sessionListRequest => tagged "session_list_request" []
  | sessionList sessions accounts =>
      tagged "session_list"
        ([("sessions", .array (sessions.map SessionInfo.toJson))] ++
          optional "accounts"
            (accounts.map fun roster => .array (roster.map AccountMeta.toJson)))
  | sessionCreated sessionId label createdAt cols rows accountId =>
      tagged "session_created"
        ([("sessionId", .string sessionId), ("label", .string label)] ++
          optional "createdAt" (createdAt.map fun t => ofNat t.toNat) ++
          optional "cols" (cols.map fun n => ofNat n.toNat) ++
          optional "rows" (rows.map fun n => ofNat n.toNat) ++
          optionalString "accountId" accountId)
  | sessionRenamed sessionId label =>
      tagged "session_renamed"
        [("sessionId", .string sessionId), ("label", .string label)]
  | sessionClosed sessionId =>
      tagged "session_closed" [("sessionId", .string sessionId)]
  | sessionCloseRequest sessionId =>
      tagged "session_close_request" [("sessionId", .string sessionId)]
  | sessionNotification sessionId title body =>
      tagged "session_notification"
        [("sessionId", .string sessionId), ("title", .string title),
          ("body", .string body)]
  | contextUpdate sessionId usedPct usedTokens maxTokens =>
      tagged "context_update"
        ([("sessionId", .string sessionId),
          ("usedPct", .number (.float usedPct.text))] ++
          optional "usedTokens" (usedTokens.map fun n => ofNat n.toNat) ++
          optional "maxTokens" (maxTokens.map fun n => ofNat n.toNat))
  | pushSubscribe subscription =>
      tagged "push_subscribe" [("subscription", subscription.json)]
  | pushUnsubscribe => tagged "push_unsubscribe" []
  | vapidKeyRequest => tagged "vapid_key_request" []
  | vapidPublicKey key => tagged "vapid_public_key" [("key", .string key)]
  | ptyResize sessionId cols rows =>
      tagged "pty_resize"
        [("sessionId", .string sessionId), ("cols", ofNat cols.toNat),
          ("rows", ofNat rows.toNat)]
  | ptyResized sessionId cols rows =>
      tagged "pty_resized"
        [("sessionId", .string sessionId), ("cols", ofNat cols.toNat),
          ("rows", ofNat rows.toNat)]
  | replayBegin => tagged "replay_begin" []
  | resyncRequired => tagged "resync_required" []
  | fileUploadBegin uploadId kind name size mime sessionId =>
      tagged "file_upload_begin"
        ([("upload_id", .string uploadId), ("kind", .string kind),
          ("name", .string name), ("size", ofNat size.toNat),
          ("mime", .string mime)] ++
          optionalString "session_id" sessionId)
  | fileUploadEnd uploadId text =>
      tagged "file_upload_end"
        ([("upload_id", .string uploadId)] ++ optionalString "text" text)
  | fileUploadResult uploadId ok path error =>
      tagged "file_upload_result"
        ([("upload_id", .string uploadId), ("ok", .bool ok)] ++
          optionalString "path" path ++ optionalString "error" error)
  | fileDownloadRequest downloadId sessionId path =>
      tagged "file_download_request"
        [("download_id", .string downloadId), ("session_id", .string sessionId),
          ("path", .string path)]
  | fileDownloadBegin downloadId name size mime =>
      tagged "file_download_begin"
        [("download_id", .string downloadId), ("name", .string name),
          ("size", ofNat size.toNat), ("mime", .string mime)]
  | fileDownloadEnd downloadId ok error =>
      tagged "file_download_end"
        ([("download_id", .string downloadId), ("ok", .bool ok)] ++
          optionalString "error" error)
  | supervisorQuery id kind sessionId text lastFingerprint =>
      tagged "supervisor_query"
        ([("id", .string id), ("kind", .string kind)] ++
          optionalString "sessionId" sessionId ++
          optionalString "text" text ++
          optionalString "lastFingerprint" lastFingerprint)
  | supervisorResult id payload =>
      tagged "supervisor_result" [("id", .string id), ("payload", payload.json)]
  | supervisorError id message =>
      tagged "supervisor_error" [("id", .string id), ("message", .string message)]
  | ping => tagged "ping" []
  | pong => tagged "pong" []
  | desktopStatus online capabilities =>
      tagged "desktop_status"
        ([("online", .bool online)] ++
          optional "capabilities" (capabilities.map ofStrings))
  | relayShuttingDown => tagged "relay_shutting_down" []
  | connectedDevicesRequest => tagged "connected_devices_request" []
  | connectedDevicesList devices =>
      tagged "connected_devices_list"
        [("devices", .array (devices.map DeviceInfo.toJson))]
  | deviceRevoke deviceId =>
      tagged "device_revoke" [("deviceId", .string deviceId)]
  | deviceRevoked deviceId =>
      tagged "device_revoked" [("deviceId", .string deviceId)]

/-- `serde_json::to_string` of a control message. -/
def toText (m : ControlMessage) : String :=
  m.toJson.toText

end ControlMessage

end CommandRelay
