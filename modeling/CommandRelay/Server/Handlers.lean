import CommandRelay.Server.Calls

/-!
# The socket handlers

What the relay does with one inbound frame, and with the end of a socket, as
programs over atomic calls.  The role is the one the socket had when the frame
arrived; a handler changes it through a call.
-/

namespace CommandRelay

open Foundation

abbrev Handler := Program Call Call.Reply

def maxTextMessageSize : Nat := 16 * 1024
def maxBinaryMessageSize : Nat := 64 * 1024
def maxBugReportUploadSize : Nat := 10 * 1024 * 1024
def maxPushSubscriptionLen : Nat := 4096

/--
An inbound WebSocket frame.  A text frame is its length in bytes and the control
message it parses to, if it does.
-/
inductive Inbound where
  | text (size : Nat) (parsed : Option ControlMessage)
  | binary (data : Bytes)
  | other

def isValidUsername (username : String) : Bool :=
  !username.isEmpty && decide (username.utf8ByteSize ≤ 32) &&
    username.toList.all fun c => c.isAlphanum || c = '_'

namespace Handler

def ask (c : Call) : Handler c.Reply :=
  Program.perform c

def act (c : Call) : Handler Unit :=
  Program.invoke c fun _ => Program.done ()

def skip : Handler Unit :=
  Program.done ()

def send (tx : ConnId) (msg : WsMessage) : Handler Unit :=
  act (.broker (.send tx msg))

def sendTo (tx : Option ConnId) (msg : WsMessage) : Handler Unit :=
  match tx with
  | none => skip
  | some tx => send tx msg

def sendToDesktop (username : String) (msg : WsMessage) : Handler Unit :=
  act (.broker (.sendToDesktop username msg))

def broadcastToClients (username : String) (msg : WsMessage) : Handler Unit :=
  act (.broker (.broadcastToClients username msg))

def sendAuthError (c : ConnId) (error : String) : Handler Unit :=
  send c (.text (.authResult false none none (some error) none))

def sendUploadFailure (c : ConnId) (uploadId reason : String) : Handler Unit :=
  send c (.text (.fileUploadResult uploadId false none (some reason)))

def sendSupervisorError (c : ConnId) (id message : String) : Handler Unit :=
  send c (.text (.supervisorError id message))

/-!
## Authentication
-/

def authDesktopKey (username key : String) (c : ConnId) : Handler Unit := do
  match <- ask (.verifyDesktopKey username key) with
  | .ok true =>
      act (.clearRateLimit username)
      send c (.text (.authResult true none (some "desktop") none none))
      act (.setRole (.client username "desktop"))
  | _ =>
      act (.recordFailure username)
      sendAuthError c "invalid_credentials"

def enrolDevice (username : String) (c : ConnId) (ip : String) : Handler Unit := do
  act (.clearRateLimit username)
  match <- ask (.broker (.isDesktopOnline username)) with
  | false => sendAuthError c "desktop_offline"
  | true =>
      match <- ask (.registerDevice username "Pending device" ip) with
      | .error _ => sendAuthError c "internal_error"
      | .ok deviceId =>
          sendToDesktop username (.text (.devicePending deviceId "Pending device" ip))
          act (.broker (.addPendingDevice username
            { deviceId := deviceId, deviceName := "Pending device", ip := ip,
              clientTx := c }))

def authTotp (username : String) (totp : Option String) (c : ConnId) (ip : String) :
    Handler Unit := do
  match <- ask (.hasTotp username) with
  | .ok true =>
      match totp with
      | none => sendAuthError c "totp_required"
      | some code =>
          match <- ask (.verifyTotp username code) with
          | .ok _ => enrolDevice username c ip
          | .error _ =>
              act (.recordFailure username)
              sendAuthError c "invalid_totp"
  | _ => enrolDevice username c ip

def authPassword (username : String) (passwordHash totp : Option String) (c : ConnId)
    (ip : String) : Handler Unit := do
  match passwordHash with
  | none => sendAuthError c "invalid_credentials"
  | some passwordHash =>
      match <- ask (.verifyPassword username passwordHash) with
      | .ok _ => authTotp username totp c ip
      | .error _ =>
          act (.recordFailure username)
          sendAuthError c "invalid_credentials"

def welcomeDevice (username deviceId : String) (c : ConnId) (ip : String) :
    Handler Unit := do
  act (.clearRateLimit username)
  act (.updateDeviceLastSeen deviceId ip)
  match <- ask (.createJwt username deviceId) with
  | .error _ => act .panic
  | .ok token =>
      send c (.text (.authResult true (some token) (some deviceId) none none))
      act (.setRole (.client username deviceId))
      let connectedAt <- ask .utcNow
      act (.broker (.registerClient username c
        { deviceId := deviceId, deviceName := "Returning device", ip := ip,
          connectedAt := connectedAt }))

def authDeviceToken (username token : String) (passwordHash totp : Option String)
    (c : ConnId) (ip : String) : Handler Unit := do
  match <- ask (.validateJwt token) with
  | .error _ => authPassword username passwordHash totp c ip
  | .ok claims =>
      if claims.sub = username then
        match <- ask (.isDeviceRegistered claims.deviceId username) with
        | true => welcomeDevice username claims.deviceId c ip
        | false => authPassword username passwordHash totp c ip
      else authPassword username passwordHash totp c ip

def handleAuth (username : String) (passwordHash totp deviceToken desktopKey : Option String)
    (c : ConnId) (ip : String) : Handler Unit := do
  match <- ask (.checkRateLimit username) with
  | some retryAfter =>
      send c (.text (.authResult false none none (some "rate_limited")
        (some (UInt64.ofNat retryAfter))))
  | none =>
      match desktopKey, deviceToken with
      | some key, _ => authDesktopKey username key c
      | none, some token => authDeviceToken username token passwordHash totp c ip
      | none, none => authPassword username passwordHash totp c ip

def handleDesktopRegister (capabilities : Option (List String)) (role : ConnectionRole)
    (c : ConnId) : Handler Unit := do
  match role with
  | .client username _ =>
      act (.broker (.registerDesktop username c capabilities))
      act (.setRole (.desktop username))
      send c (.text .desktopRegistered)
  | _ => skip

/-!
## Uploads
-/

def handleFileUploadBegin (msg : ControlMessage) (uploadId kind : String) (size : UInt64)
    (role : ConnectionRole) (c : ConnId) : Handler Unit := do
  match role with
  | .unauthenticated => skip
  | .client username _ =>
      if kind = "bug_report" ∧ maxBugReportUploadSize < size.toNat then
        sendUploadFailure c uploadId "file_too_large"
      else
        match <- ask (.broker (.beginUpload username uploadId size.toNat c)) with
        | .error reason => sendUploadFailure c uploadId reason
        | .ok _ =>
            if kind = "bug_report" then
              act (.broker (.markBugReportUpload username uploadId c))
              sendToDesktop username (.text msg)
            else
              sendToDesktop username (.text msg)
  -- The desktop publishes its own bug reports, and nothing else, on this path.
  | .desktop username =>
      if kind ≠ "bug_report" ∨ maxBugReportUploadSize < size.toNat then skip
      else
        match <- ask (.broker (.beginUpload username uploadId size.toNat c)) with
        | .error _ => skip
        | .ok _ => act (.broker (.markBugReportUpload username uploadId c))

def finishUpload (msg : ControlMessage) (username uploadId : String) (c : ConnId) :
    Handler Unit := do
  act (.broker (.finishUpload username uploadId c))
  sendToDesktop username (.text msg)

def handleFileUploadEnd (msg : ControlMessage) (uploadId : String) (text : Option String)
    (role : ConnectionRole) (c : ConnId) : Handler Unit := do
  match role with
  | .unauthenticated => skip
  | .client username deviceId =>
      match <- ask (.broker (.takeBugReportBuffer username uploadId c)) with
      | none => finishUpload msg username uploadId c
      | some screenshot =>
          act (.persistBugReport username deviceId none (text.getD "") screenshot)
          match <- ask (.broker (.isDesktopOnline username)) with
          | true => finishUpload msg username uploadId c
          | false =>
              act (.broker (.resolveUpload username uploadId))
              send c (.text (.fileUploadResult uploadId true none none))
  | .desktop username =>
      match <- ask (.broker (.takeBugReportBuffer username uploadId c)) with
      | none => act (.broker (.resolveUpload username uploadId))
      | some screenshot =>
          act (.persistBugReport username "desktop" (some "Desktop") (text.getD "")
            screenshot)
          act (.broker (.resolveUpload username uploadId))

def handleFileUploadResult (msg : ControlMessage) (uploadId : String)
    (role : ConnectionRole) : Handler Unit := do
  match role with
  | .desktop username =>
      sendTo (<- ask (.broker (.resolveUpload username uploadId))) (.text msg)
  | _ => skip

/-!
## Downloads
-/

def handleFileDownloadRequest (msg : ControlMessage) (downloadId : String)
    (role : ConnectionRole) (c : ConnId) : Handler Unit := do
  match role with
  | .client username _ =>
      match <- ask (.broker (.registerDownload username downloadId c)) with
      | .ok _ => sendToDesktop username (.text msg)
      | .error reason => send c (.text (.fileDownloadEnd downloadId false (some reason)))
  | _ => skip

def handleFileDownloadBegin (msg : ControlMessage) (downloadId : String) (size : UInt64)
    (role : ConnectionRole) : Handler Unit := do
  match role with
  | .desktop username =>
      sendTo (<- ask (.broker (.noteDownloadBegin username downloadId size.toNat)))
        (.text msg)
  | _ => skip

def handleFileDownloadEnd (msg : ControlMessage) (downloadId : String)
    (role : ConnectionRole) : Handler Unit := do
  match role with
  | .desktop username =>
      sendTo (<- ask (.broker (.resolveDownload username downloadId))) (.text msg)
  | _ => skip

/-!
## Replay bursts and supervisor queries
-/

def handleSessionListRequest (role : ConnectionRole) (c : ConnId) : Handler Unit := do
  match role with
  | .client username deviceId =>
      act (.broker (.noteSessionListRequest username deviceId c))
      sendToDesktop username (.text .sessionListRequest)
  | _ => skip

def handleReplayBegin (role : ConnectionRole) : Handler Unit := do
  match role with
  | .desktop username => act (.broker (.beginReplay username))
  | _ => skip

def handleSessionList (msg : ControlMessage) (role : ConnectionRole) : Handler Unit := do
  match role with
  | .desktop username =>
      match <- ask (.broker (.endReplay username)) with
      | some tx => send tx (.text msg)
      | none => broadcastToClients username (.text msg)
  | _ => skip

def handleSupervisorQuery (msg : ControlMessage) (id : String) (role : ConnectionRole)
    (c : ConnId) : Handler Unit := do
  match role with
  | .client username _ =>
      match <- ask (.broker (.isDesktopOnline username)) with
      | false => sendSupervisorError c id "desktop offline"
      | true =>
          match <- ask (.broker (.beginSupervisorQuery username id c)) with
          | .replay stored => send c (.text stored)
          | .reowned => skip
          | .capacity => sendSupervisorError c id "too many pending supervisor queries"
          | .forward => sendToDesktop username (.text msg)
  | _ => skip

def handleSupervisorReply (msg : ControlMessage) (id : String) (role : ConnectionRole) :
    Handler Unit := do
  match role with
  | .desktop username => act (.broker (.resolveSupervisor username id msg))
  | _ => skip

/-!
## Forwarding
-/

def forwardToDesktop (msg : ControlMessage) (role : ConnectionRole) : Handler Unit := do
  match role with
  | .client username _ => sendToDesktop username (.text msg)
  | _ => skip

def forwardToClients (msg : ControlMessage) (role : ConnectionRole) : Handler Unit := do
  match role with
  | .desktop username => broadcastToClients username (.text msg)
  | _ => skip

def handleSessionRenamed (msg : ControlMessage) (role : ConnectionRole) : Handler Unit := do
  match role with
  | .client username _ => sendToDesktop username (.text msg)
  | .desktop username => broadcastToClients username (.text msg)
  | .unauthenticated => skip

/-- `chars().take(n).collect()`. -/
def takeChars (n : Nat) (s : String) : String :=
  String.ofList (s.toList.take n)

def handleSessionNotification (sessionId title body : String) (role : ConnectionRole) :
    Handler Unit := do
  match role with
  | .desktop username =>
      let title := takeChars 120 title
      let body := takeChars 300 body
      broadcastToClients username (.text (.sessionNotification sessionId title body))
      act (.pushToUser username
        (.object [("body", .string body), ("sessionId", .string sessionId),
          ("title", .string title)]))
  | _ => skip

/-!
## Web push
-/

def handlePushSubscribe (env : Env) (subscription : Json.Value) (role : ConnectionRole) :
    Handler Unit := do
  match role with
  | .client username deviceId =>
      -- The synthetic device of a desktop key has no row to attach to.
      if deviceId = "desktop" then skip
      else
        match (subscription.get? "endpoint").bind Json.asStr? with
        | none => skip
        | some endpoint =>
            if isValidPushEndpoint env.parseUrl endpoint then
              if subscription.toText.utf8ByteSize ≤ maxPushSubscriptionLen then
                act (.upsertPushSubscription deviceId username subscription.toText)
              else skip
            else skip
  | _ => skip

def handlePushUnsubscribe (role : ConnectionRole) : Handler Unit := do
  match role with
  | .client _ deviceId => act (.removePushSubscription deviceId)
  | _ => skip

def handleVapidKeyRequest (role : ConnectionRole) (c : ConnId) : Handler Unit := do
  match role with
  | .unauthenticated => skip
  | _ =>
      let key <- ask .publicKey
      send c (.text (.vapidPublicKey key))

/-!
## Devices
-/

/-- The approved client gets a token, and is registered so that the desktop's
messages flow while it authenticates again. -/
def approveClient (username : String) (pending : PendingDevice) : Handler Unit := do
  match <- ask (.createJwt username pending.deviceId) with
  | .error _ => skip
  | .ok token =>
      send pending.clientTx
        (.text (.authResult true (some token) (some pending.deviceId) none none))
      let connectedAt <- ask .utcNow
      act (.broker (.registerClient username pending.clientTx
        { deviceId := pending.deviceId, deviceName := pending.deviceName,
          ip := pending.ip, connectedAt := connectedAt }))

def handleDeviceApproved (deviceId : String) (role : ConnectionRole) : Handler Unit := do
  match role with
  | .desktop username =>
      match <- ask (.broker (.takePendingDevice username deviceId)) with
      | none => skip
      | some pending =>
          act (.updateDeviceLastSeen pending.deviceId pending.ip)
          approveClient username pending
  | _ => skip

def handleDeviceRejected (deviceId : String) (role : ConnectionRole) : Handler Unit := do
  match role with
  | .desktop username =>
      match <- ask (.broker (.takePendingDevice username deviceId)) with
      | none => skip
      | some pending =>
          send pending.clientTx
            (.text (.authResult false none none (some "device_rejected") none))
          act (.revokeDevice pending.deviceId)
  | _ => skip

def handleConnectedDevicesRequest (role : ConnectionRole) (c : ConnId) :
    Handler Unit := do
  match role with
  | .desktop username =>
      let clients <- ask (.broker (.getConnectedClients username))
      send c (.text (.connectedDevicesList (clients.map fun info =>
        { id := info.deviceId, name := info.deviceName, ip := info.ip,
          connectedAt := info.connectedAt })))
  | _ => skip

def handleDeviceRevoke (deviceId : String) (role : ConnectionRole) (c : ConnId) :
    Handler Unit := do
  match role with
  | .desktop username =>
      act (.broker (.sendToClient username deviceId (.text (.deviceRevoked deviceId))))
      act (.broker (.unregisterDevice username deviceId))
      act (.revokeDevice deviceId)
      send c (.text (.deviceRevoked deviceId))
  | _ => skip

/-!
## Dispatch
-/

def handleControlMessage (env : Env) (msg : ControlMessage) (role : ConnectionRole)
    (c : ConnId) (ip : String) : Handler Unit :=
  match msg with
  | .hello .. => skip
  | .ping => send c (.text .pong)
  | .pong => skip
  | .auth _ username passwordHash totp deviceToken desktopKey =>
      if isValidUsername username then
        handleAuth username passwordHash totp deviceToken desktopKey c ip
      else sendAuthError c "invalid_username"
  | .desktopRegister _ capabilities => handleDesktopRegister capabilities role c
  | .sessionSpawnRequest .. | .sessionCloseRequest _ | .ptyResize .. =>
      forwardToDesktop msg role
  | .fileUploadBegin uploadId kind _ size _ _ =>
      handleFileUploadBegin msg uploadId kind size role c
  | .fileUploadEnd uploadId text => handleFileUploadEnd msg uploadId text role c
  | .fileUploadResult uploadId .. => handleFileUploadResult msg uploadId role
  | .fileDownloadRequest downloadId .. => handleFileDownloadRequest msg downloadId role c
  | .fileDownloadBegin downloadId _ size _ =>
      handleFileDownloadBegin msg downloadId size role
  | .fileDownloadEnd downloadId .. => handleFileDownloadEnd msg downloadId role
  | .sessionListRequest => handleSessionListRequest role c
  | .replayBegin => handleReplayBegin role
  | .supervisorQuery id .. => handleSupervisorQuery msg id role c
  | .supervisorResult id _ | .supervisorError id _ => handleSupervisorReply msg id role
  | .sessionRenamed .. => handleSessionRenamed msg role
  | .sessionCreated .. | .sessionClosed _ | .contextUpdate .. | .ptyResized .. =>
      forwardToClients msg role
  | .sessionList .. => handleSessionList msg role
  | .sessionNotification sessionId title body =>
      handleSessionNotification sessionId title body role
  | .pushSubscribe subscription => handlePushSubscribe env subscription role
  | .pushUnsubscribe => handlePushUnsubscribe role
  | .vapidKeyRequest => handleVapidKeyRequest role c
  | .deviceApproved deviceId => handleDeviceApproved deviceId role
  | .deviceRejected deviceId => handleDeviceRejected deviceId role
  | .connectedDevicesRequest => handleConnectedDevicesRequest role c
  | .deviceRevoke deviceId => handleDeviceRevoke deviceId role c
  | .authResult .. | .desktopRegistered | .devicePending .. | .resyncRequired => skip
  | .vapidPublicKey _ | .desktopStatus .. | .relayShuttingDown => skip
  | .connectedDevicesList _ | .deviceRevoked _ => skip

def handleFileChunk (data : Slice) (uploadId : String) (username : String) (c : ConnId) :
    Handler Unit := do
  match <- ask (.broker (.recordUploadChunk username uploadId c
    (data.drop binaryHeaderLen))) with
  | .forward => sendToDesktop username (.binary data.bytes)
  | .overrun => sendUploadFailure c uploadId "size_exceeded"
  | .drop => skip

def handleFileDownloadChunk (data : Slice) (downloadId : String) (username : String) :
    Handler Unit := do
  match <- ask (.broker (.recordDownloadChunk username downloadId
    (data.drop binaryHeaderLen))) with
  | .forward tx => send tx (.binary data.bytes)
  | .overrun tx => send tx (.text (.fileDownloadEnd downloadId false (some "size_exceeded")))
  | .drop => skip

def handleScrollback (data : Slice) (username : String) : Handler Unit := do
  match <- ask (.broker (.replayTarget username)) with
  | some tx => send tx (.binary data.bytes)
  | none => broadcastToClients username (.binary data.bytes)

def handleBinaryMessage (data : Slice) (role : ConnectionRole) (c : ConnId) :
    Handler Unit := do
  match parseBinaryFrame data.bytes with
  | .error _ => skip
  | .ok (frameType, uploadId, _) =>
      match role with
      | .unauthenticated => skip
      | .client username _ =>
          if frameType = ptyInput then sendToDesktop username (.binary data.bytes)
          else if frameType = ptyFileChunk then handleFileChunk data uploadId username c
          else skip
      | .desktop username =>
          if frameType = ptyFileChunk then
            act (.broker (.recordUploadChunk username uploadId c
              (data.drop binaryHeaderLen)))
          else if frameType = ptyFileDownloadChunk then
            handleFileDownloadChunk data uploadId username
          else if frameType = ptyOutput then
            broadcastToClients username (.binary data.bytes)
          else if frameType = ptyScrollback then handleScrollback data username
          else skip

def processWsMessage (env : Env) (frame : Inbound) (role : ConnectionRole) (c : ConnId)
    (ip : String) : Handler Unit :=
  match frame with
  | .text size parsed =>
      if maxTextMessageSize < size then skip
      else
        match parsed with
        | none => skip
        | some msg => handleControlMessage env msg role c ip
  | .binary data =>
      if h : maxBinaryMessageSize < data.length then skip
      else
        handleBinaryMessage
          ⟨data, Nat.lt_of_le_of_lt (Nat.le_of_not_lt h) (by decide)⟩ role c
  | .other => skip

/-- The end of `handle_socket`: clean up under the last role, then close. -/
def cleanup (role : ConnectionRole) (c : ConnId) : Handler Unit := do
  match role with
  | .desktop username =>
      act (.broker (.unregisterDesktop username c))
      send c .close
  | .client username deviceId =>
      act (.broker (.unregisterClient username deviceId c))
      send c .close
  | .unauthenticated => send c .close

def serverHello : ControlMessage :=
  .hello 1 none (some "0.1.0")

end Handler

end CommandRelay
