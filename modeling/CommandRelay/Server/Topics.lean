import CommandRelay.Broker.Relayed
import CommandRelay.Server.Discipline
import CommandRelay.Server.Routine

/-!
# Messages that a handler never writes itself

Most handlers write a few messages of their own and pass the frame on that they were called
for.  So they send nothing of a topic that none of their own messages belongs to, unless the
frame does.
-/

namespace CommandRelay

open Foundation

def ControlMessage.isWritten : ControlMessage -> Bool
  | .authResult success .. => !success
  | .desktopRegistered | .devicePending .. | .pong | .vapidPublicKey _ => true
  | .fileUploadResult .. | .fileDownloadEnd .. | .supervisorError .. => true
  | .connectedDevicesList _ | .deviceRevoked _ => true
  | .sessionListRequest | .sessionNotification .. => true
  | _ => false

/-- A kind of messages that neither the broker nor those handlers write. -/
structure Topic where
  is : WsMessage -> Bool
  foreign : WsMessage.Foreign is
  written : forall {msg : ControlMessage}, msg.isWritten = true -> is (.text msg) = false
  binary : forall bytes, is (.binary bytes) = false

def ControlMessage.isOrdinary : ControlMessage -> Bool
  | .auth .. | .deviceApproved _ | .supervisorQuery .. => false
  | _ => true

namespace Call

def omits (topic : Topic) : Call -> Bool
  | broker op => (op.given topic.is).isNone
  | _ => true

theorem omits_of_given {topic : Topic} {op : BrokerCall} {msg : WsMessage}
    (hop : op.given topic.is = msg.ofKind topic.is) (hmsg : topic.is msg = false) :
    (broker op).omits topic = true := by
  show (op.given topic.is).isNone = true
  rw [hop, WsMessage.ofKind_eq_none.mpr hmsg]
  rfl

theorem omits_of_written {topic : Topic} {op : BrokerCall} {msg : ControlMessage}
    (hop : op.given topic.is = (WsMessage.text msg).ofKind topic.is)
    (hmsg : msg.isWritten = true) : (broker op).omits topic = true :=
  omits_of_given hop (topic.written hmsg)

end Call

namespace Handler

open Call

def Omits (topic : Topic) (task : Handler Unit) : Prop :=
  Makes (Call.omits topic) task

theorem obeys_of_omits {topic : Topic} {task : Handler Unit} (h : Omits topic task)
    {allowed : List CallAnswer -> Call -> Prop}
    (hallowed : forall past call, call.omits topic = true -> allowed past call)
    (past : List CallAnswer) : Program.Obeys allowed past task fun _ _ => True := by
  unfold Omits Makes at h
  generalize ([] : List CallAnswer) = seen at h
  induction task generalizing seen past with
  | done value => trivial
  | invoke call next ih => exact ⟨hallowed past call h.1, fun r => ih r _ _ (h.2 r)⟩

section

variable {topic : Topic} {msg : ControlMessage} {id kind u d title body ip : String}
  {text passwordHash totp : Option String} {size : UInt64} {role : ConnectionRole} {c : ConnId}
  {data : Slice}

theorem enrolDevice_omits : Omits topic (enrolDevice u c ip) := by
  refine makes_then rfl (makes_ask rfl fun online => ?_)
  cases online with
  | false => exact makes_act (omits_of_written rfl rfl)
  | true =>
      refine makes_ask rfl fun registered => ?_
      cases registered with
      | error _ => exact makes_act (omits_of_written rfl rfl)
      | ok deviceId => exact makes_then (omits_of_written rfl rfl) (makes_act rfl)

theorem authTotp_omits : Omits topic (authTotp u totp c ip) := by
  refine makes_ask rfl fun configured => ?_
  split
  · cases totp with
    | none => exact makes_act (omits_of_written rfl rfl)
    | some code =>
        refine makes_ask rfl fun verified => ?_
        cases verified with
        | ok _ => exact enrolDevice_omits
        | error _ => exact makes_then rfl (makes_act (omits_of_written rfl rfl))
  · exact enrolDevice_omits

theorem authPassword_omits : Omits topic (authPassword u passwordHash totp c ip) := by
  cases passwordHash with
  | none => exact makes_act (omits_of_written rfl rfl)
  | some passwordHash =>
      refine makes_ask rfl fun verified => ?_
      cases verified with
      | ok _ => exact authTotp_omits
      | error _ => exact makes_then rfl (makes_act (omits_of_written rfl rfl))

theorem handleDesktopRegister_omits {capabilities : Option (List String)} :
    Omits topic (handleDesktopRegister capabilities role c) := by
  cases role with
  | client u d => exact makes_then rfl (makes_then rfl (makes_act (omits_of_written rfl rfl)))
  | _ => exact makes_skip

theorem handlePushSubscribe_omits {env : Env} {subscription : Json.Value} :
    Omits topic (handlePushSubscribe env subscription role) := by
  cases role with
  | client u d =>
      simp only [handlePushSubscribe]
      split
      · exact makes_skip
      · split
        · exact makes_skip
        · split
          · split
            · exact makes_act rfl
            · exact makes_skip
          · exact makes_skip
  | _ => exact makes_skip

theorem handlePushUnsubscribe_omits : Omits topic (handlePushUnsubscribe role) := by
  cases role with
  | client u d => exact makes_act rfl
  | _ => exact makes_skip

theorem handleVapidKeyRequest_omits : Omits topic (handleVapidKeyRequest role c) := by
  cases role with
  | unauthenticated => exact makes_skip
  | _ => exact makes_ask rfl fun _ => makes_act (omits_of_written rfl rfl)

theorem handleDeviceRejected_omits : Omits topic (handleDeviceRejected d role) := by
  cases role with
  | desktop u =>
      refine makes_ask rfl fun taken => ?_
      cases taken with
      | none => exact makes_skip
      | some pending => exact makes_then (omits_of_written rfl rfl) (makes_act rfl)
  | _ => exact makes_skip

theorem handleConnectedDevicesRequest_omits :
    Omits topic (handleConnectedDevicesRequest role c) := by
  cases role with
  | desktop u => exact makes_ask rfl fun _ => makes_act (omits_of_written rfl rfl)
  | _ => exact makes_skip

theorem handleDeviceRevoke_omits : Omits topic (handleDeviceRevoke d role c) := by
  cases role with
  | desktop u =>
      refine makes_then (omits_of_written rfl rfl) (makes_then rfl (makes_then rfl ?_))
      exact makes_act (omits_of_written rfl rfl)
  | _ => exact makes_skip

theorem handleReplayBegin_omits : Omits topic (handleReplayBegin role) := by
  cases role with
  | desktop u => exact makes_act rfl
  | _ => exact makes_skip

/-! What is passed on is not of the topic either. -/

section

variable (hmsg : topic.is (.text msg) = false)
include hmsg

theorem sendTo_omits (tx : Option ConnId) : Omits topic (sendTo tx (.text msg)) := by
  cases tx with
  | none => exact makes_skip
  | some tx => exact makes_act (omits_of_given rfl hmsg)

theorem sendToDesktop_omits : Omits topic (sendToDesktop u (.text msg)) :=
  makes_act (omits_of_given rfl hmsg)

theorem broadcastToClients_omits : Omits topic (broadcastToClients u (.text msg)) :=
  makes_act (omits_of_given rfl hmsg)

theorem handleFileUploadBegin_omits :
    Omits topic (handleFileUploadBegin msg id kind size role c) := by
  cases role with
  | unauthenticated => exact makes_skip
  | client u d =>
      simp only [handleFileUploadBegin]
      split
      · exact makes_act (omits_of_written rfl rfl)
      · refine makes_ask rfl fun begun => ?_
        cases begun with
        | error reason => exact makes_act (omits_of_written rfl rfl)
        | ok _ =>
            by_cases hkind : kind = "bug_report"
            · simp only [if_pos hkind]
              exact makes_then rfl (sendToDesktop_omits hmsg)
            · simp only [if_neg hkind]
              exact sendToDesktop_omits hmsg
  | desktop u =>
      simp only [handleFileUploadBegin]
      split
      · exact makes_skip
      · refine makes_ask rfl fun begun => ?_
        cases begun with
        | error _ => exact makes_skip
        | ok _ => exact makes_act rfl

theorem finishUpload_omits : Omits topic (finishUpload msg u id c) :=
  makes_then rfl (sendToDesktop_omits hmsg)

theorem handleFileUploadEnd_omits :
    Omits topic (handleFileUploadEnd msg id text role c) := by
  cases role with
  | unauthenticated => exact makes_skip
  | client u d =>
      refine makes_ask rfl fun buffer => ?_
      cases buffer with
      | none => exact finishUpload_omits hmsg
      | some screenshot =>
          refine makes_then rfl (makes_ask rfl fun online => ?_)
          cases online with
          | true => exact finishUpload_omits hmsg
          | false => exact makes_then rfl (makes_act (omits_of_written rfl rfl))
  | desktop u =>
      refine makes_ask rfl fun buffer => ?_
      cases buffer with
      | none => exact makes_act rfl
      | some screenshot => exact makes_then rfl (makes_act rfl)

theorem handleFileUploadResult_omits :
    Omits topic (handleFileUploadResult msg id role) := by
  cases role with
  | desktop u => exact makes_ask rfl fun tx => sendTo_omits hmsg tx
  | _ => exact makes_skip

theorem handleFileDownloadRequest_omits :
    Omits topic (handleFileDownloadRequest msg id role c) := by
  cases role with
  | client u d =>
      refine makes_ask rfl fun granted => ?_
      cases granted with
      | error reason => exact makes_act (omits_of_written rfl rfl)
      | ok _ => exact sendToDesktop_omits hmsg
  | _ => exact makes_skip

theorem handleFileDownloadBegin_omits :
    Omits topic (handleFileDownloadBegin msg id size role) := by
  cases role with
  | desktop u => exact makes_ask rfl fun tx => sendTo_omits hmsg tx
  | _ => exact makes_skip

theorem handleFileDownloadEnd_omits :
    Omits topic (handleFileDownloadEnd msg id role) := by
  cases role with
  | desktop u => exact makes_ask rfl fun tx => sendTo_omits hmsg tx
  | _ => exact makes_skip

theorem handleSessionList_omits : Omits topic (handleSessionList msg role) := by
  cases role with
  | desktop u =>
      refine makes_ask rfl fun target => ?_
      cases target with
      | none => exact broadcastToClients_omits hmsg
      | some tx => exact sendTo_omits hmsg (some tx)
  | _ => exact makes_skip

theorem handleSupervisorReply_omits :
    Omits topic (handleSupervisorReply msg id role) := by
  cases role with
  | desktop u => exact makes_act (omits_of_given rfl hmsg)
  | _ => exact makes_skip

theorem forwardToDesktop_omits : Omits topic (forwardToDesktop msg role) := by
  cases role with
  | client u d => exact sendToDesktop_omits hmsg
  | _ => exact makes_skip

theorem forwardToClients_omits : Omits topic (forwardToClients msg role) := by
  cases role with
  | desktop u => exact broadcastToClients_omits hmsg
  | _ => exact makes_skip

theorem handleSessionRenamed_omits :
    Omits topic (handleSessionRenamed msg role) := by
  cases role with
  | unauthenticated => exact makes_skip
  | client u d => exact sendToDesktop_omits hmsg
  | desktop u => exact broadcastToClients_omits hmsg

end

theorem handleSessionListRequest_omits :
    Omits topic (handleSessionListRequest role c) := by
  cases role with
  | client u d => exact makes_then rfl (makes_act (omits_of_written rfl rfl))
  | _ => exact makes_skip

theorem handleSessionNotification_omits :
    Omits topic (handleSessionNotification id title body role) := by
  cases role with
  | desktop u => exact makes_then (omits_of_written rfl rfl) (makes_act rfl)
  | _ => exact makes_skip

theorem handleFileChunk_omits : Omits topic (handleFileChunk data id u c) := by
  refine makes_ask rfl fun decision => ?_
  cases decision with
  | forward => exact makes_act (omits_of_given rfl (topic.binary _))
  | overrun => exact makes_act (omits_of_written rfl rfl)
  | drop => exact makes_skip

theorem handleFileDownloadChunk_omits :
    Omits topic (handleFileDownloadChunk data id u) := by
  refine makes_ask rfl fun decision => ?_
  cases decision with
  | forward tx => exact makes_act (omits_of_given rfl (topic.binary _))
  | overrun tx => exact makes_act (omits_of_written rfl rfl)
  | drop => exact makes_skip

theorem handleScrollback_omits : Omits topic (handleScrollback data u) := by
  refine makes_ask rfl fun target => ?_
  cases target with
  | none => exact makes_act (omits_of_given rfl (topic.binary _))
  | some tx => exact makes_act (omits_of_given rfl (topic.binary _))

theorem handleBinaryMessage_omits (data : Slice) :
    Omits topic (handleBinaryMessage data role c) := by
  unfold handleBinaryMessage
  split
  · exact makes_skip
  · cases role with
    | unauthenticated => exact makes_skip
    | client u d =>
        simp only []
        split
        · exact makes_act (omits_of_given rfl (topic.binary _))
        · split
          · exact handleFileChunk_omits
          · exact makes_skip
    | desktop u =>
        simp only []
        split
        · exact makes_act rfl
        · split
          · exact handleFileDownloadChunk_omits
          · split
            · exact makes_act (omits_of_given rfl (topic.binary _))
            · split
              · exact handleScrollback_omits
              · exact makes_skip

theorem handleControlMessage_omits (env : Env) (hmsg : topic.is (.text msg) = false)
    (hplain : msg.isOrdinary = true) :
    Omits topic (handleControlMessage env msg role c ip) := by
  cases msg
  case ping => exact makes_act (omits_of_written rfl rfl)
  case auth => cases hplain
  case deviceApproved => cases hplain
  case supervisorQuery => cases hplain
  case desktopRegister => exact handleDesktopRegister_omits
  case sessionSpawnRequest => exact forwardToDesktop_omits hmsg
  case sessionCloseRequest => exact forwardToDesktop_omits hmsg
  case ptyResize => exact forwardToDesktop_omits hmsg
  case fileUploadBegin => exact handleFileUploadBegin_omits hmsg
  case fileUploadEnd => exact handleFileUploadEnd_omits hmsg
  case fileUploadResult => exact handleFileUploadResult_omits hmsg
  case fileDownloadRequest => exact handleFileDownloadRequest_omits hmsg
  case fileDownloadBegin => exact handleFileDownloadBegin_omits hmsg
  case fileDownloadEnd => exact handleFileDownloadEnd_omits hmsg
  case sessionListRequest => exact handleSessionListRequest_omits
  case replayBegin => exact handleReplayBegin_omits
  case supervisorResult => exact handleSupervisorReply_omits hmsg
  case supervisorError => exact handleSupervisorReply_omits hmsg
  case sessionRenamed => exact handleSessionRenamed_omits hmsg
  case sessionCreated => exact forwardToClients_omits hmsg
  case sessionClosed => exact forwardToClients_omits hmsg
  case contextUpdate => exact forwardToClients_omits hmsg
  case ptyResized => exact forwardToClients_omits hmsg
  case sessionList => exact handleSessionList_omits hmsg
  case sessionNotification => exact handleSessionNotification_omits
  case pushSubscribe => exact handlePushSubscribe_omits
  case pushUnsubscribe => exact handlePushUnsubscribe_omits
  case vapidKeyRequest => exact handleVapidKeyRequest_omits
  case deviceRejected => exact handleDeviceRejected_omits
  case connectedDevicesRequest => exact handleConnectedDevicesRequest_omits
  case deviceRevoke => exact handleDeviceRevoke_omits
  all_goals exact makes_skip

theorem processWsMessage_omits (env : Env) (frame : Inbound) :
    (exists msg, frame.control? = some msg) ∨
      Omits topic (processWsMessage env frame role c ip) := by
  cases frame with
  | other => exact Or.inr makes_skip
  | text size parsed =>
      by_cases hsize : maxTextMessageSize < size
      · refine Or.inr ?_
        simp only [processWsMessage, if_pos hsize]
        exact makes_skip
      · cases parsed with
        | none =>
            refine Or.inr ?_
            simp only [processWsMessage, if_neg hsize]
            exact makes_skip
        | some msg => exact Or.inl ⟨msg, if_neg hsize⟩
  | binary data =>
      refine Or.inr ?_
      unfold processWsMessage
      by_cases hsize : maxBinaryMessageSize < data.length
      · simp only [dif_pos hsize]
        exact makes_skip
      · simp only [dif_neg hsize]
        exact handleBinaryMessage_omits ⟨data, _⟩

end

end Handler

end CommandRelay
