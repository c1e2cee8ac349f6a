import CommandRelay.Server.Discipline

/-!
# Routine handlers

Most handlers neither check credentials nor open an upload.
-/

namespace CommandRelay

open Foundation

namespace Call

def isRoutine : Call -> Bool
  | checkRateLimit _ | recordFailure _ | clearRateLimit _ => false
  | verifyDesktopKey .. | verifyPassword .. | verifyTotp .. => false
  | createJwt .. | panic | setRole (.client ..) => false
  | broker (.addPendingDevice ..) | broker (.beginUpload ..) => false
  | _ => true

def takesPending : Call -> Bool
  | broker (.takePendingDevice ..) => true
  | _ => false

/-- The call writes the row of a device or of its subscription, or leaves a device for
the desktop to approve. -/
def touchesDevice : Call -> Bool
  | updateDeviceLastSeen .. | registerDevice .. | revokeDevice _ => true
  | upsertPushSubscription .. | removePushSubscription _ => true
  | broker (.addPendingDevice ..) => true
  | _ => false

def isPassive (call : Call) : Bool :=
  call.isRoutine && !call.takesPending

/-- The calls of the handlers that write the row of a device or of its subscription, but for
the one that takes it off the pending list. -/
def isDeviceWork : Call -> Bool
  | revokeDevice _ | upsertPushSubscription .. | removePushSubscription _ => true
  | broker (.send ..) | broker (.sendToClient ..) | broker (.unregisterDevice ..) => true
  | _ => false

def reports : Call -> Bool
  | broker (.markBugReportUpload ..) | persistBugReport .. => true
  | _ => false

def isCredential : Call -> Bool
  | checkRateLimit _ | recordFailure _ | clearRateLimit _ => true
  | verifyDesktopKey .. | validateJwt _ | createJwt .. => true
  | verifyPassword .. | hasTotp _ | verifyTotp .. => true
  | isDeviceRegistered .. | updateDeviceLastSeen .. | registerDevice .. => true
  | setRole (.client ..) | panic | utcNow => true
  | broker (.send ..) | broker (.isDesktopOnline _) => true
  | broker (.sendToDesktop _ (.text (.devicePending ..))) => true
  | broker (.addPendingDevice ..) | broker (.takePendingDevice ..) => true
  | broker (.registerClient ..) => true
  | _ => false

def isDetached (call : Call) : Bool :=
  call.isPassive && !call.touchesDevice

def isApart (call : Call) : Bool :=
  call.isDetached && !call.reports

end Call

def ControlMessage.isRoutine : ControlMessage -> Bool
  | auth .. | deviceApproved _ | fileUploadBegin .. => false
  | _ => true

def ControlMessage.isPassive : ControlMessage -> Bool
  | deviceRejected _ => false
  | msg => msg.isRoutine

def ControlMessage.isDetached : ControlMessage -> Bool
  | deviceRevoke _ | pushSubscribe _ | pushUnsubscribe => false
  | msg => msg.isPassive

def ControlMessage.isApart : ControlMessage -> Bool
  | fileUploadEnd .. => false
  | msg => msg.isDetached

namespace Handler

def Makes (p : Call -> Bool) (task : Handler Unit) : Prop :=
  Program.Obeys (fun _ call => p call = true) [] task fun _ _ => True

def Routine (task : Handler Unit) : Prop :=
  Makes Call.isRoutine task

def Passive (task : Handler Unit) : Prop :=
  Makes Call.isPassive task

def Detached (task : Handler Unit) : Prop :=
  Makes Call.isDetached task

def Apart (task : Handler Unit) : Prop :=
  Makes Call.isApart task

section

variable {p q : Call -> Bool} {call : Call} {past past' : List CallAnswer}
  {task : Handler Unit}

theorem obeys_past {p : Call -> Prop} {task : Handler α}
    (h : Program.Obeys (fun _ call => p call) past task fun _ _ => True) :
    Program.Obeys (fun _ call => p call) past' task fun _ _ => True := by
  induction task generalizing past past' with
  | done value => trivial
  | invoke call next ih => exact ⟨h.1, fun r => ih r (h.2 r)⟩

theorem Makes.mono (h : Makes p task) (himp : forall call, p call = true -> q call = true) :
    Makes q task := by
  unfold Makes at h ⊢
  generalize ([] : List CallAnswer) = seen at h ⊢
  induction task generalizing seen with
  | done value => trivial
  | invoke call next ih => exact ⟨himp call h.1, fun r => ih r _ (h.2 r)⟩

theorem Passive.routine (h : Passive task) : Routine task :=
  h.mono fun _ hcall => (Bool.and_eq_true_iff.mp hcall).1

theorem Detached.passive (h : Detached task) : Passive task :=
  h.mono fun _ hcall => (Bool.and_eq_true_iff.mp hcall).1

theorem Apart.detached (h : Apart task) : Detached task :=
  h.mono fun _ hcall => (Bool.and_eq_true_iff.mp hcall).1

theorem makes_skip : Makes p skip := trivial

theorem makes_act (h : p call = true) : Makes p (act call) :=
  ⟨h, fun _ => trivial⟩

theorem makes_then (h : p call = true) (htask : Makes p task) :
    Makes p (act call >>= fun _ => task) :=
  ⟨h, fun _ => obeys_past htask⟩

theorem makes_ask {next : call.Reply -> Handler Unit} (h : p call = true)
    (hnext : forall r, Makes p (next r)) : Makes p (ask call >>= next) :=
  ⟨h, fun r => obeys_past (hnext r)⟩

end

section

variable {msg : ControlMessage} {id kind u title body : String} {text : Option String}
  {size : UInt64} {role : ConnectionRole} {c : ConnId} {data : Slice}

theorem sendTo_apart (tx : Option ConnId) (out : WsMessage) : Apart (sendTo tx out) := by
  cases tx with
  | none => exact makes_skip
  | some tx => exact makes_act rfl

theorem handleDesktopRegister_apart {capabilities : Option (List String)} :
    Apart (handleDesktopRegister capabilities role c) := by
  cases role with
  | client u d =>
      exact makes_then rfl (makes_then rfl (makes_act rfl))
  | _ => exact makes_skip

theorem finishUpload_apart : Apart (finishUpload msg u id c) :=
  makes_then rfl (makes_act rfl)

theorem handleFileUploadEnd_detached : Detached (handleFileUploadEnd msg id text role c) := by
  cases role with
  | unauthenticated => exact makes_skip
  | client u d =>
      refine makes_ask rfl fun buffer => ?_
      cases buffer with
      | none => exact finishUpload_apart.detached
      | some screenshot =>
          refine makes_then rfl (makes_ask rfl fun online => ?_)
          cases online with
          | true => exact finishUpload_apart.detached
          | false => exact makes_then rfl (makes_act rfl)
  | desktop u =>
      refine makes_ask rfl fun buffer => ?_
      cases buffer with
      | none => exact makes_act rfl
      | some screenshot => exact makes_then rfl (makes_act rfl)

theorem handleFileUploadResult_apart : Apart (handleFileUploadResult msg id role) := by
  cases role with
  | desktop u => exact makes_ask rfl fun tx => sendTo_apart tx _
  | _ => exact makes_skip

theorem handleFileDownloadRequest_apart :
    Apart (handleFileDownloadRequest msg id role c) := by
  cases role with
  | client u d =>
      refine makes_ask rfl fun granted => ?_
      cases granted with
      | error reason => exact makes_act rfl
      | ok _ => exact makes_act rfl
  | _ => exact makes_skip

theorem handleFileDownloadBegin_apart :
    Apart (handleFileDownloadBegin msg id size role) := by
  cases role with
  | desktop u => exact makes_ask rfl fun tx => sendTo_apart tx _
  | _ => exact makes_skip

theorem handleFileDownloadEnd_apart : Apart (handleFileDownloadEnd msg id role) := by
  cases role with
  | desktop u => exact makes_ask rfl fun tx => sendTo_apart tx _
  | _ => exact makes_skip

theorem handleSessionListRequest_apart : Apart (handleSessionListRequest role c) := by
  cases role with
  | client u d => exact makes_then rfl (makes_act rfl)
  | _ => exact makes_skip

theorem handleReplayBegin_apart : Apart (handleReplayBegin role) := by
  cases role with
  | desktop u => exact makes_act rfl
  | _ => exact makes_skip

theorem handleSessionList_apart : Apart (handleSessionList msg role) := by
  cases role with
  | desktop u =>
      refine makes_ask rfl fun target => ?_
      cases target with
      | none => exact makes_act rfl
      | some tx => exact makes_act rfl
  | _ => exact makes_skip

theorem handleSupervisorQuery_apart : Apart (handleSupervisorQuery msg id role c) := by
  cases role with
  | client u d =>
      refine makes_ask rfl fun online => ?_
      cases online with
      | false => exact makes_act rfl
      | true =>
          refine makes_ask rfl fun decision => ?_
          cases decision with
          | reowned => exact makes_skip
          | _ => exact makes_act rfl
  | _ => exact makes_skip

theorem handleSupervisorReply_apart : Apart (handleSupervisorReply msg id role) := by
  cases role with
  | desktop u => exact makes_act rfl
  | _ => exact makes_skip

theorem forwardToDesktop_apart : Apart (forwardToDesktop msg role) := by
  cases role with
  | client u d => exact makes_act rfl
  | _ => exact makes_skip

theorem forwardToClients_apart : Apart (forwardToClients msg role) := by
  cases role with
  | desktop u => exact makes_act rfl
  | _ => exact makes_skip

theorem handleSessionRenamed_apart : Apart (handleSessionRenamed msg role) := by
  cases role with
  | unauthenticated => exact makes_skip
  | _ => exact makes_act rfl

theorem handleSessionNotification_apart :
    Apart (handleSessionNotification id title body role) := by
  cases role with
  | desktop u => exact makes_then rfl (makes_act rfl)
  | _ => exact makes_skip

theorem passive_of_device {task : Handler Unit} (h : Makes Call.isDeviceWork task) :
    Passive task := by
  refine h.mono fun call hcall => ?_
  cases call
  case broker op => cases op <;> first | rfl | cases hcall
  all_goals first | rfl | cases hcall

theorem handlePushSubscribe_device {env : Env} {subscription : Json.Value} :
    Makes Call.isDeviceWork (handlePushSubscribe env subscription role) := by
  cases role with
  | client u d =>
      simp only [handlePushSubscribe]
      split
      · exact makes_skip
      · split
        · exact makes_skip
        · split
          · split
            · exact makes_act rfl
            · exact makes_skip
          · exact makes_skip
  | _ => exact makes_skip

theorem handlePushUnsubscribe_device : Makes Call.isDeviceWork (handlePushUnsubscribe role) := by
  cases role with
  | client u d => exact makes_act rfl
  | _ => exact makes_skip

theorem handleVapidKeyRequest_apart : Apart (handleVapidKeyRequest role c) := by
  cases role with
  | unauthenticated => exact makes_skip
  | _ => exact makes_ask rfl fun _ => makes_act rfl

theorem handleDeviceRejected_device :
    Makes (fun call => call.isDeviceWork || call.takesPending) (handleDeviceRejected id role) := by
  cases role with
  | desktop u =>
      refine makes_ask rfl fun pending => ?_
      cases pending with
      | none => exact makes_skip
      | some pending => exact makes_then rfl (makes_act rfl)
  | _ => exact makes_skip

theorem handleConnectedDevicesRequest_apart :
    Apart (handleConnectedDevicesRequest role c) := by
  cases role with
  | desktop u => exact makes_ask rfl fun _ => makes_act rfl
  | _ => exact makes_skip

theorem handleDeviceRevoke_device : Makes Call.isDeviceWork (handleDeviceRevoke id role c) := by
  cases role with
  | desktop u =>
      exact makes_then rfl (makes_then rfl (makes_then rfl (makes_act rfl)))
  | _ => exact makes_skip

theorem handleFileChunk_apart : Apart (handleFileChunk data id u c) := by
  refine makes_ask rfl fun decision => ?_
  cases decision with
  | drop => exact makes_skip
  | _ => exact makes_act rfl

theorem handleFileDownloadChunk_apart : Apart (handleFileDownloadChunk data id u) := by
  refine makes_ask rfl fun decision => ?_
  cases decision with
  | drop => exact makes_skip
  | _ => exact makes_act rfl

theorem handleScrollback_apart : Apart (handleScrollback data u) := by
  refine makes_ask rfl fun target => ?_
  cases target with
  | none => exact makes_act rfl
  | some tx => exact makes_act rfl

theorem handleBinaryMessage_apart : Apart (handleBinaryMessage data role c) := by
  unfold handleBinaryMessage
  split
  · exact makes_skip
  · rename_i frameType uploadId n _
    cases role with
    | unauthenticated => exact makes_skip
    | client u d =>
        simp only []
        split
        · exact makes_act rfl
        · split
          · exact handleFileChunk_apart
          · exact makes_skip
    | desktop u =>
        simp only []
        split
        · exact makes_act rfl
        · split
          · exact handleFileDownloadChunk_apart
          · split
            · exact makes_act rfl
            · split
              · exact handleScrollback_apart
              · exact makes_skip

theorem handleControlMessage_apart {env : Env} {ip : String} (h : msg.isApart = true) :
    Apart (handleControlMessage env msg role c ip) := by
  cases msg
  case auth => cases h
  case deviceApproved => cases h
  case fileUploadBegin => cases h
  case ping => exact makes_act rfl
  case desktopRegister => exact handleDesktopRegister_apart
  case fileUploadEnd => cases h
  case fileUploadResult => exact handleFileUploadResult_apart
  case fileDownloadRequest => exact handleFileDownloadRequest_apart
  case fileDownloadBegin => exact handleFileDownloadBegin_apart
  case fileDownloadEnd => exact handleFileDownloadEnd_apart
  case sessionListRequest => exact handleSessionListRequest_apart
  case replayBegin => exact handleReplayBegin_apart
  case supervisorQuery => exact handleSupervisorQuery_apart
  case supervisorResult => exact handleSupervisorReply_apart
  case supervisorError => exact handleSupervisorReply_apart
  case sessionRenamed => exact handleSessionRenamed_apart
  case sessionList => exact handleSessionList_apart
  case sessionNotification => exact handleSessionNotification_apart
  case pushSubscribe => cases h
  case pushUnsubscribe => cases h
  case vapidKeyRequest => exact handleVapidKeyRequest_apart
  case deviceRejected => cases h
  case connectedDevicesRequest => exact handleConnectedDevicesRequest_apart
  case deviceRevoke => cases h
  case sessionSpawnRequest => exact forwardToDesktop_apart
  case sessionCloseRequest => exact forwardToDesktop_apart
  case ptyResize => exact forwardToDesktop_apart
  case sessionCreated => exact forwardToClients_apart
  case sessionClosed => exact forwardToClients_apart
  case contextUpdate => exact forwardToClients_apart
  case ptyResized => exact forwardToClients_apart
  all_goals exact makes_skip

theorem handleControlMessage_detached {env : Env} {ip : String} (h : msg.isDetached = true) :
    Detached (handleControlMessage env msg role c ip) := by
  by_cases hapart : msg.isApart = true
  · exact (handleControlMessage_apart hapart).detached
  · cases msg
    case fileUploadEnd => exact handleFileUploadEnd_detached
    all_goals exact absurd h hapart

theorem handleControlMessage_passive {env : Env} {ip : String} (h : msg.isPassive = true) :
    Passive (handleControlMessage env msg role c ip) := by
  by_cases hdetached : msg.isDetached = true
  · exact (handleControlMessage_detached hdetached).passive
  · cases msg
    case deviceRevoke => exact passive_of_device handleDeviceRevoke_device
    case pushSubscribe => exact passive_of_device handlePushSubscribe_device
    case pushUnsubscribe => exact passive_of_device handlePushUnsubscribe_device
    all_goals exact absurd h hdetached

theorem handleBinaryMessage_detached : Detached (handleBinaryMessage data role c) :=
  handleBinaryMessage_apart.detached

theorem handleBinaryMessage_passive : Passive (handleBinaryMessage data role c) :=
  handleBinaryMessage_detached.passive

theorem handleBinaryMessage_routine : Routine (handleBinaryMessage data role c) :=
  handleBinaryMessage_passive.routine

theorem handleControlMessage_routine {env : Env} {ip : String} (h : msg.isRoutine = true) :
    Routine (handleControlMessage env msg role c ip) := by
  by_cases hpassive : msg.isPassive = true
  · exact (handleControlMessage_passive hpassive).routine
  · cases msg
    case deviceRejected =>
        refine handleDeviceRejected_device.mono fun call hcall => ?_
        cases call
        case broker op => cases op <;> first | rfl | cases hcall
        all_goals first | rfl | cases hcall
    all_goals exact absurd h hpassive

theorem handleFileUploadBegin_takes :
    Makes (fun call => !call.takesPending) (handleFileUploadBegin msg id kind size role c) := by
  unfold handleFileUploadBegin
  cases role with
  | unauthenticated => exact makes_skip
  | client u d =>
      by_cases hlarge : kind = "bug_report" ∧ maxBugReportUploadSize < size.toNat
      · simp only [if_pos hlarge]
        exact makes_act rfl
      · simp only [if_neg hlarge]
        refine makes_ask rfl fun granted => ?_
        cases granted with
        | error reason => exact makes_act rfl
        | ok _ =>
            by_cases hkind : kind = "bug_report"
            · simp only [if_pos hkind]
              exact makes_then rfl (makes_act rfl)
            · simp only [if_neg hkind]
              exact makes_act rfl
  | desktop u =>
      by_cases hrefused : kind ≠ "bug_report" ∨ maxBugReportUploadSize < size.toNat
      · simp only [if_pos hrefused]
        exact makes_skip
      · simp only [if_neg hrefused]
        refine makes_ask rfl fun granted => ?_
        cases granted with
        | error reason => exact makes_skip
        | ok _ => exact makes_act rfl

end

/-!
## Authentication and approval
-/

section

variable {c : ConnId} {role : ConnectionRole} {u d ip : String}

theorem fail_credential (error : String) :
    Makes Call.isCredential (act (.recordFailure u) >>= fun _ => sendAuthError c error) :=
  makes_then rfl (makes_act rfl)

theorem enrolDevice_credential : Makes Call.isCredential (enrolDevice u c ip) := by
  refine makes_then rfl (makes_ask rfl fun online => ?_)
  cases online with
  | false => exact makes_act rfl
  | true =>
      refine makes_ask rfl fun registered => ?_
      cases registered with
      | error e => exact makes_act rfl
      | ok deviceId => exact makes_then rfl (makes_act rfl)

theorem authDesktopKey_credential (key : String) :
    Makes Call.isCredential (authDesktopKey u key c) := by
  refine makes_ask rfl fun valid => ?_
  rcases valid with e | valid
  · exact fail_credential _
  · cases valid with
    | false => exact fail_credential _
    | true => exact makes_then rfl (makes_then rfl (makes_act rfl))

theorem authTotp_credential (totp : Option String) :
    Makes Call.isCredential (authTotp u totp c ip) := by
  refine makes_ask rfl fun needed => ?_
  rcases needed with e | needed
  · exact enrolDevice_credential
  · cases needed with
    | false => exact enrolDevice_credential
    | true =>
        cases totp with
        | none => exact makes_act rfl
        | some code =>
            refine makes_ask rfl fun verified => ?_
            cases verified with
            | error e => exact fail_credential _
            | ok _ => exact enrolDevice_credential

theorem authPassword_credential (passwordHash totp : Option String) :
    Makes Call.isCredential (authPassword u passwordHash totp c ip) := by
  cases passwordHash with
  | none => exact makes_act rfl
  | some hash =>
      refine makes_ask rfl fun verified => ?_
      cases verified with
      | error e => exact fail_credential _
      | ok _ => exact authTotp_credential totp

theorem welcomeDevice_credential : Makes Call.isCredential (welcomeDevice u d c ip) := by
  refine makes_then rfl (makes_then rfl (makes_ask rfl fun token => ?_))
  cases token with
  | error e => exact makes_act rfl
  | ok token => exact makes_then rfl (makes_then rfl (makes_ask rfl fun _ => makes_act rfl))

theorem handleAuth_credential (passwordHash totp deviceToken desktopKey : Option String) :
    Makes Call.isCredential (handleAuth u passwordHash totp deviceToken desktopKey c ip) := by
  refine makes_ask rfl fun locked => ?_
  cases locked with
  | some retryAfter => exact makes_act rfl
  | none =>
      cases desktopKey with
      | some key => exact authDesktopKey_credential key
      | none =>
          cases deviceToken with
          | none => exact authPassword_credential passwordHash totp
          | some token =>
              refine makes_ask rfl fun valid => ?_
              cases valid with
              | error e => exact authPassword_credential passwordHash totp
              | ok claims =>
                  by_cases hsub : claims.sub = u
                  · simp only [if_pos hsub]
                    refine makes_ask rfl fun registered => ?_
                    cases registered with
                    | false => exact authPassword_credential passwordHash totp
                    | true => exact welcomeDevice_credential
                  · simp only [if_neg hsub]
                    exact authPassword_credential passwordHash totp

theorem handleDeviceApproved_credential :
    Makes Call.isCredential (handleDeviceApproved d role) := by
  cases role with
  | desktop u =>
      refine makes_ask rfl fun taken => ?_
      cases taken with
      | none => exact makes_skip
      | some pending =>
          refine makes_then rfl (makes_ask rfl fun token => ?_)
          cases token with
          | error e => exact makes_skip
          | ok token => exact makes_then rfl (makes_ask rfl fun connectedAt => makes_act rfl)
  | _ => exact makes_skip

end

end Handler

end CommandRelay
