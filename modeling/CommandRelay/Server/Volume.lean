import CommandRelay.Broker.Volume
import CommandRelay.Foundation.Cost
import CommandRelay.Server.BrokerView

/-!
# No frame is amplified

What a frame makes its handler send is bounded, whatever the handler finds: by a message to
each client of an account and two more.
-/

namespace CommandRelay

open Foundation

def Call.volume (weight : Nat) : Call -> Nat
  | .broker op => op.volume
  | .upsertPushSubscription .. | .pushToUser .. => weight
  | _ => 0

def ControlMessage.usesPush : ControlMessage -> Bool
  | pushSubscribe _ | sessionNotification .. => true
  | _ => false

def frameVolume : Nat := maxClients + 2

def cleanupVolume : Nat := maxClients + 1

namespace Handler

def Sends (weight n : Nat) (task : Handler Unit) : Prop :=
  Program.CostAtMost (Call.volume weight) n task

section

variable {weight m n : Nat} {task : Handler Unit} {call : Call}

theorem sends_skip : Sends weight n skip := trivial

theorem sends_ask {next : call.Reply -> Handler Unit} (hcall : call.volume weight = 0)
    (hnext : forall r, Sends weight n (next r)) : Sends weight n (ask call >>= next) :=
  Program.costAtMost_invoke (by omega) hnext

theorem sends_spend (hcall : (call.volume weight + m).ble n = true) (htask : Sends weight m task) :
    Sends weight n (act call >>= fun _ => task) :=
  Program.costAtMost_invoke (Nat.le_of_ble_eq_true hcall) fun _ => htask

theorem sends_then (hcall : call.volume weight = 0) (htask : Sends weight n task) :
    Sends weight n (act call >>= fun _ => task) :=
  Program.costAtMost_invoke (by omega) fun _ => htask

theorem sends_act (hcall : (call.volume weight).ble n = true) : Sends weight n (act call) :=
  Program.costAtMost_invoke (m := 0) (Nat.le_of_ble_eq_true hcall) fun _ => trivial

theorem sends_sendTo {weight : Nat} (tx : Option ConnId) (msg : WsMessage) :
    Sends weight frameVolume (sendTo tx msg) := by
  cases tx with
  | none => exact sends_skip
  | some tx => exact sends_act rfl

end

section

variable {weight : Nat} {msg : ControlMessage} {id kind u d title body key ip : String}
  {text passwordHash totp deviceToken desktopKey : Option String} {size : UInt64}
  {role : ConnectionRole} {c : ConnId} {data : Slice}

theorem authDesktopKey_sends : Sends weight frameVolume (authDesktopKey u key c) := by
  refine sends_ask rfl fun verified => ?_
  split
  · exact sends_then rfl (sends_spend (m := 0) rfl (sends_act rfl))
  · exact sends_then rfl (sends_act rfl)

theorem enrolDevice_sends : Sends weight frameVolume (enrolDevice u c ip) := by
  refine sends_then rfl (sends_ask rfl fun online => ?_)
  cases online with
  | false => exact sends_act rfl
  | true =>
      refine sends_ask rfl fun registered => ?_
      cases registered with
      | error _ => exact sends_act rfl
      | ok deviceId => exact sends_spend (m := 0) rfl (sends_act rfl)

theorem authTotp_sends : Sends weight frameVolume (authTotp u totp c ip) := by
  refine sends_ask rfl fun configured => ?_
  split
  · cases totp with
    | none => exact sends_act rfl
    | some code =>
        refine sends_ask rfl fun verified => ?_
        cases verified with
        | ok _ => exact enrolDevice_sends
        | error _ => exact sends_then rfl (sends_act rfl)
  · exact enrolDevice_sends

theorem authPassword_sends : Sends weight frameVolume (authPassword u passwordHash totp c ip) := by
  cases passwordHash with
  | none => exact sends_act rfl
  | some passwordHash =>
      refine sends_ask rfl fun verified => ?_
      cases verified with
      | ok _ => exact authTotp_sends
      | error _ => exact sends_then rfl (sends_act rfl)

theorem welcomeDevice_sends : Sends weight frameVolume (welcomeDevice u d c ip) := by
  refine sends_then rfl (sends_then rfl (sends_ask rfl fun token => ?_))
  cases token with
  | error _ => exact sends_act rfl
  | ok token =>
      exact sends_spend (m := 1) rfl (sends_then rfl (sends_ask rfl fun _ => sends_act rfl))

theorem authDeviceToken_sends {token : String} :
    Sends weight frameVolume (authDeviceToken u token passwordHash totp c ip) := by
  refine sends_ask rfl fun claims => ?_
  cases claims with
  | error _ => exact authPassword_sends
  | ok claims =>
      by_cases hsub : claims.sub = u
      · simp only [if_pos hsub]
        refine sends_ask rfl fun registered => ?_
        cases registered with
        | true => exact welcomeDevice_sends
        | false => exact authPassword_sends
      · simp only [if_neg hsub]
        exact authPassword_sends

theorem handleAuth_sends :
    Sends weight frameVolume (handleAuth u passwordHash totp deviceToken desktopKey c ip) := by
  refine sends_ask rfl fun limited => ?_
  cases limited with
  | some retryAfter => exact sends_act rfl
  | none =>
      cases desktopKey with
      | some key => exact authDesktopKey_sends
      | none =>
          cases deviceToken with
          | some token => exact authDeviceToken_sends
          | none => exact authPassword_sends

theorem handleDesktopRegister_sends {capabilities : Option (List String)} :
    Sends weight frameVolume (handleDesktopRegister capabilities role c) := by
  cases role with
  | client u d => exact sends_spend (m := 1) rfl (sends_then rfl (sends_act rfl))
  | _ => exact sends_skip

theorem handlePushSubscribe_sends {env : Env} {subscription : Json.Value} :
    Sends 0 frameVolume (handlePushSubscribe env subscription role) := by
  cases role with
  | client u d =>
      simp only [handlePushSubscribe]
      split
      · exact sends_skip
      · split
        · exact sends_skip
        · split
          · split
            · exact sends_act rfl
            · exact sends_skip
          · exact sends_skip
  | _ => exact sends_skip

theorem handlePushUnsubscribe_sends : Sends weight frameVolume (handlePushUnsubscribe role) := by
  cases role with
  | client u d => exact sends_act rfl
  | _ => exact sends_skip

theorem handleVapidKeyRequest_sends : Sends weight frameVolume (handleVapidKeyRequest role c) := by
  cases role with
  | unauthenticated => exact sends_skip
  | _ => exact sends_ask rfl fun _ => sends_act rfl

theorem handleDeviceApproved_sends : Sends weight frameVolume (handleDeviceApproved d role) := by
  cases role with
  | desktop u =>
      refine sends_ask rfl fun taken => ?_
      cases taken with
      | none => exact sends_skip
      | some pending =>
          refine sends_then rfl (sends_ask rfl fun token => ?_)
          cases token with
          | error _ => exact sends_skip
          | ok token =>
              exact sends_spend (m := 1) rfl (sends_ask rfl fun _ => sends_act rfl)
  | _ => exact sends_skip

theorem handleDeviceRejected_sends : Sends weight frameVolume (handleDeviceRejected d role) := by
  cases role with
  | desktop u =>
      refine sends_ask rfl fun taken => ?_
      cases taken with
      | none => exact sends_skip
      | some pending => exact sends_spend (m := 0) rfl (sends_act rfl)
  | _ => exact sends_skip

theorem handleConnectedDevicesRequest_sends :
    Sends weight frameVolume (handleConnectedDevicesRequest role c) := by
  cases role with
  | desktop u => exact sends_ask rfl fun _ => sends_act rfl
  | _ => exact sends_skip

theorem handleDeviceRevoke_sends : Sends weight frameVolume (handleDeviceRevoke d role c) := by
  cases role with
  | desktop u =>
      exact sends_spend (m := 1) rfl (sends_then rfl (sends_then rfl (sends_act rfl)))
  | _ => exact sends_skip

/-! Transfers, bursts and queries. -/

theorem handleFileUploadBegin_sends :
    Sends weight frameVolume (handleFileUploadBegin msg id kind size role c) := by
  cases role with
  | unauthenticated => exact sends_skip
  | client u d =>
      simp only [handleFileUploadBegin]
      split
      · exact sends_act rfl
      · refine sends_ask rfl fun begun => ?_
        cases begun with
        | error reason => exact sends_act rfl
        | ok _ =>
            by_cases hkind : kind = "bug_report"
            · simp only [if_pos hkind]
              exact sends_then rfl (sends_act rfl)
            · simp only [if_neg hkind]
              exact sends_act rfl
  | desktop u =>
      simp only [handleFileUploadBegin]
      split
      · exact sends_skip
      · refine sends_ask rfl fun begun => ?_
        cases begun with
        | error _ => exact sends_skip
        | ok _ => exact sends_act rfl

theorem finishUpload_sends : Sends weight frameVolume (finishUpload msg u id c) :=
  sends_then rfl (sends_act rfl)

theorem handleFileUploadEnd_sends :
    Sends weight frameVolume (handleFileUploadEnd msg id text role c) := by
  cases role with
  | unauthenticated => exact sends_skip
  | client u d =>
      refine sends_ask rfl fun buffer => ?_
      cases buffer with
      | none => exact finishUpload_sends
      | some screenshot =>
          refine sends_then rfl (sends_ask rfl fun online => ?_)
          cases online with
          | true => exact finishUpload_sends
          | false => exact sends_then rfl (sends_act rfl)
  | desktop u =>
      refine sends_ask rfl fun buffer => ?_
      cases buffer with
      | none => exact sends_act rfl
      | some screenshot => exact sends_then rfl (sends_act rfl)

theorem handleFileUploadResult_sends :
    Sends weight frameVolume (handleFileUploadResult msg id role) := by
  cases role with
  | desktop u => exact sends_ask rfl fun tx => sends_sendTo tx _
  | _ => exact sends_skip

theorem handleFileDownloadRequest_sends :
    Sends weight frameVolume (handleFileDownloadRequest msg id role c) := by
  cases role with
  | client u d =>
      refine sends_ask rfl fun granted => ?_
      cases granted with
      | error reason => exact sends_act rfl
      | ok _ => exact sends_act rfl
  | _ => exact sends_skip

theorem handleFileDownloadBegin_sends :
    Sends weight frameVolume (handleFileDownloadBegin msg id size role) := by
  cases role with
  | desktop u => exact sends_ask rfl fun tx => sends_sendTo tx _
  | _ => exact sends_skip

theorem handleFileDownloadEnd_sends :
    Sends weight frameVolume (handleFileDownloadEnd msg id role) := by
  cases role with
  | desktop u => exact sends_ask rfl fun tx => sends_sendTo tx _
  | _ => exact sends_skip

theorem handleSessionListRequest_sends :
    Sends weight frameVolume (handleSessionListRequest role c) := by
  cases role with
  | client u d => exact sends_then rfl (sends_act rfl)
  | _ => exact sends_skip

theorem handleReplayBegin_sends : Sends weight frameVolume (handleReplayBegin role) := by
  cases role with
  | desktop u => exact sends_act rfl
  | _ => exact sends_skip

theorem handleSessionList_sends :
    Sends weight frameVolume (handleSessionList msg role) := by
  cases role with
  | desktop u =>
      refine sends_ask rfl fun target => ?_
      cases target with
      | none => exact sends_act rfl
      | some tx => exact sends_act rfl
  | _ => exact sends_skip

theorem handleSupervisorQuery_sends :
    Sends weight frameVolume (handleSupervisorQuery msg id role c) := by
  cases role with
  | client u d =>
      refine sends_ask rfl fun online => ?_
      cases online with
      | false => exact sends_act rfl
      | true =>
          refine sends_ask rfl fun decision => ?_
          cases decision with
          | replay stored => exact sends_act rfl
          | reowned => exact sends_skip
          | capacity => exact sends_act rfl
          | forward => exact sends_act rfl
  | _ => exact sends_skip

theorem handleSupervisorReply_sends :
    Sends weight frameVolume (handleSupervisorReply msg id role) := by
  cases role with
  | desktop u => exact sends_act rfl
  | _ => exact sends_skip

theorem forwardToDesktop_sends :
    Sends weight frameVolume (forwardToDesktop msg role) := by
  cases role with
  | client u d => exact sends_act rfl
  | _ => exact sends_skip

theorem forwardToClients_sends :
    Sends weight frameVolume (forwardToClients msg role) := by
  cases role with
  | desktop u => exact sends_act rfl
  | _ => exact sends_skip

theorem handleSessionRenamed_sends :
    Sends weight frameVolume (handleSessionRenamed msg role) := by
  cases role with
  | unauthenticated => exact sends_skip
  | client u d => exact sends_act rfl
  | desktop u => exact sends_act rfl

theorem handleSessionNotification_sends :
    Sends 0 frameVolume (handleSessionNotification id title body role) := by
  cases role with
  | desktop u => exact sends_spend (m := 0) rfl (sends_act rfl)
  | _ => exact sends_skip

theorem handleControlMessage_sends (env : Env) (h : weight = 0 ∨ msg.usesPush = false) :
    Sends weight frameVolume (handleControlMessage env msg role c ip) := by
  cases msg
  case ping => exact sends_act rfl
  case auth version username passwordHash totp deviceToken desktopKey =>
      unfold handleControlMessage
      by_cases hvalid : isValidUsername username = true
      · simp only [if_pos hvalid]
        exact handleAuth_sends
      · simp only [if_neg hvalid]
        exact sends_act rfl
  case desktopRegister => exact handleDesktopRegister_sends
  case sessionSpawnRequest => exact forwardToDesktop_sends
  case sessionCloseRequest => exact forwardToDesktop_sends
  case ptyResize => exact forwardToDesktop_sends
  case fileUploadBegin => exact handleFileUploadBegin_sends
  case fileUploadEnd => exact handleFileUploadEnd_sends
  case fileUploadResult => exact handleFileUploadResult_sends
  case fileDownloadRequest => exact handleFileDownloadRequest_sends
  case fileDownloadBegin => exact handleFileDownloadBegin_sends
  case fileDownloadEnd => exact handleFileDownloadEnd_sends
  case sessionListRequest => exact handleSessionListRequest_sends
  case replayBegin => exact handleReplayBegin_sends
  case supervisorQuery => exact handleSupervisorQuery_sends
  case supervisorResult => exact handleSupervisorReply_sends
  case supervisorError => exact handleSupervisorReply_sends
  case sessionRenamed => exact handleSessionRenamed_sends
  case sessionCreated => exact forwardToClients_sends
  case sessionClosed => exact forwardToClients_sends
  case contextUpdate => exact forwardToClients_sends
  case ptyResized => exact forwardToClients_sends
  case sessionList => exact handleSessionList_sends
  case sessionNotification =>
      rcases h with rfl | hpush
      · exact handleSessionNotification_sends
      · cases hpush
  case pushSubscribe =>
      rcases h with rfl | hpush
      · exact handlePushSubscribe_sends
      · cases hpush
  case pushUnsubscribe => exact handlePushUnsubscribe_sends
  case vapidKeyRequest => exact handleVapidKeyRequest_sends
  case deviceApproved => exact handleDeviceApproved_sends
  case deviceRejected => exact handleDeviceRejected_sends
  case connectedDevicesRequest => exact handleConnectedDevicesRequest_sends
  case deviceRevoke => exact handleDeviceRevoke_sends
  all_goals exact sends_skip

theorem handleFileChunk_sends :
    Sends weight frameVolume (handleFileChunk data id u c) := by
  refine sends_ask rfl fun decision => ?_
  cases decision with
  | forward => exact sends_act rfl
  | overrun => exact sends_act rfl
  | drop => exact sends_skip

theorem handleFileDownloadChunk_sends :
    Sends weight frameVolume (handleFileDownloadChunk data id u) := by
  refine sends_ask rfl fun decision => ?_
  cases decision with
  | forward tx => exact sends_act rfl
  | overrun tx => exact sends_act rfl
  | drop => exact sends_skip

theorem handleScrollback_sends :
    Sends weight frameVolume (handleScrollback data u) := by
  refine sends_ask rfl fun target => ?_
  cases target with
  | none => exact sends_act rfl
  | some tx => exact sends_act rfl

theorem handleBinaryMessage_sends (data : Slice) :
    Sends weight frameVolume (handleBinaryMessage data role c) := by
  unfold handleBinaryMessage
  split
  · exact sends_skip
  · rename_i frameType uploadId payload hparse
    cases role with
    | unauthenticated => exact sends_skip
    | client u d =>
        simp only []
        split
        · exact sends_act rfl
        · split
          · exact handleFileChunk_sends
          · exact sends_skip
    | desktop u =>
        simp only []
        split
        · exact sends_act rfl
        · split
          · exact handleFileDownloadChunk_sends
          · split
            · exact sends_act rfl
            · split
              · exact handleScrollback_sends
              · exact sends_skip

/-- However it goes on, a frame makes its handler send no more than a bounded number of
messages. -/
theorem processWsMessage_sends (env : Env) (frame : Inbound) (role : ConnectionRole)
    (c : ConnId) (ip : String)
    (h : weight = 0 ∨ forall msg, frame.control? = some msg -> msg.usesPush = false) :
    Sends weight frameVolume (processWsMessage env frame role c ip) := by
  cases frame with
  | other => exact sends_skip
  | text size parsed =>
      cases parsed with
      | none =>
          show Sends weight frameVolume (if maxTextMessageSize < size then skip else skip)
          rw [ite_self]
          exact sends_skip
      | some msg =>
          unfold processWsMessage
          by_cases hsize : maxTextMessageSize < size
          · simp only [if_pos hsize]
            exact sends_skip
          · simp only [if_neg hsize]
            exact handleControlMessage_sends env (h.imp_right fun hmsg => hmsg msg (if_neg hsize))
  | binary data =>
      unfold processWsMessage
      by_cases hsize : maxBinaryMessageSize < data.length
      · simp only [dif_pos hsize]
        exact sends_skip
      · simp only [dif_neg hsize]
        exact handleBinaryMessage_sends ⟨data, _⟩

theorem cleanup_sends : Sends weight cleanupVolume (cleanup role c) := by
  cases role with
  | unauthenticated => exact sends_act rfl
  | client u d => exact sends_then rfl (sends_act rfl)
  | desktop u => exact sends_spend (m := 1) rfl (sends_act rfl)

end

end Handler

namespace Relay

/-- The number of messages that the calls of a connection have enqueued. -/
def enqueuedBy (c : ConnId) : List RelayEvent -> Nat
  | [] => 0
  | e :: log => (if e.conn = c then e.enqueued.length else 0) + enqueuedBy c log

/-- The number of frames received on a connection. -/
def framesOn (c : ConnId) : List RelayLabel -> Nat
  | [] => 0
  | .receive c' _ :: labels => (if c' = c then 1 else 0) + framesOn c labels
  | _ :: labels => framesOn c labels

/-- What a socket may still enqueue without receiving another frame. -/
inductive Owes : Nat -> Activity -> Prop where
  | vacant : Owes cleanupVolume .vacant
  | idle : Owes cleanupVolume .idle
  | handling {n frame receivedAs past task} (hsends : Handler.Sends 0 n task) :
      Owes (n + cleanupVolume) (.handling frame receivedAs past task)
  | closing {n task} (hsends : Handler.Sends 0 n task) : Owes n (.closing task)
  | closed : Owes 0 .closed
  | panicked : Owes 0 .panicked

def Covered (c : ConnId) (labels : List RelayLabel) (s : Relay) : Prop :=
  exists n, Owes n (s.activity c) ∧
    enqueuedBy c s.log + n ≤ frameVolume * framesOn c labels + cleanupVolume

section

variable {env : Env} {auth : AuthManager} {database : Database} {labels : List RelayLabel}
  {s s' : Relay} {l : RelayLabel} {c c' : ConnId} {a : Ambient} {call : Call}

theorem framesOn_append (c : ConnId) (labels more : List RelayLabel) :
    framesOn c (labels ++ more) = framesOn c labels + framesOn c more := by
  induction labels with
  | nil => exact (Nat.zero_add _).symm
  | cons l rest ih =>
      cases l
      case receive c' frame =>
        show (if c' = c then 1 else 0) + framesOn c (rest ++ more) =
          (if c' = c then 1 else 0) + framesOn c rest + framesOn c more
        omega
      all_goals exact ih

theorem framesOn_le_append (c : ConnId) (labels more : List RelayLabel) :
    framesOn c labels ≤ framesOn c (labels ++ more) := by
  rw [framesOn_append]
  exact Nat.le_add_right _ _

theorem enqueued_perform (hclients : forall u, (s.broker.entry u).clientTxs.length ≤ maxClients)
    (a : Ambient) (call : Call) :
    (newlyEnqueued s.broker (s.app.exec env a call).1.broker).length ≤ call.volume 0 := by
  rcases broker_perform_cases env s 0 a call with ⟨op, rfl⟩ | ⟨-, hsame⟩
  · rcases Broker.enqueuesAtMost_exec hclients a.now op with ⟨new, hnew, hlength⟩
    exact Nat.le_trans (Nat.le_of_eq (congrArg List.length (newlyEnqueued_of_append hnew)))
      hlength
  · have hnone : newlyEnqueued s.broker (s.app.exec env a call).1.broker = [] :=
      newlyEnqueued_of_append (congrArg Broker.delivered hsame)
    rw [hnone]
    exact Nat.zero_le _

theorem enqueuedBy_perform (env : Env) (c : ConnId)
    (hclients : forall u, (s.broker.entry u).clientTxs.length ≤ maxClients) (a : Ambient)
    (call : Call) :
    enqueuedBy c (s.perform env c a call).log ≤ enqueuedBy c s.log + call.volume 0 := by
  rw [log_perform, enqueuedBy, if_pos rfl, Nat.add_comm]
  exact Nat.add_le_add_left (enqueued_perform hclients a call) _

theorem enqueuedBy_perform_ne (hne : c ≠ c') (a : Ambient) (call : Call) :
    enqueuedBy c (s.perform env c' a call).log = enqueuedBy c s.log := by
  rw [log_perform, enqueuedBy, if_neg hne.symm, Nat.zero_add]

theorem Covered.pay {n : Nat} (h : enqueuedBy c s.log + n ≤
      frameVolume * framesOn c labels + cleanupVolume) {m : Nat}
    (howes : Owes m (s'.activity c)) (hlog : enqueuedBy c s'.log + m ≤ enqueuedBy c s.log + n) :
    s'.Covered c (labels ++ [l]) := by
  have hframes := Nat.mul_le_mul_left frameVolume (framesOn_le_append c labels [l])
  exact ⟨m, howes, by omega⟩

theorem Covered.keep (h : s.Covered c labels) (hactivity : s'.activity c = s.activity c)
    (hlog : enqueuedBy c s'.log = enqueuedBy c s.log) : s'.Covered c (labels ++ [l]) := by
  rcases h with ⟨n, howes, hle⟩
  refine Covered.pay hle (m := n) ?_ ?_
  · rw [hactivity]
    exact howes
  · rw [hlog]

theorem covered_step (hclients : forall u, (s.broker.entry u).clientTxs.length ≤ maxClients)
    (h : s.Covered c labels) (hstep : Transition env s l s') : s'.Covered c (labels ++ [l]) := by
  cases hstep with
  | connect hvacant hsockets haccount hlog hclock halive =>
      rename_i c' ip
      by_cases hc : c = c'
      · subst hc
        rcases h with ⟨n, howes, hle⟩
        rw [hvacant] at howes
        cases howes
        have hact : s'.activity c = .idle := by
          rw [activity, hsockets, Function.update_self]
        refine Covered.pay hle (m := cleanupVolume) ?_ ?_
        · rw [hact]
          exact .idle
        · rw [hlog]
      · refine h.keep ?_ (by rw [hlog])
        rw [activity, activity, hsockets, Function.update_of_ne hc]
  | receive hidle =>
      rename_i c' frame
      by_cases hc : c = c'
      · subst hc
        rcases h with ⟨n, howes, hle⟩
        rw [hidle] at howes
        cases howes
        refine ⟨frameVolume + cleanupVolume, ?_, ?_⟩
        · rw [activity_setActivity_same]
          exact .handling (Handler.processWsMessage_sends env frame _ c _ (Or.inl rfl))
        · have hframe : framesOn c [.receive c frame] = 1 := if_pos rfl
          rw [log_setActivity, framesOn_append, hframe, Nat.mul_add]
          omega
      · exact h.keep (activity_setActivity_ne s _ hc) rfl
  | resume hclock hbusy =>
      rename_i c' a frame receivedAs past call next
      by_cases hc : c = c'
      · subst hc
        rcases h with ⟨n, howes, hle⟩
        rw [hbusy] at howes
        cases howes with
        | handling hsends =>
            rename_i m
            have hcost : call.volume 0 ≤ m := hsends.1
            have hpaid := enqueuedBy_perform env c hclients a call
            refine Covered.pay hle ?_ ?_ (m := m - call.volume 0 + cleanupVolume)
            · rw [activity_setActivity_same]
              exact .handling (hsends.2 _)
            · rw [log_setActivity]
              omega
      · refine h.keep ?_ (enqueuedBy_perform_ne hc a call)
        rw [activity_setActivity_ne _ _ hc, activity_perform]
  | panic hclock hbusy =>
      rename_i c' a frame receivedAs past next
      by_cases hc : c = c'
      · subst hc
        rcases h with ⟨n, howes, hle⟩
        have hpaid := enqueuedBy_perform env c hclients a .panic
        have hvolume : Call.volume 0 .panic = 0 := rfl
        refine Covered.pay hle ?_ ?_ (m := 0)
        · rw [activity_setActivity_same]
          exact .panicked
        · rw [log_setActivity]
          omega
      · refine h.keep ?_ (enqueuedBy_perform_ne hc a .panic)
        rw [activity_setActivity_ne _ _ hc, activity_perform]
  | returned hbusy =>
      rename_i c' frame receivedAs past
      by_cases hc : c = c'
      · subst hc
        rcases h with ⟨n, howes, hle⟩
        rw [hbusy] at howes
        cases howes with
        | handling hsends =>
            refine Covered.pay hle ?_ ?_ (m := cleanupVolume)
            · rw [activity_setActivity_same]
              exact .idle
            · rw [log_setActivity]
              omega
      · exact h.keep (activity_setActivity_ne s _ hc) rfl
  | hangUp hidle =>
      rename_i c'
      by_cases hc : c = c'
      · subst hc
        rcases h with ⟨n, howes, hle⟩
        rw [hidle] at howes
        cases howes
        refine Covered.pay hle ?_ (Nat.le_refl _)
        rw [activity_setActivity_same]
        exact .closing Handler.cleanup_sends
      · exact h.keep (activity_setActivity_ne s _ hc) rfl
  | clean hclock hbusy =>
      rename_i c' a call next
      by_cases hc : c = c'
      · subst hc
        rcases h with ⟨n, howes, hle⟩
        rw [hbusy] at howes
        cases howes with
        | closing hsends =>
            have hcost : call.volume 0 ≤ n := hsends.1
            have hpaid := enqueuedBy_perform env c hclients a call
            refine Covered.pay hle ?_ ?_ (m := n - call.volume 0)
            · rw [activity_setActivity_same]
              exact .closing (hsends.2 _)
            · rw [log_setActivity]
              omega
      · refine h.keep ?_ (enqueuedBy_perform_ne hc a call)
        rw [activity_setActivity_ne _ _ hc, activity_perform]
  | closed hbusy =>
      rename_i c'
      by_cases hc : c = c'
      · subst hc
        rcases h with ⟨n, howes, hle⟩
        refine Covered.pay hle ?_ ?_ (m := 0)
        · rw [activity_setActivity_same]
          exact .closed
        · show enqueuedBy c s.log + 0 ≤ _
          omega
      · refine h.keep ?_ rfl
        rw [activity_setActivity_ne _ _ hc, activity_setBroker]
  | background hquiet =>
      refine h.keep ?_ (by rw [hquiet.log])
      rw [activity, activity, hquiet.sockets]

/-- No connection makes the relay send out of proportion: over a whole run its handlers and its
cleanup enqueue at most, for each frame received on it, a message to every client an account may
have and two more, and once a message to each of them and one more for its end. -/
theorem volume_bounded (hrun : Runs env auth database labels s) (c : ConnId) :
    enqueuedBy c s.log ≤
      (maxClients + 2) * framesOn c labels + (maxClients + 1) := by
  have hcovered : s.Covered c labels := by
    refine runs_labels_induction (motive := fun labels s => s.Covered c labels) ?_ ?_ hrun
    · exact ⟨cleanupVolume, .vacant, Nat.le_refl _⟩
    · intro labels s l s' hbefore ih hstep
      have hclients := broker_induction
        (motive := fun b => forall u, (b.entry u).clientTxs.length ≤ maxClients)
        (fun _ _ hruns u => BrokerRun.bounded_of_runs hruns u) hbefore
      exact covered_step hclients ih (step_transition hstep)
  rcases hcovered with ⟨n, _, hle⟩
  exact Nat.le_trans (Nat.le_add_right _ n) hle

/-- A desktop that takes over closes the one before it and tells the phone: two messages besides
the answers to its own two frames. -/
theorem volume_bounded_example : exists s,
    Runs Deployment.env Deployment.auth Deployment.database (deskAndPhone ++ takeOver) s ∧
      enqueuedBy 3 s.log = 4 ∧
      enqueuedBy 3 s.log ≤ (maxClients + 2) * framesOn 3 (deskAndPhone ++ takeOver) +
        (maxClients + 1) := by
  have hend : (Deployment.after (deskAndPhone ++ takeOver)).map
      (fun s => enqueuedBy 3 s.log) = some 4 := by decide +kernel
  rcases Option.map_eq_some_iff.mp hend with ⟨s, hrun, hcount⟩
  exact ⟨s, hrun, hcount, volume_bounded hrun 3⟩

end

end Relay

end CommandRelay
