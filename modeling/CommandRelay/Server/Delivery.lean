import CommandRelay.Broker.Relayed
import CommandRelay.Broker.Supervisor
import CommandRelay.Server.BrokerView

/-!
# What one peer gets of another

A handler passes its own frame on, at most once, and nothing else.  Since a socket
handles its frames one after another, what any connection gets of them is a part of what
was received, in the order it was received in.
-/

namespace CommandRelay

open Foundation

def Call.relayed? : Call -> Option WsMessage
  | .broker op => op.relayed?
  | _ => none

def ControlMessage.clamped : ControlMessage -> ControlMessage
  | .sessionNotification sessionId title body =>
      .sessionNotification sessionId (Handler.takeChars 120 title) (Handler.takeChars 300 body)
  | msg => msg

def Inbound.relayed? : Inbound -> Option WsMessage
  | .text size (some msg) =>
      if maxTextMessageSize < size then none else (WsMessage.text msg.clamped).relayed?
  | .text _ none => none
  | .binary data => if maxBinaryMessageSize < data.length then none else some (.binary data)
  | .other => none

def Call.resolves : Call -> Bool
  | .broker (.resolveSupervisor ..) => true
  | _ => false

def Call.Plausible : (call : Call) -> call.Reply -> Prop
  | .broker (.beginSupervisorQuery ..), .replay stored => stored.isRelayed = false
  | _, _ => True

namespace Handler

def Passes : Option WsMessage -> Handler Unit -> Prop
  | _, .done _ => True
  | m, .invoke call next =>
      (call.relayed? = none ∧ forall r, call.Plausible r -> Passes m (next r)) ∨
        call.relayed? = m ∧ call.resolves = false ∧
          forall r, call.Plausible r -> Passes none (next r)

section

variable {m : Option WsMessage} {task : Handler Unit} {call : Call}

theorem passes_skip : Passes m skip := trivial

theorem Passes.weaken (h : Passes none task) : Passes m task := by
  induction task with
  | done value => trivial
  | invoke call next ih =>
      rcases h with ⟨hcall, hnext⟩ | ⟨hcall, _, hnext⟩
      · exact Or.inl ⟨hcall, fun r hr => ih r (hnext r hr)⟩
      · exact Or.inl ⟨hcall, fun r hr => ih r (hnext r hr)⟩

theorem passes_none_invoke {next : call.Reply -> Handler Unit}
    (h : Passes none (.invoke call next)) :
    call.relayed? = none ∧ forall r, call.Plausible r -> Passes none (next r) := by
  rcases h with ⟨hcall, hnext⟩ | ⟨hcall, _, hnext⟩
  · exact ⟨hcall, hnext⟩
  · exact ⟨hcall, hnext⟩

theorem Passes.next {next : call.Reply -> Handler Unit} {r : call.Reply}
    (h : Passes m (.invoke call next)) (hr : call.Plausible r) :
    exists m', Passes m' (next r) ∧ (forall x, m' = some x -> m = some x) ∧
      forall x, call.relayed? = some x -> m = some x := by
  rcases h with ⟨hcall, hnext⟩ | ⟨hcall, _, hnext⟩
  · exact ⟨m, hnext r hr, fun _ => id, fun x hx => by rw [hcall] at hx; cases hx⟩
  · exact ⟨none, hnext r hr, (fun x hx => by cases hx), fun x hx => hcall ▸ hx⟩

theorem passes_ask {next : call.Reply -> Handler Unit} (hcall : call.relayed? = none)
    (hnext : forall r, call.Plausible r -> Passes m (next r)) : Passes m (ask call >>= next) :=
  Or.inl ⟨hcall, hnext⟩

theorem passes_then (hcall : call.relayed? = none) (htask : Passes m task) :
    Passes m (act call >>= fun _ => task) :=
  Or.inl ⟨hcall, fun _ _ => htask⟩

theorem passes_act (hcall : call.relayed? = none) : Passes m (act call) :=
  Or.inl ⟨hcall, fun _ _ => trivial⟩

theorem passes_on (hcall : call.relayed? = m) (hquery : call.resolves = false) :
    Passes m (act call) :=
  Or.inr ⟨hcall, hquery, fun _ _ => trivial⟩

theorem passes_sendTo (tx : Option ConnId) (msg : WsMessage) :
    Passes msg.relayed? (sendTo tx msg) := by
  cases tx with
  | none => exact passes_skip
  | some tx => exact passes_on rfl rfl

end

section

variable {m : Option WsMessage} {msg : ControlMessage} {id kind u d title body key ip : String}
  {text passwordHash totp deviceToken desktopKey : Option String} {size : UInt64}
  {role : ConnectionRole} {c : ConnId} {data : Slice}

/-! Authentication and the administration of devices pass nothing on. -/

theorem authDesktopKey_passes : Passes m (authDesktopKey u key c) := by
  refine passes_ask rfl fun verified _ => ?_
  split
  · exact passes_then rfl (passes_then rfl (passes_act rfl))
  · exact passes_then rfl (passes_act rfl)

theorem enrolDevice_passes : Passes m (enrolDevice u c ip) := by
  refine passes_then rfl (passes_ask rfl fun online _ => ?_)
  cases online with
  | false => exact passes_act rfl
  | true =>
      refine passes_ask rfl fun registered _ => ?_
      cases registered with
      | error _ => exact passes_act rfl
      | ok deviceId => exact passes_then rfl (passes_act rfl)

theorem authTotp_passes : Passes m (authTotp u totp c ip) := by
  refine passes_ask rfl fun configured _ => ?_
  split
  · cases totp with
    | none => exact passes_act rfl
    | some code =>
        refine passes_ask rfl fun verified _ => ?_
        cases verified with
        | ok _ => exact enrolDevice_passes
        | error _ => exact passes_then rfl (passes_act rfl)
  · exact enrolDevice_passes

theorem authPassword_passes : Passes m (authPassword u passwordHash totp c ip) := by
  cases passwordHash with
  | none => exact passes_act rfl
  | some passwordHash =>
      refine passes_ask rfl fun verified _ => ?_
      cases verified with
      | ok _ => exact authTotp_passes
      | error _ => exact passes_then rfl (passes_act rfl)

theorem welcomeDevice_passes : Passes m (welcomeDevice u d c ip) := by
  refine passes_then rfl (passes_then rfl (passes_ask rfl fun token _ => ?_))
  cases token with
  | error _ => exact passes_act rfl
  | ok token =>
      exact passes_then rfl (passes_then rfl (passes_ask rfl fun _ _ => passes_act rfl))

theorem authDeviceToken_passes {token : String} :
    Passes m (authDeviceToken u token passwordHash totp c ip) := by
  refine passes_ask rfl fun claims _ => ?_
  cases claims with
  | error _ => exact authPassword_passes
  | ok claims =>
      by_cases hsub : claims.sub = u
      · simp only [if_pos hsub]
        refine passes_ask rfl fun registered _ => ?_
        cases registered with
        | true => exact welcomeDevice_passes
        | false => exact authPassword_passes
      · simp only [if_neg hsub]
        exact authPassword_passes

theorem handleAuth_passes :
    Passes m (handleAuth u passwordHash totp deviceToken desktopKey c ip) := by
  refine passes_ask rfl fun limited _ => ?_
  cases limited with
  | some retryAfter => exact passes_act rfl
  | none =>
      cases desktopKey with
      | some key => exact authDesktopKey_passes
      | none =>
          cases deviceToken with
          | some token => exact authDeviceToken_passes
          | none => exact authPassword_passes

theorem handleDesktopRegister_passes {capabilities : Option (List String)} :
    Passes m (handleDesktopRegister capabilities role c) := by
  cases role with
  | client u d => exact passes_then rfl (passes_then rfl (passes_act rfl))
  | _ => exact passes_skip

theorem handlePushSubscribe_passes {env : Env} {subscription : Json.Value} :
    Passes m (handlePushSubscribe env subscription role) := by
  cases role with
  | client u d =>
      simp only [handlePushSubscribe]
      split
      · exact passes_skip
      · split
        · exact passes_skip
        · split
          · split
            · exact passes_act rfl
            · exact passes_skip
          · exact passes_skip
  | _ => exact passes_skip

theorem handlePushUnsubscribe_passes : Passes m (handlePushUnsubscribe role) := by
  cases role with
  | client u d => exact passes_act rfl
  | _ => exact passes_skip

theorem handleVapidKeyRequest_passes : Passes m (handleVapidKeyRequest role c) := by
  cases role with
  | unauthenticated => exact passes_skip
  | _ => exact passes_ask rfl fun _ _ => passes_act rfl

theorem handleDeviceApproved_passes : Passes m (handleDeviceApproved d role) := by
  cases role with
  | desktop u =>
      refine passes_ask rfl fun taken _ => ?_
      cases taken with
      | none => exact passes_skip
      | some pending =>
          refine passes_then rfl (passes_ask rfl fun token _ => ?_)
          cases token with
          | error _ => exact passes_skip
          | ok token => exact passes_then rfl (passes_ask rfl fun _ _ => passes_act rfl)
  | _ => exact passes_skip

theorem handleDeviceRejected_passes : Passes m (handleDeviceRejected d role) := by
  cases role with
  | desktop u =>
      refine passes_ask rfl fun taken _ => ?_
      cases taken with
      | none => exact passes_skip
      | some pending => exact passes_then rfl (passes_act rfl)
  | _ => exact passes_skip

theorem handleConnectedDevicesRequest_passes :
    Passes m (handleConnectedDevicesRequest role c) := by
  cases role with
  | desktop u => exact passes_ask rfl fun _ _ => passes_act rfl
  | _ => exact passes_skip

theorem handleDeviceRevoke_passes : Passes m (handleDeviceRevoke d role c) := by
  cases role with
  | desktop u =>
      exact passes_then rfl (passes_then rfl (passes_then rfl (passes_act rfl)))
  | _ => exact passes_skip

/-! Transfers, bursts and queries pass their frame on. -/

theorem handleFileUploadBegin_passes :
    Passes (WsMessage.text msg).relayed? (handleFileUploadBegin msg id kind size role c) := by
  cases role with
  | unauthenticated => exact passes_skip
  | client u d =>
      simp only [handleFileUploadBegin]
      split
      · exact passes_act rfl
      · refine passes_ask rfl fun begun _ => ?_
        cases begun with
        | error reason => exact passes_act rfl
        | ok _ =>
            by_cases hkind : kind = "bug_report"
            · simp only [if_pos hkind]
              exact passes_then rfl (passes_on rfl rfl)
            · simp only [if_neg hkind]
              exact passes_on rfl rfl
  | desktop u =>
      simp only [handleFileUploadBegin]
      split
      · exact passes_skip
      · refine passes_ask rfl fun begun _ => ?_
        cases begun with
        | error _ => exact passes_skip
        | ok _ => exact passes_act rfl

theorem finishUpload_passes : Passes (WsMessage.text msg).relayed? (finishUpload msg u id c) :=
  passes_then rfl (passes_on rfl rfl)

theorem handleFileUploadEnd_passes :
    Passes (WsMessage.text msg).relayed? (handleFileUploadEnd msg id text role c) := by
  cases role with
  | unauthenticated => exact passes_skip
  | client u d =>
      refine passes_ask rfl fun buffer _ => ?_
      cases buffer with
      | none => exact finishUpload_passes
      | some screenshot =>
          refine passes_then rfl (passes_ask rfl fun online _ => ?_)
          cases online with
          | true => exact finishUpload_passes
          | false => exact passes_then rfl (passes_act rfl)
  | desktop u =>
      refine passes_ask rfl fun buffer _ => ?_
      cases buffer with
      | none => exact passes_act rfl
      | some screenshot => exact passes_then rfl (passes_act rfl)

theorem handleFileUploadResult_passes :
    Passes (WsMessage.text msg).relayed? (handleFileUploadResult msg id role) := by
  cases role with
  | desktop u => exact passes_ask rfl fun tx _ => passes_sendTo tx _
  | _ => exact passes_skip

theorem handleFileDownloadRequest_passes :
    Passes (WsMessage.text msg).relayed? (handleFileDownloadRequest msg id role c) := by
  cases role with
  | client u d =>
      refine passes_ask rfl fun granted _ => ?_
      cases granted with
      | error reason => exact passes_act rfl
      | ok _ => exact passes_on rfl rfl
  | _ => exact passes_skip

theorem handleFileDownloadBegin_passes :
    Passes (WsMessage.text msg).relayed? (handleFileDownloadBegin msg id size role) := by
  cases role with
  | desktop u => exact passes_ask rfl fun tx _ => passes_sendTo tx _
  | _ => exact passes_skip

theorem handleFileDownloadEnd_passes :
    Passes (WsMessage.text msg).relayed? (handleFileDownloadEnd msg id role) := by
  cases role with
  | desktop u => exact passes_ask rfl fun tx _ => passes_sendTo tx _
  | _ => exact passes_skip

theorem handleSessionListRequest_passes :
    Passes (WsMessage.text .sessionListRequest).relayed? (handleSessionListRequest role c) := by
  cases role with
  | client u d => exact passes_then rfl (passes_on rfl rfl)
  | _ => exact passes_skip

theorem handleReplayBegin_passes : Passes m (handleReplayBegin role) := by
  cases role with
  | desktop u => exact passes_act rfl
  | _ => exact passes_skip

theorem handleSessionList_passes :
    Passes (WsMessage.text msg).relayed? (handleSessionList msg role) := by
  cases role with
  | desktop u =>
      refine passes_ask rfl fun target _ => ?_
      cases target with
      | none => exact passes_on rfl rfl
      | some tx => exact passes_on rfl rfl
  | _ => exact passes_skip

theorem handleSupervisorQuery_passes :
    Passes (WsMessage.text msg).relayed? (handleSupervisorQuery msg id role c) := by
  cases role with
  | client u d =>
      refine passes_ask rfl fun online _ => ?_
      cases online with
      | false => exact passes_act rfl
      | true =>
          refine passes_ask rfl fun decision hplausible => ?_
          cases decision with
          | replay stored =>
              have hstored : stored.isRelayed = false := hplausible
              exact passes_act (if_neg (by simp [WsMessage.isRelayed, hstored]))
          | reowned => exact passes_skip
          | capacity => exact passes_act rfl
          | forward => exact passes_on rfl rfl
  | _ => exact passes_skip

theorem handleSupervisorReply_passes (hmsg : (WsMessage.text msg).relayed? = none) :
    Passes m (handleSupervisorReply msg id role) := by
  cases role with
  | desktop u => exact passes_act hmsg
  | _ => exact passes_skip

theorem forwardToDesktop_passes :
    Passes (WsMessage.text msg).relayed? (forwardToDesktop msg role) := by
  cases role with
  | client u d => exact passes_on rfl rfl
  | _ => exact passes_skip

theorem forwardToClients_passes :
    Passes (WsMessage.text msg).relayed? (forwardToClients msg role) := by
  cases role with
  | desktop u => exact passes_on rfl rfl
  | _ => exact passes_skip

theorem handleSessionRenamed_passes :
    Passes (WsMessage.text msg).relayed? (handleSessionRenamed msg role) := by
  cases role with
  | unauthenticated => exact passes_skip
  | client u d => exact passes_on rfl rfl
  | desktop u => exact passes_on rfl rfl

theorem handleSessionNotification_passes :
    Passes (WsMessage.text (ControlMessage.sessionNotification id title body).clamped).relayed?
      (handleSessionNotification id title body role) := by
  cases role with
  | desktop u => exact Or.inr ⟨rfl, rfl, fun _ _ => passes_act rfl⟩
  | _ => exact passes_skip

theorem handleControlMessage_passes (env : Env) :
    Passes (WsMessage.text msg.clamped).relayed? (handleControlMessage env msg role c ip) := by
  cases msg
  case ping => exact passes_act rfl
  case auth version username passwordHash totp deviceToken desktopKey =>
      unfold handleControlMessage
      by_cases hvalid : isValidUsername username = true
      · simp only [if_pos hvalid]
        exact handleAuth_passes
      · simp only [if_neg hvalid]
        exact passes_act rfl
  case desktopRegister => exact handleDesktopRegister_passes
  case sessionSpawnRequest => exact forwardToDesktop_passes
  case sessionCloseRequest => exact forwardToDesktop_passes
  case ptyResize => exact forwardToDesktop_passes
  case fileUploadBegin => exact handleFileUploadBegin_passes
  case fileUploadEnd => exact handleFileUploadEnd_passes
  case fileUploadResult => exact handleFileUploadResult_passes
  case fileDownloadRequest => exact handleFileDownloadRequest_passes
  case fileDownloadBegin => exact handleFileDownloadBegin_passes
  case fileDownloadEnd => exact handleFileDownloadEnd_passes
  case sessionListRequest => exact handleSessionListRequest_passes
  case replayBegin => exact handleReplayBegin_passes
  case supervisorQuery => exact handleSupervisorQuery_passes
  case supervisorResult => exact handleSupervisorReply_passes rfl
  case supervisorError => exact handleSupervisorReply_passes rfl
  case sessionRenamed => exact handleSessionRenamed_passes
  case sessionCreated => exact forwardToClients_passes
  case sessionClosed => exact forwardToClients_passes
  case contextUpdate => exact forwardToClients_passes
  case ptyResized => exact forwardToClients_passes
  case sessionList => exact handleSessionList_passes
  case sessionNotification => exact handleSessionNotification_passes
  case pushSubscribe => exact handlePushSubscribe_passes
  case pushUnsubscribe => exact handlePushUnsubscribe_passes
  case vapidKeyRequest => exact handleVapidKeyRequest_passes
  case deviceApproved => exact handleDeviceApproved_passes
  case deviceRejected => exact handleDeviceRejected_passes
  case connectedDevicesRequest => exact handleConnectedDevicesRequest_passes
  case deviceRevoke => exact handleDeviceRevoke_passes
  all_goals exact passes_skip

theorem handleFileChunk_passes :
    Passes (some (.binary data.bytes)) (handleFileChunk data id u c) := by
  refine passes_ask rfl fun decision _ => ?_
  cases decision with
  | forward => exact passes_on rfl rfl
  | overrun => exact passes_act rfl
  | drop => exact passes_skip

theorem handleFileDownloadChunk_passes :
    Passes (some (.binary data.bytes)) (handleFileDownloadChunk data id u) := by
  refine passes_ask rfl fun decision _ => ?_
  cases decision with
  | forward tx => exact passes_on rfl rfl
  | overrun tx => exact passes_act rfl
  | drop => exact passes_skip

theorem handleScrollback_passes :
    Passes (some (.binary data.bytes)) (handleScrollback data u) := by
  refine passes_ask rfl fun target _ => ?_
  cases target with
  | none => exact passes_on rfl rfl
  | some tx => exact passes_on rfl rfl

theorem handleBinaryMessage_passes (data : Slice) :
    Passes (some (.binary data.bytes)) (handleBinaryMessage data role c) := by
  unfold handleBinaryMessage
  split
  · exact passes_skip
  · rename_i frameType uploadId payload hparse
    cases role with
    | unauthenticated => exact passes_skip
    | client u d =>
        simp only []
        split
        · exact passes_on rfl rfl
        · split
          · exact handleFileChunk_passes
          · exact passes_skip
    | desktop u =>
        simp only []
        split
        · exact passes_act rfl
        · split
          · exact handleFileDownloadChunk_passes
          · split
            · exact passes_on rfl rfl
            · split
              · exact handleScrollback_passes
              · exact passes_skip

theorem processWsMessage_passes (env : Env) (frame : Inbound) (role : ConnectionRole)
    (c : ConnId) (ip : String) :
    Passes frame.relayed? (processWsMessage env frame role c ip) := by
  cases frame with
  | other => exact passes_skip
  | text size parsed =>
      cases parsed with
      | none =>
          show Passes _ (if maxTextMessageSize < size then skip else skip)
          rw [ite_self]
          exact passes_skip
      | some msg =>
          unfold processWsMessage Inbound.relayed?
          by_cases hsize : maxTextMessageSize < size
          · simp only [if_pos hsize]
            exact passes_skip
          · simp only [if_neg hsize]
            exact handleControlMessage_passes env
  | binary data =>
      unfold processWsMessage Inbound.relayed?
      by_cases hsize : maxBinaryMessageSize < data.length
      · simp only [dif_pos hsize]
        exact passes_skip
      · simp only [dif_neg hsize, if_neg hsize]
        exact handleBinaryMessage_passes ⟨data, _⟩

theorem cleanup_passes : Passes m (cleanup role c) := by
  cases role with
  | unauthenticated => exact passes_act rfl
  | client u d => exact passes_then rfl (passes_act rfl)
  | desktop u => exact passes_then rfl (passes_act rfl)

end

end Handler

/-!
## Stored replies
-/

namespace Broker

def Parked (kind : WsMessage -> Bool) (b : Broker) : Prop :=
  forall u id e reply, b.query? u id = some e -> e.stored = some reply ->
    kind (.text reply) = false

section

variable {kind : WsMessage -> Bool} {b : Broker} {now : Instant} {op : BrokerCall}

theorem Parked.exec (h : b.Parked kind)
    (hreply : forall u id reply, op = .resolveSupervisor u id reply ->
      kind (.text reply) = false) : (b.exec now op).1.Parked kind := by
  intro u id e reply he hstored
  have hswept : forall e, SupervisorEntry.swept now (b.query? u id) = some e ->
      e.stored = some reply -> kind (.text reply) = false :=
    fun e he => h u id e reply (Option.filter_eq_some_iff.mp he).1
  by_cases habout : op.subject? = some u ∧ .supervisor ∈ op.touches
  · cases op
    case beginSupervisorQuery v query conn =>
        cases habout.1
        rw [query?_beginSupervisorQuery] at he
        by_cases hid : id = query
        · rw [if_pos hid] at he
          cases hdecision : (b.exec now (.beginSupervisorQuery u query conn)).2 with
          | replay _ =>
              rw [hdecision] at he
              cases he
          | reowned =>
              rw [hdecision] at he
              rcases Option.map_eq_some_iff.mp he with ⟨old, hold, heq⟩
              subst heq
              exact hswept old hold hstored
          | capacity =>
              rw [hdecision] at he
              exact hswept e he hstored
          | forward =>
              rw [hdecision] at he
              cases he
              cases hstored
        · rw [if_neg hid] at he
          exact hswept e he hstored
    case resolveSupervisor v query answer =>
        cases habout.1
        rw [query?_resolveSupervisor] at he
        by_cases hid : id = query
        · rw [if_pos hid] at he
          cases houtcome : (b.exec now (.resolveSupervisor u query answer)).2 with
          | delivered =>
              rw [houtcome] at he
              cases he
          | stored =>
              rw [houtcome] at he
              rcases Option.map_eq_some_iff.mp he with ⟨old, _, heq⟩
              subst heq
              cases hstored
              exact hreply u query reply rfl
          | unknown =>
              rw [houtcome] at he
              exact hswept e he hstored
        · rw [if_neg hid] at he
          exact hswept e he hstored
    all_goals simp [BrokerCall.touches] at habout
  · have hother : op.subject? ≠ some u ∨ .supervisor ∉ op.touches :=
      Decidable.not_and_iff_not_or_not.mp habout
    rw [query?_exec_other hother] at he
    exact h u id e reply he hstored

end

end Broker

theorem Call.plausible_of_parked {env : Env} {app : App} {a : Ambient}
    (h : app.broker.Parked WsMessage.isRelayed) (call : Call) :
    call.Plausible (app.exec env a call).2 := by
  cases call
  case broker op =>
      cases op
      case beginSupervisorQuery u id conn =>
          have hdecided := app.broker.exec_beginSupervisorQuery_decided a.now u id conn
          cases hreply : (app.broker.exec a.now (.beginSupervisorQuery u id conn)).2 with
          | replay stored =>
              rw [hreply] at hdecided
              rcases hdecided with ⟨e, he, hstored⟩
              show Call.Plausible (.broker (.beginSupervisorQuery u id conn))
                (app.broker.exec a.now (.beginSupervisorQuery u id conn)).2
              rw [hreply]
              exact h u id e stored (Option.filter_eq_some_iff.mp he).1 hstored
          | _ =>
              show Call.Plausible (.broker (.beginSupervisorQuery u id conn))
                (app.broker.exec a.now (.beginSupervisorQuery u id conn)).2
              rw [hreply]
              trivial
      all_goals trivial
  all_goals trivial

/-!
## Runs
-/

def RelayLabel.received? (c : ConnId) : RelayLabel -> Option WsMessage
  | .receive c' frame => if c' = c then frame.relayed? else none
  | _ => none

theorem received?_of_ne {c : ConnId} {l : RelayLabel} (h : forall frame, l ≠ .receive c frame) :
    l.received? c = none := by
  cases l with
  | receive c' frame =>
      have hc : c' ≠ c := fun heq => h frame (heq ▸ rfl)
      exact if_neg hc
  | _ => rfl

/-- What there is to pass on of the frames received on a connection, oldest first. -/
def receivedOn (c : ConnId) (labels : List RelayLabel) : List WsMessage :=
  labels.filterMap (RelayLabel.received? c)

theorem receivedOn_snoc (c : ConnId) (labels : List RelayLabel) (l : RelayLabel) :
    receivedOn c (labels ++ [l]) = receivedOn c labels ++ (l.received? c).toList := by
  unfold receivedOn
  rw [List.filterMap_append]
  cases h : l.received? c <;> simp [h]

/-- What the handlers of one connection have passed on to another, oldest first. -/
def relayedFrom (c r : ConnId) (log : List RelayEvent) : List WsMessage :=
  (log.flatMap fun e => if e.conn = c then relayedTo r e.enqueued else []).reverse

theorem relayedFrom_cons (c r : ConnId) (e : RelayEvent) (log : List RelayEvent) :
    relayedFrom c r (e :: log) =
      relayedFrom c r log ++ (if e.conn = c then relayedTo r e.enqueued else []).reverse := by
  unfold relayedFrom
  rw [List.flatMap_cons, List.reverse_append]

namespace Relay

def Remains (s : Relay) (c : ConnId) (m : Option WsMessage) : Prop :=
  match s.activity c with
  | .handling _ _ _ task => Handler.Passes m task
  | .closing task => Handler.Passes none task
  | _ => True

/-- What a connection's handlers have passed on, followed by what is left of the current
frame, is a part of what was received, in order. -/
def Carries (labels : List RelayLabel) (s : Relay) (c : ConnId) : Prop :=
  exists m, s.Remains c m ∧ forall r,
    List.Sublist (relayedFrom c r s.log ++ m.toList) (receivedOn c labels)

section

variable {env : Env} {s s' : Relay} {labels : List RelayLabel} {l : RelayLabel} {c : ConnId}
  {a : Ambient} {call : Call}

theorem sublist_received_snoc (c : ConnId) (labels : List RelayLabel) (l : RelayLabel) :
    List.Sublist (receivedOn c labels) (receivedOn c (labels ++ [l])) := by
  rw [receivedOn_snoc]
  exact List.sublist_append_left _ _

theorem Carries.drop (h : s.Carries labels c) (r : ConnId) :
    List.Sublist (relayedFrom c r s.log) (receivedOn c labels) := by
  rcases h with ⟨m, _, hsub⟩
  exact (List.sublist_append_left _ _).trans (hsub r)

theorem Carries.keep (h : s.Carries labels c) (hactivity : s'.activity c = s.activity c)
    (hlog : forall r, relayedFrom c r s'.log = relayedFrom c r s.log) :
    s'.Carries (labels ++ [l]) c := by
  rcases h with ⟨m, hremains, hsub⟩
  refine ⟨m, ?_, fun r => ?_⟩
  · unfold Remains
    rw [hactivity]
    exact hremains
  · rw [hlog]
    exact (hsub r).trans (sublist_received_snoc c labels l)

theorem Carries.rest (h : s.Carries labels c) (hremains : s'.Remains c none)
    (hlog : forall r, relayedFrom c r s'.log = relayedFrom c r s.log) :
    s'.Carries (labels ++ [l]) c := by
  refine ⟨none, hremains, fun r => ?_⟩
  rw [hlog, Option.toList_none, List.append_nil]
  exact (h.drop r).trans (sublist_received_snoc c labels l)

theorem relayedFrom_perform_ne {c' : ConnId} (hne : c' ≠ c) (r : ConnId) :
    relayedFrom c r (s.perform env c' a call).log = relayedFrom c r s.log := by
  rw [log_perform, relayedFrom_cons, if_neg hne]
  exact List.append_nil _

theorem sublist_perform (env : Env) (s : Relay) (c : ConnId) (a : Ambient) (call : Call)
    (hnodup : forall u, ((s.broker.clients u).map ClientConnection.tx).Nodup) (r : ConnId) :
    List.Sublist (relayedTo r (newlyEnqueued s.broker (s.app.exec env a call).1.broker)).reverse
      call.relayed?.toList := by
  have hsingle : call.relayed?.toList.reverse = call.relayed?.toList := by
    cases call.relayed? <;> rfl
  rw [← hsingle, List.reverse_sublist]
  rcases broker_perform_cases env s c a call with ⟨op, rfl⟩ | ⟨-, hsame⟩
  · rcases Broker.passesOn_exec WsMessage.foreign_isRelayed hnodup a.now op with ⟨new, hnew, honce⟩
    have hnewly : newlyEnqueued s.broker (s.app.exec env a (.broker op)).1.broker = new :=
      newlyEnqueued_of_append hnew
    rw [hnewly]
    exact honce r
  · have hnothing : newlyEnqueued s.broker (s.app.exec env a call).1.broker = [] :=
      newlyEnqueued_of_append (congrArg Broker.delivered hsame)
    rw [hnothing]
    exact List.nil_sublist _

theorem relayedFrom_perform_none
    (hnodup : forall u, ((s.broker.clients u).map ClientConnection.tx).Nodup)
    (hcall : call.relayed? = none) (r : ConnId) :
    relayedFrom c r (s.perform env c a call).log = relayedFrom c r s.log := by
  have hsub := sublist_perform env s c a call hnodup r
  rw [hcall] at hsub
  rw [log_perform, relayedFrom_cons, if_pos rfl, List.sublist_nil.mp hsub]
  exact List.append_nil _

theorem Carries.perform {m : Option WsMessage} {next : call.Reply -> Handler Unit}
    (hnodup : forall u, ((s.broker.clients u).map ClientConnection.tx).Nodup)
    (hparked : s.broker.Parked WsMessage.isRelayed)
    (hpasses : Handler.Passes m (.invoke call next))
    (hsub : forall r, List.Sublist (relayedFrom c r s.log ++ m.toList) (receivedOn c labels))
    (hlog : s'.log = (s.perform env c a call).log)
    (hremains : forall m, Handler.Passes m (next (s.answer env a call)) -> s'.Remains c m) :
    s'.Carries (labels ++ [l]) c := by
  have hplausible : call.Plausible (s.answer env a call) := Call.plausible_of_parked hparked call
  rcases hpasses with ⟨hcall, hnext⟩ | ⟨hcall, _, hnext⟩
  · refine ⟨m, hremains m (hnext _ hplausible), fun r => ?_⟩
    rw [hlog, relayedFrom_perform_none hnodup hcall]
    exact (hsub r).trans (sublist_received_snoc c labels l)
  · refine ⟨none, hremains none (hnext _ hplausible), fun r => ?_⟩
    have honce := sublist_perform env s c a call hnodup r
    rw [hcall] at honce
    rw [hlog, log_perform, relayedFrom_cons, if_pos rfl, Option.toList_none, List.append_nil]
    exact (((List.append_sublist_append_left _).mpr honce).trans (hsub r)).trans
      (sublist_received_snoc c labels l)

/-- What a step is for one connection: nothing, a frame that it receives, a call of its
handler, or the end of what it was doing. -/
inductive Turn (env : Env) (c : ConnId) (s s' : Relay) (l : RelayLabel) : Prop where
  | aside (hactivity : s'.activity c = s.activity c)
      (hlog : forall r, relayedFrom c r s'.log = relayedFrom c r s.log)
      (hreceived : l.received? c = none)
  | receives {frame} (hl : l = .receive c frame) (hidle : s.activity c = .idle)
      (hs : s' = s.setActivity c (.handling frame (s.role c) []
        (Handler.processWsMessage env frame (s.role c) c (s.sockets c).ip)))
  | calls {a frame current past call next} (hl : l = .resume c a)
      (hbusy : s.activity c = .handling frame current past (.invoke call next))
      (hs : s' = (s.perform env c a call).setActivity c
        (.handling frame current (⟨call, s.answer env a call⟩ :: past)
          (next (s.answer env a call))))
  | rests (hended : forall {frame current past call next},
        s.activity c = .handling frame current past (.invoke call next) -> call = .panic)
      (hremains : s'.Remains c none)
      (hlog : forall r, relayedFrom c r s'.log = relayedFrom c r s.log)
      (hreceived : l.received? c = none)

theorem remains_setActivity {act : Activity}
    (h : forall frame current past task, act ≠ .handling frame current past task)
    (hclosing : forall task, act = .closing task -> Handler.Passes none task) :
    (s.setActivity c act).Remains c none := by
  unfold Remains
  rw [activity_setActivity_same]
  cases act with
  | handling frame current past task => exact absurd rfl (h frame current past task)
  | closing task => exact hclosing task rfl
  | _ => trivial

theorem turn_of_step {m : Option WsMessage}
    (hnodup : forall u, ((s.broker.clients u).map ClientConnection.tx).Nodup)
    (hparked : s.broker.Parked WsMessage.isRelayed) (hremains : s.Remains c m)
    (hstep : step env s l = some s') : Turn env c s s' l := by
  by_cases hreceive : exists frame, l = .receive c frame
  · rcases hreceive with ⟨frame, rfl⟩
    cases hidle : s.activity c with
    | idle =>
        simp only [Relay.step, hidle, Option.some.injEq] at hstep
        exact .receives rfl hidle hstep.symm
    | _ => simp [Relay.step, hidle] at hstep
  have hreceived : l.received? c = none :=
    received?_of_ne fun frame heq => hreceive ⟨frame, heq⟩
  unfold Remains at hremains
  cases step_transition hstep with
  | connect hvacant hsockets haccount hlog hclock halive =>
      rename_i c' ip
      have hsame : forall r, relayedFrom c r s'.log = relayedFrom c r s.log :=
        fun r => by rw [hlog]
      by_cases hc : c = c'
      · subst hc
        refine .rests (fun hact => ?_) (by simp [Remains, activity, hsockets]) hsame hreceived
        rw [hvacant] at hact
        cases hact
      · exact .aside (by simp [activity, hsockets, hc]) hsame hreceived
  | receive hidle =>
      rename_i c' frame
      have hc : c ≠ c' := fun heq => hreceive ⟨frame, heq ▸ rfl⟩
      exact .aside (activity_setActivity_ne s _ hc) (fun _ => rfl) hreceived
  | resume hclock hbusy =>
      rename_i c' a frame receivedAs past call next
      by_cases hc : c = c'
      · subst hc
        exact .calls rfl hbusy rfl
      · refine .aside ?_ (fun r => relayedFrom_perform_ne (Ne.symm hc) r) hreceived
        rw [activity_setActivity_ne _ _ hc, activity_perform]
  | panic hclock hbusy =>
      rename_i c' a frame receivedAs past next
      by_cases hc : c = c'
      · subst hc
        refine .rests (fun hact => ?_) (remains_setActivity (fun _ _ _ _ h => by cases h)
          fun _ h => by cases h) (fun r => relayedFrom_perform_none hnodup rfl r) hreceived
        rw [hbusy] at hact
        injection hact with _ _ _ htask
        injection htask with hcall
        exact hcall.symm
      · refine .aside ?_ (fun r => relayedFrom_perform_ne (Ne.symm hc) r) hreceived
        rw [activity_setActivity_ne _ _ hc, activity_perform]
  | returned hbusy =>
      rename_i c' frame receivedAs past
      by_cases hc : c = c'
      · subst hc
        refine .rests (fun hact => ?_) (remains_setActivity (fun _ _ _ _ h => by cases h)
          fun _ h => by cases h) (fun _ => rfl) hreceived
        rw [hbusy] at hact
        cases hact
      · exact .aside (activity_setActivity_ne s _ hc) (fun _ => rfl) hreceived
  | hangUp hidle =>
      rename_i c'
      by_cases hc : c = c'
      · subst hc
        refine .rests (fun hact => ?_) (remains_setActivity (fun _ _ _ _ h => by cases h)
          fun task h => ?_) (fun _ => rfl) hreceived
        · rw [hidle] at hact
          cases hact
        · cases h
          exact Handler.cleanup_passes
      · exact .aside (activity_setActivity_ne s _ hc) (fun _ => rfl) hreceived
  | clean hclock hbusy =>
      rename_i c' a call next
      by_cases hc : c = c'
      · subst hc
        rw [hbusy] at hremains
        rcases Handler.passes_none_invoke hremains with ⟨hcall, hnext⟩
        refine .rests (fun hact => ?_) (remains_setActivity (fun _ _ _ _ h => by cases h)
          fun task h => ?_) (fun r => relayedFrom_perform_none hnodup hcall r) hreceived
        · rw [hbusy] at hact
          cases hact
        · cases h
          exact hnext _ (Call.plausible_of_parked hparked call)
      · refine .aside ?_ (fun r => relayedFrom_perform_ne (Ne.symm hc) r) hreceived
        rw [activity_setActivity_ne _ _ hc, activity_perform]
  | closed hbusy =>
      rename_i c'
      by_cases hc : c = c'
      · subst hc
        refine .rests (fun hact => ?_) (remains_setActivity (fun _ _ _ _ h => by cases h)
          fun _ h => by cases h) (fun _ => rfl) hreceived
        rw [hbusy] at hact
        cases hact
      · refine .aside ?_ (fun _ => rfl) hreceived
        rw [activity_setActivity_ne _ _ hc, activity_setBroker]
  | background hquiet =>
      refine .aside ?_ (fun r => by rw [hquiet.log]) hreceived
      rw [activity, hquiet.sockets, activity]

theorem Carries.step
    (hnodup : forall u, ((s.broker.clients u).map ClientConnection.tx).Nodup)
    (hparked : s.broker.Parked WsMessage.isRelayed) (h : s.Carries labels c)
    (hstep : step env s l = some s') : s'.Carries (labels ++ [l]) c := by
  rcases h with ⟨m, hremains, hsub⟩
  cases turn_of_step hnodup hparked hremains hstep with
  | aside hactivity hlog _ => exact Carries.keep ⟨m, hremains, hsub⟩ hactivity hlog
  | receives hl hidle hs =>
      rename_i frame
      subst hl hs
      refine ⟨frame.relayed?, ?_, fun r => ?_⟩
      · unfold Remains
        rw [activity_setActivity_same]
        exact Handler.processWsMessage_passes env frame (s.role c) c _
      · have hframe : (RelayLabel.receive c frame).received? c = frame.relayed? := if_pos rfl
        rw [receivedOn_snoc, hframe]
        exact (List.append_sublist_append_right _).mpr (Carries.drop ⟨m, hremains, hsub⟩ r)
  | calls hl hbusy hs =>
      rename_i a frame current past call next
      subst hl hs
      unfold Remains at hremains
      rw [hbusy] at hremains
      refine Carries.perform hnodup hparked hremains hsub rfl fun m hnext => ?_
      unfold Remains
      rw [activity_setActivity_same]
      exact hnext
  | rests _ hremains' hlog _ => exact Carries.rest ⟨m, hremains, hsub⟩ hremains' hlog

theorem silent_step {kind : WsMessage -> Bool} (hkind : WsMessage.Foreign kind)
    (hstep : step env s l = some s') (hlog : s'.log = s.log) :
    Broker.PassesOn kind none s.broker s'.broker := by
  cases step_taken hstep with
  | connect hvacant => exact Broker.passesOn_send_none s.broker _ (hkind.hello _ _ _)
  | resume hclock hbusy => exact absurd hlog perform_logs
  | panic hclock hbusy => exact absurd hlog perform_logs
  | clean hclock hbusy => exact absurd hlog perform_logs
  | ping hidle => exact Broker.passesOn_send_none s.broker _ hkind.ping
  | nudge hclock hwaits =>
      rename_i c now
      show Broker.PassesOn kind none s.broker (s.broker.runNudge c now)
      unfold Broker.runNudge
      dsimp only
      split
      · exact Broker.passesOn_send_none _ c hkind.resync
      · exact Broker.passesOn_of_eq rfl
  | shutdown =>
      show Broker.PassesOn kind none s.broker s.broker.broadcastShutdown
      rw [s.broker.broadcastShutdown_eq_sendAll]
      exact Broker.passesOn_sendAll_none _ _ hkind.shutdown
  | _ => exact Broker.passesOn_of_eq rfl

/-- The broker stores no reply of a kind unless a handler gives it one. -/
theorem parked_kept {kind : WsMessage -> Bool} (hs : Sound s) (hparked : s.broker.Parked kind)
    (hgiven : forall {c frame role past u id reply next},
      s.activity c =
        .handling frame role past (.invoke (.broker (.resolveSupervisor u id reply)) next) ->
      kind (.text reply) = false)
    (hstep : Transition env s l s') : s'.broker.Parked kind := by
  cases step_effect hs hstep with
  | none haccount hlog hclock halive =>
      intro u id e reply he
      rw [show s'.broker.query? u id = s.broker.query? u id from
        Broker.part_congr (haccount u)] at he
      exact hparked u id e reply he
  | handler hclock hbusy hbroker hlog hnow =>
      rename_i c a frame role past call next
      rw [hbroker]
      rcases broker_perform_cases env s c a call with ⟨op, rfl⟩ | ⟨-, hsame⟩
      · refine hparked.exec fun u id reply hop => ?_
        subst hop
        exact hgiven hbusy
      · rw [hsame]
        exact hparked
  | cleanup hclock hbusy hcall hbroker hlog hnow =>
      rename_i c a op next
      rw [hbroker]
      refine hparked.exec fun u id reply hop => ?_
      subst hop
      generalize s.role c = role at hcall
      cases hcall

theorem parked_step (hs : Sound s) (hparked : s.broker.Parked WsMessage.isRelayed)
    (hcarries : forall c, s.Carries labels c) (hstep : Transition env s l s') :
    s'.broker.Parked WsMessage.isRelayed := by
  refine parked_kept hs hparked (fun hbusy => ?_) hstep
  rename_i c frame role past u id reply next
  rcases hcarries c with ⟨m, hremains, _⟩
  unfold Remains at hremains
  rw [hbusy] at hremains
  rcases hremains with ⟨hcall, _⟩ | ⟨_, hquery, _⟩
  · exact WsMessage.ofKind_eq_none.mp hcall
  · cases hquery

/-- What has been passed on to a connection is what the logged calls have enqueued. -/
def Accounted (s : Relay) : Prop :=
  forall r, relayedTo r s.broker.delivered = s.log.flatMap fun e => relayedTo r e.enqueued

theorem accounted_step (hs : Sound s)
    (hnodup : forall u, ((s.broker.clients u).map ClientConnection.tx).Nodup)
    (h : s.Accounted) (hstep : step env s l = some s') : s'.Accounted := by
  intro r
  rcases log_step hs (step_transition hstep) with hlog | ⟨c, a, call, _, _, hlog, hbroker, _⟩
  · rcases silent_step WsMessage.foreign_isRelayed hstep hlog with ⟨new, hnew, hnothing⟩
    have hnone : relayedTo r new = [] := List.sublist_nil.mp (hnothing r)
    rw [hlog, hnew, relayedTo_append, hnone]
    exact h r
  · have hdelivered : (s.perform env c a call).broker.delivered =
        newlyEnqueued s.broker (s.perform env c a call).broker ++ s.broker.delivered := by
      rcases broker_perform_cases env s c a call with ⟨op, rfl⟩ | ⟨-, hsame⟩
      · rcases Broker.passesOn_exec WsMessage.foreign_isRelayed hnodup a.now op with ⟨new, hnew, _⟩
        rw [broker_perform, newlyEnqueued_of_append hnew, hnew]
      · rw [hsame, newlyEnqueued_of_append (List.nil_append _).symm]
        rfl
    rw [hlog, hbroker, hdelivered, relayedTo_append, h r]
    rfl

end

/-- What holds of the messages that are passed on, after every run. -/
structure Relaying (labels : List RelayLabel) (s : Relay) : Prop where
  parked : s.broker.Parked WsMessage.isRelayed
  carries : forall c, s.Carries labels c
  accounted : s.Accounted

theorem relaying_init (auth : AuthManager) (database : Database) :
    Relaying [] (init auth database) where
  parked := by
    intro u id e reply he
    cases he
  carries := fun c => ⟨none, trivial, fun r => List.Sublist.refl _⟩
  accounted := fun r => rfl

theorem relaying_of_runs {env : Env} {auth : AuthManager} {database : Database}
    {labels : List RelayLabel} {s : Relay} (hrun : Runs env auth database labels s) :
    Relaying labels s := by
  refine runs_labels_induction (motive := Relaying) (relaying_init auth database) ?_ hrun
  intro labels s l s' hrun h hstep
  have hs := sound_of_runs hrun
  have hnodup := nodup_clients hrun
  have hnext := step_transition hstep
  exact
    { parked := parked_step hs h.parked h.carries hnext
      carries := fun c => (h.carries c).step hnodup h.parked hstep
      accounted := accounted_step hs hnodup h.accounted hstep }

end Relay

end CommandRelay
