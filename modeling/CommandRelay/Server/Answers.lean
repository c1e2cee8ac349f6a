import CommandRelay.Server.Delivery
import CommandRelay.Server.Topics

/-!
# Nothing that is passed on is made up

Most messages go out in the handler of the frame that they came in with.  A supervisor's
result may be kept for the client that asks again, and then goes out in a handler of that
client; still no result goes out that no socket has received.
-/

namespace CommandRelay

open Foundation

namespace WsMessage

def isAnswer : WsMessage -> Bool
  | .text (.supervisorResult ..) => true
  | _ => false

theorem eq_of_isAnswer {msg : WsMessage} (h : msg.isAnswer = true) :
    exists id payload, msg = .text (.supervisorResult id payload) := by
  unfold isAnswer at h
  split at h
  · exact ⟨_, _, rfl⟩
  · cases h

def answers : Topic where
  is := isAnswer
  foreign :=
    { close := rfl
      status := fun _ _ => rfl
      hello := fun _ _ _ => rfl
      ping := rfl
      resync := rfl
      shutdown := rfl }
  written := by
    intro msg hmsg
    cases msg with
    | supervisorResult id payload => cases hmsg
    | _ => rfl
  binary := fun _ => rfl

end WsMessage

/-- A call conveys no result but that of its frame, and what the broker has just handed out. -/
inductive Conveys (c : ConnId) (frame : Inbound) (past : List CallAnswer) : Call -> Prop where
  | silent {call} (hcall : call.omits WsMessage.answers = true) : Conveys c frame past call
  | received {u id msg} (hframe : frame.control? = some msg) :
      Conveys c frame past (.broker (.resolveSupervisor u id msg))
  | stored {u id reply}
      (hdecided : past.head? = some ⟨.broker (.beginSupervisorQuery u id c), .replay reply⟩) :
      Conveys c frame past (.broker (.send c (.text reply)))

namespace Handler

def Conveying (c : ConnId) (frame : Inbound) (past : List CallAnswer) (task : Handler Unit) :
    Prop :=
  Program.Obeys (Conveys c frame) past task fun _ _ => True

section

variable {c : ConnId} {frame : Inbound} {role : ConnectionRole} {past : List CallAnswer}
  {u d ip id key : String} {passwordHash totp deviceToken desktopKey : Option String}
  {msg : ControlMessage} {task : Handler Unit}

theorem conveying_of_omits (h : Omits WsMessage.answers task) : Conveying c frame past task :=
  obeys_of_omits h (fun _ _ => .silent) past

theorem authDesktopKey_answers : Omits WsMessage.answers (authDesktopKey u key c) := by
  refine makes_ask rfl fun verified => ?_
  cases verified with
  | error e => exact makes_then rfl (makes_act rfl)
  | ok valid =>
      cases valid with
      | false => exact makes_then rfl (makes_act rfl)
      | true => exact makes_then rfl (makes_then rfl (makes_act rfl))

theorem welcomeDevice_answers : Omits WsMessage.answers (welcomeDevice u d c ip) := by
  refine makes_then rfl (makes_then rfl (makes_ask rfl fun issued => ?_))
  cases issued with
  | error e => exact makes_act rfl
  | ok token => exact makes_then rfl (makes_then rfl (makes_ask rfl fun _ => makes_act rfl))

theorem authDeviceToken_answers {token : String} :
    Omits WsMessage.answers (authDeviceToken u token passwordHash totp c ip) := by
  refine makes_ask rfl fun validated => ?_
  cases validated with
  | error e => exact authPassword_omits
  | ok claims =>
      by_cases hsub : claims.sub = u
      · simp only [if_pos hsub]
        refine makes_ask rfl fun registered => ?_
        cases registered with
        | false => exact authPassword_omits
        | true => exact welcomeDevice_answers
      · simp only [if_neg hsub]
        exact authPassword_omits

theorem handleAuth_answers :
    Omits WsMessage.answers (handleAuth u passwordHash totp deviceToken desktopKey c ip) := by
  refine makes_ask rfl fun limited => ?_
  cases limited with
  | some retryAfter => exact makes_act rfl
  | none =>
      cases desktopKey with
      | some key => exact authDesktopKey_answers
      | none =>
          cases deviceToken with
          | some token => exact authDeviceToken_answers
          | none => exact authPassword_omits

theorem handleDeviceApproved_answers_omits :
    Omits WsMessage.answers (handleDeviceApproved d role) := by
  cases role with
  | desktop u =>
      refine makes_ask rfl fun taken => ?_
      cases taken with
      | none => exact makes_skip
      | some pending =>
          refine makes_then rfl (makes_ask rfl fun issued => ?_)
          cases issued with
          | error e => exact makes_skip
          | ok token => exact makes_then rfl (makes_ask rfl fun _ => makes_act rfl)
  | _ => exact makes_skip

theorem handleSupervisorQuery_conveying (hmsg : WsMessage.isAnswer (.text msg) = false) :
    Conveying c frame past (handleSupervisorQuery msg id role c) := by
  cases role with
  | client u d =>
      refine ⟨.silent rfl, fun online => ?_⟩
      cases online with
      | false => exact conveying_of_omits (makes_act rfl)
      | true =>
          refine ⟨.silent rfl, fun decision => ?_⟩
          cases decision with
          | replay reply => exact ⟨.stored rfl, fun _ => trivial⟩
          | reowned => exact conveying_of_omits makes_skip
          | capacity => exact conveying_of_omits (makes_act rfl)
          | forward => exact conveying_of_omits (sendToDesktop_omits hmsg)
  | _ => exact conveying_of_omits makes_skip

theorem handleSupervisorReply_conveying (hframe : frame.control? = some msg) :
    Conveying c frame past (handleSupervisorReply msg id role) := by
  cases role with
  | desktop u => exact ⟨.received hframe, fun _ => trivial⟩
  | _ => exact conveying_of_omits makes_skip

theorem handleControlMessage_conveying (env : Env) (hframe : frame.control? = some msg) :
    Conveying c frame past (handleControlMessage env msg role c ip) := by
  cases msg
  case auth version username passwordHash totp deviceToken desktopKey =>
      unfold handleControlMessage
      by_cases hvalid : isValidUsername username = true
      · simp only [if_pos hvalid]
        exact conveying_of_omits handleAuth_answers
      · simp only [if_neg hvalid]
        exact conveying_of_omits (makes_act rfl)
  case deviceApproved => exact conveying_of_omits handleDeviceApproved_answers_omits
  case supervisorQuery => exact handleSupervisorQuery_conveying rfl
  case supervisorResult => exact handleSupervisorReply_conveying hframe
  all_goals exact conveying_of_omits (handleControlMessage_omits env rfl rfl)

theorem processWsMessage_conveying (env : Env) (frame : Inbound) (role : ConnectionRole)
    (c : ConnId) (ip : String) :
    Conveying c frame [] (processWsMessage env frame role c ip) := by
  rcases processWsMessage_omits env frame with ⟨msg, hframe⟩ | homits
  · rw [processWsMessage_of_control hframe]
    exact handleControlMessage_conveying env hframe
  · exact conveying_of_omits homits

end

end Handler

/-!
## Runs
-/

/-- A socket has received the message. -/
def Received (labels : List RelayLabel) : WsMessage -> Prop
  | .text msg => exists c frame, .receive c frame ∈ labels ∧ frame.control? = some msg
  | _ => False

open Classical in
noncomputable def unreceived (labels : List RelayLabel) (msg : WsMessage) : Bool :=
  msg.isAnswer && decide (¬ Received labels msg)

section

variable {labels : List RelayLabel} {msg : WsMessage}

theorem unreceived_eq_true :
    unreceived labels msg = true <-> msg.isAnswer = true ∧ ¬ Received labels msg := by
  simp [unreceived]

theorem unreceived_of_received (h : Received labels msg) : unreceived labels msg = false :=
  Bool.eq_false_iff.mpr fun hunreceived => (unreceived_eq_true.mp hunreceived).2 h

theorem Received.extend (h : Received labels msg) (more : List RelayLabel) :
    Received (labels ++ more) msg := by
  cases msg with
  | text msg =>
      rcases h with ⟨c, frame, hmem, hframe⟩
      exact ⟨c, frame, List.mem_append_left more hmem, hframe⟩
  | _ => exact h

theorem unreceived_extend {more : List RelayLabel} (h : unreceived labels msg = false) :
    unreceived (labels ++ more) msg = false := by
  refine Bool.eq_false_iff.mpr fun hunreceived => ?_
  rcases unreceived_eq_true.mp hunreceived with ⟨hanswer, hnone⟩
  rw [unreceived_eq_true.mpr ⟨hanswer, fun hreceived => hnone (hreceived.extend more)⟩] at h
  cases h

theorem foreign_unreceived (labels : List RelayLabel) : WsMessage.Foreign (unreceived labels) where
  close := rfl
  status := fun _ _ => rfl
  hello := fun _ _ _ => rfl
  ping := rfl
  resync := rfl
  shutdown := rfl

theorem ofKind_unreceived (h : msg.ofKind WsMessage.isAnswer = none) :
    msg.ofKind (unreceived labels) = none := by
  have hanswer : msg.isAnswer = false := WsMessage.ofKind_eq_none.mp h
  exact WsMessage.ofKind_eq_none.mpr (by simp [unreceived, hanswer])

theorem given_unreceived {op : BrokerCall} (h : (Call.broker op).omits WsMessage.answers = true) :
    op.given (unreceived labels) = none := by
  have hnone : op.given WsMessage.isAnswer = none := Option.isNone_iff_eq_none.mp h
  cases op <;> first | rfl | exact ofKind_unreceived hnone

end

namespace Relay

variable {env : Env} {auth : AuthManager} {database : Database} {labels : List RelayLabel}
  {s s' : Relay} {l : RelayLabel} {c : ConnId} {frame : Inbound} {role : ConnectionRole}
  {past : List CallAnswer} {task : Handler Unit}

theorem conveying_of_runs (hrun : Runs env auth database labels s)
    (hact : s.activity c = .handling frame role past task) :
    Handler.Conveying c frame past task :=
  @obeys_of_runs env auth database (fun c frame _ => Conveys c frame)
    (Handler.processWsMessage_conveying env) labels s hrun c frame role past task hact

theorem received_of_handling (hrun : Runs env auth database labels s)
    (hact : s.activity c = .handling frame role past task) :
    RelayLabel.receive c frame ∈ labels := by
  refine runs_labels_induction (motive := fun labels s => forall past task,
    s.activity c = .handling frame role past task -> RelayLabel.receive c frame ∈ labels)
    (fun _ _ hact => by cases hact) ?_ hrun past task hact
  intro labels s l s' _ ih hstep past task hact
  rcases handling_step (step_transition hstep) hact with
    hold | ⟨rfl, _⟩ | ⟨a, call, before, next, _, _, hbusy, _⟩
  · exact List.mem_append_left _ (ih past task hold)
  · exact List.mem_append_right _ (List.mem_singleton.mpr rfl)
  · exact List.mem_append_left _ (ih before _ hbusy)

theorem parked_extend (h : s.broker.Parked (unreceived labels)) (more : List RelayLabel) :
    s.broker.Parked (unreceived (labels ++ more)) :=
  fun u id e reply he hstored => unreceived_extend (h u id e reply he hstored)

theorem stored_received (hrun : Runs env auth database labels s) :
    s.broker.Parked (unreceived labels) := by
  refine runs_labels_induction (motive := fun labels s => s.broker.Parked (unreceived labels))
    (fun u id e reply he => by cases he) ?_ hrun
  intro labels s l s' hrun hparked hnext
  refine parked_extend (parked_kept (sound_of_runs hrun) hparked (fun hbusy => ?_)
    (step_transition hnext)) [l]
  rename_i c frame role past u id reply next
  cases (conveying_of_runs hrun hbusy).1 with
  | silent hcall => exact WsMessage.ofKind_eq_none.mp (given_unreceived hcall)
  | received hframe =>
      exact unreceived_of_received ⟨c, frame, received_of_handling hrun hbusy, hframe⟩

theorem given_of_conveys (hrun : Runs env auth database labels s)
    {op : BrokerCall} {next : (Call.broker op).Reply -> Handler Unit}
    (hact : s.activity c = .handling frame role past (.invoke (.broker op) next)) :
    op.given (unreceived labels) = none := by
  cases (conveying_of_runs hrun hact).1 with
  | silent hcall => exact given_unreceived hcall
  | received hframe =>
      exact WsMessage.ofKind_eq_none.mpr
        (unreceived_of_received ⟨c, frame, received_of_handling hrun hact, hframe⟩)
  | stored hdecided =>
      rename_i u id reply
      rcases past_origin hrun hact (List.mem_of_mem_head? hdecided) with
        ⟨before, after, t, hlabels, hbefore, a, older, next, _, hanswer⟩
      have hreply : (t.broker.exec a.now (.beginSupervisorQuery u id c)).2 = .replay reply :=
        hanswer.symm
      have hcase := t.broker.exec_beginSupervisorQuery_decided a.now u id c
      rw [hreply] at hcase
      rcases hcase with ⟨e, he, hstored⟩
      have hreceived : unreceived before (.text reply) = false :=
        stored_received hbefore u id e reply (Option.filter_eq_some_iff.mp he).1 hstored
      rw [hlabels]
      exact WsMessage.ofKind_eq_none.mpr (unreceived_extend hreceived)

theorem answer_step (hrun : Runs env auth database labels s) (hnext : step env s l = some s')
    {tx : ConnId} {msg : WsMessage} (hmem : (tx, msg) ∈ s'.broker.delivered)
    (hunreceived : unreceived labels msg = true) : (tx, msg) ∈ s.broker.delivered := by
  have hforeign := foreign_unreceived labels
  rcases log_step (sound_of_runs hrun) (step_transition hnext) with
    hlog | ⟨c, a, call, _, _, _, hbroker, hmade⟩
  · exact (silent_step hforeign hnext hlog).old hmem hunreceived
  · rw [hbroker] at hmem
    rcases broker_perform_cases env s c a call with ⟨op, rfl⟩ | ⟨-, hsame⟩
    · have hgiven : op.given (unreceived labels) = none := by
        rcases hmade with ⟨frame, role, past, next, hact⟩ | ⟨_, hop, hcall⟩
        · exact given_of_conveys hrun hact
        · cases hop
          generalize s.role c = role at hcall
          cases hcall <;> rfl
      have hpasses := Broker.passesOn_exec hforeign (nodup_clients hrun) a.now op
      rw [hgiven] at hpasses
      exact hpasses.old hmem hunreceived
    · rw [hsame] at hmem
      exact hmem

theorem delivered_received (hrun : Runs env auth database labels s) {tx : ConnId} {msg : WsMessage}
    (hmem : (tx, msg) ∈ s.broker.delivered) : unreceived labels msg = false := by
  refine runs_labels_induction (motive := fun labels s =>
    (tx, msg) ∈ s.broker.delivered -> unreceived labels msg = false)
    (fun h => by cases h) ?_ hrun hmem
  intro labels s l s' hrun ih hnext hmem
  cases hunreceived : unreceived labels msg with
  | false => exact unreceived_extend hunreceived
  | true =>
      rw [ih (answer_step hrun hnext hmem hunreceived)] at hunreceived
      cases hunreceived

/-- Nothing that is passed on is made up, repeated or reordered: the handlers of a connection
have passed on to another a part of what was received on it, in the order it was received in,
no message that is passed on comes from anywhere else, and a supervisor's result, which may go
out later than its frame, has been received too. -/
theorem relayed_in_order (hrun : Runs env auth database labels s) (r : ConnId) :
    (forall c, List.Sublist (relayedFrom c r s.log) (receivedOn c labels)) ∧
      (relayedTo r s.broker.delivered = s.log.flatMap fun e => relayedTo r e.enqueued) ∧
      forall id payload, (r, .text (.supervisorResult id payload)) ∈ s.broker.delivered ->
        Received labels (.text (.supervisorResult id payload)) := by
  have hrelaying := relaying_of_runs hrun
  refine ⟨fun c => (hrelaying.carries c).drop r, hrelaying.accounted r, ?_⟩
  intro id payload hmem
  by_contra hnone
  have hreceived := delivered_received hrun hmem
  rw [unreceived_eq_true.mpr ⟨rfl, hnone⟩] at hreceived
  cases hreceived

def answered : List RelayLabel :=
  deskAndPhone ++
    Deployment.turn 2 (Deployment.message (.supervisorQuery "q" "summary" none none none)) 3 ++
    Deployment.turn 1 (Deployment.message (.supervisorResult "q" (.ofJson .null))) 1

theorem relayed_in_order_example : exists s id payload,
    Runs Deployment.env Deployment.auth Deployment.database answered s ∧
      relayedFrom 2 1 s.log ≠ [] ∧
      (forall c, List.Sublist (relayedFrom c 2 s.log) (receivedOn c answered)) ∧
      (2, .text (.supervisorResult id payload)) ∈ s.broker.delivered ∧
      Received answered (.text (.supervisorResult id payload)) := by
  have hend : (Deployment.after answered).map (fun s =>
      ((relayedFrom 2 1 s.log).isEmpty, (sentTo WsMessage.isAnswer 2 s.broker.delivered).isEmpty)) =
      some (false, false) := by decide +kernel
  rcases Option.map_eq_some_iff.mp hend with ⟨s, hrun, hfacts⟩
  rcases Prod.mk.inj hfacts with ⟨hpassed, hanswered⟩
  rcases List.exists_mem_of_ne_nil _ (List.isEmpty_eq_false_iff.mp hanswered) with ⟨msg, hmsg⟩
  rcases mem_sentTo.mp hmsg with ⟨hmem, hanswer⟩
  rcases WsMessage.eq_of_isAnswer hanswer with ⟨id, payload, rfl⟩
  rcases relayed_in_order hrun 2 with ⟨hparts, _, hreceived⟩
  exact ⟨s, id, payload, hrun, List.isEmpty_eq_false_iff.mp hpassed, hparts, hmem,
    hreceived id payload hmem⟩

end Relay

end CommandRelay
