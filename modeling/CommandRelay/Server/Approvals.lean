import CommandRelay.Broker.Isolation
import CommandRelay.Server.Relay
import CommandRelay.Server.Routine

/-!
# Approvals of new devices

A connection that enrols a device announces it to the desktop and then adds it to the
pending list, in two calls.  The desktop's answer is matched against the list.
-/

namespace CommandRelay

open Foundation

/-!
## Announced devices are added and taken devices are answered
-/

def announced? : List CallAnswer -> Option (String × String)
  | ⟨.broker (.sendToDesktop u (.text (.devicePending d ..))), _⟩ :: _ => some (u, d)
  | _ => none

/-- The pending device that a handler has taken and not answered yet.  Without a token
there is no answer to an approved one. -/
def owed? : List CallAnswer -> Option PendingDevice
  | ⟨.broker (.takePendingDevice ..), pending⟩ :: _ => pending
  | ⟨.updateDeviceLastSeen .., _⟩ :: rest => owed? rest
  | ⟨.createJwt .., .ok _⟩ :: rest => owed? rest
  | _ => none

namespace Call

/-- The client of a pending device is sent an `auth_result`. -/
def answersTo (p : PendingDevice) : Call -> Bool
  | broker (.send tx (.text (.authResult ..))) => tx = p.clientTx
  | _ => false

def leadsToAnswer : Call -> Bool
  | updateDeviceLastSeen .. | createJwt .. => true
  | _ => false

def isCalm : Call -> Bool
  | broker (.sendToDesktop _ (.text (.devicePending ..))) => false
  | call => !call.takesPending

end Call

/-- The call that follows an announcement adds the device, and the calls that follow the
taking of one lead to its answer. -/
structure Settles (past : List CallAnswer) (call : Call) : Prop where
  added : forall u d, announced? past = some (u, d) ->
    exists p, call = .broker (.addPendingDevice u p) ∧ p.deviceId = d
  answered : forall p, owed? past = some p -> call.leadsToAnswer = true ∨ call.answersTo p = true

def Settled (past : List CallAnswer) : Prop :=
  announced? past = none ∧ owed? past = none

namespace Handler

def Settling (task : Handler Unit) : Prop :=
  forall past, Settled past -> Program.Obeys Settles past task fun past _ => Settled past

section

variable {past : List CallAnswer} {call : Call} {task : Handler Unit}

theorem settles_of_settled (h : Settled past) : Settles past call where
  added := fun u d hannounced => by rw [h.1] at hannounced; cases hannounced
  answered := fun p howed => by rw [h.2] at howed; cases howed

theorem announced?_calm (hcalm : call.isCalm = true) (r : call.Reply) :
    announced? (⟨call, r⟩ :: past) = none := by
  unfold announced?
  split
  · rename_i heq
    cases heq
    cases hcalm
  · rfl

theorem owed?_calm (hcalm : call.isCalm = true) (h : owed? past = none) (r : call.Reply) :
    owed? (⟨call, r⟩ :: past) = none := by
  cases call
  case broker op => cases op <;> first | rfl | cases hcalm
  case createJwt => cases r <;> first | rfl | exact h
  case updateDeviceLastSeen => exact h
  all_goals rfl

theorem settled_calm (h : Settled past) (hcalm : call.isCalm = true) (r : call.Reply) :
    Settled (⟨call, r⟩ :: past) :=
  ⟨announced?_calm hcalm r, owed?_calm hcalm h.2 r⟩

theorem settling_of_makes (h : Makes Call.isCalm task) : Settling task := by
  intro past hpast
  unfold Makes at h
  generalize ([] : List CallAnswer) = seen at h
  induction task generalizing seen past with
  | done value => exact hpast
  | invoke call next ih =>
      exact ⟨settles_of_settled hpast, fun r => ih r _ (settled_calm hpast h.1 r) _ (h.2 r)⟩

theorem settling_ask {next : call.Reply -> Handler Unit} (hcalm : call.isCalm = true)
    (hnext : forall r, Settling (next r)) : Settling (ask call >>= next) := by
  intro past hpast
  exact ⟨settles_of_settled hpast, fun r => hnext r _ (settled_calm hpast hcalm r)⟩

theorem settling_then (hcalm : call.isCalm = true) (htask : Settling task) :
    Settling (act call >>= fun _ => task) := by
  intro past hpast
  exact ⟨settles_of_settled hpast, fun r => htask _ (settled_calm hpast hcalm r)⟩

end

/-!
### Authentication
-/

section

variable {u ip : String} {c : ConnId}

theorem sendAuthError_settling (error : String) : Settling (sendAuthError c error) :=
  settling_of_makes (makes_act rfl)

theorem fail_settling (error : String) :
    Settling (act (.recordFailure u) >>= fun _ => sendAuthError c error) :=
  settling_then rfl (sendAuthError_settling error)

theorem enrolDevice_settling : Settling (enrolDevice u c ip) := by
  refine settling_then rfl (settling_ask rfl fun online => ?_)
  cases online with
  | false => exact sendAuthError_settling _
  | true =>
      refine settling_ask rfl fun registered => ?_
      cases registered with
      | error e => exact sendAuthError_settling _
      | ok deviceId =>
          intro past hpast
          refine ⟨settles_of_settled hpast, fun _ => ⟨⟨?_, ?_⟩, fun _ => ⟨rfl, rfl⟩⟩⟩
          · intro v d hannounced
            cases hannounced
            exact ⟨_, rfl, rfl⟩
          · intro p howed
            cases howed

theorem authDesktopKey_settling (key : String) : Settling (authDesktopKey u key c) := by
  refine settling_ask rfl fun valid => ?_
  rcases valid with e | valid
  · exact fail_settling _
  · cases valid with
    | false => exact fail_settling _
    | true => exact settling_then rfl (settling_then rfl (settling_of_makes (makes_act rfl)))

theorem authTotp_settling (totp : Option String) : Settling (authTotp u totp c ip) := by
  refine settling_ask rfl fun needed => ?_
  rcases needed with e | needed
  · exact enrolDevice_settling
  · cases needed with
    | false => exact enrolDevice_settling
    | true =>
        cases totp with
        | none => exact sendAuthError_settling _
        | some code =>
            refine settling_ask rfl fun verified => ?_
            cases verified with
            | error e => exact fail_settling _
            | ok _ => exact enrolDevice_settling

theorem authPassword_settling (passwordHash totp : Option String) :
    Settling (authPassword u passwordHash totp c ip) := by
  cases passwordHash with
  | none => exact sendAuthError_settling _
  | some hash =>
      refine settling_ask rfl fun verified => ?_
      cases verified with
      | error e => exact fail_settling _
      | ok _ => exact authTotp_settling totp

theorem welcomeDevice_settling {d : String} : Settling (welcomeDevice u d c ip) := by
  refine settling_then rfl (settling_then rfl (settling_ask rfl fun token => ?_))
  cases token with
  | error e => exact settling_of_makes (makes_act rfl)
  | ok token =>
      exact settling_then rfl (settling_then rfl (settling_ask rfl fun _ =>
        settling_of_makes (makes_act rfl)))

theorem authDeviceToken_settling (token : String) (passwordHash totp : Option String) :
    Settling (authDeviceToken u token passwordHash totp c ip) := by
  refine settling_ask rfl fun valid => ?_
  cases valid with
  | error e => exact authPassword_settling passwordHash totp
  | ok claims =>
      by_cases hsub : claims.sub = u
      · simp only [if_pos hsub]
        refine settling_ask rfl fun registered => ?_
        cases registered with
        | false => exact authPassword_settling passwordHash totp
        | true => exact welcomeDevice_settling
      · simp only [if_neg hsub]
        exact authPassword_settling passwordHash totp

theorem handleAuth_settling (passwordHash totp deviceToken desktopKey : Option String) :
    Settling (handleAuth u passwordHash totp deviceToken desktopKey c ip) := by
  refine settling_ask rfl fun locked => ?_
  cases locked with
  | some retryAfter => exact settling_of_makes (makes_act rfl)
  | none =>
      cases desktopKey with
      | some key => exact authDesktopKey_settling key
      | none =>
          cases deviceToken with
          | some token => exact authDeviceToken_settling token passwordHash totp
          | none => exact authPassword_settling passwordHash totp

end

/-!
### The answers of the desktop
-/

section

variable {frame : Inbound} {role : ConnectionRole} {past : List CallAnswer} {call : Call}
  {task : Handler Unit} {u d id kind ip : String} {c : ConnId} {msg : ControlMessage}
  {size : UInt64}

theorem handleDeviceApproved_settling : Settling (handleDeviceApproved d role) := by
  cases role with
  | desktop u =>
      intro past hpast
      refine ⟨settles_of_settled hpast, fun taken => ?_⟩
      cases taken with
      | none => exact ⟨rfl, rfl⟩
      | some p =>
          refine ⟨⟨fun _ _ h => (nomatch h), fun _ _ => Or.inl rfl⟩, fun _ => ?_⟩
          refine ⟨⟨fun _ _ h => (nomatch h), fun _ _ => Or.inl rfl⟩, fun token => ?_⟩
          cases token with
          | error e => exact ⟨rfl, rfl⟩
          | ok token =>
              refine ⟨⟨fun _ _ h => (nomatch h), fun q hq => Or.inr ?_⟩, fun _ => ?_⟩
              · have hq : p = q := Option.some.inj hq
                simp [Call.answersTo, hq]
              · exact settling_ask rfl (fun _ => settling_of_makes (makes_act rfl)) _ ⟨rfl, rfl⟩
  | _ => exact settling_of_makes makes_skip

theorem handleDeviceRejected_settling : Settling (handleDeviceRejected d role) := by
  cases role with
  | desktop u =>
      intro past hpast
      refine ⟨settles_of_settled hpast, fun taken => ?_⟩
      cases taken with
      | none => exact ⟨rfl, rfl⟩
      | some p =>
          refine ⟨⟨fun _ _ h => (nomatch h), fun q hq => Or.inr ?_⟩, fun _ => ?_⟩
          · have hq : p = q := Option.some.inj hq
            simp [Call.answersTo, hq]
          · exact settling_of_makes (makes_act rfl) _ ⟨rfl, rfl⟩
  | _ => exact settling_of_makes makes_skip

theorem calm_of_permitted (h : Permitted c frame role past call) (hauth : frame.isAuth = false)
    (htakes : call.takesPending = false) : call.isCalm = true := by
  have hframe : forall u, ¬ frame.Authenticates u := by
    intro u hu
    rw [Inbound.isAuth_of_authenticates hu] at hauth
    cases hauth
  cases h with
  | announce hauthenticates => exact absurd hauthenticates (hframe _)
  | forward hrole hframe hplain =>
      rename_i msg
      cases msg <;> first | rfl | cases hplain
  | privately hcall => cases call <;> first | rfl | cases hcall
  | ownUpload hrole hcall => rename_i op; cases op <;> first | rfl | cases hcall
  | desktopCall hrole hcall =>
      rename_i op
      cases op <;> first | rfl | (cases hcall; done) | cases htakes
  | _ => rfl

theorem obeys_of_behaves {seen : List CallAnswer} (hauth : frame.isAuth = false)
    (hbehaves : Behaves c frame role past task)
    (hmakes : Program.Obeys (fun _ call => (!call.takesPending) = true) seen task fun _ _ => True)
    (hpast : Settled past) : Program.Obeys Settles past task fun past _ => Settled past := by
  induction task generalizing past seen with
  | done value => exact hpast
  | invoke call next ih =>
      have hcalm := calm_of_permitted hbehaves.1.permitted hauth
        (Bool.not_eq_true' _ ▸ hmakes.1)
      exact ⟨settles_of_settled hpast, fun r =>
        ih r (hbehaves.2 r) (hmakes.2 r) (settled_calm hpast hcalm r)⟩

theorem obeys_of_passive (hauth : frame.isAuth = false) (hbehaves : Behaves c frame role [] task)
    (hpassive : Passive task) :
    Program.Obeys Settles [] task fun past _ => Settled past :=
  obeys_of_behaves hauth hbehaves
    (hpassive.mono fun _ hcall => (Bool.and_eq_true_iff.mp hcall).2) ⟨rfl, rfl⟩

theorem handleControlMessage_settles {env : Env} (hframe : frame.control? = some msg) :
    Program.Obeys Settles [] (handleControlMessage env msg role c ip)
      fun past _ => Settled past := by
  have hbehaves := @handleControlMessage_behaves c frame role msg env ip hframe
  have hother : (forall version username passwordHash totp deviceToken desktopKey,
      msg ≠ .auth version username passwordHash totp deviceToken desktopKey) ->
      frame.isAuth = false := by
    intro hmsg
    unfold Inbound.isAuth
    rw [hframe]
    cases msg <;> first | rfl | exact absurd rfl (hmsg _ _ _ _ _ _)
  cases hpassive : msg.isPassive with
  | true =>
      refine obeys_of_passive (hother ?_) hbehaves (handleControlMessage_passive hpassive)
      rintro version username passwordHash totp deviceToken desktopKey rfl
      cases hpassive
  | false =>
      cases msg
      case auth version username passwordHash totp deviceToken desktopKey =>
          unfold handleControlMessage
          by_cases hvalid : isValidUsername username = true
          · simp only [if_pos hvalid]
            exact handleAuth_settling passwordHash totp deviceToken desktopKey _ ⟨rfl, rfl⟩
          · simp only [if_neg hvalid]
            exact settling_of_makes (makes_act rfl) _ ⟨rfl, rfl⟩
      case deviceApproved d => exact handleDeviceApproved_settling _ ⟨rfl, rfl⟩
      case deviceRejected d => exact handleDeviceRejected_settling _ ⟨rfl, rfl⟩
      case fileUploadBegin =>
          exact obeys_of_behaves (hother fun _ _ _ _ _ _ h => by cases h) hbehaves
            handleFileUploadBegin_takes ⟨rfl, rfl⟩
      all_goals cases hpassive

theorem processWsMessage_settles (env : Env) (frame : Inbound) (role : ConnectionRole)
    (c : ConnId) (ip : String) :
    Program.Obeys Settles [] (processWsMessage env frame role c ip)
      fun past _ => Settled past := by
  cases frame with
  | other => exact ⟨rfl, rfl⟩
  | text size parsed =>
      unfold processWsMessage
      by_cases hsize : maxTextMessageSize < size
      · simp only [if_pos hsize]
        exact ⟨rfl, rfl⟩
      · simp only [if_neg hsize]
        cases parsed with
        | none => exact ⟨rfl, rfl⟩
        | some msg =>
            have hframe : (Inbound.text size (some msg)).control? = some msg := if_neg hsize
            exact handleControlMessage_settles hframe
  | binary data =>
      unfold processWsMessage
      by_cases hsize : maxBinaryMessageSize < data.length
      · simp only [dif_pos hsize]
        exact ⟨rfl, rfl⟩
      · simp only [dif_neg hsize]
        exact obeys_of_passive rfl (handleBinaryMessage_behaves rfl) handleBinaryMessage_passive

end

end Handler

/-!
## Runs
-/

namespace RelayEvent

/-- The device is announced to the desktop of the account, and the connection gets the
announcement. -/
def notices (u d : String) (c : ConnId) (e : RelayEvent) : Bool :=
  match e.answered.call with
  | .broker (.sendToDesktop v (.text (.devicePending i ..))) =>
      v = u && i = d && e.enqueued.any fun m => m.1 = c
  | _ => false

def takes (u d : String) (e : RelayEvent) : Bool :=
  match e.answered with
  | ⟨.broker (.takePendingDevice v i), some _⟩ => v = u && i = d
  | _ => false

def Enrols (u : String) (p : PendingDevice) (e : RelayEvent) : Prop :=
  e.conn = p.clientTx ∧ e.answered.call = .broker (.addPendingDevice u p)

end RelayEvent

namespace Relay

def adding? (s : Relay) (c : ConnId) : Option (String × String) :=
  match s.upcoming c with
  | some (.broker (.addPendingDevice u p)) => some (u, p.deviceId)
  | _ => none

def keepsApprovals (s : Relay) : RelayLabel -> Bool
  | .resume c _ =>
      match s.upcoming c with
      | some (.broker (.takePendingDevice u d)) =>
          s.log.all fun e => s.adding? e.conn ≠ some (u, d)
      | _ => true
  | _ => true

def KeepsApprovals (s : Relay) (l : RelayLabel) : Prop :=
  s.keepsApprovals l = true

instance (s : Relay) (l : RelayLabel) : Decidable (s.KeepsApprovals l) :=
  inferInstanceAs (Decidable (_ = true))

def owing (s : Relay) (c : ConnId) : Option PendingDevice :=
  owed? (s.pastOf c)

/-- Every answer of a desktop to an announcement it got finds the device, unless another
answer has, and the client that enrolled it is sent an `auth_result`: the handler has
done so or is about to. -/
def ApprovalsKept (s : Relay) : Prop :=
  forall u d since e before, s.log = since ++ e :: before ->
    e.answered.call = .broker (.takePendingDevice u d) ->
    Standing (RelayEvent.notices u d e.conn) (RelayEvent.takes u d) before ->
    exists p, e.answered = ⟨.broker (.takePendingDevice u d), some p⟩ ∧ p.deviceId = d ∧
      (exists f, f ∈ before ∧ f.Enrols u p) ∧
      ((exists r, r ∈ since ∧ r.conn = e.conn ∧ r.answered.call.answersTo p = true) ∨
        s.owing e.conn = some p)

def Awaits (s : Relay) (u d : String) : Prop :=
  (exists p, s.broker.Pends u p ∧ p.deviceId = d) ∨
    exists e, e ∈ s.log ∧ s.adding? e.conn = some (u, d)

structure Approvals (s : Relay) : Prop where
  settles : forall {c frame role past task}, s.activity c = .handling frame role past task ->
    Program.Obeys Settles past task fun past _ => Settled past
  awaits : forall {u d c},
    Standing (RelayEvent.notices u d c) (RelayEvent.takes u d) s.log -> s.Awaits u d
  enrolled : forall {u p}, s.broker.Pends u p -> exists e, e ∈ s.log ∧ e.Enrols u p
  kept : s.ApprovalsKept

theorem approvals_init (auth : AuthManager) (database : Database) :
    Approvals (init auth database) where
  settles := fun h => by cases h
  awaits := fun h => absurd h not_standing_nil
  enrolled := by
    rintro u p ⟨st, hst, _⟩
    simp [init, broker, Broker.account, Broker.new] at hst
  kept := by
    intro u d since e before hlog
    simp [init] at hlog

section

variable {env : Env} {s s' : Relay} {l : RelayLabel} {c : ConnId} {u d : String}

theorem activity_of_adding (h : s.adding? c = some (u, d)) :
    exists frame role past p next, s.activity c = .handling frame role past
      (.invoke (.broker (.addPendingDevice u p)) next) ∧ p.deviceId = d := by
  unfold adding? at h
  split at h
  · rename_i v p hnext
    cases h
    rcases activity_of_upcoming hnext with ⟨frame, role, past, next, hact⟩
    exact ⟨frame, role, past, p, next, hact, rfl⟩
  · cases h

theorem adding_of_activity {frame : Inbound} {role : ConnectionRole} {past : List CallAnswer}
    {p : PendingDevice} {next : (Call.broker (.addPendingDevice u p)).Reply -> Handler Unit}
    (hact : s.activity c = .handling frame role past
      (.invoke (.broker (.addPendingDevice u p)) next)) :
    s.adding? c = some (u, p.deviceId) := by
  unfold adding? upcoming
  rw [hact]

theorem adding_step (hs : Sound s) (hstep : Transition env s l s') {e : RelayEvent}
    (hmem : e ∈ s.log) (h : s.adding? e.conn = some (u, d)) : s'.Awaits u d := by
  rcases activity_of_adding h with ⟨frame, role, past, p, next, hact, rfl⟩
  cases handling_next hstep hact with
  | waits _ hact' => exact Or.inr ⟨e, mem_log_step hs hstep hmem, adding_of_activity hact'⟩
  | calls hlabel htask hs' =>
      rename_i a call rest
      cases hlabel
      cases htask
      refine Or.inl ⟨p, ?_, rfl⟩
      rw [hs']
      exact Broker.pends_added s.broker a.now u p
  | panics htask => cases htask
  | returns htask => cases htask

theorem awaits_step (hs : Sound s) (h : s.Awaits u d) (hstep : Transition env s l s')
    (htakes : forall f, s'.log = f :: s.log -> f.takes u d = false) : s'.Awaits u d := by
  rcases h with ⟨p, hpends, hid⟩ | ⟨e, hmem, hadding⟩
  · have hkept : forall {c a op}, s'.log = (s.perform env c a (.broker op)).log ->
        s'.broker = (s.broker.exec a.now op).1 -> s'.Awaits u d := by
      intro c a op hlog hbroker
      refine Or.inl ⟨p, ?_, hid⟩
      rw [hbroker]
      refine Broker.pends_kept hpends ?_
      -- The device is there to be found, so a call that asks for it takes one.
      rintro rfl
      have hnot := htakes _ hlog
      rcases hpends with ⟨st, hst, hp⟩
      have hanswer : s.answer env a (.broker (.takePendingDevice u p.deviceId)) =
          (st.takePendingDevice p.deviceId).2 := by
        have hst : s.app.broker.account u = some st := hst
        simp [answer, App.exec, Broker.exec, Broker.takePendingDevice, Broker.withAccount, hst]
      cases htaken : (st.takePendingDevice p.deviceId).2 with
      | none => exact AccountState.takePendingDevice_none.mp htaken p hp rfl
      | some q =>
          rw [hanswer, htaken] at hnot
          simp [RelayEvent.takes, hid] at hnot
    cases step_effect hs hstep with
    | none haccount hlog hclock halive =>
        rcases hpends with ⟨st, hst, hp⟩
        exact Or.inl ⟨p, ⟨st, (haccount u).trans hst, hp⟩, hid⟩
    | handler hclock hbusy hbroker hlog hnow =>
        rename_i c a frame role past call next
        rcases broker_perform_cases env s c a call with ⟨op, rfl⟩ | ⟨-, hsame⟩
        · exact hkept hlog hbroker
        · refine Or.inl ⟨p, ?_, hid⟩
          rw [hbroker, hsame]
          exact hpends
    | cleanup hclock hbusy hcall hbroker hlog hnow => exact hkept hlog hbroker
  · exact adding_step hs hstep hmem hadding

theorem adding_of_announced (happ : s.Approvals) {a : Ambient} {frame : Inbound}
    {role : ConnectionRole} {past : List CallAnswer} {name ip : String}
    {next : (Call.broker (.sendToDesktop u (.text (.devicePending d name ip)))).Reply ->
      Handler Unit}
    (hbusy : s.activity c = .handling frame role past
      (.invoke (.broker (.sendToDesktop u (.text (.devicePending d name ip)))) next))
    (hstep : Transition env s (.resume c a) s')
    (hlog : s'.log = (s.perform env c a
      (.broker (.sendToDesktop u (.text (.devicePending d name ip))))).log) :
    s'.adding? c = some (u, d) := by
  cases handling_next hstep hbusy with
  | waits _ hact' => exact absurd rfl (conn_ne_of_waiting hstep hbusy hact' hlog)
  | calls hlabel htask hs' =>
      rename_i a' call rest
      cases hlabel
      cases htask
      have hrest := (happ.settles hbusy).2
        (s.answer env a (.broker (.sendToDesktop u (.text (.devicePending d name ip)))))
      cases htask : next
          (s.answer env a (.broker (.sendToDesktop u (.text (.devicePending d name ip))))) with
      | done value =>
          rw [htask] at hrest
          exact absurd hrest.1 (by simp [announced?])
      | invoke call rest =>
          rw [htask] at hrest
          rcases hrest.1.added u d rfl with ⟨p, rfl, rfl⟩
          apply adding_of_activity (s := s')
          rw [hs', activity_setActivity_same, htask]
  | panics htask => cases htask
  | returns htask => cases htask

theorem announcement_step (hs : Sound s) (happ : s.Approvals) (hstep : Transition env s l s')
    {f : RelayEvent} (hlog : s'.log = f :: s.log) (h : f.notices u d c = true) :
    s'.Awaits u d := by
  rcases log_step hs hstep with hsame | ⟨c', a, call, rfl, _, hlog', _, horigin⟩
  · rw [hsame] at hlog
    exact absurd hlog.symm (List.cons_ne_self f s.log)
  · have hf : f = _ := (List.cons.inj (hlog.symm.trans hlog')).1
    have hcall : f.answered.call = call := by rw [hf]
    have hannounce : exists name ip,
        call = .broker (.sendToDesktop u (.text (.devicePending d name ip))) := by
      unfold RelayEvent.notices at h
      split at h
      · rename_i v i name ip heq
        simp only [Bool.and_eq_true, decide_eq_true_eq] at h
        rcases h with ⟨⟨rfl, rfl⟩, _⟩
        exact ⟨name, ip, hcall.symm.trans heq⟩
      · cases h
    rcases hannounce with ⟨name, ip, rfl⟩
    rcases horigin with ⟨frame, role, past, next, hbusy⟩ | ⟨op, hop, hcleanup⟩
    · refine Or.inr ⟨f, by rw [hlog]; exact List.mem_cons_self, ?_⟩
      have hconn : f.conn = c' := by rw [hf]
      rw [hconn]
      exact adding_of_announced happ hbusy hstep hlog'
    · cases hop
      generalize s.role c' = role at hcleanup
      cases hcleanup

theorem standing_awaits (hs : Sound s) (happ : s.Approvals) (hstep : Transition env s l s')
    (h : Standing (RelayEvent.notices u d c) (RelayEvent.takes u d) s'.log) : s'.Awaits u d := by
  rcases log_step hs hstep with hsame | ⟨c', a, call, hlabel, hclock, hlog, hbroker, horigin⟩
  · rw [hsame] at h
    refine awaits_step hs (happ.awaits h) hstep fun f hf => ?_
    rw [hsame] at hf
    exact absurd hf.symm (List.cons_ne_self f s.log)
  · rw [log_perform] at hlog
    rw [hlog] at h
    rcases standing_cons.mp h with hnotice | ⟨hends, hold⟩
    · exact announcement_step hs happ hstep hlog hnotice
    · refine awaits_step hs (happ.awaits hold) hstep fun f hf => ?_
      rw [hlog] at hf
      rw [← (List.cons.inj hf).1]
      exact hends

theorem enrolled_step (hs : Sound s) (happ : s.Approvals) (hstep : Transition env s l s')
    {p : PendingDevice} (h : s'.broker.Pends u p) : exists e, e ∈ s'.log ∧ e.Enrols u p := by
  have hold : s.broker.Pends u p -> exists e, e ∈ s'.log ∧ e.Enrols u p := by
    intro hpends
    rcases happ.enrolled hpends with ⟨e, hmem, henrols⟩
    exact ⟨e, mem_log_step hs hstep hmem, henrols⟩
  cases step_effect hs hstep with
  | none haccount hlog hclock halive =>
      rcases h with ⟨st, hst, hp⟩
      exact hold ⟨st, (haccount u).symm.trans hst, hp⟩
  | handler hclock hbusy hbroker hlog hnow =>
      rename_i c a frame role past call next
      rw [hbroker] at h
      rcases broker_perform_cases env s c a call with ⟨op, rfl⟩ | ⟨-, hsame⟩
      · rcases Broker.pends_exec h with hpends | rfl
        · exact hold hpends
        · refine ⟨_, by rw [hlog]; exact List.mem_cons_self, ?_, rfl⟩
          cases (hs.behaves hbusy).1.permitted with
          | enrol hframe htx => exact htx.symm
          | privately hcall => cases hcall
          | ownUpload hrole hcall => cases hcall
          | desktopCall hrole hcall => cases hcall
      · rw [hsame] at h
        exact hold h
  | cleanup hclock hbusy hcall hbroker hlog hnow =>
      rename_i c a op next
      rw [hbroker] at h
      rcases Broker.pends_exec h with hpends | rfl
      · exact hold hpends
      · generalize s.role c = role at hcall
        cases hcall

theorem owing_step (hjwt : forall secret claims, env.crypto.jwtEncode secret claims ≠ none)
    (happ : s.Approvals) (hstep : Transition env s l s') {p : PendingDevice}
    (h : s.owing c = some p) :
    s'.owing c = some p ∨
      exists f, s'.log = f :: s.log ∧ f.conn = c ∧ f.answered.call.answersTo p = true := by
  unfold owing at h
  have hbusy : exists frame role past task, s.activity c = .handling frame role past task ∧
      owed? past = some p := by
    unfold pastOf at h
    cases hact : s.activity c with
    | handling frame role past task =>
        rw [hact] at h
        exact ⟨frame, role, past, task, rfl, h⟩
    | _ => rw [hact] at h; cases h
  rcases hbusy with ⟨frame, role, past, task, hact, howed⟩
  have hsettles := happ.settles hact
  cases handling_next hstep hact with
  | waits _ hact' =>
      left
      rw [owing, pastOf_handling hact']
      exact howed
  | calls hlabel htask hs' =>
      rename_i a call next
      cases htask
      rcases hsettles.1.answered p howed with hleads | hanswers
      · left
        have hact' : s'.activity c = .handling frame role (⟨call, s.answer env a call⟩ :: past)
            (next (s.answer env a call)) := by
          rw [hs', activity_setActivity_same]
        rw [owing, pastOf_handling hact']
        cases call
        case updateDeviceLastSeen => exact howed
        case createJwt v i =>
            have hok : exists token, s.answer env a (.createJwt v i) = .ok token := by
              simp only [answer, App.exec, AuthManager.createJwt]
              split
              · rename_i hnone
                exact absurd hnone (hjwt _ _)
              · exact ⟨_, rfl⟩
            rcases hok with ⟨token, hok⟩
            rw [hok]
            exact howed
        all_goals cases hleads
      · right
        have hlog : s'.log = (s.perform env c a call).log := by
          rw [hs', log_setActivity]
        exact ⟨_, hlog, rfl, hanswers⟩
  | panics htask =>
      cases htask
      rcases hsettles.1.answered p howed with hleads | hanswers
      · cases hleads
      · cases hanswers
  | returns htask =>
      cases htask
      have hsettled : owed? past = none := hsettles.2
      rw [howed] at hsettled
      cases hsettled

theorem taken_of_awaits {a : Ambient} (hkeeps : s.KeepsApprovals (.resume c a))
    (hnext : s.upcoming c = some (.broker (.takePendingDevice u d))) (h : s.Awaits u d) :
    exists p, s.answer env a (.broker (.takePendingDevice u d)) = some p := by
  rcases h with ⟨p, ⟨st, hst, hp⟩, hid⟩ | ⟨e, hmem, hadding⟩
  · have hanswer : s.answer env a (.broker (.takePendingDevice u d)) =
        (st.takePendingDevice d).2 := by
      have hst : s.app.broker.account u = some st := hst
      simp [answer, App.exec, Broker.exec, Broker.takePendingDevice, Broker.withAccount, hst]
    cases htaken : (st.takePendingDevice d).2 with
    | none => exact absurd hid (AccountState.takePendingDevice_none.mp htaken p hp)
    | some q => exact ⟨q, hanswer.trans htaken⟩
  · simp only [KeepsApprovals, keepsApprovals, hnext] at hkeeps
    have hnot := List.all_eq_true.mp hkeeps e hmem
    simp [hadding] at hnot

/-- A call that answers an announcement finds the device, and its handler owes the client
an answer. -/
theorem taken_step (hs : Sound s) (happ : s.Approvals) (hkeeps : s.KeepsApprovals l)
    (hstep : Transition env s l s') {e : RelayEvent} (hlog : s'.log = e :: s.log)
    (hcall : e.answered.call = .broker (.takePendingDevice u d))
    (hstanding : Standing (RelayEvent.notices u d e.conn) (RelayEvent.takes u d) s.log) :
    exists p, e.answered = ⟨.broker (.takePendingDevice u d), some p⟩ ∧ p.deviceId = d ∧
      (exists f, f ∈ s.log ∧ f.Enrols u p) ∧ s'.owing e.conn = some p := by
  rcases log_step hs hstep with hsame | ⟨c', a, call, rfl, _, hlog', _, horigin⟩
  · rw [hsame] at hlog
    exact absurd hlog.symm (List.cons_ne_self e s.log)
  · have he : e = _ := (List.cons.inj (hlog.symm.trans hlog')).1
    rw [he] at hcall hstanding ⊢
    have hcall : call = .broker (.takePendingDevice u d) := hcall
    subst hcall
    rcases horigin with ⟨frame, role, past, next, hbusy⟩ | ⟨op, hop, hcleanup⟩
    · have hnext : s.upcoming c' = some (.broker (.takePendingDevice u d)) := by
        rw [upcoming, hbusy]
      rcases @taken_of_awaits env s c' u d a hkeeps hnext (happ.awaits hstanding) with
        ⟨p, hanswer⟩
      have hpends := Broker.pends_of_taken hanswer
      refine ⟨p, by rw [← hanswer], hpends.2, happ.enrolled hpends.1, ?_⟩
      cases handling_next hstep hbusy with
      | waits _ hact' => exact absurd rfl (conn_ne_of_waiting hstep hbusy hact' hlog')
      | calls hlabel htask hs' =>
          cases hlabel
          cases htask
          have hact' := congrArg (fun t => t.activity c') hs'
          simp only [activity_setActivity_same] at hact'
          rw [owing, pastOf_handling hact', hanswer]
          rfl
      | panics htask => cases htask
      | returns htask => cases htask
    · cases hop
      generalize s.role c' = role at hcleanup
      cases hcleanup

theorem kept_step (hjwt : forall secret claims, env.crypto.jwtEncode secret claims ≠ none)
    (hs : Sound s) (happ : s.Approvals) (hkeeps : s.KeepsApprovals l)
    (hstep : Transition env s l s') : s'.ApprovalsKept := by
  intro u d since e before hlog hcall hstanding
  have hold : forall since', s.log = since' ++ e :: before ->
      (forall r, r ∈ since' -> r ∈ since) ->
      (forall f, s'.log = f :: s.log -> f ∈ since) ->
      exists p, e.answered = ⟨.broker (.takePendingDevice u d), some p⟩ ∧ p.deviceId = d ∧
        (exists f, f ∈ before ∧ f.Enrols u p) ∧
        ((exists r, r ∈ since ∧ r.conn = e.conn ∧ r.answered.call.answersTo p = true) ∨
          s'.owing e.conn = some p) := by
    intro since' hlog' hsub hnew
    rcases happ.kept u d since' e before hlog' hcall hstanding with
      ⟨p, htaken, hid, henrolled, ⟨r, hr, hconn, hanswers⟩ | howing⟩
    · exact ⟨p, htaken, hid, henrolled, Or.inl ⟨r, hsub r hr, hconn, hanswers⟩⟩
    · rcases owing_step hjwt happ hstep howing with hstill | ⟨f, hf, hconn, hanswers⟩
      · exact ⟨p, htaken, hid, henrolled, Or.inr hstill⟩
      · exact ⟨p, htaken, hid, henrolled, Or.inl ⟨f, hnew f hf, hconn, hanswers⟩⟩
  rcases log_step hs hstep with hsame | ⟨c', a, call, _, _, hlog', _⟩
  · refine hold since (hsame.symm.trans hlog) (fun r hr => hr) fun f hf => ?_
    rw [hsame] at hf
    exact absurd hf.symm (List.cons_ne_self f s.log)
  · rw [log_perform] at hlog'
    cases since with
    | nil =>
        have hboth := List.cons.inj (hlog'.symm.trans hlog)
        have hnewest : s'.log = e :: s.log := by rw [hlog', hboth.1]
        rw [← hboth.2] at hstanding
        rcases taken_step hs happ hkeeps hstep hnewest hcall hstanding with
          ⟨p, htaken, hid, henrolled, howing⟩
        exact ⟨p, htaken, hid, by rwa [← hboth.2], Or.inr howing⟩
    | cons f since' =>
        have hboth := List.cons.inj (hlog'.symm.trans hlog)
        refine hold since' hboth.2 (fun r hr => List.mem_cons_of_mem f hr) fun g hg => ?_
        rw [(List.cons.inj (hg.symm.trans hlog)).1]
        exact List.mem_cons_self

theorem approvals_step (hjwt : forall secret claims, env.crypto.jwtEncode secret claims ≠ none)
    (hs : Sound s) (happ : s.Approvals) (hkeeps : s.KeepsApprovals l)
    (hstep : Transition env s l s') : s'.Approvals where
  settles := fun hact => by
    have hnext := @obeys_step env (fun _ _ _ => Settles) (fun _ _ past => Settled past)
      (fun frame role c ip => Handler.processWsMessage_settles env frame role c ip) s s' l hstep
      (fun hbusy => happ.settles hbusy)
    exact hnext hact
  awaits := standing_awaits hs happ hstep
  enrolled := enrolled_step hs happ hstep
  kept := kept_step hjwt hs happ hkeeps hstep

end

/--
In every run in which a pending device is only asked for once the handler that announced
it has added it, every answer of a desktop to an announcement it got finds the device, and
the waiting client is sent an `auth_result`.
-/
theorem approvals_kept {env : Env} {auth : AuthManager} {database : Database}
    (hjwt : forall secret claims, env.crypto.jwtEncode secret claims ≠ none)
    {labels : List RelayLabel} {s : Relay} (hrun : Runs env auth database labels s)
    (hok : Admits (step env) KeepsApprovals (init auth database) labels) : s.ApprovalsKept :=
  (admitted_induction (approvals_init auth database)
    (fun _ _ _ hs happ hl hnext => approvals_step hjwt hs happ hl hnext) hrun hok).2.kept

/-- The device that the relay registers for a new client, and the token it gets. -/
def tablet : String :=
  "00000000-0000-4000-8000-000000000002"

def tabletToken : String :=
  "eyJ0eXAiOiJKV1QiLCJhbGciOiJIUzI1NiJ9" ++
    ".eyJzdWIiOiJ1c2VyIiwiZGV2aWNlX2lkIjoiMDAwMDAwMDAtMDAwMC00MDAwLTgwMDAtMDAwMDAw" ++
    "MDAwMDAyIiwiZXhwIjoxNzAwMDg2NDAwLCJpYXQiOjE3MDAwMDAwMDAsImF1ZCI6ImNvbW1hbmQtY" ++
    "2VudGVyLXJlbGF5IiwiaXNzIjoiY29tbWFuZC1jZW50ZXItcmVsYXkifQ" ++
    ".nv1qGhzbAJKcT6o_jSEEn0IOR2JpxEIyG75lXtX8bic"

def issuesToTablet : Env :=
  { Deployment.env with
    crypto :=
      { Deployment.crypto with
        jwtEncode := fun _ claims =>
          some (if claims = Deployment.phoneClaims then Deployment.phoneToken
            else tabletToken) } }

def passwordAuth : Inbound :=
  Deployment.message (.auth 1 "user" (some Deployment.passwordHash) none none none)

def approves : Inbound :=
  Deployment.message (.deviceApproved tablet)

def desktopOnline : List RelayLabel :=
  Deployment.open_ 1 :: Deployment.keyAuth 1 ++ Deployment.register 1 ++ [Deployment.open_ 2]

theorem approvals_kept_example : exists s,
    Runs issuesToTablet Deployment.auth Deployment.database
      (desktopOnline ++ Deployment.turn 2 passwordAuth 8 ++ Deployment.turn 1 approves 6) s ∧
      (s.log.any fun e => e.takes "user" tablet) = true ∧ s.ApprovalsKept := by
  have hend : (follow (step issuesToTablet) (init Deployment.auth Deployment.database)
      (desktopOnline ++ Deployment.turn 2 passwordAuth 8 ++ Deployment.turn 1 approves 6)).map
      (fun s => s.log.any fun e => e.takes "user" tablet) = some true := by
    decide +kernel
  rcases Option.map_eq_some_iff.mp hend with ⟨s, hrun, htaken⟩
  exact ⟨s, hrun, htaken, approvals_kept (fun _ _ h => by cases h) hrun (by decide +kernel)⟩

def tookInVain (u d : String) : List RelayEvent -> Bool
  | ⟨1, _, ⟨.broker (.takePendingDevice u' d'), none⟩, _⟩ :: f :: _ =>
      decide (u' = u ∧ d' = d) && f.notices u d 1
  | _ => false

/-- The desktop approves the tablet before its handler has added it. -/
theorem approval_lost : exists s,
    Runs Deployment.env Deployment.auth Deployment.database
      (desktopOnline ++ Deployment.start 2 passwordAuth 7 ++ Deployment.turn 1 approves 1) s ∧
      ¬ s.ApprovalsKept := by
  have hend : (Deployment.after (desktopOnline ++ Deployment.start 2 passwordAuth 7 ++
      Deployment.turn 1 approves 1)).map
      (fun s => tookInVain "user" tablet s.log) = some true := by
    decide +kernel
  rcases Option.map_eq_some_iff.mp hend with ⟨s, hrun, hfacts⟩
  refine ⟨s, hrun, fun hkept => ?_⟩
  unfold tookInVain at hfacts
  split at hfacts
  · rename_i now u d enqueued f rest hlog
    simp only [Bool.and_eq_true, decide_eq_true_eq] at hfacts
    rcases hfacts with ⟨⟨rfl, rfl⟩, hnotices⟩
    rcases hkept "user" tablet [] _ _ hlog rfl (standing_cons.mpr (Or.inl hnotices)) with
      ⟨p, htaken, _⟩
    cases htaken
  · cases hfacts

end Relay

end CommandRelay
