import CommandRelay.Server.Authentication
import CommandRelay.Server.Delivery
import CommandRelay.Server.Topics

/-!
# Who is told that they are authenticated

A successful authentication result carries the token of a device, or stands for the
desktop key.  The relay sends one in three places, two of which answer the connection
itself and the third a connection that waits for a desktop's approval.
-/

namespace CommandRelay

open Foundation

namespace WsMessage

def isGrant : WsMessage -> Bool
  | .text (.authResult success ..) => success
  | _ => false

def grants : Topic where
  is := isGrant
  foreign :=
    { close := rfl
      status := fun _ _ => rfl
      hello := fun _ _ _ => rfl
      ping := rfl
      resync := rfl
      shutdown := rfl }
  written := by
    intro msg hmsg
    cases msg with
    | authResult success token deviceId error retryAfter =>
        exact (Bool.not_eq_true' success).mp hmsg
    | _ => rfl
  binary := fun _ => rfl

end WsMessage

/-- What leads a handler to tell a connection that it is authenticated. -/
inductive Grants (c : ConnId) (frame : Inbound) (role : ConnectionRole)
    (past : List CallAnswer) : Call -> Prop where
  | silent {call} (hcall : call.omits WsMessage.grants = true) : Grants c frame role past call
  | key {u} (hshown : KeyShown frame u past) :
      Grants c frame role past
        (.broker (.send c (.text (.authResult true none (some "desktop") none none))))
  | token {u d token} (hshown : TokenShown frame u d past)
      (hissued : past.head? = some ⟨.createJwt u d, .ok token⟩) :
      Grants c frame role past
        (.broker (.send c (.text (.authResult true (some token) (some d) none none))))
  | approval {u asked p token} (hrole : role = .desktop u)
      (hframe : frame.control? = some (.deviceApproved asked))
      (htaken : ⟨.broker (.takePendingDevice u asked), some p⟩ ∈ past)
      (hissued : past.head? = some ⟨.createJwt u p.deviceId, .ok token⟩) :
      Grants c frame role past
        (.broker (.send p.clientTx
          (.text (.authResult true (some token) (some p.deviceId) none none))))
  | stored {u id reply}
      (hdecided : past.head? = some ⟨.broker (.beginSupervisorQuery u id c), .replay reply⟩) :
      Grants c frame role past (.broker (.send c (.text reply)))

namespace Handler

def Granting (c : ConnId) (frame : Inbound) (role : ConnectionRole) (past : List CallAnswer)
    (task : Handler Unit) : Prop :=
  Program.Obeys (Grants c frame role) past task fun _ _ => True

section

variable {c : ConnId} {frame : Inbound} {role : ConnectionRole} {past : List CallAnswer}
  {call : Call} {task : Handler Unit}

theorem granting_of_omits (h : Omits WsMessage.grants task) :
    Granting c frame role past task :=
  obeys_of_omits h (fun _ _ => .silent) past

theorem granting_ask {next : call.Reply -> Handler Unit} (hcall : Grants c frame role past call)
    (hnext : forall r, Granting c frame role (⟨call, r⟩ :: past) (next r)) :
    Granting c frame role past (ask call >>= next) :=
  ⟨hcall, hnext⟩

theorem granting_then (hcall : Grants c frame role past call)
    (htask : forall r, Granting c frame role (⟨call, r⟩ :: past) task) :
    Granting c frame role past (act call >>= fun _ => task) :=
  ⟨hcall, htask⟩

theorem granting_act (hcall : Grants c frame role past call) :
    Granting c frame role past (act call) :=
  ⟨hcall, fun _ => trivial⟩

end

/-!
## Handlers that grant
-/

section

variable {c : ConnId} {frame : Inbound} {role : ConnectionRole} {past : List CallAnswer}
  {u d id ip : String} {passwordHash totp deviceToken desktopKey : Option String}
  {msg : ControlMessage}

theorem authDesktopKey_granting {key : String} (hkey : frame.PresentsKey u key) :
    Granting c frame role past (authDesktopKey u key c) := by
  refine granting_ask (.silent rfl) fun verified => ?_
  cases verified with
  | error e => exact granting_of_omits (makes_then rfl (makes_act rfl))
  | ok valid =>
      cases valid with
      | false => exact granting_of_omits (makes_then rfl (makes_act rfl))
      | true =>
          refine granting_then (.silent rfl) fun _ => ?_
          refine granting_then (.key ⟨key, hkey, ?_⟩) fun _ => granting_act (.silent rfl)
          exact List.mem_cons_of_mem _ List.mem_cons_self

theorem tokenShown_cons (h : TokenShown frame u d past) (a : CallAnswer) :
    TokenShown frame u d (a :: past) := by
  rcases h with ⟨token, claims, hframe, hclaims, hsub, hdevice, hregistered⟩
  exact ⟨token, claims, hframe, List.mem_cons_of_mem a hclaims, hsub, hdevice,
    List.mem_cons_of_mem a hregistered⟩

theorem welcomeDevice_granting (hshown : TokenShown frame u d past) :
    Granting c frame role past (welcomeDevice u d c ip) := by
  refine granting_then (.silent rfl) fun cleared => granting_then (.silent rfl) fun seen => ?_
  refine granting_ask (.silent rfl) fun issued => ?_
  have hstill := tokenShown_cons (tokenShown_cons (tokenShown_cons hshown ⟨_, cleared⟩) ⟨_, seen⟩)
    ⟨_, issued⟩
  cases issued with
  | error e => exact granting_of_omits (makes_act rfl)
  | ok token =>
      refine granting_then (.token hstill rfl) fun _ => ?_
      exact granting_of_omits (makes_then rfl (makes_ask rfl fun _ => makes_act rfl))

theorem authDeviceToken_granting {token : String} (htoken : frame.PresentsToken u token) :
    Granting c frame role past (authDeviceToken u token passwordHash totp c ip) := by
  refine granting_ask (.silent rfl) fun validated => ?_
  cases validated with
  | error e => exact granting_of_omits authPassword_omits
  | ok claims =>
      by_cases hsub : claims.sub = u
      · simp only [if_pos hsub]
        refine granting_ask (.silent rfl) fun registered => ?_
        cases registered with
        | false => exact granting_of_omits authPassword_omits
        | true =>
            exact welcomeDevice_granting ⟨token, claims, htoken,
              List.mem_cons_of_mem _ List.mem_cons_self, hsub, rfl, List.mem_cons_self⟩
      · simp only [if_neg hsub]
        exact granting_of_omits authPassword_omits

theorem handleAuth_granting {version : UInt32}
    (hframe : frame.control? =
      some (.auth version u passwordHash totp deviceToken desktopKey)) :
    Granting c frame role past (handleAuth u passwordHash totp deviceToken desktopKey c ip) := by
  refine granting_ask (.silent rfl) fun limited => ?_
  cases limited with
  | some retryAfter => exact granting_of_omits (makes_act rfl)
  | none =>
      cases desktopKey with
      | some key => exact authDesktopKey_granting ⟨_, _, _, _, hframe⟩
      | none =>
          cases deviceToken with
          | some token => exact authDeviceToken_granting ⟨_, _, _, hframe⟩
          | none => exact granting_of_omits authPassword_omits

theorem handleDeviceApproved_granting (hframe : frame.control? = some (.deviceApproved d)) :
    Granting c frame role past (handleDeviceApproved d role) := by
  cases role with
  | desktop u =>
      refine granting_ask (.silent rfl) fun taken => ?_
      cases taken with
      | none => exact granting_of_omits makes_skip
      | some p =>
          refine granting_then (.silent rfl) fun seen => granting_ask (.silent rfl) fun issued => ?_
          cases issued with
          | error e => exact granting_of_omits makes_skip
          | ok token =>
              refine granting_then (.approval rfl hframe ?_ rfl) fun _ => ?_
              · iterate 2 apply List.mem_cons_of_mem
                exact List.mem_cons_self
              · exact granting_of_omits (makes_ask rfl fun _ => makes_act rfl)
  | _ => exact granting_of_omits makes_skip

theorem handleSupervisorQuery_granting (hmsg : WsMessage.isGrant (.text msg) = false) :
    Granting c frame role past (handleSupervisorQuery msg id role c) := by
  cases role with
  | client u d =>
      refine granting_ask (.silent rfl) fun online => ?_
      cases online with
      | false => exact granting_of_omits (makes_act rfl)
      | true =>
          refine granting_ask (.silent rfl) fun decision => ?_
          cases decision with
          | replay reply => exact granting_act (.stored rfl)
          | reowned => exact granting_of_omits makes_skip
          | capacity => exact granting_of_omits (makes_act rfl)
          | forward => exact granting_of_omits (sendToDesktop_omits hmsg)
  | _ => exact granting_of_omits makes_skip

theorem handleControlMessage_granting (env : Env) (hframe : frame.control? = some msg) :
    Granting c frame role past (handleControlMessage env msg role c ip) := by
  cases msg
  case auth version username passwordHash totp deviceToken desktopKey =>
      unfold handleControlMessage
      by_cases hvalid : isValidUsername username = true
      · simp only [if_pos hvalid]
        exact handleAuth_granting hframe
      · simp only [if_neg hvalid]
        exact granting_of_omits (makes_act rfl)
  case deviceApproved => exact handleDeviceApproved_granting hframe
  case supervisorQuery => exact handleSupervisorQuery_granting rfl
  case authResult => exact granting_of_omits makes_skip
  all_goals exact granting_of_omits (handleControlMessage_omits env rfl rfl)

theorem processWsMessage_granting (env : Env) (frame : Inbound) (role : ConnectionRole)
    (c : ConnId) (ip : String) :
    Granting c frame role [] (processWsMessage env frame role c ip) := by
  rcases processWsMessage_omits env frame with ⟨msg, hframe⟩ | homits
  · rw [processWsMessage_of_control hframe]
    exact handleControlMessage_granting env hframe
  · exact granting_of_omits homits

end

end Handler

/-!
## Second factors
-/

def Inbound.PresentsCode (frame : Inbound) (u code : String) : Prop :=
  exists version passwordHash token,
    frame.control? = some (.auth version u passwordHash (some code) token none)

/-- A code was presented and is right, or the lookup for a second factor asked for none: it
said that there is none, or it failed. -/
def FactorShown (frame : Inbound) (u : String) (past : List CallAnswer) : Prop :=
  (exists code, frame.PresentsCode u code ∧
      (⟨.verifyTotp u code, .ok ()⟩ : CallAnswer) ∈ past) ∨
    exists r, r ≠ .ok true ∧ (⟨.hasTotp u, r⟩ : CallAnswer) ∈ past

theorem FactorShown.cons {frame : Inbound} {u : String} {past : List CallAnswer}
    (h : FactorShown frame u past) (a : CallAnswer) : FactorShown frame u (a :: past) := by
  rcases h with ⟨code, hcode, hverified⟩ | ⟨r, hr, hlookup⟩
  · exact Or.inl ⟨code, hcode, List.mem_cons_of_mem a hverified⟩
  · exact Or.inr ⟨r, hr, List.mem_cons_of_mem a hlookup⟩

/-- The call adds no pending device of an account that the frame authenticates for before
its second factor. -/
def Confirmed (frame : Inbound) (past : List CallAnswer) : Call -> Prop
  | .broker (.addPendingDevice u _) => frame.Authenticates u -> FactorShown frame u past
  | _ => True

namespace Handler

def Confirms (frame : Inbound) (past : List CallAnswer) (task : Handler Unit) : Prop :=
  Program.Obeys (Confirmed frame) past task fun _ _ => True

section

variable {frame : Inbound} {past : List CallAnswer} {u ip : String} {c : ConnId}
  {totp passwordHash deviceToken desktopKey : Option String}

theorem confirms_ask {call : Call} {next : call.Reply -> Handler Unit}
    (hcall : Confirmed frame past call)
    (hnext : forall r, Confirms frame (⟨call, r⟩ :: past) (next r)) :
    Confirms frame past (ask call >>= next) :=
  ⟨hcall, hnext⟩

theorem confirms_fail (error : String) :
    Confirms frame past (act (.recordFailure u) >>= fun _ => sendAuthError c error) :=
  ⟨trivial, fun _ => ⟨trivial, fun _ => trivial⟩⟩

theorem confirms_sendAuthError (error : String) : Confirms frame past (sendAuthError c error) :=
  ⟨trivial, fun _ => trivial⟩

theorem enrolDevice_confirms (h : FactorShown frame u past) :
    Confirms frame past (enrolDevice u c ip) := by
  refine ⟨trivial, fun cleared => ⟨trivial, fun online => ?_⟩⟩
  cases online with
  | false => exact confirms_sendAuthError "desktop_offline"
  | true =>
      refine ⟨trivial, fun registered => ?_⟩
      cases registered with
      | error e => exact confirms_sendAuthError "internal_error"
      | ok deviceId =>
          refine ⟨trivial, fun sent => ⟨fun _ => ?_, fun _ => trivial⟩⟩
          exact (((h.cons _).cons _).cons _).cons _

theorem authTotp_confirms (hframe : forall code, totp = some code -> frame.PresentsCode u code) :
    Confirms frame past (authTotp u totp c ip) := by
  refine ⟨trivial, fun configured => ?_⟩
  by_cases hasked : configured = .ok true
  · subst hasked
    cases totp with
    | none => exact confirms_sendAuthError "totp_required"
    | some code =>
        refine ⟨trivial, fun verified => ?_⟩
        cases verified with
        | error e => exact confirms_fail "invalid_totp"
        | ok done =>
            cases done
            exact enrolDevice_confirms (Or.inl ⟨code, hframe code rfl, List.mem_cons_self⟩)
  · have henrol : Confirms frame (⟨.hasTotp u, configured⟩ :: past) (enrolDevice u c ip) :=
      enrolDevice_confirms (Or.inr ⟨configured, hasked, List.mem_cons_self⟩)
    cases configured with
    | error e => exact henrol
    | ok needed =>
        cases needed with
        | false => exact henrol
        | true => exact absurd rfl hasked

theorem authPassword_confirms
    (hframe : forall code, totp = some code -> frame.PresentsCode u code) :
    Confirms frame past (authPassword u passwordHash totp c ip) := by
  cases passwordHash with
  | none => exact confirms_sendAuthError "invalid_credentials"
  | some hash =>
      refine ⟨trivial, fun verified => ?_⟩
      cases verified with
      | error e => exact confirms_fail "invalid_credentials"
      | ok done => exact authTotp_confirms hframe

theorem welcomeDevice_confirms (d : String) : Confirms frame past (welcomeDevice u d c ip) := by
  refine ⟨trivial, fun _ => ⟨trivial, fun _ => ⟨trivial, fun issued => ?_⟩⟩⟩
  cases issued with
  | error e => exact ⟨trivial, fun _ => trivial⟩
  | ok token =>
      exact ⟨trivial, fun _ => ⟨trivial, fun _ => ⟨trivial, fun _ => ⟨trivial, fun _ => trivial⟩⟩⟩⟩

theorem authDeviceToken_confirms {token : String}
    (hframe : forall code, totp = some code -> frame.PresentsCode u code) :
    Confirms frame past (authDeviceToken u token passwordHash totp c ip) := by
  refine confirms_ask trivial fun validated => ?_
  cases validated with
  | error e => exact authPassword_confirms hframe
  | ok claims =>
      by_cases hsub : claims.sub = u
      · simp only [if_pos hsub]
        refine confirms_ask trivial fun registered => ?_
        cases registered with
        | false => exact authPassword_confirms hframe
        | true => exact welcomeDevice_confirms claims.deviceId
      · simp only [if_neg hsub]
        exact authPassword_confirms hframe

theorem authDesktopKey_confirms {key : String} :
    Confirms frame past (authDesktopKey u key c) := by
  refine ⟨trivial, fun verified => ?_⟩
  cases verified with
  | error e => exact confirms_fail "invalid_credentials"
  | ok valid =>
      cases valid with
      | false => exact confirms_fail "invalid_credentials"
      | true => exact ⟨trivial, fun _ => ⟨trivial, fun _ => ⟨trivial, fun _ => trivial⟩⟩⟩

theorem handleAuth_confirms {version : UInt32}
    (hframe : frame.control? =
      some (.auth version u passwordHash totp deviceToken desktopKey)) :
    Confirms frame past (handleAuth u passwordHash totp deviceToken desktopKey c ip) := by
  refine ⟨trivial, fun limited => ?_⟩
  cases limited with
  | some retryAfter => exact ⟨trivial, fun _ => trivial⟩
  | none =>
      cases desktopKey with
      | some key => exact authDesktopKey_confirms
      | none =>
          have hcode : forall code, totp = some code -> frame.PresentsCode u code :=
            fun code htotp => ⟨version, passwordHash, deviceToken, htotp ▸ hframe⟩
          cases deviceToken with
          | some token => exact authDeviceToken_confirms hcode
          | none => exact authPassword_confirms hcode

theorem confirms_of_not_auth {task : Handler Unit} (h : forall u, ¬ frame.Authenticates u) :
    Confirms frame past task :=
  Program.obeys_of_forall fun past call => by
    unfold Confirmed
    split
    · exact fun hframe => absurd hframe (h _)
    · trivial

theorem processWsMessage_confirms (env : Env) (frame : Inbound) (role : ConnectionRole)
    (c : ConnId) (ip : String) : Confirms frame [] (processWsMessage env frame role c ip) := by
  by_cases hauth : exists u, frame.Authenticates u
  · rcases hauth with ⟨u, version, passwordHash, totp, deviceToken, desktopKey, hframe⟩
    rw [processWsMessage_of_control hframe]
    unfold handleControlMessage
    by_cases hvalid : isValidUsername u = true
    · simp only [if_pos hvalid]
      exact handleAuth_confirms hframe
    · simp only [if_neg hvalid]
      exact ⟨trivial, fun _ => trivial⟩
  · exact confirms_of_not_auth (not_exists.mp hauth)

end

end Handler

/-!
## Runs
-/

namespace Relay

section

variable {env : Env} {auth : AuthManager} {database : Database} {labels : List RelayLabel}
  {s s' : Relay} {l : RelayLabel}

theorem granting_of_runs (hrun : Runs env auth database labels s) {c : ConnId} {frame : Inbound}
    {role : ConnectionRole} {past : List CallAnswer} {task : Handler Unit}
    (hact : s.activity c = .handling frame role past task) :
    Handler.Granting c frame role past task :=
  obeys_of_runs (fun frame role c ip => Handler.processWsMessage_granting env frame role c ip)
    hrun hact

theorem confirms_of_runs (hrun : Runs env auth database labels s) {c : ConnId} {frame : Inbound}
    {role : ConnectionRole} {past : List CallAnswer} {task : Handler Unit}
    (hact : s.activity c = .handling frame role past task) :
    Handler.Confirms frame past task :=
  @obeys_of_runs env auth database (fun _ frame _ => Confirmed frame)
    (Handler.processWsMessage_confirms env) labels s hrun c frame role past task hact

theorem noGrants_stored (hrun : Runs env auth database labels s) :
    s.broker.Parked WsMessage.isGrant := by
  refine runs_labels_induction (motive := fun _ s => s.broker.Parked WsMessage.isGrant)
    (fun u id e reply he => by cases he) ?_ hrun
  intro labels s l s' hrun hparked hnext
  refine parked_kept (sound_of_runs hrun) hparked (fun hbusy => ?_) (step_transition hnext)
  cases (granting_of_runs hrun hbusy).1 with
  | silent hcall => exact WsMessage.ofKind_eq_none.mp (Option.isNone_iff_eq_none.mp hcall)

theorem grant_step (hrun : Runs env auth database labels s) (hnext : step env s l = some s')
    {tx : ConnId} {msg : WsMessage} (hmem : (tx, msg) ∈ s'.broker.delivered)
    (hgrant : msg.isGrant = true) :
    (tx, msg) ∈ s.broker.delivered ∨ exists c frame role past next,
      s.activity c = .handling frame role past (.invoke (.broker (.send tx msg)) next) ∧
        Grants c frame role past (.broker (.send tx msg)) := by
  have hs := sound_of_runs hrun
  rcases log_step hs (step_transition hnext) with
    hlog | ⟨c, a, call, _, _, _, hbroker, hmade⟩
  · exact Or.inl ((silent_step WsMessage.grants.foreign hnext hlog).old hmem hgrant)
  · rw [hbroker] at hmem
    have hsilent : call.omits WsMessage.grants = true -> (tx, msg) ∈ s.broker.delivered := by
      intro hcall
      rcases broker_perform_cases env s c a call with ⟨op, rfl⟩ | ⟨-, hsame⟩
      · have hpasses := Broker.passesOn_exec WsMessage.grants.foreign (nodup_clients hrun) a.now op
        rw [Option.isNone_iff_eq_none.mp hcall] at hpasses
        exact hpasses.old hmem hgrant
      · rw [hsame] at hmem
        exact hmem
    have hsend : forall {tx' msg' frame role past next},
        call = .broker (.send tx' msg') ->
        s.activity c = .handling frame role past (.invoke call next) ->
        Grants c frame role past call ->
        (tx, msg) ∈ s.broker.delivered ∨ exists c frame role past next,
          s.activity c = .handling frame role past (.invoke (.broker (.send tx msg)) next) ∧
            Grants c frame role past (.broker (.send tx msg)) := by
      intro tx' msg' frame role past next hcall hact hgrants
      subst hcall
      rcases s.broker.delivered_send_cases tx' msg' with hsame | hnew
      · exact Or.inl (hsame ▸ hmem)
      · have hmem : (tx, msg) ∈ (s.broker.send tx' msg').1.delivered := hmem
        rw [hnew] at hmem
        rcases List.mem_cons.mp hmem with heq | hold
        · cases heq
          exact Or.inr ⟨c, frame, role, past, next, hact, hgrants⟩
        · exact Or.inl hold
    rcases hmade with ⟨frame, role, past, next, hact⟩ | ⟨op, rfl, hcall⟩
    · have hgrants := (granting_of_runs hrun hact).1
      cases hgrants with
      | silent hcall => exact Or.inl (hsilent hcall)
      | key hshown => exact hsend rfl hact (.key hshown)
      | token hshown hissued => exact hsend rfl hact (.token hshown hissued)
      | approval hrole hframe htaken hissued =>
          exact hsend rfl hact (.approval hrole hframe htaken hissued)
      | stored hdecided => exact hsend rfl hact (.stored hdecided)
    · refine Or.inl (hsilent ?_)
      generalize s.role c = role at hcall
      cases hcall <;> rfl

theorem enrolled_by_waiting {u : String} {p : PendingDevice}
    (h : Enrolled env auth database labels u p) :
    Passes env auth database labels fun s => exists frame role past next,
      s.activity p.clientTx =
        .handling frame role past (.invoke (.broker (.addPendingDevice u p)) next) ∧
      PasswordShown frame u past ∧ FactorShown frame u past := by
  rcases h with ⟨before, after, t, hlabels, hrun, c, frame, role, past, next, hact, hshown⟩
  have hpermitted : p.clientTx = c ∧ frame.Authenticates u := by
    cases ((sound_of_runs hrun).behaves hact).1.permitted with
    | privately hcall => cases hcall
    | enrol hframe htx => exact ⟨htx, hframe⟩
    | desktopCall hrole hcall => cases hcall
    | ownUpload hrole hcall => cases hcall
  rcases hpermitted with ⟨rfl, hframe⟩
  exact ⟨before, after, t, hlabels, hrun, frame, role, past, next, hact, hshown,
    (confirms_of_runs hrun hact).1 hframe⟩

/-- How a connection comes to be told that it is authenticated: it has shown the desktop
key, or the token of a registered device, or it has shown the password and the second factor
and a desktop of the account has approved its device. -/
inductive Earned (env : Env) (auth : AuthManager) (database : Database)
    (labels : List RelayLabel) (tx : ConnId) : ControlMessage -> Prop where
  | key {u}
      (hshown : Passes env auth database labels fun s => exists frame role past task,
        s.activity tx = .handling frame role past task ∧ KeyShown frame u past) :
      Earned env auth database labels tx (.authResult true none (some "desktop") none none)
  | token {u d token}
      (hshown : Passes env auth database labels fun s => exists frame role past task,
        s.activity tx = .handling frame role past task ∧ TokenShown frame u d past ∧
          ⟨.createJwt u d, .ok token⟩ ∈ past) :
      Earned env auth database labels tx (.authResult true (some token) (some d) none none)
  | approval {u d token}
      (henrolled : Passes env auth database labels fun s =>
        exists frame role past p next, p.deviceId = d ∧
          s.activity tx =
            .handling frame role past (.invoke (.broker (.addPendingDevice u p)) next) ∧
          PasswordShown frame u past ∧ FactorShown frame u past)
      (happroved : Passes env auth database labels fun s => exists c frame past task,
        s.activity c = .handling frame (.desktop u) past task ∧
          frame.control? = some (.deviceApproved d) ∧ ⟨.createJwt u d, .ok token⟩ ∈ past) :
      Earned env auth database labels tx (.authResult true (some token) (some d) none none)

theorem Earned.extend {tx : ConnId} {msg : ControlMessage}
    (h : Earned env auth database labels tx msg) (more : List RelayLabel) :
    Earned env auth database (labels ++ more) tx msg := by
  cases h with
  | key hshown => exact .key (hshown.extend more)
  | token hshown => exact .token (hshown.extend more)
  | approval henrolled happroved => exact .approval (henrolled.extend more) (happroved.extend more)

theorem earned_of_grants (hrun : Runs env auth database labels s) {c tx : ConnId}
    {frame : Inbound} {role : ConnectionRole} {past : List CallAnswer} {task : Handler Unit}
    (hact : s.activity c = .handling frame role past task) {msg : ControlMessage}
    (hgrant : WsMessage.isGrant (.text msg) = true)
    (h : Grants c frame role past (.broker (.send tx (.text msg)))) :
    Earned env auth database labels tx msg := by
  cases h with
  | silent hcall =>
      have hnone : WsMessage.isGrant (.text msg) = false :=
        WsMessage.ofKind_eq_none.mp (Option.isNone_iff_eq_none.mp hcall)
      rw [hgrant] at hnone
      cases hnone
  | key hshown => exact .key (passes_of_runs hrun ⟨frame, role, past, task, hact, hshown⟩)
  | token hshown hissued =>
      exact .token (passes_of_runs hrun
        ⟨frame, role, past, task, hact, hshown, List.mem_of_mem_head? hissued⟩)
  | approval hrole hframe htaken hissued =>
      rename_i u asked p token
      rcases past_origin hrun hact htaken with
        ⟨before, after, t, hlabels, hbefore, a, older, next, hasked, hanswer⟩
      have htake : (t.broker.takePendingDevice u asked).2 = some p := hanswer.symm
      rcases Broker.pends_of_taken htake with ⟨hpends, hid⟩
      have henrolled := (enrolled_by_waiting (enrolled_of_pends hbefore hpends)).extend after
      rw [← hlabels] at henrolled
      rcases henrolled with
        ⟨first, rest, r, hsplit, hfirst, frame', role', past', next', hact', hshown⟩
      subst hrole
      rw [← hid] at hframe
      refine .approval ⟨first, rest, r, hsplit, hfirst, frame', role', past', p, next', rfl, hact',
        hshown⟩ (passes_of_runs hrun
          ⟨c, frame, past, task, hact, hframe, List.mem_of_mem_head? hissued⟩)
  | stored hdecided =>
      exfalso
      rename_i u id
      rcases past_origin hrun hact (List.mem_of_mem_head? hdecided) with
        ⟨before, after, t, _, hbefore, a, older, next, _, hanswer⟩
      have hreply : (t.broker.exec a.now (.beginSupervisorQuery u id c)).2 = .replay msg :=
        hanswer.symm
      have hcase := t.broker.exec_beginSupervisorQuery_decided a.now u id c
      rw [hreply] at hcase
      rcases hcase with ⟨e, he, hstored⟩
      have hnone := noGrants_stored hbefore u id e msg (Option.filter_eq_some_iff.mp he).1 hstored
      rw [hgrant] at hnone
      cases hnone

/-- No connection is told that it is authenticated, or gets a token, without having earned
it itself. -/
theorem granted_earned (hrun : Runs env auth database labels s) {tx : ConnId}
    {msg : ControlMessage} (hmem : (tx, .text msg) ∈ s.broker.delivered)
    (hgrant : WsMessage.isGrant (.text msg) = true) : Earned env auth database labels tx msg := by
  refine runs_labels_induction (motive := fun labels s =>
    (tx, .text msg) ∈ s.broker.delivered -> Earned env auth database labels tx msg)
    (fun h => by cases h) ?_ hrun hmem
  intro labels s l s' hrun ih hnext hmem
  rcases grant_step hrun hnext hmem hgrant with hold | ⟨c, frame, role, past, next, hact, hgrants⟩
  · exact (ih hold).extend [l]
  · exact (earned_of_grants hrun hact hgrant hgrants).extend [l]

end

def token? : WsMessage -> Option (String × String)
  | .text (.authResult true (some token) (some d) none none) => some (token, d)
  | _ => none

theorem token?_eq_some {msg : WsMessage} {token d : String} (h : token? msg = some (token, d)) :
    msg = .text (.authResult true (some token) (some d) none none) := by
  unfold token? at h
  split at h
  · cases h
    rfl
  · cases h

def tokensTo (tx : ConnId) (s : Relay) : List (String × String) :=
  (sentTo WsMessage.isGrant tx s.broker.delivered).filterMap token?

theorem granted_earned_example : exists s,
    Runs Deployment.env Deployment.auth Deployment.database deskAndPhone s ∧
      Earned Deployment.env Deployment.auth Deployment.database deskAndPhone 2
        (.authResult true (some Deployment.phoneToken) (some Deployment.phone.text) none none) := by
  have hend : (Deployment.after deskAndPhone).map (tokensTo 2) =
      some [(Deployment.phoneToken, Deployment.phone.text)] := by decide +kernel
  rcases Option.map_eq_some_iff.mp hend with ⟨s, hrun, htokens⟩
  rcases List.mem_filterMap.mp (htokens ▸ List.mem_singleton.mpr rfl) with ⟨msg, hmsg, htoken⟩
  rcases mem_sentTo.mp hmsg with ⟨hmem, hgrant⟩
  rw [token?_eq_some htoken] at hmem hgrant
  exact ⟨s, hrun, granted_earned hrun hmem hgrant⟩

end Relay

end CommandRelay
