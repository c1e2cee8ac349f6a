import CommandRelay.Server.Relay
import CommandRelay.Server.Routine

/-!
# What authentication presupposes

The calls by which a handler checks credentials, gives a role or issues a token,
and what the handler must have been answered before it makes them.
-/

namespace CommandRelay

open Foundation

/-!
## Attempts
-/

def passesLimit (u : String) : CallAnswer -> Bool
  | ⟨.checkRateLimit v, none⟩ => v = u
  | _ => false

def refuses (u : String) : CallAnswer -> Bool
  | ⟨.verifyDesktopKey _ _, .ok true⟩ => false
  | ⟨.verifyDesktopKey v _, _⟩ => v = u
  | ⟨.verifyPassword v _, .error _⟩ => v = u
  | ⟨.verifyTotp v _, .error _⟩ => v = u
  | _ => false

/-- The attempt is over: its failure was recorded, its success cleared the rate
limit, or the client was answered. -/
def settles (u : String) : CallAnswer -> Bool
  | ⟨.recordFailure v, _⟩ => v = u
  | ⟨.clearRateLimit v, _⟩ => v = u
  | ⟨.broker (.send _ (.text (.authResult ..))), _⟩ => true
  | _ => false

def Attempting (u : String) (past : List CallAnswer) : Prop :=
  Standing (passesLimit u) (settles u) past

theorem attempting_cons {u : String} {a : CallAnswer} {past : List CallAnswer} :
    Attempting u (a :: past) <-> passesLimit u a = true ∨ settles u a = false ∧ Attempting u past :=
  standing_cons

theorem not_attempting_nil {u : String} : ¬ Attempting u [] :=
  not_standing_nil

/-!
## Entitled calls
-/

namespace Inbound

def PresentsKey (frame : Inbound) (u key : String) : Prop :=
  exists version passwordHash totp token,
    frame.control? = some (.auth version u passwordHash totp token (some key))

def PresentsToken (frame : Inbound) (u token : String) : Prop :=
  exists version passwordHash totp,
    frame.control? = some (.auth version u passwordHash totp (some token) none)

def PresentsPassword (frame : Inbound) (u passwordHash : String) : Prop :=
  exists version totp token,
    frame.control? = some (.auth version u (some passwordHash) totp token none)

end Inbound

def KeyShown (frame : Inbound) (u : String) (past : List CallAnswer) : Prop :=
  exists key, frame.PresentsKey u key ∧
    (⟨.verifyDesktopKey u key, .ok true⟩ : CallAnswer) ∈ past

def TokenShown (frame : Inbound) (u d : String) (past : List CallAnswer) : Prop :=
  exists token claims, frame.PresentsToken u token ∧
    (⟨.validateJwt token, .ok claims⟩ : CallAnswer) ∈ past ∧
    claims.sub = u ∧ claims.deviceId = d ∧
    (⟨.isDeviceRegistered d u, true⟩ : CallAnswer) ∈ past

def PasswordShown (frame : Inbound) (u : String) (past : List CallAnswer) : Prop :=
  exists hash, frame.PresentsPassword u hash ∧
    (⟨.verifyPassword u hash, .ok ()⟩ : CallAnswer) ∈ past

def Approving (frame : Inbound) (role : ConnectionRole) (u d : String)
    (past : List CallAnswer) : Prop :=
  role = .desktop u ∧ exists (asked : String) (pending : PendingDevice),
    frame.control? = some (.deviceApproved asked) ∧
      (⟨.broker (.takePendingDevice u asked), some pending⟩ : CallAnswer) ∈ past ∧
      pending.deviceId = d

/-- What a handler must have been answered before it makes a call. -/
def Entitled (frame : Inbound) (role : ConnectionRole) (past : List CallAnswer) :
    Call -> Prop
  | .checkRateLimit u => frame.Authenticates u ∧ past = []
  | .verifyDesktopKey u _ | .verifyPassword u _ | .verifyTotp u _ => Attempting u past
  | .recordFailure u => exists a, past.head? = some a ∧ refuses u a = true
  | .clearRateLimit u => Attempting u past
  | .createJwt u d => TokenShown frame u d past ∨ Approving frame role u d past
  | .broker (.addPendingDevice u _) => PasswordShown frame u past
  | .setRole (.client u d) =>
      d = "desktop" ∧ KeyShown frame u past ∨ TokenShown frame u d past
  | .panic => forall u, ¬ Attempting u past
  | _ => True

/-- An entitled call; a refusal is recorded before anything else is done. -/
structure Credible (frame : Inbound) (role : ConnectionRole) (past : List CallAnswer)
    (call : Call) : Prop where
  entitled : Entitled frame role past call
  recorded : forall u a, past.head? = some a -> refuses u a = true -> call = .recordFailure u

def Credited (frame : Inbound) (role : ConnectionRole) (past : List CallAnswer)
    (task : Handler Unit) : Prop :=
  Program.Obeys (Credible frame role) past task fun past _ => forall u, ¬ Attempting u past

namespace Call

def isOrdinary : Call -> Bool
  | checkRateLimit _ | recordFailure _ | clearRateLimit _ => false
  | verifyDesktopKey .. | verifyPassword .. | verifyTotp .. => false
  | createJwt .. | panic | setRole (.client ..) => false
  | broker (.addPendingDevice ..) => false
  | _ => true

end Call

namespace Handler

/-!
## Handlers that have nothing to do with credentials
-/

def Ordinary (task : Handler Unit) : Prop :=
  Program.Obeys (fun _ call => call.isOrdinary = true) [] task fun _ _ => True

section

variable {call : Call} {past past' : List CallAnswer}

theorem ordinary_skip : Ordinary skip := trivial

theorem ordinary_act (h : call.isOrdinary = true) : Ordinary (act call) :=
  ⟨h, fun _ => trivial⟩

theorem ordinary_then {task : Handler Unit} (h : call.isOrdinary = true)
    (htask : Ordinary task) : Ordinary (act call >>= fun _ => task) :=
  ⟨h, fun _ => obeys_past htask⟩

theorem ordinary_ask {next : call.Reply -> Handler Unit} (h : call.isOrdinary = true)
    (hnext : forall r, Ordinary (next r)) : Ordinary (ask call >>= next) :=
  ⟨h, fun r => obeys_past (hnext r)⟩

theorem credible_of_ordinary {frame : Inbound} {role : ConnectionRole}
    (h : call.isOrdinary = true) (hquiet : forall u a, past.head? = some a ->
      refuses u a = false) : Credible frame role past call where
  entitled := by
    cases call
    case broker op => cases op <;> trivial
    case setRole new => cases new <;> trivial
    all_goals trivial
  recorded := by
    intro u a hhead hrefuses
    rw [hquiet u a hhead] at hrefuses
    cases hrefuses

theorem quiet_of_ordinary (h : call.isOrdinary = true) (r : call.Reply) (u : String) :
    passesLimit u ⟨call, r⟩ = false ∧ refuses u ⟨call, r⟩ = false := by
  cases call <;> first | exact ⟨rfl, rfl⟩ | cases h

theorem credited_of_ordinary {frame : Inbound} {role : ConnectionRole} {task : Handler Unit}
    (h : Ordinary task) (hidle : forall u, ¬ Attempting u past)
    (hquiet : forall u a, past.head? = some a -> refuses u a = false) :
    Credited frame role past task := by
  unfold Ordinary at h
  generalize ([] : List CallAnswer) = seen at h
  induction task generalizing past seen with
  | done value => exact hidle
  | invoke call next ih =>
      refine ⟨credible_of_ordinary h.1 hquiet, fun r => ?_⟩
      refine ih r ?_ ?_ _ (h.2 r)
      · intro u hattempt
        rcases attempting_cons.mp hattempt with hpasses | ⟨_, hold⟩
        · rw [(quiet_of_ordinary h.1 r u).1] at hpasses
          cases hpasses
        · exact hidle u hold
      · intro u a hhead
        rw [List.head?_cons] at hhead
        cases hhead
        exact (quiet_of_ordinary h.1 r u).2

end

section

variable {msg : ControlMessage} {id kind : String} {size : UInt64} {role : ConnectionRole}
  {c : ConnId} {task : Handler Unit}

theorem ordinary_of_routine (h : Routine task) : Ordinary task := by
  refine h.mono fun call hcall => ?_
  cases call
  case broker op => cases op <;> first | rfl | cases hcall
  case setRole new => cases new <;> first | rfl | cases hcall
  all_goals first | rfl | cases hcall

theorem handleFileUploadBegin_ordinary :
    Ordinary (handleFileUploadBegin msg id kind size role c) := by
  cases role with
  | unauthenticated => exact ordinary_skip
  | client u d =>
      simp only [handleFileUploadBegin]
      split
      · exact ordinary_act rfl
      · refine ordinary_ask rfl fun begun => ?_
        cases begun with
        | error reason => exact ordinary_act rfl
        | ok _ =>
            by_cases hkind : kind = "bug_report"
            · simp only [if_pos hkind]
              exact ordinary_then rfl (ordinary_act rfl)
            · simp only [if_neg hkind]
              exact ordinary_act rfl
  | desktop u =>
      simp only [handleFileUploadBegin]
      split
      · exact ordinary_skip
      · refine ordinary_ask rfl fun begun => ?_
        cases begun with
        | error reason => exact ordinary_skip
        | ok _ => exact ordinary_act rfl

end

/-!
## Authentication
-/

def Quiet (past : List CallAnswer) : Prop :=
  forall u a, past.head? = some a -> refuses u a = false

/-- The attempt of a user, and of nobody else, is under way. -/
structure Open (u : String) (past : List CallAnswer) : Prop where
  attempting : Attempting u past
  only : forall v, Attempting v past -> v = u
  quiet : Quiet past

/-- No attempt is under way. -/
structure Idle (past : List CallAnswer) : Prop where
  idle : forall u, ¬ Attempting u past
  quiet : Quiet past

section

variable {frame : Inbound} {role : ConnectionRole} {past : List CallAnswer} {call : Call}
  {task : Handler Unit} {u : String} {a : CallAnswer}

theorem credited_act (hcall : Credible frame role past call)
    (hend : forall r u, ¬ Attempting u (⟨call, r⟩ :: past)) :
    Credited frame role past (act call) :=
  ⟨hcall, hend⟩

theorem credited_then (hcall : Credible frame role past call)
    (htask : forall r, Credited frame role (⟨call, r⟩ :: past) task) :
    Credited frame role past (act call >>= fun _ => task) :=
  ⟨hcall, htask⟩

theorem credited_ask {next : call.Reply -> Handler Unit}
    (hcall : Credible frame role past call)
    (hnext : forall r, Credited frame role (⟨call, r⟩ :: past) (next r)) :
    Credited frame role past (ask call >>= next) :=
  ⟨hcall, hnext⟩

theorem credible_of_quiet (hquiet : Quiet past) (h : Entitled frame role past call) :
    Credible frame role past call where
  entitled := h
  recorded := by
    intro v a hhead hrefuses
    rw [hquiet v a hhead] at hrefuses
    cases hrefuses

theorem quiet_of_cons (h : forall v, refuses v a = false) : Quiet (a :: past) := by
  intro v b hhead
  cases hhead
  exact h v

theorem Open.cons (h : Open u past) (hpasses : forall v, passesLimit v a = false)
    (hsettles : settles u a = false) (hrefuses : forall v, refuses v a = false) :
    Open u (a :: past) where
  attempting := attempting_cons.mpr (Or.inr ⟨hsettles, h.attempting⟩)
  only := by
    intro v hv
    rcases attempting_cons.mp hv with hnew | ⟨_, hold⟩
    · rw [hpasses v] at hnew
      cases hnew
    · exact h.only v hold
  quiet := quiet_of_cons hrefuses

theorem Open.settle (h : Open u past) (hpasses : forall v, passesLimit v a = false)
    (hsettles : settles u a = true) (hrefuses : forall v, refuses v a = false) :
    Idle (a :: past) where
  idle := by
    intro v hv
    rcases attempting_cons.mp hv with hnew | ⟨hkeeps, hold⟩
    · rw [hpasses v] at hnew
      cases hnew
    · rw [h.only v hold, hsettles] at hkeeps
      cases hkeeps
  quiet := quiet_of_cons hrefuses

theorem Idle.cons (h : Idle past) (hpasses : forall v, passesLimit v a = false)
    (hrefuses : forall v, refuses v a = false) : Idle (a :: past) where
  idle := by
    intro v hv
    rcases attempting_cons.mp hv with hnew | ⟨_, hold⟩
    · rw [hpasses v] at hnew
      cases hnew
    · exact h.idle v hold
  quiet := quiet_of_cons hrefuses

theorem Idle.credited (h : Idle past) (htask : Ordinary task) :
    Credited frame role past task :=
  credited_of_ordinary htask h.idle h.quiet

theorem credited_sendAuthError (hquiet : Quiet past) (c : ConnId) (error : String) :
    Credited frame role past (sendAuthError c error) := by
  refine credited_act (credible_of_quiet hquiet trivial) fun r v hv => ?_
  rcases attempting_cons.mp hv with hnew | ⟨hkeeps, _⟩
  · cases hnew
  · cases hkeeps

theorem credited_fail (h : refuses u a = true) (honly : forall v, refuses v a = true -> v = u)
    (c : ConnId) (error : String) :
    Credited frame role (a :: past)
      (act (.recordFailure u) >>= fun _ => sendAuthError c error) := by
  refine credited_then ?_ fun r => credited_sendAuthError (quiet_of_cons fun _ => rfl) c error
  exact
    { entitled := ⟨a, rfl, h⟩
      recorded := by
        intro v b hhead hrefuses
        cases hhead
        rw [honly v hrefuses] }

end

section

variable {frame : Inbound} {role : ConnectionRole} {past : List CallAnswer} {u ip : String}
  {c : ConnId}

theorem authDesktopKey_credited (h : Open u past) {key : String}
    (hkey : frame.PresentsKey u key) :
    Credited frame role past (authDesktopKey u key c) := by
  refine credited_ask (credible_of_quiet h.quiet h.attempting) fun r => ?_
  have hfail : refuses u ⟨.verifyDesktopKey u key, r⟩ = true ->
      Credited frame role (⟨.verifyDesktopKey u key, r⟩ :: past)
        (act (.recordFailure u) >>= fun _ => sendAuthError c "invalid_credentials") := by
    intro hrefuses
    refine credited_fail hrefuses (fun v hv => ?_) c "invalid_credentials"
    unfold refuses at hv
    split at hv <;> first | cases hv | simp_all
  cases r with
  | error e => exact hfail (decide_eq_true rfl)
  | ok valid =>
      cases valid with
      | false => exact hfail (decide_eq_true rfl)
      | true =>
          have hopen := h.cons (a := ⟨.verifyDesktopKey u key, .ok true⟩) (fun _ => rfl) rfl
            fun _ => rfl
          refine credited_then (credible_of_quiet hopen.quiet hopen.attempting) fun r => ?_
          have hidle := hopen.settle (a := ⟨.clearRateLimit u, r⟩) (fun _ => rfl)
            (decide_eq_true rfl) fun _ => rfl
          refine credited_then (credible_of_quiet hidle.quiet trivial) fun r => ?_
          have hanswered := hidle.cons (a := ⟨.broker (.send c _), r⟩) (fun _ => rfl)
            fun _ => rfl
          refine credited_act (credible_of_quiet hanswered.quiet (Or.inl ⟨rfl, key, hkey, ?_⟩)) ?_
          · iterate 2 apply List.mem_cons_of_mem
            exact List.mem_cons_self
          · intro r v hv
            exact (hanswered.cons (a := ⟨.setRole _, r⟩) (fun _ => rfl) fun _ => rfl).idle v hv

theorem enrolDevice_credited (h : Open u past)
    (hpassword : PasswordShown frame u past) :
    Credited frame role past (enrolDevice u c ip) := by
  refine credited_then (credible_of_quiet h.quiet h.attempting) fun r => ?_
  have hcleared := h.settle (a := ⟨.clearRateLimit u, r⟩) (fun _ => rfl)
    (decide_eq_true rfl) fun _ => rfl
  refine credited_ask (credible_of_quiet hcleared.quiet trivial) fun online => ?_
  have honline := hcleared.cons (a := ⟨.broker (.isDesktopOnline u), online⟩) (fun _ => rfl)
    fun _ => rfl
  cases online with
  | false => exact credited_sendAuthError honline.quiet c "desktop_offline"
  | true =>
      refine credited_ask (credible_of_quiet honline.quiet trivial) fun registered => ?_
      have hregistered := honline.cons
        (a := ⟨.registerDevice u "Pending device" ip, registered⟩) (fun _ => rfl) fun _ => rfl
      cases registered with
      | error e => exact credited_sendAuthError hregistered.quiet c "internal_error"
      | ok deviceId =>
          refine credited_then (credible_of_quiet hregistered.quiet trivial) fun r => ?_
          have hannounced := hregistered.cons (a := ⟨.broker (.sendToDesktop u _), r⟩)
            (fun _ => rfl) fun _ => rfl
          rcases hpassword with ⟨hash, hframe, hhash⟩
          refine credited_act (credible_of_quiet hannounced.quiet ⟨hash, hframe, ?_⟩) ?_
          · iterate 4 apply List.mem_cons_of_mem
            exact hhash
          · intro r v hv
            exact (hannounced.cons (a := ⟨.broker (.addPendingDevice u _), r⟩) (fun _ => rfl)
              fun _ => rfl).idle v hv

theorem authTotp_credited (h : Open u past)
    (hpassword : PasswordShown frame u past)
    (totp : Option String) : Credited frame role past (authTotp u totp c ip) := by
  rcases hpassword with ⟨hash, hframe, hhash⟩
  refine credited_ask (credible_of_quiet h.quiet trivial) fun r => ?_
  have hopen := h.cons (a := ⟨.hasTotp u, r⟩) (fun _ => rfl) rfl fun _ => rfl
  have henrol : Credited frame role (⟨.hasTotp u, r⟩ :: past) (enrolDevice u c ip) :=
    enrolDevice_credited hopen ⟨hash, hframe, List.mem_cons_of_mem _ hhash⟩
  cases r with
  | error e => exact henrol
  | ok needed =>
      cases needed with
      | false => exact henrol
      | true =>
          cases totp with
          | none => exact credited_sendAuthError hopen.quiet c "totp_required"
          | some code =>
              refine credited_ask (credible_of_quiet hopen.quiet hopen.attempting) fun r => ?_
              cases r with
              | error e =>
                  have hrefuses : refuses u ⟨.verifyTotp u code, .error e⟩ = true :=
                    decide_eq_true rfl
                  refine credited_fail hrefuses (fun v hv => ?_) c "invalid_totp"
                  exact (of_decide_eq_true hv).symm
              | ok _ =>
                  refine enrolDevice_credited
                    (hopen.cons (a := ⟨.verifyTotp u code, .ok _⟩) (fun _ => rfl) rfl
                      fun _ => rfl) ⟨hash, hframe, ?_⟩
                  iterate 2 apply List.mem_cons_of_mem
                  exact hhash

theorem authPassword_credited (h : Open u past) {passwordHash : Option String}
    (hframe : forall hash, passwordHash = some hash -> frame.PresentsPassword u hash)
    (totp : Option String) :
    Credited frame role past (authPassword u passwordHash totp c ip) := by
  cases passwordHash with
  | none => exact credited_sendAuthError h.quiet c "invalid_credentials"
  | some hash =>
      refine credited_ask (credible_of_quiet h.quiet h.attempting) fun r => ?_
      cases r with
      | error e =>
          have hrefuses : refuses u ⟨.verifyPassword u hash, .error e⟩ = true :=
            decide_eq_true rfl
          refine credited_fail hrefuses (fun v hv => ?_) c "invalid_credentials"
          exact (of_decide_eq_true hv).symm
      | ok done =>
          cases done
          exact authTotp_credited
            (h.cons (a := ⟨.verifyPassword u hash, .ok ()⟩) (fun _ => rfl) rfl fun _ => rfl)
            ⟨hash, hframe hash rfl, List.mem_cons_self⟩ totp

theorem welcomeDevice_credited (h : Open u past) {d : String}
    (hpresented : TokenShown frame u d past) :
    Credited frame role past (welcomeDevice u d c ip) := by
  rcases hpresented with ⟨token, claims, hframe, hclaims, hsub, hdevice, hregistered⟩
  refine credited_then (credible_of_quiet h.quiet h.attempting) fun r => ?_
  have hcleared := h.settle (a := ⟨.clearRateLimit u, r⟩) (fun _ => rfl)
    (decide_eq_true rfl) fun _ => rfl
  refine credited_then (credible_of_quiet hcleared.quiet trivial) fun r => ?_
  have hseen := hcleared.cons (a := ⟨.updateDeviceLastSeen d ip, r⟩) (fun _ => rfl)
    fun _ => rfl
  refine credited_ask (credible_of_quiet hseen.quiet (Or.inl ?_)) fun r => ?_
  · refine ⟨token, claims, hframe, ?_, hsub, hdevice, ?_⟩
    · iterate 2 apply List.mem_cons_of_mem
      exact hclaims
    · iterate 2 apply List.mem_cons_of_mem
      exact hregistered
  · have hissued := hseen.cons (a := ⟨.createJwt u d, r⟩) (fun _ => rfl) fun _ => rfl
    cases r with
    | error e =>
        refine credited_act (credible_of_quiet hissued.quiet hissued.idle) fun r v hv => ?_
        exact (hissued.cons (a := ⟨.panic, r⟩) (fun _ => rfl) fun _ => rfl).idle v hv
    | ok fresh =>
        refine credited_then (credible_of_quiet hissued.quiet trivial) fun r => ?_
        have hanswered := hissued.cons (a := ⟨.broker (.send c _), r⟩) (fun _ => rfl)
          fun _ => rfl
        refine credited_then (credible_of_quiet hanswered.quiet (Or.inr ?_)) fun r => ?_
        · refine ⟨token, claims, hframe, ?_, hsub, hdevice, ?_⟩
          · iterate 4 apply List.mem_cons_of_mem
            exact hclaims
          · iterate 4 apply List.mem_cons_of_mem
            exact hregistered
        · have hrole := hanswered.cons (a := ⟨.setRole (.client u d), r⟩) (fun _ => rfl)
            fun _ => rfl
          refine hrole.credited (ordinary_ask rfl fun connectedAt => ordinary_act rfl)

theorem authDeviceToken_credited (h : Open u past) {token : String}
    {passwordHash : Option String} (htoken : frame.PresentsToken u token)
    (hframe : forall hash, passwordHash = some hash -> frame.PresentsPassword u hash)
    (totp : Option String) :
    Credited frame role past (authDeviceToken u token passwordHash totp c ip) := by
  refine credited_ask (credible_of_quiet h.quiet trivial) fun r => ?_
  have hvalidated := h.cons (a := ⟨.validateJwt token, r⟩) (fun _ => rfl) rfl fun _ => rfl
  cases r with
  | error e => exact authPassword_credited hvalidated hframe totp
  | ok claims =>
      by_cases hsub : claims.sub = u
      · simp only [if_pos hsub]
        refine credited_ask (credible_of_quiet hvalidated.quiet trivial) fun registered => ?_
        have hlooked := hvalidated.cons
          (a := ⟨.isDeviceRegistered claims.deviceId u, registered⟩) (fun _ => rfl) rfl
          fun _ => rfl
        cases registered with
        | false => exact authPassword_credited hlooked hframe totp
        | true =>
            exact welcomeDevice_credited hlooked ⟨token, claims, htoken,
              List.mem_cons_of_mem _ List.mem_cons_self, hsub, rfl, List.mem_cons_self⟩
      · simp only [if_neg hsub]
        exact authPassword_credited hvalidated hframe totp

theorem handleAuth_credited {version : UInt32}
    {passwordHash totp deviceToken desktopKey : Option String}
    (hframe : frame.control? =
      some (.auth version u passwordHash totp deviceToken desktopKey)) :
    Credited frame role []
      (handleAuth u passwordHash totp deviceToken desktopKey c ip) := by
  have hquiet : Quiet [] := fun v a hhead => by cases hhead
  refine credited_ask (credible_of_quiet hquiet ⟨⟨_, _, _, _, _, hframe⟩, rfl⟩) fun r => ?_
  cases r with
  | some retryAfter =>
      refine credited_act (credible_of_quiet (quiet_of_cons fun _ => rfl) trivial) fun r v hv => ?_
      rcases attempting_cons.mp hv with hnew | ⟨hkeeps, _⟩
      · cases hnew
      · cases hkeeps
  | none =>
      have hopen : Open u [⟨.checkRateLimit u, none⟩] :=
        { attempting := attempting_cons.mpr (Or.inl (decide_eq_true rfl))
          only := by
            intro v hv
            rcases attempting_cons.mp hv with hnew | ⟨_, hold⟩
            · exact (of_decide_eq_true hnew).symm
            · exact (not_attempting_nil hold).elim
          quiet := quiet_of_cons fun _ => rfl }
      cases desktopKey with
      | some key => exact authDesktopKey_credited hopen ⟨_, _, _, _, hframe⟩
      | none =>
          have hpassword : forall hash, passwordHash = some hash ->
              frame.PresentsPassword u hash := by
            intro hash hhash
            rw [hhash] at hframe
            exact ⟨_, _, _, hframe⟩
          cases deviceToken with
          | some token => exact authDeviceToken_credited hopen ⟨_, _, _, hframe⟩ hpassword totp
          | none => exact authPassword_credited hopen hpassword totp

end

/-!
## Every handler is credited
-/

theorem idle_nil : Idle [] where
  idle := fun _ => not_attempting_nil
  quiet := fun v a hhead => by cases hhead

section

variable {frame : Inbound} {role : ConnectionRole} {c : ConnId}

theorem handleDeviceApproved_credited {d : String}
    (hframe : frame.control? = some (.deviceApproved d)) :
    Credited frame role [] (handleDeviceApproved d role) := by
  cases role with
  | desktop u =>
      refine credited_ask (credible_of_quiet idle_nil.quiet trivial) fun taken => ?_
      have htaken := idle_nil.cons (a := ⟨.broker (.takePendingDevice u d), taken⟩)
        (fun _ => rfl) fun _ => rfl
      cases taken with
      | none => exact htaken.credited ordinary_skip
      | some pending =>
          refine credited_then (credible_of_quiet htaken.quiet trivial) fun r => ?_
          have hseen := htaken.cons
            (a := ⟨.updateDeviceLastSeen pending.deviceId pending.ip, r⟩) (fun _ => rfl)
            fun _ => rfl
          refine credited_ask (credible_of_quiet hseen.quiet (Or.inr ?_)) fun r => ?_
          · exact ⟨rfl, d, pending, hframe, List.mem_cons_of_mem _ List.mem_cons_self, rfl⟩
          · have hissued := hseen.cons (a := ⟨.createJwt u pending.deviceId, r⟩) (fun _ => rfl)
              fun _ => rfl
            cases r with
            | error e => exact hissued.credited ordinary_skip
            | ok token =>
                exact hissued.credited
                  (ordinary_then rfl (ordinary_ask rfl fun connectedAt => ordinary_act rfl))
  | _ => exact idle_nil.credited ordinary_skip

theorem handleControlMessage_credited {env : Env} {ip : String} {msg : ControlMessage}
    (hframe : frame.control? = some msg) :
    Credited frame role [] (handleControlMessage env msg role c ip) := by
  cases msg
  case auth version username passwordHash totp deviceToken desktopKey =>
      simp only [handleControlMessage]
      split
      · exact handleAuth_credited hframe
      · exact credited_sendAuthError idle_nil.quiet c "invalid_username"
  case deviceApproved d => exact handleDeviceApproved_credited hframe
  case fileUploadBegin => exact idle_nil.credited handleFileUploadBegin_ordinary
  all_goals exact idle_nil.credited (ordinary_of_routine (handleControlMessage_routine rfl))

theorem processWsMessage_credited (env : Env) (frame : Inbound) (role : ConnectionRole)
    (c : ConnId) (ip : String) :
    Credited frame role [] (processWsMessage env frame role c ip) := by
  cases frame with
  | text size parsed =>
      unfold processWsMessage
      by_cases hsize : maxTextMessageSize < size
      · simp only [if_pos hsize]
        exact idle_nil.credited ordinary_skip
      · simp only [if_neg hsize]
        cases parsed with
        | none => exact idle_nil.credited ordinary_skip
        | some msg =>
            have hframe : (Inbound.text size (some msg)).control? = some msg := if_neg hsize
            exact handleControlMessage_credited hframe
  | binary data =>
      unfold processWsMessage
      by_cases hsize : maxBinaryMessageSize < data.length
      · simp only [dif_pos hsize]
        exact idle_nil.credited ordinary_skip
      · simp only [dif_neg hsize]
        exact idle_nil.credited (ordinary_of_routine handleBinaryMessage_routine)
  | other => exact idle_nil.credited ordinary_skip

end

end Handler

namespace Relay

def Accredited (s : Relay) : Prop :=
  forall {{c frame role past task}}, s.activity c = .handling frame role past task ->
    Credited frame role past task

theorem accredited_init (auth : AuthManager) (database : Database) :
    Accredited (init auth database) := by
  intro c frame role past task hact
  cases hact

theorem accredited_step {env : Env} {s s' : Relay} {l : RelayLabel} (h : Accredited s)
    (hstep : Transition env s l s') : Accredited s' :=
  fun _ _ _ _ _ hact =>
    obeys_step (Handler.processWsMessage_credited env) hstep (fun hact => h hact) hact

end Relay

end CommandRelay
