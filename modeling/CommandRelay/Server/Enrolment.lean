import CommandRelay.Server.Relay

/-!
# Enrolment of a new device

A handler is run here against a world that answers each of its calls in a state of
its own, so that every call may succeed or fail whatever the others did.  A device
is enrolled only after the checks the account asks for, as long as the one lookup
that tells whether there is a second factor is not answered with an error.
-/

namespace CommandRelay

open Foundation

/-- A call that was made, with the state and the surroundings it was made in. -/
structure Made where
  app : App
  ambient : Ambient
  answered : CallAnswer

def Handler.trace (env : Env) (world : Nat -> App × Ambient) :
    Nat -> Handler Unit -> List Made
  | _, .done _ => []
  | n, .invoke call next =>
      ⟨(world n).1, (world n).2, ⟨call, ((world n).1.exec env (world n).2 call).2⟩⟩ ::
        trace env world (n + 1) (next ((world n).1.exec env (world n).2 call).2)

namespace Made

/-- The call clears the rate limit, registers a device, announces one to the
desktop or adds one to the pending devices. -/
def enrols (m : Made) : Bool :=
  match m.answered.call with
  | .clearRateLimit _ | .registerDevice .. => true
  | .broker (.sendToDesktop _ (.text (.devicePending ..))) => true
  | .broker (.addPendingDevice ..) => true
  | _ => false

def verifiesPassword (u : String) (m : Made) : Bool :=
  match m.answered with
  | ⟨.verifyPassword v _, .ok _⟩ => v = u
  | _ => false

def looksUpTotp (u : String) (m : Made) : Bool :=
  match m.answered.call with
  | .hasTotp v => v = u
  | _ => false

def lacksTotp (u : String) (m : Made) : Bool :=
  match m.answered with
  | ⟨.hasTotp v, .ok false⟩ => v = u
  | _ => false

def verifiesTotp (u : String) (m : Made) : Bool :=
  match m.answered with
  | ⟨.verifyTotp v _, .ok _⟩ => v = u
  | _ => false

def secretStored (u : String) (m : Made) : Bool :=
  match m.app.database.getAccount u with
  | .error _ => false
  | .ok account => account.totpSecretEncrypted.isSome

def answersLookup (u : String) (m : Made) : Bool :=
  !m.ambient.dbFault && (m.app.database.accounts.lookup u).isSome

/-- The call belongs to another way of authenticating: a desktop key, or the token
of a registered device. -/
def bypassesCredentials (m : Made) : Bool :=
  match m.answered with
  | ⟨.verifyDesktopKey .., _⟩ => true
  | ⟨.isDeviceRegistered .., true⟩ => true
  | _ => false

end Made

/-- What must have been done before a device is enrolled: the password was verified,
the account was looked up for a second factor, and the code was verified unless
each lookup answered that there is none, and none was stored. -/
def Checked (u : String) (past : List Made) : Prop :=
  (exists m, m ∈ past ∧ m.verifiesPassword u = true) ∧
    (exists m, m ∈ past ∧ m.looksUpTotp u = true) ∧
    forall m, m ∈ past -> m.looksUpTotp u = true ->
      (m.lacksTotp u = true ∧ m.secretStored u = false) ∨
        exists v, v ∈ past ∧ v.verifiesTotp u = true

instance (u : String) (past : List Made) : Decidable (Checked u past) :=
  inferInstanceAs (Decidable (_ ∧ _ ∧ _))

/-- Each call that enrols comes after the checks. -/
def FailsClosed (u : String) : List Made -> List Made -> Prop
  | _, [] => True
  | past, m :: rest =>
      (m.enrols = true -> Checked u past) ∧ FailsClosed u (m :: past) rest

instance decidableFailsClosed (u : String) (past : List Made) :
    (trace : List Made) -> Decidable (FailsClosed u past trace)
  | [] => isTrue trivial
  | m :: rest =>
      have := decidableFailsClosed u (m :: past) rest
      inferInstanceAs (Decidable ((m.enrols = true -> Checked u past) ∧ _))

def LookupAnswered (u : String) (trace : List Made) : Prop :=
  forall m, m ∈ trace -> m.looksUpTotp u = true -> m.answersLookup u = true

instance (u : String) (trace : List Made) : Decidable (LookupAnswered u trace) :=
  inferInstanceAs (Decidable (forall m, m ∈ trace -> _ -> _))

section

variable {env : Env} {world : Nat -> App × Ambient} {u : String} {past trace : List Made}

theorem failsClosed_of_silent (h : forall m, m ∈ trace -> m.enrols = false) :
    FailsClosed u past trace := by
  induction trace generalizing past with
  | nil => trivial
  | cons m rest ih =>
      refine ⟨fun hm => ?_, ih fun m' hm' => h m' (List.mem_cons_of_mem m hm')⟩
      rw [h m List.mem_cons_self] at hm
      cases hm

theorem Checked.mono {m : Made} (h : Checked u past) (hm : m.looksUpTotp u = false) :
    Checked u (m :: past) := by
  rcases h with ⟨⟨p, hp, hpassword⟩, ⟨l, hl, hlookup⟩, htotp⟩
  refine ⟨⟨p, List.mem_cons_of_mem m hp, hpassword⟩,
    ⟨l, List.mem_cons_of_mem m hl, hlookup⟩, ?_⟩
  intro l' hl' hlookup'
  rcases List.mem_cons.mp hl' with heq | hold
  · rw [heq, hm] at hlookup'
    cases hlookup'
  · rcases htotp l' hold hlookup' with hlacks | ⟨v, hv, hverified⟩
    · exact .inl hlacks
    · exact .inr ⟨v, List.mem_cons_of_mem m hv, hverified⟩

theorem failsClosed_of_checked (h : Checked u past)
    (htrace : forall m, m ∈ trace -> m.looksUpTotp u = false) : FailsClosed u past trace := by
  induction trace generalizing past with
  | nil => trivial
  | cons m rest ih =>
      refine ⟨fun _ => h, ih (h.mono (htrace m List.mem_cons_self)) ?_⟩
      exact fun m' hm' => htrace m' (List.mem_cons_of_mem m hm')

theorem lookupAnswered_of_none (h : forall m, m ∈ trace -> m.looksUpTotp u = false) :
    LookupAnswered u trace := by
  intro m hm hlookup
  rw [h m hm] at hlookup
  cases hlookup

theorem lookupAnswered_cons {m : Made} :
    LookupAnswered u (m :: trace) <->
      (m.looksUpTotp u = true -> m.answersLookup u = true) ∧ LookupAnswered u trace := by
  simp [LookupAnswered]

end

namespace Handler

/-!
## The parts of the credential path
-/

section

variable {env : Env} {world : Nat -> App × Ambient} {u ip : String} {c : ConnId}
  {past : List Made}

theorem forall_trace {p : Call -> Prop} {seen : List CallAnswer} {task : Handler Unit}
    (h : Program.Obeys (fun _ call => p call) seen task fun _ _ => True) (n : Nat) :
    forall m, m ∈ trace env world n task -> p m.answered.call := by
  induction task generalizing seen n with
  | done value =>
      intro m hm
      cases hm
  | invoke call next ih =>
      intro m hm
      rcases List.mem_cons.mp hm with heq | hrest
      · rw [heq]
        exact h.1
      · exact ih _ (h.2 _) (n + 1) m hrest

def looksElsewhere : Call -> Prop
  | .hasTotp _ => False
  | _ => True

def isReply : Call -> Prop
  | .broker (.send ..) | .recordFailure _ => True
  | _ => False

theorem looksUpTotp_eq_false {m : Made} (h : looksElsewhere m.answered.call) :
    m.looksUpTotp u = false := by
  unfold Made.looksUpTotp
  split
  · rename_i heq
    rw [heq] at h
    exact h.elim
  · rfl

theorem enrols_eq_false {m : Made} (h : isReply m.answered.call) : m.enrols = false := by
  unfold Made.enrols
  split <;> first
    | rfl
    | (rename_i heq; simp [heq, isReply] at h)

theorem looksElsewhere_of_isReply {call : Call} (h : isReply call) : looksElsewhere call := by
  cases call <;> trivial

theorem failsClosed_reply {task : Handler Unit}
    (h : Program.Obeys (fun _ call => isReply call) [] task fun _ _ => True) (n : Nat) :
    FailsClosed u past (trace env world n task) ∧ LookupAnswered u (trace env world n task) := by
  have hreplies : forall m, m ∈ trace env world n task -> isReply m.answered.call :=
    forall_trace h n
  exact ⟨failsClosed_of_silent fun m hm => enrols_eq_false (hreplies m hm),
    lookupAnswered_of_none fun m hm =>
      looksUpTotp_eq_false (looksElsewhere_of_isReply (hreplies m hm))⟩

theorem obeys_fail (error : String) : Program.Obeys (fun _ call => isReply call) []
    (act (.recordFailure u) >>= fun _ => sendAuthError c error) fun _ _ => True :=
  ⟨trivial, fun _ => ⟨trivial, fun _ => trivial⟩⟩

theorem obeys_sendAuthError (error : String) : Program.Obeys (fun _ call => isReply call) []
    (sendAuthError c error) fun _ _ => True :=
  ⟨trivial, fun _ => trivial⟩

theorem obeys_enrolDevice : Program.Obeys (fun _ call => looksElsewhere call) []
    (enrolDevice u c ip) fun _ _ => True := by
  refine ⟨trivial, fun _ => ⟨trivial, fun online => ?_⟩⟩
  cases online with
  | false => exact ⟨trivial, fun _ => trivial⟩
  | true =>
      refine ⟨trivial, fun registered => ?_⟩
      cases registered with
      | error e => exact ⟨trivial, fun _ => trivial⟩
      | ok deviceId => exact ⟨trivial, fun _ => ⟨trivial, fun _ => trivial⟩⟩

theorem failsClosed_enrolDevice (n : Nat) :
    FailsClosed u past (trace env world n (enrolDevice u c ip)) <-> Checked u past := by
  constructor
  · intro h
    exact h.1 rfl
  · intro h
    exact failsClosed_of_checked h fun m hm =>
      looksUpTotp_eq_false (forall_trace obeys_enrolDevice n m hm)

theorem lookupAnswered_enrolDevice (n : Nat) :
    LookupAnswered u (trace env world n (enrolDevice u c ip)) :=
  lookupAnswered_of_none fun m hm =>
    looksUpTotp_eq_false (forall_trace obeys_enrolDevice n m hm)

end

/-!
## The second factor
-/

section

variable {env : Env} {world : Nat -> App × Ambient} {u ip : String} {c : ConnId}
  {past : List Made}

def made (env : Env) (world : Nat -> App × Ambient) (n : Nat) (call : Call) : Made where
  app := (world n).1
  ambient := (world n).2
  answered := ⟨call, ((world n).1.exec env (world n).2 call).2⟩

theorem secretStored_of_lookup {n : Nat} {needed : Bool}
    (h : ((world n).1.exec env (world n).2 (.hasTotp u)).2 = .ok needed) :
    (made env world n (.hasTotp u)).secretStored u = needed ∧
      (made env world n (.hasTotp u)).answersLookup u = true := by
  simp only [App.exec, App.authQuery] at h
  by_cases hfault : (world n).2.dbFault = true
  · rw [if_pos hfault] at h
    cases h
  · rw [if_neg hfault] at h
    unfold Made.secretStored Made.answersLookup made
    simp only [Database.hasTotp, Database.getAccount] at h ⊢
    cases haccount : (world n).1.database.accounts.lookup u with
    | none =>
        rw [haccount] at h
        cases h
    | some account =>
        rw [haccount] at h
        exact ⟨Except.ok.inj h, by simp [hfault]⟩

theorem answersLookup_of_error {n : Nat} {e : AuthError}
    (h : ((world n).1.exec env (world n).2 (.hasTotp u)).2 = .error e) :
    (made env world n (.hasTotp u)).answersLookup u = false := by
  simp only [App.exec, App.authQuery] at h
  unfold Made.answersLookup made
  by_cases hfault : (world n).2.dbFault = true
  · simp [hfault]
  · rw [if_neg hfault] at h
    simp only [Database.hasTotp, Database.getAccount] at h
    cases haccount : (world n).1.database.accounts.lookup u with
    | none => simp
    | some account =>
        rw [haccount] at h
        cases h

theorem checked_without_code {m : Made} (hpassword : exists p, p ∈ past ∧
    p.verifiesPassword u = true) (hlookup : m.looksUpTotp u = true)
    (hnone : forall p, p ∈ past -> p.looksUpTotp u = false)
    (hcode : forall p, p ∈ m :: past -> p.verifiesTotp u = false) :
    Checked u (m :: past) <-> m.lacksTotp u = true ∧ m.secretStored u = false := by
  rcases hpassword with ⟨p, hp, hverified⟩
  constructor
  · intro h
    rcases h.2.2 m List.mem_cons_self hlookup with hlacks | ⟨v, hv, hverifies⟩
    · exact hlacks
    · rw [hcode v hv] at hverifies
      cases hverifies
  · intro hlacks
    refine ⟨⟨p, List.mem_cons_of_mem m hp, hverified⟩, ⟨m, List.mem_cons_self, hlookup⟩, ?_⟩
    intro l hl hlooks
    rcases List.mem_cons.mp hl with heq | hold
    · rw [heq]
      exact .inl hlacks
    · rw [hnone l hold] at hlooks
      cases hlooks

/-- After a lookup that asks for the second factor, only a verified code leads to
enrolment. -/
theorem failsClosed_code {m : Made} (hfine : m.looksUpTotp u = true -> m.answersLookup u = true)
    (hpassword : exists p, p ∈ past ∧ p.verifiesPassword u = true)
    (hlookup : m.looksUpTotp u = true) (code : String) (n : Nat) :
    FailsClosed u (m :: past) (trace env world n (do
        match <- ask (.verifyTotp u code) with
        | .ok _ => enrolDevice u c ip
        | .error _ =>
            act (.recordFailure u)
            sendAuthError c "invalid_totp")) <->
      (m.looksUpTotp u = true -> m.answersLookup u = true) ∧
        LookupAnswered u (trace env world n (do
          match <- ask (.verifyTotp u code) with
          | .ok _ => enrolDevice u c ip
          | .error _ =>
              act (.recordFailure u)
              sendAuthError c "invalid_totp")) := by
  let v := made env world n (.verifyTotp u code)
  have hsplit : trace env world n (do
        match <- ask (.verifyTotp u code) with
        | .ok _ => enrolDevice u c ip
        | .error _ =>
            act (.recordFailure u)
            sendAuthError c "invalid_totp") =
      v :: trace env world (n + 1)
        (match ((world n).1.exec env (world n).2 (.verifyTotp u code)).2 with
        | .ok _ => enrolDevice u c ip
        | .error _ => act (.recordFailure u) >>= fun _ => sendAuthError c "invalid_totp") := rfl
  rw [hsplit, lookupAnswered_cons]
  have hskip : forall rest, FailsClosed u (m :: past) (v :: rest) <->
      FailsClosed u (v :: m :: past) rest :=
    fun rest => and_iff_right fun h => (Bool.false_ne_true h).elim
  have hv : v.looksUpTotp u = true -> v.answersLookup u = true :=
    fun h => (Bool.false_ne_true h).elim
  rw [hskip]
  cases hreply : ((world n).1.exec env (world n).2 (.verifyTotp u code)).2 with
  | error e =>
      rcases failsClosed_reply (obeys_fail "invalid_totp") (n + 1) with ⟨hclosed, hanswered⟩
      exact iff_of_true hclosed ⟨hfine, hv, hanswered⟩
  | ok done =>
      have hverified : v.verifiesTotp u = true := by
        simp [v, made, Made.verifiesTotp, hreply]
      rcases hpassword with ⟨p, hp, hpassword⟩
      have hchecked : Checked u (v :: m :: past) := by
        refine ⟨⟨p, ?_, hpassword⟩, ⟨m, ?_, hlookup⟩, fun _ _ _ => .inr ⟨v, ?_, hverified⟩⟩
        · exact List.mem_cons_of_mem v (List.mem_cons_of_mem m hp)
        · exact List.mem_cons_of_mem v List.mem_cons_self
        · exact List.mem_cons_self
      exact iff_of_true ((failsClosed_enrolDevice (n + 1)).mpr hchecked)
        ⟨hfine, hv, lookupAnswered_enrolDevice (n + 1)⟩

theorem trace_ask_bind (call : Call) (next : call.Reply -> Handler Unit) (n : Nat) :
    trace env world n (ask call >>= next) =
      made env world n call :: trace env world (n + 1)
        (next ((world n).1.exec env (world n).2 call).2) := rfl

theorem failsClosed_authTotp (hpassword : exists p, p ∈ past ∧ p.verifiesPassword u = true)
    (hnone : forall p, p ∈ past -> p.looksUpTotp u = false ∧ p.verifiesTotp u = false)
    (totp : Option String) (n : Nat) :
    FailsClosed u past (trace env world n (authTotp u totp c ip)) <->
      LookupAnswered u (trace env world n (authTotp u totp c ip)) := by
  let m := made env world n (.hasTotp u)
  have hlookup : m.looksUpTotp u = true := decide_eq_true rfl
  have hcode : forall p, p ∈ m :: past -> p.verifiesTotp u = false := by
    intro p hp
    rcases List.mem_cons.mp hp with heq | hold
    · rw [heq]
      rfl
    · exact (hnone p hold).2
  have hchecked := checked_without_code hpassword hlookup (fun p hp => (hnone p hp).1) hcode
  unfold authTotp
  rw [trace_ask_bind, lookupAnswered_cons]
  have hskip : forall rest, FailsClosed u past (m :: rest) <-> FailsClosed u (m :: past) rest :=
    fun rest => and_iff_right fun h => (Bool.false_ne_true h).elim
  rw [hskip]
  cases hreply : ((world n).1.exec env (world n).2 (.hasTotp u)).2 with
  | error e =>
      -- The lookup failed and the handler goes on as if there were no second factor.
      have hlacks : m.lacksTotp u = false := by
        simp [m, made, Made.lacksTotp, hreply]
      rw [failsClosed_enrolDevice, hchecked, hlacks]
      refine iff_of_false (fun h => Bool.false_ne_true h.1) fun h => ?_
      have hanswered := h.1 hlookup
      rw [answersLookup_of_error hreply] at hanswered
      cases hanswered
  | ok needed =>
      rcases secretStored_of_lookup hreply with ⟨hsecret, hanswered⟩
      have hfine : m.looksUpTotp u = true -> m.answersLookup u = true := fun _ => hanswered
      cases needed with
      | false =>
          have hlacks : m.lacksTotp u = true := by
            simp [m, made, Made.lacksTotp, hreply]
          rw [failsClosed_enrolDevice, hchecked]
          exact iff_of_true ⟨hlacks, hsecret⟩ ⟨hfine, lookupAnswered_enrolDevice (n + 1)⟩
      | true =>
          cases totp with
          | none =>
              rcases failsClosed_reply (obeys_sendAuthError "totp_required") (n + 1) with
                ⟨hclosed, hanswered⟩
              exact iff_of_true hclosed ⟨hfine, hanswered⟩
          | some code => exact failsClosed_code hfine hpassword hlookup code (n + 1)

/-- A call that neither enrols nor looks up nor verifies a code changes nothing about
what has to be checked. -/
theorem failsClosed_cons {m : Made} {rest : List Made} (henrols : m.enrols = false)
    (hlookup : m.looksUpTotp u = false)
    (h : FailsClosed u (m :: past) rest <-> LookupAnswered u rest) :
    FailsClosed u past (m :: rest) <-> LookupAnswered u (m :: rest) := by
  rw [lookupAnswered_cons, hlookup]
  refine (and_iff_right fun hm => ?_).trans (h.trans (and_iff_right fun hm => ?_).symm)
  · rw [henrols] at hm
    cases hm
  · cases hm

theorem quiet_cons {m : Made} (hlookup : m.looksUpTotp u = false)
    (hverifies : m.verifiesTotp u = false)
    (hnone : forall p, p ∈ past -> p.looksUpTotp u = false ∧ p.verifiesTotp u = false) :
    forall p, p ∈ m :: past -> p.looksUpTotp u = false ∧ p.verifiesTotp u = false := by
  intro p hp
  rcases List.mem_cons.mp hp with heq | hold
  · rw [heq]
    exact ⟨hlookup, hverifies⟩
  · exact hnone p hold

theorem failsClosed_authPassword
    (hnone : forall p, p ∈ past -> p.looksUpTotp u = false ∧ p.verifiesTotp u = false)
    (passwordHash totp : Option String) (n : Nat) :
    FailsClosed u past (trace env world n (authPassword u passwordHash totp c ip)) <->
      LookupAnswered u (trace env world n (authPassword u passwordHash totp c ip)) := by
  cases passwordHash with
  | none =>
      rcases failsClosed_reply (obeys_sendAuthError "invalid_credentials") n with
        ⟨hclosed, hanswered⟩
      exact iff_of_true hclosed hanswered
  | some hash =>
      let m := made env world n (.verifyPassword u hash)
      unfold authPassword
      rw [trace_ask_bind]
      refine failsClosed_cons rfl rfl ?_
      cases hreply : ((world n).1.exec env (world n).2 (.verifyPassword u hash)).2 with
      | error e =>
          rcases failsClosed_reply (obeys_fail "invalid_credentials") (n + 1) with
            ⟨hclosed, hanswered⟩
          exact iff_of_true hclosed hanswered
      | ok done =>
          have hverified : m.verifiesPassword u = true := by
            simp [m, made, Made.verifiesPassword, hreply]
          exact failsClosed_authTotp ⟨m, List.mem_cons_self, hverified⟩
            (quiet_cons rfl rfl hnone) totp (n + 1)

theorem failsClosed_authDeviceToken
    (hnone : forall p, p ∈ past -> p.looksUpTotp u = false ∧ p.verifiesTotp u = false)
    (token : String) (passwordHash totp : Option String) (n : Nat)
    (hpath : forall m, m ∈ trace env world n
      (authDeviceToken u token passwordHash totp c ip) -> m.bypassesCredentials = false) :
    FailsClosed u past
        (trace env world n (authDeviceToken u token passwordHash totp c ip)) <->
      LookupAnswered u
        (trace env world n (authDeviceToken u token passwordHash totp c ip)) := by
  unfold authDeviceToken at hpath ⊢
  rw [trace_ask_bind] at hpath ⊢
  refine failsClosed_cons rfl rfl ?_
  cases hreply : ((world n).1.exec env (world n).2 (.validateJwt token)).2 with
  | error e => exact failsClosed_authPassword (quiet_cons rfl rfl hnone) passwordHash totp (n + 1)
  | ok claims =>
      rw [hreply] at hpath
      by_cases hsub : claims.sub = u
      · simp only [if_pos hsub] at hpath ⊢
        let r := made env world (n + 1) (.isDeviceRegistered claims.deviceId u)
        rw [trace_ask_bind] at hpath ⊢
        refine failsClosed_cons rfl rfl ?_
        cases hdevice : ((world (n + 1)).1.exec env (world (n + 1)).2
            (.isDeviceRegistered claims.deviceId u)).2 with
        | false =>
            exact failsClosed_authPassword (quiet_cons rfl rfl (quiet_cons rfl rfl hnone))
              passwordHash totp (n + 2)
        | true =>
            have hbypass : r.bypassesCredentials = true := by
              simp [r, made, Made.bypassesCredentials, hdevice]
            have hr := hpath r (List.mem_cons_of_mem _ List.mem_cons_self)
            rw [hbypass] at hr
            cases hr
      · simp only [if_neg hsub]
        exact failsClosed_authPassword (quiet_cons rfl rfl hnone) passwordHash totp (n + 1)

end

theorem trace_handleAuth (env : Env) (world : Nat -> App × Ambient) (n : Nat) (u : String)
    (passwordHash totp deviceToken desktopKey : Option String) (c : ConnId) (ip : String) :
    trace env world n (handleAuth u passwordHash totp deviceToken desktopKey c ip) =
      made env world n (.checkRateLimit u) :: trace env world (n + 1)
        (match ((world n).1.exec env (world n).2 (.checkRateLimit u)).2 with
        | some retryAfter =>
            send c (.text (.authResult false none none (some "rate_limited")
              (some (UInt64.ofNat retryAfter))))
        | none =>
            match desktopKey, deviceToken with
            | some key, _ => authDesktopKey u key c
            | none, some token => authDeviceToken u token passwordHash totp c ip
            | none, none => authPassword u passwordHash totp c ip) := rfl

/--
An attempt on the credential path enrols a device only after the checks, exactly
when its lookup for a second factor, if it comes to one, finds the account in a
database that does not fail.
-/
theorem enrolment_fails_closed (env : Env) (world : Nat -> App × Ambient) (u : String)
    (passwordHash totp deviceToken desktopKey : Option String) (c : ConnId) (ip : String)
    (hpath : forall m, m ∈ trace env world 0
      (handleAuth u passwordHash totp deviceToken desktopKey c ip) ->
        m.bypassesCredentials = false) :
    FailsClosed u []
        (trace env world 0 (handleAuth u passwordHash totp deviceToken desktopKey c ip)) <->
      LookupAnswered u
        (trace env world 0 (handleAuth u passwordHash totp deviceToken desktopKey c ip)) := by
  have hnone : forall p : Made, p ∈ [] -> p.looksUpTotp u = false ∧ p.verifiesTotp u = false :=
    fun p hp => by cases hp
  rw [trace_handleAuth] at hpath ⊢
  refine failsClosed_cons rfl rfl ?_
  cases hreply : ((world 0).1.exec env (world 0).2 (.checkRateLimit u)).2 with
  | some retryAfter =>
      have hreplies : Program.Obeys (fun _ call => isReply call) []
          (send c (.text (.authResult false none none (some "rate_limited")
            (some (UInt64.ofNat retryAfter))))) fun _ _ => True :=
        ⟨trivial, fun _ => trivial⟩
      rcases failsClosed_reply hreplies 1 with ⟨hclosed, hanswered⟩
      exact iff_of_true hclosed hanswered
  | none =>
      rw [hreply] at hpath
      cases desktopKey with
      | some key =>
          -- A desktop key is not the credential path.
          have hkey := hpath (made env world 1 (.verifyDesktopKey u key))
            (List.mem_cons_of_mem _ List.mem_cons_self)
          cases hkey
      | none =>
          cases deviceToken with
          | some token =>
              exact failsClosed_authDeviceToken (quiet_cons rfl rfl hnone) token passwordHash
                totp 1 fun m' hm' => hpath m' (List.mem_cons_of_mem _ hm')
          | none => exact failsClosed_authPassword (quiet_cons rfl rfl hnone) passwordHash totp 1

/-- An account with its desktop online, which may have a TOTP secret stored, and a
database that fails some of the calls. -/
def attempt (secret : Option Bytes) (fails : Nat -> Bool) (n : Nat) : App × Ambient :=
  ({ broker := Broker.new.registerDesktop "user" 9 none
     auth := Deployment.auth
     database :=
       { Deployment.database with
         accounts := Deployment.database.accounts.insert "user"
           { passwordHash := Deployment.storedHash, totpSecretEncrypted := secret,
             totpNonce := secret } }
     pushes := [] },
    { Deployment.ambient n with dbFault := fails n })

def attemptTrace (secret : Option Bytes) (fails : Nat -> Bool) : List Made :=
  trace Deployment.env (attempt secret fails) 0
    (handleAuth "user" (some Deployment.passwordHash) none none none 1 "192.0.2.1")

theorem enrolment_fails_closed_example :
    FailsClosed "user" [] (attemptTrace none fun _ => false) ∧
      (attemptTrace none fun _ => false).any Made.enrols = true :=
  ⟨(enrolment_fails_closed Deployment.env (attempt none fun _ => false) "user"
      (some Deployment.passwordHash) none none none 1 "192.0.2.1"
      (by decide +kernel)).mpr (by decide +kernel), by decide +kernel⟩

/-- The lookup of the second factor fails, and the device is enrolled without it. -/
theorem second_factor_skipped :
    (forall m, m ∈ attemptTrace (some [0]) (fun n => n = 2) -> m.bypassesCredentials = false) ∧
      ¬ FailsClosed "user" [] (attemptTrace (some [0]) fun n => n = 2) := by
  decide +kernel

end Handler

end CommandRelay
