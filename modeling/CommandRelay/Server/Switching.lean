import CommandRelay.Broker.Backpressure
import CommandRelay.Server.BrokerView
import CommandRelay.Server.RoleGating
import CommandRelay.Server.Routine

/-!
# Switching accounts on a socket

An authentication gives a socket that has a role another one, also of another account.
What the broker holds for the connection under the earlier role stays where it is, and so
do the resync tasks that a broadcast of the earlier account spawned for it.
-/

namespace CommandRelay

open Foundation

/-!
## What an authentication says
-/

namespace Call

def sends : Call -> Bool
  | broker (.send ..) => true
  | _ => false

end Call

def Unnamed (past : List CallAnswer) : Prop :=
  forall a, a ∈ past -> forall new, a.call ≠ .setRole new

namespace Handler

def SpeaksFirst (past : List CallAnswer) (task : Handler Unit) : Prop :=
  Program.Obeys (fun past call => call.sends = true -> Unnamed past) past task fun _ _ => True

section

variable {c : ConnId} {u ip : String} {past : List CallAnswer} {task : Handler Unit}

theorem unnamed_cons {call : Call} {r : call.Reply} (hpast : Unnamed past)
    (hcall : forall new, call ≠ .setRole new) : Unnamed (⟨call, r⟩ :: past) := by
  intro a ha new
  rcases List.mem_cons.mp ha with rfl | hold
  · exact hcall new
  · exact hpast a hold new

theorem speaks_ask {call : Call} {next : call.Reply -> Handler Unit} (hpast : Unnamed past)
    (hcall : forall new, call ≠ .setRole new)
    (hnext : forall r past, Unnamed past -> SpeaksFirst past (next r)) :
    SpeaksFirst past (ask call >>= next) :=
  ⟨fun _ => hpast, fun r => hnext r _ (unnamed_cons hpast hcall)⟩

theorem speaks_then {call : Call} (hpast : Unnamed past) (hcall : forall new, call ≠ .setRole new)
    (htask : forall past, Unnamed past -> SpeaksFirst past task) :
    SpeaksFirst past (act call >>= fun _ => task) :=
  ⟨fun _ => hpast, fun _ => htask _ (unnamed_cons hpast hcall)⟩

theorem speaks_act {call : Call} (hpast : Unnamed past) : SpeaksFirst past (act call) :=
  ⟨fun _ => hpast, fun _ => trivial⟩

theorem speaks_fail {error : String} (hpast : Unnamed past) :
    SpeaksFirst past (act (.recordFailure u) >>= fun _ => sendAuthError c error) :=
  speaks_then hpast (by simp) fun _ => speaks_act

theorem enrolDevice_speaks (hpast : Unnamed past) : SpeaksFirst past (enrolDevice u c ip) := by
  refine speaks_then hpast (by simp) fun past hpast => ?_
  refine speaks_ask hpast (by simp) fun online past hpast => ?_
  cases online with
  | false => exact speaks_act hpast
  | true =>
      refine speaks_ask hpast (by simp) fun registered past hpast => ?_
      cases registered with
      | error e => exact speaks_act hpast
      | ok deviceId => exact speaks_then hpast (by simp) fun _ => speaks_act

theorem authDesktopKey_speaks (key : String) (hpast : Unnamed past) :
    SpeaksFirst past (authDesktopKey u key c) := by
  refine speaks_ask hpast (by simp) fun valid past hpast => ?_
  rcases valid with e | valid
  · exact speaks_fail hpast
  · cases valid with
    | false => exact speaks_fail hpast
    | true =>
        refine speaks_then hpast (by simp) fun past hpast => ?_
        exact speaks_then hpast (by simp) fun past hpast => speaks_act hpast

theorem authTotp_speaks (totp : Option String) (hpast : Unnamed past) :
    SpeaksFirst past (authTotp u totp c ip) := by
  refine speaks_ask hpast (by simp) fun needed past hpast => ?_
  rcases needed with e | needed
  · exact enrolDevice_speaks hpast
  · cases needed with
    | false => exact enrolDevice_speaks hpast
    | true =>
        cases totp with
        | none => exact speaks_act hpast
        | some code =>
            refine speaks_ask hpast (by simp) fun verified past hpast => ?_
            cases verified with
            | error e => exact speaks_fail hpast
            | ok _ => exact enrolDevice_speaks hpast

theorem authPassword_speaks (passwordHash totp : Option String) (hpast : Unnamed past) :
    SpeaksFirst past (authPassword u passwordHash totp c ip) := by
  cases passwordHash with
  | none => exact speaks_act hpast
  | some hash =>
      refine speaks_ask hpast (by simp) fun verified past hpast => ?_
      cases verified with
      | error e => exact speaks_fail hpast
      | ok _ => exact authTotp_speaks totp hpast

theorem welcomeDevice_speaks {d : String} (hpast : Unnamed past) :
    SpeaksFirst past (welcomeDevice u d c ip) := by
  refine speaks_then hpast (by simp) fun past hpast => ?_
  refine speaks_then hpast (by simp) fun past hpast => ?_
  refine speaks_ask hpast (by simp) fun token past hpast => ?_
  cases token with
  | error e => exact speaks_act hpast
  | ok token =>
      refine speaks_then hpast (by simp) fun past hpast => ?_
      -- The role is set here, and the two calls that follow send nothing.
      exact ⟨fun _ => hpast, fun _ => ⟨nofun, fun _ => ⟨nofun, fun _ => trivial⟩⟩⟩

theorem handleAuth_speaks (passwordHash totp deviceToken desktopKey : Option String)
    (hpast : Unnamed past) :
    SpeaksFirst past (handleAuth u passwordHash totp deviceToken desktopKey c ip) := by
  refine speaks_ask hpast (by simp) fun locked past hpast => ?_
  cases locked with
  | some retryAfter => exact speaks_act hpast
  | none =>
      cases desktopKey with
      | some key => exact authDesktopKey_speaks key hpast
      | none =>
          cases deviceToken with
          | none => exact authPassword_speaks passwordHash totp hpast
          | some token =>
              refine speaks_ask hpast (by simp) fun valid past hpast => ?_
              cases valid with
              | error e => exact authPassword_speaks passwordHash totp hpast
              | ok claims =>
                  by_cases hsub : claims.sub = u
                  · simp only [if_pos hsub]
                    refine speaks_ask hpast (by simp) fun registered past hpast => ?_
                    cases registered with
                    | false => exact authPassword_speaks passwordHash totp hpast
                    | true => exact welcomeDevice_speaks hpast
                  · simp only [if_neg hsub]
                    exact authPassword_speaks passwordHash totp hpast

end

theorem obeys_auth {allowed : List CallAnswer -> Call -> Prop}
    (hinvalid : forall c, Program.Obeys allowed [] (sendAuthError c "invalid_username")
      fun _ _ => True)
    (hauth : forall u passwordHash totp deviceToken desktopKey c ip, Program.Obeys allowed []
      (handleAuth u passwordHash totp deviceToken desktopKey c ip) fun _ _ => True)
    (env : Env) (frame : Inbound) (role : ConnectionRole) (c : ConnId) (ip : String) :
    Program.Obeys (fun past call => frame.isAuth = true -> allowed past call) []
      (processWsMessage env frame role c ip) fun _ _ => True := by
  by_cases hframe : frame.isAuth = true
  · suffices h : Program.Obeys allowed [] (processWsMessage env frame role c ip)
        fun _ _ => True from h.mono fun _ _ h _ => h
    unfold Inbound.isAuth at hframe
    split at hframe
    · rename_i version u passwordHash totp deviceToken desktopKey hcontrol
      cases frame with
      | other => cases hcontrol
      | binary data => cases hcontrol
      | text size parsed =>
          unfold Inbound.control? at hcontrol
          unfold processWsMessage
          by_cases hsize : maxTextMessageSize < size
          · simp [hsize] at hcontrol
          · simp only [if_neg hsize] at hcontrol ⊢
            rw [hcontrol]
            simp only [handleControlMessage]
            by_cases hvalid : isValidUsername u = true
            · rw [if_pos hvalid]
              exact hauth u passwordHash totp deviceToken desktopKey c ip
            · rw [if_neg hvalid]
              exact hinvalid c
    · cases hframe
  · exact Program.obeys_of_forall fun _ _ h => absurd h hframe

end Handler

namespace Relay

section

variable {env : Env} {auth : AuthManager} {database : Database} {labels : List RelayLabel}
  {s s' : Relay} {l : RelayLabel} {c : ConnId} {frame : Inbound} {role : ConnectionRole}
  {past : List CallAnswer} {call : Call} {next : call.Reply -> Handler Unit}

theorem allowed_of_auth {allowed : List CallAnswer -> Call -> Prop}
    (hinvalid : forall c, Program.Obeys allowed [] (Handler.sendAuthError c "invalid_username")
      fun _ _ => True)
    (hauth : forall u passwordHash totp deviceToken desktopKey c ip, Program.Obeys allowed []
      (Handler.handleAuth u passwordHash totp deviceToken desktopKey c ip) fun _ _ => True)
    (hrun : Runs env auth database labels s)
    (hact : s.activity c = .handling frame role past (.invoke call next))
    (hframe : frame.isAuth = true) : allowed past call := by
  have hall : Program.Obeys (fun past call => frame.isAuth = true -> allowed past call) past
      (.invoke call next) fun _ _ => True :=
    @obeys_of_runs env auth database
      (fun _ frame _ past call => frame.isAuth = true -> allowed past call)
      (Handler.obeys_auth hinvalid hauth env) labels s hrun c frame role past _ hact
  exact hall.1 hframe

theorem credential_of_auth (hrun : Runs env auth database labels s)
    (hact : s.activity c = .handling frame role past (.invoke call next))
    (hframe : frame.isAuth = true) : call.isCredential = true :=
  allowed_of_auth (fun _ => Handler.makes_act rfl)
    (fun _ passwordHash totp deviceToken desktopKey _ _ =>
      Handler.handleAuth_credential passwordHash totp deviceToken desktopKey) hrun hact hframe

theorem unnamed_of_auth (hrun : Runs env auth database labels s)
    (hact : s.activity c = .handling frame role past (.invoke call next))
    (hframe : frame.isAuth = true) (hsends : call.sends = true) : Unnamed past := by
  have hnone : Unnamed [] := fun _ h => by cases h
  have hspeaks : call.sends = true -> Unnamed past :=
    allowed_of_auth (fun _ => Handler.speaks_act hnone)
      (fun _ passwordHash totp deviceToken desktopKey _ _ =>
        Handler.handleAuth_speaks passwordHash totp deviceToken desktopKey hnone)
      hrun hact hframe
  exact hspeaks hsends

theorem account_of_handling {task : Handler Unit} (hrun : Runs env auth database labels s)
    (hact : s.activity c = .handling frame role past task)
    (hframe : forall v, ¬ frame.Authenticates v) : (s.role c).account? = role.account? := by
  have hpermitted : forall a, a ∈ past -> exists older, Permitted c frame role older a.call :=
    fun a ha => permitted_of_past hrun hact ha
  rw [(sound_of_runs hrun).role hact]
  clear hact
  induction past with
  | nil => rfl
  | cons a rest ih =>
      have hrest := ih fun b hb => hpermitted b (List.mem_cons_of_mem a hb)
      rcases hpermitted a List.mem_cons_self with ⟨older, hcall⟩
      rw [roleOf_cons]
      generalize a.call = call at hcall
      cases call
      case setRole new =>
          cases hcall with
          | privately h => cases h
          | keyRole hauth hkey => exact absurd hauth (hframe _)
          | tokenRole hauth hdevice => exact absurd hauth (hframe _)
          | desktopRole hclient hregister hdone =>
              rw [hclient]
              rfl
      all_goals exact hrest

theorem eq_of_authenticates {u v : String} (h : frame.Authenticates u)
    (h' : frame.Authenticates v) : u = v := by
  rcases h with ⟨_, _, _, _, _, h⟩
  rcases h' with ⟨_, _, _, _, _, h'⟩
  rw [h] at h'
  cases h'
  rfl

theorem account_of_auth {task : Handler Unit} {u v d : String}
    (hrun : Runs env auth database labels s)
    (hact : s.activity c = .handling frame role past task) (hframe : frame.Authenticates u)
    (hset : ⟨.setRole (.client v d), ()⟩ ∈ past) : (s.role c).account? = some u := by
  have hpermitted : forall a, a ∈ past -> exists older, Permitted c frame role older a.call :=
    fun a ha => permitted_of_past hrun hact ha
  rw [(sound_of_runs hrun).role hact]
  clear hact
  induction past with
  | nil => cases hset
  | cons a rest ih =>
      have hrest : (forall new, a.call ≠ .setRole new) ->
          (roleOf role rest).account? = some u := by
        intro hcall
        refine ih ?_ fun b hb => hpermitted b (List.mem_cons_of_mem a hb)
        rcases List.mem_cons.mp hset with rfl | hold
        · exact absurd rfl (hcall _)
        · exact hold
      rcases hpermitted a List.mem_cons_self with ⟨older, hcall⟩
      rw [roleOf_cons]
      generalize a.call = call at hcall hrest
      cases call
      case setRole new =>
          cases hcall with
          | privately h => cases h
          | keyRole hauth hkey => exact congrArg some (eq_of_authenticates hauth hframe)
          | tokenRole hauth hdevice => exact congrArg some (eq_of_authenticates hauth hframe)
          | desktopRole hclient hregister hdone =>
              rcases hframe with ⟨_, _, _, _, _, hframe⟩
              rw [hframe] at hregister
              cases hregister
      all_goals exact hrest fun new h => by cases h

end

end Relay

/-!
## Accounts kept apart
-/

namespace Relay

section

variable (s : Relay)

/-- The connection acts for no other account than this one. -/
def ActsOnlyFor (c : ConnId) (u : String) : Prop :=
  forall v, (s.role c).account? = some v -> v = u

def pointsTo (c' : ConnId) (u : String) (c : ConnId) : Bool :=
  match s.activity c' with
  | .handling _ (.desktop v) past (.invoke _ _) => v ≠ u && past.any fun a => target? a = some c
  | _ => false

/-- No other account refers to the connection, and no handler of another account's desktop
has been pointed to it. -/
def freeFor (c : ConnId) (u : String) : Bool :=
  s.broker.accounts.noneElse (fun st => st.refersTo c) u &&
    s.log.all fun e => !s.pointsTo e.conn u c

/-- The frame was not received from the desktop of another account, or this one has no
desktop that would hear of it. -/
def staysIn (c : ConnId) (u : String) : Bool :=
  match s.activity c with
  | .handling _ (.desktop v) _ _ => v = u || !s.broker.isDesktopOnline u
  | _ => true

/-- A socket gets a role of an account only when it is free for the account, asks for its
approval only when it acts for no other, and no desktop turns to another account that has
a desktop. -/
def switchesCleanly : RelayLabel -> Bool
  | .resume c _ =>
      match s.upcoming c with
      | some (.setRole (.client u _)) => s.freeFor c u
      | some (.broker (.addPendingDevice u _)) =>
          (s.role c).account? = none || (s.role c).account? = some u
      | some (.broker (.sendToDesktop u _)) => s.staysIn c u
      | some (.broker (.registerClient u _ _)) => s.staysIn c u
      | _ => true
  | _ => true

def SwitchesCleanly (l : RelayLabel) : Prop :=
  s.switchesCleanly l = true

/-- An account only refers to connections that act for it or for none, and its desktop's
handlers are only pointed to such. -/
structure Separate : Prop where
  held : forall {u place c}, s.broker.Holds u place c -> s.ActsOnlyFor c u
  pointed : forall {c frame u past call next a tx},
    s.activity c = .handling frame (.desktop u) past (.invoke call next) -> a ∈ past ->
      target? a = some tx -> s.ActsOnlyFor tx u

end

instance (s : Relay) (l : RelayLabel) : Decidable (s.SwitchesCleanly l) :=
  inferInstanceAs (Decidable (_ = true))

section

variable {env : Env} {auth : AuthManager} {database : Database} {labels : List RelayLabel}
  {s s' : Relay} {l : RelayLabel} {c : ConnId} {frame : Inbound} {role : ConnectionRole}
  {past : List CallAnswer} {u : String}

theorem not_free_of_pointed {call : Call} {next : call.Reply -> Handler Unit} {a : CallAnswer}
    {tx : ConnId} {v : String} (hs : Sound s)
    (hact : s.activity c = .handling frame (.desktop u) past (.invoke call next)) (ha : a ∈ past)
    (htarget : target? a = some tx) (hfree : s.freeFor tx v = true) : v = u := by
  by_contra hne
  rcases hs.logged hact a ha with ⟨e, he, hconn, _⟩
  have hpoints : s.pointsTo e.conn v tx = true := by
    rw [hconn, pointsTo, hact]
    refine Bool.and_eq_true_iff.mpr ⟨decide_eq_true fun h => hne h.symm, ?_⟩
    exact List.any_eq_true.mpr ⟨a, ha, decide_eq_true htarget⟩
  have hnot := List.all_eq_true.mp (Bool.and_eq_true_iff.mp hfree).2 e he
  rw [hpoints] at hnot
  cases hnot

theorem not_free_of_held {place : Place} {v : String} (hheld : s.broker.Holds u place c)
    (hfree : s.freeFor c v = true) : v = u := by
  by_contra hne
  rcases hheld with ⟨st, hst, hholds⟩
  have hnot := Table.noneElse_iff.mp (Bool.and_eq_true_iff.mp hfree).1 u st hst
    fun h => hne h.symm
  exact AccountState.not_holds_of_refersTo hnot hholds

theorem account_step (hrun : Runs env auth database labels s) (hstep : Transition env s l s')
    (c : ConnId) : (s'.role c).account? = (s.role c).account? ∨ (s'.role c).account? = none ∨
      exists a u d, l = .resume c a ∧ s.upcoming c = some (.setRole (.client u d)) ∧
        (s'.role c).account? = some u := by
  rcases role_step (sound_of_runs hrun) hstep c with
    hsame | ⟨hnone, _⟩ | ⟨a, frame, role, past, next, hl, hact⟩
  · exact Or.inl (by rw [hsame])
  · exact Or.inr (Or.inl (by rw [hnone]; rfl))
  · have hpermitted := ((sound_of_runs hrun).behaves hact).1.permitted
    have hupcoming : s.upcoming c = some (.setRole (s'.role c)) := by rw [upcoming, hact]
    generalize s'.role c = new at hpermitted hupcoming
    cases hpermitted with
    | privately h => cases h
    | keyRole hauth hkey => exact Or.inr (Or.inr ⟨a, _, _, hl, hupcoming, rfl⟩)
    | tokenRole hauth hdevice => exact Or.inr (Or.inr ⟨a, _, _, hl, hupcoming, rfl⟩)
    | desktopRole hclient hregister hdone =>
        refine Or.inl ?_
        rw [account_of_handling hrun hact, hclient]
        · rfl
        · rintro v ⟨_, _, _, _, _, hauth⟩
          rw [hauth] at hregister
          cases hregister

theorem actsOnlyFor_of_account (h : (s.role c).account? = some u) : s.ActsOnlyFor c u := by
  intro v hv
  rw [h] at hv
  cases hv
  rfl

theorem actsOnlyFor_of_given (hrun : Runs env auth database labels s)
    (hstep : Transition env s l s') (h : s.ActsOnlyFor c u)
    (hgiven : forall a v d, l = .resume c a -> s.upcoming c = some (.setRole (.client v d)) ->
      v = u) : s'.ActsOnlyFor c u := by
  intro v hv
  rcases account_step hrun hstep c with hsame | hnone | ⟨a, w, d, hl, hupcoming, hset⟩
  · exact h v (hsame ▸ hv)
  · rw [hnone] at hv
    cases hv
  · rw [hset] at hv
    cases hv
    exact hgiven a v d hl hupcoming

theorem actsOnlyFor_step (hrun : Runs env auth database labels s)
    (hstep : Transition env s l s') (hclean : s.SwitchesCleanly l)
    (h : s.ActsOnlyFor c u) (hfree : forall v, s.freeFor c v = true -> v = u) :
    s'.ActsOnlyFor c u := by
  refine actsOnlyFor_of_given hrun hstep h ?_
  rintro a v d rfl hupcoming
  unfold SwitchesCleanly at hclean
  simp only [switchesCleanly, hupcoming] at hclean
  exact hfree v hclean

theorem actsOnlyFor_of_broker {a : Ambient} {op : BrokerCall} {next : op.Reply -> Handler Unit}
    {tx : ConnId} (hrun : Runs env auth database labels s)
    (hstep : Transition env s (.resume c a) s')
    (hact : s.activity c = .handling frame role past (.invoke (.broker op) next))
    (h : s.ActsOnlyFor tx u) : s'.ActsOnlyFor tx u := by
  intro v hv
  rcases account_step hrun hstep tx with hsame | hnone | ⟨a', w, d, hl, hupcoming, _⟩
  · exact h v (hsame ▸ hv)
  · rw [hnone] at hv
    cases hv
  · cases hl
    rw [upcoming, hact] at hupcoming
    cases hupcoming

theorem actsOnlyFor_of_insertion {a : Ambient} {op : BrokerCall}
    {next : op.Reply -> Handler Unit} {place : Place} {tx : ConnId}
    (hrun : Runs env auth database labels s) (hs : s.Separate)
    (hclean : s.SwitchesCleanly (.resume c a))
    (hact : s.activity c = .handling frame role past (.invoke (.broker op) next))
    (hu : op.subject? = some u) (hinsert : (place, tx) ∈ op.inserts) : s.ActsOnlyFor tx u := by
  have hother : (forall v, ¬ frame.Authenticates v) -> role.account? = some u ->
      s.ActsOnlyFor c u := fun hframe hrole =>
    actsOnlyFor_of_account ((account_of_handling hrun hact hframe).trans hrole)
  have hnot : forall {msg}, frame.control? = some msg -> msg.isRoutine = true ->
      forall v, ¬ frame.Authenticates v := by
    rintro msg hframe hmsg v ⟨_, _, _, _, _, hauth⟩
    rw [hframe] at hauth
    cases hauth
    cases hmsg
  cases ((sound_of_runs hrun).behaves hact).1.permitted.insertion hu hinsert with
  | desktop hrole hframe => exact hother (hnot hframe rfl) (congrArg _ hrole)
  | upload hrole =>
      refine hother (fun v hauth => ?_) hrole
      have hcredential :=
        credential_of_auth hrun hact (Inbound.isAuth_of_authenticates hauth)
      cases op <;> first | cases hcredential; done | simp [BrokerCall.inserts] at hinsert
  | download hrole hframe => exact hother (hnot hframe rfl) (congrArg _ hrole)
  | queue hrole hframe => exact hother (hnot hframe rfl) (congrArg _ hrole)
  | supervisor hrole hframe => exact hother (hnot hframe rfl) (congrArg _ hrole)
  | pending hframe =>
      cases op <;> simp [BrokerCall.inserts] at hinsert
      rename_i v pending
      cases hu
      unfold SwitchesCleanly at hclean
      simp only [switchesCleanly, upcoming, hact] at hclean
      rcases Bool.or_eq_true_iff.mp hclean with hnone | hsame
      · intro w hw
        rw [of_decide_eq_true hnone] at hw
        cases hw
      · exact actsOnlyFor_of_account (of_decide_eq_true hsame)
  | welcomed hframe hset => exact actsOnlyFor_of_account (account_of_auth hrun hact hframe hset)
  | approved hrole htarget =>
      rcases htarget with ⟨answered, hmem, htarget⟩
      subst hrole
      exact hs.pointed hact hmem htarget

theorem held_step (hrun : Runs env auth database labels s) (hs : s.Separate)
    (hstep : Transition env s l s') (hclean : s.SwitchesCleanly l) {place : Place}
    (h : s'.broker.Holds u place c) : s'.ActsOnlyFor c u := by
  have hold : forall {place}, s.broker.Holds u place c -> s'.ActsOnlyFor c u := fun hheld =>
    actsOnlyFor_step hrun hstep hclean (hs.held hheld) fun v hfree => not_free_of_held hheld hfree
  cases step_effect (sound_of_runs hrun) hstep with
  | none haccount hlog hclock halive =>
      exact hold ((Broker.holds_congr (haccount u) place c).mp h)
  | handler hclock hbusy hbroker hlog hnow =>
      rename_i c' a frame role past call next
      rw [hbroker] at h
      rcases broker_perform_cases env s c' a call with ⟨op, rfl⟩ | ⟨-, hsame⟩
      · rcases Broker.holds_exec h with hheld | ⟨hu, hinsert⟩ | ⟨_, _, hheld⟩
        · exact hold hheld
        · exact actsOnlyFor_of_broker hrun hstep hbusy
            (actsOnlyFor_of_insertion hrun hs hclean hbusy hu hinsert)
        · exact hold hheld
      · rw [hsame] at h
        exact hold h
  | cleanup hclock hbusy hcall hbroker hlog hnow =>
      rw [hbroker] at h
      rcases Broker.holds_exec h with hheld | ⟨hu, hinsert⟩ | ⟨_, _, hheld⟩
      · exact hold hheld
      · rw [hcall.inserts] at hinsert
        cases hinsert
      · exact hold hheld

theorem pointed_step {call : Call} {next : call.Reply -> Handler Unit} {answered : CallAnswer}
    {tx : ConnId} (hrun : Runs env auth database labels s) (hs : s.Separate)
    (hstep : Transition env s l s') (hclean : s.SwitchesCleanly l)
    (hact : s'.activity c = .handling frame (.desktop u) past (.invoke call next))
    (hmem : answered ∈ past) (htarget : target? answered = some tx) : s'.ActsOnlyFor tx u := by
  have hsound := sound_of_runs hrun
  have hold : forall {past call} {next : call.Reply -> Handler Unit},
      s.activity c = .handling frame (.desktop u) past (.invoke call next) ->
        answered ∈ past -> s'.ActsOnlyFor tx u := fun hbusy hmem =>
    actsOnlyFor_step hrun hstep hclean (hs.pointed hbusy hmem htarget)
      fun v hfree => not_free_of_pointed hsound hbusy hmem htarget hfree
  rcases handling_step hstep hact with
    hbusy | ⟨_, _, _, hpast, _⟩ | ⟨a, call', before, next', rfl, _, hbusy, hpast, _⟩
  · exact hold hbusy hmem
  · rw [hpast] at hmem
    cases hmem
  · rw [hpast] at hmem
    rcases List.mem_cons.mp hmem with rfl | hmem
    · -- The answer has just been given, by an operation of the desktop's own account.
      cases call'
      case broker op =>
          refine actsOnlyFor_of_broker hrun hstep hbusy ?_
          have hpermitted := (hsound.behaves hbusy).1.permitted
          cases hpermitted
          case desktopCall v hrole hcall =>
              cases hrole
              exact hs.held (Broker.held_of_target hcall htarget)
          case ownUpload v hrole hcall =>
              rw [target_ownUpload hcall] at htarget
              cases htarget
          all_goals contradiction
      all_goals cases htarget
    · exact hold hbusy hmem

theorem separate_step (hrun : Runs env auth database labels s) (hs : s.Separate)
    (hstep : Transition env s l s') (hclean : s.SwitchesCleanly l) : s'.Separate where
  held := fun h => held_step hrun hs hstep hclean h
  pointed := fun hact hmem htarget => pointed_step hrun hs hstep hclean hact hmem htarget

theorem separate_init (auth : AuthManager) (database : Database) :
    (init auth database).Separate where
  held := by
    rintro u place c ⟨st, hst, _⟩
    cases hst
  pointed := fun hact => by cases hact

theorem newlyEnqueued_registerClient {b : Broker} {tx : ConnId} {info : ClientInfo}
    (h : b.isDesktopOnline u = false) :
    newlyEnqueued b (b.registerClient u tx info).1 = [] := by
  have haway : (b.entry u).desktopTx = none := by
    unfold Broker.isDesktopOnline at h
    unfold Broker.entry
    cases hst : b.account u with
    | none => rfl
    | some st => simpa [hst] using h
  refine newlyEnqueued_of_append ?_
  unfold Broker.registerClient
  by_cases hmem : tx ∈ (b.entry u).clientTxs
  · simp [hmem, Broker.replayDesktopStatus, haway, Broker.put]
  · by_cases hfull : maxClients ≤ (b.entry u).clients.length
    · simp [hmem, hfull, Broker.put]
    · simp [hmem, hfull, Broker.replayDesktopStatus, haway, Broker.put]

theorem online_of_held {b : Broker} {tx : ConnId} (h : b.Holds u .desktop tx) :
    b.isDesktopOnline u = true := by
  rcases h with ⟨st, hst, hdesktop⟩
  have hdesktop : st.desktopTx = some tx := hdesktop
  simp [Broker.isDesktopOnline, hst, hdesktop]

theorem actsOnlyFor_of_reached {a : Ambient} {op : BrokerCall} {next : op.Reply -> Handler Unit}
    {tx : ConnId} (hrun : Runs env auth database labels s) (hs : s.Separate)
    (hclean : s.SwitchesCleanly (.resume c a))
    (hact : s.activity c = .handling frame (.desktop u) past (.invoke (.broker op) next))
    (hreach : op.Reaches s.broker tx)
    (hsent : newlyEnqueued s.broker (s.broker.exec a.now op).1 ≠ []) : s.ActsOnlyFor tx u := by
  have hpermitted := ((sound_of_runs hrun).behaves hact).1.permitted
  by_cases hauth : exists v, frame.Authenticates v
  · rcases hauth with ⟨v, hauth⟩
    have hisAuth := Inbound.isAuth_of_authenticates hauth
    have hcredential := credential_of_auth hrun hact hisAuth
    unfold SwitchesCleanly at hclean
    cases hpermitted
    case privately hcall => cases hcall
    case reply msg =>
        cases hreach
        refine actsOnlyFor_of_account ?_
        rw [(sound_of_runs hrun).role hact, roleOf_eq (unnamed_of_auth hrun hact hisAuth rfl)]
        rfl
    case tokenClient w info hframe hset =>
        cases hreach
        simp only [switchesCleanly, upcoming, hact, staysIn] at hclean
        rcases Bool.or_eq_true_iff.mp hclean with hsame | haway
        · cases of_decide_eq_true hsame
          exact actsOnlyFor_of_account (account_of_auth hrun hact hframe hset)
        · exact absurd (newlyEnqueued_registerClient (by simpa using haway)) hsent
    case announce w d name ip hframe =>
        simp only [switchesCleanly, upcoming, hact, staysIn] at hclean
        rcases Bool.or_eq_true_iff.mp hclean with hsame | haway
        · cases of_decide_eq_true hsame
          exact hs.held hreach
        · rw [online_of_held hreach] at haway
          cases haway
    case ownUpload w hrole hcall => exact absurd hreach (not_reaches_ownUpload hcall)
    case desktopCall w hrole hcall =>
        cases op <;> first
          | exact (hreach : False).elim
          | cases hcredential; done
          | cases hcall
    case route w tx' msg hrole htarget =>
        cases hreach
        rcases htarget with ⟨answered, hmem, htarget⟩
        exact hs.pointed hact hmem htarget
    case approve w tx' info hrole htarget =>
        cases hreach
        rcases htarget with ⟨answered, hmem, htarget⟩
        exact hs.pointed hact hmem htarget
    all_goals first
      | exact (hreach : False).elim
      | contradiction
  · rcases hpermitted.desktop_reaches (fun v h => hauth ⟨v, h⟩) hreach with
      rfl | hclient | hheld | ⟨answered, hmem, htarget⟩
    · exact actsOnlyFor_of_account (account_of_handling hrun hact fun v h => hauth ⟨v, h⟩)
    · exact hs.held hclient
    · exact hs.held hheld
    · exact hs.pointed hact hmem htarget

/-- What a step of a desktop's handler enqueues goes to connections that act for no other
account. -/
theorem actsOnlyFor_of_resume {a : Ambient} {task : Handler Unit} {tx : ConnId} {msg : WsMessage}
    (hrun : Runs env auth database labels s) (hs : s.Separate)
    (hclean : s.SwitchesCleanly (.resume c a))
    (hact : s.activity c = .handling frame (.desktop u) past task)
    (hstep : step env s (.resume c a) = some s')
    (hmsg : (tx, msg) ∈ newlyEnqueued s.broker s'.broker) : s'.ActsOnlyFor tx u := by
  have htransition := step_transition hstep
  cases step_effect (sound_of_runs hrun) htransition with
  | none haccount hlog hclock halive => exact absurd hlog (resume_logs hstep)
  | handler hclock hbusy hbroker hlog hnow =>
      rename_i frame' role past' call next
      rw [hact] at hbusy
      cases hbusy
      rw [hbroker] at hmsg
      rcases broker_perform_cases env s c a call with ⟨op, rfl⟩ | ⟨-, hsame⟩
      · rcases Broker.enqueues_exec s.broker a.now op with ⟨new, hnew, hreach⟩
        have hsent : newlyEnqueued s.broker (s.broker.exec a.now op).1 = new :=
          newlyEnqueued_of_append hnew
        have hmem : (tx, msg) ∈ newlyEnqueued s.broker (s.broker.exec a.now op).1 := hmsg
        refine actsOnlyFor_of_broker hrun htransition hact ?_
        refine actsOnlyFor_of_reached hrun hs hclean hact (hreach (tx, msg) (hsent ▸ hmem)) ?_
        exact List.ne_nil_of_mem hmem
      · rw [hsame] at hmsg
        rw [newlyEnqueued, Nat.sub_self, List.take_zero] at hmsg
        cases hmsg
  | cleanup hclock hbusy hcall hbroker hlog hnow =>
      rw [hact] at hbusy
      cases hbusy

/-- A step runs a resync task, or it spawns some for clients of the account it broadcasts
to. -/
theorem nudges_step (hs : Sound s) (hstep : step env s l = some s') :
    (exists c now, l = .nudge c now ∧
      s' = { s.setBroker (s.broker.runNudge c now) with clock := now }) ∨
      (forall c now, l ≠ .nudge c now) ∧ exists new, s'.broker.nudges = s.broker.nudges ++ new ∧
        forall tx, tx ∈ new -> exists c a v msg, l = .resume c a ∧
          s.upcoming c = some (.broker (.broadcastToClients v msg)) ∧
            s.broker.Holds v .clients tx := by
  have hsame : (forall c now, l ≠ .nudge c now) -> s'.broker.nudges = s.broker.nudges ->
      (forall c now, l ≠ .nudge c now) ∧ exists new, s'.broker.nudges = s.broker.nudges ++ new ∧
        forall tx, tx ∈ new -> exists c a v msg, l = .resume c a ∧
          s.upcoming c = some (.broker (.broadcastToClients v msg)) ∧
            s.broker.Holds v .clients tx := fun hl h =>
    ⟨hl, [], by rw [h, List.append_nil], fun tx hmem => by cases hmem⟩
  cases step_taken hstep with
  | connect hvacant => exact .inr (hsame (by simp) (Broker.nudges_send _ _ _))
  | resume hclock hbusy =>
      rename_i c a frame role past call next
      rcases broker_perform_cases env s c a call with ⟨op, rfl⟩ | ⟨-, hkept⟩
      · rcases Broker.nudges_exec s.broker a.now op with ⟨new, hnew, hmem⟩
        refine .inr ⟨by simp, new, hnew, fun tx htx => ?_⟩
        rcases hmem tx htx with ⟨v, msg, rfl, hheld⟩
        exact ⟨c, a, v, msg, rfl, by rw [upcoming, hbusy], hheld⟩
      · refine .inr (hsame (by simp) ?_)
        show (s.perform env c a call).broker.nudges = s.broker.nudges
        rw [hkept]
  | panic hclock hbusy => exact .inr (hsame (by simp) rfl)
  | clean hclock hbusy =>
      rename_i c a call next
      rcases closing_call (hs.closing hbusy) with ⟨op, rfl, hcall⟩
      rcases Broker.nudges_exec s.broker a.now op with ⟨new, hnew, hmem⟩
      refine .inr ⟨by simp, new, hnew, fun tx htx => ?_⟩
      rcases hmem tx htx with ⟨v, msg, rfl, hheld⟩
      generalize s.role c = role at hcall
      cases hcall
  | ping hidle => exact .inr (hsame (by simp) (Broker.nudges_send _ _ _))
  | nudge hclock hwaits => exact .inl ⟨_, _, rfl, rfl⟩
  | shutdown =>
      refine .inr (hsame (by simp) ?_)
      show s.broker.broadcastShutdown.nudges = _
      rw [s.broker.broadcastShutdown_eq_sendAll]
      exact Broker.nudges_relation.sendAll _ _ _
  | _ => exact .inr (hsame (by simp) rfl)

end

end Relay

/-!
## Resync tasks
-/

/-- A relay, and the resync tasks that wait, oldest first: the connection of each, and the
account whose broadcast spawned it. -/
structure ResyncWatch where
  relay : Relay
  waiting : List (ConnId × String)

namespace ResyncWatch

def init (auth : AuthManager) (database : Database) : ResyncWatch where
  relay := Relay.init auth database
  waiting := []

section

variable (w : ResyncWatch)

/-- The tasks that wait after a step: a broadcast spawns some for its account, and the oldest
one of a connection runs. -/
def waitingAfter (l : RelayLabel) (s' : Relay) : List (ConnId × String) :=
  match l with
  | .resume c _ =>
      match w.relay.upcoming c with
      | some (.broker (.broadcastToClients u _)) =>
          w.waiting ++ (s'.broker.nudges.drop w.relay.broker.nudges.length).map fun tx => (tx, u)
      | _ => w.waiting
  | .nudge c _ => w.waiting.eraseP fun task => task.1 = c
  | _ => w.waiting

/-- A socket gets a role of an account only when no resync task of another account waits for
it. -/
def hearsOut (l : RelayLabel) : Bool :=
  match l with
  | .resume c _ =>
      match w.relay.upcoming c with
      | some (.setRole (.client u _)) => w.waiting.all fun task => task.1 ≠ c || task.2 = u
      | _ => true
  | _ => true

def SwitchesCleanly (l : RelayLabel) : Prop :=
  w.relay.SwitchesCleanly l ∧ w.hearsOut l = true

instance (l : RelayLabel) : Decidable (w.SwitchesCleanly l) :=
  inferInstanceAs (Decidable (_ ∧ _))

/-- The step is one of a handler of the account's desktop, or of a resync task that its
broadcast spawned. -/
def SpeaksFor (u : String) : RelayLabel -> Prop
  | .resume c _ =>
      exists frame past task, w.relay.activity c = .handling frame (.desktop u) past task
  | .nudge c _ => (c, u) ∈ w.waiting
  | _ => False

/-- The accounts are kept apart, and the tasks that wait are those of the relay, each for a
connection that acts for no other account. -/
structure Separate : Prop where
  relay : w.relay.Separate
  waiting : w.waiting.map Prod.fst = w.relay.broker.nudges
  spawned : forall {c u}, (c, u) ∈ w.waiting -> w.relay.ActsOnlyFor c u

end

def step (env : Env) (w : ResyncWatch) (l : RelayLabel) : Option ResyncWatch :=
  (w.relay.step env l).map fun s' => { relay := s', waiting := w.waitingAfter l s' }

def Runs (env : Env) (auth : AuthManager) (database : Database) (labels : List RelayLabel)
    (w : ResyncWatch) : Prop :=
  follow (step env) (init auth database) labels = some w

section

variable {env : Env} {auth : AuthManager} {database : Database} {labels : List RelayLabel}
  {w w' : ResyncWatch} {l : RelayLabel} {c tx : ConnId} {u : String} {msg : WsMessage}

theorem relay_step (hstep : step env w l = some w') : w.relay.step env l = some w'.relay := by
  rcases Option.map_eq_some_iff.mp hstep with ⟨s', hnext, rfl⟩
  exact hnext

theorem relay_runs (hrun : Runs env auth database labels w) :
    Relay.Runs env auth database labels w.relay :=
  follow_labels_induction (motive := fun ls w => Relay.Runs env auth database ls w.relay)
    (show Relay.Runs env auth database [] (Relay.init auth database) from rfl)
    (fun _ _ _ _ _ h hnext => Relay.runs_snoc h (relay_step hnext)) hrun

theorem exists_runs {s : Relay} (hrun : Relay.Runs env auth database labels s) :
    exists w, Runs env auth database labels w ∧ w.relay = s :=
  follow_labels_induction
    (motive := fun ls s => exists w, Runs env auth database ls w ∧ w.relay = s)
    ⟨init auth database, rfl, rfl⟩
    (fun ls s l s' _ h hnext => by
      rcases h with ⟨w, hw, rfl⟩
      refine ⟨{ relay := s', waiting := w.waitingAfter l s' }, ?_, rfl⟩
      refine follow_append_eq_some.mpr ⟨w, hw, follow_cons_eq_some.mpr ⟨_, ?_, rfl⟩⟩
      rw [step, hnext]
      rfl) hrun

theorem map_eraseP (tasks : List (ConnId × String)) (c : ConnId) :
    (tasks.eraseP fun task => task.1 = c).map Prod.fst = (tasks.map Prod.fst).erase c := by
  induction tasks with
  | nil => rfl
  | cons task rest ih =>
      by_cases hc : task.1 = c
      · simp [hc]
      · simp [hc, ih]

/-- A task that waits for a connection is one of an account that the connection may act for
after a clean step. -/
theorem spawned_kept {s' : Relay} (hrun : Runs env auth database labels w) (hs : w.Separate)
    (hclean : w.SwitchesCleanly l) (hstep : w.relay.step env l = some s')
    (hmem : (c, u) ∈ w.waiting) : s'.ActsOnlyFor c u := by
  refine Relay.actsOnlyFor_of_given (relay_runs hrun) (Relay.step_transition hstep)
    (hs.spawned hmem) ?_
  rintro a v d rfl hupcoming
  have hout := hclean.2
  simp only [hearsOut, hupcoming] at hout
  have htask := List.all_eq_true.mp hout (c, u) hmem
  exact (show u = v by simpa using htask).symm

/-- The tasks that wait stay, or the broadcast of an account adds one for each connection it
spawned one for. -/
theorem waitingAfter_cases {s' : Relay} {new : List ConnId}
    (hother : forall c now, l ≠ .nudge c now)
    (hnew : s'.broker.nudges = w.relay.broker.nudges ++ new)
    (hspawned : forall tx, tx ∈ new -> exists c a v msg, l = .resume c a ∧
      w.relay.upcoming c = some (.broker (.broadcastToClients v msg)) ∧
        w.relay.broker.Holds v .clients tx) :
    w.waitingAfter l s' = w.waiting ∧ new = [] ∨ exists c a v msg, l = .resume c a ∧
      w.relay.upcoming c = some (.broker (.broadcastToClients v msg)) ∧
        w.waitingAfter l s' = w.waiting ++ new.map (fun tx => (tx, v)) ∧
          forall tx, tx ∈ new -> w.relay.broker.Holds v .clients tx := by
  by_cases hbroadcast : exists c a v msg, l = .resume c a ∧
      w.relay.upcoming c = some (.broker (.broadcastToClients v msg))
  · right
    rcases hbroadcast with ⟨c, a, v, msg, rfl, hupcoming⟩
    refine ⟨c, a, v, msg, rfl, hupcoming, ?_, fun tx htx => ?_⟩
    · simp only [waitingAfter, hupcoming]
      rw [hnew, List.drop_left]
    · rcases hspawned tx htx with ⟨_, _, _, _, hl, hcall, hheld⟩
      cases hl
      rw [hupcoming] at hcall
      cases hcall
      exact hheld
  · left
    constructor
    · cases l with
      | resume c a =>
          simp only [waitingAfter]
          split
          · rename_i v msg hupcoming
            exact absurd ⟨c, a, v, msg, rfl, hupcoming⟩ hbroadcast
          · rfl
      | nudge c now => exact absurd rfl (hother c now)
      | _ => rfl
    · refine List.eq_nil_iff_forall_not_mem.mpr fun tx htx => hbroadcast ?_
      rcases hspawned tx htx with ⟨c, a, v, msg, hl, hupcoming, _⟩
      exact ⟨c, a, v, msg, hl, hupcoming⟩

theorem separate_step (hrun : Runs env auth database labels w) (hs : w.Separate)
    (hclean : w.SwitchesCleanly l) (hstep : step env w l = some w') : w'.Separate := by
  rcases Option.map_eq_some_iff.mp hstep with ⟨s', hnext, rfl⟩
  have hrelay := relay_runs hrun
  have htransition := Relay.step_transition hnext
  have hkept : forall {c u}, (c, u) ∈ w.waiting -> s'.ActsOnlyFor c u := fun hmem =>
    spawned_kept hrun hs hclean hnext hmem
  have hseparate := Relay.separate_step hrelay hs.relay htransition hclean.1
  rcases Relay.nudges_step (Relay.sound_of_runs hrelay) hnext with
    ⟨c, now, rfl, rfl⟩ | ⟨hother, new, hnew, hspawned⟩
  · refine ⟨hseparate, ?_, fun hmem => hkept (List.mem_of_mem_eraseP hmem)⟩
    show (w.waiting.eraseP _).map Prod.fst = (w.relay.broker.runNudge c now).nudges
    rw [Broker.nudges_runNudge, ← hs.waiting]
    exact map_eraseP w.waiting c
  · rcases waitingAfter_cases hother hnew hspawned with
      ⟨hsame, hnone⟩ | ⟨c', a, v, sent, rfl, hupcoming, hmore, hheld⟩
    · refine ⟨hseparate, ?_, fun hmem => hkept (hsame ▸ hmem)⟩
      show (w.waitingAfter l s').map Prod.fst = s'.broker.nudges
      rw [hsame, hnew, hnone, List.append_nil, hs.waiting]
    · refine ⟨hseparate, ?_, fun {c u} hmem => ?_⟩
      · show (w.waitingAfter (.resume c' a) s').map Prod.fst = s'.broker.nudges
        rw [hmore, hnew, List.map_append, hs.waiting, List.map_map]
        exact congrArg _ (List.map_id new)
      · have hin : (c, u) ∈ w.waiting ++ new.map fun tx => (tx, v) := hmore ▸ hmem
        rcases List.mem_append.mp hin with hold | hfresh
        · exact hkept hold
        · rcases List.mem_map.mp hfresh with ⟨tx, htx, heq⟩
          cases heq
          -- The task was spawned for a client of the account, by a call that gives no role.
          refine Relay.actsOnlyFor_of_given hrelay htransition (hs.relay.held (hheld c htx)) ?_
          intro a' v' d hl hset
          cases hl
          rw [hupcoming] at hset
          cases hset

theorem separate_of_runs (hrun : Runs env auth database labels w)
    (hok : Admits (step env) SwitchesCleanly (init auth database) labels) : w.Separate := by
  refine (follow_invariant (motive := fun w =>
    (exists labels, Runs env auth database labels w) ∧ w.Separate) ?_
    ⟨⟨[], rfl⟩, Relay.separate_init auth database, rfl, fun h => by cases h⟩ hrun hok).2
  rintro w l w' ⟨⟨before, hbefore⟩, hs⟩ hclean hstep
  exact ⟨⟨before ++ [l], follow_append_eq_some.mpr
    ⟨w, hbefore, follow_cons_eq_some.mpr ⟨w', hstep, rfl⟩⟩⟩, separate_step hbefore hs hclean hstep⟩

/-- In every run whose sockets switch accounts cleanly, what the desktop of an account says,
in a handler or through a resync task, goes to connections that have no role or act for the
account. -/
theorem output_stays (hrun : Runs env auth database labels w)
    (hok : Admits (step env) SwitchesCleanly (init auth database) (labels ++ [l]))
    (hstep : step env w l = some w') (hspeaks : w.SpeaksFor u l)
    (hmsg : (tx, msg) ∈ Relay.newlyEnqueued w.relay.broker w'.relay.broker) :
    w'.relay.ActsOnlyFor tx u := by
  rcases (admits_append hrun).mp hok with ⟨hbefore, hclean, _⟩
  have hs := separate_of_runs hrun hbefore
  have hnext := relay_step hstep
  cases l with
  | resume c a =>
      rcases hspeaks with ⟨frame, past, task, hact⟩
      exact Relay.actsOnlyFor_of_resume (relay_runs hrun) hs.relay hclean.1 hact hnext hmsg
  | nudge c now =>
      rcases Relay.nudges_step (Relay.sound_of_runs (relay_runs hrun)) hnext with
        ⟨c', now', hl, hrelay⟩ | ⟨hother, _⟩
      · cases hl
        rw [hrelay] at hmsg
        rcases Broker.enqueues_runNudge w.relay.broker c now with ⟨new, hnew, hreach⟩
        have hmem : (tx, msg) ∈ Relay.newlyEnqueued w.relay.broker
            (w.relay.broker.runNudge c now) := hmsg
        rw [Relay.newlyEnqueued_of_append hnew] at hmem
        rw [show tx = c from hreach _ hmem]
        exact spawned_kept hrun hs hclean hnext hspeaks
      · exact absurd rfl (hother c now)
  | _ => exact hspeaks.elim

end

end ResyncWatch

namespace Relay

def sessionClosedFrame : Inbound :=
  Deployment.message (.sessionClosed "s")

/-- What the next call of a connection's handler enqueues to another connection, and the
account that this one has then. -/
def tells (c tx : ConnId) (s : Relay) : Option (Bool × Option String) :=
  (step Deployment.env s (.resume c (Deployment.ambient 0))).map fun s' =>
    ((newlyEnqueued s.broker s'.broker).any fun m => m.1 = tx, (s'.role tx).account?)

theorem told_of_tells {c tx : ConnId} {s : Relay} {account : Option String}
    (h : tells c tx s = some (true, account)) :
    exists s' msg, step Deployment.env s (.resume c (Deployment.ambient 0)) = some s' ∧
      (tx, msg) ∈ newlyEnqueued s.broker s'.broker ∧ (s'.role tx).account? = account := by
  rcases Option.map_eq_some_iff.mp h with ⟨s', hstep, hfacts⟩
  simp only [Prod.mk.injEq] at hfacts
  rcases List.any_eq_true.mp hfacts.1 with ⟨⟨tx', msg⟩, hmem, htx⟩
  cases of_decide_eq_true htx
  exact ⟨s', msg, hstep, hmem, hfacts.2⟩

theorem handling_of_receive {frame : Inbound} {c : ConnId} {u : String} {s t : Relay} {env : Env}
    (hstep : step env t (.receive c frame) = some s) (hrole : t.role c = .desktop u) :
    exists task, s.activity c = .handling frame (.desktop u) [] task := by
  cases hidle : t.activity c with
  | idle =>
      simp only [step, hidle, Option.some.injEq] at hstep
      rw [← hstep, activity_setActivity_same, ← hrole]
      exact ⟨_, rfl⟩
  | _ => simp [step, hidle] at hstep

theorem output_stays_example : exists s s' msg,
    Runs Deployment.env Deployment.auth Deployment.database
      (deskAndPhone ++ [.receive 1 sessionClosedFrame]) s ∧
      step Deployment.env s (.resume 1 (Deployment.ambient 0)) = some s' ∧
      (2, msg) ∈ newlyEnqueued s.broker s'.broker ∧ s'.ActsOnlyFor 2 "user" := by
  have hend : (Deployment.after deskAndPhone).map (fun t => (t.role 1,
      (step Deployment.env t (.receive 1 sessionClosedFrame)).bind (tells 1 2))) =
      some (.desktop "user", some (true, some "user")) := by decide +kernel
  rcases Option.map_eq_some_iff.mp hend with ⟨t, ht, hfacts⟩
  simp only [Prod.mk.injEq] at hfacts
  rcases Option.bind_eq_some_iff.mp hfacts.2 with ⟨s, hreceive, htells⟩
  rcases told_of_tells htells with ⟨s', msg, hstep, hmem, _⟩
  rcases handling_of_receive hreceive hfacts.1 with ⟨task, hact⟩
  have hrun := runs_snoc ht hreceive
  rcases ResyncWatch.exists_runs hrun with ⟨w, hw, rfl⟩
  have hwatched : ResyncWatch.step Deployment.env w (.resume 1 (Deployment.ambient 0)) =
      some ⟨s', w.waitingAfter (.resume 1 (Deployment.ambient 0)) s'⟩ := by
    rw [ResyncWatch.step, hstep]
    rfl
  exact ⟨w.relay, s', msg, hrun, hstep, hmem,
    ResyncWatch.output_stays hw (by decide +kernel) hwatched ⟨_, _, task, hact⟩ hmem⟩

/-- The phone still hears of the account that it has left. -/
theorem output_leaked : exists s s' task msg,
    Runs Deployment.env Deployment.auth Deployment.database
      (deskAndPhone ++ phoneSwitches ++ [.receive 1 sessionClosedFrame]) s ∧
      s.activity 1 = .handling sessionClosedFrame (.desktop "user") [] task ∧
      step Deployment.env s (.resume 1 (Deployment.ambient 0)) = some s' ∧
      (2, msg) ∈ newlyEnqueued s.broker s'.broker ∧
      (s'.role 2).account? = some "guest" := by
  have hend : (Deployment.after (deskAndPhone ++ phoneSwitches)).map (fun t => (t.role 1,
      (step Deployment.env t (.receive 1 sessionClosedFrame)).bind (tells 1 2))) =
      some (.desktop "user", some (true, some "guest")) := by decide +kernel
  rcases Option.map_eq_some_iff.mp hend with ⟨t, ht, hfacts⟩
  simp only [Prod.mk.injEq] at hfacts
  rcases Option.bind_eq_some_iff.mp hfacts.2 with ⟨s, hreceive, htells⟩
  rcases told_of_tells htells with ⟨s', msg, hstep, hmem, haccount⟩
  rcases handling_of_receive hreceive hfacts.1 with ⟨task, hact⟩
  exact ⟨s, s', task, msg, runs_snoc ht hreceive, hact, hstep, hmem, haccount⟩

end Relay

end CommandRelay
