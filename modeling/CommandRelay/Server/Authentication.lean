import CommandRelay.Server.DesktopKey
import CommandRelay.Server.Credentials

/-!
# Authentication is sound

Who gets a role, and on what a token is issued.  A pending device is traced back to
the handler that enrolled it, over the run.
-/

namespace CommandRelay

open Foundation

/-!
## Bearer tokens
-/

inductive StatusCode where
  | unauthorized
  deriving DecidableEq

/-- `strip_prefix("Bearer ")`. -/
def stripBearer (header : String) : Option String :=
  (header.toList.dropPrefix? "Bearer ".toList).map String.ofList

/-- The user of an HTTP request, from its `Authorization` header. -/
def authenticateBearer (header : Option String) : Handler (Except StatusCode String) := do
  match header.bind stripBearer with
  | none => return .error .unauthorized
  | some token =>
      match <- Handler.ask (.validateJwt token) with
      | .error _ => return .error .unauthorized
      | .ok claims =>
          match <- Handler.ask (.isDeviceRegistered claims.deviceId claims.sub) with
          | false => return .error .unauthorized
          | true => return .ok claims.sub

theorem stripBearer_eq_some {header token : String} (h : stripBearer header = some token) :
    header = "Bearer " ++ token := by
  rcases Option.map_eq_some_iff.mp h with ⟨rest, hrest, htoken⟩
  rcases List.dropPrefix?_eq_some_iff.mp hrest with ⟨front, hheader, hfront⟩
  have hfront : front = "Bearer ".toList := eq_of_beq hfront
  rw [← htoken, ← String.ofList_toList (s := header), hheader, hfront, String.ofList_append]
  simp

def answersIn (env : Env) (world : Nat -> App × Ambient) (n : Nat) (call : Call) : call.Reply :=
  ((world n).1.exec env (world n).2 call).2

/-- The header carries a token of a device that is registered when it is looked up. -/
def BearerShown (env : Env) (world : Nat -> App × Ambient) (header : Option String)
    (u : String) : Prop :=
  exists token claims, header = some ("Bearer " ++ token) ∧
    (world 0).1.auth.validateJwt env.crypto token (world 0).2.unix = .ok claims ∧
    claims.sub = u ∧ (world 1).1.database.isDeviceRegistered claims.deviceId u = true

theorem bearerShown_of_ok {env : Env} {world : Nat -> App × Ambient} {header : Option String}
    {u : String}
    (h : Program.answeredBy (answersIn env world) 0 (authenticateBearer header) = .ok u) :
    BearerShown env world header u := by
  unfold authenticateBearer at h
  cases hstrip : header.bind stripBearer with
  | none =>
      rw [hstrip] at h
      cases h
  | some token =>
      rcases Option.bind_eq_some_iff.mp hstrip with ⟨text, htext, htoken⟩
      rw [hstrip] at h
      simp only [Handler.ask, Program.answeredBy_perform_bind] at h
      cases hvalid : answersIn env world 0 (.validateJwt token) with
      | error e =>
          rw [hvalid] at h
          cases h
      | ok claims =>
          simp only [hvalid, Program.answeredBy_perform_bind] at h
          cases hregistered : answersIn env world 1
              (.isDeviceRegistered claims.deviceId claims.sub) with
          | false =>
              rw [hregistered] at h
              cases h
          | true =>
              rw [hregistered] at h
              cases h
              refine ⟨token, claims, ?_, hvalid, rfl, ?_⟩
              · rw [htext, stripBearer_eq_some htoken]
              · exact ((Bool.and_eq_true _ _).mp hregistered).2

namespace Relay

variable {env : Env} {auth : AuthManager} {database : Database} {labels : List RelayLabel}
  {s : Relay}

theorem accredited_of_runs (hrun : Runs env auth database labels s) : Accredited s :=
  (runs_induction (accredited_init auth database)
    (fun _ _ _ _ haccredited hstep => accredited_step haccredited hstep) hrun).2

def Enrolled (env : Env) (auth : AuthManager) (database : Database) (labels : List RelayLabel)
    (u : String) (p : PendingDevice) : Prop :=
  Passes env auth database labels fun s => exists c frame role past next,
    s.activity c = .handling frame role past (.invoke (.broker (.addPendingDevice u p)) next) ∧
      PasswordShown frame u past

theorem enrolled_of_pends (hrun : Runs env auth database labels s) {u : String}
    {p : PendingDevice} (hp : s.broker.Pends u p) : Enrolled env auth database labels u p := by
  refine runs_labels_induction (motive := fun labels s =>
    s.broker.Pends u p -> Enrolled env auth database labels u p) ?_ ?_ hrun hp
  · rintro ⟨st, hst, _⟩
    cases hst
  · intro labels s l s' hrun ih hnext hp
    cases step_effect (sound_of_runs hrun) (step_transition hnext) with
    | none haccount hlog hclock halive =>
        rcases hp with ⟨st, hst, hmem⟩
        exact (ih ⟨st, (haccount u).symm.trans hst, hmem⟩).extend [l]
    | handler hclock hbusy hbroker hlog hnow =>
        rename_i c a frame role past call next
        rw [hbroker] at hp
        rcases broker_perform_cases env s c a call with ⟨op, rfl⟩ | ⟨-, hsame⟩
        · rcases Broker.pends_exec hp with hold | hadded
          · exact (ih hold).extend [_]
          · subst hadded
            have hcredible := (accredited_of_runs hrun hbusy).1
            exact (passes_of_runs hrun
              ⟨c, frame, role, past, next, hbusy, hcredible.entitled⟩).extend [_]
        · rw [hsame] at hp
          exact (ih hp).extend [_]
    | cleanup hclock hbusy hcall hbroker hlog hnow =>
        rename_i c a op next
        rw [hbroker] at hp
        rcases Broker.pends_exec hp with hold | hadded
        · exact (ih hold).extend [_]
        · subst hadded
          generalize s.role c = role at hcall
          cases hcall

def RegisteredMeanwhile (env : Env) (auth : AuthManager) (database : Database)
    (labels : List RelayLabel) (c : ConnId) (frame : Inbound) (u d : String) : Prop :=
  Passes env auth database labels fun s =>
    (exists role past task, s.activity c = .handling frame role past task) ∧
      s.app.database.isDeviceRegistered d u = true

def ApprovedEnrolled (env : Env) (auth : AuthManager) (database : Database)
    (labels : List RelayLabel) (frame : Inbound) (role : ConnectionRole) (u d : String)
    (past : List CallAnswer) : Prop :=
  role = .desktop u ∧ frame.control? = some (.deviceApproved d) ∧
    exists p : PendingDevice, p.deviceId = d ∧
      (⟨.broker (.takePendingDevice u d), some p⟩ : CallAnswer) ∈ past ∧
      Enrolled env auth database labels u p

theorem registeredMeanwhile_of_past (hrun : Runs env auth database labels s) {c : ConnId}
    {frame : Inbound} {role : ConnectionRole} {past : List CallAnswer} {task : Handler Unit}
    {u d : String} (hact : s.activity c = .handling frame role past task)
    (hmem : (⟨.isDeviceRegistered d u, true⟩ : CallAnswer) ∈ past) :
    RegisteredMeanwhile env auth database labels c frame u d := by
  rcases past_origin hrun hact hmem with
    ⟨before, after, t, hlabels, hbefore, a, older, next, hasked, hanswer⟩
  refine ⟨before, after, t, hlabels, hbefore, ⟨role, older, _, hasked⟩, ?_⟩
  have hregistered : (!a.dbFault && t.app.database.isDeviceRegistered d u) = true :=
    hanswer.symm
  exact ((Bool.and_eq_true _ _).mp hregistered).2

theorem ne_desktop_of_meanwhile {c : ConnId} {frame : Inbound} {u d : String}
    (h : RegisteredMeanwhile env auth database labels c frame u d) : d ≠ "desktop" := by
  rcases h with ⟨_, _, _, _, _, _, hregistered⟩
  exact ne_desktop_of_registered hregistered

theorem approvedEnrolled_of_approving (hrun : Runs env auth database labels s) {c : ConnId}
    {frame : Inbound} {role : ConnectionRole} {past : List CallAnswer} {task : Handler Unit}
    {u d : String} (hact : s.activity c = .handling frame role past task)
    (h : Approving frame role u d past) :
    ApprovedEnrolled env auth database labels frame role u d past := by
  rcases h with ⟨hrole, asked, p, hframe, htaken, hid⟩
  rcases past_origin hrun hact htaken with
    ⟨before, after, t, hlabels, hbefore, a, older, next, hasked, hanswer⟩
  have htake : (t.broker.takePendingDevice u asked).2 = some p := hanswer.symm
  rcases Broker.pends_of_taken htake with ⟨hpends, hasked⟩
  have hsame : asked = d := hasked.symm.trans hid
  rw [hsame] at hframe htaken
  refine ⟨hrole, hframe, p, hid, htaken, ?_⟩
  rw [hlabels]
  exact (enrolled_of_pends hbefore hpends).extend after

/-- Who is given a role, and on what a token is issued. -/
structure Authentic (env : Env) (auth : AuthManager) (database : Database)
    (labels : List RelayLabel) (s : Relay) : Prop where
  host : forall {l s' c u}, step env s l = some s' -> s.role c ≠ .client u "desktop" ->
    s'.role c = .client u "desktop" ->
      exists frame role past task, s.activity c = .handling frame role past task ∧
        KeyShown frame u past
  device : forall {l s' c u d}, d ≠ "desktop" -> step env s l = some s' ->
    s.role c ≠ .client u d -> s'.role c = .client u d ->
      exists frame role past task, s.activity c = .handling frame role past task ∧
        TokenShown frame u d past ∧ RegisteredMeanwhile env auth database labels c frame u d
  issued : forall {c frame role past u d next},
    s.activity c = .handling frame role past (.invoke (.createJwt u d) next) ->
      TokenShown frame u d past ∨
        ApprovedEnrolled env auth database labels frame role u d past

theorem shown_of_role (hrun : Runs env auth database labels s) {l : RelayLabel} {s' : Relay}
    {c : ConnId} {u d : String} (hnext : step env s l = some s')
    (hbefore : s.role c ≠ .client u d) (hafter : s'.role c = .client u d) :
    exists frame role past task, s.activity c = .handling frame role past task ∧
      (d = "desktop" ∧ KeyShown frame u past ∨ TokenShown frame u d past) := by
  rcases role_step (sound_of_runs hrun) (step_transition hnext) c with
    hsame | ⟨hopen, _⟩ | ⟨a, frame, role, past, next, _, hbusy⟩
  · exact absurd (hsame.symm.trans hafter) hbefore
  · rw [hopen] at hafter
    cases hafter
  · rw [hafter] at hbusy
    have hentitled := (accredited_of_runs hrun hbusy).1.entitled
    exact ⟨frame, role, past, _, hbusy, hentitled⟩

theorem meanwhile_of_tokenShown (hrun : Runs env auth database labels s) {c : ConnId}
    {frame : Inbound} {role : ConnectionRole} {past : List CallAnswer} {task : Handler Unit}
    {u d : String} (hact : s.activity c = .handling frame role past task)
    (h : TokenShown frame u d past) : RegisteredMeanwhile env auth database labels c frame u d := by
  rcases h with ⟨_, _, _, _, _, _, hregistered⟩
  exact registeredMeanwhile_of_past hrun hact hregistered

/--
In every run, roles are given and tokens issued as they should be; and an HTTP
request is authorized only for a device that is registered.
-/
theorem authentication_sound (hrun : Runs env auth database labels s) :
    Authentic env auth database labels s ∧
      forall world header u,
        Program.answeredBy (answersIn env world) 0 (authenticateBearer header) = .ok u ->
          BearerShown env world header u := by
  refine ⟨?_, fun world header u h => bearerShown_of_ok h⟩
  refine
    { host := ?_
      device := ?_
      issued := ?_ }
  · intro l s' c u hnext hbefore hafter
    rcases shown_of_role hrun hnext hbefore hafter with
      ⟨frame, role, past, task, hact, ⟨_, hkey⟩ | htoken⟩
    · exact ⟨frame, role, past, task, hact, hkey⟩
    · exact absurd rfl (ne_desktop_of_meanwhile (meanwhile_of_tokenShown hrun hact htoken))
  · intro l s' c u d hd hnext hbefore hafter
    rcases shown_of_role hrun hnext hbefore hafter with
      ⟨frame, role, past, task, hact, ⟨hdesktop, _⟩ | htoken⟩
    · exact absurd hdesktop hd
    · exact ⟨frame, role, past, task, hact, htoken, meanwhile_of_tokenShown hrun hact htoken⟩
  · intro c frame role past u d next hact
    rcases (accredited_of_runs hrun hact).1.entitled with htoken | happroving
    · exact Or.inl htoken
    · exact Or.inr (approvedEnrolled_of_approving hrun hact happroving)

def issuing (s : Relay) (c : ConnId) : Option (String × String) :=
  match s.activity c with
  | .handling _ _ _ (.invoke (.createJwt u d) _) => some (u, d)
  | _ => none

theorem handling_of_issuing {s : Relay} {c : ConnId} {u d : String}
    (h : s.issuing c = some (u, d)) : exists frame role past next,
      s.activity c = .handling frame role past (.invoke (.createJwt u d) next) := by
  unfold issuing at h
  split at h
  · cases h
    exact ⟨_, _, _, _, by assumption⟩
  · cases h

open Deployment in
theorem authentication_sound_example : exists s c frame role past next,
    s.activity c = .handling frame role past (.invoke (.createJwt "user" phone.text) next) ∧
      Authentic Deployment.env Deployment.auth Deployment.database (open_ 1 :: start 1
        (message (.auth 1 "user" none none (some phoneToken) none)) 5) s := by
  have hend : (after (open_ 1 :: start 1
      (message (.auth 1 "user" none none (some phoneToken) none)) 5)).map
        (fun s => s.issuing 1) = some (some ("user", phone.text)) := by
    decide +kernel
  rcases Option.map_eq_some_iff.mp hend with ⟨s, hrun, hissuing⟩
  rcases handling_of_issuing hissuing with ⟨frame, role, past, next, hact⟩
  exact ⟨s, 1, frame, role, past, next, hact, (authentication_sound hrun).1⟩

end Relay

end CommandRelay
