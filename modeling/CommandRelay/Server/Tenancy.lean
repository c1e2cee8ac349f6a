import CommandRelay.Broker.Tenancy
import CommandRelay.Server.BrokerView
import CommandRelay.Server.RoleGating

/-!
# One account on a shared relay

While every connection authenticates for one account only, whatever the broker holds for
an account are connections of that account: the accounts of a relay do not interfere.
-/

namespace CommandRelay

open Foundation

theorem BrokerCall.subject_of_inserts {owner : ConnId -> String} {op : BrokerCall}
    {i : Place × ConnId} (h : i ∈ op.inserts) : op.subject? = some (op.tenant owner) := by
  cases op <;> first | rfl | cases h

theorem BrokerCall.inserts_of_isSend {op : BrokerCall} (h : op.isSend = true) :
    op.inserts = [] := by
  cases op <;> first | rfl | cases h

namespace Relay

/-- A frame authenticates for the account that its connection belongs to. -/
def Faithful (owner : ConnId -> String) : RelayLabel -> Prop
  | .receive c frame => forall u, frame.Authenticates u -> owner c = u
  | _ => True

/-- No connection acts or stands for an account but its own. -/
structure Apart (owner : ConnId -> String) (s : Relay) : Prop where
  confined : s.broker.Confined owner
  role : forall {c u}, (s.role c).account? = some u -> owner c = u
  frame : forall {c frame role past task u}, s.activity c = .handling frame role past task ->
    frame.Authenticates u -> owner c = u
  receivedAs : forall {c frame role past task u},
    s.activity c = .handling frame role past task -> role.account? = some u -> owner c = u
  pointed : forall {c frame u past task answered tx},
    s.activity c = .handling frame (.desktop u) past task -> answered ∈ past ->
      target? answered = some tx -> owner tx = u

section

variable {env : Env} {auth : AuthManager} {database : Database} {labels : List RelayLabel}
  {owner : ConnId -> String} {s s' : Relay} {l : RelayLabel} {u : String} {c tx : ConnId}
  {frame : Inbound} {role : ConnectionRole} {past : List CallAnswer} {task : Handler Unit}

theorem Apart.insertion {place : Place} (h : s.Apart owner)
    (hact : s.activity c = .handling frame role past task)
    (hinsertion : Insertion c frame role past u place tx) : owner tx = u := by
  cases hinsertion with
  | desktop hrole => exact h.receivedAs hact (hrole ▸ rfl)
  | upload hrole => exact h.receivedAs hact hrole
  | download hrole => exact h.receivedAs hact (hrole ▸ rfl)
  | queue hrole => exact h.receivedAs hact (hrole ▸ rfl)
  | supervisor hrole => exact h.receivedAs hact (hrole ▸ rfl)
  | pending hframe => exact h.frame hact hframe
  | welcomed hframe => exact h.frame hact hframe
  | approved hrole htarget =>
      rcases htarget with ⟨answered, hmem, htarget⟩
      subst hrole
      exact h.pointed hact hmem htarget

theorem confined_of_step (hs : Sound s) (h : s.Apart owner) (hstep : Transition env s l s') :
    s'.broker.Confined owner := by
  intro v place tx hholds
  rcases holds_step hs (step_effect hs hstep) hholds with
    hold | ⟨c, a, frame, role, past, call, next, _, hact, hnew⟩ | ⟨_, hqueued⟩
  · exact h.confined v place tx hold
  · exact h.insertion hact hnew
  · exact h.confined v .queue tx hqueued

theorem owner_of_setRole {new : ConnectionRole}
    {next : Call.Reply (.setRole new) -> Handler Unit} (hs : Sound s) (h : s.Apart owner)
    (hact : s.activity c = .handling frame role past (.invoke (.setRole new) next))
    (hnew : new.account? = some u) : owner c = u := by
  cases (hs.behaves hact).1.permitted with
  | privately hcall => cases hcall
  | keyRole hframe =>
      cases hnew
      exact h.frame hact hframe
  | tokenRole hframe =>
      cases hnew
      exact h.frame hact hframe
  | desktopRole hrole =>
      cases hnew
      exact h.receivedAs hact (hrole ▸ rfl)

theorem role_of_step (hs : Sound s) (h : s.Apart owner) (hstep : Transition env s l s')
    (hrole : (s'.role c).account? = some u) : owner c = u := by
  rcases role_step hs hstep c with
    hsame | ⟨hfree, _⟩ | ⟨a, frame, role, past, next, _, hact⟩
  · exact h.role (hsame ▸ hrole)
  · rw [hfree] at hrole
    cases hrole
  · exact owner_of_setRole hs h hact hrole

theorem owner_of_target {a : Ambient} {call : Call} {next : call.Reply -> Handler Unit}
    (hs : Sound s) (h : s.Apart owner)
    (hact : s.activity c = .handling frame (.desktop u) past (.invoke call next))
    (htarget : target? ⟨call, s.answer env a call⟩ = some tx) : owner tx = u := by
  cases call
  case broker op =>
      cases (hs.behaves hact).1.permitted
      case desktopCall v hrole hcall =>
          cases hrole
          exact h.confined _ _ _ (Broker.held_of_target hcall htarget)
      case ownUpload v hrole hcall =>
          rw [target_ownUpload hcall] at htarget
          cases htarget
      all_goals contradiction
  all_goals cases htarget

theorem apart_step (hs : Sound s) (h : s.Apart owner) (hfaithful : Faithful owner l)
    (hstep : Transition env s l s') : s'.Apart owner where
  confined := confined_of_step hs h hstep
  role := fun hrole => role_of_step hs h hstep hrole
  frame := by
    intro c frame role past task u hact hauth
    rcases handling_step hstep hact with
      hold | ⟨rfl, _, _, _, _⟩ | ⟨_, _, _, _, _, _, hbusy, _, _⟩
    · exact h.frame hold hauth
    · exact hfaithful u hauth
    · exact h.frame hbusy hauth
  receivedAs := by
    intro c frame role past task u hact hrole
    rcases handling_step hstep hact with
      hold | ⟨_, _, rfl, _, _⟩ | ⟨_, _, _, _, _, _, hbusy, _, _⟩
    · exact h.receivedAs hold hrole
    · exact h.role hrole
    · exact h.receivedAs hbusy hrole
  pointed := by
    intro c frame u past task answered tx hact hmem htarget
    rcases handling_step hstep hact with
      hold | ⟨_, _, _, hpast, _⟩ | ⟨a, call, before, next, _, _, hbusy, hpast, _⟩
    · exact h.pointed hold hmem htarget
    · rw [hpast] at hmem
      cases hmem
    · rw [hpast] at hmem
      rcases List.mem_cons.mp hmem with rfl | hmem
      · exact owner_of_target hs h hbusy htarget
      · exact h.pointed hbusy hmem htarget

theorem apart_init (auth : AuthManager) (database : Database) :
    (init auth database).Apart owner where
  confined := by
    rintro u place c ⟨st, hst, _⟩
    cases hst
  role := fun hrole => by cases hrole
  frame := fun hact => by cases hact
  receivedAs := fun hact => by cases hact
  pointed := fun hact => by cases hact

theorem keepsApart_of_accompanies {steps : List BrokerLabel} (hs : Sound s)
    (h : s.Apart owner) (hstep : Transition env s l s') (hsteps : Accompanies steps s s') :
    forall m, m ∈ steps -> m.KeepsApart owner := by
  rintro (⟨now, op⟩ | ⟨now, tx⟩ | tx | tx) hmem
  · intro i hi
    rcases hsteps now op hmem with hsend | ⟨e, hlog, hcall⟩
    · rw [BrokerCall.inserts_of_isSend hsend] at hi
      cases hi
    · rcases log_step hs hstep with hsame | ⟨c, a, call, _, _, hnew, _, hmade⟩
      · rw [hsame] at hlog
        exact absurd hlog.symm (List.cons_ne_self e s.log)
      · rw [hnew, log_perform] at hlog
        injection hlog with hevent _
        subst hevent
        cases hcall
        rcases hmade with ⟨frame, role, past, next, hact⟩ | ⟨op', heq, hcleanup⟩
        · exact h.insertion hact ((hs.behaves hact).1.permitted.insertion
            (BrokerCall.subject_of_inserts hi) hi)
        · cases heq
          rw [hcleanup.inserts] at hi
          cases hi
  all_goals trivial

theorem broker_runs_apart (hrun : Runs env auth database labels s)
    (hfaithful : forall l, l ∈ labels -> Faithful owner l) :
    s.Apart owner ∧ exists steps r, BrokerRun.Runs steps r ∧
      (forall m, m ∈ steps -> m.KeepsApart owner) ∧ s.Mirrored r := by
  refine runs_labels_induction (motive := fun labels s =>
    (forall l, l ∈ labels -> Faithful owner l) -> s.Apart owner ∧
      exists steps r, BrokerRun.Runs steps r ∧ (forall m, m ∈ steps -> m.KeepsApart owner) ∧
        s.Mirrored r) ?_ ?_ hrun hfaithful
  · exact fun _ => ⟨apart_init auth database, [], BrokerRun.init, rfl, by simp, rfl,
      Nat.le_refl _, rfl⟩
  · intro labels s l s' hrun ih hstep hfaithful
    have hs := sound_of_runs hrun
    have hnext := step_transition hstep
    rcases ih fun l' hl' => hfaithful l' (List.mem_append_left _ hl') with
      ⟨hapart, steps, r, hruns, hsteps, hmirrored⟩
    rcases hmirrored.step hstep with ⟨more, r', hfollow, hmade, hmirrored'⟩
    have hlast : Faithful owner l := hfaithful l (List.mem_append_right _ List.mem_cons_self)
    refine ⟨apart_step hs hapart hlast hnext, steps ++ more, r',
      follow_append_eq_some.mpr ⟨r, hruns, hfollow⟩, fun m hm => ?_, hmirrored'⟩
    rcases List.mem_append.mp hm with hm | hm
    · exact hsteps m hm
    · exact keepsApart_of_accompanies hs hapart hnext hmade m hm

end

/-- Accounts on one relay do not interfere: while every connection authenticates for one
account only, what the broker holds for an account and what it has enqueued for its
connections are what a broker run for that account alone leads to, and so are the answers
to the account's operations. -/
theorem accounts_undisturbed {env : Env} {auth : AuthManager} {database : Database}
    {labels : List RelayLabel} {s : Relay} (owner : ConnId -> String)
    (hrun : Runs env auth database labels s)
    (hfaithful : forall l, l ∈ labels -> Faithful owner l) (u : String) :
    exists steps r, BrokerRun.Runs steps r ∧ (forall m, m ∈ steps -> m.tenant owner = u) ∧
      r.broker = s.broker.only owner u ∧
      BrokerEvent.substance r.log = BrokerEvent.substance
        ((s.log.filterMap RelayEvent.operation?).filter fun e => e.call.tenant owner = u) := by
  rcases broker_runs_apart hrun hfaithful with ⟨_, steps, r, hruns, hsteps, hmirrored⟩
  rcases BrokerRun.seenBy_shows.follow_filter (BrokerRun.shows_init (u := u)) hruns
    (admits_of_mem hsteps BrokerRun.init) with ⟨r', hruns', hshows⟩
  refine ⟨_, r', hruns', fun m hm => of_decide_eq_true (List.mem_filter.mp hm).2, ?_, ?_⟩
  · rw [hshows.broker, hmirrored.broker]
  · have hlog := hmirrored.log
    unfold BrokerEvent.substance at hlog ⊢
    rw [hshows.log, List.filter_comm, hlog, List.filter_comm]

def authenticates? (frame : Inbound) : Option String :=
  match frame.control? with
  | some (.auth _ u _ _ _ _) => some u
  | _ => none

theorem authenticates?_eq_some {frame : Inbound} {u : String} :
    authenticates? frame = some u <-> frame.Authenticates u := by
  unfold authenticates? Inbound.Authenticates
  constructor
  · intro h
    split at h
    · rename_i hcontrol
      cases h
      exact ⟨_, _, _, _, _, hcontrol⟩
    · cases h
  · rintro ⟨_, _, _, _, _, hcontrol⟩
    rw [hcontrol]

instance decidableFaithful (owner : ConnId -> String) :
    (l : RelayLabel) -> Decidable (Faithful owner l)
  | .receive c frame =>
      decidable_of_iff (forall u, u ∈ authenticates? frame -> owner c = u)
        (forall_congr' fun _ => imp_congr_left authenticates?_eq_some)
  | .connect .. | .resume .. | .finish _ | .hangUp _ | .ping _ | .nudge .. | .drain _ =>
      inferInstanceAs (Decidable True)
  | .stopWriter _ | .shutdown | .administer _ => inferInstanceAs (Decidable True)

def guestBeside : List RelayLabel :=
  deskAndPhone ++
    .administer (.addAccount "guest"
      { passwordHash := Deployment.storedHash, totpSecretEncrypted := none, totpNonce := none }) ::
    .administer (.setDesktopKey "guest" "key") :: Deployment.open_ 3 ::
    Deployment.turn 3 (Deployment.message (.auth 1 "guest" none none none (some "key"))) 5 ++
    Deployment.register 3

theorem accounts_undisturbed_example : exists s steps r,
    Runs Deployment.env Deployment.auth Deployment.database guestBeside s ∧
      s.broker.isDesktopOnline "guest" = true ∧ BrokerRun.Runs steps r ∧
      (forall m, m ∈ steps -> m.tenant BrokerRun.guestAfter = "user") ∧
      r.broker = s.broker.only BrokerRun.guestAfter "user" := by
  have hend : (Deployment.after guestBeside).map (fun s => s.broker.isDesktopOnline "guest") =
      some true := by decide +kernel
  rcases Option.map_eq_some_iff.mp hend with ⟨s, hrun, honline⟩
  rcases accounts_undisturbed BrokerRun.guestAfter hrun (by decide +kernel) "user" with
    ⟨steps, r, hruns, hsteps, hbroker, _⟩
  exact ⟨s, steps, r, hrun, honline, hruns, hsteps, hbroker⟩

end Relay

end CommandRelay
