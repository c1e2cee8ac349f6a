import CommandRelay.Server.Registration

/-!
# What a closed socket leaves behind

The cleanup of a socket goes by its last role.  What other accounts, or the same account in
other places, have kept of the connection stays.
-/

namespace CommandRelay

open Foundation

def Place.lasting : List Place :=
  [.desktop, .clients, .uploads, .downloads, .queue]

def clears (c : ConnId) (u : String) (st : AccountState) (place : Place) :
    ConnectionRole -> Bool
  | .unauthenticated => false
  | .client v _ => u = v && place ∈ [.clients, .uploads, .downloads, .queue]
  | .desktop v =>
      u = v && (place ∈ [.desktop, .uploads] || (place = .queue && !st.heldByOther c))

def removal (c : ConnId) : ConnectionRole -> Option BrokerCall
  | .unauthenticated => none
  | .client u d => some (.unregisterClient u d c)
  | .desktop u => some (.unregisterDesktop u c)

def BrokerCall.unregisters : BrokerCall -> Bool
  | unregisterClient .. => true
  | unregisterDesktop .. => true
  | _ => false

/-!
## One removal
-/

namespace AccountState

variable {st : AccountState} {c : ConnId} {place : Place}

theorem holds_unregisterClient_iff (hplace : place ∈ Place.lasting) :
    (st.unregisterClient c).Holds place c <->
      st.Holds place c ∧ place ∉ [.clients, .uploads, .downloads, .queue] := by
  cases place
  case desktop => simp [Holds, unregisterClient]
  case clients => simp [Holds, clientTxs, unregisterClient]
  case uploads =>
      have hnone : ¬ (st.unregisterClient c).Holds .uploads c :=
        Table.not_has_retain fun v hv => by simp [hv]
      simp [hnone]
  case downloads =>
      have hnone : ¬ (st.unregisterClient c).Holds .downloads c :=
        Table.not_has_retain fun v hv => by simp [hv]
      simp [hnone]
  case queue => simp [Holds, unregisterClient]
  all_goals simp [Place.lasting] at hplace

theorem holds_withoutDesktop_iff (hplace : place ∈ Place.lasting) :
    (st.withoutDesktop c).Holds place c <->
      st.Holds place c ∧ place ∉ [.desktop, .uploads] ∧
        (place = .queue -> st.heldByOther c = true) := by
  have huploads : ¬ (st.dropUploadsOf c).Holds .uploads c :=
    Table.not_has_retain fun v hv => by simp [hv]
  cases hstale : st.heldByOther c with
  | true =>
      have hslot : st.desktopTx ≠ some c := by
        intro hslot
        simp [heldByOther, hslot] at hstale
      have hdropped : st.withoutDesktop c = st.dropUploadsOf c := if_pos hstale
      rw [hdropped]
      cases place
      case desktop => simp [Holds, dropUploadsOf, hslot]
      case uploads => simp [huploads]
      case clients => simp [Holds, dropUploadsOf, clientTxs]
      case downloads => simp [Holds, dropUploadsOf]
      case queue => simp [Holds, dropUploadsOf]
      all_goals simp [Place.lasting] at hplace
  | false =>
      have hcurrent : ¬ st.heldByOther c = true := by simp [hstale]
      have hcleared : st.withoutDesktop c =
          { st.dropUploadsOf c with
            desktopTx := none
            desktopCapabilities := none
            replayQueue := []
            replayTarget := none } := if_neg hcurrent
      rw [hcleared]
      cases place
      case desktop => simp [Holds]
      case uploads => simpa [Holds] using huploads
      case clients => simp [Holds, dropUploadsOf, clientTxs]
      case downloads => simp [Holds, dropUploadsOf]
      case queue => simp [Holds]
      all_goals simp [Place.lasting] at hplace

end AccountState

namespace Broker

def coveredBy (b : Broker) (role : ConnectionRole) (c : ConnId) : Bool :=
  b.accounts.entries.all fun e =>
    Place.lasting.all fun place => !decide (e.2.Holds place c) || clears c e.1 e.2 place role

variable {b : Broker} {role : ConnectionRole} {c : ConnId} {u : String} {place : Place}

theorem coveredBy_iff : b.coveredBy role c = true <->
    forall u st place, b.account u = some st -> place ∈ Place.lasting -> st.Holds place c ->
      clears c u st place role = true := by
  unfold coveredBy
  simp only [List.all_eq_true, Bool.or_eq_true, Bool.not_eq_true', decide_eq_false_iff_not]
  constructor
  · intro h u st place hst hplace hholds
    exact (h ⟨u, st⟩ (AList.mem_lookup_iff.mp hst) place hplace).resolve_left
      (not_not_intro hholds)
  · intro h e he place hplace
    by_cases hholds : e.2.Holds place c
    · exact Or.inr (h e.1 e.2 place (AList.mem_lookup_iff.mpr he) hplace hholds)
    · exact Or.inl hholds

theorem holds_exec_iff {now : Instant} {op : BrokerCall} {v : String}
    (hsubject : op.subject? = some v) (hcreates : op.creates = false) :
    (b.exec now op).1.Holds u place c <->
      exists st, b.account u = some st ∧
        (if u = v then st.after b.alive now op else st).Holds place c := by
  by_cases hv : u = v
  · subst hv
    simp [Holds, account_exec_subject hsubject, hcreates]
  · have hother : op.subject? ≠ some u := by
      rw [hsubject]
      exact fun h => hv (Option.some.inj h).symm
    simp [Holds, account_exec_other hother, hv]

theorem holds_removal_iff {now : Instant} {op : BrokerCall} (hop : removal c role = some op)
    (hplace : place ∈ Place.lasting) :
    (b.exec now op).1.Holds u place c <->
      exists st, b.account u = some st ∧ st.Holds place c ∧ clears c u st place role = false := by
  cases role with
  | unauthenticated => cases hop
  | client v d =>
      cases hop
      have hafter : forall st : AccountState, st.after b.alive now (.unregisterClient v d c) =
          st.unregisterClient c := fun _ => rfl
      rw [holds_exec_iff rfl rfl]
      by_cases hv : u = v
      · simp [hv, clears, hafter, AccountState.holds_unregisterClient_iff hplace]
      · simp [hv, clears]
  | desktop v =>
      cases hop
      have hafter : forall st : AccountState, st.after b.alive now (.unregisterDesktop v c) =
          st.withoutDesktop c := fun _ => rfl
      rw [holds_exec_iff rfl rfl]
      by_cases hv : u = v
      · simp [hv, clears, hafter, AccountState.holds_withoutDesktop_iff hplace]
      · simp [hv, clears]

theorem not_coveredBy (h : b.coveredBy role c = false) : exists u st place,
    b.account u = some st ∧ place ∈ Place.lasting ∧ st.Holds place c ∧
      clears c u st place role = false := by
  by_contra hnone
  have hcovered : b.coveredBy role c = true := by
    refine coveredBy_iff.mpr fun u st place hst hplace hholds => ?_
    rw [← Bool.not_eq_false]
    exact fun hkept => hnone ⟨u, st, place, hst, hplace, hholds, hkept⟩
  rw [h] at hcovered
  cases hcovered

theorem holds_clients_iff : b.Holds u .clients c <-> c ∈ b.listed u := by
  unfold Holds listed clients entry
  cases hst : b.account u with
  | none => simp [AccountState.new]
  | some st => simp [AccountState.Holds, AccountState.clientTxs]

theorem holds_registerClient_iff {now : Instant} {info : ClientInfo}
    (hfresh : ¬ b.Holds u .clients c) :
    (b.exec now (.registerClient u c info)).1.Holds u .clients c <->
      ¬ maxClients ≤ (b.clients u).length := by
  rw [holds_clients_iff] at hfresh ⊢
  constructor
  · intro hlisted hfull
    have hnot : ¬ (⟨c, info⟩ : ClientConnection).tx ∈ (b.clients u).map ClientConnection.tx :=
      hfresh
    unfold listed at hlisted
    rw [clients_exec rfl, AccountState.clientsAfter, AccountState.joined, if_neg hnot,
      if_pos hfull] at hlisted
    exact hfresh hlisted
  · intro hroom
    exact listed_registerClient (Or.inr (Nat.not_le.mp hroom))

end Broker

/-!
## The end of a socket
-/

namespace Activity

def removing : Activity -> Bool
  | closing (.invoke (.broker op) _) => op.unregisters
  | _ => false

def cleanedUp : Activity -> Bool
  | closing (.invoke (.broker op) _) => !op.unregisters
  | closing (.done _) => true
  | closed => true
  | _ => false

variable {c : ConnId} {role : ConnectionRole} {task : Handler Unit}

/-- A closing socket that has a removal to make makes that of its role, and has the close
message left after it. -/
theorem removal_of_removing (h : Relay.Closing c role task)
    (hremoving : (closing task).removing = true) :
    exists op, removal c role = some op ∧
      task = .invoke (.broker op) fun _ => Handler.send c .close := by
  cases h with
  | started =>
      cases role with
      | unauthenticated => cases hremoving
      | client u d => exact ⟨_, rfl, rfl⟩
      | desktop u => exact ⟨_, rfl, rfl⟩
  | unregistered => cases hremoving
  | done => cases hremoving

theorem removing_of_closing (h : Relay.Closing c role task)
    (hclean : (closing task).cleanedUp = false) : (closing task).removing = true := by
  cases h with
  | started =>
      cases role with
      | unauthenticated => cases hclean
      | client u d => rfl
      | desktop u => rfl
  | unregistered => cases hclean
  | done => cases hclean

end Activity

namespace Relay

section

variable (s : Relay)

def cleanedUp (c : ConnId) : Bool :=
  (s.activity c).cleanedUp

/-- No account refers to a connection whose cleanup has run. -/
def LeavesNothing : Prop :=
  forall c u place, s.cleanedUp c = true -> place ∈ Place.lasting -> ¬ s.broker.Holds u place c

/-- A socket ends only when everything that refers to its connection goes with the cleanup of
its last role, and no connection whose cleanup has run becomes a client. -/
def closesCleanly : RelayLabel -> Bool
  | .hangUp c => decide (s.role c ≠ .unauthenticated) || s.broker.coveredBy (s.role c) c
  | .resume c _ =>
      (!(s.activity c).removing || s.broker.coveredBy (s.role c) c) &&
        match s.upcoming c with
        | some (.broker (.registerClient u tx _)) =>
            !s.cleanedUp tx || decide (maxClients ≤ (s.broker.clients u).length)
        | _ => true
  | _ => true

def ClosesCleanly (l : RelayLabel) : Prop :=
  s.closesCleanly l = true

end

instance (s : Relay) (l : RelayLabel) : Decidable (s.ClosesCleanly l) :=
  inferInstanceAs (Decidable (_ = true))

section

variable {env : Env} {auth : AuthManager} {database : Database} {labels : List RelayLabel}
  {s s' : Relay} {l : RelayLabel} {c : ConnId}

theorem cleanedUp_congr (h : s'.activity c = s.activity c) : s'.cleanedUp c = s.cleanedUp c := by
  rw [cleanedUp, cleanedUp, h]

theorem cleanedUp_setActivity {c' : ConnId} {act : Activity} {t : Relay}
    (hact : t.activity c = s.activity c) (hclean : (t.setActivity c' act).cleanedUp c = true) :
    s.cleanedUp c = true ∨ (c = c' ∧ act.cleanedUp = true) := by
  by_cases hc : c = c'
  · subst hc
    rw [cleanedUp, activity_setActivity_same] at hclean
    exact Or.inr ⟨rfl, hclean⟩
  · rw [cleanedUp, activity_setActivity_ne t act hc, hact] at hclean
    exact Or.inl hclean

theorem cleanedUp_step (hs : Sound s) (hstep : Transition env s l s')
    (hclean : s'.cleanedUp c = true) : s.cleanedUp c = true ∨
      (l = .hangUp c ∧ s.role c = .unauthenticated ∧ s'.broker = s.broker) ∨
      exists a op, l = .resume c a ∧ (s.activity c).removing = true ∧
        removal c (s.role c) = some op ∧ s'.broker = (s.broker.exec a.now op).1 := by
  cases hstep with
  | connect hvacant hsockets haccount hlog hclock halive =>
      rename_i c' ip
      by_cases hc : c = c'
      · have hidle : s'.activity c = .idle := by simp [activity, hsockets, hc]
        rw [cleanedUp, hidle] at hclean
        cases hclean
      · have hsame : s'.activity c = s.activity c := by simp [activity, hsockets, hc]
        exact Or.inl (cleanedUp_congr hsame ▸ hclean)
  | receive hidle =>
      rcases cleanedUp_setActivity rfl hclean with hold | ⟨_, hnever⟩
      · exact Or.inl hold
      · cases hnever
  | resume hclock hbusy =>
      rcases cleanedUp_setActivity (activity_perform ..) hclean with hold | ⟨_, hnever⟩
      · exact Or.inl hold
      · cases hnever
  | panic hclock hbusy =>
      rcases cleanedUp_setActivity (activity_perform ..) hclean with hold | ⟨_, hnever⟩
      · exact Or.inl hold
      · cases hnever
  | returned hbusy =>
      rcases cleanedUp_setActivity rfl hclean with hold | ⟨_, hnever⟩
      · exact Or.inl hold
      · cases hnever
  | hangUp hidle =>
      rcases cleanedUp_setActivity rfl hclean with hold | ⟨rfl, hnone⟩
      · exact Or.inl hold
      · refine Or.inr (Or.inl ⟨rfl, ?_, rfl⟩)
        cases hrole : s.role c with
        | unauthenticated => rfl
        | client u d =>
            rw [hrole] at hnone
            cases hnone
        | desktop u =>
            rw [hrole] at hnone
            cases hnone
  | clean hclock hbusy =>
      rename_i c' a call next
      rcases cleanedUp_setActivity (activity_perform ..) hclean with hold | ⟨rfl, hrun⟩
      · exact Or.inl hold
      · have hclosing := hs.closing hbusy
        cases hbefore : s.cleanedUp c with
        | true => exact Or.inl rfl
        | false =>
            rw [cleanedUp, hbusy] at hbefore
            have hremoving := Activity.removing_of_closing hclosing hbefore
            rcases Activity.removal_of_removing hclosing hremoving with ⟨op, hop, htask⟩
            cases htask
            exact Or.inr (Or.inr ⟨a, op, rfl, by rw [hbusy]; exact hremoving, hop, rfl⟩)
  | closed hbusy =>
      rcases cleanedUp_setActivity rfl hclean with hold | ⟨rfl, _⟩
      · exact Or.inl hold
      · exact Or.inl (by rw [cleanedUp, hbusy]; rfl)
  | background hquiet =>
      have hsame : s'.activity c = s.activity c := by rw [activity, activity, hquiet.sockets]
      exact Or.inl (cleanedUp_congr hsame ▸ hclean)

/-- A handler's call puts a connection into a lasting place only when it is the handler's own,
or becomes a client. -/
theorem inserted_lasting {op : BrokerCall} {next : op.Reply -> Handler Unit} {c' : ConnId}
    {frame : Inbound} {role : ConnectionRole} {past : List CallAnswer} {u : String}
    {place : Place} (hs : Sound s)
    (hbusy : s.activity c' = .handling frame role past (.invoke (.broker op) next))
    (hu : op.subject? = some u) (hinsert : (place, c) ∈ op.inserts) :
    c = c' ∨ place = .clients ∧ exists info, op = .registerClient u c info := by
  have hinsertion := (hs.behaves hbusy).1.permitted.insertion hu hinsert
  cases hinsertion with
  | approved hrole htarget =>
      cases op <;> simp [BrokerCall.inserts] at hinsert
      rename_i v tx info
      cases hu
      exact Or.inr ⟨rfl, info, by rw [hinsert]⟩
  | _ => exact Or.inl rfl

theorem leavesNothing_step (hs : Sound s) (hstep : Transition env s l s')
    (hnothing : s.LeavesNothing) (hclean : s.ClosesCleanly l) : s'.LeavesNothing := by
  intro c u place hc hplace hheld
  unfold ClosesCleanly at hclean
  rcases cleanedUp_step hs hstep hc with
    hbefore | ⟨rfl, hrole, hbroker⟩ | ⟨a, op, rfl, hremoving, hop, hbroker⟩
  · have hold := hnothing c u place hbefore hplace
    have heffect := step_effect hs hstep
    cases heffect with
    | none haccount hlog hclock halive =>
        exact hold ((Broker.holds_congr (haccount u) place c).mp hheld)
    | handler hclock hbusy hbroker hlog hnow =>
        rename_i c' a frame role past call next
        have hother : c ≠ c' := by
          rintro rfl
          rw [cleanedUp, hbusy] at hbefore
          cases hbefore
        rcases broker_perform_cases env s c' a call with ⟨op, rfl⟩ | ⟨hother, hsame⟩
        · rw [hbroker] at hheld
          rcases Broker.holds_exec hheld with hsame | ⟨hu, hinsert⟩ | ⟨_, rfl, _⟩
          · exact hold hsame
          · rcases inserted_lasting hs hbusy hu hinsert with hown | ⟨rfl, info, rfl⟩
            · exact hother hown
            · have hroom := (Broker.holds_registerClient_iff hold).mp hheld
              simp [closesCleanly, upcoming, hbusy, hbefore, hroom] at hclean
          · simp [Place.lasting] at hplace
        · rw [hbroker, hsame] at hheld
          exact hold hheld
    | cleanup hclock hbusy hcall hbroker hlog hnow =>
        rw [hbroker] at hheld
        rcases Broker.holds_exec hheld with hsame | ⟨_, hinsert⟩ | ⟨_, rfl, _⟩
        · exact hold hsame
        · rw [hcall.inserts] at hinsert
          cases hinsert
        · simp [Place.lasting] at hplace
  · rw [hbroker] at hheld
    rcases hheld with ⟨st, hst, hholds⟩
    simp only [closesCleanly, hrole, ne_eq, not_true_eq_false, decide_false, Bool.false_or]
      at hclean
    have hclears := Broker.coveredBy_iff.mp hclean u st place hst hplace hholds
    cases hclears
  · rw [hbroker, Broker.holds_removal_iff hop hplace] at hheld
    rcases hheld with ⟨st, hst, hholds, hkept⟩
    simp only [closesCleanly, hremoving, Bool.not_true, Bool.false_or, Bool.and_eq_true]
      at hclean
    rw [Broker.coveredBy_iff.mp hclean.1 u st place hst hplace hholds] at hkept
    cases hkept

theorem left_behind (hs : Sound s) (hnothing : s.LeavesNothing) (hstep : step env s l = some s')
    (hclean : ¬ s.ClosesCleanly l) : ¬ s'.LeavesNothing := by
  unfold ClosesCleanly at hclean
  rw [Bool.not_eq_true] at hclean
  intro hnothing'
  cases l with
  | hangUp c =>
      simp only [closesCleanly, Bool.or_eq_false_iff, decide_eq_false_iff_not, not_not] at hclean
      rcases hclean with ⟨hrole, huncovered⟩
      rcases Broker.not_coveredBy huncovered with ⟨u, st, place, hst, hplace, hholds, _⟩
      simp only [step] at hstep
      split at hstep
      · cases hstep
        refine hnothing' c u place ?_ hplace ⟨st, hst, hholds⟩
        rw [cleanedUp, activity_setActivity_same, hrole]
        rfl
      · cases hstep
  | resume c a =>
      by_cases hclock : s.clock ≤ a.now
      · simp only [step, if_pos hclock] at hstep
        simp only [closesCleanly, Bool.and_eq_false_iff, Bool.or_eq_false_iff,
          Bool.not_eq_false'] at hclean
        rcases hclean with ⟨hremoving, huncovered⟩ | hregisters
        · rcases Broker.not_coveredBy huncovered with ⟨u, st, place, hst, hplace, hholds, hkept⟩
          cases hact : s.activity c with
          | closing task =>
              rw [hact] at hremoving
              rcases Activity.removal_of_removing (hs.closing hact) hremoving with ⟨op, hop, rfl⟩
              simp only [resume, hact] at hstep
              cases hstep
              refine hnothing' c u place ?_ hplace
                ((Broker.holds_removal_iff hop hplace).mpr ⟨st, hst, hholds, hkept⟩)
              rw [cleanedUp, activity_setActivity_same]
              rfl
          | _ =>
              rw [hact] at hremoving
              cases hremoving
        · split at hregisters
          · rename_i u tx info hupcoming
            simp only [Bool.or_eq_false_iff, Bool.not_eq_false', decide_eq_false_iff_not]
              at hregisters
            rcases hregisters with ⟨hcleaned, hroom⟩
            rcases activity_of_upcoming hupcoming with ⟨frame, role, past, next, hact⟩
            have hother : tx ≠ c := by
              rintro rfl
              rw [cleanedUp, hact] at hcleaned
              cases hcleaned
            simp only [resume, hact] at hstep
            cases hstep
            have hfresh := hnothing tx u .clients hcleaned (by decide)
            refine hnothing' tx u .clients ?_ (by decide)
              ((Broker.holds_registerClient_iff hfresh).mpr hroom)
            rw [cleanedUp, activity_setActivity_ne _ _ hother, activity_perform]
            exact hcleaned
          · cases hregisters
      · simp only [step, if_neg hclock] at hstep
        cases hstep
  | _ => cases hclean

theorem leavesNothing_step_iff (hs : Sound s) (hnothing : s.LeavesNothing)
    (hstep : step env s l = some s') : s'.LeavesNothing <-> s.ClosesCleanly l := by
  constructor
  · intro hnothing'
    by_contra hclean
    exact left_behind hs hnothing hstep hclean hnothing'
  · exact leavesNothing_step hs (step_transition hstep) hnothing

/-- Nothing is left behind in any state that the run passes through. -/
def LeavesNothingAlong (env : Env) (auth : AuthManager) (database : Database)
    (labels : List RelayLabel) : Prop :=
  forall before after s, labels = before ++ after -> Runs env auth database before s ->
    s.LeavesNothing

theorem leavesNothingAlong_nil : LeavesNothingAlong env auth database [] := by
  intro before after s hlabels hrun c u place hclean
  rcases List.append_eq_nil_iff.mp hlabels.symm with ⟨rfl, _⟩
  cases hrun
  cases hclean

theorem leavesNothingAlong_snoc (hrun : Runs env auth database (labels ++ [l]) s') :
    LeavesNothingAlong env auth database (labels ++ [l]) <->
      LeavesNothingAlong env auth database labels ∧ s'.LeavesNothing := by
  constructor
  · intro h
    constructor
    · intro before after s hlabels hbefore
      exact h before (after ++ [l]) s (by rw [hlabels, List.append_assoc]) hbefore
    · exact h (labels ++ [l]) [] s' (List.append_nil _).symm hrun
  · rintro ⟨hbefore, hlast⟩ before after s hlabels hruns
    rcases List.eq_nil_or_concat after with rfl | ⟨rest, last, rfl⟩
    · rw [List.append_nil] at hlabels
      subst hlabels
      cases Option.some.inj (hrun.symm.trans hruns)
      exact hlast
    · rw [List.concat_eq_append, ← List.append_assoc] at hlabels
      exact hbefore before rest s (List.append_inj_left' hlabels rfl) hruns

/-- All along a run no account refers to a connection whose cleanup has run, exactly when
every step of the run is clean. -/
theorem closed_leaves_nothing (hrun : Runs env auth database labels s) :
    LeavesNothingAlong env auth database labels <->
      Admits (step env) ClosesCleanly (init auth database) labels := by
  refine runs_labels_induction (motive := fun labels _ =>
    LeavesNothingAlong env auth database labels <->
      Admits (step env) ClosesCleanly (init auth database) labels) ?_ ?_ hrun
  · exact iff_of_true leavesNothingAlong_nil trivial
  · intro labels s l s' hbefore ih hstep
    rw [leavesNothingAlong_snoc (runs_snoc hbefore hstep), admits_append hbefore,
      admits_cons hstep, ← ih]
    constructor
    · rintro ⟨halong, hlast⟩
      have hnothing := halong labels [] s (List.append_nil _).symm hbefore
      exact ⟨halong, (leavesNothing_step_iff (sound_of_runs hbefore) hnothing hstep).mp hlast,
        trivial⟩
    · rintro ⟨halong, hclean, _⟩
      have hnothing := halong labels [] s (List.append_nil _).symm hbefore
      exact ⟨halong,
        (leavesNothing_step_iff (sound_of_runs hbefore) hnothing hstep).mpr hclean⟩

end

/-- A socket ends: its cleanup makes its calls, and the socket is closed. -/
def ends (c : ConnId) : List RelayLabel :=
  .hangUp c :: List.replicate 2 (.resume c (Deployment.ambient 0)) ++ [.finish c]

theorem closed_leaves_nothing_example :
    (Deployment.after (deskAndPhone ++ ends 2)).isSome = true ∧
      LeavesNothingAlong Deployment.env Deployment.auth Deployment.database
        (deskAndPhone ++ ends 2) := by
  have hend : (Deployment.after (deskAndPhone ++ ends 2)).isSome = true := by decide +kernel
  rcases Option.isSome_iff_exists.mp hend with ⟨s, hrun⟩
  exact ⟨hend, (closed_leaves_nothing hrun).mpr (by decide +kernel)⟩

/-- The phone's socket is closed, and the account it had first still lists it. -/
theorem phone_left_behind : exists s,
    Runs Deployment.env Deployment.auth Deployment.database
      (deskAndPhone ++ phoneSwitches ++ ends 2) s ∧
      s.cleanedUp 2 = true ∧ s.broker.Holds "user" .clients 2 ∧ ¬ s.LeavesNothing := by
  have hend : (Deployment.after (deskAndPhone ++ phoneSwitches ++ ends 2)).map
      (fun s => (s.cleanedUp 2, decide (2 ∈ s.broker.listed "user"))) =
      some (true, true) := by decide +kernel
  rcases Option.map_eq_some_iff.mp hend with ⟨s, hrun, hfacts⟩
  simp only [Prod.mk.injEq] at hfacts
  have hheld : s.broker.Holds "user" .clients 2 :=
    Broker.holds_clients_iff.mpr (of_decide_eq_true hfacts.2)
  refine ⟨s, hrun, hfacts.1, hheld, fun hnothing => ?_⟩
  exact hnothing 2 "user" .clients hfacts.1 (by decide) hheld

end Relay

end CommandRelay
