import CommandRelay.Server.BugReports
import CommandRelay.Server.ReportApi

/-!
# The archive of bug reports

The relay and its stored reports, step by step.  A report is stored in the step in which
its handler persists it, and nothing else touches the store, so the endpoints show what
the connections of an account have uploaded.
-/

namespace CommandRelay

open Foundation

/-- A report that a handler is about to persist. -/
structure Submission where
  username : String
  deviceId : String
  deviceName : Option String
  text : String
  screenshot : Bytes

def Relay.submits? (s : Relay) : RelayLabel -> Option (Ambient × Submission)
  | .resume c a =>
      match s.upcoming c with
      | some (.persistBugReport username deviceId deviceName text screenshot) =>
          some (a,
            { username := username, deviceId := deviceId, deviceName := deviceName, text := text,
              screenshot := screenshot })
      | _ => none
  | _ => none

structure Archive where
  relay : Relay
  store : ReportStore

/-- A step of the relay, and what storing a report meets in it. -/
structure ArchiveLabel where
  step : RelayLabel
  disk : Disk

namespace Archive

def init (auth : AuthManager) (database : Database) (store : ReportStore) : Archive where
  relay := Relay.init auth database
  store := store

def stored (s : Archive) (l : ArchiveLabel) : ReportStore :=
  match s.relay.submits? l.step with
  | none => s.store
  | some (a, r) =>
      s.store.persistBugReport a l.disk s.relay.app.database r.username r.deviceId r.deviceName
        r.text r.screenshot

def step (env : Env) (s : Archive) (l : ArchiveLabel) : Option Archive :=
  (s.relay.step env l.step).map fun relay => { relay := relay, store := s.stored l }

/-- A run over a database and the store that keeps its reports. -/
def Runs (env : Env) (auth : AuthManager) (database : Database) (store : ReportStore)
    (labels : List ArchiveLabel) (s : Archive) : Prop :=
  follow (step env) (init auth database store) labels = some s

/-- The UUID drawn for a screenshot names no file yet. -/
def Fresh (s : Archive) (l : ArchiveLabel) : Prop :=
  match s.relay.submits? l.step with
  | none => True
  | some (a, _) => s.store.files.lookup a.uuid = none

instance decidableFresh (s : Archive) (l : ArchiveLabel) : Decidable (Fresh s l) :=
  match hsub : s.relay.submits? l.step with
  | none => isTrue (by simp [Fresh, hsub])
  | some (a, _) =>
      decidable_of_iff (s.store.files.lookup a.uuid = none) (by simp [Fresh, hsub])

end Archive

/-!
## Reports in the relay's database
-/

section

variable {env : Env} {app : App} {a : Ambient} {call : Call} {db : Database}

theorem AdminAction.bugReports_apply (crypto : Crypto) (db : Database) (action : AdminAction) :
    (action.apply crypto db).bugReports = db.bugReports := by
  cases action with
  | addAccount u account =>
      show ((db.createAccount u account).toOption.getD db).bugReports = db.bugReports
      unfold Database.createAccount
      split <;> rfl
  | removeAccount u =>
      show ((db.removeAccount u).toOption.getD db).bugReports = db.bugReports
      unfold Database.removeAccount
      split <;> rfl
  | setDesktopKey u key =>
      simp only [AdminAction.apply]
      split <;> rfl

theorem App.bugReports_update {α : Type} (answer : α) (update : Except DbError Database)
    (h : forall db, update = .ok db -> db.bugReports = app.database.bugReports) :
    (app.update a answer update).1.database.bugReports = app.database.bugReports := by
  rcases App.update_cases a app answer update with ⟨e, herror⟩ | ⟨db, hok, hupdate⟩
  · rw [herror]
  · rw [hupdate]
    exact h db hok

theorem App.bugReports_exec
    (h : forall u d name text shot, call ≠ .persistBugReport u d name text shot) :
    (app.exec env a call).1.database.bugReports = app.database.bugReports := by
  cases call
  case persistBugReport u d name text shot => exact absurd rfl (h u d name text shot)
  case updateDeviceLastSeen d ip =>
      refine App.bugReports_update _ _ fun db hok => ?_
      cases hok
      unfold Database.updateDeviceLastSeen
      split <;> rfl
  case registerDevice u name ip =>
      refine App.bugReports_update _ _ fun db hok => ?_
      rw [(Database.addDevice_eq_ok hok).2.2]
  case revokeDevice d =>
      refine App.bugReports_update _ _ fun db hok => ?_
      rcases Database.removeDevice_eq_ok hok with ⟨_, _, _, rfl⟩
      rfl
  case upsertPushSubscription d u json =>
      refine App.bugReports_update _ _ fun db hok => ?_
      rcases Database.upsertPushSubscription_eq_ok hok with ⟨_, _, _, rfl, _⟩
      rfl
  case removePushSubscription d =>
      refine App.bugReports_update _ _ fun db hok => ?_
      cases hok
      unfold Database.removePushSubscription
      split <;> rfl
  all_goals rfl

end

namespace Relay

section

variable {env : Env} {auth : AuthManager} {database : Database} {labels : List RelayLabel}
  {s s' : Relay} {l : RelayLabel} {c : ConnId} {a : Ambient} {r : Submission}

def Submits (s : Relay) (c : ConnId) (r : Submission) : Prop :=
  s.upcoming c =
    some (.persistBugReport r.username r.deviceId r.deviceName r.text r.screenshot)

theorem submits?_eq_some :
    s.submits? l = some (a, r) <-> exists c, l = .resume c a ∧ s.Submits c r := by
  unfold Submits
  constructor
  · intro h
    unfold submits? at h
    split at h
    · split at h
      · rename_i hnext
        cases h
        exact ⟨_, rfl, hnext⟩
      · cases h
    · cases h
  · rintro ⟨c, rfl, hnext⟩
    simp [submits?, hnext]

theorem app_of_resume (h : step env s (.resume c a) = some s') {call : Call}
    (hnext : s.upcoming c = some call) : s'.app = (s.app.exec env a call).1 := by
  rcases activity_of_upcoming hnext with ⟨frame, role, past, next, hact⟩
  simp only [step] at h
  by_cases hclock : s.clock ≤ a.now
  · simp only [if_pos hclock, resume, hact] at h
    cases call <;> cases h <;> rfl
  · rw [if_neg hclock] at h
    cases h

theorem bugReports_step (hs : Sound s) (h : step env s l = some s') :
    (s.submits? l = none ∧ s'.app.database.bugReports = s.app.database.bugReports) ∨
      exists c a r, l = .resume c a ∧ s.Submits c r ∧
        s'.app.database.bugReports =
          (s.app.persistBugReport a r.username r.deviceId r.deviceName r.text
            r.screenshot).database.bugReports := by
  cases hsub : s.submits? l with
  | some found =>
      rcases submits?_eq_some.mp hsub with ⟨c, rfl, hnext⟩
      exact Or.inr ⟨c, found.1, found.2, rfl, hnext, by rw [app_of_resume h hnext]; rfl⟩
  | none =>
      refine Or.inl ⟨rfl, ?_⟩
      rcases database_step hs h with hsame | ⟨action, _, hadmin⟩ |
        ⟨c, a, frame, role, past, call, next, hl, hact, happ, _⟩
      · rw [hsame]
      · rw [hadmin]
        exact AdminAction.bugReports_apply _ _ _
      · rw [happ]
        refine App.bugReports_exec fun u d name text shot hcall => ?_
        have hnext : s.upcoming c = some call := by rw [upcoming, hact]
        have hsome : s.submits? l = some (a, ⟨u, d, name, text, shot⟩) :=
          submits?_eq_some.mpr ⟨c, hl, hnext.trans (congrArg some hcall)⟩
        rw [hsub] at hsome
        cases hsome

/-- In the state, a connection of the account ends the upload of the report: the text is
that of the end, and a screenshot is what the connection has uploaded since the begin. -/
def Files (env : Env) (auth : AuthManager) (database : Database) (labels : List RelayLabel)
    (s : Relay) (r : BugReport) : Prop :=
  exists c frame role past task id note size,
    s.activity c = .handling frame role past task ∧
      frame.control? = some (.fileUploadEnd id note) ∧ role.account? = some r.username ∧
      r.text = note.getD "" ∧ Reported env auth database labels s r.username id c size ∧
      forall bytes, r.screenshot = some bytes ->
        bytes = received r.username id c s.log ∧ bytes.length ≤ size

/-- The run passed through the state in which the report was filed. -/
def Filed (env : Env) (auth : AuthManager) (database : Database) (labels : List RelayLabel)
    (r : BugReport) : Prop :=
  exists before after s, labels = before ++ after ∧ Runs env auth database before s ∧
    Files env auth database before s r

theorem Filed.extend {r : BugReport} (h : Filed env auth database labels r)
    (more : List RelayLabel) : Filed env auth database (labels ++ more) r := by
  rcases h with ⟨before, after, s, hlabels, hrun, hfiles⟩
  exact ⟨before, after ++ more, s, by rw [hlabels, List.append_assoc], hrun, hfiles⟩

theorem bugReports_persist {app : App} {report : BugReport}
    (h : report ∈ (app.persistBugReport a r.username r.deviceId r.deviceName r.text
      r.screenshot).database.bugReports) :
    report ∈ app.database.bugReports ∨
      report.username = r.username ∧ report.text = r.text ∧
        forall bytes, report.screenshot = some bytes -> bytes = r.screenshot := by
  unfold App.persistBugReport at h
  dsimp only at h
  split at h
  · exact Or.inl h
  · rcases List.mem_append.mp h with hold | hnew
    · exact Or.inl hold
    · rw [List.mem_singleton.mp hnew]
      refine Or.inr ⟨rfl, rfl, fun bytes hbytes => ?_⟩
      dsimp only at hbytes
      split at hbytes
      · cases hbytes
      · exact (Option.some.inj hbytes).symm

theorem text_of_persisting {c : ConnId} {frame : Inbound} {role : ConnectionRole}
    {past : List CallAnswer} {u d text : String} {name : Option String} {shot : Bytes}
    (h : ReportsOn c frame role past (.persistBugReport u d name text shot)) {id : String}
    {note : Option String} (hframe : frame.control? = some (.fileUploadEnd id note)) :
    text = note.getD "" := by
  cases h with
  | elsewhere hcall => cases hcall
  | persisted hend hrole htaken =>
      rw [hframe] at hend
      cases hend
      rfl

theorem files_of_submits (hrun : Runs env auth database labels s) (h : s.Submits c r)
    {report : BugReport} (husername : report.username = r.username)
    (htext : report.text = r.text)
    (hshot : forall bytes, report.screenshot = some bytes -> bytes = r.screenshot) :
    Files env auth database labels s report := by
  rcases activity_of_upcoming h with ⟨frame, role, past, next, hact⟩
  rcases report_of_persisting hrun hact with
    ⟨id, note, size, hframe, hrole, hreported, hbytes, hlength, _⟩
  have hnote : r.text = note.getD "" := text_of_persisting (reporting_of_runs hrun hact).1 hframe
  rw [← husername] at hrole hreported hbytes
  refine ⟨c, frame, role, past, _, id, note, size, hact, hframe, hrole, htext.trans hnote,
    hreported, fun bytes hsome => ?_⟩
  rw [hshot bytes hsome]
  exact ⟨hbytes, hlength⟩

theorem filed_of_runs (hrun : Runs env auth database labels s) {report : BugReport}
    (h : report ∈ s.app.database.bugReports) :
    report ∈ database.bugReports ∨ Filed env auth database labels report := by
  refine runs_labels_induction (motive := fun labels s =>
    report ∈ s.app.database.bugReports ->
      report ∈ database.bugReports ∨ Filed env auth database labels report) Or.inl ?_ hrun h
  intro labels s l s' hrun ih hnext hmem
  have hlater : report ∈ s.app.database.bugReports ->
      report ∈ database.bugReports ∨ Filed env auth database (labels ++ [l]) report :=
    fun hold => (ih hold).imp id fun hfiled => hfiled.extend [l]
  rcases bugReports_step (sound_of_runs hrun) hnext with ⟨_, hsame⟩ | ⟨c, a, r, _, hsub, hpersist⟩
  · exact hlater (hsame ▸ hmem)
  · rw [hpersist] at hmem
    rcases bugReports_persist hmem with hold | ⟨husername, htext, hshot⟩
    · exact hlater hold
    · exact Or.inr ⟨labels, [l], s, rfl, hrun, files_of_submits hrun hsub husername htext hshot⟩

end

end Relay

/-!
## The store follows the relay
-/

namespace Archive

/-- The relay is sound, and the store keeps the reports of its database. -/
structure Kept (s : Archive) : Prop where
  sound : s.relay.Sound
  reports : s.store.reports = s.relay.app.database.bugReports

section

variable {env : Env} {auth : AuthManager} {database : Database} {store : ReportStore}
  {labels : List ArchiveLabel} {s s' : Archive} {l : ArchiveLabel} {u : String}

theorem step_eq_some : step env s l = some s' <->
    s.relay.step env l.step = some s'.relay ∧ s'.store = s.stored l := by
  unfold step
  constructor
  · intro h
    rcases Option.map_eq_some_iff.mp h with ⟨relay, hrelay, rfl⟩
    exact ⟨hrelay, rfl⟩
  · rintro ⟨hrelay, hstore⟩
    rw [hrelay, ← hstore]
    rfl

theorem stored_cases (hfresh : Fresh s l) :
    (s.relay.submits? l.step = none ∧ s.stored l = s.store) ∨
      exists c a r, l.step = .resume c a ∧ s.relay.Submits c r ∧
        s.store.files.lookup a.uuid = none ∧
        s.stored l = s.store.persistBugReport a l.disk s.relay.app.database r.username r.deviceId
          r.deviceName r.text r.screenshot := by
  unfold Fresh at hfresh
  unfold stored
  cases hsub : s.relay.submits? l.step with
  | none => exact Or.inl ⟨rfl, rfl⟩
  | some found =>
      rw [hsub] at hfresh
      rcases Relay.submits?_eq_some.mp hsub with ⟨c, hl, hnext⟩
      exact Or.inr ⟨c, found.1, found.2, hl, hnext, hfresh, rfl⟩

theorem extends_step (hfresh : Fresh s l) (h : step env s l = some s') :
    s.store.Extends s'.store := by
  rw [(step_eq_some.mp h).2]
  rcases stored_cases hfresh with ⟨_, hsame⟩ | ⟨c, a, r, _, _, hfree, hpersist⟩
  · rw [hsame]
    exact ReportStore.Extends.refl _
  · rw [hpersist]
    exact ReportStore.extends_persist hfree

theorem kept_step (hs : Kept s) (hfresh : Fresh s l) (h : step env s l = some s') : Kept s' := by
  rcases step_eq_some.mp h with ⟨hrelay, hstore⟩
  refine ⟨Relay.sound_step hs.sound (Relay.step_transition hrelay), ?_⟩
  rw [hstore]
  rcases Relay.bugReports_step hs.sound hrelay with ⟨hnone, hsame⟩ | ⟨c, a, r, hl, hsub, hreports⟩
  · unfold stored
    rw [hnone, hsame]
    exact hs.reports
  · have hsome : s.relay.submits? l.step = some (a, r) :=
      Relay.submits?_eq_some.mpr ⟨c, hl, hsub⟩
    unfold Fresh at hfresh
    rw [hsome] at hfresh
    unfold stored
    rw [hsome, hreports]
    exact ReportStore.reports_persist hfresh hs.reports

theorem follow_kept (hs : Kept s) (hrun : follow (step env) s labels = some s')
    (hfresh : Admits (step env) Fresh s labels) : Kept s' ∧ s.store.Extends s'.store := by
  refine follow_invariant (motive := fun t => Kept t ∧ s.store.Extends t.store) ?_
    ⟨hs, ReportStore.Extends.refl _⟩ hrun hfresh
  rintro t l t' ⟨ht, hextends⟩ hl hnext
  exact ⟨kept_step ht hl hnext, hextends.trans (extends_step hl hnext)⟩

theorem kept_of_runs (hrun : Runs env auth database store labels s)
    (hstart : store.reports = database.bugReports)
    (hfresh : Admits (step env) Fresh (init auth database store) labels) : Kept s :=
  (follow_kept ⟨Relay.sound_init auth database, hstart⟩ hrun hfresh).1

theorem follow_relay (h : follow (step env) s labels = some s') :
    follow (Relay.step env) s.relay (labels.map ArchiveLabel.step) = some s'.relay := by
  induction labels generalizing s with
  | nil =>
      cases h
      rfl
  | cons l rest ih =>
      rcases follow_cons_eq_some.mp h with ⟨t, ht, hrest⟩
      exact follow_cons_eq_some.mpr ⟨t.relay, (step_eq_some.mp ht).1, ih hrest⟩

theorem runs_relay (h : Runs env auth database store labels s) :
    Relay.Runs env auth database (labels.map ArchiveLabel.step) s.relay :=
  follow_relay h

/-!
## What an account is shown
-/

/-- A listing shows exactly the newest of the account's own reports. -/
theorem listing_exact (hrun : Runs env auth database store labels s)
    (hstart : store.reports = database.bugReports)
    (hfresh : Admits (step env) Fresh (init auth database store) labels)
    {world : Nat -> App × Ambient} {header : Option String}
    (hbearer : Program.answeredBy (answersIn env world) 0 (authenticateBearer header) = .ok u)
    (requested : Option Nat) :
    BearerShown env world header u ∧ exists views,
      listBugReportsHandler
          (Program.answeredBy (answersIn env world) 0 (authenticateBearer header)) requested false
          s.store = .json views ∧
        views.map BugReportView.shown =
          (((s.relay.app.database.bugReports.filter fun r => r.username = u).reverse.take
            (clampLimit requested)).map BugReport.shown) ∧
        (views.Pairwise fun v v' => v'.id < v.id) ∧
        forall r, r ∈ s.relay.app.database.bugReports -> r ∈ database.bugReports ∨
          Relay.Filed env auth database (labels.map ArchiveLabel.step) r := by
  have hkept := kept_of_runs hrun hstart hfresh
  rcases listing_eq s.store u requested with ⟨views, hviews, hshown, hfalling⟩
  rw [hkept.reports] at hshown
  refine ⟨bearerShown_of_ok hbearer, views, ?_, hshown, hfalling, fun r hr => ?_⟩
  · rw [hbearer]
    exact hviews
  · exact Relay.filed_of_runs (runs_relay hrun) hr

/-- What is given out as a screenshot is that of one of the account's own reports: the bytes
that a connection of the account has uploaded for it. -/
theorem screenshot_authentic (hrun : Runs env auth database store labels s)
    (hstart : store.reports = database.bugReports)
    (hfresh : Admits (step env) Fresh (init auth database store) labels)
    {more : List ArchiveLabel} (hmore : follow (step env) s more = some s')
    (hfreshMore : Admits (step env) Fresh s more)
    {world : Nat -> App × Ambient} {header : Option String} {id : Int} {dbFault fileFault : Bool}
    {bytes : Bytes}
    (h : bugReportScreenshotHandler
      (Program.answeredBy (answersIn env world) 0 (authenticateBearer header)) id dbFault fileFault
      s.store s'.store = .png bytes) :
    exists u r, BearerShown env world header u ∧ r ∈ s.relay.app.database.bugReports ∧
      r.username = u ∧ r.screenshot = some bytes ∧
      (r ∈ database.bugReports ∨
        Relay.Filed env auth database (labels.map ArchiveLabel.step) r) := by
  have hkept := kept_of_runs hrun hstart hfresh
  have hextends := (follow_kept hkept hmore hfreshMore).2
  cases hbearer : Program.answeredBy (answersIn env world) 0 (authenticateBearer header) with
  | error code =>
      rw [hbearer] at h
      cases h
  | ok u =>
      rw [hbearer] at h
      have hclean := png_clean h
      rw [hclean.1, hclean.2] at h
      rcases (screenshot_eq_png hextends).mp h with ⟨row, hrow, _, hu, hshot⟩
      have hmem : ReportStore.content s.store.files row ∈ s.relay.app.database.bugReports :=
        hkept.reports ▸ List.mem_map_of_mem hrow
      exact ⟨u, _, bearerShown_of_ok hbearer, hmem, hu, hshot,
        Relay.filed_of_runs (runs_relay hrun) hmem⟩

theorem persisted_step (hfresh : Fresh s l) (hnext : step env s l = some s')
    {c : ConnId} {a : Ambient} {r : Submission} (hl : l.step = .resume c a)
    (hsub : s.relay.Submits c r) (hdb : a.dbFault = false) (hfile : a.fileFault = false)
    (hshot : r.screenshot ≠ []) :
    exists row, row ∈ s'.store.table.rows ∧ row.username = r.username ∧
      (ReportStore.content s'.store.files row).screenshot = some r.screenshot := by
  have hsome : s.relay.submits? l.step = some (a, r) :=
    Relay.submits?_eq_some.mpr ⟨c, hl, hsub⟩
  unfold Fresh at hfresh
  rw [hsome] at hfresh
  have hstore : s'.store = s.store.persistBugReport a l.disk s.relay.app.database r.username
      r.deviceId r.deviceName r.text r.screenshot := by
    rw [(step_eq_some.mp hnext).2, stored, hsome]
  rw [hstore]
  exact ReportStore.persisted_row hfresh hdb hfile hshot

/-- A screenshot that is stored without a fault is given out unchanged from then on, to its
account alone. -/
theorem screenshot_durable (hrun : Runs env auth database store labels s)
    (hstart : store.reports = database.bugReports)
    (hfresh : Admits (step env) Fresh (init auth database store) (labels ++ [l]))
    (hnext : step env s l = some s') {c : ConnId} {a : Ambient} {r : Submission}
    (hl : l.step = .resume c a) (hsub : s.relay.Submits c r) (hdb : a.dbFault = false)
    (hfile : a.fileFault = false) (hshot : r.screenshot ≠ []) :
    exists id : Nat, forall {mid later t t'}, follow (step env) s' mid = some t ->
      follow (step env) t later = some t' -> Admits (step env) Fresh s' (mid ++ later) ->
      forall v, bugReportScreenshotHandler (.ok v) id false false t.store t'.store =
        if v = r.username then .png r.screenshot else .notFound := by
  rcases (admits_append hrun).mp hfresh with ⟨hbefore, hadmits⟩
  have hlast : Fresh s l := ((admits_cons hnext).mp hadmits).1
  have hkept := kept_step (kept_of_runs hrun hstart hbefore) hlast hnext
  rcases persisted_step hlast hnext hl hsub hdb hfile hshot with ⟨row, hrow, hu, hcontent⟩
  refine ⟨row.id, fun {mid later t t'} hmid hlater hadmits v => ?_⟩
  rcases (admits_append hmid).mp hadmits with ⟨hfreshMid, hfreshLater⟩
  rcases follow_kept hkept hmid hfreshMid with ⟨hkeptMid, hmidExtends⟩
  have hlaterExtends := (follow_kept hkeptMid hlater hfreshLater).2
  have hrowMid := hmidExtends.mem hrow
  by_cases hv : v = r.username
  · rw [if_pos hv]
    refine (screenshot_eq_png hlaterExtends).mpr ⟨row, hrowMid, rfl, hu.trans hv.symm, ?_⟩
    rw [hmidExtends.content hrow]
    exact hcontent
  · rw [if_neg hv]
    have hne : row.username ≠ v := fun h => hv (h.symm.trans hu)
    simp [bugReportScreenshotHandler, ReportTable.getBugReport_foreign hrowMid hne]

end

/-!
## A report of the phone
-/

def onDisk (labels : List RelayLabel) : List ArchiveLabel :=
  labels.map fun l => { step := l, disk := { torn := none, stamp := "2023-11-14 22:13:20" } }

def phonePersists : RelayLabel :=
  .resume 2 (Deployment.ambient 0)

def phoneHeader : Option String :=
  some ("Bearer " ++ Deployment.phoneToken)

def still (s : Archive) : Nat -> App × Ambient :=
  fun _ => (s.relay.app, Deployment.ambient 0)

def shownUser (s : Archive) : Except StatusCode String :=
  Program.answeredBy (answersIn Deployment.env s.still) 0 (authenticateBearer phoneHeader)

/-- The archive after a run of the deployment, when new screenshots get new names in it. -/
def after (labels : List RelayLabel) : Option Archive :=
  if Admits (step Deployment.env) Fresh
      (init Deployment.auth Deployment.database ReportStore.empty) (onDisk labels) then
    follow (step Deployment.env) (init Deployment.auth Deployment.database ReportStore.empty)
      (onDisk labels)
  else none

theorem after_eq_some {labels : List RelayLabel} {s : Archive} (h : after labels = some s) :
    Runs Deployment.env Deployment.auth Deployment.database ReportStore.empty (onDisk labels) s ∧
      Admits (step Deployment.env) Fresh
        (init Deployment.auth Deployment.database ReportStore.empty) (onDisk labels) := by
  unfold after at h
  split at h
  · rename_i hfresh
    exact ⟨h, hfresh⟩
  · cases h

def phoneFiles : List RelayLabel :=
  Relay.deskAndPhone ++ Relay.phoneReports ++ [phonePersists]

theorem submits_of_persisting {s : Relay} {c : ConnId} {u : String} {shot : Bytes}
    (h : s.persisting? c u = some shot) :
    exists r, s.Submits c r ∧ r.username = u ∧ r.screenshot = shot := by
  unfold Relay.persisting? at h
  split at h
  · rename_i v d name text found hnext
    by_cases hv : v = u
    · rw [if_pos hv] at h
      exact ⟨⟨v, d, name, text, found⟩, hnext, hv, Option.some.inj h⟩
    · rw [if_neg hv] at h
      cases h
  · cases h

theorem ok_of_toOption {bearer : Except StatusCode String} {u : String}
    (h : bearer.toOption = some u) : bearer = .ok u := by
  cases bearer with
  | error code => cases h
  | ok v => exact congrArg Except.ok (Option.some.inj h)

theorem listing_exact_example : exists s views,
    Runs Deployment.env Deployment.auth Deployment.database ReportStore.empty
        (onDisk phoneFiles) s ∧
      listBugReportsHandler s.shownUser none false s.store = .json views ∧
      views.map BugReportView.shown =
        [(Deployment.phone.text, some "Phone", "It broke.", true)] := by
  have hend : (after phoneFiles).map (fun s => (s.shownUser.toOption,
      (((s.relay.app.database.bugReports.filter fun r => r.username = "user").reverse.take
        (clampLimit none)).map BugReport.shown))) =
      some (some "user", [(Deployment.phone.text, some "Phone", "It broke.", true)]) := by
    decide +kernel
  rcases Option.map_eq_some_iff.mp hend with ⟨s, hafter, hfacts⟩
  rcases Prod.mk.inj hfacts with ⟨huser, hreports⟩
  rcases after_eq_some hafter with ⟨hrun, hfresh⟩
  rcases listing_exact hrun rfl hfresh (ok_of_toOption huser) none with
    ⟨_, views, hviews, hshown, _, _⟩
  exact ⟨s, views, hrun, hviews, hshown.trans hreports⟩

def png? : Response -> Option Bytes
  | .png bytes => some bytes
  | _ => none

theorem eq_png {response : Response} {bytes : Bytes} (h : png? response = some bytes) :
    response = .png bytes := by
  cases response <;> cases h
  rfl

theorem screenshot_authentic_example : exists s r,
    Runs Deployment.env Deployment.auth Deployment.database ReportStore.empty
        (onDisk phoneFiles) s ∧
      bugReportScreenshotHandler s.shownUser 1 false false s.store s.store = .png [1, 2, 3] ∧
      r.screenshot = some [1, 2, 3] ∧
      Relay.Filed Deployment.env Deployment.auth Deployment.database
        ((onDisk phoneFiles).map ArchiveLabel.step) r := by
  have hend : (after phoneFiles).map (fun s =>
      png? (bugReportScreenshotHandler s.shownUser 1 false false s.store s.store)) =
      some (some [1, 2, 3]) := by decide +kernel
  rcases Option.map_eq_some_iff.mp hend with ⟨s, hafter, hpng⟩
  rcases after_eq_some hafter with ⟨hrun, hfresh⟩
  rcases screenshot_authentic hrun rfl hfresh (follow_nil s) trivial (eq_png hpng) with
    ⟨_, r, _, _, _, hshot, hstored | hfiled⟩
  · cases hstored
  · exact ⟨s, r, hrun, eq_png hpng, hshot, hfiled⟩

theorem screenshot_durable_example : exists s, exists id : Nat,
    Runs Deployment.env Deployment.auth Deployment.database ReportStore.empty
        (onDisk phoneFiles) s ∧
      bugReportScreenshotHandler (.ok "user") id false false s.store s.store = .png [1, 2, 3] ∧
      bugReportScreenshotHandler (.ok "guest") id false false s.store s.store = .notFound := by
  have hfacts : ((after (Relay.deskAndPhone ++ Relay.phoneReports)).map fun s =>
      (s.relay.persisting? 2 "user")) = some (some [1, 2, 3]) := by decide +kernel
  have hend : (after phoneFiles).isSome = true := by decide +kernel
  rcases Option.isSome_iff_exists.mp hend with ⟨s', hafter⟩
  rcases after_eq_some hafter with ⟨hrun', hfresh'⟩
  rcases Option.map_eq_some_iff.mp hfacts with ⟨s, hbefore, hpersisting⟩
  have hrun := (after_eq_some hbefore).1
  have hsplit : onDisk phoneFiles =
      onDisk (Relay.deskAndPhone ++ Relay.phoneReports) ++ onDisk [phonePersists] :=
    List.map_append
  rw [hsplit] at hrun' hfresh'
  rcases follow_append_eq_some.mp hrun' with ⟨t, ht, hlast⟩
  cases hrun.symm.trans ht
  rcases follow_cons_eq_some.mp hlast with ⟨t', hnext, hnil⟩
  cases hnil
  rcases submits_of_persisting hpersisting with ⟨r, hsub, hu, hshot⟩
  have hne : r.screenshot ≠ [] := by simp [hshot]
  rcases screenshot_durable hrun rfl hfresh' hnext rfl hsub rfl rfl hne with ⟨id, hserved⟩
  have hnow := hserved (follow_nil s') (follow_nil s') trivial
  refine ⟨s', id, hsplit ▸ hrun', ?_, ?_⟩
  · rw [hnow, hu, hshot]
    rfl
  · rw [hnow, hu]
    rfl

end Archive

end CommandRelay
