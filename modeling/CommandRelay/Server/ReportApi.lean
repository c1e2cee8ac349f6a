import CommandRelay.Server.Authentication
import CommandRelay.Store.Reports

/-!
# Reading bug reports back

The relay keeps a report as a row and a file, and gives it back over HTTP.  The store
follows the relay: what the endpoints give an account are the reports that its own
connections have persisted.
-/

namespace CommandRelay

open Foundation

/-- What storing a report meets besides the surroundings of its call: what a failed write
leaves of the file, and the clock of the database. -/
structure Disk where
  torn : Option Bytes
  stamp : String

namespace ReportStore

theorem no_path (st : ReportStore) : forall name, none = some name ->
    (st.files.lookup name).isSome := by
  intro name h
  cases h

theorem written (st : ReportStore) (name : Uuid) (bytes : Bytes) : forall name',
    some name = some name' -> ((st.write name bytes).files.lookup name').isSome := by
  rintro name' h
  cases h
  exact Option.isSome_iff_exists.mpr ⟨bytes, AList.lookup_insert st.files⟩

def insertRow (a : Ambient) (disk : Disk) (db : Database) (username deviceId : String)
    (deviceName : Option String) (text : String) (screenshotPath : Option Uuid)
    (st : ReportStore)
    (hpath : forall name, screenshotPath = some name -> (st.files.lookup name).isSome) :
    ReportStore :=
  if a.dbFault then st
  else
    match deviceName with
    | some name =>
        st.insertBugReportWithDeviceName username deviceId (some name) text screenshotPath
          disk.stamp hpath
    | none => st.insertBugReport username deviceId text screenshotPath disk.stamp db hpath

/-- `persist_bug_report`: the screenshot is written first, and an error leaves the row
without one. -/
def persistBugReport (a : Ambient) (disk : Disk) (db : Database) (username deviceId : String)
    (deviceName : Option String) (text : String) (screenshot : Bytes) (st : ReportStore) :
    ReportStore :=
  if screenshot.isEmpty then
    st.insertRow a disk db username deviceId deviceName text none st.no_path
  else if a.fileFault then
    let st := disk.torn.elim st fun bytes => st.write a.uuid bytes
    st.insertRow a disk db username deviceId deviceName text none st.no_path
  else
    (st.write a.uuid screenshot).insertRow a disk db username deviceId deviceName text
      (some a.uuid) (st.written a.uuid screenshot)

section

variable {st : ReportStore} {a : Ambient} {disk : Disk} {db : Database} {u d text : String}
  {deviceName : Option String} {shot : Bytes} {app : App}

def storedName (deviceName : Option String) (deviceId : String) (db : Database) :
    Option String :=
  match deviceName with
  | some given => some given
  | none => ((Database.deviceKey deviceId).bind db.devices.lookup).map Device.name

theorem reports_insertRow {path : Option Uuid}
    (hpath : forall name, path = some name -> (st.files.lookup name).isSome) :
    (st.insertRow a disk db u d deviceName text path hpath).reports =
      if a.dbFault then st.reports
      else st.reports ++
        [{ username := u, deviceId := d, deviceName := storedName deviceName d db,
           text := text, screenshot := path.bind st.files.lookup }] := by
  unfold insertRow
  by_cases hfault : a.dbFault = true
  · rw [if_pos hfault, if_pos hfault]
  · rw [if_neg hfault, if_neg hfault]
    cases deviceName with
    | none => exact reports_insert hpath
    | some name => exact reports_insert hpath

theorem reports_persist (hfree : st.files.lookup a.uuid = none)
    (hreports : st.reports = app.database.bugReports) :
    (st.persistBugReport a disk app.database u d deviceName text shot).reports =
      (app.persistBugReport a u d deviceName text shot).database.bugReports := by
  have happ : (app.persistBugReport a u d deviceName text shot).database.bugReports =
      if a.dbFault then app.database.bugReports
      else app.database.bugReports ++
        [{ username := u, deviceId := d, deviceName := storedName deviceName d app.database,
           text := text
           screenshot := if shot.isEmpty || a.fileFault then none else some shot }] := by
    unfold App.persistBugReport
    by_cases hfault : a.dbFault = true
    · simp only [if_pos hfault]
    · simp only [if_neg hfault]
      cases deviceName <;> rfl
  rw [happ, ← hreports]
  unfold persistBugReport
  by_cases hempty : shot.isEmpty = true
  · rw [if_pos hempty, reports_insertRow, hempty]
    rfl
  · rw [if_neg hempty]
    by_cases hfault : a.fileFault = true
    · have htorn : (disk.torn.elim st fun bytes => st.write a.uuid bytes).reports = st.reports := by
        cases disk.torn with
        | none => rfl
        | some bytes => exact reports_write hfree
      simp only [hfault, Bool.or_true, if_true]
      rw [reports_insertRow, htorn]
      rfl
    · have hlookup : (some a.uuid).bind (st.write a.uuid shot).files.lookup = some shot :=
        AList.lookup_insert st.files
      rw [if_neg hfault, reports_insertRow, reports_write hfree, hlookup,
        Bool.eq_false_iff.mpr hempty, Bool.eq_false_iff.mpr hfault]
      rfl

theorem persisted_row (hfree : st.files.lookup a.uuid = none) (hdb : a.dbFault = false)
    (hfile : a.fileFault = false) (hshot : shot ≠ []) :
    exists r, r ∈ (st.persistBugReport a disk db u d deviceName text shot).table.rows ∧
      r.username = u ∧
      (content (st.persistBugReport a disk db u d deviceName text shot).files r).screenshot =
        some shot := by
  have hempty : shot.isEmpty = false := by
    cases shot with
    | nil => exact absurd rfl hshot
    | cons byte rest => rfl
  have hreports : (st.persistBugReport a disk db u d deviceName text shot).reports =
      st.reports ++
        [{ username := u, deviceId := d, deviceName := storedName deviceName d db, text := text
           screenshot := some shot }] := by
    have hlookup : (some a.uuid).bind (st.write a.uuid shot).files.lookup = some shot :=
      AList.lookup_insert st.files
    simp only [persistBugReport, hempty, hfile, Bool.false_eq_true, if_false]
    rw [reports_insertRow, hdb, reports_write hfree, hlookup]
    rfl
  have hnew : exists report,
      report ∈ (st.persistBugReport a disk db u d deviceName text shot).reports ∧
        report.username = u ∧ report.screenshot = some shot := by
    rw [hreports]
    exact ⟨_, List.mem_append_right _ (List.mem_singleton.mpr rfl), rfl, rfl⟩
  rcases hnew with ⟨report, hmem, husername, hscreenshot⟩
  rcases List.mem_map.mp hmem with ⟨r, hr, rfl⟩
  exact ⟨r, hr, husername, hscreenshot⟩

theorem extends_insertRow {path : Option Uuid}
    (hpath : forall name, path = some name -> (st.files.lookup name).isSome) :
    st.Extends (st.insertRow a disk db u d deviceName text path hpath) := by
  unfold insertRow
  by_cases hfault : a.dbFault = true
  · rw [if_pos hfault]
    exact Extends.refl st
  · rw [if_neg hfault]
    cases deviceName with
    | none => exact extends_insert hpath
    | some name => exact extends_insert hpath

theorem extends_persist (hfree : st.files.lookup a.uuid = none) :
    st.Extends (st.persistBugReport a disk db u d deviceName text shot) := by
  unfold persistBugReport
  by_cases hempty : shot.isEmpty = true
  · rw [if_pos hempty]
    exact extends_insertRow st.no_path
  · rw [if_neg hempty]
    by_cases hfault : a.fileFault = true
    · rw [if_pos hfault]
      cases disk.torn with
      | none => exact extends_insertRow st.no_path
      | some bytes => exact (extends_write hfree).trans (extends_insertRow (st.write _ _).no_path)
    · rw [if_neg hfault]
      exact (extends_write hfree).trans (extends_insertRow (st.written a.uuid shot))

end

end ReportStore

/-!
## The endpoints
-/

def clampLimit (requested : Option Nat) : Nat :=
  min (max (requested.getD 50) 1) 500

/-- A listed report; the account and the path are left out. -/
structure BugReportView where
  id : Nat
  deviceId : String
  deviceName : Option String
  text : String
  createdAt : String
  appVersion : Option String
  hasScreenshot : Bool

def ReportRow.view (r : ReportRow) : BugReportView where
  id := r.id
  deviceId := r.deviceId
  deviceName := r.deviceName
  text := r.text
  createdAt := r.createdAt
  appVersion := r.appVersion
  hasScreenshot := r.screenshotPath.isSome

inductive Response where
  | refused (code : StatusCode)
  | notFound
  | internalServerError
  | json (reports : List BugReportView)
  | png (bytes : Bytes)

/-- `GET /bug-reports`. -/
def listBugReportsHandler (bearer : Except StatusCode String) (requested : Option Nat)
    (dbFault : Bool) (st : ReportStore) : Response :=
  match bearer with
  | .error code => .refused code
  | .ok username =>
      if dbFault then .internalServerError
      else .json ((st.table.listBugReports username (clampLimit requested)).map ReportRow.view)

/-- `GET /bug-reports/{id}/screenshot`: the path is taken from the row, and the file may be
read later than the row. -/
def bugReportScreenshotHandler (bearer : Except StatusCode String) (id : Int)
    (dbFault fileFault : Bool) (st later : ReportStore) : Response :=
  match bearer with
  | .error code => .refused code
  | .ok username =>
      if dbFault then .internalServerError
      else
        match st.table.getBugReport username id with
        | none => .notFound
        | some report =>
            match report.screenshotPath with
            | none => .notFound
            | some path =>
                if fileFault then .notFound
                else
                  match later.files.lookup path with
                  | none => .notFound
                  | some bytes => .png bytes

def BugReportView.shown (v : BugReportView) : String × Option String × String × Bool :=
  (v.deviceId, v.deviceName, v.text, v.hasScreenshot)

def BugReport.shown (r : BugReport) : String × Option String × String × Bool :=
  (r.deviceId, r.deviceName, r.text, r.screenshot.isSome)

section

variable {st : ReportStore} {u : String} {requested : Option Nat} {id : Int} {bytes : Bytes}

theorem clampLimit_lt (requested : Option Nat) : clampLimit requested < 0x8000000000000000 := by
  unfold clampLimit
  omega

theorem shown_view {r : ReportRow} (hr : r ∈ st.table.rows) :
    r.view.shown = (ReportStore.content st.files r).shown := by
  have hsome : r.screenshotPath.isSome = (r.screenshotPath.bind st.files.lookup).isSome := by
    cases hpath : r.screenshotPath with
    | none => rfl
    | some name => exact (st.present r hr name hpath).symm
  unfold BugReportView.shown BugReport.shown ReportRow.view ReportStore.content
  rw [hsome]

theorem filter_reports (st : ReportStore) (u : String) :
    (st.reports.filter fun r => r.username = u) =
      (st.table.rows.filter fun r => r.username = u).map (ReportStore.content st.files) := by
  unfold ReportStore.reports
  rw [List.filter_map]
  rfl

theorem listing_eq (st : ReportStore) (u : String) (requested : Option Nat) :
    exists views, listBugReportsHandler (.ok u) requested false st = .json views ∧
      views.map BugReportView.shown =
        (((st.reports.filter fun r => r.username = u).reverse.take
          (clampLimit requested)).map BugReport.shown) ∧
      views.Pairwise fun v v' => v'.id < v.id := by
  refine ⟨_, rfl, ?_, ?_⟩
  · rw [ReportTable.listBugReports_eq (clampLimit_lt requested), filter_reports, ← List.map_reverse,
      ← List.map_take, List.map_map, List.map_map]
    refine List.map_congr_left fun r hr => shown_view ?_
    exact (List.mem_filter.mp (List.mem_reverse.mp (List.mem_of_mem_take hr))).1
  · rw [ReportTable.listBugReports_eq (clampLimit_lt requested), List.pairwise_map]
    exact (List.pairwise_reverse.mpr (st.table.ascending.filter _)).sublist
      (List.take_sublist _ _)

theorem png_clean {bearer : Except StatusCode String} {dbFault fileFault : Bool}
    {later : ReportStore}
    (h : bugReportScreenshotHandler bearer id dbFault fileFault st later = .png bytes) :
    dbFault = false ∧ fileFault = false := by
  cases bearer with
  | error code => cases h
  | ok u =>
      cases dbFault with
      | true => cases h
      | false =>
          cases fileFault with
          | false => exact ⟨rfl, rfl⟩
          | true =>
              simp only [bugReportScreenshotHandler, Bool.false_eq_true, if_false, if_true] at h
              split at h
              · cases h
              · split at h <;> cases h

theorem screenshot_eq_png {later : ReportStore} (hlater : st.Extends later) :
    bugReportScreenshotHandler (.ok u) id false false st later = .png bytes <->
      exists r, r ∈ st.table.rows ∧ (r.id : Int) = id ∧ r.username = u ∧
        (ReportStore.content st.files r).screenshot = some bytes := by
  simp only [bugReportScreenshotHandler, Bool.false_eq_true, if_false]
  constructor
  · intro h
    cases hrow : st.table.getBugReport u id with
    | none => simp [hrow] at h
    | some r =>
        rcases ReportTable.getBugReport_eq_some.mp hrow with ⟨hr, hid, hu⟩
        refine ⟨r, hr, hid, hu, ?_⟩
        cases hpath : r.screenshotPath with
        | none => simp [hrow, hpath] at h
        | some name =>
            rcases Option.isSome_iff_exists.mp (st.present r hr name hpath) with ⟨found, hfile⟩
            simp only [hrow, hpath, hlater.files name found hfile, Response.png.injEq] at h
            subst h
            simp [ReportStore.content, hpath, hfile]
  · rintro ⟨r, hr, hid, hu, hshot⟩
    rcases Option.bind_eq_some_iff.mp hshot with ⟨name, hpath, hfile⟩
    simp [ReportTable.getBugReport_eq_some.mpr ⟨hr, hid, hu⟩, hpath,
      hlater.files name bytes hfile]

end

end CommandRelay
