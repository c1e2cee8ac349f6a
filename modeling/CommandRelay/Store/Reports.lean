import Mathlib.Data.List.Sort
import CommandRelay.Store.Database

/-!
# Stored bug reports

The table of bug reports with its growing ids, and the directory its screenshots are
written to.  A row names its screenshot by path, so the two are kept together: no row
names a file that is not there.
-/

namespace CommandRelay

open Foundation

/-- A row of `bug_reports`.  A screenshot lies under `<data_dir>/bug-reports/`, so its path
is kept as the UUID in its name. -/
structure ReportRow where
  id : Nat
  username : String
  deviceId : String
  deviceName : Option String
  text : String
  screenshotPath : Option Uuid
  appVersion : Option String
  createdAt : String

/-- The table: `AUTOINCREMENT` gives ids that grow, and none of them twice. -/
structure ReportTable where
  rows : List ReportRow
  sequence : Nat
  ascending : rows.Pairwise fun r r' => r.id < r'.id
  bounded : forall r, r ∈ rows -> r.id ≤ sequence

namespace ReportTable

def empty : ReportTable where
  rows := []
  sequence := 0
  ascending := List.Pairwise.nil
  bounded := fun _ h => absurd h List.not_mem_nil

/-- `insert_bug_report_row`. -/
def insertBugReportRow (username deviceId : String) (deviceName : Option String)
    (text : String) (screenshotPath : Option Uuid) (appVersion : Option String)
    (stamp : String) (t : ReportTable) : ReportTable where
  rows := t.rows ++
    [{ id := t.sequence + 1, username := username, deviceId := deviceId,
       deviceName := deviceName, text := text, screenshotPath := screenshotPath,
       appVersion := appVersion, createdAt := stamp }]
  sequence := t.sequence + 1
  ascending := List.pairwise_append.mpr
    ⟨t.ascending, List.pairwise_singleton _ _, fun r hr _ hnew =>
      List.mem_singleton.mp hnew ▸ Nat.lt_succ_of_le (t.bounded r hr)⟩
  bounded := fun r hr => (List.mem_append.mp hr).elim
    (fun hold => Nat.le_succ_of_le (t.bounded r hold))
    (fun hnew => List.mem_singleton.mp hnew ▸ Nat.le_refl _)

/-- `LIMIT` of an unsigned count that is cast to `i64`: a negative limit is none. -/
def sqlLimit (limit : Nat) (rows : List ReportRow) : List ReportRow :=
  if limit % 0x10000000000000000 < 0x8000000000000000 then
    rows.take (limit % 0x10000000000000000)
  else rows

/-- `list_bug_reports`: `WHERE username = ?1 ORDER BY id DESC LIMIT ?2`. -/
def listBugReports (username : String) (limit : Nat) (t : ReportTable) : List ReportRow :=
  sqlLimit limit
    ((t.rows.filter fun r => r.username = username).insertionSort fun r r' => r'.id ≤ r.id)

/-- `get_bug_report`: `WHERE id = ?1 AND username = ?2`. -/
def getBugReport (username : String) (id : Int) (t : ReportTable) : Option ReportRow :=
  t.rows.find? fun r => (r.id : Int) = id && r.username = username

section

variable {t : ReportTable} {u : String} {r r' : ReportRow}

theorem eq_of_id (hr : r ∈ t.rows) (hr' : r' ∈ t.rows) (hid : r.id = r'.id) : r = r' := by
  have hdistinct : (t.rows.map ReportRow.id).Nodup :=
    List.pairwise_map.mpr (t.ascending.imp fun hlt => Nat.ne_of_lt hlt)
  exact List.inj_on_of_nodup_map hdistinct hr hr' hid

theorem insertionSort_filter (t : ReportTable) (p : ReportRow -> Bool) :
    ((t.rows.filter p).insertionSort fun r r' => r'.id ≤ r.id) = (t.rows.filter p).reverse := by
  have hsorted : (t.rows.filter p).reverse.Pairwise fun r r' => r'.id ≤ r.id :=
    List.pairwise_reverse.mpr ((t.ascending.filter p).imp Nat.le_of_lt)
  have htotal : Std.Total fun r r' : ReportRow => r'.id ≤ r.id :=
    ⟨fun r r' => Nat.le_total r'.id r.id⟩
  have htrans : IsTrans ReportRow fun r r' => r'.id ≤ r.id :=
    ⟨fun _ _ _ h h' => Nat.le_trans h' h⟩
  refine List.Perm.eq_of_pairwise ?_ (List.pairwise_insertionSort _ _) hsorted
    ((List.perm_insertionSort _ _).trans (List.reverse_perm _).symm)
  intro r r' hr hr' hle hle'
  have hmem := (List.mem_insertionSort _).mp hr
  exact eq_of_id (List.mem_filter.mp hmem).1
    (List.mem_filter.mp (List.mem_reverse.mp hr')).1 (Nat.le_antisymm hle' hle)

theorem listBugReports_eq {limit : Nat} (hlimit : limit < 0x8000000000000000) :
    t.listBugReports u limit = (t.rows.filter fun r => r.username = u).reverse.take limit := by
  have hmod : limit % 0x10000000000000000 = limit := Nat.mod_eq_of_lt (by omega)
  unfold listBugReports sqlLimit
  rw [hmod, if_pos hlimit, insertionSort_filter]

theorem getBugReport_eq_some {id : Int} :
    t.getBugReport u id = some r <-> r ∈ t.rows ∧ (r.id : Int) = id ∧ r.username = u := by
  unfold getBugReport
  constructor
  · intro h
    have hpasses := List.find?_some h
    rw [Bool.and_eq_true, decide_eq_true_eq, decide_eq_true_eq] at hpasses
    exact ⟨List.mem_of_find?_eq_some h, hpasses⟩
  · rintro ⟨hmem, hid, hu⟩
    cases hfound : t.rows.find? fun r => (r.id : Int) = id && r.username = u with
    | none =>
        have hnot := List.find?_eq_none.mp hfound r hmem
        simp [hid, hu] at hnot
    | some r' =>
        have hpasses := List.find?_some hfound
        rw [Bool.and_eq_true, decide_eq_true_eq] at hpasses
        have hsame : r' = r := eq_of_id (List.mem_of_find?_eq_some hfound) hmem
          (Int.ofNat.inj (hpasses.1.trans hid.symm))
        rw [hsame]

theorem getBugReport_foreign (hr : r ∈ t.rows) (hne : r.username ≠ u) :
    t.getBugReport u r.id = none := by
  cases hfound : t.getBugReport u r.id with
  | none => rfl
  | some r' =>
      rcases getBugReport_eq_some.mp hfound with ⟨hr', hid, hu⟩
      rw [eq_of_id hr' hr (Int.ofNat.inj hid)] at hu
      exact absurd hu hne

end

end ReportTable

/-!
## Screenshots
-/

/-- The table and the screenshot files, by the names of the files. -/
structure ReportStore where
  table : ReportTable
  files : Table Uuid Bytes
  present : forall r, r ∈ table.rows -> forall name, r.screenshotPath = some name ->
    (files.lookup name).isSome

namespace ReportStore

def empty : ReportStore where
  table := ReportTable.empty
  files := ∅
  present := fun _ h => absurd h List.not_mem_nil

theorem isSome_insert {files : Table Uuid Bytes} {name name' : Uuid} {bytes : Bytes}
    (h : (files.lookup name').isSome) : ((files.insert name bytes).lookup name').isSome := by
  rw [Table.lookup_insert_of_eq]
  by_cases heq : name' = name
  · rw [if_pos heq]
    rfl
  · rw [if_neg heq]
    exact h

def write (name : Uuid) (bytes : Bytes) (st : ReportStore) : ReportStore where
  table := st.table
  files := st.files.insert name bytes
  present := fun r hr name' hname => isSome_insert (st.present r hr name' hname)

/-- `insert_bug_report_with_device_name`: the screenshot of the row, if any, is there. -/
def insertBugReportWithDeviceName (username deviceId : String) (deviceName : Option String)
    (text : String) (screenshotPath : Option Uuid) (stamp : String) (st : ReportStore)
    (hpath : forall name, screenshotPath = some name -> (st.files.lookup name).isSome) :
    ReportStore where
  table :=
    st.table.insertBugReportRow username deviceId deviceName text screenshotPath none stamp
  files := st.files
  present := by
    intro r hr name hname
    rcases List.mem_append.mp hr with hold | hnew
    · exact st.present r hold name hname
    · rw [List.mem_singleton.mp hnew] at hname
      exact hpath name hname

/-- `insert_bug_report`: the name of the device is looked up. -/
def insertBugReport (username deviceId text : String) (screenshotPath : Option Uuid)
    (stamp : String) (db : Database) (st : ReportStore)
    (hpath : forall name, screenshotPath = some name -> (st.files.lookup name).isSome) :
    ReportStore :=
  st.insertBugReportWithDeviceName username deviceId
    (((Database.deviceKey deviceId).bind db.devices.lookup).map Device.name) text
    screenshotPath stamp hpath

def content (files : Table Uuid Bytes) (r : ReportRow) : BugReport where
  username := r.username
  deviceId := r.deviceId
  deviceName := r.deviceName
  text := r.text
  screenshot := r.screenshotPath.bind files.lookup

def reports (st : ReportStore) : List BugReport :=
  st.table.rows.map (content st.files)

section

variable {st : ReportStore} {name : Uuid} {bytes : Bytes}

theorem not_named_of_free (hfree : st.files.lookup name = none) {r : ReportRow}
    (hr : r ∈ st.table.rows) : r.screenshotPath ≠ some name := by
  intro hname
  have hpresent := st.present r hr name hname
  rw [hfree] at hpresent
  cases hpresent

theorem reports_write (hfree : st.files.lookup name = none) :
    (st.write name bytes).reports = st.reports := by
  refine List.map_congr_left fun r hr => ?_
  have hnot := not_named_of_free hfree hr
  have hsame : r.screenshotPath.bind (st.files.insert name bytes).lookup =
      r.screenshotPath.bind st.files.lookup := by
    cases hpath : r.screenshotPath with
    | none => rfl
    | some other =>
        have hne : other ≠ name := fun heq => hnot (hpath.trans (congrArg some heq))
        exact AList.lookup_insert_ne hne
  unfold content
  rw [← hsame]
  rfl

theorem reports_insert {u d : String} {deviceName : Option String} {text stamp : String}
    {path : Option Uuid}
    (hpath : forall name, path = some name -> (st.files.lookup name).isSome) :
    (st.insertBugReportWithDeviceName u d deviceName text path stamp hpath).reports =
      st.reports ++
        [{ username := u, deviceId := d, deviceName := deviceName, text := text,
           screenshot := path.bind st.files.lookup }] :=
  List.map_append

end

/-!
## Stores that only grow
-/

/-- Rows are added at the end, and files under new names. -/
structure Extends (st st' : ReportStore) : Prop where
  rows : st.table.rows <+: st'.table.rows
  files : forall name bytes, st.files.lookup name = some bytes ->
    st'.files.lookup name = some bytes

section

variable {st st' st'' : ReportStore} {name : Uuid} {bytes : Bytes} {r : ReportRow}

theorem Extends.refl (st : ReportStore) : Extends st st where
  rows := List.prefix_refl _
  files := fun _ _ h => h

theorem Extends.trans (h : Extends st st') (h' : Extends st' st'') : Extends st st'' where
  rows := h.rows.trans h'.rows
  files := fun name bytes hfile => h'.files name bytes (h.files name bytes hfile)

theorem Extends.mem (h : Extends st st') (hr : r ∈ st.table.rows) : r ∈ st'.table.rows :=
  h.rows.subset hr

theorem extends_write (hfree : st.files.lookup name = none) : Extends st (st.write name bytes) where
  rows := List.prefix_refl _
  files := fun other found hfile => by
    have hne : other ≠ name := by
      rintro rfl
      rw [hfree] at hfile
      cases hfile
    exact (AList.lookup_insert_ne hne).trans hfile

theorem extends_insert {u d : String} {deviceName : Option String} {text stamp : String}
    {path : Option Uuid}
    (hpath : forall name, path = some name -> (st.files.lookup name).isSome) :
    Extends st (st.insertBugReportWithDeviceName u d deviceName text path stamp hpath) where
  rows := List.prefix_append _ _
  files := fun _ _ h => h

theorem Extends.content (h : Extends st st') (hr : r ∈ st.table.rows) :
    content st'.files r = content st.files r := by
  have hsame : r.screenshotPath.bind st'.files.lookup = r.screenshotPath.bind st.files.lookup := by
    cases hpath : r.screenshotPath with
    | none => rfl
    | some name =>
        rcases Option.isSome_iff_exists.mp (st.present r hr name hpath) with ⟨bytes, hfile⟩
        exact (h.files name bytes hfile).trans hfile.symm
  unfold ReportStore.content
  rw [hsame]

end

end ReportStore

end CommandRelay
