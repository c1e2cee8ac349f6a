import CommandRelay.Foundation.KeyedTable
import CommandRelay.Wire.BinaryFrame

/-!
# The database

The tables the relay reads and writes, with their primary keys and their foreign
keys (`ON DELETE CASCADE`).  Device rows are only ever inserted under a fresh
UUID, so their keys are UUIDs.
-/

namespace CommandRelay

open Foundation

/-- The text of a UUID, as `Uuid::new_v4().to_string()` writes it. -/
structure Uuid where
  text : String
  length_eq : text.length = 36
  deriving DecidableEq

structure Account where
  passwordHash : String
  totpSecretEncrypted : Option Bytes
  totpNonce : Option Bytes

structure Device where
  username : String
  name : String
  lastIp : Option String

structure PushSubscription where
  username : String
  subscriptionJson : String

/-- A bug report; the screenshot stands for the file its path names. -/
structure BugReport where
  username : String
  deviceId : String
  deviceName : Option String
  text : String
  screenshot : Option Bytes

inductive DbError where
  | sqlite
  | accountNotFound (username : String)
  | accountExists (username : String)
  | deviceNotFound (deviceId : String)

structure Database where
  accounts : Table String Account
  devices : Table Uuid Device
  pushSubscriptions : Table Uuid PushSubscription
  config : Table String String
  bugReports : List BugReport

namespace Database

def empty : Database where
  accounts := ∅
  devices := ∅
  pushSubscriptions := ∅
  config := ∅
  bugReports := []

/-!
## Accounts
-/

def createAccount (username : String) (account : Account) (db : Database) :
    Except DbError Database :=
  if (db.accounts.lookup username).isSome then .error (.accountExists username)
  else .ok { db with accounts := db.accounts.insert username account }

def getAccount (username : String) (db : Database) : Except DbError Account :=
  match db.accounts.lookup username with
  | none => .error (.accountNotFound username)
  | some account => .ok account

/-- Removing an account removes its devices and its subscriptions, and the
subscriptions of the devices it removes. -/
def removeAccount (username : String) (db : Database) : Except DbError Database :=
  if (db.accounts.lookup username).isNone then .error (.accountNotFound username)
  else
    let devices := db.devices.retain fun d => !decide (d.username = username)
    .ok
      { db with
        accounts := db.accounts.erase username
        devices := devices
        pushSubscriptions :=
          { entries := db.pushSubscriptions.entries.filter fun e =>
              !decide (e.2.username = username) && (devices.lookup e.1).isSome
            nodupKeys := db.pushSubscriptions.nodupKeys.sublist List.filter_sublist } }

/-!
## Devices
-/

def deviceKey (deviceId : String) : Option Uuid :=
  if h : deviceId.length = 36 then some ⟨deviceId, h⟩ else none

def addDevice (id : Uuid) (username name : String) (ip : Option String)
    (db : Database) : Except DbError Database :=
  if (db.devices.lookup id).isSome || (db.accounts.lookup username).isNone then
    .error .sqlite
  else
    .ok
      { db with
        devices := db.devices.insert id
          { username := username, name := name, lastIp := ip } }

def getDevice (deviceId : String) (db : Database) : Except DbError Device :=
  match (deviceKey deviceId).bind db.devices.lookup with
  | none => .error (.deviceNotFound deviceId)
  | some device => .ok device

def removeDevice (deviceId : String) (db : Database) : Except DbError Database :=
  match deviceKey deviceId with
  | none => .error (.deviceNotFound deviceId)
  | some id =>
      if (db.devices.lookup id).isNone then .error (.deviceNotFound deviceId)
      else
        .ok
          { db with
            devices := db.devices.erase id
            pushSubscriptions := db.pushSubscriptions.erase id }

def updateDeviceLastSeen (deviceId ip : String) (db : Database) : Database :=
  match deviceKey deviceId with
  | none => db
  | some id =>
      { db with
        devices := db.devices.modify id fun d => { d with lastIp := some ip } }

/-!
## Push subscriptions
-/

def upsertPushSubscription (deviceId username json : String) (db : Database) :
    Except DbError Database :=
  match deviceKey deviceId with
  | none => .error .sqlite
  | some id =>
      match db.pushSubscriptions.lookup id with
      | some row =>
          .ok
            { db with
              pushSubscriptions := db.pushSubscriptions.insert id
                { row with subscriptionJson := json } }
      | none =>
          if (db.devices.lookup id).isNone || (db.accounts.lookup username).isNone then
            .error .sqlite
          else
            .ok
              { db with
                pushSubscriptions := db.pushSubscriptions.insert id
                  { username := username, subscriptionJson := json } }

def removePushSubscription (deviceId : String) (db : Database) : Database :=
  match deviceKey deviceId with
  | none => db
  | some id => { db with pushSubscriptions := db.pushSubscriptions.erase id }

def listPushSubscriptions (username : String) (db : Database) : List (String × String) :=
  (db.pushSubscriptions.entries.filter fun e => decide (e.2.username = username)).map
    fun e => (e.1.text, e.2.subscriptionJson)

def subscription? (deviceId : String) (db : Database) : Option PushSubscription :=
  (deviceKey deviceId).bind db.pushSubscriptions.lookup

/-!
## Configuration and bug reports
-/

def getConfig (key : String) (db : Database) : Option String :=
  db.config.lookup key

def setConfig (key value : String) (db : Database) : Database :=
  { db with config := db.config.insert key value }

def insertBugReport (username deviceId : String) (deviceName : Option String)
    (text : String) (screenshot : Option Bytes) (db : Database) : Database :=
  let name :=
    match deviceName with
    | some given => some given
    | none => ((deviceKey deviceId).bind db.devices.lookup).map Device.name
  { db with
    bugReports := db.bugReports ++
      [{ username := username, deviceId := deviceId, deviceName := name, text := text,
         screenshot := screenshot }] }

/-!
## Updates that succeed
-/

section

variable {db db' : Database} {d u : String}

theorem deviceKey_eq_some {id : Uuid} : deviceKey d = some id <-> id.text = d := by
  unfold deviceKey
  by_cases h : d.length = 36
  · simp only [dif_pos h, Option.some.injEq]
    constructor
    · rintro rfl
      rfl
    · rintro rfl
      rfl
  · simp only [dif_neg h]
    constructor
    · intro hnone
      cases hnone
    · rintro rfl
      exact absurd id.length_eq h

theorem addDevice_eq_ok {id : Uuid} {name : String} {ip : Option String}
    (h : db.addDevice id u name ip = .ok db') :
    db.devices.lookup id = none ∧ (db.accounts.lookup u).isSome ∧
      db' =
        { db with
          devices := db.devices.insert id { username := u, name := name, lastIp := ip } } := by
  unfold addDevice at h
  split at h
  · cases h
  · rename_i hfree
    cases h
    rw [Bool.or_eq_true_iff, not_or, Option.not_isSome_iff_eq_none,
      Option.isNone_iff_eq_none] at hfree
    exact ⟨hfree.1, Option.ne_none_iff_isSome.mp hfree.2, rfl⟩

theorem removeDevice_eq_ok (h : db.removeDevice d = .ok db') :
    exists id, id.text = d ∧ (db.devices.lookup id).isSome ∧
      db' =
        { db with
          devices := db.devices.erase id
          pushSubscriptions := db.pushSubscriptions.erase id } := by
  unfold removeDevice at h
  split at h
  · cases h
  · rename_i id hkey
    split at h
    · cases h
    · rename_i hpresent
      cases h
      rw [Option.isNone_iff_eq_none] at hpresent
      exact ⟨id, deviceKey_eq_some.mp hkey, Option.ne_none_iff_isSome.mp hpresent, rfl⟩

theorem upsertPushSubscription_eq_ok {json : String}
    (h : db.upsertPushSubscription d u json = .ok db') :
    exists id new, id.text = d ∧
      db' = { db with pushSubscriptions := db.pushSubscriptions.insert id new } ∧
      ((exists old, db.pushSubscriptions.lookup id = some old ∧
          new = { old with subscriptionJson := json }) ∨
        db.pushSubscriptions.lookup id = none ∧ (db.devices.lookup id).isSome ∧
          (db.accounts.lookup u).isSome ∧
          new = { username := u, subscriptionJson := json }) := by
  unfold upsertPushSubscription at h
  split at h
  · cases h
  · rename_i id hkey
    have hid : id.text = d := deviceKey_eq_some.mp hkey
    split at h
    · rename_i old hold
      cases h
      exact ⟨id, _, hid, rfl, Or.inl ⟨old, hold, rfl⟩⟩
    · rename_i hnone
      split at h
      · cases h
      · rename_i hpresent
        cases h
        rw [Bool.or_eq_true_iff, not_or, Option.isNone_iff_eq_none,
          Option.isNone_iff_eq_none] at hpresent
        exact ⟨id, _, hid, rfl, Or.inr ⟨hnone, Option.ne_none_iff_isSome.mp hpresent.1,
          Option.ne_none_iff_isSome.mp hpresent.2, rfl⟩⟩

end

/-!
## Subscription rows

A row appears or changes only when its device stores a subscription.
-/

section

variable {db db' : Database} {d : String} {row : PushSubscription}

theorem subscription?_eq_some : db.subscription? d = some row <->
    exists id, id.text = d ∧ db.pushSubscriptions.lookup id = some row := by
  unfold subscription?
  rw [Option.bind_eq_some_iff]
  exact exists_congr fun id => and_congr deviceKey_eq_some Iff.rfl

theorem subscription?_of_listed {u json : String} (h : (d, json) ∈ db.listPushSubscriptions u) :
    exists row, db.subscription? d = some row ∧ row.subscriptionJson = json := by
  rcases List.mem_map.mp h with ⟨e, he, hentry⟩
  cases hentry
  have hmem := (List.mem_filter.mp he).1
  exact ⟨e.2, subscription?_eq_some.mpr ⟨e.1, rfl, AList.mem_lookup_iff.mpr hmem⟩, rfl⟩

theorem subscription?_removePushSubscription {i : String}
    (h : (db.removePushSubscription i).subscription? d = some row) :
    db.subscription? d = some row := by
  unfold removePushSubscription at h
  cases hkey : deviceKey i with
  | none =>
      rw [hkey] at h
      exact h
  | some id =>
      rw [hkey] at h
      rcases subscription?_eq_some.mp h with ⟨id', hid, hrow⟩
      exact subscription?_eq_some.mpr ⟨id', hid, (Table.lookup_erase_eq_some.mp hrow).2⟩

theorem subscription?_removeDevice {i : String} (hdb : db.removeDevice i = .ok db')
    (h : db'.subscription? d = some row) : db.subscription? d = some row := by
  rcases removeDevice_eq_ok hdb with ⟨id, _, _, rfl⟩
  rcases subscription?_eq_some.mp h with ⟨id', hid, hrow⟩
  exact subscription?_eq_some.mpr ⟨id', hid, (Table.lookup_erase_eq_some.mp hrow).2⟩

theorem subscription?_removeAccount {u : String} (hdb : db.removeAccount u = .ok db')
    (h : db'.subscription? d = some row) : db.subscription? d = some row := by
  unfold removeAccount at hdb
  by_cases habsent : (db.accounts.lookup u).isNone = true
  · simp only [if_pos habsent] at hdb
    cases hdb
  · simp only [if_neg habsent] at hdb
    cases hdb
    rcases subscription?_eq_some.mp h with ⟨id, hid, hrow⟩
    have hmem := AList.mem_lookup_iff.mp hrow
    exact subscription?_eq_some.mpr
      ⟨id, hid, AList.mem_lookup_iff.mpr (List.mem_filter.mp hmem).1⟩

theorem subscription?_upsertPushSubscription {i u json : String} (hne : i ≠ d)
    (hdb : db.upsertPushSubscription i u json = .ok db')
    (h : db'.subscription? d = some row) : db.subscription? d = some row := by
  rcases upsertPushSubscription_eq_ok hdb with ⟨id, new, hid, rfl, _⟩
  rcases subscription?_eq_some.mp h with ⟨id', hid', hrow⟩
  have hother : id' ≠ id := fun hsame => hne (hid.symm.trans (hsame ▸ hid'))
  exact subscription?_eq_some.mpr ⟨id', hid', (AList.lookup_insert_ne hother).symm.trans hrow⟩

theorem subscription?_addDevice {id : Uuid} {u name : String} {ip : Option String}
    (hdb : db.addDevice id u name ip = .ok db') : db'.subscription? d = db.subscription? d := by
  rcases addDevice_eq_ok hdb with ⟨_, _, rfl⟩
  rfl

theorem subscription?_updateDeviceLastSeen (i ip : String) :
    (db.updateDeviceLastSeen i ip).subscription? d = db.subscription? d := by
  unfold updateDeviceLastSeen
  cases deviceKey i <;> rfl

end

/-!
## Rows by account

An update leaves the rows of some accounts alone when the row it writes belongs to another.
-/

def device? (deviceId : String) (db : Database) : Option Device :=
  (deviceKey deviceId).bind db.devices.lookup

/-- The device and subscription rows of the accounts are the same. -/
structure SameRows (accounts : String -> Prop) (db db' : Database) : Prop where
  devices : forall id row, accounts row.username ->
    (db'.devices.lookup id = some row <-> db.devices.lookup id = some row)
  subscriptions : forall id row, accounts row.username ->
    (db'.pushSubscriptions.lookup id = some row <-> db.pushSubscriptions.lookup id = some row)

section

variable {accounts : String -> Prop} {db db' : Database} {d : String}

theorem SameRows.refl (accounts : String -> Prop) (db : Database) : SameRows accounts db db :=
  ⟨fun _ _ _ => Iff.rfl, fun _ _ _ => Iff.rfl⟩

theorem device?_eq_some {row : Device} : db.device? d = some row <->
    exists id, id.text = d ∧ db.devices.lookup id = some row := by
  unfold device?
  rw [Option.bind_eq_some_iff]
  exact exists_congr fun id => and_congr deviceKey_eq_some Iff.rfl

theorem device?_removeDevice {i : String} {row : Device}
    (hdb : db.removeDevice i = .ok db') (h : db'.device? d = some row) :
    db.device? d = some row := by
  rcases removeDevice_eq_ok hdb with ⟨id, _, _, rfl⟩
  rcases device?_eq_some.mp h with ⟨id', hid, hrow⟩
  exact device?_eq_some.mpr ⟨id', hid, (Table.lookup_erase_eq_some.mp hrow).2⟩

theorem device?_updateDeviceLastSeen {i ip : String} {row : Device}
    (h : (db.updateDeviceLastSeen i ip).device? d = some row) :
    exists old, db.device? d = some old ∧ old.username = row.username := by
  unfold updateDeviceLastSeen at h
  cases hkey : deviceKey i with
  | none =>
      rw [hkey] at h
      exact ⟨row, h, rfl⟩
  | some id =>
      rw [hkey] at h
      rcases device?_eq_some.mp h with ⟨id', hid, hrow⟩
      have hrow : (db.devices.modify id fun d => { d with lastIp := some ip }).lookup id' =
        some row := hrow
      by_cases hsame : id' = id
      · subst hsame
        rw [Table.lookup_modify_same] at hrow
        rcases Option.map_eq_some_iff.mp hrow with ⟨old, hold, rfl⟩
        exact ⟨old, device?_eq_some.mpr ⟨id', hid, hold⟩, rfl⟩
      · rw [Table.lookup_modify_ne _ _ hsame] at hrow
        exact ⟨row, device?_eq_some.mpr ⟨id', hid, hrow⟩, rfl⟩

theorem device?_addDevice {id : Uuid} {u name : String}
    {ip : Option String} {row : Device} (hdb : db.addDevice id u name ip = .ok db')
    (h : db'.device? d = some row) :
    db.device? d = some row ∨ d = id.text ∧ row.username = u := by
  rcases addDevice_eq_ok hdb with ⟨_, _, rfl⟩
  rcases device?_eq_some.mp h with ⟨id', hid, hrow⟩
  have hrow : (db.devices.insert id _).lookup id' = some row := hrow
  by_cases hsame : id' = id
  · subst hsame
    rw [AList.lookup_insert, Option.some.injEq] at hrow
    exact Or.inr ⟨hid.symm, by rw [← hrow]⟩
  · rw [AList.lookup_insert_ne hsame] at hrow
    exact Or.inl (device?_eq_some.mpr ⟨id', hid, hrow⟩)

theorem device?_removeAccount {u : String} {row : Device} (hdb : db.removeAccount u = .ok db')
    (h : db'.device? d = some row) : db.device? d = some row ∧ row.username ≠ u := by
  unfold removeAccount at hdb
  by_cases habsent : (db.accounts.lookup u).isNone = true
  · simp only [if_pos habsent] at hdb
    cases hdb
  · simp only [if_neg habsent] at hdb
    cases hdb
    rcases device?_eq_some.mp h with ⟨id, hid, hrow⟩
    have hrow : (db.devices.retain fun d => !decide (d.username = u)).lookup id = some row := hrow
    rw [Table.lookup_retain_eq_some] at hrow
    exact ⟨device?_eq_some.mpr ⟨id, hid, hrow.1⟩, by simpa using hrow.2⟩

theorem subscription_of_upsert {i u json : String} {row : PushSubscription}
    (hdb : db.upsertPushSubscription i u json = .ok db') (h : db'.subscription? d = some row) :
    (exists old, db.subscription? d = some old ∧ old.username = row.username) ∨
      d = i ∧ row.username = u := by
  rcases upsertPushSubscription_eq_ok hdb with ⟨id, new, hid, rfl, hnew⟩
  rcases subscription?_eq_some.mp h with ⟨id', hid', hrow⟩
  have hrow : (db.pushSubscriptions.insert id new).lookup id' = some row := hrow
  by_cases hsame : id' = id
  · subst hsame
    rw [AList.lookup_insert, Option.some.injEq] at hrow
    subst hrow
    rcases hnew with ⟨old, hold, rfl⟩ | ⟨_, _, _, rfl⟩
    · exact Or.inl ⟨old, subscription?_eq_some.mpr ⟨id', hid', hold⟩, rfl⟩
    · exact Or.inr ⟨hid'.symm.trans hid, rfl⟩
  · rw [AList.lookup_insert_ne hsame] at hrow
    exact Or.inl ⟨row, subscription?_eq_some.mpr ⟨id', hid', hrow⟩, rfl⟩

theorem device?_upsertPushSubscription {i u json : String}
    (hdb : db.upsertPushSubscription i u json = .ok db') : db'.device? d = db.device? d := by
  rcases upsertPushSubscription_eq_ok hdb with ⟨_, _, _, rfl, _⟩
  rfl

theorem device?_removePushSubscription (i : String) :
    (db.removePushSubscription i).device? d = db.device? d := by
  unfold removePushSubscription
  cases deviceKey i <;> rfl

theorem lookup_erase_other {row : Type} {table : Table Uuid row} {id : Uuid} {q : row -> Prop}
    (h : forall r, table.lookup id = some r -> ¬ q r) (k : Uuid) (r : row) (hr : q r) :
    (table.erase id).lookup k = some r <-> table.lookup k = some r := by
  rw [Table.lookup_erase_eq_some]
  constructor
  · exact fun hboth => hboth.2
  · intro hrow
    refine ⟨?_, hrow⟩
    rintro rfl
    exact h r hrow hr

theorem lookup_insert_other {row : Type} {table : Table Uuid row} {id : Uuid} {new : row}
    {q : row -> Prop} (hnew : ¬ q new) (h : forall r, table.lookup id = some r -> ¬ q r)
    (k : Uuid) (r : row) (hr : q r) :
    (table.insert id new).lookup k = some r <-> table.lookup k = some r := by
  by_cases hk : k = id
  · subst hk
    rw [AList.lookup_insert]
    constructor
    · intro heq
      exact absurd (Option.some.inj heq ▸ hr) hnew
    · intro heq
      exact absurd hr (h r heq)
  · rw [AList.lookup_insert_ne hk]

theorem sameRows_addDevice {id : Uuid} {u name : String} {ip : Option String}
    (hu : ¬ accounts u) (hdb : db.addDevice id u name ip = .ok db') : SameRows accounts db db' := by
  rcases addDevice_eq_ok hdb with ⟨hfree, _, rfl⟩
  refine ⟨fun k row hrow => ?_, fun _ _ _ => Iff.rfl⟩
  refine lookup_insert_other (q := fun r : Device => accounts r.username) hu ?_ k row hrow
  intro r hr
  rw [hfree] at hr
  cases hr

theorem sameRows_updateDeviceLastSeen {ip : String}
    (h : forall row, db.device? d = some row -> ¬ accounts row.username) :
    SameRows accounts db (db.updateDeviceLastSeen d ip) := by
  unfold updateDeviceLastSeen
  cases hkey : deviceKey d with
  | none => exact SameRows.refl accounts db
  | some id =>
      refine ⟨fun k row hrow => ?_, fun _ _ _ => Iff.rfl⟩
      have hid := deviceKey_eq_some.mp hkey
      by_cases hk : k = id
      · subst hk
        show (db.devices.modify k _).lookup k = some row <-> _
        rw [Table.lookup_modify_same]
        constructor
        · intro hafter
          rcases Option.map_eq_some_iff.mp hafter with ⟨old, hold, rfl⟩
          exact absurd hrow (h old (device?_eq_some.mpr ⟨k, hid, hold⟩))
        · intro hbefore
          exact absurd hrow (h row (device?_eq_some.mpr ⟨k, hid, hbefore⟩))
      · show (db.devices.modify id _).lookup k = some row <-> _
        rw [Table.lookup_modify_ne _ _ hk]

theorem sameRows_removeDevice
    (hdevice : forall row, db.device? d = some row -> ¬ accounts row.username)
    (hsubscription : forall row, db.subscription? d = some row -> ¬ accounts row.username)
    (hdb : db.removeDevice d = .ok db') : SameRows accounts db db' := by
  rcases removeDevice_eq_ok hdb with ⟨id, hid, _, rfl⟩
  constructor
  · exact lookup_erase_other fun r hr => hdevice r (device?_eq_some.mpr ⟨id, hid, hr⟩)
  · exact lookup_erase_other fun r hr =>
      hsubscription r (subscription?_eq_some.mpr ⟨id, hid, hr⟩)

theorem sameRows_removePushSubscription
    (h : forall row, db.subscription? d = some row -> ¬ accounts row.username) :
    SameRows accounts db (db.removePushSubscription d) := by
  unfold removePushSubscription
  cases hkey : deviceKey d with
  | none => exact SameRows.refl accounts db
  | some id =>
      have hid := deviceKey_eq_some.mp hkey
      exact ⟨fun _ _ _ => Iff.rfl, lookup_erase_other fun r hr =>
        h r (subscription?_eq_some.mpr ⟨id, hid, hr⟩)⟩

theorem sameRows_upsertPushSubscription {u json : String} (hu : ¬ accounts u)
    (h : forall row, db.subscription? d = some row -> ¬ accounts row.username)
    (hdb : db.upsertPushSubscription d u json = .ok db') : SameRows accounts db db' := by
  rcases upsertPushSubscription_eq_ok hdb with ⟨id, new, hid, rfl, hnew⟩
  have hother : forall r, db.pushSubscriptions.lookup id = some r -> ¬ accounts r.username :=
    fun r hr => h r (subscription?_eq_some.mpr ⟨id, hid, hr⟩)
  have hwritten : ¬ accounts new.username := by
    rcases hnew with ⟨old, hold, rfl⟩ | ⟨_, _, _, rfl⟩
    · exact hother old hold
    · exact hu
  exact ⟨fun _ _ _ => Iff.rfl, lookup_insert_other
    (q := fun r : PushSubscription => accounts r.username) hwritten hother⟩

end

end Database

end CommandRelay
