import CommandRelay.Server.Approvals
import CommandRelay.Server.Authentication
import CommandRelay.Server.Ownership

/-!
# Credentials of removed accounts

What is left of an account when it is removed, and which credentials count after it is
created anew.
-/

namespace CommandRelay

open Foundation

/-!
## Accounts and keys
-/

namespace Database

/-- Devices and desktop keys belong to accounts that exist. -/
structure Rooted (db : Database) : Prop where
  devices : forall {d row}, db.device? d = some row -> (db.accounts.lookup row.username).isSome
  keys : forall {u key}, db.getConfig (desktopKeyEntry u) = some key ->
    (db.accounts.lookup u).isSome

theorem desktopKeyEntry_inj {u v : String} (h : desktopKeyEntry u = desktopKeyEntry v) :
    u = v := by
  have hlist := congrArg String.toList h
  simp only [desktopKeyEntry, String.toList_append] at hlist
  exact String.toList_injective (List.append_cancel_left hlist)

def SameAccounts (db db' : Database) : Prop :=
  db'.accounts = db.accounts ∧ db'.config = db.config

section

variable {db db' : Database} {d u : String}

theorem sameAccounts_addDevice {id : Uuid} {name : String} {ip : Option String}
    (h : db.addDevice id u name ip = .ok db') :
    db.SameAccounts db' ∧ (db.accounts.lookup u).isSome := by
  rcases addDevice_eq_ok h with ⟨_, hexists, rfl⟩
  exact ⟨⟨rfl, rfl⟩, hexists⟩

theorem sameAccounts_removeDevice (h : db.removeDevice d = .ok db') : db.SameAccounts db' := by
  rcases removeDevice_eq_ok h with ⟨_, _, _, rfl⟩
  exact ⟨rfl, rfl⟩

theorem sameAccounts_updateDeviceLastSeen (ip : String) :
    db.SameAccounts (db.updateDeviceLastSeen d ip) := by
  unfold updateDeviceLastSeen
  split <;> exact ⟨rfl, rfl⟩

theorem sameAccounts_upsertPushSubscription {json : String}
    (h : db.upsertPushSubscription d u json = .ok db') : db.SameAccounts db' := by
  rcases upsertPushSubscription_eq_ok h with ⟨_, _, _, rfl, _⟩
  exact ⟨rfl, rfl⟩

theorem sameAccounts_removePushSubscription : db.SameAccounts (db.removePushSubscription d) := by
  unfold removePushSubscription
  split <;> exact ⟨rfl, rfl⟩

theorem isDeviceRegistered_iff :
    db.isDeviceRegistered d u = true <->
      exists row, db.device? d = some row ∧ row.username = u := by
  unfold isDeviceRegistered getDevice device?
  cases (deviceKey d).bind db.devices.lookup with
  | none => simp
  | some row => simp

end

end Database

theorem sameAccounts_exec {env : Env} {app : App} {a : Ambient} {call : Call} :
    app.database.SameAccounts (app.exec env a call).1.database := by
  have hupdate : forall {α : Type} {answer : α} {db : Except DbError Database},
      (forall db', db = .ok db' -> app.database.SameAccounts db') ->
      app.database.SameAccounts (app.update a answer db).1.database := by
    intro α answer db h
    rcases App.update_cases a app answer db with ⟨e, hsame⟩ | ⟨db', hdb, hupdate⟩
    · rw [hsame]
      exact ⟨rfl, rfl⟩
    · rw [hupdate]
      exact h db' hdb
  cases call
  case updateDeviceLastSeen d ip =>
      refine hupdate fun db' hdb => ?_
      cases hdb
      exact Database.sameAccounts_updateDeviceLastSeen ip
  case registerDevice => exact hupdate fun db' hdb => (Database.sameAccounts_addDevice hdb).1
  case revokeDevice => exact hupdate fun db' hdb => Database.sameAccounts_removeDevice hdb
  case upsertPushSubscription =>
      exact hupdate fun db' hdb => Database.sameAccounts_upsertPushSubscription hdb
  case removePushSubscription =>
      refine hupdate fun db' hdb => ?_
      cases hdb
      exact Database.sameAccounts_removePushSubscription
  case persistBugReport u d name text screenshot =>
      show app.database.SameAccounts (app.persistBugReport a u d name text screenshot).database
      unfold App.persistBugReport
      dsimp only
      split <;> exact ⟨rfl, rfl⟩
  all_goals exact ⟨rfl, rfl⟩

theorem account_of_registers {env : Env} {app : App} {a : Ambient} {call : Call} {u d : String}
    (h : Registers u d ⟨call, (app.exec env a call).2⟩) :
    (app.database.accounts.lookup u).isSome := by
  rcases h with ⟨name, ip, h⟩
  have hcall : call = .registerDevice u name ip := congrArg Answered.call h
  subst hcall
  rcases App.update_cases a app a.uuid.text (app.database.addDevice a.uuid u name (some ip)) with
    ⟨e, hsame⟩ | ⟨db, hdb, hupdate⟩
  · rw [App.exec, hsame] at h
    cases h
  · exact (Database.sameAccounts_addDevice hdb).2

/-!
## What the administration tool does
-/

namespace AdminAction

section

variable {crypto : Crypto} {db : Database} {u v : String} {account : Account} {key : String}

theorem apply_addAccount :
    (addAccount u account).apply crypto db = db ∧ (db.accounts.lookup u).isSome ∨
      (addAccount u account).apply crypto db =
        { db with accounts := db.accounts.insert u account } ∧ db.accounts.lookup u = none := by
  simp only [apply, Database.createAccount]
  split
  · rename_i hold
    exact Or.inl ⟨rfl, hold⟩
  · rename_i hnone
    exact Or.inr ⟨rfl, by simpa using hnone⟩

theorem accounts_addAccount (hv : (db.accounts.lookup v).isSome) :
    (((addAccount u account).apply crypto db).accounts.lookup v).isSome := by
  rcases @apply_addAccount crypto db u account with ⟨h, _⟩ | ⟨h, _⟩
  · rw [h]
    exact hv
  · rw [h]
    by_cases hu : v = u
    · subst hu
      simp
    · rw [AList.lookup_insert_ne hu]
      exact hv

theorem config_addAccount : ((addAccount u account).apply crypto db).config = db.config := by
  rcases @apply_addAccount crypto db u account with ⟨h, _⟩ | ⟨h, _⟩ <;> rw [h]

theorem removeAccount_cases :
    (removeAccount u).apply crypto db = db ∧ db.accounts.lookup u = none ∨
      exists db', db.removeAccount u = .ok db' ∧ (removeAccount u).apply crypto db = db' ∧
        db'.accounts = db.accounts.erase u ∧ db'.config = db.config := by
  simp only [apply]
  unfold Database.removeAccount
  split
  · rename_i hnone
    exact Or.inl ⟨rfl, by simpa using hnone⟩
  · exact Or.inr ⟨_, rfl, rfl, rfl, rfl⟩

theorem lookup_removeAccount :
    ((removeAccount u).apply crypto db).accounts.lookup u = none := by
  rcases @removeAccount_cases crypto db u with ⟨h, hnone⟩ | ⟨db', _, h, haccounts, _⟩
  · rw [h]
    exact hnone
  · rw [h, haccounts, AList.lookup_erase]

theorem lookup_removeAccount_ne (hne : v ≠ u) :
    ((removeAccount u).apply crypto db).accounts.lookup v = db.accounts.lookup v := by
  rcases @removeAccount_cases crypto db u with ⟨h, _⟩ | ⟨db', _, h, haccounts, _⟩
  · rw [h]
  · rw [h, haccounts, AList.lookup_erase_ne hne]

theorem config_removeAccount : ((removeAccount u).apply crypto db).config = db.config := by
  rcases @removeAccount_cases crypto db u with ⟨h, _⟩ | ⟨db', _, h, _, hconfig⟩
  · rw [h]
  · rw [h, hconfig]

theorem username_removeAccount {d : String} {row : Device}
    (hrow : ((removeAccount u).apply crypto db).device? d = some row) :
    row.username ≠ u ∨ db.accounts.lookup u = none := by
  rcases @removeAccount_cases crypto db u with ⟨_, hnone⟩ | ⟨db', hdb, h, _⟩
  · exact Or.inr hnone
  · rw [h] at hrow
    exact Or.inl (Database.device?_removeAccount hdb hrow).2

theorem setDesktopKey_cases :
    (setDesktopKey u key).apply crypto db = db ∨
      (db.accounts.lookup u).isSome ∧
        (setDesktopKey u key).apply crypto db = db.setDesktopKey crypto u key := by
  simp only [apply, Database.getAccount]
  cases hlookup : db.accounts.lookup u with
  | none => exact Or.inl rfl
  | some account => exact Or.inr ⟨rfl, rfl⟩

theorem accounts_setDesktopKey :
    ((setDesktopKey u key).apply crypto db).accounts = db.accounts := by
  rcases @setDesktopKey_cases crypto db u key with h | ⟨_, h⟩ <;> rw [h]
  rfl

theorem config_setDesktopKey {stored : String}
    (h : ((setDesktopKey u key).apply crypto db).getConfig (Database.desktopKeyEntry v) =
      some stored) :
    db.getConfig (Database.desktopKeyEntry v) = some stored ∨
      v = u ∧ (db.accounts.lookup u).isSome ∧ stored = crypto.sha256Hex key := by
  rcases @setDesktopKey_cases crypto db u key with hsame | ⟨haccount, hset⟩
  · rw [hsame] at h
    exact Or.inl h
  · rw [hset] at h
    by_cases hv : v = u
    · subst hv
      refine Or.inr ⟨rfl, haccount, ?_⟩
      simpa [Database.setDesktopKey, Database.setConfig, Database.getConfig] using h.symm
    · refine Or.inl ?_
      have hentry : Database.desktopKeyEntry v ≠ Database.desktopKeyEntry u :=
        fun heq => hv (Database.desktopKeyEntry_inj heq)
      rwa [Database.setDesktopKey, Database.getConfig, Database.setConfig,
        AList.lookup_insert_ne hentry] at h

end

end AdminAction

namespace Relay

/-- An account is only removed when it has no desktop key, and a device gets an id that was
never given before. -/
def keepsCredentials (initial : Database) (s : Relay) : RelayLabel -> Bool
  | .administer (.removeAccount u) =>
      (s.database.getConfig (Database.desktopKeyEntry u)).isNone
  | l => s.givesFreshIds initial l

def KeepsCredentials (initial : Database) (s : Relay) (l : RelayLabel) : Prop :=
  s.keepsCredentials initial l = true

instance (initial : Database) (s : Relay) (l : RelayLabel) :
    Decidable (s.KeepsCredentials initial l) :=
  inferInstanceAs (Decidable (_ = true))

section

variable {env : Env} {initial : Database} {s s' : Relay} {l : RelayLabel} {c : ConnId}
  {u v d : String}

theorem givesFreshIds_of_keepsCredentials (h : s.KeepsCredentials initial l) :
    s.GivesFreshIds initial l := by
  unfold KeepsCredentials keepsCredentials at h
  split at h
  · rfl
  · exact h

theorem device_step_cases (hs : Sound s) (hstep : step env s l = some s') {row : Device}
    (h : s'.database.device? d = some row) :
    (exists old, s.database.device? d = some old ∧ old.username = row.username) ∨
      exists c a frame role past call next, l = .resume c a ∧
        s.activity c = .handling frame role past (.invoke call next) ∧
        Registers row.username d ⟨call, s.answer env a call⟩ ∧
        s'.log = (s.perform env c a call).log := by
  rcases database_step hs hstep with hsame | ⟨action, _, hadmin⟩ |
      ⟨c, a, frame, role, past, call, next, hlabel, hbusy, happ, hlog⟩
  · rw [database, hsame] at h
    exact Or.inl ⟨row, h, rfl⟩
  · rw [database, hadmin] at h
    exact Or.inl ⟨row, device_of_administer h, rfl⟩
  · rw [database, happ] at h
    rcases device_of_exec h with hold | hregisters
    · exact Or.inl hold
    · exact Or.inr ⟨c, a, frame, role, past, call, next, hlabel, hbusy, hregisters, hlog⟩

theorem accounts_step (hs : Sound s) (hstep : step env s l = some s') :
    s.database.SameAccounts s'.database ∨ exists action, l = .administer action ∧
      s'.database = action.apply env.crypto s.database := by
  rcases database_step hs hstep with hsame | ⟨action, hlabel, hadmin⟩ |
      ⟨c, a, frame, role, past, call, next, _, _, happ, _⟩
  · rw [database, database, hsame]
    exact Or.inl ⟨rfl, rfl⟩
  · exact Or.inr ⟨action, hlabel, hadmin⟩
  · rw [database, database, happ]
    exact Or.inl sameAccounts_exec

theorem rooted_step (hs : Sound s) (hr : s.database.Rooted)
    (hkeeps : s.KeepsCredentials initial l) (hstep : step env s l = some s') :
    s'.database.Rooted := by
  have hdevice : forall {d row}, s'.database.device? d = some row ->
      (s.database.accounts.lookup row.username).isSome := by
    intro d row hrow
    rcases device_step_cases hs hstep hrow with
      ⟨old, hold, husername⟩ | ⟨c, a, frame, role, past, call, next, _, _, hregisters, _⟩
    · rw [← husername]
      exact hr.devices hold
    · exact account_of_registers hregisters
  rcases accounts_step hs hstep with ⟨haccounts, hconfig⟩ | ⟨action, rfl, hadmin⟩
  · constructor
    · intro d row hrow
      rw [haccounts]
      exact hdevice hrow
    · intro u key hkey
      rw [Database.getConfig, hconfig] at hkey
      rw [haccounts]
      exact hr.keys hkey
  · rw [hadmin] at hdevice ⊢
    cases action with
    | addAccount u account =>
        constructor
        · exact fun hrow => AdminAction.accounts_addAccount (hdevice hrow)
        · intro v key hkey
          rw [Database.getConfig, AdminAction.config_addAccount] at hkey
          exact AdminAction.accounts_addAccount (hr.keys hkey)
    | removeAccount u =>
        constructor
        · intro d row hrow
          have haccount := hdevice hrow
          have hne : row.username ≠ u := by
            rcases AdminAction.username_removeAccount hrow with hne | hnone
            · exact hne
            · rintro rfl
              rw [hnone] at haccount
              cases haccount
          rw [AdminAction.lookup_removeAccount_ne hne]
          exact haccount
        · intro v key hkey
          rw [Database.getConfig, AdminAction.config_removeAccount] at hkey
          have hne : v ≠ u := by
            rintro rfl
            have hnone : s.database.getConfig (Database.desktopKeyEntry v) = none :=
              Option.isNone_iff_eq_none.mp hkeeps
            rw [Database.getConfig, hkey] at hnone
            cases hnone
          rw [AdminAction.lookup_removeAccount_ne hne]
          exact hr.keys hkey
    | setDesktopKey u key =>
        constructor
        · intro d row hrow
          rw [AdminAction.accounts_setDesktopKey]
          exact hdevice hrow
        · intro v stored hstored
          rw [AdminAction.accounts_setDesktopKey]
          rcases AdminAction.config_setDesktopKey hstored with hold | ⟨rfl, haccount, _⟩
          · exact hr.keys hold
          · exact haccount

end

/-!
## Accepted credentials
-/

inductive Credential where
  | desktopKey (key : String)
  | device (deviceId : String)
  | password (passwordHash : String)
  | totp (code : String) (unix : Nat)

def Accepts (env : Env) (s : Relay) (u : String) : Credential -> Prop
  | .desktopKey key => s.database.verifyDesktopKey env.crypto u key = true
  | .device d => s.database.isDeviceRegistered d u = true
  | .password hash => s.database.verifyPassword env.crypto u hash = .ok ()
  | .totp code unix => s.database.verifyTotp env.crypto u code unix = .ok ()

section

variable {env : Env} {initial : Database} {s s' start : Relay} {l : RelayLabel} {c : ConnId}
  {u v d : String} {account : Account} {since : List RelayLabel}

theorem not_accepts_of_absent (hr : s.database.Rooted)
    (habsent : s.database.accounts.lookup u = none)
    (credential : Credential) : ¬ s.Accepts env u credential := by
  have hnone : ¬ (s.database.accounts.lookup u).isSome = true := by
    rw [habsent]
    simp
  intro haccepts
  cases credential with
  | desktopKey key => exact hnone (hr.keys (Database.stored_of_verifyDesktopKey haccepts))
  | device d =>
      rcases Database.isDeviceRegistered_iff.mp haccepts with ⟨row, hrow, rfl⟩
      exact hnone (hr.devices hrow)
  | password hash =>
      simp [Accepts, Database.verifyPassword, Database.getAccount, habsent] at haccepts
  | totp code unix => simp [Accepts, Database.verifyTotp, Database.getAccount, habsent] at haccepts

/-- A credential that the account created at the start was given in the steps since: a
desktop key has been set, a device has been registered and no token was issued for it
before, and the password and the codes are those of the new account. -/
def IssuedSince (env : Env) (start : Relay) (account : Account) (since : List RelayLabel)
    (s : Relay) (u : String) : Credential -> Prop
  | .desktopKey key => exists set, .administer (.setDesktopKey u set) ∈ since ∧
      env.crypto.sha256Hex key = env.crypto.sha256Hex set
  | .device d => (exists newer e, s.log = newer ++ start.log ∧ e ∈ newer ∧
      Registers u d e.answered) ∧ forall e v, e ∈ start.log -> e.answered.call ≠ .createJwt v d
  | .password hash => env.crypto.bcryptVerify hash account.passwordHash = some true
  | .totp code unix => exists encrypted nonce secret,
      account.totpSecretEncrypted = some encrypted ∧ account.totpNonce = some nonce ∧
      env.crypto.decryptTotp account.passwordHash nonce encrypted = some secret ∧
      env.crypto.totpCheck secret code unix = some true

/-- What there is of an account since it was created. -/
structure Renewed (env : Env) (initial : Database) (start : Relay) (u : String)
    (account : Account) (since : List RelayLabel) (s : Relay) : Prop where
  account : s.database.accounts.lookup u = some account
  key : forall {stored}, s.database.getConfig (Database.desktopKeyEntry u) = some stored ->
    exists set, .administer (.setDesktopKey u set) ∈ since ∧ stored = env.crypto.sha256Hex set
  device : forall {d row}, s.database.device? d = some row -> row.username = u ->
    (exists newer e, s.log = newer ++ start.log ∧ e ∈ newer ∧ Registers u d e.answered) ∧
      start.issued initial d = false
  log : exists newer, s.log = newer ++ start.log

/-- What holds in every run that keeps the condition. -/
structure Settled (initial : Database) (s : Relay) : Prop where
  owned : s.Owned initial
  rooted : s.database.Rooted
  accredited : Accredited s
  tokens : forall {e u d}, e ∈ s.log -> e.answered.call = .createJwt u d -> s.DeviceOf initial u d

theorem tokens_step (hs : Sound s) (h : s.Settled initial) (hstep : Transition env s l s')
    {e : RelayEvent} (he : e ∈ s'.log) (hcall : e.answered.call = .createJwt u d) :
    s'.DeviceOf initial u d := by
  refine DeviceOf.step ?_ hs hstep
  rcases log_step hs hstep with hsame | ⟨c, a, call, _, _, hlog, _, horigin⟩
  · rw [hsame] at he
    exact h.tokens he hcall
  · rw [hlog, log_perform] at he
    rcases List.mem_cons.mp he with rfl | hold
    · have hcall : call = .createJwt u d := hcall
      subst hcall
      rcases horigin with ⟨frame, role, past, next, hbusy⟩ | ⟨op, hop, _⟩
      · rcases (h.accredited hbusy).1.entitled with
          ⟨token, claims, _, _, _, _, hregistered⟩ | ⟨_, asked, p, _, htaken, rfl⟩
        · exact h.owned.checked hbusy u d hregistered
        · exact h.owned.taken hbusy u p _ htaken ⟨asked, rfl⟩
      · cases hop
    · exact h.tokens hold hcall

theorem settled_step (hs : Sound s) (h : s.Settled initial) (hkeeps : s.KeepsCredentials initial l)
    (hnext : step env s l = some s') : s'.Settled initial where
  owned := owned_step hs h.owned (givesFreshIds_of_keepsCredentials hkeeps) hnext
  rooted := rooted_step hs h.rooted hkeeps hnext
  accredited := accredited_step h.accredited (step_transition hnext)
  tokens := fun he hcall => tokens_step hs h (step_transition hnext) he hcall

theorem settled_of_runs {auth : AuthManager} (hconsistent : initial.Consistent)
    (hrooted : initial.Rooted) {labels : List RelayLabel}
    (hrun : Runs env auth initial labels s)
    (hok : Admits (step env) (KeepsCredentials initial) (init auth initial) labels) :
    s.Settled initial := by
  have hinit : (init auth initial).Settled initial :=
    { owned := owned_init auth hconsistent
      rooted := hrooted
      accredited := accredited_init auth initial
      tokens := fun he => by cases he }
  exact (admitted_step_induction hinit
    (fun _ _ _ hs h hl hnext => settled_step hs h hl hnext) hrun hok).2

theorem issued_of_log {newer : List RelayEvent} (hlog : s.log = newer ++ start.log)
    (h : start.issued initial d = true) : s.issued initial d = true := by
  unfold issued at h ⊢
  rw [Bool.or_eq_true_iff] at h ⊢
  rw [hlog, List.any_append, Bool.or_eq_true_iff]
  exact h.imp_right Or.inr

theorem renewed_init (hr : s.database.Rooted) (habsent : s.database.accounts.lookup u = none)
    (hstep : step env s (.administer (.addAccount u account)) = some start) :
    Renewed env initial start u account [] start := by
  cases hstep
  have hadded : (AdminAction.addAccount u account).apply env.crypto s.app.database =
      { s.app.database with accounts := s.app.database.accounts.insert u account } := by
    rcases @AdminAction.apply_addAccount env.crypto s.app.database u account with
      ⟨_, hold⟩ | ⟨h, _⟩
    · rw [show s.app.database.accounts.lookup u = none from habsent] at hold
      cases hold
    · exact h
  have hnone : ¬ (s.database.accounts.lookup u).isSome = true := by
    rw [habsent]
    simp
  constructor
  · show ((AdminAction.addAccount u account).apply env.crypto s.app.database).accounts.lookup u = _
    rw [hadded, AList.lookup_insert]
  · intro stored hstored
    rw [Database.getConfig, database, AdminAction.config_addAccount] at hstored
    exact absurd (hr.keys hstored) hnone
  · intro d row hrow husername
    have hrow : ((AdminAction.addAccount u account).apply env.crypto s.database).device? d =
        some row := hrow
    rw [← husername] at hnone
    exact absurd (hr.devices (device_of_administer hrow)) hnone
  · exact ⟨[], rfl⟩

theorem renewed_step (hs : Sound s) (h : Renewed env initial start u account since s)
    (hfresh : s.GivesFreshIds initial l) (hnext : step env s l = some s')
    (hkept : l ≠ .administer (.removeAccount u)) :
    Renewed env initial start u account (since ++ [l]) s' := by
  have hlog : exists added, s'.log = added ++ s.log := by
    rcases log_step hs (step_transition hnext) with hsame | ⟨c, a, call, _, _, hlog, _⟩
    · exact ⟨[], hsame⟩
    · exact ⟨[_], hlog⟩
  rcases hlog with ⟨added, hadded⟩
  rcases h.log with ⟨newer, hnewer⟩
  have hlater : s'.log = (added ++ newer) ++ start.log := by
    rw [hadded, hnewer, List.append_assoc]
  have haccounts := accounts_step hs hnext
  constructor
  · rcases haccounts with ⟨haccounts, _⟩ | ⟨action, rfl, hadmin⟩
    · rw [haccounts]
      exact h.account
    · rw [hadmin]
      cases action with
      | addAccount v other =>
          rcases @AdminAction.apply_addAccount env.crypto s.database v other with
            ⟨hsame, _⟩ | ⟨hinsert, hnone⟩
          · rw [hsame]
            exact h.account
          · have hne : u ≠ v := by
              rintro rfl
              rw [h.account] at hnone
              cases hnone
            rw [hinsert, AList.lookup_insert_ne hne]
            exact h.account
      | removeAccount v =>
          have hne : u ≠ v := by
            rintro rfl
            exact hkept rfl
          rw [AdminAction.lookup_removeAccount_ne hne]
          exact h.account
      | setDesktopKey v key =>
          rw [AdminAction.accounts_setDesktopKey]
          exact h.account
  · intro stored hstored
    have hold : s.database.getConfig (Database.desktopKeyEntry u) = some stored ->
        exists set, .administer (.setDesktopKey u set) ∈ since ++ [l] ∧
          stored = env.crypto.sha256Hex set := by
      intro hbefore
      rcases h.key hbefore with ⟨set, hset, hhash⟩
      exact ⟨set, List.mem_append_left _ hset, hhash⟩
    rcases haccounts with ⟨_, hconfig⟩ | ⟨action, rfl, hadmin⟩
    · rw [Database.getConfig, hconfig] at hstored
      exact hold hstored
    · rw [hadmin] at hstored
      cases action with
      | addAccount v other =>
          rw [Database.getConfig, AdminAction.config_addAccount] at hstored
          exact hold hstored
      | removeAccount v =>
          rw [Database.getConfig, AdminAction.config_removeAccount] at hstored
          exact hold hstored
      | setDesktopKey v key =>
          rcases AdminAction.config_setDesktopKey hstored with hbefore | ⟨rfl, _, hhash⟩
          · exact hold hbefore
          · exact ⟨key, List.mem_append_right _ (List.mem_singleton.mpr rfl), hhash⟩
  · intro d row hrow husername
    rcases device_step_cases hs hnext hrow with
      ⟨old, hold, hsame⟩ | ⟨c, a, frame, role, past, call, next, rfl, hbusy, hregisters, hlog⟩
    · rcases h.device hold (hsame.trans husername) with ⟨⟨newer', e, hlog', he, hregisters⟩, hfree⟩
      refine ⟨⟨added ++ newer', e, ?_, List.mem_append_right _ he, hregisters⟩, hfree⟩
      rw [hadded, hlog', List.append_assoc]
    · rw [husername] at hregisters
      have hunused := fresh_of_registers hfresh hbusy hregisters
      refine ⟨⟨{ conn := c, now := a.now, answered := ⟨call, s.answer env a call⟩
                 enqueued := newlyEnqueued s.broker (s.app.exec env a call).1.broker } :: newer,
        _, ?_, List.mem_cons_self, hregisters⟩, ?_⟩
      · rw [hlog, log_perform, hnewer]
        rfl
      · cases hissued : start.issued initial d with
        | false => rfl
        | true =>
            rw [issued_of_log hnewer hissued] at hunused
            cases hunused
  · exact ⟨_, hlater⟩

theorem issuedSince_of_accepts (h : Renewed env initial start u account since s)
    (hstart : start.Settled initial) {credential : Credential}
    (haccepts : s.Accepts env u credential) :
    IssuedSince env start account since s u credential := by
  cases credential with
  | desktopKey key => exact h.key (Database.stored_of_verifyDesktopKey haccepts)
  | device d =>
      rcases Database.isDeviceRegistered_iff.mp haccepts with ⟨row, hrow, husername⟩
      rcases h.device hrow husername with ⟨hregistered, hfree⟩
      refine ⟨hregistered, fun e v he hcall => ?_⟩
      rw [issued_of_deviceOf (hstart.tokens he hcall)] at hfree
      cases hfree
  | password hash =>
      have haccount : s.database.getAccount u = .ok account := by
        simp [Database.getAccount, h.account]
      simp only [Accepts, Database.verifyPassword, haccount] at haccepts
      split at haccepts
      · cases haccepts
      · rename_i valid hvalid
        cases valid with
        | false => cases haccepts
        | true => exact hvalid
  | totp code unix =>
      have haccount : s.database.getAccount u = .ok account := by
        simp [Database.getAccount, h.account]
      simp only [Accepts, Database.verifyTotp, haccount] at haccepts
      split at haccepts
      · rename_i encrypted nonce hencrypted hnonce
        split at haccepts
        · cases haccepts
        · rename_i secret hsecret
          split at haccepts
          · cases haccepts
          · rename_i valid hvalid
            cases valid with
            | false => cases haccepts
            | true => exact ⟨encrypted, nonce, secret, hencrypted, hnonce, hsecret, hvalid⟩
      · cases haccepts

end

/-!
## Attempts
-/

/-- What a frame shows, given what its handler has been answered. -/
def Shows (frame : Inbound) (past : List CallAnswer) (u : String) : Credential -> Prop
  | .desktopKey key => frame.PresentsKey u key
  | .device d => exists token claims, frame.PresentsToken u token ∧
      ⟨.validateJwt token, .ok claims⟩ ∈ past ∧ claims.sub = u ∧ claims.deviceId = d
  | .password hash => frame.PresentsPassword u hash
  | .totp code _ => exists version hash token,
      frame.control? = some (.auth version u hash (some code) token none)

def admits : Call -> Bool
  | .setRole _ | .broker (.addPendingDevice ..) => true
  | _ => false

def ReceivedIn (c : ConnId) (frame : Inbound) (since : List RelayLabel) : Prop :=
  exists mid rest, since = mid ++ .receive c frame :: rest ∧ forall f, .receive c f ∉ rest

section

variable {env : Env} {initial : Database} {s start : Relay} {c : ConnId} {frame : Inbound}
  {role : ConnectionRole} {past : List CallAnswer} {task : Handler Unit} {u v d : String}

theorem authenticates_unique (hu : frame.Authenticates u) (hv : frame.Authenticates v) : u = v := by
  rcases hu with ⟨_, _, _, _, _, hu⟩
  rcases hv with ⟨_, _, _, _, _, hv⟩
  rw [hu] at hv
  injection Option.some.inj hv

theorem shown_of_admits {call : Call} {next : call.Reply -> Handler Unit} (hs : Sound s)
    (h : Accredited s) (hact : s.activity c = .handling frame role past (.invoke call next))
    (hframe : frame.Authenticates u) (hadmits : admits call = true) :
    exists credential answered, Shows frame past u credential ∧ answered ∈ past ∧
      forall t role', Answers env c frame role' answered t -> t.Accepts env u credential := by
  have hkey : forall {v}, KeyShown frame v past -> exists credential answered,
      Shows frame past u credential ∧ answered ∈ past ∧
        forall t role', Answers env c frame role' answered t -> t.Accepts env u credential := by
    rintro v ⟨key, hshows, hmem⟩
    rcases hshows with ⟨version, hash, totp, token, hcontrol⟩
    cases authenticates_unique hframe ⟨_, _, _, _, _, hcontrol⟩
    refine ⟨.desktopKey key, _, ⟨version, hash, totp, token, hcontrol⟩, hmem, ?_⟩
    rintro t role' ⟨a, _, _, _, hanswer⟩
    have hanswer : (.ok true : Except AuthError Bool) =
      App.authQuery a (.ok (t.database.verifyDesktopKey env.crypto u key)) := hanswer
    unfold App.authQuery at hanswer
    split at hanswer
    · cases hanswer
    · injection hanswer with hanswer
      exact hanswer.symm
  have htoken : forall {v d}, TokenShown frame v d past -> exists credential answered,
      Shows frame past u credential ∧ answered ∈ past ∧
        forall t role', Answers env c frame role' answered t -> t.Accepts env u credential := by
    rintro v d ⟨token, claims, hshows, hclaims, hsub, hdevice, hmem⟩
    rcases hshows with ⟨version, hash, totp, hcontrol⟩
    cases authenticates_unique hframe ⟨_, _, _, _, _, hcontrol⟩
    refine ⟨.device d, _, ⟨token, claims, ⟨version, hash, totp, hcontrol⟩, hclaims, hsub, hdevice⟩,
      hmem, ?_⟩
    rintro t role' ⟨a, _, _, _, hanswer⟩
    have hanswer : true = (!a.dbFault && t.database.isDeviceRegistered d u) := hanswer
    exact (Bool.and_eq_true_iff.mp hanswer.symm).2
  have hentitled := (h hact).1.entitled
  cases call
  case setRole new =>
      cases new with
      | client v d =>
          rcases hentitled with ⟨_, hshown⟩ | hshown
          · exact hkey hshown
          · exact htoken hshown
      | unauthenticated =>
          cases (hs.behaves hact).1.permitted with
          | privately hcall => cases hcall
      | desktop v =>
          cases (hs.behaves hact).1.permitted with
          | privately hcall => cases hcall
          | desktopRole _ hcontrol =>
              rcases hframe with ⟨_, _, _, _, _, hframe⟩
              rw [hframe] at hcontrol
              cases hcontrol
  case broker op =>
      cases op
      case addPendingDevice v p =>
          rcases hentitled with ⟨hash, hshows, hmem⟩
          rcases hshows with ⟨version, totp, token, hcontrol⟩
          cases authenticates_unique hframe ⟨_, _, _, _, _, hcontrol⟩
          refine ⟨.password hash, _, ⟨version, totp, token, hcontrol⟩, hmem, ?_⟩
          rintro t role' ⟨a, _, _, _, hanswer⟩
          have hanswer : (.ok () : Except AuthError Unit) =
            App.authQuery a (t.database.verifyPassword env.crypto u hash) := hanswer
          unfold App.authQuery at hanswer
          split at hanswer
          · cases hanswer
          · exact hanswer.symm
      all_goals cases hadmits
  all_goals cases hadmits

/-- A handler handles the frame received last, and its answers were given since then. -/
theorem handled_since {labels : List RelayLabel} {received : Inbound}
    (hrun : follow (step env) start (.receive c received :: labels) = some s)
    (honly : forall f, .receive c f ∉ labels)
    (hact : s.activity c = .handling frame role past task) :
    frame = received ∧ forall answered, answered ∈ past -> exists mid rest t,
      labels = mid ++ rest ∧ follow (step env) start (.receive c received :: mid) = some t ∧
        Answers env c frame role answered t := by
  induction labels using List.reverseRecOn generalizing s past task with
  | nil =>
      rcases follow_cons_eq_some.mp hrun with ⟨m, hreceive, hm⟩
      cases hm
      rcases handling_step (step_transition hreceive) hact with
        hold | ⟨hlabel, _, _, rfl, _⟩ | ⟨_, _, _, _, hlabel, _⟩
      · -- A connection that is handling a frame receives none.
        simp [step, hold] at hreceive
      · cases hlabel
        exact ⟨rfl, fun answered hmem => by cases hmem⟩
      · cases hlabel
  | append_singleton before l ih =>
      rw [← List.cons_append] at hrun
      rcases follow_append_eq_some.mp hrun with ⟨m, hbefore, hlast⟩
      rcases follow_cons_eq_some.mp hlast with ⟨s', hnext, hs⟩
      cases hs
      have honly' : forall f, .receive c f ∉ before := fun f hf =>
        honly f (List.mem_append_left _ hf)
      rcases handling_step (step_transition hnext) hact with
        hold | ⟨hlabel, _⟩ | ⟨a, call, past', next, _, _, hbusy, rfl, _⟩
      · rcases ih hbefore honly' hold with ⟨hframe, hpast⟩
        refine ⟨hframe, fun answered hmem => ?_⟩
        rcases hpast answered hmem with ⟨mid, rest, t, rfl, ht⟩
        exact ⟨mid, rest ++ [l], t, List.append_assoc .., ht⟩
      · exact absurd (List.mem_append_right _ (List.mem_singleton.mpr hlabel.symm)) (honly _)
      · rcases ih hbefore honly' hbusy with ⟨hframe, hpast⟩
        refine ⟨hframe, fun answered hmem => ?_⟩
        rcases List.mem_cons.mp hmem with rfl | hold
        · exact ⟨before, [l], m, rfl, hbefore, a, past', next, hbusy, rfl⟩
        · rcases hpast answered hold with ⟨mid, rest, t, rfl, ht⟩
          exact ⟨mid, rest ++ [l], t, List.append_assoc .., ht⟩

end

/-!
## Removed accounts and new ones
-/

/-- No credential of the account works: none is accepted, no request is authorized, and no
authentication that began in these steps admits anybody. -/
structure Powerless (env : Env) (since : List RelayLabel) (s : Relay) (u : String) : Prop where
  refused : forall credential, ¬ s.Accepts env u credential
  requests : forall world header, (world 1).1 = s.app ->
    Program.answeredBy (answersIn env world) 0 (authenticateBearer header) ≠ .ok u
  attempts : forall c frame call, ReceivedIn c frame since -> frame.Authenticates u ->
    s.upcoming c = some call -> admits call = false

/-- Only credentials that were given in these steps work. -/
structure Current (env : Env) (start : Relay) (account : Account) (since : List RelayLabel)
    (s : Relay) (u : String) : Prop where
  accepted : forall credential, s.Accepts env u credential ->
    IssuedSince env start account since s u credential
  requests : forall world header, (world 1).1 = s.app ->
    Program.answeredBy (answersIn env world) 0 (authenticateBearer header) = .ok u ->
      exists token claims, header = some ("Bearer " ++ token) ∧
        (world 0).1.auth.validateJwt env.crypto token (world 0).2.unix = .ok claims ∧
        IssuedSince env start account since s u (.device claims.deviceId)
  attempts : forall c frame call, ReceivedIn c frame since -> frame.Authenticates u ->
    s.upcoming c = some call -> admits call = true ->
      exists credential mid rest t, Shows frame (s.pastOf c) u credential ∧
        since = mid ++ rest ∧ follow (step env) start mid = some t ∧
        t.Accepts env u credential ∧ IssuedSince env start account mid t u credential

section

variable {env : Env} {auth : AuthManager} {initial : Database} {s start : Relay}
  {before since : List RelayLabel} {u : String} {account : Account}

/-- The credential that admits somebody was accepted since the frame was received. -/
theorem accepted_since (hs : Sound s) (h : Accredited s)
    (hfollow : follow (step env) start since = some s) {c : ConnId} {frame : Inbound}
    {call : Call} (hreceived : ReceivedIn c frame since) (hframe : frame.Authenticates u)
    (hcall : s.upcoming c = some call) (hadmits : admits call = true) :
    exists credential mid rest t, Shows frame (s.pastOf c) u credential ∧
      since = mid ++ rest ∧ follow (step env) start mid = some t ∧
      t.Accepts env u credential := by
  rcases activity_of_upcoming hcall with ⟨handled, role, past, next, hact⟩
  rcases hreceived with ⟨earlier, later, rfl, honly⟩
  rcases follow_append_eq_some.mp hfollow with ⟨m, hearlier, hlater⟩
  rcases handled_since hlater honly hact with ⟨rfl, hpast⟩
  rcases shown_of_admits hs h hact hframe hadmits with
    ⟨credential, answered, hshows, hmem, haccepts⟩
  rcases hpast answered hmem with ⟨mid, rest, t, rfl, ht, hanswers⟩
  refine ⟨credential, earlier ++ .receive c handled :: mid, rest, t, ?_, ?_, ?_, ?_⟩
  · rw [pastOf_handling hact]
    exact hshows
  · rw [List.append_assoc, List.cons_append]
  · exact follow_append_eq_some.mpr ⟨m, hearlier, ht⟩
  · exact haccepts t role hanswers

theorem settled_before (hconsistent : initial.Consistent) (hrooted : initial.Rooted)
    {labels rest : List RelayLabel} (hrun : Runs env auth initial labels s)
    (hok : Admits (step env) (KeepsCredentials initial) (init auth initial) (labels ++ rest)) :
    Sound s ∧ s.Settled initial :=
  ⟨sound_of_runs hrun, settled_of_runs hconsistent hrooted hrun ((admits_append hrun).mp hok).1⟩

theorem absent_since (hbefore : Runs env auth initial before start)
    (habsent : start.database.accounts.lookup u = none)
    (hnever : forall account, .administer (.addAccount u account) ∉ since)
    (hfollow : follow (step env) start since = some s) :
    s.database.accounts.lookup u = none := by
  induction since using List.reverseRecOn generalizing s with
  | nil =>
      cases hfollow
      exact habsent
  | append_singleton mid l ih =>
      rcases follow_append_eq_some.mp hfollow with ⟨m, hmid, hlast⟩
      rcases follow_cons_eq_some.mp hlast with ⟨s', hnext, hs⟩
      cases hs
      have hm := ih (fun account hmem => hnever account (List.mem_append_left _ hmem)) hmid
      have hrun : Runs env auth initial (before ++ mid) m :=
        follow_append_eq_some.mpr ⟨start, hbefore, hmid⟩
      rcases accounts_step (sound_of_runs hrun) hnext with ⟨haccounts, _⟩ | ⟨action, rfl, hadmin⟩
      · rw [haccounts]
        exact hm
      · rw [hadmin]
        cases action with
        | addAccount v account =>
            have hne : u ≠ v := by
              rintro rfl
              exact hnever account (List.mem_append_right _ (List.mem_singleton.mpr rfl))
            rcases @AdminAction.apply_addAccount env.crypto m.database v account with
              ⟨hsame, _⟩ | ⟨hinsert, _⟩
            · rw [hsame]
              exact hm
            · rw [hinsert, AList.lookup_insert_ne hne]
              exact hm
        | removeAccount v =>
            by_cases hv : u = v
            · subst hv
              exact AdminAction.lookup_removeAccount
            · rw [AdminAction.lookup_removeAccount_ne hv]
              exact hm
        | setDesktopKey v key =>
            rw [AdminAction.accounts_setDesktopKey]
            exact hm

theorem renewed_since (hbefore : Runs env auth initial before start)
    (hok : Admits (step env) (KeepsCredentials initial) (init auth initial) (before ++ since))
    (hstart : Renewed env initial start u account [] start)
    (hkept : .administer (.removeAccount u) ∉ since)
    (hfollow : follow (step env) start since = some s) :
    Renewed env initial start u account since s := by
  induction since using List.reverseRecOn generalizing s with
  | nil =>
      cases hfollow
      exact hstart
  | append_singleton mid l ih =>
      rcases follow_append_eq_some.mp hfollow with ⟨m, hmid, hlast⟩
      rcases follow_cons_eq_some.mp hlast with ⟨s', hnext, hs⟩
      cases hs
      have hrun : Runs env auth initial (before ++ mid) m :=
        follow_append_eq_some.mpr ⟨start, hbefore, hmid⟩
      rw [← List.append_assoc] at hok
      rcases (admits_append hrun).mp hok with ⟨hok, hl, _⟩
      have hm := ih hok (fun hmem => hkept (List.mem_append_left _ hmem)) hmid
      refine renewed_step (sound_of_runs hrun) hm (givesFreshIds_of_keepsCredentials hl) hnext ?_
      rintro rfl
      exact hkept (List.mem_append_right _ (List.mem_singleton.mpr rfl))

theorem powerless_of_removed (hconsistent : initial.Consistent) (hrooted : initial.Rooted)
    (hbefore : Runs env auth initial before start)
    (habsent : start.database.accounts.lookup u = none)
    (hok : Admits (step env) (KeepsCredentials initial) (init auth initial) (before ++ since))
    (hfollow : follow (step env) start since = some s)
    (hnever : forall account, .administer (.addAccount u account) ∉ since) :
    Powerless env since s u := by
  have hrefused : forall mid rest t credential, since = mid ++ rest ->
      follow (step env) start mid = some t -> ¬ t.Accepts env u credential := by
    intro mid rest t credential hsince ht
    subst hsince
    rw [← List.append_assoc] at hok
    have hmid : Runs env auth initial (before ++ mid) t :=
      follow_append_eq_some.mpr ⟨start, hbefore, ht⟩
    have habsent := absent_since hbefore habsent
      (fun account hmem => hnever account (List.mem_append_left _ hmem)) ht
    have hrooted := (settled_before hconsistent hrooted hmid hok).2.rooted
    exact not_accepts_of_absent hrooted habsent credential
  have hnow := fun credential => hrefused since [] s credential (List.append_nil since).symm hfollow
  have hrun : Runs env auth initial (before ++ since) s :=
    follow_append_eq_some.mpr ⟨start, hbefore, hfollow⟩
  rw [← List.append_nil (before ++ since)] at hok
  rcases settled_before hconsistent hrooted hrun hok with ⟨hs, hsettled⟩
  constructor
  · exact hnow
  · intro world header hworld hauthorized
    rcases bearerShown_of_ok hauthorized with ⟨token, claims, _, _, _, hregistered⟩
    rw [hworld] at hregistered
    exact hnow (.device claims.deviceId) hregistered
  · intro c frame call hreceived hframe hcall
    cases hadmits : admits call with
    | false => rfl
    | true =>
        rcases accepted_since hs hsettled.accredited hfollow hreceived hframe hcall hadmits with
          ⟨credential, mid, rest, t, _, hsince, ht, haccepts⟩
        exact absurd haccepts (hrefused mid rest t credential hsince ht)

theorem current_of_created (hconsistent : initial.Consistent) (hrooted : initial.Rooted)
    (hbefore : Runs env auth initial before start)
    (hstart : Renewed env initial start u account [] start)
    (hok : Admits (step env) (KeepsCredentials initial) (init auth initial) (before ++ since))
    (hfollow : follow (step env) start since = some s)
    (hkept : .administer (.removeAccount u) ∉ since) :
    Current env start account since s u := by
  have hsettled := (settled_before hconsistent hrooted hbefore hok).2
  have hissued : forall mid rest t credential, since = mid ++ rest ->
      follow (step env) start mid = some t -> t.Accepts env u credential ->
      IssuedSince env start account mid t u credential := by
    intro mid rest t credential hsince ht haccepts
    subst hsince
    rw [← List.append_assoc] at hok
    have hmid : Runs env auth initial (before ++ mid) t :=
      follow_append_eq_some.mpr ⟨start, hbefore, ht⟩
    have hrenewed := renewed_since hbefore ((admits_append hmid).mp hok).1 hstart
      (fun hmem => hkept (List.mem_append_left _ hmem)) ht
    exact issuedSince_of_accepts hrenewed hsettled haccepts
  have hnow := fun credential => hissued since [] s credential (List.append_nil since).symm hfollow
  have hrun : Runs env auth initial (before ++ since) s :=
    follow_append_eq_some.mpr ⟨start, hbefore, hfollow⟩
  rw [← List.append_nil (before ++ since)] at hok
  rcases settled_before hconsistent hrooted hrun hok with ⟨hs, hsettled'⟩
  constructor
  · exact hnow
  · intro world header hworld hauthorized
    rcases bearerShown_of_ok hauthorized with ⟨token, claims, hheader, hvalid, _, hregistered⟩
    rw [hworld] at hregistered
    exact ⟨token, claims, hheader, hvalid, hnow (.device claims.deviceId) hregistered⟩
  · intro c frame call hreceived hframe hcall hadmits
    rcases accepted_since hs hsettled'.accredited hfollow hreceived hframe hcall hadmits with
      ⟨credential, mid, rest, t, hshows, hsince, ht, haccepts⟩
    exact ⟨credential, mid, rest, t, hshows, hsince, ht, haccepts,
      hissued mid rest t credential hsince ht haccepts⟩

/--
In every run in which accounts are only removed without a desktop key, and each device gets
an id that was never given before: an account that was removed and not created since has no
working credential, and one that was created and not removed since has only those that it
was given since.
-/
theorem credentials_end (hconsistent : initial.Consistent) (hrooted : initial.Rooted) :
    (forall before since u s,
      Runs env auth initial (before ++ .administer (.removeAccount u) :: since) s ->
      Admits (step env) (KeepsCredentials initial) (init auth initial)
        (before ++ .administer (.removeAccount u) :: since) ->
      (forall account, .administer (.addAccount u account) ∉ since) ->
      Powerless env since s u) ∧
    forall before since u account earlier start s,
      Runs env auth initial before earlier -> earlier.database.accounts.lookup u = none ->
      step env earlier (.administer (.addAccount u account)) = some start ->
      follow (step env) start since = some s ->
      Admits (step env) (KeepsCredentials initial) (init auth initial)
        (before ++ .administer (.addAccount u account) :: since) ->
      .administer (.removeAccount u) ∉ since ->
      Current env start account since s u := by
  constructor
  · intro before since u s hrun hok hnever
    rcases follow_append_eq_some.mp hrun with ⟨earlier, hearlier, hlater⟩
    rcases follow_cons_eq_some.mp hlater with ⟨start, hremove, hfollow⟩
    have habsent : start.database.accounts.lookup u = none := by
      cases hremove
      exact @AdminAction.lookup_removeAccount env.crypto earlier.database u
    refine powerless_of_removed hconsistent hrooted (runs_snoc hearlier hremove) habsent ?_ hfollow
      hnever
    rw [List.append_assoc]
    exact hok
  · intro before since u account earlier start s hearlier habsent hadd hfollow hok hkept
    have hrooted' := (settled_before hconsistent hrooted hearlier hok).2.rooted
    refine current_of_created hconsistent hrooted (runs_snoc hearlier hadd)
      (renewed_init hrooted' habsent hadd) ?_ hfollow hkept
    rw [List.append_assoc]
    exact hok

end

/-!
## An account that comes and goes
-/

theorem empty_consistent : Database.empty.Consistent := by
  intro d row hrow
  rcases Database.subscription?_eq_some.mp hrow with ⟨id, _, hlookup⟩
  cases hlookup

theorem empty_rooted : Database.empty.Rooted where
  devices := fun hrow => by
    rcases Database.device?_eq_some.mp hrow with ⟨id, _, hlookup⟩
    cases hlookup
  keys := fun hkey => by cases hkey

def withPassword : Account :=
  { passwordHash := Deployment.storedHash, totpSecretEncrypted := none, totpNonce := none }

def adds : RelayLabel :=
  .administer (.addAccount "user" withPassword)

def removes : RelayLabel :=
  .administer (.removeAccount "user")

def setsKey : RelayLabel :=
  .administer (.setDesktopKey "user" "key")

def keyFrame : Inbound :=
  Deployment.message (.auth 1 "user" none none none (some "key"))

def presentsKey : List RelayLabel :=
  Deployment.open_ 1 :: Deployment.start 1 keyFrame 4

def admitting (s : Relay) (c : ConnId) : Bool :=
  match s.upcoming c with
  | some call => admits call
  | none => false

theorem credentials_end_example : exists s start s',
    Runs Deployment.env Deployment.auth Database.empty
      ([adds] ++ removes :: Deployment.open_ 2 :: Deployment.start 2 passwordAuth 2) s ∧
      Powerless Deployment.env (Deployment.open_ 2 :: Deployment.start 2 passwordAuth 2) s "user" ∧
      s'.admitting 1 = true ∧
      Current Deployment.env start withPassword (setsKey :: presentsKey) s' "user" := by
  have hend : (follow (step Deployment.env) (init Deployment.auth Database.empty)
      ([adds] ++ removes :: Deployment.open_ 2 ::
        Deployment.start 2 passwordAuth 2)).isSome = true := by
    decide +kernel
  have hearlier : (follow (step Deployment.env) (init Deployment.auth Database.empty)
      [adds, removes]).map (fun s => (s.database.accounts.lookup "user").isNone) = some true := by
    decide +kernel
  have hnew : (follow (step Deployment.env) (init Deployment.auth Database.empty)
      ([adds, removes] ++ adds :: setsKey :: presentsKey)).map (fun s => s.admitting 1) =
        some true := by
    decide +kernel
  rcases Option.isSome_iff_exists.mp hend with ⟨s, hs⟩
  rcases Option.map_eq_some_iff.mp hearlier with ⟨earlier, hrun, habsent⟩
  rcases Option.map_eq_some_iff.mp hnew with ⟨s', hs', hadmitting⟩
  rcases follow_append_eq_some.mp hs' with ⟨m, hm, hlater⟩
  have hsame : earlier = m := Option.some.inj (hrun.symm.trans hm)
  subst hsame
  rcases follow_cons_eq_some.mp hlater with ⟨start, hadd, hfollow⟩
  have hboth := @credentials_end Deployment.env Deployment.auth _ empty_consistent empty_rooted
  exact ⟨s, start, s', hs,
    hboth.1 [adds] _ "user" s hs (by decide +kernel)
      (fun account hmem => by simp [Deployment.open_, Deployment.start] at hmem),
    hadmitting,
    hboth.2 [adds, removes] _ "user" withPassword earlier start s' hrun
      (Option.isNone_iff_eq_none.mp habsent) hadd hfollow (by decide +kernel)
      (by simp [setsKey, presentsKey, Deployment.open_, Deployment.start])⟩

/-- An account is removed, and its desktop key still gives a role. -/
theorem key_of_removed_accepted : exists s,
    Runs Deployment.env Deployment.auth Database.empty
      ([adds, setsKey] ++ removes :: presentsKey) s ∧
      ¬ Powerless Deployment.env presentsKey s "user" := by
  have hend : (follow (step Deployment.env) (init Deployment.auth Database.empty)
      ([adds, setsKey] ++ removes :: presentsKey)).map (fun s => s.admitting 1) = some true := by
    decide +kernel
  rcases Option.map_eq_some_iff.mp hend with ⟨s, hrun, hadmitting⟩
  refine ⟨s, hrun, fun hpowerless => ?_⟩
  unfold admitting at hadmitting
  cases hcall : s.upcoming 1 with
  | none => simp [hcall] at hadmitting
  | some call =>
      rw [hcall] at hadmitting
      have hreceived : ReceivedIn 1 keyFrame presentsKey := by
        refine ⟨[Deployment.open_ 1], _, rfl, fun f hf => ?_⟩
        have hresumes := List.eq_of_mem_replicate hf
        cases hresumes
      have hframe : keyFrame.Authenticates "user" := ⟨1, none, none, none, some "key", rfl⟩
      have hadmits : admits call = true := hadmitting
      rw [hpowerless.attempts 1 keyFrame call hreceived hframe hcall] at hadmits
      cases hadmits

end Relay

end CommandRelay
