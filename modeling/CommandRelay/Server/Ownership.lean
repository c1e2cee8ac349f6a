import CommandRelay.Server.Relay
import CommandRelay.Server.Routine

/-!
# Devices and their accounts

A device belongs to the account it was registered for.  Device ids reach the database
from the peers, and most of its operations are keyed by the id alone.
-/

namespace CommandRelay

open Foundation

/-!
## Calls on a device
-/

def Registers (u d : String) (answered : CallAnswer) : Prop :=
  exists name ip, answered = ⟨.registerDevice u name ip, .ok d⟩

/-- The pending device a handler has taken. -/
def Takes (u : String) (p : PendingDevice) (answered : CallAnswer) : Prop :=
  exists d, answered = ⟨.broker (.takePendingDevice u d), some p⟩

/-- What leads a handler to a call that touches a device. -/
inductive ActsOn (frame : Inbound) (role : ConnectionRole) (past : List CallAnswer) :
    Call -> Prop where
  | elsewhere {call} (hcall : call.touchesDevice = false) : ActsOn frame role past call
  | seen {u d ip} (hframe : frame.Authenticates u)
      (hregistered : ⟨.isDeviceRegistered d u, true⟩ ∈ past) :
      ActsOn frame role past (.updateDeviceLastSeen d ip)
  | registered {u name ip} (hframe : frame.Authenticates u) :
      ActsOn frame role past (.registerDevice u name ip)
  | enrolled {u p} (hregistered : exists a, a ∈ past ∧ Registers u p.deviceId a) :
      ActsOn frame role past (.broker (.addPendingDevice u p))
  | approved {u p ip} (hrole : role = .desktop u) (htaken : exists a, a ∈ past ∧ Takes u p a) :
      ActsOn frame role past (.updateDeviceLastSeen p.deviceId ip)
  | rejected {u p} (hrole : role = .desktop u) (htaken : exists a, a ∈ past ∧ Takes u p a) :
      ActsOn frame role past (.revokeDevice p.deviceId)
  | revoked {d} (hframe : frame.control? = some (.deviceRevoke d)) :
      ActsOn frame role past (.revokeDevice d)
  | subscribed {u d json} (hrole : role = .client u d) :
      ActsOn frame role past (.upsertPushSubscription d u json)
  | unsubscribed {u d} (hrole : role = .client u d) :
      ActsOn frame role past (.removePushSubscription d)

namespace Handler

def Justified (frame : Inbound) (role : ConnectionRole) (past : List CallAnswer)
    (task : Handler Unit) : Prop :=
  Program.Obeys (ActsOn frame role) past task fun _ _ => True

section

variable {frame : Inbound} {role : ConnectionRole} {past : List CallAnswer} {call : Call}
  {task : Handler Unit}

theorem justified_of_makes (h : Makes (fun call => !call.touchesDevice) task) :
    Justified frame role past task := by
  unfold Makes at h
  generalize ([] : List CallAnswer) = seen at h
  induction task generalizing seen past with
  | done value => trivial
  | invoke call next ih =>
      exact ⟨.elsewhere (Bool.not_eq_true' _ ▸ h.1), fun r => ih r _ (h.2 r)⟩

theorem justified_of_detached (h : Detached task) : Justified frame role past task :=
  justified_of_makes (h.mono fun _ hcall => (Bool.and_eq_true_iff.mp hcall).2)

theorem justified_ask {next : call.Reply -> Handler Unit} (hcall : ActsOn frame role past call)
    (hnext : forall r, Justified frame role (⟨call, r⟩ :: past) (next r)) :
    Justified frame role past (ask call >>= next) :=
  ⟨hcall, hnext⟩

theorem justified_then (hcall : ActsOn frame role past call)
    (htask : forall r, Justified frame role (⟨call, r⟩ :: past) task) :
    Justified frame role past (act call >>= fun _ => task) :=
  ⟨hcall, htask⟩

theorem justified_act (hcall : ActsOn frame role past call) :
    Justified frame role past (act call) :=
  ⟨hcall, fun _ => trivial⟩

end

/-!
### Authentication
-/

section

variable {frame : Inbound} {role : ConnectionRole} {past : List CallAnswer} {u ip : String}
  {c : ConnId}

theorem sendAuthError_justified (error : String) :
    Justified frame role past (sendAuthError c error) :=
  justified_act (.elsewhere rfl)

theorem fail_justified (error : String) :
    Justified frame role past (act (.recordFailure u) >>= fun _ => sendAuthError c error) :=
  justified_then (.elsewhere rfl) fun _ => sendAuthError_justified error

theorem enrolDevice_justified (hframe : frame.Authenticates u) :
    Justified frame role past (enrolDevice u c ip) := by
  refine justified_then (.elsewhere rfl) fun _ => justified_ask (.elsewhere rfl) fun online => ?_
  cases online with
  | false => exact sendAuthError_justified _
  | true =>
      refine justified_ask (.registered hframe) fun registered => ?_
      cases registered with
      | error e => exact sendAuthError_justified _
      | ok deviceId =>
          refine justified_then (.elsewhere rfl) fun _ => justified_act (.enrolled ?_)
          exact ⟨_, List.mem_cons_of_mem _ List.mem_cons_self, _, _, rfl⟩

theorem authDesktopKey_justified (key : String) :
    Justified frame role past (authDesktopKey u key c) := by
  refine justified_ask (.elsewhere rfl) fun valid => ?_
  rcases valid with e | valid
  · exact fail_justified _
  · cases valid with
    | false => exact fail_justified _
    | true =>
        exact justified_then (.elsewhere rfl) fun _ => justified_then (.elsewhere rfl) fun _ =>
          justified_act (.elsewhere rfl)

theorem authTotp_justified (hframe : frame.Authenticates u) (totp : Option String) :
    Justified frame role past (authTotp u totp c ip) := by
  refine justified_ask (.elsewhere rfl) fun needed => ?_
  rcases needed with e | needed
  · exact enrolDevice_justified hframe
  · cases needed with
    | false => exact enrolDevice_justified hframe
    | true =>
        cases totp with
        | none => exact sendAuthError_justified _
        | some code =>
            refine justified_ask (.elsewhere rfl) fun verified => ?_
            cases verified with
            | error e => exact fail_justified _
            | ok _ => exact enrolDevice_justified hframe

theorem authPassword_justified (hframe : frame.Authenticates u)
    (passwordHash totp : Option String) :
    Justified frame role past (authPassword u passwordHash totp c ip) := by
  cases passwordHash with
  | none => exact sendAuthError_justified _
  | some hash =>
      refine justified_ask (.elsewhere rfl) fun verified => ?_
      cases verified with
      | error e => exact fail_justified _
      | ok _ => exact authTotp_justified hframe totp

theorem welcomeDevice_justified (hframe : frame.Authenticates u) {d : String}
    (hregistered : ⟨.isDeviceRegistered d u, true⟩ ∈ past) :
    Justified frame role past (welcomeDevice u d c ip) := by
  refine justified_then (.elsewhere rfl) fun _ => justified_then (.seen hframe ?_) fun _ => ?_
  · exact List.mem_cons_of_mem _ hregistered
  · refine justified_ask (.elsewhere rfl) fun token => ?_
    cases token with
    | error e => exact justified_act (.elsewhere rfl)
    | ok token =>
        exact justified_then (.elsewhere rfl) fun _ => justified_then (.elsewhere rfl) fun _ =>
          justified_ask (.elsewhere rfl) fun _ => justified_act (.elsewhere rfl)

theorem authDeviceToken_justified (hframe : frame.Authenticates u) (token : String)
    (passwordHash totp : Option String) :
    Justified frame role past (authDeviceToken u token passwordHash totp c ip) := by
  refine justified_ask (.elsewhere rfl) fun valid => ?_
  cases valid with
  | error e => exact authPassword_justified hframe passwordHash totp
  | ok claims =>
      by_cases hsub : claims.sub = u
      · simp only [if_pos hsub]
        refine justified_ask (.elsewhere rfl) fun registered => ?_
        cases registered with
        | false => exact authPassword_justified hframe passwordHash totp
        | true => exact welcomeDevice_justified hframe List.mem_cons_self
      · simp only [if_neg hsub]
        exact authPassword_justified hframe passwordHash totp

theorem handleAuth_justified (hframe : frame.Authenticates u)
    (passwordHash totp deviceToken desktopKey : Option String) :
    Justified frame role past
      (handleAuth u passwordHash totp deviceToken desktopKey c ip) := by
  refine justified_ask (.elsewhere rfl) fun locked => ?_
  cases locked with
  | some retryAfter => exact justified_act (.elsewhere rfl)
  | none =>
      cases desktopKey with
      | some key => exact authDesktopKey_justified key
      | none =>
          cases deviceToken with
          | some token => exact authDeviceToken_justified hframe token passwordHash totp
          | none => exact authPassword_justified hframe passwordHash totp

end

/-!
### Devices and subscriptions
-/

section

variable {frame : Inbound} {role : ConnectionRole} {past : List CallAnswer} {d id kind ip : String}
  {c : ConnId} {msg : ControlMessage} {size : UInt64}

theorem handleDeviceApproved_justified :
    Justified frame role past (handleDeviceApproved d role) := by
  cases role with
  | desktop u =>
      refine justified_ask (.elsewhere rfl) fun taken => ?_
      cases taken with
      | none => trivial
      | some p =>
          refine justified_then (.approved rfl ⟨_, List.mem_cons_self, _, rfl⟩) fun _ => ?_
          refine justified_ask (.elsewhere rfl) fun token => ?_
          cases token with
          | error e => trivial
          | ok token =>
              exact justified_then (.elsewhere rfl) fun _ =>
                justified_ask (.elsewhere rfl) fun _ => justified_act (.elsewhere rfl)
  | _ => trivial

theorem handleDeviceRejected_justified :
    Justified frame role past (handleDeviceRejected d role) := by
  cases role with
  | desktop u =>
      refine justified_ask (.elsewhere rfl) fun taken => ?_
      cases taken with
      | none => trivial
      | some p =>
          refine justified_then (.elsewhere rfl) fun _ => justified_act (.rejected rfl ?_)
          exact ⟨_, List.mem_cons_of_mem _ List.mem_cons_self, _, rfl⟩
  | _ => trivial

theorem handleDeviceRevoke_justified (hframe : frame.control? = some (.deviceRevoke d)) :
    Justified frame role past (handleDeviceRevoke d role c) := by
  cases role with
  | desktop u =>
      exact justified_then (.elsewhere rfl) fun _ => justified_then (.elsewhere rfl) fun _ =>
        justified_then (.revoked hframe) fun _ => justified_act (.elsewhere rfl)
  | _ => trivial

theorem handlePushSubscribe_justified {env : Env} {subscription : Json.Value} :
    Justified frame role past (handlePushSubscribe env subscription role) := by
  cases role with
  | client u d =>
      simp only [handlePushSubscribe]
      split
      · trivial
      · split
        · trivial
        · split
          · split
            · exact justified_act (.subscribed rfl)
            · trivial
          · trivial
  | _ => trivial

theorem handlePushUnsubscribe_justified :
    Justified frame role past (handlePushUnsubscribe role) := by
  cases role with
  | client u d => exact justified_act (.unsubscribed rfl)
  | _ => trivial

theorem handleFileUploadBegin_justified :
    Justified frame role past (handleFileUploadBegin msg id kind size role c) := by
  unfold handleFileUploadBegin
  cases role with
  | unauthenticated => trivial
  | client u d =>
      by_cases hlarge : kind = "bug_report" ∧ maxBugReportUploadSize < size.toNat
      · simp only [if_pos hlarge]
        exact justified_act (.elsewhere rfl)
      · simp only [if_neg hlarge]
        refine justified_ask (.elsewhere rfl) fun granted => ?_
        cases granted with
        | error reason => exact justified_act (.elsewhere rfl)
        | ok _ =>
            by_cases hkind : kind = "bug_report"
            · simp only [if_pos hkind]
              exact justified_then (.elsewhere rfl) fun _ => justified_act (.elsewhere rfl)
            · simp only [if_neg hkind]
              exact justified_act (.elsewhere rfl)
  | desktop u =>
      by_cases hrefused : kind ≠ "bug_report" ∨ maxBugReportUploadSize < size.toNat
      · simp only [if_pos hrefused]
        trivial
      · simp only [if_neg hrefused]
        refine justified_ask (.elsewhere rfl) fun granted => ?_
        cases granted with
        | error reason => trivial
        | ok _ => exact justified_act (.elsewhere rfl)

theorem handleControlMessage_justified {env : Env} (hframe : frame.control? = some msg) :
    Justified frame role [] (handleControlMessage env msg role c ip) := by
  cases hdetached : msg.isDetached with
  | true => exact justified_of_detached (handleControlMessage_detached hdetached)
  | false =>
      cases msg
      case auth version username passwordHash totp deviceToken desktopKey =>
          unfold handleControlMessage
          by_cases hvalid : isValidUsername username = true
          · simp only [if_pos hvalid]
            exact handleAuth_justified ⟨_, _, _, _, _, hframe⟩ passwordHash totp deviceToken
              desktopKey
          · simp only [if_neg hvalid]
            exact justified_act (.elsewhere rfl)
      case deviceApproved => exact handleDeviceApproved_justified
      case deviceRejected => exact handleDeviceRejected_justified
      case deviceRevoke => exact handleDeviceRevoke_justified hframe
      case pushSubscribe => exact handlePushSubscribe_justified
      case pushUnsubscribe => exact handlePushUnsubscribe_justified
      case fileUploadBegin => exact handleFileUploadBegin_justified
      all_goals cases hdetached

theorem processWsMessage_justified (env : Env) (frame : Inbound) (role : ConnectionRole)
    (c : ConnId) (ip : String) :
    Justified frame role [] (processWsMessage env frame role c ip) := by
  cases frame with
  | other => trivial
  | text size parsed =>
      unfold processWsMessage
      by_cases hsize : maxTextMessageSize < size
      · simp only [if_pos hsize]
        trivial
      · simp only [if_neg hsize]
        cases parsed with
        | none => trivial
        | some msg =>
            have hframe : (Inbound.text size (some msg)).control? = some msg := if_neg hsize
            exact handleControlMessage_justified hframe
  | binary data =>
      unfold processWsMessage
      by_cases hsize : maxBinaryMessageSize < data.length
      · simp only [dif_pos hsize]
        trivial
      · simp only [dif_neg hsize]
        exact justified_of_detached handleBinaryMessage_detached

end

end Handler

/-!
## Rows after a call
-/

/-- Each subscription belongs to the account of its device. -/
def Database.Consistent (db : Database) : Prop :=
  forall d row, db.subscription? d = some row ->
    exists device, db.device? d = some device ∧ device.username = row.username

section

variable {env : Env} {app : App} {a : Ambient} {call : Call} {d : String}

/-- A device row after a call was there for the same account, or is that of a device the
call has registered. -/
theorem device_of_exec {row : Device}
    (h : (app.exec env a call).1.database.device? d = some row) :
    (exists old, app.database.device? d = some old ∧ old.username = row.username) ∨
      Registers row.username d ⟨call, (app.exec env a call).2⟩ := by
  cases call
  case updateDeviceLastSeen i ip =>
      rcases App.update_cases a app () (.ok (app.database.updateDeviceLastSeen i ip)) with
        ⟨e, hsame⟩ | ⟨db, hdb, hupdate⟩
      · exact Or.inl ⟨row, by rwa [App.exec, hsame] at h, rfl⟩
      · cases hdb
        rw [App.exec, hupdate] at h
        exact Or.inl (Database.device?_updateDeviceLastSeen h)
  case registerDevice u name ip =>
      rcases App.update_cases a app a.uuid.text
        (app.database.addDevice a.uuid u name (some ip)) with ⟨e, hsame⟩ | ⟨db, hdb, hupdate⟩
      · exact Or.inl ⟨row, by rwa [App.exec, hsame] at h, rfl⟩
      · rw [App.exec, hupdate] at h
        rcases Database.device?_addDevice hdb h with hold | ⟨hd, hu⟩
        · exact Or.inl ⟨row, hold, rfl⟩
        · refine Or.inr ⟨name, ip, ?_⟩
          rw [hu, hd, App.exec, hupdate]
  case revokeDevice i =>
      rcases App.update_cases a app () (app.database.removeDevice i) with
        ⟨e, hsame⟩ | ⟨db, hdb, hupdate⟩
      · exact Or.inl ⟨row, by rwa [App.exec, hsame] at h, rfl⟩
      · rw [App.exec, hupdate] at h
        exact Or.inl ⟨row, Database.device?_removeDevice hdb h, rfl⟩
  case upsertPushSubscription i u json =>
      rcases App.update_cases a app () (app.database.upsertPushSubscription i u json) with
        ⟨e, hsame⟩ | ⟨db, hdb, hupdate⟩
      · exact Or.inl ⟨row, by rwa [App.exec, hsame] at h, rfl⟩
      · rw [App.exec, hupdate] at h
        exact Or.inl ⟨row, (Database.device?_upsertPushSubscription hdb).symm.trans h, rfl⟩
  case removePushSubscription i =>
      rcases App.update_cases a app () (.ok (app.database.removePushSubscription i)) with
        ⟨e, hsame⟩ | ⟨db, hdb, hupdate⟩
      · exact Or.inl ⟨row, by rwa [App.exec, hsame] at h, rfl⟩
      · cases hdb
        rw [App.exec, hupdate] at h
        exact Or.inl ⟨row, (Database.device?_removePushSubscription i).symm.trans h, rfl⟩
  case persistBugReport u i name text screenshot =>
      have hsame := (app.rows_persistBugReport a u i name text screenshot).1
      refine Or.inl ⟨row, ?_, rfl⟩
      unfold Database.device? at h ⊢
      rwa [App.exec, hsame] at h
  all_goals exact Or.inl ⟨row, h, rfl⟩

/-- A subscription row after a call was there for the same account, or is the one the call
has stored. -/
theorem subscription_of_exec {row : PushSubscription}
    (h : (app.exec env a call).1.database.subscription? d = some row) :
    (exists old, app.database.subscription? d = some old ∧ old.username = row.username) ∨
      exists json, call = .upsertPushSubscription d row.username json := by
  cases call
  case updateDeviceLastSeen i ip =>
      rcases App.update_cases a app () (.ok (app.database.updateDeviceLastSeen i ip)) with
        ⟨e, hsame⟩ | ⟨db, hdb, hupdate⟩
      · exact Or.inl ⟨row, by rwa [App.exec, hsame] at h, rfl⟩
      · cases hdb
        rw [App.exec, hupdate] at h
        exact Or.inl ⟨row, (Database.subscription?_updateDeviceLastSeen i ip).symm.trans h, rfl⟩
  case registerDevice u name ip =>
      rcases App.update_cases a app a.uuid.text
        (app.database.addDevice a.uuid u name (some ip)) with ⟨e, hsame⟩ | ⟨db, hdb, hupdate⟩
      · exact Or.inl ⟨row, by rwa [App.exec, hsame] at h, rfl⟩
      · rw [App.exec, hupdate] at h
        exact Or.inl ⟨row, (Database.subscription?_addDevice hdb).symm.trans h, rfl⟩
  case revokeDevice i =>
      rcases App.update_cases a app () (app.database.removeDevice i) with
        ⟨e, hsame⟩ | ⟨db, hdb, hupdate⟩
      · exact Or.inl ⟨row, by rwa [App.exec, hsame] at h, rfl⟩
      · rw [App.exec, hupdate] at h
        exact Or.inl ⟨row, Database.subscription?_removeDevice hdb h, rfl⟩
  case upsertPushSubscription i u json =>
      rcases App.update_cases a app () (app.database.upsertPushSubscription i u json) with
        ⟨e, hsame⟩ | ⟨db, hdb, hupdate⟩
      · exact Or.inl ⟨row, by rwa [App.exec, hsame] at h, rfl⟩
      · rw [App.exec, hupdate] at h
        rcases Database.subscription_of_upsert hdb h with hold | ⟨hd, hu⟩
        · exact Or.inl hold
        · exact Or.inr ⟨json, by rw [hd, hu]⟩
  case removePushSubscription i =>
      rcases App.update_cases a app () (.ok (app.database.removePushSubscription i)) with
        ⟨e, hsame⟩ | ⟨db, hdb, hupdate⟩
      · exact Or.inl ⟨row, by rwa [App.exec, hsame] at h, rfl⟩
      · cases hdb
        rw [App.exec, hupdate] at h
        exact Or.inl ⟨row, Database.subscription?_removePushSubscription h, rfl⟩
  case persistBugReport u i name text screenshot =>
      have hsame := (app.rows_persistBugReport a u i name text screenshot).2
      refine Or.inl ⟨row, ?_, rfl⟩
      unfold Database.subscription? at h ⊢
      rwa [App.exec, hsame] at h
  all_goals exact Or.inl ⟨row, h, rfl⟩

theorem device_of_administer {action : AdminAction} {crypto : Crypto} {db : Database}
    {row : Device} (h : (action.apply crypto db).device? d = some row) :
    db.device? d = some row := by
  cases action with
  | addAccount username account =>
      simp only [AdminAction.apply, Database.createAccount] at h
      split at h <;> exact h
  | removeAccount username =>
      simp only [AdminAction.apply] at h
      cases hremoved : db.removeAccount username with
      | error e =>
          rw [hremoved] at h
          exact h
      | ok db' =>
          rw [hremoved] at h
          exact (Database.device?_removeAccount hremoved h).1
  | setDesktopKey username key =>
      simp only [AdminAction.apply] at h
      split at h <;> exact h

theorem subscription_of_administer {action : AdminAction} {crypto : Crypto} {db : Database}
    {row : PushSubscription} (h : (action.apply crypto db).subscription? d = some row) :
    db.subscription? d = some row := by
  cases action with
  | addAccount username account =>
      simp only [AdminAction.apply, Database.createAccount] at h
      split at h <;> exact h
  | removeAccount username =>
      simp only [AdminAction.apply] at h
      cases hremoved : db.removeAccount username with
      | error e =>
          rw [hremoved] at h
          exact h
      | ok db' =>
          rw [hremoved] at h
          exact Database.subscription?_removeAccount hremoved h
  | setDesktopKey username key =>
      simp only [AdminAction.apply] at h
      split at h <;> exact h

end

/-!
## Runs
-/

namespace Relay

def database (s : Relay) : Database :=
  s.app.database

/-- The device was registered for the account: its row was there when the relay started,
or a handler has registered it since. -/
def DeviceOf (initial : Database) (s : Relay) (u d : String) : Prop :=
  (exists row, initial.device? d = some row ∧ row.username = u) ∨
    exists e, e ∈ s.log ∧ Registers u d e.answered

def issued (initial : Database) (s : Relay) (d : String) : Bool :=
  (initial.device? d).isSome || s.log.any fun e =>
    match e.answered with
    | ⟨.registerDevice .., .ok i⟩ => i = d
    | _ => false

def givesFreshIds (initial : Database) (s : Relay) : RelayLabel -> Bool
  | .resume c a =>
      match s.activity c with
      | .handling _ _ _ (.invoke (.registerDevice ..) _) => !s.issued initial a.uuid.text
      | _ => true
  | _ => true

def GivesFreshIds (initial : Database) (s : Relay) (l : RelayLabel) : Prop :=
  s.givesFreshIds initial l = true

/-- A device gets an id that was never given before, and a desktop only revokes devices
of its own account. -/
def keepsOwnership (initial : Database) (s : Relay) : RelayLabel -> Bool
  | .resume c a =>
      match s.activity c with
      | .handling frame role _ (.invoke call _) =>
          match call, frame.control? with
          | .registerDevice .., _ => !s.issued initial a.uuid.text
          | .revokeDevice _, some (.deviceRevoke d) =>
              (s.database.device? d).all fun row => role.account? = some row.username
          | _, _ => true
      | _ => true
  | _ => true

def KeepsOwnership (initial : Database) (s : Relay) (l : RelayLabel) : Prop :=
  s.keepsOwnership initial l = true

instance (initial : Database) (s : Relay) (l : RelayLabel) :
    Decidable (s.KeepsOwnership initial l) :=
  inferInstanceAs (Decidable (_ = true))

/-- Whatever names a device for an account names one that was registered for it. -/
structure Owned (initial : Database) (s : Relay) : Prop where
  device : forall {d row}, s.database.device? d = some row ->
    s.DeviceOf initial row.username d
  subscription : forall {d row}, s.database.subscription? d = some row ->
    s.DeviceOf initial row.username d
  pending : forall {u p}, s.broker.Pends u p -> s.DeviceOf initial u p.deviceId
  role : forall {c u d}, s.role c = .client u d -> d = "desktop" ∨ s.DeviceOf initial u d
  received : forall {c frame u d past task},
    s.activity c = .handling frame (.client u d) past task ->
      d = "desktop" ∨ s.DeviceOf initial u d
  checked : forall {c frame role past task}, s.activity c = .handling frame role past task ->
    forall u d, ⟨.isDeviceRegistered d u, true⟩ ∈ past -> s.DeviceOf initial u d
  taken : forall {c frame role past task}, s.activity c = .handling frame role past task ->
    forall u p answered, answered ∈ past -> Takes u p answered -> s.DeviceOf initial u p.deviceId
  unique : forall {u v d}, s.DeviceOf initial u d -> s.DeviceOf initial v d -> u = v
  justified : forall {c frame role past task}, s.activity c = .handling frame role past task ->
    Handler.Justified frame role past task

theorem owned_init (auth : AuthManager) {initial : Database} (hinitial : initial.Consistent) :
    Owned initial (init auth initial) where
  device := fun h => Or.inl ⟨_, h, rfl⟩
  subscription := fun h => by
    rcases hinitial _ _ h with ⟨device, hdevice, husername⟩
    exact Or.inl ⟨device, hdevice, husername⟩
  pending := by
    rintro u p ⟨st, hst, _⟩
    simp [init, broker, Broker.account, Broker.new] at hst
  role := fun h => by cases h
  received := fun h => by cases h
  checked := fun h => by cases h
  taken := fun h => by cases h
  unique := by
    rintro u v d (⟨row, hrow, rfl⟩ | ⟨e, he, _⟩) (⟨row', hrow', rfl⟩ | ⟨e', he', _⟩)
    · rw [hrow] at hrow'
      rw [Option.some.inj hrow']
    · cases he'
    · cases he
    · cases he
  justified := fun h => by cases h

section

variable {env : Env} {initial : Database} {s s' : Relay} {l : RelayLabel} {c : ConnId}
  {u v d : String}

theorem DeviceOf.step (h : s.DeviceOf initial u d) (hs : Sound s) (hstep : Transition env s l s') :
    s'.DeviceOf initial u d := by
  rcases h with hrow | ⟨e, he, hregisters⟩
  · exact Or.inl hrow
  · exact Or.inr ⟨e, mem_log_step hs hstep he, hregisters⟩

theorem issued_of_deviceOf (h : s.DeviceOf initial u d) : s.issued initial d = true := by
  unfold issued
  rcases h with ⟨row, hrow, _⟩ | ⟨e, he, name, ip, hregisters⟩
  · simp [hrow]
  · rw [Bool.or_eq_true_iff]
    refine Or.inr (List.any_eq_true.mpr ⟨e, he, ?_⟩)
    rw [hregisters]
    simp

theorem uuid_of_registers {app : App} {a : Ambient} {call : Call}
    (h : Registers u d ⟨call, (app.exec env a call).2⟩) :
    d = a.uuid.text ∧ exists name ip, call = .registerDevice u name ip := by
  rcases h with ⟨name, ip, h⟩
  have hcall : call = .registerDevice u name ip := congrArg Answered.call h
  subst hcall
  refine ⟨?_, name, ip, rfl⟩
  rcases App.update_cases a app a.uuid.text
    (app.database.addDevice a.uuid u name (some ip)) with ⟨e, hsame⟩ | ⟨db, hdb, hupdate⟩
  · rw [App.exec, hsame] at h
    cases h
  · rw [App.exec, hupdate] at h
    cases h
    rfl

theorem deviceOf_cases (hs : Sound s) (hstep : Transition env s l s')
    (h : s'.DeviceOf initial u d) :
    s.DeviceOf initial u d ∨ exists c a frame role past call next, l = .resume c a ∧
      s.activity c = .handling frame role past (.invoke call next) ∧
      Registers u d ⟨call, s.answer env a call⟩ := by
  rcases h with hrow | ⟨e, he, hregisters⟩
  · exact Or.inl (Or.inl hrow)
  · rcases log_step hs hstep with hsame | ⟨c, a, call, hlabel, _, hlog, _, horigin⟩
    · rw [hsame] at he
      exact Or.inl (Or.inr ⟨e, he, hregisters⟩)
    · rw [hlog, log_perform] at he
      rcases List.mem_cons.mp he with rfl | hold
      · rcases horigin with ⟨frame, role, past, next, hbusy⟩ | ⟨op, rfl, _⟩
        · exact Or.inr ⟨c, a, frame, role, past, call, next, hlabel, hbusy, hregisters⟩
        · rcases hregisters with ⟨name, ip, hregisters⟩
          cases congrArg Answered.call hregisters
      · exact Or.inl (Or.inr ⟨e, hold, hregisters⟩)

theorem fresh_of_registers {a : Ambient} {frame : Inbound} {role : ConnectionRole}
    {past : List CallAnswer} {call : Call} {next : call.Reply -> Handler Unit}
    (hfresh : s.GivesFreshIds initial (.resume c a))
    (hbusy : s.activity c = .handling frame role past (.invoke call next))
    (h : Registers u d ⟨call, s.answer env a call⟩) : s.issued initial d = false := by
  rcases @uuid_of_registers env u d s.app a call h with ⟨rfl, name, ip, rfl⟩
  simpa [GivesFreshIds, givesFreshIds, hbusy] using hfresh

theorem givesFreshIds_of_keepsOwnership (h : s.KeepsOwnership initial l) :
    s.GivesFreshIds initial l := by
  unfold KeepsOwnership keepsOwnership at h
  unfold GivesFreshIds givesFreshIds
  cases l with
  | resume c a =>
      dsimp only at h ⊢
      split
      · rename_i hact
        rw [hact] at h
        exact h
      · rfl
  | _ => rfl

theorem unique_step (hs : Sound s) (ho : s.Owned initial) (hfresh : s.GivesFreshIds initial l)
    (hstep : Transition env s l s') (hu : s'.DeviceOf initial u d) (hv : s'.DeviceOf initial v d) :
    u = v := by
  have hmixed : forall {u v}, s.DeviceOf initial u d ->
      (exists c a frame role past call next, l = .resume c a ∧
        s.activity c = .handling frame role past (.invoke call next) ∧
        Registers v d ⟨call, s.answer env a call⟩) -> u = v := by
    rintro u v hold ⟨c, a, frame, role, past, call, next, rfl, hbusy, hregisters⟩
    have hnew := fresh_of_registers hfresh hbusy hregisters
    rw [issued_of_deviceOf hold] at hnew
    cases hnew
  rcases deviceOf_cases hs hstep hu with hu | hu
  · rcases deviceOf_cases hs hstep hv with hv | hv
    · exact ho.unique hu hv
    · exact hmixed hu hv
  · rcases deviceOf_cases hs hstep hv with hv | hv
    · exact (hmixed hv hu).symm
    · rcases hu with ⟨c, a, frame, role, past, call, next, rfl, hbusy, hu⟩
      rcases hv with ⟨c', a', frame', role', past', call', next', hlabel, hbusy', hv⟩
      cases hlabel
      rw [hbusy] at hbusy'
      cases hbusy'
      rcases hu with ⟨name, ip, hu⟩
      rcases hv with ⟨name', ip', hv⟩
      have hcall := congrArg Answered.call (hu.symm.trans hv)
      injection hcall

theorem device_step (hs : Sound s) (ho : s.Owned initial) (hstep : step env s l = some s')
    {row : Device} (h : s'.database.device? d = some row) : s'.DeviceOf initial row.username d := by
  have hold : forall {old : Device}, s.database.device? d = some old ->
      old.username = row.username -> s'.DeviceOf initial row.username d := by
    intro old hrow husername
    rw [← husername]
    exact (ho.device hrow).step hs (step_transition hstep)
  rcases database_step hs hstep with hsame | ⟨action, _, hadmin⟩ |
      ⟨c, a, frame, role, past, call, next, _, _, happ, hlog⟩
  · rw [database, hsame] at h
    exact hold h rfl
  · rw [database, hadmin] at h
    exact hold (device_of_administer h) rfl
  · rw [database, happ] at h
    rcases device_of_exec h with ⟨old, hrow, husername⟩ | hregisters
    · exact hold hrow husername
    · unfold DeviceOf
      rw [hlog, log_perform]
      exact Or.inr ⟨_, List.mem_cons_self, hregisters⟩

theorem subscription_step (hs : Sound s) (ho : s.Owned initial) (hstep : step env s l = some s')
    {row : PushSubscription} (h : s'.database.subscription? d = some row) :
    s'.DeviceOf initial row.username d := by
  have hold : forall {old : PushSubscription}, s.database.subscription? d = some old ->
      old.username = row.username -> s'.DeviceOf initial row.username d := by
    intro old hrow husername
    rw [← husername]
    exact (ho.subscription hrow).step hs (step_transition hstep)
  rcases database_step hs hstep with hsame | ⟨action, _, hadmin⟩ |
      ⟨c, a, frame, role, past, call, next, _, hbusy, happ, hlog⟩
  · rw [database, hsame] at h
    exact hold h rfl
  · rw [database, hadmin] at h
    exact hold (subscription_of_administer h) rfl
  · rw [database, happ] at h
    rcases subscription_of_exec h with ⟨old, hrow, husername⟩ | ⟨json, rfl⟩
    · exact hold hrow husername
    · -- The device of the connection has stored its subscription.
      cases (ho.justified hbusy).1 with
      | elsewhere hcall => cases hcall
      | subscribed hrole =>
          subst hrole
          rcases ho.received hbusy with rfl | hdevice
          · rcases Database.subscription?_eq_some.mp h with ⟨id, hid, _⟩
            exact absurd id.length_eq (by rw [hid]; decide)
          · exact hdevice.step hs (step_transition hstep)

theorem pending_step (hs : Sound s) (ho : s.Owned initial) (hstep : Transition env s l s')
    {p : PendingDevice} (h : s'.broker.Pends u p) : s'.DeviceOf initial u p.deviceId := by
  cases step_effect hs hstep with
  | none haccount hlog hclock halive =>
      rcases h with ⟨st, hst, hp⟩
      exact (ho.pending ⟨st, (haccount u).symm.trans hst, hp⟩).step hs hstep
  | handler hclock hbusy hbroker hlog hnow =>
      rename_i c a frame role past call next
      rw [hbroker] at h
      rcases broker_perform_cases env s c a call with ⟨op, rfl⟩ | ⟨-, hsame⟩
      · rcases Broker.pends_exec h with hpends | rfl
        · exact (ho.pending hpends).step hs hstep
        · cases (ho.justified hbusy).1 with
          | elsewhere hcall => cases hcall
          | enrolled hregistered =>
              rcases hregistered with ⟨answered, hmem, hregisters⟩
              rcases hs.logged hbusy answered hmem with ⟨e, he, _, rfl⟩
              exact Or.inr ⟨e, mem_log_step hs hstep he, hregisters⟩
      · rw [hsame] at h
        exact (ho.pending h).step hs hstep
  | cleanup hclock hbusy hcall hbroker hlog hnow =>
      rename_i c a op next
      rw [hbroker] at h
      rcases Broker.pends_exec h with hpends | rfl
      · exact (ho.pending hpends).step hs hstep
      · generalize s.role c = role at hcall
        cases hcall

theorem role_deviceOf_step (hs : Sound s) (ho : s.Owned initial) (hstep : Transition env s l s')
    (h : s'.role c = .client u d) : d = "desktop" ∨ s'.DeviceOf initial u d := by
  rcases role_step hs hstep c with hsame | ⟨hnone, _⟩ | ⟨a, frame, role, past, next, _, hbusy⟩
  · rw [hsame] at h
    exact (ho.role h).imp_right fun hdevice => hdevice.step hs hstep
  · rw [hnone] at h
    cases h
  · rw [h] at hbusy
    cases (hs.behaves hbusy).1.permitted with
    | privately hcall => cases hcall
    | keyRole hframe hkey => exact Or.inl rfl
    | tokenRole hframe hdevice => exact Or.inr ((ho.checked hbusy u d hdevice).step hs hstep)

theorem deviceOf_checked (ho : s.Owned initial) {a : Ambient}
    (h : s.answer env a (.isDeviceRegistered d u) = true) : s.DeviceOf initial u d := by
  have hregistered : (!a.dbFault && s.database.isDeviceRegistered d u) = true := h
  have hrow := (Bool.and_eq_true_iff.mp hregistered).2
  unfold Database.isDeviceRegistered Database.getDevice at hrow
  cases hdevice : (Database.deviceKey d).bind s.database.devices.lookup with
  | none =>
      rw [hdevice] at hrow
      cases hrow
  | some device =>
      rw [hdevice] at hrow
      have husername : device.username = u := of_decide_eq_true hrow
      rw [← husername]
      exact ho.device hdevice

theorem checked_step (hs : Sound s) (ho : s.Owned initial) (hstep : Transition env s l s')
    {frame : Inbound} {role : ConnectionRole} {past : List CallAnswer} {task : Handler Unit}
    (hact : s'.activity c = .handling frame role past task)
    (h : ⟨.isDeviceRegistered d u, true⟩ ∈ past) : s'.DeviceOf initial u d := by
  rcases handling_step hstep hact with
    hold | ⟨_, _, _, rfl, _⟩ | ⟨a, call, before, next, _, _, hbusy, rfl, _⟩
  · exact (ho.checked hold u d h).step hs hstep
  · cases h
  · rcases List.mem_cons.mp h with hnew | hold
    · have hcall : call = .isDeviceRegistered d u := (congrArg Answered.call hnew).symm
      subst hcall
      injection hnew with _ hreply
      exact (deviceOf_checked ho hreply.symm).step hs hstep
    · exact (ho.checked hbusy u d hold).step hs hstep

theorem taken_owned_step (hs : Sound s) (ho : s.Owned initial) (hstep : Transition env s l s')
    {frame : Inbound} {role : ConnectionRole} {past : List CallAnswer} {task : Handler Unit}
    (hact : s'.activity c = .handling frame role past task) {p : PendingDevice}
    {answered : CallAnswer} (hmem : answered ∈ past) (htakes : Takes u p answered) :
    s'.DeviceOf initial u p.deviceId := by
  rcases handling_step hstep hact with
    hold | ⟨_, _, _, rfl, _⟩ | ⟨a, call, before, next, _, _, hbusy, rfl, _⟩
  · exact (ho.taken hold u p answered hmem htakes).step hs hstep
  · cases hmem
  · rcases List.mem_cons.mp hmem with rfl | hold
    · rcases htakes with ⟨d, htakes⟩
      have hcall : call = .broker (.takePendingDevice u d) := congrArg Answered.call htakes
      subst hcall
      injection htakes with _ hreply
      exact (ho.pending (Broker.pends_of_taken hreply).1).step hs hstep
    · exact (ho.taken hbusy u p answered hold htakes).step hs hstep

theorem received_step (hs : Sound s) (ho : s.Owned initial) (hstep : Transition env s l s')
    {frame : Inbound} {past : List CallAnswer} {task : Handler Unit}
    (hact : s'.activity c = .handling frame (.client u d) past task) :
    d = "desktop" ∨ s'.DeviceOf initial u d := by
  rcases handling_step hstep hact with
    hold | ⟨_, _, hrole, _, _⟩ | ⟨a, call, before, next, _, _, hbusy, _, _⟩
  · exact (ho.received hold).imp_right fun hdevice => hdevice.step hs hstep
  · exact (ho.role hrole.symm).imp_right fun hdevice => hdevice.step hs hstep
  · exact (ho.received hbusy).imp_right fun hdevice => hdevice.step hs hstep

theorem owned_step (hs : Sound s) (ho : s.Owned initial) (hfresh : s.GivesFreshIds initial l)
    (hnext : step env s l = some s') : s'.Owned initial := by
  have hstep := step_transition hnext
  exact
    { device := device_step hs ho hnext
      subscription := subscription_step hs ho hnext
      pending := pending_step hs ho hstep
      role := role_deviceOf_step hs ho hstep
      received := received_step hs ho hstep
      checked := fun hact u d h => checked_step hs ho hstep hact h
      taken := fun hact u p answered hmem htakes => taken_owned_step hs ho hstep hact hmem htakes
      unique := unique_step hs ho hfresh hstep
      justified := fun hact => by
        have hstart := @obeys_step env (fun _ => ActsOn) (fun _ _ _ => True)
          (fun frame role c ip => Handler.processWsMessage_justified env frame role c ip) s s' l
          hstep (fun hbusy => ho.justified hbusy)
        exact hstart hact }

/-!
## Calls stay within the account
-/

/-- The accounts a handler does not act for: neither the one of its role, nor one that its
frame authenticates. -/
def Others (u : String) (frame : Inbound) (v : String) : Prop :=
  v ≠ u ∧ ¬ frame.Authenticates v

theorem rows_of_deviceOf (ho : s.Owned initial) (h : s.DeviceOf initial u d)
    {accounts : String -> Prop} (hu : ¬ accounts u) :
    (forall row, s.database.device? d = some row -> ¬ accounts row.username) ∧
      forall row, s.database.subscription? d = some row -> ¬ accounts row.username := by
  constructor
  · intro row hrow
    rw [ho.unique (ho.device hrow) h]
    exact hu
  · intro row hrow
    rw [ho.unique (ho.subscription hrow) h]
    exact hu

theorem subscription?_desktop (db : Database) : db.subscription? "desktop" = none := by
  cases h : db.subscription? "desktop" with
  | none => rfl
  | some row =>
      rcases Database.subscription?_eq_some.mp h with ⟨id, hid, _⟩
      exact absurd id.length_eq (by rw [hid]; decide)

theorem rows_of_received (ho : s.Owned initial) {frame : Inbound} {past : List CallAnswer}
    {task : Handler Unit} (hbusy : s.activity c = .handling frame (.client u d) past task)
    {accounts : String -> Prop} (hu : ¬ accounts u) :
    forall row, s.database.subscription? d = some row -> ¬ accounts row.username := by
  rcases ho.received hbusy with rfl | hdevice
  · intro row hrow
    rw [subscription?_desktop] at hrow
    cases hrow
  · exact (rows_of_deviceOf ho hdevice hu).2

theorem sameRows_elsewhere {accounts : String -> Prop} {app : App} {a : Ambient} {call : Call}
    (h : call.touchesDevice = false) :
    Database.SameRows accounts app.database (app.exec env a call).1.database := by
  cases call
  case persistBugReport u d name text screenshot =>
      have hsame := app.rows_persistBugReport a u d name text screenshot
      constructor
      · intro id row _
        rw [App.exec, hsame.1]
      · intro id row _
        rw [App.exec, hsame.2]
  case updateDeviceLastSeen => cases h
  case registerDevice => cases h
  case revokeDevice => cases h
  case upsertPushSubscription => cases h
  case removePushSubscription => cases h
  all_goals exact Database.SameRows.refl accounts app.database

theorem sameRows_update {accounts : String -> Prop} {app : App} {a : Ambient} {answer : α}
    {db : Except DbError Database}
    (h : forall db', db = .ok db' -> Database.SameRows accounts app.database db') :
    Database.SameRows accounts app.database (app.update a answer db).1.database := by
  rcases App.update_cases a app answer db with ⟨e, hsame⟩ | ⟨db', hdb, hupdate⟩
  · rw [hsame]
    exact Database.SameRows.refl accounts app.database
  · rw [hupdate]
    exact h db' hdb

theorem sameRows_revoked (ho : s.Owned initial) {accounts : String -> Prop}
    (h : forall row, s.database.device? d = some row -> ¬ accounts row.username)
    {db : Database} (hdb : s.database.removeDevice d = .ok db) :
    Database.SameRows accounts s.database db := by
  cases hdevice : s.database.device? d with
  | none =>
      rcases Database.removeDevice_eq_ok hdb with ⟨id, hid, hpresent, _⟩
      rcases Option.isSome_iff_exists.mp hpresent with ⟨row, hrow⟩
      have hsome : s.database.device? d = some row := Database.device?_eq_some.mpr ⟨id, hid, hrow⟩
      rw [hdevice] at hsome
      cases hsome
  | some device =>
      have hother := (rows_of_deviceOf ho (ho.device hdevice) (h device hdevice)).2
      exact Database.sameRows_removeDevice h hother hdb

theorem not_others_self {frame : Inbound} : ¬ Others u frame u :=
  fun h => h.1 rfl

theorem not_others_named {frame : Inbound} (hframe : frame.Authenticates v) :
    ¬ Others u frame v :=
  fun h => h.2 hframe

theorem sameRows_call (ho : s.Owned initial) {a : Ambient} {frame : Inbound}
    {role : ConnectionRole} {past : List CallAnswer} {call : Call}
    {next : call.Reply -> Handler Unit}
    (hbusy : s.activity c = .handling frame role past (.invoke call next))
    (hrole : role.account? = some u) (hkeeps : s.KeepsOwnership initial (.resume c a)) :
    Database.SameRows (Others u frame) s.database (s.app.exec env a call).1.database := by
  cases (ho.justified hbusy).1 with
  | elsewhere hcall => exact sameRows_elsewhere hcall
  | seen hframe hregistered =>
      refine sameRows_update fun db hdb => ?_
      cases hdb
      have hdevice := ho.checked hbusy _ _ hregistered
      exact Database.sameRows_updateDeviceLastSeen
        (rows_of_deviceOf ho hdevice (not_others_named hframe)).1
  | registered hframe =>
      exact sameRows_update fun db hdb => Database.sameRows_addDevice (not_others_named hframe) hdb
  | enrolled hregistered => exact Database.SameRows.refl _ _
  | approved hdesktop htaken =>
      refine sameRows_update fun db hdb => ?_
      cases hdb
      rcases htaken with ⟨answered, hmem, htakes⟩
      have hdevice := ho.taken hbusy _ _ answered hmem htakes
      rw [hdesktop] at hrole
      cases hrole
      exact Database.sameRows_updateDeviceLastSeen
        (rows_of_deviceOf ho hdevice not_others_self).1
  | rejected hdesktop htaken =>
      rcases htaken with ⟨answered, hmem, htakes⟩
      have hdevice := ho.taken hbusy _ _ answered hmem htakes
      rw [hdesktop] at hrole
      cases hrole
      exact sameRows_update fun db hdb =>
        sameRows_revoked ho (rows_of_deviceOf ho hdevice not_others_self).1 hdb
  | revoked hframe =>
      refine sameRows_update fun db hdb => sameRows_revoked ho (fun row hrow haccounts => ?_) hdb
      simp only [KeepsOwnership, keepsOwnership, hbusy, hframe, hrow, Option.all_some,
        decide_eq_true_eq] at hkeeps
      rw [hrole] at hkeeps
      exact haccounts.1 (Option.some.inj hkeeps).symm
  | subscribed hclient =>
      subst hclient
      cases hrole
      exact sameRows_update fun db hdb =>
        Database.sameRows_upsertPushSubscription not_others_self
          (rows_of_received ho hbusy not_others_self) hdb
  | unsubscribed hclient =>
      subst hclient
      cases hrole
      refine sameRows_update fun db hdb => ?_
      cases hdb
      exact Database.sameRows_removePushSubscription
        (rows_of_received ho hbusy not_others_self)

end

/--
In every run in which each device gets an id that was never given before and desktops only
revoke devices of their own account, whatever a handler does leaves the device and
subscription rows of the accounts alone that it does not act for.
-/
theorem rows_of_others_kept {env : Env} {auth : AuthManager} {initial : Database}
    (hinitial : initial.Consistent) {labels : List RelayLabel} {s s' : Relay} {c : ConnId}
    {a : Ambient} {frame : Inbound} {role : ConnectionRole} {past : List CallAnswer}
    {task : Handler Unit} {u : String} (hrun : Runs env auth initial labels s)
    (hok : Admits (step env) (KeepsOwnership initial) (init auth initial) labels)
    (hact : s.activity c = .handling frame role past task) (hrole : role.account? = some u)
    (hstep : step env s (.resume c a) = some s') (hkeeps : s.KeepsOwnership initial (.resume c a)) :
    Database.SameRows (Others u frame) s.database s'.database := by
  rcases admitted_step_induction (owned_init auth hinitial)
    (fun _ _ _ hs ho hl hnext =>
      owned_step hs ho (givesFreshIds_of_keepsOwnership hl) hnext) hrun hok with ⟨hs, ho⟩
  rcases database_step hs hstep with hsame | ⟨action, hlabel, _⟩ |
      ⟨c', a', frame', role', past', call, next, hlabel, hbusy, happ, _⟩
  · rw [database, database, hsame]
    exact Database.SameRows.refl _ _
  · cases hlabel
  · cases hlabel
    rw [hact] at hbusy
    cases hbusy
    rw [database, database, happ]
    exact sameRows_call ho hact hrole hkeeps

def foreign : Uuid :=
  (Deployment.ambient 0).uuid

def neighbours : Database :=
  { Deployment.database with
    accounts := Deployment.database.accounts.insert "other"
      { passwordHash := Deployment.storedHash, totpSecretEncrypted := none, totpNonce := none }
    devices := Deployment.database.devices.insert foreign
      { username := "other", name := "Phone", lastIp := none } }

theorem neighbours_consistent : neighbours.Consistent := by
  intro d row hrow
  rcases Database.subscription?_eq_some.mp hrow with ⟨id, _, hlookup⟩
  cases hlookup

/-- The desktop of the user revokes a device, up to the last call of its handler. -/
def revoking (d : Uuid) : List RelayLabel :=
  Deployment.open_ 1 :: Deployment.keyAuth 1 ++ Deployment.register 1 ++
    Deployment.start 1 (Deployment.message (.deviceRevoke d.text)) 2

def revoked (d : Uuid) : List RelayLabel :=
  revoking d ++ [.resume 1 (Deployment.ambient 0)]

def owner (s : Relay) (id : Uuid) : Option String :=
  (s.database.devices.lookup id).map Device.username

def actsFor (s : Relay) (c : ConnId) : Option String :=
  match s.activity c with
  | .handling frame role _ _ => if frame.isAuth then none else role.account?
  | _ => none

theorem acting {s : Relay} {c : ConnId} {u : String} (h : s.actsFor c = some u) :
    exists frame role past task, s.activity c = .handling frame role past task ∧
      role.account? = some u ∧ frame.isAuth = false := by
  unfold actsFor at h
  split at h
  · rename_i frame role past task hact
    cases hauth : frame.isAuth with
    | true => simp [hauth] at h
    | false => exact ⟨frame, role, past, task, hact, by simpa [hauth] using h, hauth⟩
  · cases h

theorem follow_revoked {d id : Uuid} {values : Option String × Option String}
    {after : Option String}
    (hbefore : (follow (step Deployment.env) (init Deployment.auth neighbours) (revoking d)).map
      (fun s => (s.actsFor 1, s.owner id)) = some values)
    (hafter : (follow (step Deployment.env) (init Deployment.auth neighbours) (revoked d)).map
      (fun s => s.owner id) = some after) :
    exists s s', Runs Deployment.env Deployment.auth neighbours (revoking d) s ∧
      step Deployment.env s (.resume 1 (Deployment.ambient 0)) = some s' ∧
      s.actsFor 1 = values.1 ∧ s.owner id = values.2 ∧ s'.owner id = after := by
  rcases Option.map_eq_some_iff.mp hbefore with ⟨s, hs, rfl⟩
  rcases Option.map_eq_some_iff.mp hafter with ⟨s', hs', howner⟩
  rcases follow_append_eq_some.mp hs' with ⟨m, hm, hlast⟩
  have hsame : s = m := Option.some.inj (hs.symm.trans hm)
  subst hsame
  rcases follow_cons_eq_some.mp hlast with ⟨r, hresume, hr⟩
  cases hr
  exact ⟨s, s', hs, hresume, rfl, rfl, howner⟩

theorem rows_of_others_kept_example : exists s s' frame,
    Runs Deployment.env Deployment.auth neighbours (revoking Deployment.phone) s ∧
      step Deployment.env s (.resume 1 (Deployment.ambient 0)) = some s' ∧
      s.owner Deployment.phone = some "user" ∧ s'.owner Deployment.phone = none ∧
      frame.isAuth = false ∧ Database.SameRows (Others "user" frame) s.database s'.database := by
  rcases @follow_revoked Deployment.phone Deployment.phone (some "user", some "user") none
    (by decide +kernel) (by decide +kernel) with ⟨s, s', hrun, hstep, hacts, hbefore, hafter⟩
  rcases acting hacts with ⟨frame, role, past, task, hact, hrole, hauth⟩
  have hall : Admits (step Deployment.env) (KeepsOwnership neighbours)
      (init Deployment.auth neighbours) (revoked Deployment.phone) := by
    decide +kernel
  rcases (admits_append hrun).mp hall with ⟨hok, hlast⟩
  exact ⟨s, s', frame, hrun, hstep, hbefore, hafter, hauth,
    rows_of_others_kept neighbours_consistent hrun hok hact hrole hstep hlast.1⟩

/-- The desktop of the user revokes the device of another account. -/
theorem row_of_other_lost : exists s s' frame role past task,
    Runs Deployment.env Deployment.auth neighbours (revoking foreign) s ∧
      s.activity 1 = .handling frame role past task ∧ role.account? = some "user" ∧
      frame.isAuth = false ∧ step Deployment.env s (.resume 1 (Deployment.ambient 0)) = some s' ∧
      ¬ Database.SameRows (fun v => v ≠ "user") s.database s'.database := by
  rcases @follow_revoked foreign foreign (some "user", some "other") none
    (by decide +kernel) (by decide +kernel) with ⟨s, s', hrun, hstep, hacts, hbefore, hafter⟩
  rcases acting hacts with ⟨frame, role, past, task, hact, hrole, hauth⟩
  refine ⟨s, s', frame, role, past, task, hrun, hact, hrole, hauth, hstep, fun hsame => ?_⟩
  rcases Option.map_eq_some_iff.mp hbefore with ⟨row, hrow, hname⟩
  have hothers : row.username ≠ "user" := by
    rw [hname]
    decide
  have hkept := (hsame.devices foreign row hothers).mpr hrow
  rw [owner, hkept] at hafter
  cases hafter

end Relay

end CommandRelay
