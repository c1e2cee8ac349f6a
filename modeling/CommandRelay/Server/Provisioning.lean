import CommandRelay.Server.Process

/-!
# Provisioned accounts

The administration tool creates an account with a password and a second factor.  Whoever
knows the password and the secret that the tool prints can log in from then on, in every
relay that is started over the database.
-/

namespace CommandRelay

open Foundation

/-- What the administration tool draws and computes for a new account; `none` is an error of
the primitive. -/
structure Provisioner where
  /-- `bcrypt::hash`, with a fresh salt. -/
  bcryptHash : String -> Option String
  /-- A fresh TOTP secret. -/
  secret : Bytes
  /-- Whether a TOTP generator can be made of a secret for an account name. -/
  totpNew : (secret : Bytes) -> (accountName : String) -> Bool
  /-- 12 random bytes. -/
  nonce : Bytes
  /-- Encrypt a TOTP secret with the key derived from the password hash. -/
  encryptTotp : (passwordHash : String) -> (nonce secret : Bytes) -> Option Bytes

namespace AuthManager

def hashPassword (tool : Provisioner) (passwordSha256 : String) : Except AuthError String :=
  match tool.bcryptHash passwordSha256 with
  | none => .error .bcrypt
  | some hash => .ok hash

def generateTotp (tool : Provisioner) (username passwordHash : String) :
    Except AuthError (Bytes × Bytes × Bytes) :=
  if tool.totpNew tool.secret username then
    match tool.encryptTotp passwordHash tool.nonce tool.secret with
    | none => .error .encryption
    | some encrypted => .ok (tool.secret, encrypted, tool.nonce)
  else .error .totp

end AuthManager

def newAccount (crypto : Crypto) (tool : Provisioner) (username password : String) :
    Except AuthError (Account × Bytes) := do
  let hash <- AuthManager.hashPassword tool (crypto.sha256Hex password)
  let (secret, encrypted, nonce) <- AuthManager.generateTotp tool username hash
  return ({ passwordHash := hash, totpSecretEncrypted := some encrypted,
            totpNonce := some nonce }, secret)

/-- The tool's primitives are those that the relay checks with. -/
structure Provisioner.Matches (tool : Provisioner) (crypto : Crypto) : Prop where
  password : forall input hash, tool.bcryptHash input = some hash ->
    crypto.bcryptVerify input hash = some true
  totp : forall passwordHash nonce secret encrypted,
    tool.encryptTotp passwordHash nonce secret = some encrypted ->
      crypto.decryptTotp passwordHash nonce encrypted = some secret

section

variable {crypto : Crypto} {tool : Provisioner} {username password : String} {account : Account}
  {secret : Bytes} {db : Database}

theorem newAccount_eq_ok (h : newAccount crypto tool username password = .ok (account, secret)) :
    tool.bcryptHash (crypto.sha256Hex password) = some account.passwordHash ∧
      exists encrypted, account.totpSecretEncrypted = some encrypted ∧
        account.totpNonce = some tool.nonce ∧
        tool.encryptTotp account.passwordHash tool.nonce secret = some encrypted := by
  unfold newAccount AuthManager.hashPassword at h
  cases hhash : tool.bcryptHash (crypto.sha256Hex password) with
  | none =>
      rw [hhash] at h
      cases h
  | some hash =>
      rw [hhash] at h
      have h : (AuthManager.generateTotp tool username hash >>= fun t => Except.ok
          (({ passwordHash := hash, totpSecretEncrypted := some t.2.1,
              totpNonce := some t.2.2 } : Account), t.1)) = .ok (account, secret) := h
      unfold AuthManager.generateTotp at h
      by_cases hnew : tool.totpNew tool.secret username = true
      · rw [if_pos hnew] at h
        cases hencrypted : tool.encryptTotp hash tool.nonce tool.secret with
        | none =>
            rw [hencrypted] at h
            cases h
        | some encrypted =>
            rw [hencrypted] at h
            cases h
            exact ⟨rfl, encrypted, rfl, rfl, hencrypted⟩
      · rw [if_neg hnew] at h
        cases h

theorem accepts_of_row (hmatches : tool.Matches crypto)
    (h : newAccount crypto tool username password = .ok (account, secret))
    (hrow : db.accounts.lookup username = some account) :
    db.verifyPassword crypto username (crypto.sha256Hex password) = .ok () ∧
      db.hasTotp username = .ok true ∧
      forall code unix, db.verifyTotp crypto username code unix = .ok () <->
        crypto.totpCheck secret code unix = some true := by
  rcases newAccount_eq_ok h with ⟨hhash, encrypted, hencrypted, hnonce, hcipher⟩
  have haccount : db.getAccount username = .ok account := by
    unfold Database.getAccount
    rw [hrow]
  refine ⟨?_, ?_, fun code unix => ?_⟩
  · unfold Database.verifyPassword
    rw [haccount]
    simp [hmatches.password _ _ hhash]
  · unfold Database.hasTotp
    rw [haccount]
    simp [hencrypted]
  · unfold Database.verifyTotp
    rw [haccount]
    simp only [hencrypted, hnonce, hmatches.totp _ _ _ _ hcipher]
    cases crypto.totpCheck secret code unix with
    | none => simp
    | some valid => cases valid <;> simp

end

def ProcessLabel.action? : ProcessLabel -> Option AdminAction
  | .administer action | .relay (.administer action) => some action
  | _ => none

def ProcessLabel.removes (u : String) (l : ProcessLabel) : Bool :=
  match l.action? with
  | some (.removeAccount v) => v = u
  | _ => false

theorem ProcessLabel.ne_removeAccount {u : String} {l : ProcessLabel} {action : AdminAction}
    (h : l.removes u = false) (haction : l.action? = some action) :
    action ≠ .removeAccount u := by
  intro heq
  rw [removes, haction, heq] at h
  exact of_decide_eq_false h rfl

theorem AdminAction.account_apply {crypto : Crypto} {db : Database} {action : AdminAction}
    {u : String} {account : Account} (hrow : db.accounts.lookup u = some account)
    (hkept : action ≠ .removeAccount u) :
    (action.apply crypto db).accounts.lookup u = some account := by
  cases action with
  | addAccount v added =>
      rcases @apply_addAccount crypto db v added with ⟨hsame, _⟩ | ⟨hadded, hnone⟩
      · rw [hsame]
        exact hrow
      · have hne : u ≠ v := by
          intro heq
          rw [← heq, hrow] at hnone
          cases hnone
        rw [hadded]
        exact (AList.lookup_insert_ne hne).trans hrow
  | removeAccount v =>
      have hne : u ≠ v := fun heq => hkept (heq ▸ rfl)
      rw [lookup_removeAccount_ne hne]
      exact hrow
  | setDesktopKey v key =>
      rw [accounts_setDesktopKey]
      exact hrow

namespace Process

section

variable {env : Env} {codec : KeyCodec} {database : Database} {labels : List ProcessLabel}
  {p p' : Process} {l : ProcessLabel} {u : String} {account : Account}

theorem sound_of_runs (hrun : Runs env codec database labels p) :
    forall {key relay}, p = .up key relay -> Relay.Sound relay := by
  refine follow_labels_induction (motive := fun _ p =>
    forall {key relay}, p = .up key relay -> Relay.Sound relay) (fun h => by cases h) ?_ hrun
  intro _ p l p' _ hp hnext key relay hup
  cases moves_of_step hnext with
  | started hstarted =>
      cases hup
      exact Relay.sound_init _ _
  | ran hran =>
      cases hup
      exact Relay.sound_step (hp rfl) (Relay.step_transition hran)
  | failed hfailed => cases hup
  | stopped => cases hup
  | administered => cases hup

theorem accounts_serve (a : Startup) (db : Database) :
    (CommandRelay.serve codec a db).1.accounts = db.accounts := by
  have hinit : (PushManager.init codec a db).1.accounts = db.accounts := by
    unfold PushManager.init
    repeat' split
    all_goals rfl
  have hnew : forall db, (AuthManager.new codec a db).1.accounts = db.accounts := by
    intro db
    unfold AuthManager.new
    dsimp only
    repeat' split
    all_goals rfl
  unfold CommandRelay.serve
  dsimp only
  repeat' split
  all_goals first | exact hinit | exact (hnew _).trans hinit

theorem account_moves
    (hsound : forall {key relay}, p = .up key relay -> Relay.Sound relay)
    (h : Moves env codec p l p') (hrow : p.database.accounts.lookup u = some account)
    (hkept : l.removes u = false) :
    p'.database.accounts.lookup u = some account := by
  cases h with
  | failed hfailed =>
      rename_i db a
      show (CommandRelay.serve codec a db).1.accounts.lookup u = some account
      rw [accounts_serve]
      exact hrow
  | started hstarted =>
      rename_i db a key auth
      show (CommandRelay.serve codec a db).1.accounts.lookup u = some account
      rw [accounts_serve]
      exact hrow
  | stopped => exact hrow
  | ran hran =>
      rename_i key relay relay' l
      rcases Relay.accounts_step (hsound rfl) hran with ⟨haccounts, _⟩ | ⟨action, rfl, hadmin⟩
      · exact (congrArg (fun t => t.lookup u) haccounts).trans hrow
      · have hadmin : relay'.app.database = action.apply env.crypto relay.app.database := hadmin
        show relay'.app.database.accounts.lookup u = some account
        rw [hadmin]
        exact AdminAction.account_apply hrow (ProcessLabel.ne_removeAccount hkept rfl)
  | administered =>
      exact AdminAction.account_apply hrow (ProcessLabel.ne_removeAccount hkept rfl)

theorem account_kept (hrun : Runs env codec database labels p)
    (hrow : p.database.accounts.lookup u = some account) {more : List ProcessLabel}
    (hmore : follow (step env codec) p more = some p')
    (hkept : forall m, m ∈ more -> m.removes u = false) :
    p'.database.accounts.lookup u = some account := by
  refine follow_labels_induction (motive := fun more p' =>
    (forall m, m ∈ more -> m.removes u = false) ->
      p'.database.accounts.lookup u = some account) (fun _ => hrow) ?_ hmore hkept
  intro more q l q' hq ih hnext hkept
  have hruns : Runs env codec database (labels ++ more) q :=
    follow_append_eq_some.mpr ⟨p, hrun, hq⟩
  refine account_moves (sound_of_runs hruns) (moves_of_step hnext) ?_ ?_
  · exact ih fun m hm => hkept m (List.mem_append_left [l] hm)
  · exact hkept l (List.mem_append_right more List.mem_cons_self)

theorem account_added (hrun : Runs env codec database labels p)
    (hnext : step env codec p l = some p') (hadd : l.action? = some (.addAccount u account))
    (hnew : p.database.accounts.lookup u = none) :
    p'.database.accounts.lookup u = some account := by
  have hrow : forall db : Database, db.accounts.lookup u = none ->
      ((AdminAction.addAccount u account).apply env.crypto db).accounts.lookup u =
        some account := by
    intro db hnone
    rcases @AdminAction.apply_addAccount env.crypto db u account with ⟨_, hold⟩ | ⟨hadded, _⟩
    · rw [hnone] at hold
      cases hold
    · rw [hadded]
      exact AList.lookup_insert db.accounts
  cases moves_of_step hnext with
  | failed hfailed => cases hadd
  | started hstarted => cases hadd
  | stopped => cases hadd
  | ran hran =>
      rename_i key relay relay' l
      cases l with
      | administer action =>
          cases hadd
          cases hran
          exact hrow relay.app.database hnew
      | _ => cases hadd
  | administered =>
      cases hadd
      exact hrow _ hnew

/-- An account that the tool has added can be logged in to from then on: as long as it is not
removed, its password is accepted, and so are the codes of the printed secret and no others,
in every relay over the database and however it is restarted. -/
theorem provisioned_login {tool : Provisioner} (hmatches : tool.Matches env.crypto)
    (hrun : Runs env codec database labels p) {password : String} {secret : Bytes}
    (haccount : newAccount env.crypto tool u password = .ok (account, secret))
    (hnew : p.database.accounts.lookup u = none)
    (hadd : l.action? = some (.addAccount u account)) {more : List ProcessLabel}
    (hmore : follow (step env codec) p (l :: more) = some p')
    (hkept : forall m, m ∈ more -> m.removes u = false) :
    p'.database.verifyPassword env.crypto u (env.crypto.sha256Hex password) = .ok () ∧
      p'.database.hasTotp u = .ok true ∧
      forall code unix, p'.database.verifyTotp env.crypto u code unix = .ok () <->
        env.crypto.totpCheck secret code unix = some true := by
  rcases follow_cons_eq_some.mp hmore with ⟨q, hnext, hrest⟩
  have hadded := account_added hrun hnext hadd hnew
  have hruns : Runs env codec database (labels ++ [l]) q :=
    follow_append_eq_some.mpr ⟨p, hrun, follow_cons_eq_some.mpr ⟨q, hnext, follow_nil q⟩⟩
  exact accepts_of_row hmatches haccount (account_kept hruns hadded hrest hkept)

end

end Process

/-!
## A guest of the deployment
-/

namespace Deployment

def totpSecret : Bytes := List.replicate 20 1
def totpNonce : Bytes := List.replicate 12 2

def encryptedSecret : Bytes :=
  [74, 239, 78, 232, 20, 123, 45, 236, 2, 107, 1, 233, 115, 78, 189, 240, 120, 127, 243, 57, 88,
    246, 209, 82, 194, 158, 69, 196, 124, 179, 79, 203, 102, 202, 201, 139]

def guestEnv : Env :=
  { env with
    crypto :=
      { crypto with
        sha256Hex := fun text => if text = "password" then passwordHash else ""
        decryptTotp := fun hash nonce encrypted =>
          if hash = storedHash ∧ nonce = totpNonce ∧ encrypted = encryptedSecret then
            some totpSecret
          else none } }

def provisioner : Provisioner where
  bcryptHash input := if input = passwordHash then some storedHash else none
  secret := totpSecret
  totpNew secret _ := decide (16 ≤ secret.length)
  nonce := totpNonce
  encryptTotp hash nonce secret :=
    if hash = storedHash ∧ nonce = totpNonce ∧ secret = totpSecret then some encryptedSecret
    else none

theorem matches_provisioner : provisioner.Matches guestEnv.crypto where
  password := by
    intro input hash h
    by_cases hinput : input = passwordHash
    · have h : (if input = passwordHash then some storedHash else none) = some hash := h
      rw [if_pos hinput] at h
      exact congrArg some (decide_eq_true ⟨hinput, (Option.some.inj h).symm⟩)
    · simp [provisioner, hinput] at h
  totp := by
    intro hash nonce secret encrypted h
    by_cases hall : hash = storedHash ∧ nonce = totpNonce ∧ secret = totpSecret
    · have h : (if hash = storedHash ∧ nonce = totpNonce ∧ secret = totpSecret then
          some encryptedSecret else none) = some encrypted := h
      rw [if_pos hall] at h
      have hcipher : hash = storedHash ∧ nonce = totpNonce ∧ encrypted = encryptedSecret :=
        ⟨hall.1, hall.2.1, (Option.some.inj h).symm⟩
      rw [hall.2.2]
      exact if_pos hcipher
    · simp [provisioner, hall] at h

def guest : Account where
  passwordHash := storedHash
  totpSecretEncrypted := some encryptedSecret
  totpNonce := some totpNonce

theorem newAccount_guest :
    newAccount guestEnv.crypto provisioner "guest" "password" = .ok (guest, totpSecret) := rfl

end Deployment

namespace Process

theorem provisioned_login_example : exists p,
    Runs Deployment.guestEnv Deployment.keyCodec Deployment.database
        (.administer (.addAccount "guest" Deployment.guest) :: Deployment.firstDay ++
          Deployment.restart) p ∧
      p.database.verifyPassword Deployment.guestEnv.crypto "guest" Deployment.passwordHash =
        .ok () ∧
      p.database.hasTotp "guest" = .ok true := by
  have hend : (follow (step Deployment.guestEnv Deployment.keyCodec) (.down Deployment.database)
      (.administer (.addAccount "guest" Deployment.guest) :: Deployment.firstDay ++
        Deployment.restart)).isSome = true := by decide +kernel
  rcases Option.isSome_iff_exists.mp hend with ⟨p, hrun⟩
  have hnew : (Process.down Deployment.database).database.accounts.lookup "guest" = none := by
    decide +kernel
  have hkept : forall m, m ∈ Deployment.firstDay ++ Deployment.restart ->
      m.removes "guest" = false := by decide +kernel
  rcases provisioned_login Deployment.matches_provisioner (follow_nil _)
    Deployment.newAccount_guest hnew rfl hrun hkept with ⟨hpassword, htotp, _⟩
  exact ⟨p, hrun, hpassword, htotp⟩

end Process

end CommandRelay
