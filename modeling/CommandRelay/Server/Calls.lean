import CommandRelay.Broker.Calls
import CommandRelay.Foundation.Program
import CommandRelay.Push.Endpoint
import CommandRelay.Server.Auth

/-!
# Calls of the socket handlers

A handler works through atomic calls: critical sections of the broker, lookups
of the authentication manager and the database, and changes of its own socket's
role.  Between two calls of one handler, others may make theirs.
-/

namespace CommandRelay

open Foundation

/-- The state machine of a WebSocket connection after upgrade. -/
inductive ConnectionRole where
  | unauthenticated
  | desktop (username : String)
  | client (username deviceId : String)
  deriving DecidableEq

inductive Call where
  | broker (c : BrokerCall)
  -- The connection's own task
  | setRole (role : ConnectionRole)
  | panic
  -- Authentication
  | checkRateLimit (username : String)
  | recordFailure (username : String)
  | clearRateLimit (username : String)
  | verifyDesktopKey (username key : String)
  | validateJwt (token : String)
  | createJwt (username deviceId : String)
  | verifyPassword (username passwordHash : String)
  | hasTotp (username : String)
  | verifyTotp (username code : String)
  -- Devices
  | isDeviceRegistered (deviceId username : String)
  | updateDeviceLastSeen (deviceId ip : String)
  | registerDevice (username name ip : String)
  | revokeDevice (deviceId : String)
  -- Push
  | publicKey
  | upsertPushSubscription (deviceId username json : String)
  | removePushSubscription (deviceId : String)
  | pushToUser (username : String) (payload : Json)
  -- Other
  | persistBugReport (username deviceId : String) (deviceName : Option String)
      (text : String) (screenshot : Bytes)
  | utcNow

namespace Call

@[reducible] def Reply : Call -> Type
  | broker c => c.Reply
  | setRole _ => Unit
  | panic => Unit
  | checkRateLimit _ => Option Nat
  | recordFailure _ => Unit
  | clearRateLimit _ => Unit
  | verifyDesktopKey .. => Except AuthError Bool
  | validateJwt _ => Except AuthError JwtClaims
  | createJwt .. => Except AuthError String
  | verifyPassword .. => Except AuthError Unit
  | hasTotp _ => Except AuthError Bool
  | verifyTotp .. => Except AuthError Unit
  | isDeviceRegistered .. => Bool
  | updateDeviceLastSeen .. => Except DbError Unit
  | registerDevice .. => Except DbError String
  | revokeDevice _ => Except DbError Unit
  | publicKey => String
  | upsertPushSubscription .. => Except DbError Unit
  | removePushSubscription _ => Except DbError Unit
  | pushToUser .. => Unit
  | persistBugReport .. => Unit
  | utcNow => String

end Call

abbrev CallAnswer := Answered Call Call.Reply

/-!
## The application
-/

/-- What the application is deployed with. -/
structure Env where
  crypto : Crypto
  parseUrl : String -> Option Url
  /-- The VAPID application server key. -/
  publicKey : String

/-- What a call reads from its surroundings: the clocks, a fresh UUID, and
whether the database or the file system fails it. -/
structure Ambient where
  now : Instant
  unix : Nat
  utc : String
  uuid : Uuid
  dbFault : Bool
  fileFault : Bool

/-- The shared state behind every handler, with the push fan-outs spawned so far. -/
structure App where
  broker : Broker
  auth : AuthManager
  database : Database
  pushes : List (String × Json)

namespace App

def query (a : Ambient) (answer : α) : Except DbError α :=
  if a.dbFault then .error .sqlite else .ok answer

def authQuery (a : Ambient) (answer : Except AuthError α) : Except AuthError α :=
  if a.dbFault then .error (.db .sqlite) else answer

def update (a : Ambient) (app : App) (answer : α) (db : Except DbError Database) :
    App × Except DbError α :=
  if a.dbFault then (app, .error .sqlite)
  else
    match db with
    | .error e => (app, .error e)
    | .ok db => ({ app with database := db }, .ok answer)

/-- `persist_bug_report`: an empty screenshot or a file error leaves the row
without one, and a database error leaves no row. -/
def persistBugReport (a : Ambient) (app : App) (username deviceId : String)
    (deviceName : Option String) (text : String) (screenshot : Bytes) : App :=
  let stored := if screenshot.isEmpty || a.fileFault then none else some screenshot
  if a.dbFault then app
  else
    { app with
      database := app.database.insertBugReport username deviceId deviceName text stored }

def exec (env : Env) (a : Ambient) (app : App) : (c : Call) -> App × c.Reply
  | .broker c =>
      let r := app.broker.exec a.now c
      ({ app with broker := r.1 }, r.2)
  | .setRole _ => (app, ())
  | .panic => (app, ())
  | .checkRateLimit username => (app, app.auth.checkRateLimit username a.now)
  | .recordFailure username =>
      ({ app with auth := app.auth.recordFailure username a.now }, ())
  | .clearRateLimit username => ({ app with auth := app.auth.clearRateLimit username }, ())
  | .verifyDesktopKey username key =>
      (app, authQuery a (.ok (app.database.verifyDesktopKey env.crypto username key)))
  | .validateJwt token => (app, app.auth.validateJwt env.crypto token a.unix)
  | .createJwt username deviceId =>
      (app, app.auth.createJwt env.crypto username deviceId a.unix)
  | .verifyPassword username passwordHash =>
      (app, authQuery a (app.database.verifyPassword env.crypto username passwordHash))
  | .hasTotp username => (app, authQuery a (app.database.hasTotp username))
  | .verifyTotp username code =>
      (app, authQuery a (app.database.verifyTotp env.crypto username code a.unix))
  | .isDeviceRegistered deviceId username =>
      (app, !a.dbFault && app.database.isDeviceRegistered deviceId username)
  | .updateDeviceLastSeen deviceId ip =>
      app.update a () (.ok (app.database.updateDeviceLastSeen deviceId ip))
  | .registerDevice username name ip =>
      app.update a a.uuid.text (app.database.addDevice a.uuid username name (some ip))
  | .revokeDevice deviceId => app.update a () (app.database.removeDevice deviceId)
  | .publicKey => (app, env.publicKey)
  | .upsertPushSubscription deviceId username json =>
      app.update a () (app.database.upsertPushSubscription deviceId username json)
  | .removePushSubscription deviceId =>
      app.update a () (.ok (app.database.removePushSubscription deviceId))
  | .pushToUser username payload =>
      ({ app with pushes := app.pushes ++ [(username, payload)] }, ())
  | .persistBugReport username deviceId deviceName text screenshot =>
      (app.persistBugReport a username deviceId deviceName text screenshot, ())
  | .utcNow => (app, a.utc)

theorem update_cases (a : Ambient) (app : App) (answer : α) (db : Except DbError Database) :
    (exists e, app.update a answer db = (app, .error e)) ∨
      exists db', db = .ok db' ∧
        app.update a answer db = ({ app with database := db' }, .ok answer) := by
  unfold update
  by_cases hfault : a.dbFault = true
  · rw [if_pos hfault]
    exact Or.inl ⟨_, rfl⟩
  · rw [if_neg hfault]
    cases db with
    | error e => exact Or.inl ⟨e, rfl⟩
    | ok db => exact Or.inr ⟨db, rfl, rfl⟩

theorem rows_persistBugReport (a : Ambient) (app : App) (u d : String) (name : Option String)
    (text : String) (screenshot : Bytes) :
    (app.persistBugReport a u d name text screenshot).database.devices = app.database.devices ∧
      (app.persistBugReport a u d name text screenshot).database.pushSubscriptions =
        app.database.pushSubscriptions := by
  unfold persistBugReport
  dsimp only
  split
  · exact ⟨rfl, rfl⟩
  · exact ⟨rfl, rfl⟩

end App

end CommandRelay
