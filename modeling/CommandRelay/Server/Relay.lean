import Mathlib.Data.List.Induction
import CommandRelay.Server.Discipline

/-!
# Runs of the relay

The relay is the shared application and its sockets.  Each socket handles one
frame at a time, but the handlers of different sockets interleave call by call,
together with the background steps of writers, resync tasks and administration.
A run keeps the calls made so far, newest first.
-/

namespace CommandRelay

open Foundation

/-- Where a socket's task stands. -/
inductive Activity where
  | vacant
  | idle
  | handling (frame : Inbound) (receivedAs : ConnectionRole) (past : List CallAnswer)
      (task : Handler Unit)
  | closing (task : Handler Unit)
  | closed
  | panicked

structure Socket where
  ip : String
  role : ConnectionRole
  activity : Activity

/-- One call of a run: who made it and when, its answer, and the messages it
enqueued. -/
structure RelayEvent where
  conn : ConnId
  now : Instant
  answered : CallAnswer
  enqueued : List (ConnId × WsMessage)

structure Relay where
  app : App
  sockets : ConnId -> Socket
  clock : Instant
  log : List RelayEvent

/-- What the administration tool does to the database. -/
inductive AdminAction where
  | addAccount (username : String) (account : Account)
  | removeAccount (username : String)
  | setDesktopKey (username key : String)

inductive RelayLabel where
  | connect (c : ConnId) (ip : String)
  | receive (c : ConnId) (frame : Inbound)
  | resume (c : ConnId) (a : Ambient)
  | finish (c : ConnId)
  | hangUp (c : ConnId)
  | ping (c : ConnId)
  | nudge (c : ConnId) (now : Instant)
  | drain (c : ConnId)
  | stopWriter (c : ConnId)
  | shutdown
  | administer (action : AdminAction)

def AdminAction.apply (crypto : Crypto) (db : Database) : AdminAction -> Database
  | addAccount username account => ((db.createAccount username account).toOption).getD db
  | removeAccount username => ((db.removeAccount username).toOption).getD db
  | setDesktopKey username key =>
      match db.getAccount username with
      | .error _ => db
      | .ok _ => db.setDesktopKey crypto username key

theorem App.broker_exec_other {env : Env} {app : App} {a : Ambient} {call : Call}
    (h : forall op, call ≠ .broker op) : (app.exec env a call).1.broker = app.broker := by
  have hupdate : forall (α : Type) (answer : α) (db : Except DbError Database),
      (app.update a answer db).1.broker = app.broker := by
    intro α answer db
    unfold App.update
    by_cases hfault : a.dbFault = true
    · rw [if_pos hfault]
    · rw [if_neg hfault]
      cases db <;> rfl
  cases call
  case broker op => exact absurd rfl (h op)
  case updateDeviceLastSeen => exact hupdate _ _ _
  case registerDevice => exact hupdate _ _ _
  case revokeDevice => exact hupdate _ _ _
  case upsertPushSubscription => exact hupdate _ _ _
  case removePushSubscription => exact hupdate _ _ _
  case persistBugReport username deviceId deviceName text screenshot =>
      show (app.persistBugReport a username deviceId deviceName text screenshot).broker = _
      unfold App.persistBugReport
      by_cases hfault : a.dbFault = true
      · simp only [if_pos hfault]
      · simp only [if_neg hfault]
  all_goals rfl

namespace Relay

def init (auth : AuthManager) (database : Database) : Relay where
  app := { broker := Broker.new, auth := auth, database := database, pushes := [] }
  sockets := fun _ => { ip := "", role := .unauthenticated, activity := .vacant }
  clock := 0
  log := []

def broker (s : Relay) : Broker :=
  s.app.broker

def account (s : Relay) (u : String) : Option AccountState :=
  s.broker.account u

def role (s : Relay) (c : ConnId) : ConnectionRole :=
  (s.sockets c).role

def activity (s : Relay) (c : ConnId) : Activity :=
  (s.sockets c).activity

def setBroker (s : Relay) (b : Broker) : Relay :=
  { s with app := { s.app with broker := b } }

def setActivity (s : Relay) (c : ConnId) (act : Activity) : Relay :=
  { s with sockets := Function.update s.sockets c { s.sockets c with activity := act } }

@[simp] theorem role_setBroker (s : Relay) (b : Broker) (c : ConnId) :
    (s.setBroker b).role c = s.role c := rfl

@[simp] theorem activity_setBroker (s : Relay) (b : Broker) (c : ConnId) :
    (s.setBroker b).activity c = s.activity c := rfl

@[simp] theorem account_setActivity (s : Relay) (c : ConnId) (act : Activity)
    (u : String) : (s.setActivity c act).account u = s.account u := rfl

@[simp] theorem broker_setActivity (s : Relay) (c : ConnId) (act : Activity) :
    (s.setActivity c act).broker = s.broker := rfl

@[simp] theorem log_setActivity (s : Relay) (c : ConnId) (act : Activity) :
    (s.setActivity c act).log = s.log := rfl

@[simp] theorem clock_setActivity (s : Relay) (c : ConnId) (act : Activity) :
    (s.setActivity c act).clock = s.clock := rfl

@[simp] theorem role_setActivity (s : Relay) (c : ConnId) (act : Activity)
    (c' : ConnId) : (s.setActivity c act).role c' = s.role c' := by
  by_cases hc : c' = c
  · subst hc
    simp [role, setActivity]
  · simp [role, setActivity, hc]

theorem activity_setActivity (s : Relay) (c : ConnId) (act : Activity) (c' : ConnId) :
    (s.setActivity c act).activity c' = if c' = c then act else s.activity c' := by
  by_cases hc : c' = c
  · subst hc
    simp [activity, setActivity]
  · simp [activity, setActivity, hc]

@[simp] theorem activity_setActivity_same (s : Relay) (c : ConnId) (act : Activity) :
    (s.setActivity c act).activity c = act := by
  simp [activity_setActivity]

theorem activity_setActivity_ne (s : Relay) {c c' : ConnId} (act : Activity)
    (hne : c' ≠ c) : (s.setActivity c act).activity c' = s.activity c' := by
  simp [activity_setActivity, hne]

def roleAfter (role : ConnectionRole) : Call -> ConnectionRole
  | .setRole new => new
  | _ => role

/-- The messages enqueued between two states of the broker, newest first. -/
def newlyEnqueued (b b' : Broker) : List (ConnId × WsMessage) :=
  b'.delivered.take (b'.delivered.length - b.delivered.length)

theorem newlyEnqueued_of_append {b b' : Broker} {new : List (ConnId × WsMessage)}
    (h : b'.delivered = new ++ b.delivered) : newlyEnqueued b b' = new := by
  unfold newlyEnqueued
  rw [h, List.length_append, Nat.add_sub_cancel, List.take_left]

theorem newlyEnqueued_send (b : Broker) (tx : ConnId) (msg : WsMessage) :
    newlyEnqueued b (b.send tx msg).1 = if b.alive tx then [(tx, msg)] else [] := by
  unfold newlyEnqueued
  rw [Broker.delivered_send]
  by_cases halive : b.alive tx = true
  · simp [halive]
  · simp [halive]

section Step

variable (env : Env) (s : Relay) (c : ConnId)

def answer (a : Ambient) (call : Call) : call.Reply :=
  (s.app.exec env a call).2

def perform (a : Ambient) (call : Call) : Relay where
  app := (s.app.exec env a call).1
  sockets := Function.update s.sockets c
    { s.sockets c with role := roleAfter (s.role c) call }
  clock := a.now
  log :=
    { conn := c, now := a.now, answered := ⟨call, s.answer env a call⟩
      enqueued := newlyEnqueued s.broker (s.app.exec env a call).1.broker } :: s.log

@[simp] theorem log_perform (a : Ambient) (call : Call) :
    (s.perform env c a call).log =
      { conn := c, now := a.now, answered := ⟨call, s.answer env a call⟩
        enqueued := newlyEnqueued s.broker (s.app.exec env a call).1.broker } :: s.log :=
  rfl

@[simp] theorem clock_perform (a : Ambient) (call : Call) :
    (s.perform env c a call).clock = a.now := rfl

theorem role_perform (a : Ambient) (call : Call) (c' : ConnId) :
    (s.perform env c a call).role c' =
      if c' = c then roleAfter (s.role c) call else s.role c' := by
  by_cases hc : c' = c
  · subst hc
    simp [role, perform]
  · simp [role, perform, hc]

theorem role_perform_ne (a : Ambient) (call : Call) {c' : ConnId} (hne : c' ≠ c) :
    (s.perform env c a call).role c' = s.role c' := by
  simp [role_perform, hne]

@[simp] theorem activity_perform (a : Ambient) (call : Call) (c' : ConnId) :
    (s.perform env c a call).activity c' = s.activity c' := by
  by_cases hc : c' = c
  · subst hc
    simp [activity, perform]
  · simp [activity, perform, hc]

@[simp] theorem broker_perform (a : Ambient) (op : BrokerCall) :
    (s.perform env c a (.broker op)).broker = (s.broker.exec a.now op).1 := rfl

theorem broker_perform_other {a : Ambient} {call : Call}
    (h : forall op, call ≠ .broker op) : (s.perform env c a call).broker = s.broker :=
  App.broker_exec_other h

theorem broker_perform_cases (a : Ambient) (call : Call) :
    (exists op, call = .broker op) ∨
      (forall op, call ≠ .broker op) ∧ (s.perform env c a call).broker = s.broker := by
  by_cases hop : exists op, call = .broker op
  · exact Or.inl hop
  · have hother : forall op, call ≠ .broker op := fun op h => hop ⟨op, h⟩
    exact Or.inr ⟨hother, s.broker_perform_other env c hother⟩

def resume (a : Ambient) : Option Relay :=
  match s.activity c with
  | .handling frame receivedAs past (.invoke call next) =>
      let s' := s.perform env c a call
      match call with
      | .panic => some (s'.setActivity c .panicked)
      | call =>
          some (s'.setActivity c
            (.handling frame receivedAs (⟨call, s.answer env a call⟩ :: past)
              (next (s.answer env a call))))
  | .closing (.invoke call next) =>
      some ((s.perform env c a call).setActivity c (.closing (next (s.answer env a call))))
  | _ => none

/-- A handler that has returned leaves its socket idle; a finished cleanup
closes it and ends its writer. -/
def finish : Option Relay :=
  match s.activity c with
  | .handling _ _ _ (.done _) => some (s.setActivity c .idle)
  | .closing (.done _) => some ((s.setBroker (s.broker.stopWriter c)).setActivity c .closed)
  | _ => none

def step : RelayLabel -> Option Relay
  | .connect c ip =>
      match s.activity c with
      | .vacant =>
          let s' :=
            { s with
              sockets := Function.update s.sockets c
                { ip := ip, role := .unauthenticated, activity := .idle } }
          some (s'.setBroker (s.broker.send c (.text Handler.serverHello)).1)
      | _ => none
  | .receive c frame =>
      match s.activity c with
      | .idle =>
          some (s.setActivity c (.handling frame (s.role c) []
            (Handler.processWsMessage env frame (s.role c) c (s.sockets c).ip)))
      | _ => none
  | .resume c a => if s.clock ≤ a.now then s.resume env c a else none
  | .finish c => s.finish c
  | .hangUp c =>
      match s.activity c with
      | .idle => some (s.setActivity c (.closing (Handler.cleanup (s.role c) c)))
      | _ => none
  | .ping c =>
      match s.activity c with
      | .idle => some (s.setBroker (s.broker.send c (.text .ping)).1)
      | _ => none
  | .nudge c now =>
      if s.clock ≤ now ∧ c ∈ s.broker.nudges then
        some { s.setBroker (s.broker.runNudge c now) with clock := now }
      else none
  | .drain c =>
      match s.activity c with
      | .vacant => none
      | _ => some (s.setBroker (s.broker.drain c))
  | .stopWriter c =>
      match s.activity c with
      | .vacant => none
      | _ => some (s.setBroker (s.broker.stopWriter c))
  | .shutdown => some (s.setBroker s.broker.broadcastShutdown)
  | .administer action =>
      some { s with
        app := { s.app with database := action.apply env.crypto s.app.database } }

end Step

/-- A run of a relay started over a database. -/
def Runs (env : Env) (auth : AuthManager) (database : Database)
    (labels : List RelayLabel) (s : Relay) : Prop :=
  follow (step env) (init auth database) labels = some s

/-!
## Transitions
-/

/-- A background step: it leaves every account, every socket and the log alone,
and revives no receiver. -/
structure Quiet (s s' : Relay) : Prop where
  account : forall u, s'.account u = s.account u
  sockets : s'.sockets = s.sockets
  log : s'.log = s.log
  clock : s.clock ≤ s'.clock
  alive : forall tx, s'.broker.alive tx = true -> s.broker.alive tx = true

/-- Everything a step can do to a socket; what leaves the sockets alone is one case. -/
inductive Transition (env : Env) (s : Relay) : RelayLabel -> Relay -> Prop where
  | connect {c ip s'} (hvacant : s.activity c = .vacant)
      (hsockets : s'.sockets = Function.update s.sockets c
        { ip := ip, role := .unauthenticated, activity := .idle })
      (haccount : forall u, s'.account u = s.account u) (hlog : s'.log = s.log)
      (hclock : s'.clock = s.clock)
      (halive : forall tx, s'.broker.alive tx = s.broker.alive tx) :
      Transition env s (.connect c ip) s'
  | receive {c frame} (hidle : s.activity c = .idle) :
      Transition env s (.receive c frame)
        (s.setActivity c (.handling frame (s.role c) []
          (Handler.processWsMessage env frame (s.role c) c (s.sockets c).ip)))
  | resume {c a frame receivedAs past call next} (hclock : s.clock ≤ a.now)
      (hbusy : s.activity c = .handling frame receivedAs past (.invoke call next)) :
      Transition env s (.resume c a)
        ((s.perform env c a call).setActivity c
          (.handling frame receivedAs (⟨call, s.answer env a call⟩ :: past)
            (next (s.answer env a call))))
  | panic {c a frame receivedAs past next} (hclock : s.clock ≤ a.now)
      (hbusy : s.activity c = .handling frame receivedAs past (.invoke .panic next)) :
      Transition env s (.resume c a)
        ((s.perform env c a .panic).setActivity c .panicked)
  | returned {c frame receivedAs past}
      (hbusy : s.activity c = .handling frame receivedAs past (.done ())) :
      Transition env s (.finish c) (s.setActivity c .idle)
  | hangUp {c} (hidle : s.activity c = .idle) :
      Transition env s (.hangUp c)
        (s.setActivity c (.closing (Handler.cleanup (s.role c) c)))
  | clean {c a call next} (hclock : s.clock ≤ a.now)
      (hbusy : s.activity c = .closing (.invoke call next)) :
      Transition env s (.resume c a)
        ((s.perform env c a call).setActivity c (.closing (next (s.answer env a call))))
  | closed {c} (hbusy : s.activity c = .closing (.done ())) :
      Transition env s (.finish c)
        ((s.setBroker (s.broker.stopWriter c)).setActivity c .closed)
  | background {l s'} (hquiet : Quiet s s') : Transition env s l s'

/-- A step that only changes the broker, and there no account and no receiver for
the better, is a background step. -/
theorem quiet_setBroker {s : Relay} {b : Broker}
    (haccount : forall u, b.account u = s.broker.account u)
    (halive : forall tx, b.alive tx = true -> s.broker.alive tx = true) :
    Quiet s (s.setBroker b) where
  account := haccount
  sockets := rfl
  log := rfl
  clock := Nat.le_refl _
  alive := halive

theorem alive_sendAll (b : Broker) (txs : List ConnId) (msg : WsMessage) (tx : ConnId) :
    (b.sendAll txs msg).alive tx = b.alive tx := by
  unfold Broker.sendAll
  induction txs generalizing b with
  | nil => rfl
  | cons t rest ih =>
      rw [List.foldl_cons, ih]
      exact Broker.alive_send b t msg tx

theorem alive_foldl_sendAll (b : Broker) (entries : List α)
    (txs : α -> List ConnId) (msg : WsMessage) (tx : ConnId) :
    (entries.foldl (fun b e => b.sendAll (txs e) msg) b).alive tx = b.alive tx := by
  induction entries generalizing b with
  | nil => rfl
  | cons e rest ih =>
      rw [List.foldl_cons, ih]
      exact alive_sendAll b (txs e) msg tx

/-- Every step, with the relay that it makes. -/
inductive Taken (env : Env) (s : Relay) : RelayLabel -> Relay -> Prop where
  | connect {c ip} (hvacant : s.activity c = .vacant) :
      Taken env s (.connect c ip)
        (setBroker
          { s with
            sockets := Function.update s.sockets c
              { ip := ip, role := .unauthenticated, activity := .idle } }
          (s.broker.send c (.text Handler.serverHello)).1)
  | receive {c frame} (hidle : s.activity c = .idle) :
      Taken env s (.receive c frame)
        (s.setActivity c (.handling frame (s.role c) []
          (Handler.processWsMessage env frame (s.role c) c (s.sockets c).ip)))
  | resume {c a frame receivedAs past call next} (hclock : s.clock ≤ a.now)
      (hbusy : s.activity c = .handling frame receivedAs past (.invoke call next)) :
      Taken env s (.resume c a)
        ((s.perform env c a call).setActivity c
          (.handling frame receivedAs (⟨call, s.answer env a call⟩ :: past)
            (next (s.answer env a call))))
  | panic {c a frame receivedAs past next} (hclock : s.clock ≤ a.now)
      (hbusy : s.activity c = .handling frame receivedAs past (.invoke .panic next)) :
      Taken env s (.resume c a) ((s.perform env c a .panic).setActivity c .panicked)
  | clean {c a call next} (hclock : s.clock ≤ a.now)
      (hbusy : s.activity c = .closing (.invoke call next)) :
      Taken env s (.resume c a)
        ((s.perform env c a call).setActivity c (.closing (next (s.answer env a call))))
  | returned {c frame receivedAs past}
      (hbusy : s.activity c = .handling frame receivedAs past (.done ())) :
      Taken env s (.finish c) (s.setActivity c .idle)
  | closed {c} (hbusy : s.activity c = .closing (.done ())) :
      Taken env s (.finish c) ((s.setBroker (s.broker.stopWriter c)).setActivity c .closed)
  | hangUp {c} (hidle : s.activity c = .idle) :
      Taken env s (.hangUp c) (s.setActivity c (.closing (Handler.cleanup (s.role c) c)))
  | ping {c} (hidle : s.activity c = .idle) :
      Taken env s (.ping c) (s.setBroker (s.broker.send c (.text .ping)).1)
  | nudge {c now} (hclock : s.clock ≤ now) (hwaits : c ∈ s.broker.nudges) :
      Taken env s (.nudge c now) { s.setBroker (s.broker.runNudge c now) with clock := now }
  | drain {c} (hopened : s.activity c ≠ .vacant) :
      Taken env s (.drain c) (s.setBroker (s.broker.drain c))
  | stopWriter {c} (hopened : s.activity c ≠ .vacant) :
      Taken env s (.stopWriter c) (s.setBroker (s.broker.stopWriter c))
  | shutdown : Taken env s .shutdown (s.setBroker s.broker.broadcastShutdown)
  | administer {action} :
      Taken env s (.administer action)
        { s with app := { s.app with database := action.apply env.crypto s.app.database } }

theorem resume_taken {env : Env} {s s' : Relay} {c : ConnId} {a : Ambient}
    (hclock : s.clock ≤ a.now) (h : s.resume env c a = some s') :
    Taken env s (.resume c a) s' := by
  unfold resume at h
  cases hact : s.activity c with
  | handling frame receivedAs past task =>
      rw [hact] at h
      cases task with
      | done value => simp at h
      | invoke call next =>
          by_cases hpanic : call = .panic
          · subst hpanic
            cases h
            exact .panic hclock hact
          · have hs : s' = (s.perform env c a call).setActivity c
                (.handling frame receivedAs (⟨call, s.answer env a call⟩ :: past)
                  (next (s.answer env a call))) := by
              cases call <;> first | exact (Option.some.inj h).symm | exact absurd rfl hpanic
            rw [hs]
            exact .resume hclock hact
  | closing task =>
      rw [hact] at h
      cases task with
      | done value => simp at h
      | invoke call next =>
          cases h
          exact .clean hclock hact
  | vacant => simp [hact] at h
  | idle => simp [hact] at h
  | closed => simp [hact] at h
  | panicked => simp [hact] at h

theorem finish_taken {env : Env} {s s' : Relay} {c : ConnId}
    (h : s.finish c = some s') : Taken env s (.finish c) s' := by
  unfold finish at h
  cases hact : s.activity c with
  | handling frame receivedAs past task =>
      rw [hact] at h
      cases task with
      | invoke call next => simp at h
      | done value =>
          cases h
          exact .returned hact
  | closing task =>
      rw [hact] at h
      cases task with
      | invoke call next => simp at h
      | done value =>
          cases h
          exact .closed hact
  | vacant => simp [hact] at h
  | idle => simp [hact] at h
  | closed => simp [hact] at h
  | panicked => simp [hact] at h

theorem step_taken {env : Env} {s s' : Relay} {l : RelayLabel}
    (h : step env s l = some s') : Taken env s l s' := by
  cases l with
  | connect c ip =>
      cases hact : s.activity c with
      | vacant =>
          simp only [step, hact, Option.some.injEq] at h
          subst h
          exact .connect hact
      | _ => simp [step, hact] at h
  | receive c frame =>
      cases hact : s.activity c with
      | idle =>
          simp only [step, hact, Option.some.injEq] at h
          subst h
          exact .receive hact
      | _ => simp [step, hact] at h
  | resume c a =>
      by_cases hclock : s.clock ≤ a.now
      · simp only [step, if_pos hclock] at h
        exact resume_taken hclock h
      · simp [step, hclock] at h
  | finish c => exact finish_taken h
  | hangUp c =>
      cases hact : s.activity c with
      | idle =>
          simp only [step, hact, Option.some.injEq] at h
          subst h
          exact .hangUp hact
      | _ => simp [step, hact] at h
  | ping c =>
      cases hact : s.activity c with
      | idle =>
          simp only [step, hact, Option.some.injEq] at h
          subst h
          exact .ping hact
      | _ => simp [step, hact] at h
  | nudge c now =>
      by_cases hguard : s.clock ≤ now ∧ c ∈ s.broker.nudges
      · simp only [step, if_pos hguard, Option.some.injEq] at h
        subst h
        exact .nudge hguard.1 hguard.2
      · simp [step, hguard] at h
  | drain c =>
      by_cases hact : s.activity c = .vacant
      · simp [step, hact] at h
      · have hs : s' = s.setBroker (s.broker.drain c) := by
          cases hopened : s.activity c <;> simp_all [step]
        subst hs
        exact .drain hact
  | stopWriter c =>
      by_cases hact : s.activity c = .vacant
      · simp [step, hact] at h
      · have hs : s' = s.setBroker (s.broker.stopWriter c) := by
          cases hopened : s.activity c <;> simp_all [step]
        subst hs
        exact .stopWriter hact
  | shutdown =>
      cases h
      exact .shutdown
  | administer action =>
      cases h
      exact .administer

theorem step_transition {env : Env} {s s' : Relay} {l : RelayLabel}
    (h : step env s l = some s') : Transition env s l s' := by
  cases step_taken h with
  | connect hvacant =>
      exact .connect hvacant rfl (fun u => Broker.account_send _ _ _ u) rfl rfl
        fun tx => Broker.alive_send _ _ _ tx
  | receive hidle => exact .receive hidle
  | resume hclock hbusy => exact .resume hclock hbusy
  | panic hclock hbusy => exact .panic hclock hbusy
  | clean hclock hbusy => exact .clean hclock hbusy
  | returned hbusy => exact .returned hbusy
  | closed hbusy => exact .closed hbusy
  | hangUp hidle => exact .hangUp hidle
  | ping hidle =>
      exact .background (quiet_setBroker (fun u => Broker.account_send _ _ _ u)
        fun tx htx => (Broker.alive_send _ _ _ tx).symm.trans htx)
  | nudge hclock hwaits =>
      exact .background
        { account := fun u => Broker.account_runNudge _ _ _ u
          sockets := rfl
          log := rfl
          clock := hclock
          alive := fun tx htx => (Broker.alive_runNudge _ _ _ tx).symm.trans htx }
  | drain hopened =>
      exact .background (quiet_setBroker (fun _ => rfl) fun _ => Broker.alive_of_alive_drain)
  | stopWriter hopened =>
      exact .background
        (quiet_setBroker (fun _ => rfl) fun _ => Broker.alive_of_alive_stopWriter)
  | shutdown =>
      exact .background (quiet_setBroker (fun u => Broker.account_broadcastShutdown _ u)
        fun tx htx => (alive_foldl_sendAll _ _ _ _ tx).symm.trans htx)
  | administer =>
      exact .background
        { account := fun _ => rfl
          sockets := rfl
          log := rfl
          clock := Nat.le_refl _
          alive := fun _ htx => htx }

/-!
## What a handler is at
-/

def pastOf (s : Relay) (c : ConnId) : List CallAnswer :=
  match s.activity c with
  | .handling _ _ past _ => past
  | _ => []

def upcoming (s : Relay) (c : ConnId) : Option Call :=
  match s.activity c with
  | .handling _ _ _ (.invoke call _) => some call
  | _ => none

theorem pastOf_handling {s : Relay} {c : ConnId} {frame : Inbound} {role : ConnectionRole}
    {past : List CallAnswer} {task : Handler Unit}
    (h : s.activity c = .handling frame role past task) : s.pastOf c = past := by
  rw [pastOf, h]

theorem pastOf_setActivity_ne {s : Relay} {c c' : ConnId} {act : Activity} (hne : c' ≠ c) :
    (s.setActivity c act).pastOf c' = s.pastOf c' := by
  rw [pastOf, activity_setActivity_ne s act hne, pastOf]

theorem pastOf_perform {env : Env} {s : Relay} {c c' : ConnId} {a : Ambient} {call : Call} :
    (s.perform env c a call).pastOf c' = s.pastOf c' := by
  rw [pastOf, activity_perform, pastOf]

theorem pastOf_idle {s : Relay} {c : ConnId} (h : forall {frame role past task},
    s.activity c ≠ .handling frame role past task) : s.pastOf c = [] := by
  unfold pastOf
  cases hact : s.activity c <;> first | rfl | exact absurd hact h

/-!
## What every reachable relay satisfies
-/

def Logged (s : Relay) (c : ConnId) (answered : CallAnswer) : Prop :=
  exists e, e ∈ s.log ∧ e.conn = c ∧ e.answered = answered

def roleOf (role : ConnectionRole) : List CallAnswer -> ConnectionRole
  | [] => role
  | ⟨.setRole new, _⟩ :: _ => new
  | _ :: rest => roleOf role rest

/-- What is left of the cleanup of a socket. -/
inductive Closing (c : ConnId) (role : ConnectionRole) : Handler Unit -> Prop where
  | started : Closing c role (Handler.cleanup role c)
  | unregistered : Closing c role (Handler.send c .close)
  | done : Closing c role (.done ())

structure Sound (s : Relay) : Prop where
  behaves : forall {c frame role past task},
    s.activity c = .handling frame role past task -> Behaves c frame role past task
  role : forall {c frame role past task},
    s.activity c = .handling frame role past task -> s.role c = roleOf role past
  logged : forall {c frame role past task},
    s.activity c = .handling frame role past task ->
      forall answered, answered ∈ past -> s.Logged c answered
  closing : forall {c task}, s.activity c = .closing task -> Closing c (s.role c) task

theorem roleOf_cons (role : ConnectionRole) (answered : CallAnswer)
    (past : List CallAnswer) :
    roleOf role (answered :: past) = roleAfter (roleOf role past) answered.call := by
  rcases answered with ⟨call, r⟩
  cases call <;> rfl

theorem roleOf_eq {role : ConnectionRole} {past : List CallAnswer}
    (h : forall a, a ∈ past -> forall new, a.call ≠ .setRole new) : roleOf role past = role := by
  induction past with
  | nil => rfl
  | cons a rest ih =>
      rw [roleOf_cons, ih fun b hb => h b (List.mem_cons_of_mem a hb)]
      have hcall := h a List.mem_cons_self
      cases hop : a.call
      case setRole new => exact absurd hop (hcall new)
      all_goals rfl

theorem Logged.perform {s : Relay} {c : ConnId} {answered : CallAnswer}
    (h : s.Logged c answered) (env : Env) (c' : ConnId) (a : Ambient) (call : Call) :
    (s.perform env c' a call).Logged c answered := by
  rcases h with ⟨e, he, hc, hanswered⟩
  exact ⟨e, List.mem_cons_of_mem _ he, hc, hanswered⟩

theorem logged_perform (env : Env) (s : Relay) (c : ConnId) (a : Ambient) (call : Call) :
    (s.perform env c a call).Logged c ⟨call, s.answer env a call⟩ :=
  ⟨_, List.mem_cons_self, rfl, rfl⟩

theorem logged_perform_cases {env : Env} {s : Relay} {c c' : ConnId} {a : Ambient}
    {call : Call} {answered : CallAnswer}
    (h : (s.perform env c a call).Logged c' answered) :
    s.Logged c' answered ∨ c' = c ∧ answered = ⟨call, s.answer env a call⟩ := by
  rcases h with ⟨e, he, hconn, hanswered⟩
  rcases List.mem_cons.mp he with heq | hold
  · subst heq
    exact Or.inr ⟨hconn.symm, hanswered.symm⟩
  · exact Or.inl ⟨e, hold, hconn, hanswered⟩

theorem holds_perform {env : Env} {s : Relay} {c c' : ConnId} {a : Ambient}
    {frame : Inbound} {role : ConnectionRole} {past : List CallAnswer} {call : Call}
    {u : String} {place : Place} (hcall : Permitted c frame role past call)
    (h : (s.perform env c a call).broker.Holds u place c') :
    s.broker.Holds u place c' ∨ Insertion c frame role past u place c' ∨
      place = .target ∧ s.broker.Holds u .queue c' := by
  rcases broker_perform_cases env s c a call with ⟨op, rfl⟩ | ⟨-, hsame⟩
  · rcases Broker.holds_exec h with hold | ⟨hu, hinsert⟩ | hmoved
    · exact Or.inl hold
    · exact Or.inr (Or.inl (hcall.insertion hu hinsert))
    · exact Or.inr (Or.inr hmoved.2)
  · rw [hsame] at h
    exact Or.inl h

theorem sound_init (auth : AuthManager) (database : Database) :
    Sound (init auth database) where
  behaves := fun h => by cases h
  role := fun h => by cases h
  logged := fun h => by cases h
  closing := fun h => by cases h

theorem sound_of_others {s s' : Relay} {c : ConnId} (h : Sound s)
    (hactivity : forall c', c' ≠ c -> s'.activity c' = s.activity c')
    (hrole : forall c', c' ≠ c -> s'.role c' = s.role c')
    (hlog : forall c' answered, s.Logged c' answered -> s'.Logged c' answered)
    (hbehaves : forall {frame role past task},
      s'.activity c = .handling frame role past task ->
        Behaves c frame role past task ∧ s'.role c = roleOf role past ∧
          forall answered, answered ∈ past -> s'.Logged c answered)
    (hclosing : forall {task}, s'.activity c = .closing task ->
      Closing c (s'.role c) task) : Sound s' where
  behaves := by
    intro c' frame role past task hact
    by_cases hc : c' = c
    · subst hc
      exact (hbehaves hact).1
    · exact h.behaves ((hactivity c' hc).symm.trans hact)
  role := by
    intro c' frame role past task hact
    by_cases hc : c' = c
    · subst hc
      exact (hbehaves hact).2.1
    · exact (hrole c' hc).trans (h.role ((hactivity c' hc).symm.trans hact))
  logged := by
    intro c' frame role past task hact answered hmem
    by_cases hc : c' = c
    · subst hc
      exact (hbehaves hact).2.2 answered hmem
    · exact hlog c' answered (h.logged ((hactivity c' hc).symm.trans hact) answered hmem)
  closing := by
    intro c' task hact
    by_cases hc : c' = c
    · subst hc
      exact hclosing hact
    · rw [hrole c' hc]
      exact h.closing ((hactivity c' hc).symm.trans hact)

theorem sound_of_handling {s s' : Relay} {c : ConnId} {frame : Inbound}
    {role : ConnectionRole} {past : List CallAnswer} {task : Handler Unit} (h : Sound s)
    (hactivity : forall c', c' ≠ c -> s'.activity c' = s.activity c')
    (hrole : forall c', c' ≠ c -> s'.role c' = s.role c')
    (hlog : forall c' answered, s.Logged c' answered -> s'.Logged c' answered)
    (hnow : s'.activity c = .handling frame role past task)
    (hbehaves : Behaves c frame role past task) (hroleNow : s'.role c = roleOf role past)
    (hlogged : forall answered, answered ∈ past -> s'.Logged c answered) : Sound s' := by
  refine sound_of_others h hactivity hrole hlog ?_ ?_
  · intro frame' role' past' task' hact
    rw [hnow] at hact
    cases hact
    exact ⟨hbehaves, hroleNow, hlogged⟩
  · intro task' hact
    rw [hnow] at hact
    cases hact

theorem sound_of_closing {s s' : Relay} {c : ConnId} {task : Handler Unit} (h : Sound s)
    (hactivity : forall c', c' ≠ c -> s'.activity c' = s.activity c')
    (hrole : forall c', c' ≠ c -> s'.role c' = s.role c')
    (hlog : forall c' answered, s.Logged c' answered -> s'.Logged c' answered)
    (hnow : s'.activity c = .closing task) (hclosing : Closing c (s'.role c) task) :
    Sound s' := by
  refine sound_of_others h hactivity hrole hlog ?_ ?_
  · intro frame role past task' hact
    rw [hnow] at hact
    cases hact
  · intro task' hact
    rw [hnow] at hact
    cases hact
    exact hclosing

theorem sound_of_resting {s s' : Relay} {c : ConnId} {now : Activity} (h : Sound s)
    (hactivity : forall c', c' ≠ c -> s'.activity c' = s.activity c')
    (hrole : forall c', c' ≠ c -> s'.role c' = s.role c')
    (hlog : forall c' answered, s.Logged c' answered -> s'.Logged c' answered)
    (hnow : s'.activity c = now)
    (hrest : now = .idle ∨ now = .panicked ∨ now = .closed) : Sound s' := by
  refine sound_of_others h hactivity hrole hlog ?_ ?_
  · intro frame role past task hact
    rw [← hnow, hact] at hrest
    simp at hrest
  · intro task hact
    rw [← hnow, hact] at hrest
    simp at hrest

theorem closing_next {c : ConnId} {role : ConnectionRole} {call : Call}
    {next : call.Reply -> Handler Unit} (h : Closing c role (.invoke call next))
    (r : call.Reply) : roleAfter role call = role ∧ Closing c role (next r) := by
  generalize htask : Program.invoke call next = task at h
  cases h with
  | started =>
      cases role with
      | unauthenticated =>
          cases htask
          exact ⟨rfl, .done⟩
      | desktop u =>
          cases htask
          exact ⟨rfl, .unregistered⟩
      | client u d =>
          cases htask
          exact ⟨rfl, .unregistered⟩
  | unregistered =>
      cases htask
      exact ⟨rfl, .done⟩
  | done => cases htask

theorem sound_step {env : Env} {s s' : Relay} {l : RelayLabel} (h : Sound s)
    (hstep : Transition env s l s') : Sound s' := by
  cases hstep with
  | connect hvacant hsockets haccount hlog hclock halive =>
      rename_i c ip
      have hidle : s'.activity c = .idle := by simp [activity, hsockets]
      refine sound_of_resting h ?_ ?_ ?_ hidle (.inl rfl)
      · intro c' hc
        simp [activity, hsockets, hc]
      · intro c' hc
        simp [role, hsockets, hc]
      · intro c' answered hlogged
        simpa only [Logged, hlog] using hlogged
  | receive hidle =>
      rename_i c frame
      exact sound_of_handling h (fun c' => activity_setActivity_ne s _)
        (fun c' _ => role_setActivity s c _ c') (fun _ _ hlogged => hlogged)
        (activity_setActivity_same s c _)
        (Handler.processWsMessage_behaves env frame (s.role c) c _)
        (role_setActivity s c _ c) (by simp)
  | resume hclock hbusy =>
      rename_i c a frame receivedAs past call next
      refine sound_of_handling h ?_ ?_ ?_ (activity_setActivity_same _ c _)
        ((h.behaves hbusy).2 _) ?_ ?_
      · intro c' hc
        rw [activity_setActivity_ne _ _ hc, activity_perform]
      · intro c' hc
        rw [role_setActivity, role_perform_ne env s c a call hc]
      · intro c' answered hlogged
        exact hlogged.perform env c a call
      · rw [role_setActivity, role_perform, if_pos rfl, roleOf_cons, h.role hbusy]
      · intro answered hmem
        rcases List.mem_cons.mp hmem with heq | hold
        · rw [heq]
          exact logged_perform env s c a call
        · exact (h.logged hbusy answered hold).perform env c a call
  | panic hclock hbusy =>
      rename_i c a frame receivedAs past next
      refine sound_of_resting h ?_ ?_ ?_ (activity_setActivity_same _ c _) (.inr (.inl rfl))
      · intro c' hc
        rw [activity_setActivity_ne _ _ hc, activity_perform]
      · intro c' hc
        rw [role_setActivity, role_perform_ne env s c a _ hc]
      · intro c' answered hlogged
        exact hlogged.perform env c a _
  | returned hbusy =>
      rename_i c frame receivedAs past
      exact sound_of_resting h (fun c' => activity_setActivity_ne s _)
        (fun c' _ => role_setActivity s c _ c') (fun _ _ hlogged => hlogged)
        (activity_setActivity_same s c _) (.inl rfl)
  | hangUp hidle =>
      rename_i c
      refine sound_of_closing h (fun c' => activity_setActivity_ne s _)
        (fun c' _ => role_setActivity s c _ c') (fun _ _ hlogged => hlogged)
        (activity_setActivity_same s c _) ?_
      rw [role_setActivity]
      exact .started
  | clean hclock hbusy =>
      rename_i c a call next
      have hnext := closing_next (h.closing hbusy) (s.answer env a call)
      refine sound_of_closing h ?_ ?_ ?_ (activity_setActivity_same _ c _) ?_
      · intro c' hc
        rw [activity_setActivity_ne _ _ hc, activity_perform]
      · intro c' hc
        rw [role_setActivity, role_perform_ne env s c a call hc]
      · intro c' answered hlogged
        exact hlogged.perform env c a call
      · rw [role_setActivity, role_perform, if_pos rfl, hnext.1]
        exact hnext.2
  | closed hbusy =>
      rename_i c
      refine sound_of_resting h ?_ ?_ (fun _ _ hlogged => hlogged)
        (activity_setActivity_same _ c _) (.inr (.inr rfl))
      · intro c' hc
        rw [activity_setActivity_ne _ _ hc, activity_setBroker]
      · intro c' _
        rw [role_setActivity, role_setBroker]
  | background hquiet =>
      have hactivity : forall c, s'.activity c = s.activity c :=
        fun c => by rw [activity, hquiet.sockets, activity]
      have hrole : forall c, s'.role c = s.role c :=
        fun c => by rw [role, hquiet.sockets, role]
      have hlogged : forall c answered, s.Logged c answered -> s'.Logged c answered :=
        fun c answered hlog => by simpa only [Logged, hquiet.log] using hlog
      exact
        { behaves := fun hact => h.behaves ((hactivity _).symm.trans hact)
          role := fun hact => (hrole _).trans (h.role ((hactivity _).symm.trans hact))
          logged := fun hact answered hmem =>
            hlogged _ _ (h.logged ((hactivity _).symm.trans hact) answered hmem)
          closing := fun hact => by
            rw [hrole]
            exact h.closing ((hactivity _).symm.trans hact) }

/-!
## Reading a step

A step either makes one call or leaves the accounts and the log alone.  The role
and the activity of a socket change only by its own steps.
-/

/-- A call a cleanup makes under a role. -/
inductive CleanupCall (c : ConnId) : ConnectionRole -> BrokerCall -> Prop where
  | desktop {u} : CleanupCall c (.desktop u) (.unregisterDesktop u c)
  | client {u d} : CleanupCall c (.client u d) (.unregisterClient u d c)
  | close {role} : CleanupCall c role (.send c .close)

theorem CleanupCall.inserts {c : ConnId} {role : ConnectionRole} {op : BrokerCall}
    (h : CleanupCall c role op) : op.inserts = [] := by
  cases h <;> rfl

theorem closing_call {c : ConnId} {role : ConnectionRole} {call : Call}
    {next : call.Reply -> Handler Unit} (h : Closing c role (.invoke call next)) :
    exists op, call = .broker op ∧ CleanupCall c role op := by
  generalize htask : Program.invoke call next = task at h
  cases h with
  | started =>
      cases role with
      | unauthenticated =>
          cases htask
          exact ⟨_, rfl, .close⟩
      | desktop u =>
          cases htask
          exact ⟨_, rfl, .desktop⟩
      | client u d =>
          cases htask
          exact ⟨_, rfl, .client⟩
  | unregistered =>
      cases htask
      exact ⟨_, rfl, .close⟩
  | done => cases htask

/-- What a step does to the shared state. -/
inductive Effect (env : Env) (s : Relay) (s' : Relay) : RelayLabel -> Prop where
  | none {l} (haccount : forall u, s'.account u = s.account u) (hlog : s'.log = s.log)
      (hclock : s.clock ≤ s'.clock)
      (halive : forall tx, s'.broker.alive tx = true -> s.broker.alive tx = true) :
      Effect env s s' l
  | handler {c a frame role past call next} (hclock : s.clock ≤ a.now)
      (hbusy : s.activity c = .handling frame role past (.invoke call next))
      (hbroker : s'.broker = (s.perform env c a call).broker)
      (hlog : s'.log = (s.perform env c a call).log) (hnow : s'.clock = a.now) :
      Effect env s s' (.resume c a)
  | cleanup {c a op next} (hclock : s.clock ≤ a.now)
      (hbusy : s.activity c = .closing (.invoke (.broker op) next))
      (hcall : CleanupCall c (s.role c) op)
      (hbroker : s'.broker = (s.broker.exec a.now op).1)
      (hlog : s'.log = (s.perform env c a (.broker op)).log) (hnow : s'.clock = a.now) :
      Effect env s s' (.resume c a)

theorem step_effect {env : Env} {s s' : Relay} {l : RelayLabel} (hs : Sound s)
    (h : Transition env s l s') : Effect env s s' l := by
  cases h with
  | connect hvacant hsockets haccount hlog hclock halive =>
      exact .none haccount hlog (Nat.le_of_eq hclock.symm) fun tx htx => (halive tx).symm.trans htx
  | receive hidle => exact .none (fun _ => rfl) rfl (Nat.le_refl _) fun _ htx => htx
  | resume hclock hbusy => exact .handler hclock hbusy rfl rfl rfl
  | panic hclock hbusy => exact .handler hclock hbusy rfl rfl rfl
  | returned hbusy => exact .none (fun _ => rfl) rfl (Nat.le_refl _) fun _ htx => htx
  | hangUp hidle => exact .none (fun _ => rfl) rfl (Nat.le_refl _) fun _ htx => htx
  | clean hclock hbusy =>
      rcases closing_call (hs.closing hbusy) with ⟨op, rfl, hcall⟩
      exact .cleanup hclock hbusy hcall rfl rfl rfl
  | closed hbusy =>
      exact .none (fun _ => rfl) rfl (Nat.le_refl _) fun _ => Broker.alive_of_alive_stopWriter
  | background hquiet => exact .none hquiet.account hquiet.log hquiet.clock hquiet.alive

theorem Logged.step {env : Env} {s s' : Relay} {l : RelayLabel} {c : ConnId}
    {answered : CallAnswer} (h : s.Logged c answered) (heffect : Effect env s s' l) :
    s'.Logged c answered := by
  cases heffect with
  | none haccount hlog hclock halive => simpa only [Logged, hlog] using h
  | handler hclock hbusy hbroker hlog hnow =>
      rename_i c' a frame role past call next
      have hmore := h.perform env c' a call
      simpa only [Logged, hlog] using hmore
  | cleanup hclock hbusy hcall hbroker hlog hnow =>
      rename_i c' a op next
      have hmore := h.perform env c' a (.broker op)
      simpa only [Logged, hlog] using hmore

theorem logged_step_cases {env : Env} {s s' : Relay} {l : RelayLabel} {c : ConnId}
    {answered : CallAnswer} (heffect : Effect env s s' l) (h : s'.Logged c answered) :
    s.Logged c answered ∨
      exists a, l = .resume c a ∧ s.clock ≤ a.now ∧
        answered = ⟨answered.call, s.answer env a answered.call⟩ := by
  cases heffect with
  | none haccount hlog hclock halive =>
      exact Or.inl (by simpa only [Logged, hlog] using h)
  | handler hclock hbusy hbroker hlog hnow =>
      rename_i c' a frame role past call next
      have hperformed : (s.perform env c' a call).Logged c answered := by
        simpa only [Logged, hlog] using h
      rcases logged_perform_cases hperformed with hold | ⟨hc, hnew⟩
      · exact Or.inl hold
      · subst hc
        subst hnew
        exact Or.inr ⟨a, rfl, hclock, rfl⟩
  | cleanup hclock hbusy hcall hbroker hlog hnow =>
      rename_i c' a op next
      have hperformed : (s.perform env c' a (.broker op)).Logged c answered := by
        simpa only [Logged, hlog] using h
      rcases logged_perform_cases hperformed with hold | ⟨hc, hnew⟩
      · exact Or.inl hold
      · subst hc
        subst hnew
        exact Or.inr ⟨a, rfl, hclock, rfl⟩

theorem handling_step {env : Env} {s s' : Relay} {l : RelayLabel} {c : ConnId}
    {frame : Inbound} {role : ConnectionRole} {past : List CallAnswer}
    {task : Handler Unit} (h : Transition env s l s')
    (hact : s'.activity c = .handling frame role past task) :
    s.activity c = .handling frame role past task ∨
      (l = .receive c frame ∧ s.activity c = .idle ∧ role = s.role c ∧ past = [] ∧
        task = Handler.processWsMessage env frame role c (s.sockets c).ip) ∨
      exists a call before next, l = .resume c a ∧ s.clock ≤ a.now ∧
        s.activity c = .handling frame role before (.invoke call next) ∧
        past = ⟨call, s.answer env a call⟩ :: before ∧ task = next (s.answer env a call) := by
  cases h with
  | connect hvacant hsockets haccount hlog hclock halive =>
      rename_i c' ip
      by_cases hc : c = c'
      · subst hc
        simp [activity, hsockets] at hact
      · simp only [activity, hsockets, Function.update_of_ne hc] at hact
        exact Or.inl hact
  | receive hidle =>
      rename_i c' frame'
      by_cases hc : c = c'
      · subst hc
        rw [activity_setActivity_same] at hact
        cases hact
        exact Or.inr (Or.inl ⟨rfl, hidle, rfl, rfl, rfl⟩)
      · rw [activity_setActivity_ne _ _ hc] at hact
        exact Or.inl hact
  | resume hclock hbusy =>
      rename_i c' a frame' receivedAs past' call next
      by_cases hc : c = c'
      · subst hc
        rw [activity_setActivity_same] at hact
        cases hact
        exact Or.inr (Or.inr ⟨a, call, past', next, rfl, hclock, hbusy, rfl, rfl⟩)
      · rw [activity_setActivity_ne _ _ hc, activity_perform] at hact
        exact Or.inl hact
  | panic hclock hbusy =>
      rename_i c' a frame' receivedAs past' next
      by_cases hc : c = c'
      · subst hc
        rw [activity_setActivity_same] at hact
        cases hact
      · rw [activity_setActivity_ne _ _ hc, activity_perform] at hact
        exact Or.inl hact
  | returned hbusy =>
      rename_i c' frame' receivedAs past'
      by_cases hc : c = c'
      · subst hc
        rw [activity_setActivity_same] at hact
        cases hact
      · rw [activity_setActivity_ne _ _ hc] at hact
        exact Or.inl hact
  | hangUp hidle =>
      rename_i c'
      by_cases hc : c = c'
      · subst hc
        rw [activity_setActivity_same] at hact
        cases hact
      · rw [activity_setActivity_ne _ _ hc] at hact
        exact Or.inl hact
  | clean hclock hbusy =>
      rename_i c' a call next
      by_cases hc : c = c'
      · subst hc
        rw [activity_setActivity_same] at hact
        cases hact
      · rw [activity_setActivity_ne _ _ hc, activity_perform] at hact
        exact Or.inl hact
  | closed hbusy =>
      rename_i c'
      by_cases hc : c = c'
      · subst hc
        rw [activity_setActivity_same] at hact
        cases hact
      · rw [activity_setActivity_ne _ _ hc, activity_setBroker] at hact
        exact Or.inl hact
  | background hquiet =>
      rw [activity, hquiet.sockets] at hact
      exact Or.inl hact

theorem vacant_step {env : Env} {s s' : Relay} {l : RelayLabel} {c : ConnId}
    (h : Transition env s l s') (hvacant : s'.activity c = .vacant) :
    s'.sockets c = s.sockets c := by
  have hown : forall {t : Relay} {c' : ConnId} {act : Activity}, act ≠ .vacant ->
      (t.setActivity c' act).activity c = .vacant ->
      t.sockets c = s.sockets c ∨ c = c' ->
      (t.setActivity c' act).sockets c = s.sockets c := by
    intro t c' act hact hvacant hsame
    by_cases hc : c = c'
    · subst hc
      rw [activity_setActivity_same] at hvacant
      exact absurd hvacant hact
    · exact (Function.update_of_ne hc _ _).trans (hsame.resolve_right hc)
  have hperform : forall {c' : ConnId} {a : Ambient} {call : Call},
      (s.perform env c' a call).sockets c = s.sockets c ∨ c = c' := by
    intro c' a call
    by_cases hc : c = c'
    · exact Or.inr hc
    · exact Or.inl (Function.update_of_ne hc _ _)
  cases h with
  | connect hwas hsockets haccount hlog hclock halive =>
      rename_i c' ip
      by_cases hc : c = c'
      · subst hc
        simp [activity, hsockets] at hvacant
      · rw [hsockets, Function.update_of_ne hc]
  | receive hidle => exact hown (by simp) hvacant (Or.inl rfl)
  | resume hclock hbusy => exact hown (by simp) hvacant hperform
  | panic hclock hbusy => exact hown (by simp) hvacant hperform
  | returned hbusy => exact hown (by simp) hvacant (Or.inl rfl)
  | hangUp hidle => exact hown (by simp) hvacant (Or.inl rfl)
  | clean hclock hbusy => exact hown (by simp) hvacant hperform
  | closed hbusy => exact hown (by simp) hvacant (Or.inl rfl)
  | background hquiet => rw [hquiet.sockets]

theorem alive_step {env : Env} {s s' : Relay} {l : RelayLabel} (heffect : Effect env s s' l)
    {tx : ConnId} (h : s'.broker.alive tx = true) : s.broker.alive tx = true := by
  cases heffect with
  | none haccount hlog hclock halive => exact halive tx h
  | handler hclock hbusy hbroker hlog hnow =>
      rename_i c a frame role past call next
      rw [hbroker] at h
      rcases broker_perform_cases env s c a call with ⟨op, rfl⟩ | ⟨-, hsame⟩
      · exact (Broker.alive_exec s.broker a.now op tx).symm.trans h
      · rwa [hsame] at h
  | cleanup hclock hbusy hcall hbroker hlog hnow =>
      rename_i c a op next
      rw [hbroker] at h
      exact (Broker.alive_exec s.broker a.now op tx).symm.trans h

theorem desktop_step {env : Env} {s s' : Relay} {l : RelayLabel} (heffect : Effect env s s' l)
    {u : String} {desktop : ConnId} (h : s'.broker.Holds u .desktop desktop) :
    s.broker.Holds u .desktop desktop ∨
      exists c a frame role past capabilities next, l = .resume c a ∧ s'.clock = a.now ∧
        s.activity c = .handling frame role past
          (.invoke (.broker (.registerDesktop u desktop capabilities)) next) := by
  cases heffect with
  | none haccount hlog hclock halive =>
      exact Or.inl ((Broker.holds_congr (haccount u) .desktop desktop).mp h)
  | handler hclock hbusy hbroker hlog hnow =>
      rename_i c a frame role past call next
      rw [hbroker] at h
      rcases broker_perform_cases env s c a call with ⟨op, rfl⟩ | ⟨-, hsame⟩
      · rcases Broker.holds_exec h with hold | ⟨hu, hinsert⟩ | ⟨_, hplace, _⟩
        · exact Or.inl hold
        · cases op <;> simp [BrokerCall.inserts] at hinsert
          case registerDesktop v tx capabilities =>
              cases hu
              subst hinsert
              exact Or.inr ⟨c, a, frame, role, past, capabilities, next, rfl, hnow, hbusy⟩
        · cases hplace
      · rw [hsame] at h
        exact Or.inl h
  | cleanup hclock hbusy hcall hbroker hlog hnow =>
      rw [hbroker] at h
      rcases Broker.holds_exec h with hold | ⟨hu, hinsert⟩ | ⟨_, hplace, _⟩
      · exact Or.inl hold
      · rw [hcall.inserts] at hinsert
        cases hinsert
      · cases hplace

/-- What becomes of a busy handler: it stays where it is, makes its next call, panics
or returns. -/
inductive Continuation (env : Env) (s s' : Relay) (l : RelayLabel) (c : ConnId)
    (frame : Inbound) (role : ConnectionRole) (past : List CallAnswer) (task : Handler Unit) :
    Prop where
  | waits (hsocket : s'.sockets c = s.sockets c)
      (hact : s'.activity c = .handling frame role past task)
  | calls {a call next} (hlabel : l = .resume c a) (htask : task = .invoke call next)
      (hstep : s' = (s.perform env c a call).setActivity c
        (.handling frame role (⟨call, s.answer env a call⟩ :: past) (next (s.answer env a call))))
  | panics {next} (htask : task = .invoke .panic next)
  | returns (htask : task = .done ())

theorem handling_next {env : Env} {s s' : Relay} {l : RelayLabel} {c : ConnId}
    {frame : Inbound} {role : ConnectionRole} {past : List CallAnswer} {task : Handler Unit}
    (h : Transition env s l s') (hact : s.activity c = .handling frame role past task) :
    Continuation env s s' l c frame role past task := by
  have hwaits : s'.sockets c = s.sockets c -> Continuation env s s' l c frame role past task := by
    intro hsocket
    refine .waits hsocket ?_
    rw [activity, hsocket]
    exact hact
  cases h with
  | connect hvacant hsockets haccount hlog hclock halive =>
      rename_i c' ip
      by_cases hc : c = c'
      · subst hc
        rw [hact] at hvacant
        cases hvacant
      · exact hwaits (by rw [hsockets, Function.update_of_ne hc])
  | receive hidle =>
      rename_i c' frame'
      by_cases hc : c = c'
      · subst hc
        rw [hact] at hidle
        cases hidle
      · exact hwaits (Function.update_of_ne hc _ _)
  | resume hclock hbusy =>
      rename_i c' a frame' receivedAs past' call next
      by_cases hc : c = c'
      · subst hc
        rw [hact] at hbusy
        cases hbusy
        exact .calls rfl rfl rfl
      · exact hwaits ((Function.update_of_ne hc _ _).trans (Function.update_of_ne hc _ _))
  | panic hclock hbusy =>
      rename_i c' a frame' receivedAs past' next
      by_cases hc : c = c'
      · subst hc
        rw [hact] at hbusy
        cases hbusy
        exact .panics rfl
      · exact hwaits ((Function.update_of_ne hc _ _).trans (Function.update_of_ne hc _ _))
  | returned hbusy =>
      rename_i c' frame' receivedAs past'
      by_cases hc : c = c'
      · subst hc
        rw [hact] at hbusy
        cases hbusy
        exact .returns rfl
      · exact hwaits (Function.update_of_ne hc _ _)
  | hangUp hidle =>
      rename_i c'
      by_cases hc : c = c'
      · subst hc
        rw [hact] at hidle
        cases hidle
      · exact hwaits (Function.update_of_ne hc _ _)
  | clean hclock hbusy =>
      rename_i c' a call next
      by_cases hc : c = c'
      · subst hc
        rw [hact] at hbusy
        cases hbusy
      · exact hwaits ((Function.update_of_ne hc _ _).trans (Function.update_of_ne hc _ _))
  | closed hbusy =>
      rename_i c'
      by_cases hc : c = c'
      · subst hc
        rw [hact] at hbusy
        cases hbusy
      · exact hwaits (Function.update_of_ne hc _ _)
  | background hquiet => exact hwaits (by rw [hquiet.sockets])

theorem resumed_step {env : Env} {s s' : Relay} {c : ConnId} {a : Ambient} {frame : Inbound}
    {role : ConnectionRole} {past : List CallAnswer} {call : Call}
    {next : call.Reply -> Handler Unit} {answered : CallAnswer} {task : Handler Unit}
    (h : Transition env s (.resume c a) s')
    (hbusy : s.activity c = .handling frame role past (.invoke call next))
    (hact : s'.activity c = .handling frame role (answered :: past) task) :
    s' = (s.perform env c a call).setActivity c
      (.handling frame role (⟨call, s.answer env a call⟩ :: past)
        (next (s.answer env a call))) := by
  cases handling_next h hbusy with
  | waits hsocket hact' =>
      rw [hact] at hact'
      injection hact' with _ _ hpast _
      exact absurd hpast (List.cons_ne_self _ _)
  | calls hlabel htask hs' =>
      cases hlabel
      cases htask
      exact hs'
  | panics htask =>
      cases htask
      cases h with
      | resume hclock hagain =>
          rw [hbusy] at hagain
          cases hagain
          rfl
      | panic hclock hagain =>
          rw [activity_setActivity_same] at hact
          cases hact
      | clean hclock hagain =>
          rw [hbusy] at hagain
          cases hagain
      | background hquiet =>
          rw [activity, hquiet.sockets] at hact
          have hact : s.activity c = _ := hact
          rw [hbusy] at hact
          injection hact with _ _ hpast _
          exact absurd hpast.symm (List.cons_ne_self _ _)
  | returns htask => cases htask

theorem clock_step {env : Env} {s s' : Relay} {l : RelayLabel} (heffect : Effect env s s' l) :
    s.clock ≤ s'.clock := by
  cases heffect with
  | none haccount hlog hclock halive => exact hclock
  | handler hclock hbusy hbroker hlog hnow => exact hnow ▸ hclock
  | cleanup hclock hbusy hcall hbroker hlog hnow => exact hnow ▸ hclock

theorem conn_of_log_perform {env : Env} {s : Relay} {c : ConnId} {a : Ambient} {call : Call}
    {act : Activity} {e : RelayEvent}
    (hlog : ((s.perform env c a call).setActivity c act).log = e :: s.log) : e.conn = c := by
  rw [log_setActivity, log_perform] at hlog
  rw [← (List.cons.inj hlog).1]

theorem conn_ne_of_waiting {env : Env} {s s' : Relay} {l : RelayLabel} {c : ConnId}
    {frame : Inbound} {role : ConnectionRole} {past : List CallAnswer} {task : Handler Unit}
    (h : Transition env s l s') (hact : s.activity c = .handling frame role past task)
    (hact' : s'.activity c = .handling frame role past task) {e : RelayEvent}
    (hlog : s'.log = e :: s.log) : e.conn ≠ c := by
  have hsame : s'.log ≠ s.log := by
    rw [hlog]
    exact List.cons_ne_self e s.log
  cases h with
  | connect hvacant hsockets haccount hkept hclock halive => exact absurd hkept hsame
  | receive hidle => exact absurd rfl hsame
  | resume hclock hbusy =>
      rename_i c' a frame' receivedAs past' call next
      intro hc
      have hconn : c' = c := (conn_of_log_perform hlog).symm.trans hc
      subst hconn
      rw [activity_setActivity_same] at hact'
      rw [hact] at hbusy
      cases hbusy
      injection hact' with _ _ hpast _
      exact List.cons_ne_self _ _ hpast
  | panic hclock hbusy =>
      rename_i c' a frame' receivedAs past' next
      intro hc
      have hconn : c' = c := (conn_of_log_perform hlog).symm.trans hc
      subst hconn
      rw [activity_setActivity_same] at hact'
      cases hact'
  | returned hbusy => exact absurd rfl hsame
  | hangUp hidle => exact absurd rfl hsame
  | clean hclock hbusy =>
      rename_i c' a call next
      intro hc
      have hconn : c' = c := (conn_of_log_perform hlog).symm.trans hc
      subst hconn
      rw [activity_setActivity_same] at hact'
      cases hact'
  | closed hbusy => exact absurd rfl hsame
  | background hquiet => exact absurd hquiet.log hsame

/-- A discipline that every handler keeps from its frame on is kept by every handler
that is under way. -/
theorem obeys_step {env : Env}
    {allowed : ConnId -> Inbound -> ConnectionRole -> List CallAnswer -> Call -> Prop}
    {post : ConnId -> ConnectionRole -> List CallAnswer -> Prop}
    (hstart : forall frame role c ip, Program.Obeys (allowed c frame role) []
      (Handler.processWsMessage env frame role c ip) fun past _ => post c role past)
    {s s' : Relay} {l : RelayLabel} (h : Transition env s l s')
    (hs : forall {c frame role past task}, s.activity c = .handling frame role past task ->
      Program.Obeys (allowed c frame role) past task fun past _ => post c role past)
    {c : ConnId} {frame : Inbound} {role : ConnectionRole} {past : List CallAnswer}
    {task : Handler Unit} (hact : s'.activity c = .handling frame role past task) :
    Program.Obeys (allowed c frame role) past task fun past _ => post c role past := by
  rcases handling_step h hact with
    hold | ⟨_, _, _, hpast, htask⟩ | ⟨a, call, before, next, _, _, hbusy, hpast, htask⟩
  · exact hs hold
  · rw [hpast, htask]
    exact hstart frame role c _
  · rw [hpast, htask]
    exact (hs hbusy).2 _

theorem role_step {env : Env} {s s' : Relay} {l : RelayLabel} (hs : Sound s)
    (h : Transition env s l s') (c : ConnId) :
    s'.role c = s.role c ∨
      (s'.role c = .unauthenticated ∧ s.activity c = .vacant) ∨
      exists a frame role past next, l = .resume c a ∧
        s.activity c = .handling frame role past (.invoke (.setRole (s'.role c)) next) := by
  cases h with
  | connect hvacant hsockets haccount hlog hclock halive =>
      rename_i c' ip
      by_cases hc : c = c'
      · subst hc
        exact Or.inr (Or.inl ⟨by simp [role, hsockets], hvacant⟩)
      · exact Or.inl (by simp [role, hsockets, hc])
  | receive hidle => exact Or.inl (role_setActivity _ _ _ _)
  | resume hclock hbusy =>
      rename_i c' a frame receivedAs past call next
      rw [role_setActivity, role_perform]
      by_cases hc : c = c'
      · subst hc
        rw [if_pos rfl]
        cases call
        case setRole new =>
            exact Or.inr (Or.inr ⟨a, frame, receivedAs, past, next, rfl, hbusy⟩)
        all_goals exact Or.inl rfl
      · rw [if_neg hc]
        exact Or.inl rfl
  | panic hclock hbusy =>
      rename_i c' a frame receivedAs past next
      rw [role_setActivity, role_perform]
      by_cases hc : c = c'
      · subst hc
        exact Or.inl (if_pos rfl)
      · exact Or.inl (if_neg hc)
  | returned hbusy => exact Or.inl (role_setActivity _ _ _ _)
  | hangUp hidle => exact Or.inl (role_setActivity _ _ _ _)
  | clean hclock hbusy =>
      rename_i c' a call next
      rw [role_setActivity, role_perform]
      by_cases hc : c = c'
      · subst hc
        rw [if_pos rfl]
        exact Or.inl (closing_next (hs.closing hbusy) (s.answer env a call)).1
      · exact Or.inl (if_neg hc)
  | closed hbusy => exact Or.inl (by rw [role_setActivity, role_setBroker])
  | background hquiet => exact Or.inl (by rw [role, hquiet.sockets, role])

theorem holds_step {env : Env} {s s' : Relay} {l : RelayLabel} (hs : Sound s)
    (heffect : Effect env s s' l) {u : String} {place : Place} {c : ConnId}
    (h : s'.broker.Holds u place c) :
    s.broker.Holds u place c ∨
      (exists c' a frame role past call next, l = .resume c' a ∧
        s.activity c' = .handling frame role past (.invoke call next) ∧
        Insertion c' frame role past u place c) ∨
      place = .target ∧ s.broker.Holds u .queue c := by
  cases heffect with
  | none haccount hlog hclock halive =>
      exact Or.inl ((Broker.holds_congr (haccount u) place c).mp h)
  | handler hclock hbusy hbroker hlog hnow =>
      rename_i c' a frame role past call next
      rw [hbroker] at h
      rcases holds_perform (hs.behaves hbusy).1.permitted h with hold | hnew | hmoved
      · exact Or.inl hold
      · exact Or.inr (Or.inl ⟨c', a, frame, role, past, call, next, rfl, hbusy, hnew⟩)
      · exact Or.inr (Or.inr hmoved)
  | cleanup hclock hbusy hcall hbroker hlog hnow =>
      rw [hbroker] at h
      rcases Broker.holds_exec h with hold | ⟨hu, hinsert⟩ | hmoved
      · exact Or.inl hold
      · rw [hcall.inserts] at hinsert
        cases hinsert
      · exact Or.inr (Or.inr hmoved.2)

/--
What holds of a fresh relay, and is kept by the transitions whose label meets a
condition, holds at the end of every run that admits the condition.
-/
theorem admitted_step_induction {env : Env} {auth : AuthManager} {database : Database}
    {motive : Relay -> Prop} {ok : Relay -> RelayLabel -> Prop}
    (hinit : motive (init auth database))
    (hstep : forall s l s', Sound s -> motive s -> ok s l -> step env s l = some s' -> motive s')
    {labels : List RelayLabel} {s : Relay} (hrun : Runs env auth database labels s)
    (hok : Admits (step env) ok (init auth database) labels) : Sound s ∧ motive s := by
  refine follow_invariant (motive := fun s => Sound s ∧ motive s) ?_
    ⟨sound_init auth database, hinit⟩ hrun hok
  intro s l s' hs hl hnext
  exact ⟨sound_step hs.1 (step_transition hnext), hstep s l s' hs.1 hs.2 hl hnext⟩

theorem admitted_induction {env : Env} {auth : AuthManager} {database : Database}
    {motive : Relay -> Prop} {ok : Relay -> RelayLabel -> Prop}
    (hinit : motive (init auth database))
    (hstep : forall s l s', Sound s -> motive s -> ok s l -> Transition env s l s' -> motive s')
    {labels : List RelayLabel} {s : Relay} (hrun : Runs env auth database labels s)
    (hok : Admits (step env) ok (init auth database) labels) : Sound s ∧ motive s :=
  admitted_step_induction hinit
    (fun s l s' hs hm hl hnext => hstep s l s' hs hm hl (step_transition hnext)) hrun hok

theorem runs_induction {env : Env} {auth : AuthManager} {database : Database}
    {motive : Relay -> Prop} (hinit : motive (init auth database))
    (hstep : forall s l s', Sound s -> motive s -> Transition env s l s' -> motive s')
    {labels : List RelayLabel} {s : Relay} (hrun : Runs env auth database labels s) :
    Sound s ∧ motive s := by
  have hall : Admits (step env) (fun _ _ => True) (init auth database) labels :=
    admits_of_forall (fun _ _ => trivial) _ labels
  exact admitted_induction hinit (fun s l s' hs hm _ hnext => hstep s l s' hs hm hnext)
    hrun hall

/-- What every handler obeys from its start, a handler that is under way obeys. -/
theorem obeys_of_runs {env : Env} {auth : AuthManager} {database : Database}
    {allowed : ConnId -> Inbound -> ConnectionRole -> List CallAnswer -> Call -> Prop}
    (hstart : forall frame role c ip, Program.Obeys (allowed c frame role) []
      (Handler.processWsMessage env frame role c ip) fun _ _ => True)
    {labels : List RelayLabel} {s : Relay} (hrun : Runs env auth database labels s)
    {c : ConnId} {frame : Inbound} {role : ConnectionRole} {past : List CallAnswer}
    {task : Handler Unit} (hact : s.activity c = .handling frame role past task) :
    Program.Obeys (allowed c frame role) past task fun _ _ => True := by
  refine (runs_induction (motive := fun s => forall {c frame role past task},
    s.activity c = .handling frame role past task ->
      Program.Obeys (allowed c frame role) past task fun _ _ => True)
    (fun hact => by cases hact) ?_ hrun).2 hact
  intro s l s' _ hs hstep c frame role past task hact
  exact obeys_step (fun frame role c ip => hstart frame role c ip) hstep (fun hbusy => hs hbusy)
    hact

theorem runs_snoc {env : Env} {auth : AuthManager} {database : Database}
    {labels : List RelayLabel} {s s' : Relay} {l : RelayLabel}
    (hrun : Runs env auth database labels s) (hstep : step env s l = some s') :
    Runs env auth database (labels ++ [l]) s' :=
  follow_append_eq_some.mpr
    ⟨s, hrun, follow_cons_eq_some.mpr ⟨s', hstep, follow_nil s'⟩⟩

theorem runs_labels_induction {env : Env} {auth : AuthManager} {database : Database}
    {motive : List RelayLabel -> Relay -> Prop} (hinit : motive [] (init auth database))
    (hstep : forall labels s l s', Runs env auth database labels s -> motive labels s ->
      step env s l = some s' -> motive (labels ++ [l]) s')
    {labels : List RelayLabel} {s : Relay} (hrun : Runs env auth database labels s) :
    motive labels s := by
  induction labels using List.reverseRecOn generalizing s with
  | nil =>
      cases hrun
      exact hinit
  | append_singleton before l ih =>
      rcases follow_append_eq_some.mp hrun with ⟨m, hbefore, hlast⟩
      rcases follow_cons_eq_some.mp hlast with ⟨s', hnext, hs⟩
      have hs : s' = s := Option.some.inj hs
      exact hstep before m l s hbefore (ih hbefore) (hs ▸ hnext)

theorem sound_of_runs {env : Env} {auth : AuthManager} {database : Database}
    {labels : List RelayLabel} {s : Relay} (hrun : Runs env auth database labels s) : Sound s :=
  (runs_induction (motive := fun _ => True) trivial (fun _ _ _ _ _ _ => trivial) hrun).1

/-!
## Origins

The answers of a handler that is under way were given in states the run passed
through, while it handled the same frame.
-/

def Passes (env : Env) (auth : AuthManager) (database : Database) (labels : List RelayLabel)
    (p : Relay -> Prop) : Prop :=
  exists before after s, labels = before ++ after ∧ Runs env auth database before s ∧ p s

theorem Passes.extend {env : Env} {auth : AuthManager} {database : Database}
    {labels : List RelayLabel} {p : Relay -> Prop} (h : Passes env auth database labels p)
    (more : List RelayLabel) : Passes env auth database (labels ++ more) p := by
  rcases h with ⟨before, after, s, hlabels, hrun, hs⟩
  exact ⟨before, after ++ more, s, by rw [hlabels, List.append_assoc], hrun, hs⟩

theorem passes_of_runs {env : Env} {auth : AuthManager} {database : Database}
    {labels : List RelayLabel} {p : Relay -> Prop} {s : Relay}
    (hrun : Runs env auth database labels s) (hs : p s) : Passes env auth database labels p :=
  ⟨labels, [], s, (List.append_nil labels).symm, hrun, hs⟩

/-- The run passed through a state with the property, and the connection has received no
frame since. -/
def PassesSince (env : Env) (auth : AuthManager) (database : Database)
    (labels : List RelayLabel) (c : ConnId) (p : Relay -> Prop) : Prop :=
  exists before after s, labels = before ++ after ∧ Runs env auth database before s ∧ p s ∧
    forall frame, RelayLabel.receive c frame ∉ after

section

variable {env : Env} {auth : AuthManager} {database : Database} {labels : List RelayLabel}
  {c : ConnId} {p : Relay -> Prop} {s : Relay}

theorem PassesSince.passes (h : PassesSince env auth database labels c p) :
    Passes env auth database labels p := by
  rcases h with ⟨before, after, s, hlabels, hrun, hs, _⟩
  exact ⟨before, after, s, hlabels, hrun, hs⟩

theorem PassesSince.snoc (h : PassesSince env auth database labels c p) {l : RelayLabel}
    (hl : forall frame, l ≠ .receive c frame) :
    PassesSince env auth database (labels ++ [l]) c p := by
  rcases h with ⟨before, after, s, hlabels, hrun, hs, hnone⟩
  refine ⟨before, after ++ [l], s, by rw [hlabels, List.append_assoc], hrun, hs, ?_⟩
  intro frame hmem
  rcases List.mem_append.mp hmem with hold | hnew
  · exact hnone frame hold
  · exact hl frame (List.mem_singleton.mp hnew).symm

theorem passesSince_of_runs (hrun : Runs env auth database labels s) (hs : p s) :
    PassesSince env auth database labels c p :=
  ⟨labels, [], s, (List.append_nil labels).symm, hrun, hs, fun _ => List.not_mem_nil⟩

theorem not_receive_of_handling {s' : Relay} {l : RelayLabel} {frame : Inbound}
    {role : ConnectionRole} {past : List CallAnswer} {task : Handler Unit}
    (hact : s.activity c = .handling frame role past task) (hstep : step env s l = some s')
    (frame' : Inbound) : l ≠ .receive c frame' := by
  rintro rfl
  simp [step, hact] at hstep

end

/-- A handler of the connection is about to make the call for the frame, and is
answered in this way. -/
def Answers (env : Env) (c : ConnId) (frame : Inbound) (role : ConnectionRole)
    (answered : CallAnswer) (s : Relay) : Prop :=
  exists a past next, s.activity c = .handling frame role past (.invoke answered.call next) ∧
    answered.reply = s.answer env a answered.call

/-- Every answer of a handler that is under way was given to it since it received its frame. -/
theorem past_since {env : Env} {auth : AuthManager} {database : Database}
    {labels : List RelayLabel} {s : Relay} (hrun : Runs env auth database labels s)
    {c : ConnId} {frame : Inbound} {role : ConnectionRole} {past : List CallAnswer}
    {task : Handler Unit} (hact : s.activity c = .handling frame role past task)
    {answered : CallAnswer} (hmem : answered ∈ past) :
    PassesSince env auth database labels c (Answers env c frame role answered) := by
  refine runs_labels_induction (motive := fun labels s =>
    forall past task, s.activity c = .handling frame role past task -> answered ∈ past ->
      PassesSince env auth database labels c (Answers env c frame role answered))
    ?_ ?_ hrun past task hact hmem
  · intro past task hact _
    cases hact
  · intro labels s l s' hrun ih hnext past task hact hmem
    rcases handling_step (step_transition hnext) hact with
      hold | ⟨_, _, _, hpast, _⟩ | ⟨a, call, before, next, _, _, hbusy, hpast, _⟩
    · exact (ih past task hold hmem).snoc (not_receive_of_handling hold hnext)
    · rw [hpast] at hmem
      cases hmem
    · have hl := not_receive_of_handling hbusy hnext
      rw [hpast] at hmem
      rcases List.mem_cons.mp hmem with hnew | hold
      · subst hnew
        exact (passesSince_of_runs hrun ⟨a, before, next, hbusy, rfl⟩).snoc hl
      · exact (ih before _ hbusy hold).snoc hl

theorem past_origin {env : Env} {auth : AuthManager} {database : Database}
    {labels : List RelayLabel} {s : Relay} (hrun : Runs env auth database labels s)
    {c : ConnId} {frame : Inbound} {role : ConnectionRole} {past : List CallAnswer}
    {task : Handler Unit} (hact : s.activity c = .handling frame role past task)
    {answered : CallAnswer} (hmem : answered ∈ past) :
    Passes env auth database labels (Answers env c frame role answered) :=
  (past_since hrun hact hmem).passes

theorem permitted_of_past {env : Env} {auth : AuthManager} {database : Database}
    {labels : List RelayLabel} {s : Relay} (hrun : Runs env auth database labels s)
    {c : ConnId} {frame : Inbound} {role : ConnectionRole} {past : List CallAnswer}
    {task : Handler Unit} (hact : s.activity c = .handling frame role past task)
    {a : CallAnswer} (ha : a ∈ past) : exists older, Permitted c frame role older a.call := by
  rcases past_origin hrun hact ha with
    ⟨_, _, t, _, hbefore, _, older, next, hasked, _⟩
  exact ⟨older, ((sound_of_runs hbefore).behaves hasked).1.permitted⟩

section

variable {env : Env} {s s' : Relay} {l : RelayLabel} {c : ConnId}

theorem log_step (hs : Sound s) (h : Transition env s l s') :
    s'.log = s.log ∨ exists c a call, l = .resume c a ∧ s.clock ≤ a.now ∧
      s'.log = (s.perform env c a call).log ∧ s'.broker = (s.perform env c a call).broker ∧
      ((exists frame role past next,
        s.activity c = .handling frame role past (.invoke call next)) ∨
        exists op, call = .broker op ∧ CleanupCall c (s.role c) op) := by
  cases step_effect hs h with
  | none haccount hlog hclock halive => exact Or.inl hlog
  | handler hclock hbusy hbroker hlog hnow =>
      exact Or.inr ⟨_, _, _, rfl, hclock, hlog, hbroker, Or.inl ⟨_, _, _, _, hbusy⟩⟩
  | cleanup hclock hbusy hcall hbroker hlog hnow =>
      exact Or.inr ⟨_, _, _, rfl, hclock, hlog, hbroker, Or.inr ⟨_, rfl, hcall⟩⟩

theorem perform_logs {a : Ambient} {call : Call} {act : Activity} :
    ((s.perform env c a call).setActivity c act).log ≠ s.log := by
  rw [log_setActivity, log_perform]
  exact List.cons_ne_self _ _

theorem resume_logs {a : Ambient} (h : step env s (.resume c a) = some s') :
    s'.log ≠ s.log := by
  cases step_taken h <;> exact perform_logs

theorem database_step (hs : Sound s) (h : step env s l = some s') :
    s'.app.database = s.app.database ∨
      (exists action, l = .administer action ∧
        s'.app.database = action.apply env.crypto s.app.database) ∨
      exists c a frame role past call next, l = .resume c a ∧
        s.activity c = .handling frame role past (.invoke call next) ∧
        s'.app = (s.app.exec env a call).1 ∧ s'.log = (s.perform env c a call).log := by
  cases step_taken h with
  | resume _ hbusy => exact Or.inr (Or.inr ⟨_, _, _, _, _, _, _, rfl, hbusy, rfl, rfl⟩)
  | panic _ hbusy => exact Or.inr (Or.inr ⟨_, _, _, _, _, _, _, rfl, hbusy, rfl, rfl⟩)
  | clean _ hbusy =>
      rcases closing_call (hs.closing hbusy) with ⟨op, rfl, _⟩
      exact Or.inl rfl
  | administer => exact Or.inr (Or.inl ⟨_, rfl, rfl⟩)
  | _ => exact Or.inl rfl

theorem mem_log_step (hs : Sound s) (hstep : Transition env s l s') {e : RelayEvent}
    (h : e ∈ s.log) : e ∈ s'.log := by
  rcases log_step hs hstep with hlog | ⟨c', a, call, _, _, hlog, _⟩
  · rw [hlog]
    exact h
  · rw [hlog]
    exact List.mem_cons_of_mem _ h

theorem activity_of_upcoming {call : Call} (h : s.upcoming c = some call) :
    exists frame role past next, s.activity c = .handling frame role past (.invoke call next) := by
  unfold upcoming at h
  split at h
  · rename_i hact
    cases h
    exact ⟨_, _, _, _, hact⟩
  · cases h

end

theorem moves_of_resume {env : Env} {s s' : Relay} {c : ConnId} {a : Ambient} {frame : Inbound}
    {role : ConnectionRole} {past : List CallAnswer} {task : Handler Unit}
    (h : step env s (.resume c a) = some s')
    (hact : s.activity c = .handling frame role past task) :
    s'.activity c ≠ .handling frame role past task := by
  intro hact'
  by_cases hclock : s.clock ≤ a.now
  · simp only [step, if_pos hclock, resume, hact] at h
    cases task with
    | done value => cases h
    | invoke call next =>
        have hcases : s'.activity c = .panicked ∨ exists t,
            s'.activity c = .handling frame role (⟨call, s.answer env a call⟩ :: past) t := by
          cases call <;> cases h <;>
            first
              | exact Or.inl (activity_setActivity_same _ _ _)
              | exact Or.inr ⟨_, activity_setActivity_same _ _ _⟩
        rcases hcases with hpanicked | ⟨t, hmoved⟩
        · rw [hpanicked] at hact'
          cases hact'
        · rw [hmoved] at hact'
          injection hact' with _ _ hpast _
          exact List.cons_ne_self _ _ hpast
  · simp [step, hclock] at h

/-- The last answer of a handler that is under way was given in a state the run passed
through, and its connection has made no call since. -/
theorem last_call {env : Env} {auth : AuthManager} {database : Database}
    {labels : List RelayLabel} {s : Relay} (hrun : Runs env auth database labels s)
    {c : ConnId} {frame : Inbound} {role : ConnectionRole} {past : List CallAnswer}
    {answered : CallAnswer} {task : Handler Unit}
    (hact : s.activity c = .handling frame role (answered :: past) task) :
    exists before a after r next mid, labels = before ++ .resume c a :: after ∧
      (forall a', .resume c a' ∉ after) ∧ Runs env auth database before r ∧
      r.activity c = .handling frame role past (.invoke answered.call next) ∧
      answered = ⟨answered.call, r.answer env a answered.call⟩ ∧
      s.log = mid ++ (r.perform env c a answered.call).log ∧
      forall e, e ∈ mid -> e.conn ≠ c := by
  refine runs_labels_induction (motive := fun labels s =>
    forall task, s.activity c = .handling frame role (answered :: past) task ->
      exists before a after r next mid, labels = before ++ .resume c a :: after ∧
        (forall a', .resume c a' ∉ after) ∧ Runs env auth database before r ∧
        r.activity c = .handling frame role past (.invoke answered.call next) ∧
        answered = ⟨answered.call, r.answer env a answered.call⟩ ∧
        s.log = mid ++ (r.perform env c a answered.call).log ∧
        forall e, e ∈ mid -> e.conn ≠ c) ?_ ?_ hrun task hact
  · intro task hact
    cases hact
  · intro labels s l s' hrun ih hnext task hact
    have hs := sound_of_runs hrun
    have htransition := step_transition hnext
    rcases handling_step htransition hact with
      hold | ⟨_, _, _, hpast, _⟩ | ⟨a, call, before, next, hlabel, _, hbusy, hpast, htask⟩
    · rcases ih task hold with
        ⟨before, a, after, r, next, mid, hlabels, hafter, hbefore, hasked, hanswer, hlog, hmid⟩
      have hlast : forall a', l ≠ .resume c a' := by
        intro a' hl
        subst hl
        exact moves_of_resume hnext hold hact
      have hafter' : forall a', .resume c a' ∉ after ++ [l] := by
        intro a' hmem
        rcases List.mem_append.mp hmem with hin | hin
        · exact hafter a' hin
        · exact hlast a' (List.mem_singleton.mp hin).symm
      rcases log_step hs htransition with hsame | ⟨c', a', call', _, _, hnew, _⟩
      · exact ⟨before, a, after ++ [l], r, next, mid, by rw [hlabels]; simp, hafter', hbefore,
          hasked, hanswer, hsame.trans hlog, hmid⟩
      · refine ⟨before, a, after ++ [l], r, next, _ :: mid, by rw [hlabels]; simp, hafter',
          hbefore, hasked, hanswer, by rw [hnew, log_perform, hlog]; rfl, ?_⟩
        intro e he
        rcases List.mem_cons.mp he with heq | hin
        · subst heq
          exact conn_ne_of_waiting htransition hold hact hnew
        · exact hmid e hin
    · cases hpast
    · cases hpast
      subst hlabel
      rw [resumed_step htransition hbusy hact]
      exact ⟨labels, a, [], s, next, [], rfl, fun _ h => (by cases h), hrun, hbusy, rfl, rfl,
        fun _ h => by cases h⟩

end Relay

/-!
## Messages to the desktop
-/

namespace Broker

section

variable {b : Broker} {u : String} {tx : ConnId}

theorem sendToDesktop_reaches {msg out : WsMessage}
    (h : (tx, out) ∈ Relay.newlyEnqueued b (b.sendToDesktop u msg).1) :
    b.Holds u .desktop tx ∧ b.alive tx = true ∧ out = msg := by
  unfold sendToDesktop at h
  cases hslot : (b.account u).bind AccountState.desktopTx with
  | none => simp [hslot, Relay.newlyEnqueued] at h
  | some old =>
      rcases Option.bind_eq_some_iff.mp hslot with ⟨st, hst, hdesktop⟩
      cases halive : (b.channels old).receiverAlive with
      | false => simp [hslot, Relay.newlyEnqueued, send, setChannel, halive] at h
      | true =>
          simp [hslot, Relay.newlyEnqueued, send, setChannel, halive] at h
          rcases h with ⟨rfl, rfl⟩
          exact ⟨⟨st, hst, hdesktop⟩, halive, rfl⟩

theorem mem_sendToDesktop {msg : WsMessage} (hslot : b.Holds u .desktop tx)
    (halive : b.alive tx = true) :
    (tx, msg) ∈ Relay.newlyEnqueued b (b.sendToDesktop u msg).1 := by
  rcases hslot with ⟨st, hst, hdesktop⟩
  have hbind : (b.account u).bind AccountState.desktopTx = some tx := by
    rw [hst]
    exact hdesktop
  have halive : (b.channels tx).receiverAlive = true := halive
  simp [sendToDesktop, hbind, Relay.newlyEnqueued, send, setChannel, halive]

end

end Broker

/-!
## A deployment to run

One account with a provisioned desktop key, a password and an approved phone; the
primitives answer as the real ones do on the credentials below.
-/

namespace Deployment

def keyHash : String :=
  "2c70e12b7a0646f92279f427c7b38e7334d8e5389cff167a1dc30e73f826b683"

def passwordHash : String :=
  "5e884898da28047151d0e56f8dc6292773603d0d6aabbdd62a11ef721d1542d8"

def storedHash : String :=
  "$2b$12$If6bvum7DFjUnE9p2uDeDuBWwTFTLvnD.udBMWYmcaSOiuuvZm.s6"

def phone : Uuid where
  text := "00000000-0000-4000-8000-000000000001"
  length_eq := by decide

def phoneClaims : JwtClaims where
  sub := "user"
  deviceId := phone.text
  exp := 1700086400
  iat := 1700000000
  aud := jwtAudience
  iss := jwtIssuer

def phoneToken : String :=
  "eyJ0eXAiOiJKV1QiLCJhbGciOiJIUzI1NiJ9" ++
    ".eyJzdWIiOiJ1c2VyIiwiZGV2aWNlX2lkIjoiMDAwMDAwMDAtMDAwMC00MDAwLTgwMDAtMDAwMDAw" ++
    "MDAwMDAxIiwiZXhwIjoxNzAwMDg2NDAwLCJpYXQiOjE3MDAwMDAwMDAsImF1ZCI6ImNvbW1hbmQtY" ++
    "2VudGVyLXJlbGF5IiwiaXNzIjoiY29tbWFuZC1jZW50ZXItcmVsYXkifQ" ++
    ".RGbxb8IgNp33X2VMwyMz53Zxmud29glXe2vwfzp73a4"

def crypto : Crypto where
  sha256Hex text := if text = "key" then keyHash else ""
  bcryptVerify input hash := some (decide (input = passwordHash ∧ hash = storedHash))
  decryptTotp _ _ encrypted := some encrypted
  totpCheck _ _ _ := some false
  jwtEncode _ claims := if claims = phoneClaims then some phoneToken else none
  jwtDecode _ _ _ token _ := if token = phoneToken then some phoneClaims else none

def env : Env where
  crypto := crypto
  parseUrl _ := none
  publicKey := ""

def auth : AuthManager where
  jwtSecret := List.replicate 64 0
  rateLimits := ∅

def database : Database :=
  { Database.empty with
    accounts := Database.empty.accounts.insert "user"
      { passwordHash := storedHash, totpSecretEncrypted := none, totpNonce := none }
    devices := Database.empty.devices.insert phone
      { username := "user", name := "Phone", lastIp := none }
    config := Database.empty.config.insert "desktop_key:user" keyHash }

/-- The surroundings of a call at a time, in the second the token was issued. -/
def ambient (now : Instant) : Ambient where
  now := now
  unix := 1700000000
  utc := "2023-11-14T22:13:20+00:00"
  uuid := { text := "00000000-0000-4000-8000-000000000002", length_eq := by decide }
  dbFault := false
  fileFault := false

def start (c : ConnId) (frame : Inbound) (calls : Nat) : List RelayLabel :=
  .receive c frame :: List.replicate calls (.resume c (ambient 0))

def turn (c : ConnId) (frame : Inbound) (calls : Nat) : List RelayLabel :=
  start c frame calls ++ [.finish c]

def message (msg : ControlMessage) : Inbound :=
  .text 100 (some msg)

def open_ (c : ConnId) : RelayLabel :=
  .connect c "192.0.2.1"

def keyAuth (c : ConnId) : List RelayLabel :=
  turn c (message (.auth 1 "user" none none none (some "key"))) 5

def tokenAuth (c : ConnId) : List RelayLabel :=
  turn c (message (.auth 1 "user" none none (some phoneToken) none)) 10

def register (c : ConnId) : List RelayLabel :=
  turn c (message (.desktopRegister 1 none)) 3

def after (labels : List RelayLabel) : Option Relay :=
  follow (Relay.step env) (Relay.init auth database) labels

end Deployment

namespace Relay

def deskAndPhone : List RelayLabel :=
  Deployment.open_ 1 :: Deployment.keyAuth 1 ++ Deployment.register 1 ++
    Deployment.open_ 2 :: Deployment.tokenAuth 2

def takeOver : List RelayLabel :=
  Deployment.open_ 3 :: Deployment.keyAuth 3 ++ Deployment.register 3

def phoneSwitches : List RelayLabel :=
  .administer (.addAccount "guest"
      { passwordHash := Deployment.storedHash, totpSecretEncrypted := none, totpNonce := none }) ::
    .administer (.setDesktopKey "guest" "key") ::
    Deployment.turn 2 (Deployment.message (.auth 1 "guest" none none none (some "key"))) 5

end Relay

end CommandRelay
