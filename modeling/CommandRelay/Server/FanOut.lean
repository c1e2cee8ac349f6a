import CommandRelay.Server.Relay

/-!
# Web push fan-outs

A notification is pushed to the subscriptions of an account by a task of its own.  The
task reads the subscriptions once and then talks to the push services one after another,
while the handlers go on storing and removing subscriptions.
-/

namespace CommandRelay

open Foundation

inductive PushError where
  | db (e : DbError)
  | key (message : String)
  | subscription (message : String)
  | crypto (message : String)

/-- What a fan-out does in one step: a query, a round trip to a push service with the
stored subscription and the message, or an update. -/
inductive PushCall where
  | listPushSubscriptions (username : String)
  | sendOne (subJson body : String)
  | removePushSubscription (deviceId : String)

namespace PushCall

abbrev Reply : PushCall -> Type
  | listPushSubscriptions _ => Except DbError (List (String × String))
  | sendOne .. => Except PushError UInt16
  | removePushSubscription _ => Except DbError Unit

end PushCall

abbrev PushTask := Program PushCall PushCall.Reply Unit

namespace PushManager

def ask (c : PushCall) : Program PushCall PushCall.Reply c.Reply :=
  Program.perform c

def sendEach (body : String) : List (String × String) -> PushTask
  | [] => .done ()
  | (deviceId, subJson) :: rest => do
      match <- ask (.sendOne subJson body) with
      | .ok status =>
          -- The push service reports the subscription as gone.
          if status = 404 ∨ status = 410 then
            let _ <- ask (.removePushSubscription deviceId)
            sendEach body rest
          else sendEach body rest
      | .error (.subscription _) =>
          let _ <- ask (.removePushSubscription deviceId)
          sendEach body rest
      | .error _ => sendEach body rest

/-- Push a payload to every subscription registered for an account, pruning the ones
that are gone. -/
def sendToUser (username : String) (payload : Json) : PushTask := do
  match <- ask (.listPushSubscriptions username) with
  | .error _ => .done ()
  | .ok subs => sendEach payload.toText subs

end PushManager

/-- A fan-out that is under way, with the answers it has got, newest first. -/
structure FanOut where
  past : List (Answered PushCall PushCall.Reply)
  task : PushTask

/-- A fan-out reads the subscriptions, or a device stores one. -/
inductive PushEvent where
  | listed (i : Nat)
  | stored (deviceId : String)
  deriving DecidableEq

/-- The application and the fan-outs started so far, oldest first. -/
structure PushState where
  app : App
  fanOuts : List FanOut
  log : List PushEvent

/-- A handler makes a call, the administration tool works on the database, or a fan-out
makes its next step: the database may fail it, and a push service gives the answer. -/
inductive PushLabel where
  | call (a : Ambient) (call : Call)
  | administer (action : AdminAction)
  | resume (i : Nat) (dbFault : Bool) (answer : Except PushError UInt16)

namespace PushCall

def exec (dbFault : Bool) (answer : Except PushError UInt16) (db : Database) :
    (c : PushCall) -> Database × c.Reply
  | .listPushSubscriptions username =>
      (db, if dbFault then .error .sqlite else .ok (db.listPushSubscriptions username))
  | .sendOne .. => (db, answer)
  | .removePushSubscription deviceId =>
      if dbFault then (db, .error .sqlite) else (db.removePushSubscription deviceId, .ok ())

def logged (i : Nat) : PushCall -> List PushEvent
  | .listPushSubscriptions _ => [.listed i]
  | _ => []

end PushCall

namespace Call

def spawned : Call -> List FanOut
  | pushToUser username payload => [⟨[], PushManager.sendToUser username payload⟩]
  | _ => []

def stored (answered : CallAnswer) : List PushEvent :=
  match answered with
  | ⟨.upsertPushSubscription deviceId .., .ok _⟩ => [.stored deviceId]
  | _ => []

end Call

/-- A fan-out that is about to remove the subscription of a device: what it has sent to,
and the answer. -/
structure Pruning where
  deviceId : String
  subJson : String
  answer : Except PushError UInt16

def FanOut.pruning? (t : FanOut) : Option Pruning :=
  match t.task, t.past with
  | .invoke (.removePushSubscription deviceId) _, ⟨.sendOne subJson _, answer⟩ :: _ =>
      some ⟨deviceId, subJson, answer⟩
  | _, _ => none

def Pruning.Gone (p : Pruning) : Prop :=
  p.answer = .ok 404 ∨ p.answer = .ok 410 ∨
    exists message, p.answer = .error (.subscription message)

def FanOut.resume (t : FanOut) (dbFault : Bool) (answer : Except PushError UInt16)
    (db : Database) : Option (Database × FanOut) :=
  match t.task with
  | .done _ => none
  | .invoke c next =>
      let r := c.exec dbFault answer db
      some (r.1, ⟨⟨c, r.2⟩ :: t.past, next r.2⟩)

def FanOut.nextLogged (t : FanOut) (i : Nat) : List PushEvent :=
  match t.task with
  | .done _ => []
  | .invoke c _ => c.logged i

namespace PushState

def start (app : App) : PushState where
  app := app
  fanOuts := []
  log := []

def database (s : PushState) : Database :=
  s.app.database

def step (env : Env) (s : PushState) : PushLabel -> Option PushState
  | .call a call =>
      some
        { app := (s.app.exec env a call).1
          fanOuts := s.fanOuts ++ call.spawned
          log := Call.stored ⟨call, (s.app.exec env a call).2⟩ ++ s.log }
  | .administer action =>
      some { s with
        app := { s.app with database := action.apply env.crypto s.database } }
  | .resume i dbFault answer =>
      match s.fanOuts[i]? with
      | none => none
      | some t =>
          match t.resume dbFault answer s.database with
          | none => none
          | some (db, t') =>
              some
                { app := { s.app with database := db }
                  fanOuts := s.fanOuts.set i t'
                  log := t.nextLogged i ++ s.log }

/-- No subscription has been stored for the device since the fan-out read them. -/
def Current (s : PushState) (i : Nat) (d : String) : Prop :=
  Standing (fun e => e = .listed i) (fun e => e = .stored d) s.log

instance (s : PushState) (i : Nat) (d : String) : Decidable (s.Current i d) :=
  inferInstanceAs (Decidable (Standing ..))

/-- An answer that makes a fan-out remove the subscription of a device comes while no
other has been stored for the device since the fan-out read them, and none is stored
between the answer and the removal. -/
def keepsSubscriptions (s : PushState) : PushLabel -> Bool
  | .call _ (.upsertPushSubscription d ..) =>
      s.fanOuts.all fun t => (t.pruning?.map Pruning.deviceId) ≠ some d
  | .resume i dbFault answer =>
      ((s.fanOuts[i]?.bind fun t => t.resume dbFault answer s.database).bind
        fun r => r.2.pruning?).all fun p => s.Current i p.deviceId
  | _ => true

def KeepsSubscriptions (s : PushState) (l : PushLabel) : Prop :=
  s.keepsSubscriptions l = true

instance (s : PushState) (l : PushLabel) : Decidable (s.KeepsSubscriptions l) :=
  inferInstanceAs (Decidable (_ = true))

/-- A fan-out is about to remove a subscription only when that is gone; the row still
holds it, and was not stored after the fan-out read the subscriptions. -/
def PrunesDead (s : PushState) : Prop :=
  forall i t p, s.fanOuts[i]? = some t -> t.pruning? = some p ->
    p.Gone ∧ s.Current i p.deviceId ∧
      forall row, s.database.subscription? p.deviceId = some row ->
        row.subscriptionJson = p.subJson

/-!
## What a fan-out has seen
-/

/-- Unless a subscription has been stored for the device since, its row holds the
subscription that was listed, or is gone. -/
def Seen (s : PushState) (i : Nat) (d json : String) : Prop :=
  s.Current i d ->
    forall row, s.database.subscription? d = some row -> row.subscriptionJson = json

/-- Where a fan-out stands: it has not read the subscriptions, it goes through those it
has read, or it is about to remove one. -/
inductive Stage (s : PushState) (i : Nat) : FanOut -> Prop where
  | started {u payload} : Stage s i ⟨[], PushManager.sendToUser u payload⟩
  | sending {past body rest} (hseen : forall d json, (d, json) ∈ rest -> s.Seen i d json) :
      Stage s i ⟨past, PushManager.sendEach body rest⟩
  | pruning {past answer body d json rest}
      (hseen : forall d json, (d, json) ∈ rest -> s.Seen i d json)
      (hgone : Pruning.Gone ⟨d, json, answer⟩) (hcurrent : s.Current i d)
      (hrow : forall row, s.database.subscription? d = some row -> row.subscriptionJson = json) :
      Stage s i ⟨⟨.sendOne json body, answer⟩ :: past,
        .invoke (.removePushSubscription d) fun _ => PushManager.sendEach body rest⟩

def Staged (s : PushState) : Prop :=
  forall i t, s.fanOuts[i]? = some t -> Stage s i t

/-- A step that stores no subscription a fan-out is about to remove: what is current was
so before, and its row was there. -/
structure Later (s s' : PushState) (i : Nat) (t : FanOut) : Prop where
  earlier : forall d, s'.Current i d -> s.Current i d
  row : forall d row, s'.Current i d -> s'.database.subscription? d = some row ->
    s.database.subscription? d = some row
  kept : forall p, t.pruning? = some p -> s.Current i p.deviceId -> s'.Current i p.deviceId

section

variable {env : Env} {s s' : PushState} {i : Nat} {t : FanOut} {d json : String}

theorem Seen.later (h : s.Seen i d json) (hlater : Later s s' i t) : s'.Seen i d json := by
  intro hcurrent row hrow
  exact h (hlater.earlier d hcurrent) row (hlater.row d row hcurrent hrow)

theorem Stage.later (h : Stage s i t) (hlater : Later s s' i t) : Stage s' i t := by
  cases h with
  | started => exact .started
  | sending hseen => exact .sending fun d json hmem => (hseen d json hmem).later hlater
  | pruning hseen hgone hcurrent hrow =>
      have hstill := hlater.kept _ rfl hcurrent
      exact .pruning (fun d json hmem => (hseen d json hmem).later hlater) hgone hstill
        fun row h => hrow row (hlater.row _ row hstill h)

theorem prunesDead_of_staged (h : s.Staged) : s.PrunesDead := by
  intro i t p ht hpruning
  cases h i t ht with
  | started => cases hpruning
  | sending hseen =>
      rename_i past body rest
      cases rest <;> cases hpruning
  | pruning hseen hgone hcurrent hrow =>
      cases hpruning
      exact ⟨hgone, hcurrent, hrow⟩

theorem staged_start (app : App) : (start app).Staged := by
  intro i t ht
  simp [start] at ht

theorem row_of_exec {app : App} {a : Ambient} {call : Call} {row : PushSubscription}
    (h : (app.exec env a call).1.database.subscription? d = some row) :
    app.database.subscription? d = some row ∨
      Call.stored ⟨call, (app.exec env a call).2⟩ = [.stored d] := by
  have hupdate : forall {α : Type} {answer : α} {db : Except DbError Database},
      (app.update a answer db).1.database.subscription? d = some row ->
      app.database.subscription? d = some row ∨
        exists db', db = .ok db' ∧ (app.update a answer db).2 = .ok answer ∧
          db'.subscription? d = some row := by
    intro α answer db hrow
    unfold App.update at hrow ⊢
    by_cases hfault : a.dbFault = true
    · rw [if_pos hfault] at hrow
      exact Or.inl hrow
    · rw [if_neg hfault] at hrow
      rw [if_neg hfault]
      cases db with
      | error e => exact Or.inl hrow
      | ok db => exact Or.inr ⟨db, rfl, rfl, hrow⟩
  cases call
  case updateDeviceLastSeen i ip =>
      rcases hupdate h with hold | ⟨db, hdb, _, hrow⟩
      · exact Or.inl hold
      · cases hdb
        exact Or.inl ((Database.subscription?_updateDeviceLastSeen i ip).symm.trans hrow)
  case registerDevice u name ip =>
      rcases hupdate h with hold | ⟨db, hdb, _, hrow⟩
      · exact Or.inl hold
      · exact Or.inl ((Database.subscription?_addDevice hdb).symm.trans hrow)
  case revokeDevice i =>
      rcases hupdate h with hold | ⟨db, hdb, _, hrow⟩
      · exact Or.inl hold
      · exact Or.inl (Database.subscription?_removeDevice hdb hrow)
  case upsertPushSubscription i u text =>
      rcases hupdate h with hold | ⟨db, hdb, hreply, hrow⟩
      · exact Or.inl hold
      · by_cases hi : i = d
        · right
          have hreply : (app.exec env a (.upsertPushSubscription i u text)).2 = .ok () := hreply
          rw [hreply, hi]
          rfl
        · exact Or.inl (Database.subscription?_upsertPushSubscription hi hdb hrow)
  case removePushSubscription i =>
      rcases hupdate h with hold | ⟨db, hdb, _, hrow⟩
      · exact Or.inl hold
      · cases hdb
        exact Or.inl (Database.subscription?_removePushSubscription hrow)
  case persistBugReport u i name text screenshot =>
      left
      have h : (app.persistBugReport a u i name text screenshot).database.subscription? d =
        some row := h
      unfold App.persistBugReport at h
      by_cases hfault : a.dbFault = true
      · simp only [if_pos hfault] at h
        exact h
      · simp only [if_neg hfault] at h
        exact h
  all_goals exact Or.inl h

theorem stored_cases (answered : CallAnswer) :
    Call.stored answered = [] ∨ exists d u json, Call.stored answered = [.stored d] ∧
      answered.call = .upsertPushSubscription d u json := by
  unfold Call.stored
  split
  · exact Or.inr ⟨_, _, _, rfl, rfl⟩
  · exact Or.inl rfl

theorem later_call {a : Ambient} {call : Call} (ht : s.fanOuts[i]? = some t)
    (hkeeps : s.KeepsSubscriptions (.call a call))
    (hstep : s.step env (.call a call) = some s') : Later s s' i t := by
  cases hstep
  have hcurrent : forall {d}, Standing (fun e => e = .listed i) (fun e => e = .stored d)
      (Call.stored ⟨call, (s.app.exec env a call).2⟩ ++ s.log) ->
      s.Current i d ∧ Call.stored ⟨call, (s.app.exec env a call).2⟩ ≠ [.stored d] := by
    intro d h
    rcases stored_cases ⟨call, (s.app.exec env a call).2⟩ with hnone | ⟨d', u, json, hsome, _⟩
    · rw [hnone] at h ⊢
      exact ⟨h, by simp⟩
    · rw [hsome] at h ⊢
      rcases standing_cons.mp h with hlisted | ⟨hother, hold⟩
      · simp at hlisted
      · exact ⟨hold, by simpa using hother⟩
  constructor
  · intro d h
    exact (hcurrent h).1
  · intro d row h hrow
    rcases row_of_exec hrow with hold | hstored
    · exact hold
    · exact absurd hstored (hcurrent h).2
  · intro p hpruning hold
    show Standing _ _ (Call.stored ⟨call, (s.app.exec env a call).2⟩ ++ s.log)
    rcases stored_cases ⟨call, (s.app.exec env a call).2⟩ with hnone | ⟨d', u, text, hsome, hcall⟩
    · rw [hnone]
      exact hold
    · rw [hsome]
      refine standing_cons.mpr (Or.inr ⟨?_, hold⟩)
      have hcall : call = .upsertPushSubscription d' u text := hcall
      subst hcall
      have hnot := List.all_eq_true.mp hkeeps t (List.mem_of_getElem? ht)
      rw [hpruning] at hnot
      simp only [Option.map_some, decide_eq_true_eq] at hnot
      simpa using fun h => hnot (congrArg some h.symm)

theorem later_administer {action : AdminAction}
    (hstep : s.step env (.administer action) = some s') : Later s s' i t := by
  cases hstep
  constructor
  · exact fun _ h => h
  · intro d row _ hrow
    have hrow : (action.apply env.crypto s.database).subscription? d = some row := hrow
    cases action with
    | addAccount username account =>
        simp only [AdminAction.apply, Database.createAccount] at hrow
        split at hrow
        · exact hrow
        · exact hrow
    | removeAccount username =>
        simp only [AdminAction.apply] at hrow
        cases hremoved : s.database.removeAccount username with
        | error e =>
            rw [hremoved] at hrow
            exact hrow
        | ok db =>
            rw [hremoved] at hrow
            exact Database.subscription?_removeAccount hremoved hrow
    | setDesktopKey username key =>
        simp only [AdminAction.apply] at hrow
        split at hrow
        · exact hrow
        · exact hrow
  · exact fun _ _ h => h

theorem row_of_resume {fault : Bool} {answer : Except PushError UInt16} {c : PushCall}
    {db : Database} {row : PushSubscription}
    (h : (c.exec fault answer db).1.subscription? d = some row) :
    db.subscription? d = some row := by
  cases c with
  | listPushSubscriptions u => exact h
  | sendOne json body => exact h
  | removePushSubscription i =>
      unfold PushCall.exec at h
      by_cases hfault : fault = true
      · simp only [if_pos hfault] at h
        exact h
      · simp only [if_neg hfault] at h
        exact Database.subscription?_removePushSubscription h

theorem resume_cases {fault : Bool} {answer : Except PushError UInt16}
    (h : s.step env (.resume i fault answer) = some s') :
    exists past c next, s.fanOuts[i]? = some ⟨past, .invoke c next⟩ ∧
      s' = { app := { s.app with database := (c.exec fault answer s.database).1 }
             fanOuts := s.fanOuts.set i
               ⟨⟨c, (c.exec fault answer s.database).2⟩ :: past,
                 next (c.exec fault answer s.database).2⟩
             log := c.logged i ++ s.log } := by
  simp only [step] at h
  cases ht : s.fanOuts[i]? with
  | none =>
      rw [ht] at h
      cases h
  | some t =>
      rcases t with ⟨past, task⟩
      cases task with
      | done value =>
          rw [ht] at h
          cases h
      | invoke c next =>
          rw [ht] at h
          exact ⟨past, c, next, rfl, (Option.some.inj h).symm⟩

theorem logged_cases (c : PushCall) : c.logged i = [] ∨ c.logged i = [.listed i] := by
  cases c with
  | listPushSubscriptions u => exact Or.inr rfl
  | _ => exact Or.inl rfl

theorem later_resume {j : Nat} {fault : Bool} {answer : Except PushError UInt16} (hne : j ≠ i)
    (hstep : s.step env (.resume j fault answer) = some s') : Later s s' i t := by
  rcases resume_cases hstep with ⟨past, c, next, _, rfl⟩
  constructor
  · intro d h
    have h : Standing _ _ (c.logged j ++ s.log) := h
    rcases @logged_cases j c with hnone | hlisted
    · rw [hnone] at h
      exact h
    · rw [hlisted] at h
      rcases standing_cons.mp h with hbegins | ⟨_, hold⟩
      · simp [hne] at hbegins
      · exact hold
  · exact fun d row _ hrow => row_of_resume hrow
  · intro p _ hold
    show Standing _ _ (c.logged j ++ s.log)
    rcases @logged_cases j c with hnone | hlisted
    · rw [hnone]
      exact hold
    · rw [hlisted]
      exact standing_cons.mpr (Or.inr ⟨by simp, hold⟩)

/-- What a fan-out does with the answer for one subscription: it removes the
subscription, or leaves it. -/
theorem sendEach_cons (body : String) (rest : List (String × String)) :
    exists next, PushManager.sendEach body ((d, json) :: rest) =
        .invoke (.sendOne json body) next ∧
      forall answer, next answer = PushManager.sendEach body rest ∨
        Pruning.Gone ⟨d, json, answer⟩ ∧
          next answer = .invoke (.removePushSubscription d) fun _ =>
            PushManager.sendEach body rest := by
  refine ⟨_, rfl, fun answer => ?_⟩
  rcases answer with e | status
  · cases e with
    | subscription message => exact Or.inr ⟨Or.inr (Or.inr ⟨message, rfl⟩), rfl⟩
    | _ => exact Or.inl rfl
  · by_cases hgone : status = 404 ∨ status = 410
    · right
      constructor
      · exact hgone.imp (congrArg _) fun h => Or.inl (congrArg _ h)
      · show (if status = 404 ∨ status = 410 then _ else _) = _
        rw [if_pos hgone]
        rfl
    · left
      show (if status = 404 ∨ status = 410 then _ else _) = _
      rw [if_neg hgone]

theorem seen_of_listed {u : String} (h : (d, json) ∈ s.database.listPushSubscriptions u) :
    s.Seen i d json := by
  intro _ row hrow
  rcases Database.subscription?_of_listed h with ⟨row', hrow', hjson⟩
  rw [hrow] at hrow'
  rw [Option.some.inj hrow']
  exact hjson

theorem seen_of_resume (hlog : s'.log = s.log)
    (hrow : forall d row, s'.database.subscription? d = some row ->
      s.database.subscription? d = some row) (h : s.Seen i d json) : s'.Seen i d json := by
  intro hcurrent row hrow'
  have hcurrent : s.Current i d := by
    unfold Current at hcurrent
    rwa [hlog] at hcurrent
  exact h hcurrent row (hrow d row hrow')

theorem stage_resume {past : List (Answered PushCall PushCall.Reply)} {c : PushCall}
    {next : c.Reply -> PushTask} {fault : Bool} {answer : Except PushError UInt16}
    (h : Stage s i ⟨past, .invoke c next⟩)
    (hkeeps : forall p, FanOut.pruning? ⟨⟨c, (c.exec fault answer s.database).2⟩ :: past,
      next (c.exec fault answer s.database).2⟩ = some p -> s.Current i p.deviceId)
    (hdatabase : s'.database = (c.exec fault answer s.database).1)
    (hlog : s'.log = c.logged i ++ s.log) :
    Stage s' i ⟨⟨c, (c.exec fault answer s.database).2⟩ :: past,
      next (c.exec fault answer s.database).2⟩ := by
  have hrow : forall d row, s'.database.subscription? d = some row ->
      s.database.subscription? d = some row := by
    intro d row hrow
    rw [hdatabase] at hrow
    exact row_of_resume hrow
  generalize htask : Program.invoke c next = task at h
  cases h with
  | started =>
      rename_i u payload
      cases htask
      cases fault with
      | true => exact @Stage.sending s' i _ "" [] fun d json hmem => by cases hmem
      | false =>
          have hdatabase : s'.database = s.database := hdatabase
          refine @Stage.sending s' i _ payload.toText (s.database.listPushSubscriptions u)
            fun d json hmem => ?_
          rw [← hdatabase] at hmem
          exact seen_of_listed hmem
  | sending hseen =>
      rename_i body rest
      cases rest with
      | nil => cases htask
      | cons entry rest =>
          rcases entry with ⟨d, json⟩
          rcases @sendEach_cons d json body rest with ⟨next', hsend, hnext⟩
          rw [hsend] at htask
          cases htask
          have hlog : s'.log = s.log := hlog
          have hrest : forall d json, (d, json) ∈ rest -> s'.Seen i d json :=
            fun d json hmem => seen_of_resume hlog hrow (hseen d json (List.mem_cons_of_mem _ hmem))
          have hfirst : s.Seen i d json := hseen d json List.mem_cons_self
          have hkeeps : forall p, FanOut.pruning? ⟨⟨.sendOne json body, answer⟩ :: past,
              next' answer⟩ = some p -> s.Current i p.deviceId := hkeeps
          show Stage s' i ⟨⟨.sendOne json body, answer⟩ :: past, next' answer⟩
          rcases hnext answer with hgoes | ⟨hgone, hprunes⟩
          · rw [hgoes]
            exact .sending hrest
          · rw [hprunes] at hkeeps ⊢
            have hcurrent : s.Current i d := hkeeps ⟨d, json, answer⟩ rfl
            refine .pruning hrest hgone ?_ fun row hrow' => hfirst hcurrent row (hrow d row hrow')
            unfold Current
            rw [hlog]
            exact hcurrent
  | pruning hseen hgone hcurrent hjson =>
      cases htask
      exact .sending fun d json hmem => seen_of_resume hlog hrow (hseen d json hmem)

theorem staged_step {l : PushLabel} (h : s.Staged) (hkeeps : s.KeepsSubscriptions l)
    (hstep : s.step env l = some s') : s'.Staged := by
  intro i t ht
  cases l with
  | call a call =>
      have hfanOuts : s'.fanOuts = s.fanOuts ++ call.spawned := by
        cases hstep
        rfl
      rw [hfanOuts, List.getElem?_append] at ht
      by_cases hlt : i < s.fanOuts.length
      · rw [if_pos hlt] at ht
        exact (h i t ht).later (later_call ht hkeeps hstep)
      · rw [if_neg hlt] at ht
        have hmem := List.mem_of_getElem? ht
        cases call <;> simp only [Call.spawned, List.not_mem_nil, List.mem_singleton] at hmem
        rw [hmem]
        exact .started
  | administer action =>
      have hfanOuts : s'.fanOuts = s.fanOuts := by
        cases hstep
        rfl
      rw [hfanOuts] at ht
      exact (h i t ht).later (later_administer hstep)
  | resume j fault answer =>
      rcases resume_cases hstep with ⟨past, c, next, hbusy, hs'⟩
      have hfanOuts := congrArg fanOuts hs'
      rw [hfanOuts, List.getElem?_set] at ht
      by_cases hj : j = i
      · subst hj
        have hlt : j < s.fanOuts.length := (List.getElem?_eq_some_iff.mp hbusy).1
        rw [if_pos rfl, if_pos hlt] at ht
        cases ht
        refine stage_resume (h j _ hbusy) ?_ (by rw [hs']; rfl) (by rw [hs'])
        intro p hp
        simp only [KeepsSubscriptions, keepsSubscriptions, hbusy, Option.bind_some,
          FanOut.resume, hp, Option.all_some, decide_eq_true_eq] at hkeeps
        exact hkeeps
      · rw [if_neg hj] at ht
        exact (h i t ht).later (later_resume hj hstep)

end

/--
In every run in which no subscription is stored for a device between the moment a fan-out
reads the subscriptions and the answer that condemns the device's, nor between that answer
and the removal, only dead subscriptions are removed.
-/
theorem prunes_dead {env : Env} {app : App} {labels : List PushLabel} {s : PushState}
    (hrun : follow (step env) (start app) labels = some s)
    (hok : Admits (step env) KeepsSubscriptions (start app) labels) : s.PrunesDead :=
  prunesDead_of_staged
    (follow_invariant (fun _ _ _ hs hl hstep => staged_step hs hl hstep) (staged_start app) hrun
      hok)

def subscription (endpoint : String) : Json.Value :=
  .ofJson (.object [("endpoint", .string endpoint),
    ("keys", .object [
      ("p256dh", .string
        "BCVxsr7N_eNgVRqvHtD0zTZsEc6-VV-JvLexhqUzORcxaOzi6-AYWXvTBHm4bjyPjs7Vd8pZGH6SRpkNtoIAiw4"),
      ("auth", .string "BTBZMqHH6r4Tts7J_aSIgg")])])

def oldJson : String :=
  (subscription "https://push.example.net/old").toText

def newJson : String :=
  (subscription "https://push.example.net/new").toText

def subscribes (json : String) : PushLabel :=
  .call (Deployment.ambient 0) (.upsertPushSubscription Deployment.phone.text "user" json)

/-- The desktop notifies, and the push service reports the phone's subscription gone. -/
def condemned : List PushLabel :=
  [subscribes oldJson, .call (Deployment.ambient 0) (.pushToUser "user" (.object [])),
    .resume 0 false (.ok 201), .resume 0 false (.ok 410)]

def deployed : App where
  broker := Broker.new
  auth := Deployment.auth
  database := Deployment.database
  pushes := []

/-- What the first fan-out is about to remove, and what is stored there. -/
def atRemoval (s : PushState) : Option (String × String × Option String) :=
  s.fanOuts.head?.bind fun t => t.pruning?.map fun p =>
    (p.deviceId, p.subJson,
      (s.database.subscription? p.deviceId).map PushSubscription.subscriptionJson)

theorem prunes_dead_example : exists s,
    follow (step Deployment.env) (start deployed) condemned = some s ∧
      s.atRemoval = some (Deployment.phone.text, oldJson, some oldJson) ∧ s.PrunesDead := by
  have hend : (follow (step Deployment.env) (start deployed) condemned).map atRemoval =
      some (some (Deployment.phone.text, oldJson, some oldJson)) := by
    decide +kernel
  rcases Option.map_eq_some_iff.mp hend with ⟨s, hrun, hremoval⟩
  exact ⟨s, hrun, hremoval, prunes_dead hrun (by decide +kernel)⟩

/-- The phone subscribes anew while the fan-out waits for the push service: the new
subscription is removed. -/
theorem new_subscription_pruned : exists s s',
    follow (step Deployment.env) (start deployed) (condemned ++ [subscribes newJson]) = some s ∧
      ¬ s.PrunesDead ∧ step Deployment.env s (.resume 0 false (.ok 201)) = some s' ∧
      s'.database.subscription? Deployment.phone.text = none := by
  have hafter : (follow (step Deployment.env) (start deployed)
      (condemned ++ [subscribes newJson] ++ [.resume 0 false (.ok 201)])).map
      (fun s => (s.database.subscription? Deployment.phone.text).isNone) = some true := by
    decide +kernel
  rcases Option.map_eq_some_iff.mp hafter with ⟨s', hs', hremoved⟩
  rcases follow_append_eq_some.mp hs' with ⟨m, hm, hlast⟩
  rcases follow_cons_eq_some.mp hlast with ⟨r, hresume, hr⟩
  cases hr
  have hend : (follow (step Deployment.env) (start deployed)
      (condemned ++ [subscribes newJson])).map atRemoval =
        some (some (Deployment.phone.text, oldJson, some newJson)) := by
    decide +kernel
  rcases Option.map_eq_some_iff.mp hend with ⟨s, hrun, hremoval⟩
  have hsame : s = m := Option.some.inj (hrun.symm.trans hm)
  subst hsame
  refine ⟨s, s', hrun, fun hdead => ?_, hresume, Option.isNone_iff_eq_none.mp hremoved⟩
  rcases Option.bind_eq_some_iff.mp hremoval with ⟨t, ht, hpruning⟩
  rcases Option.map_eq_some_iff.mp hpruning with ⟨p, hp, hvalues⟩
  injection hvalues with hdevice hvalues
  injection hvalues with hjson hrow
  rcases Option.map_eq_some_iff.mp hrow with ⟨row, hrow, hnew⟩
  have hsame := (hdead 0 t p (by rwa [List.head?_eq_getElem?] at ht) hp).2.2 row hrow
  rw [hnew, hjson] at hsame
  exact absurd hsame (by decide +kernel)

end PushState

end CommandRelay
