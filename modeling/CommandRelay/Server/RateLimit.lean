import CommandRelay.Foundation.Lockout
import CommandRelay.Server.Credentials

/-!
# Guessing against the rate limit

The rate limit of a username is a lockout whose agents are the connections that
authenticate as it.  The check, the verification and the record of a failure are
separate calls of a handler, so several connections may pass the check before any
of their failures is recorded.
-/

namespace CommandRelay

open Foundation

def lockoutAct (u : String) (a : CallAnswer) : Option LockoutAct :=
  if passesLimit u a then some .allow
  else if refuses u a then some .refuse
  else if settles u a then
    match a.call with
    | .recordFailure _ => some .record
    | .clearRateLimit _ => some .clear
    | _ => some .leave
  else none

/-- Every reading of an answered call. -/
inductive Reads (u : String) : CallAnswer -> Option LockoutAct -> Prop where
  | allow : Reads u ⟨.checkRateLimit u, none⟩ (some .allow)
  | refuse {a} (hrefuses : refuses u a = true) (hpasses : passesLimit u a = false)
      (hsettles : settles u a = false) : Reads u a (some .refuse)
  | record {r} : Reads u ⟨.recordFailure u, r⟩ (some .record)
  | clear {r} : Reads u ⟨.clearRateLimit u, r⟩ (some .clear)
  | leave {tx success token device error retryAfter r} :
      Reads u ⟨.broker (.send tx (.text (.authResult success token device error retryAfter))), r⟩
        (some .leave)
  | other {a} (hpasses : passesLimit u a = false) (hrefuses : refuses u a = false)
      (hsettles : settles u a = false) : Reads u a none

theorem reads_lockoutAct (u : String) (a : CallAnswer) : Reads u a (lockoutAct u a) := by
  unfold lockoutAct
  by_cases hpasses : passesLimit u a = true
  · rw [if_pos hpasses]
    unfold passesLimit at hpasses
    split at hpasses
    · cases of_decide_eq_true hpasses
      exact .allow
    · cases hpasses
  · rw [if_neg hpasses]
    rw [Bool.not_eq_true] at hpasses
    by_cases hrefuses : refuses u a = true
    · rw [if_pos hrefuses]
      refine .refuse hrefuses hpasses ?_
      rcases a with ⟨call, r⟩
      cases call <;> first | rfl | cases hrefuses
    · rw [if_neg hrefuses]
      rw [Bool.not_eq_true] at hrefuses
      by_cases hsettles : settles u a = true
      · rw [if_pos hsettles]
        unfold settles at hsettles
        split at hsettles
        · cases of_decide_eq_true hsettles
          exact .record
        · cases of_decide_eq_true hsettles
          exact .clear
        · exact .leave
        · cases hsettles
      · rw [if_neg hsettles]
        rw [Bool.not_eq_true] at hsettles
        exact .other hpasses hrefuses hsettles

theorem Reads.refuses_iff {u : String} {a : CallAnswer} {act : LockoutAct}
    (h : Reads u a (some act)) : refuses u a = true <-> act = .refuse := by
  cases h with
  | refuse hrefuses hpasses hsettles => exact iff_of_true hrefuses rfl
  | _ => exact iff_of_false (fun h => by cases h) (fun h => by cases h)

theorem Reads.not_refuses {u : String} {a : CallAnswer} (h : Reads u a none) :
    refuses u a = false := by
  cases h with
  | other hpasses hrefuses hsettles => exact hrefuses

theorem Reads.attempting_iff {u : String} {a : CallAnswer} {act : LockoutAct}
    {past : List CallAnswer} (h : Reads u a (some act))
    (hbefore : act = .refuse -> Attempting u past) :
    Attempting u (a :: past) <-> act = .allow ∨ act = .refuse := by
  rw [attempting_cons]
  cases h with
  | allow => exact iff_of_true (Or.inl (decide_eq_true rfl)) (Or.inl rfl)
  | refuse hrefuses hpasses hsettles =>
      exact iff_of_true (Or.inr ⟨hsettles, hbefore rfl⟩) (Or.inr rfl)
  | _ => simp [passesLimit, settles]

theorem reads_answer (u : String) (a : CallAnswer) :
    exists ans act, a = ans ∧ lockoutAct u a = act ∧ Reads u ans act :=
  ⟨a, lockoutAct u a, rfl, rfl, reads_lockoutAct u a⟩

def lockoutEvent (u : String) (e : RelayEvent) : Option (LockoutEvent ConnId) :=
  (lockoutAct u e.answered).map fun act => ⟨e.conn, e.now, act⟩

def lockoutHistory (u : String) (log : List RelayEvent) : List (LockoutEvent ConnId) :=
  log.filterMap (lockoutEvent u)

theorem lockoutHistory_cons (u : String) (e : RelayEvent) (log : List RelayEvent) :
    lockoutHistory u (e :: log) = (lockoutEvent u e).toList ++ lockoutHistory u log := by
  unfold lockoutHistory
  rw [List.filterMap_cons]
  cases lockoutEvent u e <;> rfl

def checksLimit (u : String) : Call -> Bool
  | .checkRateLimit v => v = u
  | _ => false

namespace Relay

/-- A connection passes the rate limit of a user whose other attempts could take the
recorded failures to the limit. -/
def crowds (u : String) (s : Relay) : RelayLabel -> Bool
  | .resume c a =>
      (s.upcoming c).any (checksLimit u) && (s.app.auth.checkRateLimit u a.now).isNone &&
        Lockout.crowded maxFailures (lockoutHistory u s.log)
  | _ => false

def Uncrowded (u : String) (s : Relay) (l : RelayLabel) : Prop :=
  s.crowds u l = false

instance (u : String) (s : Relay) (l : RelayLabel) : Decidable (s.Uncrowded u l) :=
  inferInstanceAs (Decidable (_ = false))

/-!
## The recorded failures
-/

theorem auth_update (a : Ambient) (app : App) (answer : α) (db : Except DbError Database) :
    (app.update a answer db).1.auth = app.auth := by
  unfold App.update
  split
  · rfl
  · cases db <;> rfl

/-- A call that neither records a failure of the user nor clears its rate limit keeps
the user's entry. -/
theorem entry_exec {env : Env} {a : Ambient} {app : App} {call : Call} {u : String}
    (hrecord : call ≠ .recordFailure u) (hclear : call ≠ .clearRateLimit u) :
    (app.exec env a call).1.auth.rateLimits.lookup u = app.auth.rateLimits.lookup u := by
  cases call
  case recordFailure v =>
      have hv : u ≠ v := fun h => hrecord (h ▸ rfl)
      exact AList.lookup_insert_ne hv
  case clearRateLimit v =>
      have hv : u ≠ v := fun h => hclear (h ▸ rfl)
      exact AList.lookup_erase_ne hv
  case updateDeviceLastSeen => rw [App.exec, auth_update]
  case registerDevice => rw [App.exec, auth_update]
  case revokeDevice => rw [App.exec, auth_update]
  case upsertPushSubscription => rw [App.exec, auth_update]
  case removePushSubscription => rw [App.exec, auth_update]
  case persistBugReport =>
      simp only [App.exec, App.persistBugReport]
      split <;> rfl
  all_goals rfl

theorem auth_step {env : Env} {s s' : Relay} {l : RelayLabel} (h : step env s l = some s')
    (hlog : s'.log = s.log) : s'.app.auth = s.app.auth := by
  cases step_taken h with
  | resume => exact absurd hlog perform_logs
  | panic => exact absurd hlog perform_logs
  | clean => exact absurd hlog perform_logs
  | _ => rfl

/-!
## The lockout of a user follows its history
-/

/-- The entry of a user agrees with the history of its lockout. -/
structure Agrees (entry : Option RateLimitEntry) (history : List (LockoutEvent ConnId)) :
    Prop where
  failures : (entry.getD ⟨0, none⟩).failures = Lockout.failures history
  locked : (entry.getD ⟨0, none⟩).lockedUntil =
    Lockout.lockedUntil maxFailures lockoutDuration history

theorem Agrees.record {auth : AuthManager} {u : String} {now : Instant} {c : ConnId}
    {history : List (LockoutEvent ConnId)} (h : Agrees (auth.rateLimits.lookup u) history) :
    Agrees ((auth.recordFailure u now).rateLimits.lookup u) (⟨c, now, .record⟩ :: history) := by
  unfold AuthManager.recordFailure
  rw [AList.lookup_insert]
  refine ⟨congrArg (fun n => n + 1) h.failures, ?_⟩
  simp only [Option.getD_some, Lockout.lockedUntil, h.failures, h.locked]

theorem Agrees.clear {auth : AuthManager} {u : String} {now : Instant} {c : ConnId}
    {history : List (LockoutEvent ConnId)} :
    Agrees ((auth.clearRateLimit u).rateLimits.lookup u) (⟨c, now, .clear⟩ :: history) := by
  unfold AuthManager.clearRateLimit
  rw [AList.lookup_erase]
  exact ⟨rfl, rfl⟩

/-- The lockout of a user in a relay agrees with its history. -/
structure Locks (u : String) (s : Relay) : Prop where
  entry : Agrees (s.app.auth.rateLimits.lookup u) (lockoutHistory u s.log)
  attempts : forall c, c ∈ Lockout.attempts (lockoutHistory u s.log) <->
    Attempting u (s.pastOf c)
  refused : forall c, c ∈ Lockout.refused (lockoutHistory u s.log) <->
    exists a, (s.pastOf c).head? = some a ∧ refuses u a = true
  orderly : Lockout.Orderly maxFailures lockoutDuration (lockoutHistory u s.log)
  clock : Lockout.latest (lockoutHistory u s.log) ≤ s.clock

theorem Locks.bounded {u : String} {s : Relay} (h : Locks u s) :
    Lockout.Bounded maxFailures lockoutDuration (lockoutHistory u s.log) :=
  Lockout.bounded_of_orderly (by decide) h.orderly

theorem locks_init (u : String) (auth : AuthManager) (database : Database)
    (hfresh : auth.rateLimits = ∅) : Locks u (init auth database) where
  entry := by
    show Agrees (auth.rateLimits.lookup u) []
    rw [hfresh]
    exact ⟨rfl, rfl⟩
  attempts := fun c => iff_of_false (by simp [lockoutHistory, init, Lockout.attempts])
    not_attempting_nil
  refused := fun c => iff_of_false (by simp [lockoutHistory, init, Lockout.refused])
    (by simp [pastOf, activity, init])
  orderly := trivial
  clock := Nat.le_refl _

theorem Locks.keep {u : String} {s s' : Relay} (h : Locks u s)
    (hhistory : lockoutHistory u s'.log = lockoutHistory u s.log)
    (hentry : s'.app.auth.rateLimits.lookup u = s.app.auth.rateLimits.lookup u)
    (hclock : s.clock ≤ s'.clock)
    (hpast : forall c, s'.pastOf c = s.pastOf c ∨
      s'.pastOf c = [] ∧ ¬ Attempting u (s.pastOf c)) : Locks u s' := by
  have hrefusing : forall c, ¬ Attempting u (s.pastOf c) ->
      c ∉ Lockout.refused (lockoutHistory u s.log) := by
    intro c hidle hc
    exact hidle ((h.attempts c).mp (h.bounded.subset c hc))
  refine
    { entry := by rw [hentry, hhistory]; exact h.entry
      attempts := ?_
      refused := ?_
      orderly := by rw [hhistory]; exact h.orderly
      clock := by rw [hhistory]; exact Nat.le_trans h.clock hclock }
  · intro c
    rw [hhistory, h.attempts]
    rcases hpast c with hsame | ⟨hempty, hidle⟩
    · rw [hsame]
    · rw [hempty]
      exact iff_of_false hidle not_attempting_nil
  · intro c
    rw [hhistory]
    rcases hpast c with hsame | ⟨hempty, hidle⟩
    · rw [hsame]
      exact h.refused c
    · rw [hempty]
      exact iff_of_false (hrefusing c hidle) (by simp)

theorem Locks.event {u : String} {s s' : Relay} {e : RelayEvent} {act : LockoutAct}
    {past : List CallAnswer} (h : Locks u s) (hlog : s'.log = e :: s.log)
    (hfollows : Lockout.Follows maxFailures lockoutDuration (lockoutHistory u s.log)
      ⟨e.conn, e.now, act⟩)
    (hact : lockoutAct u e.answered = some act) (hbefore : s.pastOf e.conn = past)
    (hfree : act = .allow -> Lockout.crowded maxFailures (lockoutHistory u s.log) = false)
    (hentry : Agrees (s'.app.auth.rateLimits.lookup u)
      (⟨e.conn, e.now, act⟩ :: lockoutHistory u s.log))
    (hnow : s'.clock = e.now) (hpast : s'.pastOf e.conn = e.answered :: past)
    (hothers : forall c, c ≠ e.conn -> s'.pastOf c = s.pastOf c) : Locks u s' := by
  have hread : Reads u e.answered (some act) := hact ▸ reads_lockoutAct u e.answered
  have hattempting : Attempting u (e.answered :: past) <-> act = .allow ∨ act = .refuse := by
    refine hread.attempting_iff fun hrefuse => ?_
    subst hrefuse
    exact hbefore ▸ (h.attempts e.conn).mp hfollows.2.1
  have hevent : lockoutEvent u e = some ⟨e.conn, e.now, act⟩ := by
    rw [lockoutEvent, hact]
    rfl
  have hhistory : lockoutHistory u s'.log =
      ⟨e.conn, e.now, act⟩ :: lockoutHistory u s.log := by
    rw [hlog, lockoutHistory_cons, hevent]
    rfl
  refine
    { entry := by rw [hhistory]; exact hentry
      attempts := ?_
      refused := ?_
      orderly := by rw [hhistory]; exact ⟨hfollows, hfree, h.orderly⟩
      clock := by rw [hhistory]; exact Nat.le_of_eq hnow.symm }
  · intro c
    rw [hhistory]
    by_cases hc : c = e.conn
    · rw [hc, hpast]
      exact (Lockout.agent_mem_attempts h.bounded hfollows).trans hattempting.symm
    · rw [hothers c hc]
      exact (Lockout.mem_attempts_other hc).trans (h.attempts c)
  · intro c
    rw [hhistory]
    by_cases hc : c = e.conn
    · rw [hc, hpast]
      refine (Lockout.agent_mem_refused h.bounded hfollows).trans (hread.refuses_iff.symm.trans ?_)
      simp
    · rw [hothers c hc]
      exact (Lockout.mem_refused_other hc).trans (h.refused c)

theorem Locks.other {u : String} {s s' : Relay} {e : RelayEvent} {past : List CallAnswer}
    (h : Locks u s) (hlog : s'.log = e :: s.log) (hact : lockoutAct u e.answered = none)
    (hentry : s'.app.auth.rateLimits.lookup u = s.app.auth.rateLimits.lookup u)
    (hclock : s.clock ≤ s'.clock) (hbefore : s.pastOf e.conn = past)
    (hpast : s'.pastOf e.conn = e.answered :: past)
    (hothers : forall c, c ≠ e.conn -> s'.pastOf c = s.pastOf c)
    (hrecorded : forall a, past.head? = some a -> refuses u a = false)
    (hattempting : Attempting u (e.answered :: past) <-> Attempting u past)
    (hrefusing : refuses u e.answered = false) : Locks u s' := by
  have hhistory : lockoutHistory u s'.log = lockoutHistory u s.log := by
    rw [hlog, lockoutHistory_cons, lockoutEvent, hact]
    rfl
  refine
    { entry := by rw [hentry, hhistory]; exact h.entry
      attempts := ?_
      refused := ?_
      orderly := by rw [hhistory]; exact h.orderly
      clock := by rw [hhistory]; exact Nat.le_trans h.clock hclock }
  · intro c
    rw [hhistory, h.attempts]
    by_cases hc : c = e.conn
    · rw [hc, hpast, hbefore]
      exact hattempting.symm
    · rw [hothers c hc]
  · intro c
    rw [hhistory, h.refused]
    by_cases hc : c = e.conn
    · rw [hc, hpast, hbefore]
      refine iff_of_false ?_ ?_
      · rintro ⟨a, hhead, hrefuses⟩
        rw [hrecorded a hhead] at hrefuses
        cases hrefuses
      · rintro ⟨a, hhead, hrefuses⟩
        cases hhead
        rw [hrefusing] at hrefuses
        cases hrefuses
    · rw [hothers c hc]

theorem until_le_of_checkRateLimit {auth : AuthManager} {u : String} {now until_ : Instant}
    (h : auth.checkRateLimit u now = none)
    (hlocked : ((auth.rateLimits.lookup u).getD ⟨0, none⟩).lockedUntil = some until_) :
    until_ ≤ now := by
  unfold AuthManager.checkRateLimit at h
  cases hentry : auth.rateLimits.lookup u with
  | none =>
      rw [hentry] at hlocked
      cases hlocked
  | some entry =>
      have hbind : (auth.rateLimits.lookup u).bind RateLimitEntry.lockedUntil = some until_ := by
        rw [hentry] at hlocked ⊢
        exact hlocked
      rw [hbind] at h
      by_cases hnow : now < until_
      · simp [hnow] at h
      · exact Nat.not_lt.mp hnow

theorem attempting_of_refuses {frame : Inbound} {role : ConnectionRole} {u : String}
    {past : List CallAnswer} {call : Call} {r : call.Reply}
    (h : Credible frame role past call) (hrefuses : refuses u ⟨call, r⟩ = true) :
    Attempting u past ∧ call ≠ .recordFailure u ∧ call ≠ .clearRateLimit u := by
  have hentitled := h.entitled
  cases call
  case verifyDesktopKey v key =>
      have hv : v = u := by
        cases r with
        | error e => exact of_decide_eq_true hrefuses
        | ok valid =>
            cases valid with
            | false => exact of_decide_eq_true hrefuses
            | true => cases hrefuses
      exact ⟨hv ▸ hentitled, by simp, by simp⟩
  case verifyPassword v hash =>
      cases r with
      | error e => exact ⟨of_decide_eq_true hrefuses ▸ hentitled, by simp, by simp⟩
      | ok _ => cases hrefuses
  case verifyTotp v code =>
      cases r with
      | error e => exact ⟨of_decide_eq_true hrefuses ▸ hentitled, by simp, by simp⟩
      | ok _ => cases hrefuses
  all_goals cases hrefuses

theorem locks_resume {env : Env} {u : String} {s : Relay} {c : ConnId} {a : Ambient}
    {frame : Inbound} {role : ConnectionRole} {past : List CallAnswer} {call : Call}
    {next : call.Reply -> Handler Unit} (h : Locks u s) (hclock : s.clock ≤ a.now)
    (hbusy : s.activity c = .handling frame role past (.invoke call next))
    (hcredible : Credible frame role past call) (hfree : s.Uncrowded u (.resume c a)) :
    Locks u ((s.perform env c a call).setActivity c
      (.handling frame role (⟨call, s.answer env a call⟩ :: past)
        (next (s.answer env a call)))) := by
  have hbefore : s.pastOf c = past := pastOf_handling hbusy
  have hpast : ((s.perform env c a call).setActivity c
      (.handling frame role (⟨call, s.answer env a call⟩ :: past)
        (next (s.answer env a call)))).pastOf c = ⟨call, s.answer env a call⟩ :: past := by
    rw [pastOf, activity_setActivity_same]
  have hothers : forall c', c' ≠ c -> ((s.perform env c a call).setActivity c
      (.handling frame role (⟨call, s.answer env a call⟩ :: past)
        (next (s.answer env a call)))).pastOf c' = s.pastOf c' := fun c' hc =>
    (pastOf_setActivity_ne hc).trans pastOf_perform
  have hlater : Lockout.latest (lockoutHistory u s.log) ≤ a.now := Nat.le_trans h.clock hclock
  -- A refusal is recorded by the very next call.
  have hrecorded : call ≠ .recordFailure u -> forall b, past.head? = some b ->
      refuses u b = false := by
    intro hcall b hhead
    cases hrefuses : refuses u b with
    | false => rfl
    | true => exact absurd (hcredible.recorded u b hhead hrefuses) hcall
  have hwaiting : call ≠ .recordFailure u -> c ∉ Lockout.refused (lockoutHistory u s.log) := by
    intro hcall hc
    rcases (h.refused c).mp hc with ⟨b, hhead, hrefuses⟩
    rw [hbefore] at hhead
    rw [hrecorded hcall b hhead] at hrefuses
    cases hrefuses
  rcases reads_answer u ⟨call, s.answer env a call⟩ with ⟨ans, act, hans, hact, hread⟩
  cases hread with
  | allow =>
      cases congrArg Answered.call hans
      injection hans with _ hnone
      have hempty : past = [] := hcredible.entitled.2
      have hfresh : c ∉ Lockout.attempts (lockoutHistory u s.log) := by
        rw [h.attempts, hbefore, hempty]
        exact not_attempting_nil
      have hfollows : Lockout.Follows maxFailures lockoutDuration (lockoutHistory u s.log)
          ⟨c, a.now, .allow⟩ :=
        ⟨hlater, hfresh, fun until_ huntil =>
          until_le_of_checkRateLimit hnone (h.entry.locked.trans huntil)⟩
      have hroom : Lockout.crowded maxFailures (lockoutHistory u s.log) = false := by
        have hupcoming : s.upcoming c = some (.checkRateLimit u) := by rw [upcoming, hbusy]
        have hpasses : s.app.auth.checkRateLimit u a.now = none := hnone
        simpa [Uncrowded, crowds, hupcoming, checksLimit, hpasses] using hfree
      exact h.event rfl hfollows hact hbefore (fun _ => hroom) ⟨h.entry.failures, h.entry.locked⟩
        rfl hpast hothers
  | refuse hrefuses hpasses hsettles =>
      rw [← hans] at hrefuses
      rcases attempting_of_refuses hcredible hrefuses with ⟨hattempting, hrecord, hclear⟩
      have hfollows : Lockout.Follows maxFailures lockoutDuration (lockoutHistory u s.log)
          ⟨c, a.now, .refuse⟩ :=
        ⟨hlater, (h.attempts c).mpr (hbefore ▸ hattempting), hwaiting hrecord⟩
      have hentry : Agrees ((s.app.exec env a call).1.auth.rateLimits.lookup u)
          (⟨c, a.now, .refuse⟩ :: lockoutHistory u s.log) := by
        rw [entry_exec hrecord hclear]
        exact ⟨h.entry.failures, h.entry.locked⟩
      exact h.event rfl hfollows hact hbefore (fun hc => by cases hc) hentry rfl hpast hothers
  | record =>
      cases congrArg Answered.call hans
      have hrefused : c ∈ Lockout.refused (lockoutHistory u s.log) := by
        rw [h.refused, hbefore]
        exact hcredible.entitled
      have hfollows : Lockout.Follows maxFailures lockoutDuration (lockoutHistory u s.log)
          ⟨c, a.now, .record⟩ := ⟨hlater, hrefused⟩
      exact h.event rfl hfollows hact hbefore (fun hc => by cases hc) h.entry.record rfl hpast
        hothers
  | clear =>
      cases congrArg Answered.call hans
      have hfollows : Lockout.Follows maxFailures lockoutDuration (lockoutHistory u s.log)
          ⟨c, a.now, .clear⟩ := ⟨hlater, hwaiting (by simp)⟩
      exact h.event rfl hfollows hact hbefore (fun hc => by cases hc) Agrees.clear rfl hpast
        hothers
  | leave =>
      cases congrArg Answered.call hans
      have hfollows : Lockout.Follows maxFailures lockoutDuration (lockoutHistory u s.log)
          ⟨c, a.now, .leave⟩ := ⟨hlater, hwaiting (by simp)⟩
      exact h.event rfl hfollows hact hbefore (fun hc => by cases hc)
        ⟨h.entry.failures, h.entry.locked⟩ rfl hpast hothers
  | other hpasses hrefuses hsettles =>
      rw [← hans] at hpasses hrefuses hsettles
      have hrecord : call ≠ .recordFailure u := by
        intro hcall
        subst hcall
        simp [settles] at hsettles
      have hclear : call ≠ .clearRateLimit u := by
        intro hcall
        subst hcall
        simp [settles] at hsettles
      refine h.other rfl hact (entry_exec hrecord hclear) hclock hbefore hpast hothers
        (hrecorded hrecord) ?_ hrefuses
      rw [attempting_cons, hpasses, hsettles]
      simp

/-- A step that makes no call keeps the user's lockout, when the handlers it ends have
no attempt under way. -/
theorem locks_of_quiet {env : Env} {u : String} {s s' : Relay} {l : RelayLabel} (h : Locks u s)
    (hnext : step env s l = some s') (hlog : s'.log = s.log) (hclock : s.clock ≤ s'.clock)
    (hpast : forall c, s'.pastOf c = s.pastOf c ∨
      s'.pastOf c = [] ∧ ¬ Attempting u (s.pastOf c)) : Locks u s' :=
  h.keep (by rw [hlog]) (by rw [auth_step hnext hlog]) hclock hpast

theorem locks_step {env : Env} {u : String} {s s' : Relay} {l : RelayLabel} (hs : Sound s)
    (haccredited : Accredited s) (h : Locks u s) (hfree : s.Uncrowded u l)
    (hnext : step env s l = some s') : Locks u s' := by
  cases step_transition hnext with
  | connect hvacant hsockets haccount hlog hclock halive =>
      rename_i c ip
      refine locks_of_quiet h hnext hlog (Nat.le_of_eq hclock.symm) fun c' => Or.inl ?_
      by_cases hc : c' = c
      · subst hc
        rw [pastOf_idle (s := s) (by simp [hvacant]), pastOf_idle (by simp [activity, hsockets])]
      · simp [pastOf, activity, hsockets, hc]
  | receive hidle =>
      rename_i c frame
      refine locks_of_quiet h hnext rfl (Nat.le_refl _) fun c' => Or.inl ?_
      by_cases hc : c' = c
      · subst hc
        rw [pastOf_idle (s := s) (by simp [hidle])]
        simp [pastOf]
      · exact pastOf_setActivity_ne hc
  | resume hclock hbusy => exact locks_resume h hclock hbusy (haccredited hbusy).1 hfree
  | panic hclock hbusy =>
      rename_i c a frame receivedAs past next
      refine h.keep ?_ rfl (Nat.le_trans hclock (Nat.le_refl _)) fun c' => ?_
      · exact lockoutHistory_cons u _ s.log
      · by_cases hc : c' = c
        · subst hc
          rw [pastOf_handling hbusy]
          exact Or.inr ⟨pastOf_idle (by simp), (haccredited hbusy).1.entitled u⟩
        · exact Or.inl ((pastOf_setActivity_ne hc).trans pastOf_perform)
  | returned hbusy =>
      rename_i c frame receivedAs past
      refine locks_of_quiet h hnext rfl (Nat.le_refl _) fun c' => ?_
      by_cases hc : c' = c
      · subst hc
        rw [pastOf_handling hbusy]
        exact Or.inr ⟨pastOf_idle (by simp), haccredited hbusy u⟩
      · exact Or.inl (pastOf_setActivity_ne hc)
  | hangUp hidle =>
      rename_i c
      refine locks_of_quiet h hnext rfl (Nat.le_refl _) fun c' => Or.inl ?_
      by_cases hc : c' = c
      · subst hc
        rw [pastOf_idle (s := s) (by simp [hidle]), pastOf_idle (by simp)]
      · exact pastOf_setActivity_ne hc
  | clean hclock hbusy =>
      rename_i c a call next
      rcases closing_call (hs.closing hbusy) with ⟨op, hcall, hclean⟩
      subst hcall
      refine h.keep ?_ rfl hclock fun c' => Or.inl ?_
      · rw [log_setActivity, log_perform, lockoutHistory_cons]
        generalize s.role c = role at hclean
        cases hclean <;> rfl
      · by_cases hc : c' = c
        · subst hc
          rw [pastOf_idle (s := s) (by simp [hbusy]), pastOf_idle (by simp)]
        · exact (pastOf_setActivity_ne hc).trans pastOf_perform
  | closed hbusy =>
      rename_i c
      refine locks_of_quiet h hnext rfl (Nat.le_refl _) fun c' => Or.inl ?_
      by_cases hc : c' = c
      · subst hc
        rw [pastOf_idle (s := s) (by simp [hbusy]), pastOf_idle (by simp)]
      · exact (pastOf_setActivity_ne hc).trans rfl
  | background hquiet =>
      refine locks_of_quiet h hnext hquiet.log hquiet.clock fun c => Or.inl ?_
      rw [pastOf, activity, hquiet.sockets, pastOf, activity]

/-!
## Guessing is bounded
-/

/-- The verifications of a user's credentials that failed in a period. -/
def failedVerifications (u : String) (since : Instant) (log : List RelayEvent) :
    List RelayEvent :=
  log.filter fun e =>
    refuses u e.answered && decide (since ≤ e.now ∧ e.now < since + lockoutDuration)

/-- No attempt of the user succeeds in a period. -/
def NoSuccess (u : String) (since : Instant) (log : List RelayEvent) : Prop :=
  forall e, e ∈ log -> e.answered.call = .clearRateLimit u -> since ≤ e.now ->
    since + lockoutDuration ≤ e.now

theorem failedVerifications_length (u : String) (since : Instant) (log : List RelayEvent) :
    (failedVerifications u since log).length =
      (Lockout.refusalsIn lockoutDuration since (lockoutHistory u log)).length := by
  induction log with
  | nil => rfl
  | cons e rest ih =>
      unfold failedVerifications Lockout.refusalsIn at ih ⊢
      rw [List.filter_cons, lockoutHistory_cons, List.filter_append]
      have hread := reads_lockoutAct u e.answered
      cases hact : lockoutAct u e.answered with
      | none =>
          rw [hact] at hread
          simpa [lockoutEvent, hact, hread.not_refuses] using ih
      | some act =>
          rw [hact] at hread
          by_cases hrefuse : act = .refuse
          · subst hrefuse
            have hrefuses := hread.refuses_iff.mpr rfl
            by_cases hin : since ≤ e.now ∧ e.now < since + lockoutDuration
            · simpa [lockoutEvent, hact, hrefuses, hin] using ih
            · simpa [lockoutEvent, hact, hrefuses, hin, List.filter_cons] using ih
          · have hrefuses : refuses u e.answered = false := by
              rw [← Bool.not_eq_true, hread.refuses_iff]
              exact hrefuse
            simpa [lockoutEvent, hact, hrefuses, hrefuse, List.filter_cons] using ih

theorem clear_of_mem {u : String} {log : List RelayEvent} {e : LockoutEvent ConnId}
    (h : e ∈ lockoutHistory u log) (hact : e.act = .clear) :
    exists f, f ∈ log ∧ f.answered.call = .clearRateLimit u ∧ f.now = e.time := by
  rcases List.mem_filterMap.mp h with ⟨f, hf, hevent⟩
  rcases Option.map_eq_some_iff.mp hevent with ⟨act, hread, he⟩
  have hreads := reads_lockoutAct u f.answered
  subst he
  cases hact
  rw [hread] at hreads
  generalize hans : f.answered = ans at hreads
  cases hreads
  exact ⟨f, hf, congrArg Answered.call hans, rfl⟩

/--
In every run in which nobody passes the rate limit of a user while the others that
have passed it could take the recorded failures to the limit, at most five of the
user's credentials are verified and fail in any lockout period without a success.
-/
theorem guessing_bounded {env : Env} {auth : AuthManager} {database : Database}
    {labels : List RelayLabel} {s : Relay} (u : String) (hfresh : auth.rateLimits = ∅)
    (hrun : Runs env auth database labels s)
    (hok : Admits (step env) (Uncrowded u) (init auth database) labels) (since : Instant)
    (hnone : NoSuccess u since s.log) :
    (failedVerifications u since s.log).length ≤ maxFailures := by
  have hlocks : Sound s ∧ Accredited s ∧ Locks u s := by
    refine follow_invariant (motive := fun s => Sound s ∧ Accredited s ∧ Locks u s) ?_
      ⟨sound_init auth database, accredited_init auth database, locks_init u auth database hfresh⟩
      hrun hok
    intro s l s' hs hl hnext
    have htransition := step_transition hnext
    exact ⟨sound_step hs.1 htransition, accredited_step hs.2.1 htransition,
      locks_step hs.1 hs.2.1 hs.2.2 hl hnext⟩
  rw [failedVerifications_length]
  refine Lockout.refusals_le_limit (by decide) hlocks.2.2.orderly since ?_
  intro e he hact hsince
  rcases clear_of_mem he hact with ⟨f, hf, hcall, hnow⟩
  rw [← hnow] at hsince ⊢
  exact hnone f hf hcall hsince

def clearsLimit (u : String) : Call -> Bool
  | .clearRateLimit v => v = u
  | _ => false

theorem noSuccess_of_all {u : String} {since : Instant} {log : List RelayEvent}
    (h : log.all (fun e => !clearsLimit u e.answered.call) = true) : NoSuccess u since log := by
  intro e he hcall _
  have hnone := List.all_eq_true.mp h e he
  simp [hcall, clearsLimit] at hnone

def wrongPassword : Inbound :=
  Deployment.message (.auth 1 "user" (some "") none none none)

open Deployment in
theorem guessing_bounded_example : exists s,
    Runs env auth Deployment.database (open_ 1 :: turn 1 wrongPassword 4) s ∧
      NoSuccess "user" 0 s.log ∧ (failedVerifications "user" 0 s.log).length = 1 ∧
      (failedVerifications "user" 0 s.log).length ≤ maxFailures := by
  have hend : (after (open_ 1 :: turn 1 wrongPassword 4)).map (fun s =>
      ((failedVerifications "user" 0 s.log).length,
        s.log.all fun e => !clearsLimit "user" e.answered.call)) = some (1, true) := by
    decide +kernel
  rcases Option.map_eq_some_iff.mp hend with ⟨s, hrun, hfacts⟩
  rw [Prod.mk.injEq] at hfacts
  have hnone : NoSuccess "user" 0 s.log := noSuccess_of_all hfacts.2
  exact ⟨s, hrun, hnone, hfacts.1,
    guessing_bounded "user" rfl hrun (by decide +kernel) 0 hnone⟩

/-- Six connections pass the rate limit before any of them has its password verified. -/
def sixGuesses : List RelayLabel :=
  let guessers : List ConnId := [1, 2, 3, 4, 5, 6]
  guessers.flatMap (fun c => Deployment.open_ c :: Deployment.start c wrongPassword 1) ++
    guessers.flatMap fun c =>
      List.replicate 3 (.resume c (Deployment.ambient 0)) ++ [.finish c]

theorem six_guesses : exists s,
    Runs Deployment.env Deployment.auth Deployment.database sixGuesses s ∧
      NoSuccess "user" 0 s.log ∧
      ¬ (failedVerifications "user" 0 s.log).length ≤ maxFailures := by
  have hend : (Deployment.after sixGuesses).map (fun s =>
      ((failedVerifications "user" 0 s.log).length,
        s.log.all fun e => !clearsLimit "user" e.answered.call)) = some (6, true) := by
    decide +kernel
  rcases Option.map_eq_some_iff.mp hend with ⟨s, hrun, hfacts⟩
  rw [Prod.mk.injEq] at hfacts
  refine ⟨s, hrun, noSuccess_of_all hfacts.2, ?_⟩
  rw [hfacts.1]
  decide

end Relay

end CommandRelay
