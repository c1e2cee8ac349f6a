import CommandRelay.Server.Auth

/-!
# The login lockout

The lockout of a name keeps a counter and one deadline.  They say as much as the whole
history of the name's failures and clears.
-/

namespace CommandRelay

open Foundation

inductive LoginOutcome where
  | failed
  | cleared
  deriving DecidableEq

/-- A call of `record_failure` or of `clear_rate_limit` for a name. -/
structure LoginEvent where
  time : Instant
  username : String
  outcome : LoginOutcome

/-- The times of the name's failures since it was last cleared, newest first. -/
def failuresSinceClear (u : String) : List LoginEvent -> List Instant
  | [] => []
  | e :: earlier =>
      if e.username = u then
        match e.outcome with
        | .failed => e.time :: failuresSinceClear u earlier
        | .cleared => []
      else failuresSinceClear u earlier

/-- The times of the calls never decrease; the newest call comes first. -/
def LoginsOrdered (events : List LoginEvent) : Prop :=
  events.Pairwise fun newer older => older.time ≤ newer.time

section

variable {u : String} {e : LoginEvent} {events : List LoginEvent}

theorem failuresSinceClear_other (h : e.username ≠ u) :
    failuresSinceClear u (e :: events) = failuresSinceClear u events :=
  if_neg h

theorem failuresSinceClear_failed (h : e.username = u) (hfailed : e.outcome = .failed) :
    failuresSinceClear u (e :: events) = e.time :: failuresSinceClear u events := by
  rw [failuresSinceClear, if_pos h, hfailed]

theorem failuresSinceClear_cleared (h : e.username = u) (hcleared : e.outcome = .cleared) :
    failuresSinceClear u (e :: events) = [] := by
  rw [failuresSinceClear, if_pos h, hcleared]

/-- A failure since the last clear is one of the calls for the name. -/
theorem mem_failuresSinceClear {t : Instant} (h : t ∈ failuresSinceClear u events) :
    exists e, e ∈ events ∧ e.username = u ∧ e.outcome = .failed ∧ e.time = t := by
  induction events with
  | nil => cases h
  | cons e earlier ih =>
      have hearlier : t ∈ failuresSinceClear u earlier ->
          exists f, f ∈ e :: earlier ∧ f.username = u ∧ f.outcome = .failed ∧ f.time = t := by
        intro hold
        rcases ih hold with ⟨f, hf, hfacts⟩
        exact ⟨f, List.mem_cons_of_mem e hf, hfacts⟩
      by_cases hu : e.username = u
      · cases houtcome : e.outcome with
        | failed =>
            rw [failuresSinceClear_failed hu houtcome] at h
            rcases List.mem_cons.mp h with rfl | hold
            · exact ⟨e, List.mem_cons_self, hu, houtcome, rfl⟩
            · exact hearlier hold
        | cleared =>
            rw [failuresSinceClear_cleared hu houtcome] at h
            cases h
      · rw [failuresSinceClear_other hu] at h
        exact hearlier h

theorem le_latest (hordered : LoginsOrdered events) {latest t : Instant}
    (hlatest : (failuresSinceClear u events).head? = some latest)
    (ht : t ∈ failuresSinceClear u events) : t ≤ latest := by
  induction events with
  | nil => cases ht
  | cons e earlier ih =>
      rcases List.pairwise_cons.mp hordered with ⟨hfirst, hearlier⟩
      by_cases hu : e.username = u
      · cases houtcome : e.outcome with
        | failed =>
            rw [failuresSinceClear_failed hu houtcome] at hlatest ht
            cases hlatest
            rcases List.mem_cons.mp ht with rfl | hold
            · exact Nat.le_refl _
            · rcases mem_failuresSinceClear hold with ⟨f, hf, _, _, rfl⟩
              exact hfirst f hf
        | cleared =>
            rw [failuresSinceClear_cleared hu houtcome] at ht
            cases ht
      · rw [failuresSinceClear_other hu] at hlatest ht
        exact ih hearlier hlatest ht

theorem head_eq_some_iff (hordered : LoginsOrdered events) {latest : Instant} :
    (failuresSinceClear u events).head? = some latest <->
      latest ∈ failuresSinceClear u events ∧
        forall t, t ∈ failuresSinceClear u events -> t ≤ latest := by
  constructor
  · intro hhead
    exact ⟨List.mem_of_head? hhead, fun t ht => le_latest hordered hhead ht⟩
  · rintro ⟨hmem, hmax⟩
    cases hhead : (failuresSinceClear u events).head? with
    | none =>
        rw [List.head?_eq_none_iff.mp hhead] at hmem
        cases hmem
    | some newest =>
        have hle := hmax newest (List.mem_of_head? hhead)
        have hge := le_latest hordered hhead hmem
        rw [Nat.le_antisymm hle hge]

theorem failuresSinceClear_filter (u : String) (events : List LoginEvent) :
    failuresSinceClear u (events.filter fun e => e.username = u) =
      failuresSinceClear u events := by
  induction events with
  | nil => rfl
  | cons e earlier ih =>
      by_cases hu : e.username = u
      · rw [List.filter_cons_of_pos (by simpa using hu)]
        cases houtcome : e.outcome with
        | failed =>
            rw [failuresSinceClear_failed hu houtcome, failuresSinceClear_failed hu houtcome, ih]
        | cleared =>
            rw [failuresSinceClear_cleared hu houtcome, failuresSinceClear_cleared hu houtcome]
      · rw [List.filter_cons_of_neg (by simpa using hu), failuresSinceClear_other hu, ih]

end

namespace AuthManager

def logIn (auth : AuthManager) (e : LoginEvent) : AuthManager :=
  match e.outcome with
  | .failed => auth.recordFailure e.username e.time
  | .cleared => auth.clearRateLimit e.username

def afterLogins (auth : AuthManager) : List LoginEvent -> AuthManager
  | [] => auth
  | e :: earlier => (afterLogins auth earlier).logIn e

/-- The entry that stands for the failures since the last clear. -/
def entryAfter : List Instant -> Option RateLimitEntry
  | [] => none
  | latest :: rest =>
      some
        { failures := rest.length + 1
          lockedUntil :=
            if maxFailures ≤ rest.length + 1 then some (latest + lockoutDuration) else none }

theorem recordFailure_entry {auth : AuthManager} {u : String} {now : Instant}
    {times : List Instant} (h : auth.rateLimits.lookup u = entryAfter times) :
    (auth.recordFailure u now).rateLimits.lookup u = entryAfter (now :: times) := by
  simp only [recordFailure, AList.lookup_insert, h]
  cases times with
  | nil => rfl
  | cons latest rest =>
      simp only [entryAfter, Option.getD_some, List.length_cons]
      by_cases hlock : maxFailures ≤ rest.length + 1 + 1
      · simp [hlock]
      · have hbefore : ¬ maxFailures ≤ rest.length + 1 := by omega
        simp [hlock, hbefore]

theorem lookup_afterLogins {auth : AuthManager} (hfresh : auth.rateLimits = ∅) (u : String)
    (events : List LoginEvent) :
    (auth.afterLogins events).rateLimits.lookup u = entryAfter (failuresSinceClear u events) := by
  induction events with
  | nil =>
      rw [afterLogins, hfresh]
      exact AList.lookup_empty u
  | cons e earlier ih =>
      rw [afterLogins, logIn]
      by_cases hu : e.username = u
      · cases houtcome : e.outcome with
        | failed =>
            rw [failuresSinceClear_failed hu houtcome, hu]
            exact recordFailure_entry ih
        | cleared =>
            rw [failuresSinceClear_cleared hu houtcome, hu]
            exact AList.lookup_erase u _
      · rw [failuresSinceClear_other hu, ← ih]
        cases e.outcome with
        | failed => exact AList.lookup_insert_ne (Ne.symm hu)
        | cleared => exact AList.lookup_erase_ne (Ne.symm hu)

/-- The answer is read off the failures since the last clear. -/
theorem checkRateLimit_eq_some_iff {auth : AuthManager} (hfresh : auth.rateLimits = ∅)
    {u : String} {now : Instant} {events : List LoginEvent} {retryAfter : Nat} :
    (auth.afterLogins events).checkRateLimit u now = some retryAfter <->
      maxFailures ≤ (failuresSinceClear u events).length ∧
        exists latest, (failuresSinceClear u events).head? = some latest ∧
          now < latest + lockoutDuration ∧
          max (elapsedSecs (latest + lockoutDuration) now) 1 = retryAfter := by
  rw [checkRateLimit, lookup_afterLogins hfresh]
  cases failuresSinceClear u events with
  | nil => simp [entryAfter]
  | cons latest rest =>
      simp only [entryAfter, Option.bind_some, List.length_cons, List.head?_cons]
      by_cases hlock : maxFailures ≤ rest.length + 1
      · by_cases hnow : now < latest + lockoutDuration
        · simp [hlock, hnow]
        · simp [hlock, hnow]
      · simp [hlock]

theorem retry_le {latest now : Nat} (h : latest ≤ now) :
    max ((latest + 900 * 1000000000 - now) / 1000000000) 1 ≤ 900 := by
  omega

/-- What the answers for a name say about its history. -/
structure LockoutExact (auth : AuthManager) (events : List LoginEvent) (u : String) : Prop where
  limited_iff : forall now, (forall e, e ∈ events -> e.time ≤ now) ->
    (((auth.afterLogins events).checkRateLimit u now).isSome = true <->
      5 ≤ (failuresSinceClear u events).length ∧
        exists latest, latest ∈ failuresSinceClear u events ∧
          (forall t, t ∈ failuresSinceClear u events -> t ≤ latest) ∧
          now < latest + 900 * 1000000000)
  retry_after : forall now retryAfter, (forall e, e ∈ events -> e.time ≤ now) ->
    (auth.afterLogins events).checkRateLimit u now = some retryAfter ->
    1 ≤ retryAfter ∧ retryAfter ≤ 900 ∧
      exists latest, latest ∈ failuresSinceClear u events ∧
        (forall t, t ∈ failuresSinceClear u events -> t ≤ latest) ∧
        retryAfter = max ((latest + 900 * 1000000000 - now) / 1000000000) 1
  others_inert : forall now, (auth.afterLogins events).checkRateLimit u now =
    (auth.afterLogins (events.filter fun e => e.username = u)).checkRateLimit u now
  /-- The `u32` counter counts the failures themselves. -/
  counter : forall entry, (auth.afterLogins events).rateLimits.lookup u = some entry ->
    entry.failures = (failuresSinceClear u events).length

/-- The lockout of every name is exactly characterized. -/
theorem lockout_exact {auth : AuthManager} (hfresh : auth.rateLimits = ∅)
    {events : List LoginEvent} (hordered : LoginsOrdered events) (u : String) :
    LockoutExact auth events u where
  limited_iff := by
    intro now _
    rw [Option.isSome_iff_exists]
    simp only [checkRateLimit_eq_some_iff hfresh, head_eq_some_iff hordered]
    constructor
    · rintro ⟨_, hcount, latest, ⟨hmem, hmax⟩, hbefore, _⟩
      exact ⟨hcount, latest, hmem, hmax, hbefore⟩
    · rintro ⟨hcount, latest, hmem, hmax, hbefore⟩
      exact ⟨_, hcount, latest, ⟨hmem, hmax⟩, hbefore, rfl⟩
  retry_after := by
    intro now retryAfter hnow hlimited
    rw [checkRateLimit_eq_some_iff hfresh] at hlimited
    rcases hlimited with ⟨_, latest, hhead, _, rfl⟩
    rcases (head_eq_some_iff hordered).mp hhead with ⟨hmem, hmax⟩
    have hbefore : latest ≤ now := by
      rcases mem_failuresSinceClear hmem with ⟨e, he, _, _, rfl⟩
      exact hnow e he
    exact ⟨Nat.le_max_right _ _, retry_le hbefore, latest, hmem, hmax, rfl⟩
  others_inert := by
    intro now
    rw [checkRateLimit, checkRateLimit, lookup_afterLogins hfresh, lookup_afterLogins hfresh,
      failuresSinceClear_filter]
  counter := by
    intro entry hentry
    rw [lookup_afterLogins hfresh] at hentry
    cases htimes : failuresSinceClear u events with
    | nil =>
        rw [htimes] at hentry
        cases hentry
    | cons latest rest =>
        rw [htimes] at hentry
        cases hentry
        rfl

theorem lockout_exact_example :
    LockoutExact ⟨[], ∅⟩
      [⟨7, "user", .failed⟩, ⟨7, "other", .cleared⟩, ⟨3, "user", .failed⟩] "user" :=
  lockout_exact rfl (by simp [LoginsOrdered]) "user"

end AuthManager

end CommandRelay
