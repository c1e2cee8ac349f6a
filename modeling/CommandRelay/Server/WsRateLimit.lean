import CommandRelay.Foundation.SlidingWindow
import CommandRelay.Server.Slots

/-!
# The WebSocket rate limit

Each address has a sliding window of its own: ten connections within sixty seconds.
-/

namespace CommandRelay

open Foundation

/-- A connection from an address, and when the limit is checked for it. -/
structure WsCall where
  ip : String
  now : Instant

namespace SlotServer

def wsRatePeriod : Instant := 60000000000

def afterCalls : List WsCall -> SlotServer
  | [] => init
  | call :: earlier => ((afterCalls earlier).checkWsRateLimit call.ip call.now).1

def lets (earlier : List WsCall) (call : WsCall) : Bool :=
  ((afterCalls earlier).checkWsRateLimit call.ip call.now).2

def letThrough : List WsCall -> List WsCall
  | [] => []
  | call :: earlier =>
      if lets earlier call then call :: letThrough earlier else letThrough earlier

def timesOf (ip : String) (calls : List WsCall) : List Instant :=
  (calls.filter fun call => call.ip = ip).map WsCall.now

/-- The times of the calls never decrease. -/
def InOrder (calls : List WsCall) : Prop :=
  calls.Pairwise fun newer older => older.now ≤ newer.now

/-!
## One window for each address
-/

def timestamps (s : SlotServer) (ip : String) : List Instant :=
  (s.wsRateLimits.lookup ip).getD []

theorem checkWsRateLimit_snd (s : SlotServer) (ip : String) (now : Instant) :
    (s.checkWsRateLimit ip now).2 =
      (SlidingWindow.offer wsRateLimitPerMinute wsRatePeriod now (s.timestamps ip)).2 := by
  unfold checkWsRateLimit SlidingWindow.offer
  simp only []
  by_cases hfull : wsRateLimitPerMinute ≤
      (SlidingWindow.within wsRatePeriod now (s.timestamps ip)).length
  · rw [if_pos hfull]
    exact congrArg Prod.snd (if_pos hfull)
  · rw [if_neg hfull]
    exact congrArg Prod.snd (if_neg hfull)

theorem timestamps_checkWsRateLimit (s : SlotServer) (ip ip' : String) (now : Instant) :
    (s.checkWsRateLimit ip now).1.timestamps ip' =
      if ip' = ip then
        (SlidingWindow.offer wsRateLimitPerMinute wsRatePeriod now (s.timestamps ip)).1
      else s.timestamps ip' := by
  have htable : (s.checkWsRateLimit ip now).1.wsRateLimits = s.wsRateLimits.insert ip
      (SlidingWindow.offer wsRateLimitPerMinute wsRatePeriod now (s.timestamps ip)).1 := by
    unfold checkWsRateLimit SlidingWindow.offer
    simp only []
    by_cases hfull : wsRateLimitPerMinute ≤
        (SlidingWindow.within wsRatePeriod now (s.timestamps ip)).length
    · rw [if_pos hfull]
      exact congrArg (SlotServer.wsRateLimits ∘ Prod.fst) (if_pos hfull)
    · rw [if_neg hfull]
      exact congrArg (SlotServer.wsRateLimits ∘ Prod.fst) (if_neg hfull)
  rw [timestamps, htable, Table.lookup_insert_of_eq]
  by_cases hip : ip' = ip
  · rw [if_pos hip, if_pos hip]
    rfl
  · rw [if_neg hip, if_neg hip]
    rfl

variable {ip : String} {call : WsCall} {earlier calls : List WsCall}

theorem timesOf_cons_same (h : call.ip = ip) :
    timesOf ip (call :: earlier) = call.now :: timesOf ip earlier := by
  simp [timesOf, h]

theorem timesOf_cons_other (h : call.ip ≠ ip) :
    timesOf ip (call :: earlier) = timesOf ip earlier := by
  simp [timesOf, h]

theorem timesOf_append (later earlier : List WsCall) :
    timesOf ip (later ++ earlier) = timesOf ip later ++ timesOf ip earlier := by
  simp [timesOf]

theorem timestamps_afterCalls (ip : String) (calls : List WsCall) :
    (afterCalls calls).timestamps ip =
      SlidingWindow.kept wsRateLimitPerMinute wsRatePeriod (timesOf ip calls) := by
  induction calls with
  | nil => rfl
  | cons call earlier ih =>
      rw [afterCalls, timestamps_checkWsRateLimit]
      by_cases hip : ip = call.ip
      · subst hip
        rw [if_pos rfl, ih, timesOf_cons_same rfl]
        rfl
      · rw [if_neg hip, ih, timesOf_cons_other (Ne.symm hip)]

theorem lets_eq (earlier : List WsCall) (call : WsCall) :
    lets earlier call =
      SlidingWindow.admits wsRateLimitPerMinute wsRatePeriod (timesOf call.ip earlier)
        call.now := by
  rw [lets, checkWsRateLimit_snd, timestamps_afterCalls]
  rfl

theorem timesOf_letThrough (ip : String) (calls : List WsCall) :
    timesOf ip (letThrough calls) =
      SlidingWindow.admitted wsRateLimitPerMinute wsRatePeriod (timesOf ip calls) := by
  induction calls with
  | nil => rfl
  | cons call earlier ih =>
      by_cases hip : call.ip = ip
      · subst hip
        rw [timesOf_cons_same rfl, SlidingWindow.admitted_cons, ← lets_eq, letThrough]
        by_cases hlets : lets earlier call = true
        · rw [if_pos hlets, if_pos hlets, timesOf_cons_same rfl, ih]
        · rw [if_neg hlets, if_neg hlets, ih]
      · rw [timesOf_cons_other hip, letThrough]
        by_cases hlets : lets earlier call = true
        · rw [if_pos hlets, timesOf_cons_other hip, ih]
        · rw [if_neg hlets, ih]

theorem ordered_timesOf (ip : String) (h : InOrder calls) :
    SlidingWindow.Ordered (timesOf ip calls) :=
  List.pairwise_map.mpr (h.sublist List.filter_sublist)

theorem length_filter_ip (p : Instant -> Bool) (calls : List WsCall) :
    (calls.filter fun call => decide (call.ip = ip) && p call.now).length =
      ((timesOf ip calls).filter p).length := by
  rw [timesOf, List.filter_map, List.length_map, List.filter_filter]
  congr 1
  apply List.filter_congr
  intro call _
  exact Bool.and_comm _ _

/-!
## The limit
-/

/-- The limit is an exact sliding window for each address. -/
structure ExactWindow (calls : List WsCall) : Prop where
  exact : forall later call earlier, calls = later ++ call :: earlier ->
    (lets earlier call = true <->
      ((letThrough earlier).filter fun f =>
        decide (f.ip = call.ip) && decide (call.now < f.now + wsRatePeriod)).length < 10)
  window : forall ip stop,
    ((letThrough calls).filter fun f =>
      decide (f.ip = ip) && decide (f.now ≤ stop ∧ stop < f.now + wsRatePeriod)).length ≤ 10
  refused_inert : forall newest later refused earlier,
    calls = newest :: (later ++ refused :: earlier) -> lets earlier refused = false ->
    lets (later ++ refused :: earlier) newest = lets (later ++ earlier) newest
  others_inert : forall newest earlier, calls = newest :: earlier ->
    lets earlier newest = lets (earlier.filter fun f => f.ip = newest.ip) newest

theorem ws_window_exact {calls : List WsCall} (h : InOrder calls) : ExactWindow calls where
  exact := by
    rintro later call earlier rfl
    have hsuffix : InOrder (call :: earlier) := h.sublist (List.sublist_append_right later _)
    have hordered := ordered_timesOf call.ip hsuffix
    rw [timesOf_cons_same rfl] at hordered
    have hcount : ((letThrough earlier).filter fun f =>
        decide (f.ip = call.ip) && decide (call.now < f.now + wsRatePeriod)).length =
        (SlidingWindow.within wsRatePeriod call.now
          (timesOf call.ip (letThrough earlier))).length :=
      length_filter_ip (fun t => call.now < t + wsRatePeriod) _
    rw [lets_eq, SlidingWindow.admits_iff hordered, hcount, timesOf_letThrough]
    exact Iff.rfl
  window := by
    intro ip stop
    have hcount : ((letThrough calls).filter fun f =>
        decide (f.ip = ip) && decide (f.now ≤ stop ∧ stop < f.now + wsRatePeriod)).length =
        (SlidingWindow.inPeriod wsRateLimitPerMinute wsRatePeriod stop
          (timesOf ip calls)).length := by
      rw [SlidingWindow.inPeriod, ← timesOf_letThrough]
      exact length_filter_ip (fun t => t ≤ stop ∧ stop < t + wsRatePeriod) _
    rw [hcount]
    exact SlidingWindow.inPeriod_le (ordered_timesOf ip h) stop
  refused_inert := by
    rintro newest later refused earlier rfl hrefused
    rw [lets_eq, lets_eq, timesOf_append, timesOf_append]
    by_cases hip : refused.ip = newest.ip
    · have hordered := ordered_timesOf newest.ip h
      rw [timesOf_cons_same rfl, timesOf_append, timesOf_cons_same hip] at hordered
      rw [lets_eq, hip] at hrefused
      rw [timesOf_cons_same hip]
      exact SlidingWindow.admits_drop hordered hrefused
    · rw [timesOf_cons_other hip]
  others_inert := by
    rintro newest earlier rfl
    rw [lets_eq, lets_eq]
    simp [timesOf]

theorem ws_window_exact_example :
    ExactWindow [⟨"10.0.0.1", 60000000000⟩, ⟨"10.0.0.2", 0⟩, ⟨"10.0.0.1", 0⟩] :=
  ws_window_exact (by simp [InOrder])

end SlotServer

end CommandRelay
