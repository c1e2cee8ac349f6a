import CommandRelay.Broker.Downloads

/-!
# Download governance

The entry of a download is a function of the events since the request that was last granted
for its id: the bytes that were forwarded, the size that was last declared and the time of
the last activity.  It is there for as long as the download is open.
-/

namespace CommandRelay

open Foundation

/-!
## Download events
-/

/-- One governed chunk of a download and its decision. -/
structure DownloadChunk where
  payload : Slice
  decision : DownloadChunkDecision

namespace DownloadChunk

def forwarded (chunk : DownloadChunk) : Nat :=
  match chunk.decision with
  | .forward _ => chunk.payload.length
  | .drop | .overrun _ => 0

end DownloadChunk

namespace BrokerEvent

def downloadChunk? (u id : String) : BrokerEvent -> Option DownloadChunk
  | ⟨_, .recordDownloadChunk v downloadId payload, decision⟩ =>
      if u = v ∧ id = downloadId then some ⟨payload, decision⟩ else none
  | _ => none

def declares? (u id : String) : BrokerEvent -> Option Nat
  | ⟨_, .noteDownloadBegin v downloadId size, _⟩ =>
      if u = v ∧ id = downloadId then some size else none
  | _ => none

end BrokerEvent

section History

variable (u id : String)

def sentBytes : List BrokerEvent -> Nat
  | [] => 0
  | e :: rest =>
      match e.downloadChunk? u id with
      | none => sentBytes rest
      | some chunk => chunk.forwarded + sentBytes rest

def declaredSize? : List BrokerEvent -> Option Nat
  | [] => none
  | e :: rest =>
      match e.declares? u id with
      | none => declaredSize? rest
      | some size => some size

def allowance (since : List BrokerEvent) : Nat :=
  min maxDownloadSize ((declaredSize? u id since).getD maxDownloadSize)

/-- The entry that the events since a grant to `a` ask for. -/
def tallied (a : ConnId) (granted : Instant) (since : List BrokerEvent) : DownloadEntry where
  owner := a
  declaredSize := declaredSize? u id since
  bytesForwarded := sentBytes u id since
  lastActivity := lastDownloadActivity u id a granted since

end History

section HistoryLemmas

variable {u id : String} {a : ConnId} {granted : Instant} {e : BrokerEvent}
  {since : List BrokerEvent}

theorem sentBytes_cons_none (h : e.downloadChunk? u id = none) :
    sentBytes u id (e :: since) = sentBytes u id since := by
  simp [sentBytes, h]

theorem sentBytes_cons_some {chunk : DownloadChunk} (h : e.downloadChunk? u id = some chunk) :
    sentBytes u id (e :: since) = chunk.forwarded + sentBytes u id since := by
  simp [sentBytes, h]

theorem declaredSize?_cons_none (h : e.declares? u id = none) :
    declaredSize? u id (e :: since) = declaredSize? u id since := by
  simp [declaredSize?, h]

theorem allowance_le (since : List BrokerEvent) : allowance u id since ≤ maxDownloadSize :=
  Nat.min_le_left _ _

theorem tallied_budget : (tallied u id a granted since).budget = allowance u id since :=
  Nat.min_comm _ _

/-- The event concerns the download neither as a begin, a chunk or an activity, nor as
its end. -/
structure BrokerEvent.Aside (u id : String) (a : ConnId) (e : BrokerEvent) : Prop where
  chunk : e.downloadChunk? u id = none
  declares : e.declares? u id = none
  refreshes : e.refreshesDownload u id a = false
  closes : e.closesDownload u id a = false

theorem aside_of_subject (hgrants : e.grants? u id = none) (h : e.call.subject? ≠ some u) :
    e.Aside u id a := by
  rcases e with ⟨now, call, reply⟩
  have hother : forall v, call.subject? = some v -> u ≠ v := by
    rintro v hv rfl
    exact h hv
  cases call with
  | noteDownloadBegin v downloadId size =>
      have hv := hother v rfl
      exact ⟨rfl, by simp [BrokerEvent.declares?, hv],
        by simp [BrokerEvent.refreshesDownload, hgrants, BrokerEvent.routed?, hv], rfl⟩
  | recordDownloadChunk v downloadId payload =>
      have hv := hother v rfl
      refine ⟨by simp [BrokerEvent.downloadChunk?, hv], rfl, ?_, ?_⟩
      · simp [BrokerEvent.refreshesDownload, hgrants, BrokerEvent.routed?, hv]
      · cases reply with
        | overrun owner => simp [BrokerEvent.closesDownload, hv]
        | _ => rfl
  | resolveDownload v downloadId =>
      have hv := hother v rfl
      exact ⟨rfl, rfl,
        by simp [BrokerEvent.refreshesDownload, hgrants, BrokerEvent.routed?, hv],
        by simp [BrokerEvent.closesDownload, hv]⟩
  | unregisterClient v deviceId conn =>
      have hv := hother v rfl
      exact ⟨rfl, rfl,
        by simp [BrokerEvent.refreshesDownload, hgrants, BrokerEvent.routed?],
        by simp [BrokerEvent.closesDownload, hv]⟩
  | _ =>
      exact ⟨rfl, rfl,
        by simp [BrokerEvent.refreshesDownload, hgrants, BrokerEvent.routed?], rfl⟩

theorem tallied_aside (h : e.Aside u id a) :
    tallied u id a granted (e :: since) = tallied u id a granted since := by
  simp [tallied, sentBytes_cons_none h.chunk, declaredSize?_cons_none h.declares,
    lastDownloadActivity, h.refreshes]

end HistoryLemmas

/-!
## The invariant of one download
-/

/-- The entry under an id against the events since the latest grant to `a`. -/
structure DownloadTally (u id : String) (a : ConnId) (granted : Instant)
    (since : List BrokerEvent) (clock : Instant) (entry : Option DownloadEntry) : Prop where
  sum_le : sentBytes u id since ≤ maxDownloadSize
  entry_eq : forall e, entry = some e -> e = tallied u id a granted since
  closed : (exists e, e ∈ since ∧ e.closesDownload u id a = true) -> entry = none
  present : DownloadOpen u id a granted since clock ->
    entry = some (tallied u id a granted since)

namespace DownloadTally

variable {u id : String} {a : ConnId} {granted clock now : Instant}
  {since : List BrokerEvent} {entry entry' : Option DownloadEntry} {e : BrokerEvent}

theorem start : DownloadTally u id a granted [] clock
    (some (DownloadEntry.granted a granted)) where
  sum_le := Nat.zero_le _
  entry_eq := by
    rintro _ ⟨rfl⟩
    rfl
  closed := by simp
  present := fun _ => rfl

theorem advance (h : DownloadTally u id a granted since clock entry) (hclock : clock ≤ now) :
    DownloadTally u id a granted since now entry where
  sum_le := h.sum_le
  entry_eq := h.entry_eq
  closed := h.closed
  present := fun hopen => h.present (DownloadHistory.open_earlier hclock hopen)

theorem swept_of_open (h : DownloadTally u id a granted since now entry)
    (hopen : DownloadOpen u id a granted since now) :
    DownloadEntry.swept now entry = some (tallied u id a granted since) := by
  rw [h.present hopen]
  exact Option.filter_eq_some_iff.mpr ⟨rfl, decide_eq_true hopen.2⟩

theorem open_of_swept (h : DownloadTally u id a granted since now entry) {e : DownloadEntry}
    (hswept : DownloadEntry.swept now entry = some e) :
    DownloadOpen u id a granted since now := by
  rcases Option.filter_eq_some_iff.mp hswept with ⟨hentry, hlive⟩
  constructor
  · intro f hf
    rw [← Bool.not_eq_true]
    intro hcloses
    rw [h.closed ⟨f, hf, hcloses⟩] at hentry
    cases hentry
  · rw [h.entry_eq e hentry] at hlive
    exact of_decide_eq_true hlive

theorem swept_of_not_open (h : DownloadTally u id a granted since now entry)
    (hopen : ¬ DownloadOpen u id a granted since now) :
    DownloadEntry.swept now entry = none := by
  cases hswept : DownloadEntry.swept now entry with
  | none => rfl
  | some e => exact absurd (h.open_of_swept hswept) hopen

theorem aside (h : DownloadTally u id a granted since e.now entry) (haside : e.Aside u id a)
    (hsub : forall e0, entry' = some e0 -> entry = some e0)
    (hkeep : forall e0, DownloadEntry.swept e.now entry = some e0 -> entry' = some e0) :
    DownloadTally u id a granted (e :: since) e.now entry' where
  sum_le := by
    rw [sentBytes_cons_none haside.chunk]
    exact h.sum_le
  entry_eq := by
    intro e0 he0
    rw [tallied_aside haside]
    exact h.entry_eq e0 (hsub e0 he0)
  closed := by
    rintro ⟨f, hf, hcloses⟩
    rcases List.mem_cons.mp hf with rfl | hold
    · rw [haside.closes] at hcloses
      cases hcloses
    · cases hentry : entry' with
      | none => rfl
      | some e0 =>
          have hbefore := hsub e0 hentry
          rw [h.closed ⟨f, hold, hcloses⟩] at hbefore
          cases hbefore
  present := by
    intro hopen
    rw [tallied_aside haside]
    exact hkeep _ (h.swept_of_open (DownloadHistory.open_tail hopen haside.refreshes).1)

theorem ended (h : DownloadTally u id a granted since e.now entry)
    (hsent : sentBytes u id (e :: since) = sentBytes u id since)
    (hended : e.closesDownload u id a = true ∨
      e.refreshesDownload u id a = false ∧ ¬ DownloadOpen u id a granted since e.now) :
    DownloadTally u id a granted (e :: since) e.now none where
  sum_le := by
    rw [hsent]
    exact h.sum_le
  entry_eq := by
    intro e0 he0
    cases he0
  closed := fun _ => rfl
  present := by
    intro hopen
    rcases hended with hcloses | ⟨hquiet, hshut⟩
    · rw [hopen.1 e List.mem_cons_self] at hcloses
      cases hcloses
    · exact absurd (DownloadHistory.open_tail hopen hquiet).1 hshut

theorem active (hopen : DownloadOpen u id a granted since e.now)
    (hcloses : e.closesDownload u id a = false)
    (hsum : sentBytes u id (e :: since) ≤ maxDownloadSize)
    (hentry : entry' = some (tallied u id a granted (e :: since))) :
    DownloadTally u id a granted (e :: since) e.now entry' where
  sum_le := hsum
  entry_eq := by
    intro e0 he0
    rw [hentry] at he0
    exact (Option.some.inj he0).symm
  closed := by
    rintro ⟨f, hf, hf'⟩
    rcases List.mem_cons.mp hf with rfl | hold
    · rw [hcloses] at hf'
      cases hf'
    · rw [hopen.1 f hold] at hf'
      cases hf'
  present := fun _ => hentry

theorem counter_received (h : DownloadTally u id a granted since clock entry) (payload : Slice) :
    sentBytes u id since + payload.length < 0x10000000000000000 := by
  have hsum : sentBytes u id since ≤ 25 * 1024 * 1024 := h.sum_le
  have hpayload : payload.length < 0x8000000000000000 := payload.fits
  omega

theorem received_bytes (h : DownloadTally u id a granted since clock entry) (now : Instant)
    (payload : Slice) :
    ((tallied u id a granted since).received payload now).bytesForwarded =
      sentBytes u id since + payload.length :=
  Nat.mod_eq_of_lt (h.counter_received payload)

theorem overruns_iff (h : DownloadTally u id a granted since clock entry) (payload : Slice) :
    (tallied u id a granted since).overruns payload now = true <->
      allowance u id since < sentBytes u id since + payload.length := by
  rw [DownloadEntry.overruns, h.received_bytes now payload, tallied_budget]
  exact decide_eq_true_iff

end DownloadTally

/-!
## One operation
-/

theorem Broker.download?_of_overrun {b : Broker} {now : Instant} {u id : String}
    {payload : Slice} {owner : ConnId}
    (h : (b.exec now (.recordDownloadChunk u id payload)).2 = .overrun owner) :
    (b.exec now (.recordDownloadChunk u id payload)).1.download? u id = none := by
  rw [Broker.exec_recordDownloadChunk_decision] at h
  rw [Broker.download?_exec rfl]
  simp only [Broker.downloadAfter, if_true]
  cases hswept : DownloadEntry.swept now (b.download? u id) with
  | none => rfl
  | some e =>
      rw [hswept] at h
      by_cases hover : e.overruns payload now = true
      · simp only [DownloadEntry.afterChunk, if_pos hover]
      · simp only [DownloadEntry.chunkDecision, if_neg hover] at h
        cases h

namespace DownloadTally

variable {u id : String} {a : ConnId} {granted now : Instant} {since : List BrokerEvent}
  {b : Broker}

theorem noted (h : DownloadTally u id a granted since now (b.download? u id)) (size : Nat) :
    DownloadTally u id a granted
      (⟨now, .noteDownloadBegin u id size, (b.exec now (.noteDownloadBegin u id size)).2⟩ :: since)
      now ((b.exec now (.noteDownloadBegin u id size)).1.download? u id) := by
  have hreply := b.exec_noteDownloadBegin_owner now u id size
  have hafter : (b.exec now (.noteDownloadBegin u id size)).1.download? u id =
      (DownloadEntry.swept now (b.download? u id)).map (DownloadEntry.begun size now) := by
    rw [Broker.download?_exec rfl]
    simp [Broker.downloadAfter]
  generalize hevent : (⟨now, .noteDownloadBegin u id size,
    (b.exec now (.noteDownloadBegin u id size)).2⟩ : BrokerEvent) = e
  have htime : e.now = now := by rw [← hevent]
  have hchunk : e.downloadChunk? u id = none := by
    rw [← hevent]
    rfl
  have hcloses : e.closesDownload u id a = false := by
    rw [← hevent]
    rfl
  have hdeclares : e.declares? u id = some size := by
    rw [← hevent]
    simp [BrokerEvent.declares?]
  by_cases hopen : DownloadOpen u id a granted since now
  · rw [h.swept_of_open hopen] at hreply hafter
    have hrefresh : e.refreshesDownload u id a = true := by
      rw [← hevent, hreply]
      simp [BrokerEvent.refreshesDownload, BrokerEvent.routed?, tallied]
    subst htime
    refine DownloadTally.active hopen hcloses ?_ ?_
    · rw [sentBytes_cons_none hchunk]
      exact h.sum_le
    · rw [hafter]
      simp [tallied, DownloadEntry.begun, declaredSize?, hdeclares, sentBytes_cons_none hchunk,
        lastDownloadActivity, hrefresh]
  · rw [h.swept_of_not_open hopen] at hreply hafter
    have hquiet : e.refreshesDownload u id a = false := by
      rw [← hevent, hreply]
      simp [BrokerEvent.refreshesDownload, BrokerEvent.routed?, BrokerEvent.grants?]
    rw [hafter]
    subst htime
    exact h.ended (sentBytes_cons_none hchunk) (Or.inr ⟨hquiet, hopen⟩)

theorem chunk (h : DownloadTally u id a granted since now (b.download? u id)) (payload : Slice) :
    DownloadTally u id a granted
      (⟨now, .recordDownloadChunk u id payload,
        (b.exec now (.recordDownloadChunk u id payload)).2⟩ :: since)
      now ((b.exec now (.recordDownloadChunk u id payload)).1.download? u id) := by
  have hreply := b.exec_recordDownloadChunk_decision now u id payload
  have hafter : (b.exec now (.recordDownloadChunk u id payload)).1.download? u id =
      DownloadEntry.afterChunk payload now (DownloadEntry.swept now (b.download? u id)) := by
    rw [Broker.download?_exec rfl]
    simp [Broker.downloadAfter]
  generalize hdecision : (b.exec now (.recordDownloadChunk u id payload)).2 = decision at hreply
  generalize hevent : (⟨now, .recordDownloadChunk u id payload, decision⟩ : BrokerEvent) = e
  have htime : e.now = now := by rw [← hevent]
  have hchunk : e.downloadChunk? u id = some ⟨payload, decision⟩ := by
    rw [← hevent]
    simp [BrokerEvent.downloadChunk?]
  have hdeclares : e.declares? u id = none := by
    rw [← hevent]
    rfl
  by_cases hopen : DownloadOpen u id a granted since now
  · rw [h.swept_of_open hopen] at hreply hafter
    by_cases hover : (tallied u id a granted since).overruns payload now = true
    · simp only [DownloadEntry.chunkDecision, DownloadEntry.afterChunk, if_pos hover]
        at hreply hafter
      have hcloses : e.closesDownload u id a = true := by
        rw [← hevent, hreply]
        simp [BrokerEvent.closesDownload]
      rw [hafter]
      subst htime
      refine h.ended ?_ (Or.inl hcloses)
      rw [sentBytes_cons_some hchunk, hreply]
      exact Nat.zero_add _
    · simp only [DownloadEntry.chunkDecision, DownloadEntry.afterChunk, if_neg hover]
        at hreply hafter
      have hcloses : e.closesDownload u id a = false := by
        rw [← hevent, hreply]
        rfl
      have hrefresh : e.refreshesDownload u id a = true := by
        rw [← hevent, hreply]
        simp [BrokerEvent.refreshesDownload, BrokerEvent.routed?, tallied]
      have hsent : sentBytes u id (e :: since) = sentBytes u id since + payload.length := by
        rw [sentBytes_cons_some hchunk, hreply, Nat.add_comm]
        rfl
      rw [h.overruns_iff, Nat.not_lt] at hover
      subst htime
      refine DownloadTally.active hopen hcloses ?_ ?_
      · rw [hsent]
        exact Nat.le_trans hover (allowance_le since)
      · rw [hafter, DownloadEntry.received, Option.some.injEq]
        have hbytes := h.received_bytes e.now payload
        simp only [DownloadEntry.received] at hbytes
        rw [hbytes]
        simp [tallied, hsent, declaredSize?_cons_none hdeclares, lastDownloadActivity, hrefresh]
  · rw [h.swept_of_not_open hopen] at hreply hafter
    have hquiet : e.refreshesDownload u id a = false := by
      rw [← hevent, hreply]
      simp [BrokerEvent.refreshesDownload, BrokerEvent.routed?, BrokerEvent.grants?,
        DownloadEntry.chunkDecision]
    simp only [DownloadEntry.afterChunk] at hafter
    rw [hafter]
    subst htime
    refine h.ended ?_ (Or.inr ⟨hquiet, hopen⟩)
    rw [sentBytes_cons_some hchunk, hreply]
    exact Nat.zero_add _

theorem decided (h : DownloadTally u id a granted since now (b.download? u id))
    (hopen : DownloadOpen u id a granted since now) (payload : Slice) :
    (b.exec now (.recordDownloadChunk u id payload)).2 =
      if sentBytes u id since + payload.length ≤ allowance u id since then .forward a
      else .overrun a := by
  rw [Broker.exec_recordDownloadChunk_decision, h.swept_of_open hopen]
  show (if (tallied u id a granted since).overruns payload now = true then _ else _) = _
  by_cases hover : (tallied u id a granted since).overruns payload now = true
  · have hexceeds := (h.overruns_iff payload).mp hover
    rw [if_pos hover]
    exact (if_neg (Nat.not_le.mpr hexceeds)).symm
  · have hfits := mt (h.overruns_iff payload).mpr hover
    rw [if_neg hover]
    exact (if_pos (Nat.not_lt.mp hfits)).symm

theorem dropped (h : DownloadTally u id a granted since now (b.download? u id))
    (hclosed : ¬ DownloadOpen u id a granted since now) :
    (forall payload, (b.exec now (.recordDownloadChunk u id payload)).2 = .drop) ∧
      (forall size, (b.exec now (.noteDownloadBegin u id size)).2 = none) ∧
      (b.exec now (.resolveDownload u id)).2 = none := by
  have hswept := h.swept_of_not_open hclosed
  constructor
  · intro payload
    rw [Broker.exec_recordDownloadChunk_decision, hswept]
    rfl
  · constructor
    · intro size
      rw [Broker.exec_noteDownloadBegin_owner, hswept]
      rfl
    · rw [Broker.exec_resolveDownload_owner, hswept]
      rfl

theorem operation {clock : Instant}
    (h : DownloadTally u id a granted since clock (b.download? u id)) (hclock : clock ≤ now)
    (call : BrokerCall)
    (hgrants : BrokerEvent.grants? u id ⟨now, call, (b.exec now call).2⟩ = none) :
    DownloadTally u id a granted (⟨now, call, (b.exec now call).2⟩ :: since) now
      ((b.exec now call).1.download? u id) := by
  have h := h.advance hclock
  have hsub : forall e0, DownloadEntry.swept now (b.download? u id) = some e0 ->
      b.download? u id = some e0 := fun _ he0 => (Option.filter_eq_some_iff.mp he0).1
  by_cases hu : call.subject? = some u
  · cases call with
    | registerDownload v downloadId conn =>
        cases hu
        have hid : ¬ (id = downloadId ∧
            (b.exec now (.registerDownload u downloadId conn)).2 = .ok ()) := by
          rintro ⟨rfl, hreply⟩
          rw [hreply] at hgrants
          simp [BrokerEvent.grants?] at hgrants
        rw [Broker.download?_exec rfl]
        simp only [Broker.downloadAfter, if_neg hid]
        refine h.aside ⟨rfl, rfl, ?_, rfl⟩ hsub fun e0 he0 => he0
        simp [BrokerEvent.refreshesDownload, hgrants, BrokerEvent.routed?]
    | noteDownloadBegin v downloadId size =>
        cases hu
        by_cases hid : id = downloadId
        · subst hid
          exact h.noted size
        · rw [Broker.download?_exec rfl]
          simp only [Broker.downloadAfter, if_neg hid]
          refine h.aside ⟨rfl, ?_, ?_, rfl⟩ hsub fun e0 he0 => he0
          · simp [BrokerEvent.declares?, hid]
          · simp [BrokerEvent.refreshesDownload, BrokerEvent.grants?, BrokerEvent.routed?, hid]
    | recordDownloadChunk v downloadId payload =>
        cases hu
        by_cases hid : id = downloadId
        · subst hid
          exact h.chunk payload
        · rw [Broker.download?_exec rfl]
          simp only [Broker.downloadAfter, if_neg hid]
          refine h.aside ⟨?_, rfl, ?_, ?_⟩ hsub fun e0 he0 => he0
          · simp [BrokerEvent.downloadChunk?, hid]
          · simp [BrokerEvent.refreshesDownload, BrokerEvent.grants?, BrokerEvent.routed?, hid]
          · generalize (b.exec now (.recordDownloadChunk u downloadId payload)).2 = decision
            cases decision with
            | overrun owner => simp [BrokerEvent.closesDownload, hid]
            | _ => rfl
    | resolveDownload v downloadId =>
        cases hu
        rw [Broker.download?_exec rfl]
        by_cases hid : id = downloadId
        · simp only [Broker.downloadAfter, if_pos hid]
          refine h.ended rfl (Or.inl ?_)
          simp [BrokerEvent.closesDownload, hid]
        · simp only [Broker.downloadAfter, if_neg hid]
          refine h.aside ⟨rfl, rfl, ?_, ?_⟩ hsub fun e0 he0 => he0
          · simp [BrokerEvent.refreshesDownload, BrokerEvent.grants?, BrokerEvent.routed?, hid]
          · simp [BrokerEvent.closesDownload, hid]
    | unregisterClient v deviceId conn =>
        cases hu
        rw [Broker.download?_exec rfl]
        simp only [Broker.downloadAfter]
        by_cases hconn : conn = a
        · have hnone : (b.download? u id).filter (fun entry => !decide (entry.owner = conn)) =
              none := by
            apply Option.eq_none_iff_forall_ne_some.mpr
            intro e0 he0
            rcases Option.filter_eq_some_iff.mp he0 with ⟨hentry, hother⟩
            rw [h.entry_eq e0 hentry, hconn] at hother
            simp [tallied] at hother
          rw [hnone]
          refine h.ended rfl (Or.inl ?_)
          simp [BrokerEvent.closesDownload, hconn]
        · refine h.aside ⟨rfl, rfl, ?_, ?_⟩ (fun e0 he0 => (Option.filter_eq_some_iff.mp he0).1)
            fun e0 he0 => ?_
          · simp [BrokerEvent.refreshesDownload, BrokerEvent.grants?, BrokerEvent.routed?]
          · simp [BrokerEvent.closesDownload, hconn]
          · have hentry := hsub e0 he0
            refine Option.filter_eq_some_iff.mpr ⟨hentry, ?_⟩
            rw [h.entry_eq e0 hentry]
            simp [tallied, Ne.symm hconn]
    | _ =>
        rw [Broker.download?_exec hu]
        refine h.aside ⟨rfl, rfl, ?_, rfl⟩ (fun e0 he0 => he0) hsub
        simp [BrokerEvent.refreshesDownload, BrokerEvent.grants?, BrokerEvent.routed?]
  · rw [Broker.download?_exec_other hu]
    exact h.aside (aside_of_subject hgrants hu) (fun e0 he0 => he0) hsub

end DownloadTally

/-!
## Runs
-/

namespace BrokerRun

/-- The entry of every download since the request that was last granted for its id. -/
theorem download_tally {labels : List BrokerLabel} {s : BrokerRun} (hrun : Runs labels s)
    {u id : String} {a : ConnId} {grant : BrokerEvent} {since before : List BrokerEvent}
    (hlog : s.log = since ++ grant :: before) (hgrant : grant.grants? u id = some a)
    (hlatest : forall e, e ∈ since -> e.grants? u id = none) :
    DownloadTally u id a grant.now since s.clock (s.broker.download? u id) := by
  refine runs_induction (motive := fun s => forall since before grant,
    s.log = since ++ grant :: before -> grant.grants? u id = some a ->
    (forall e, e ∈ since -> e.grants? u id = none) ->
    DownloadTally u id a grant.now since s.clock (s.broker.download? u id))
    ?_ ?_ ?_ hrun since before grant hlog hgrant hlatest
  · intro since before grant hlog
    simp [init] at hlog
  · intro s now call ih hclock since before grant hlog hgrant hlatest
    cases since with
    | nil =>
        simp only [perform, List.nil_append, List.cons.injEq] at hlog
        rcases hlog with ⟨rfl, _⟩
        have hentry : (s.perform now call).broker.download? u id =
            some (DownloadEntry.granted a now) := Broker.download?_of_grants hgrant
        rw [hentry]
        exact DownloadTally.start
    | cons e rest =>
        simp only [perform, List.cons_append, List.cons.injEq] at hlog
        rcases hlog with ⟨rfl, hrest⟩
        have htally := ih rest before grant hrest hgrant
          fun e he => hlatest e (List.mem_cons_of_mem _ he)
        exact htally.operation hclock call (hlatest _ List.mem_cons_self)
  · intro s s' ih hquiet since before grant hlog hgrant hlatest
    have hsame : s'.broker.download? u id = s.broker.download? u id :=
      Broker.part_congr (hquiet.account u)
    rw [hsame]
    exact (ih since before grant (hquiet.log ▸ hlog) hgrant hlatest).advance hquiet.clock

/--
What the relay promises about a download that was last granted to connection `a`, after the
events `since` then.  The download is open until it overruns, is resolved, its owner
disconnects or it has been idle for 60 seconds; the answers are those to any next operation.
-/
structure DownloadGoverned (u id : String) (a : ConnId) (granted : Instant)
    (since : List BrokerEvent) (s : BrokerRun) : Prop where
  sum_limit : sentBytes u id since ≤ 25 * 1024 * 1024
  live_iff : forall now, s.clock ≤ now ->
    ((DownloadEntry.swept now (s.broker.download? u id)).isSome = true <->
      DownloadOpen u id a granted since now)
  open_chunk : forall now payload, s.clock ≤ now -> DownloadOpen u id a granted since now ->
    (s.broker.exec now (.recordDownloadChunk u id payload)).2 =
      if sentBytes u id since + payload.length ≤
          min (25 * 1024 * 1024) ((declaredSize? u id since).getD (25 * 1024 * 1024)) then
        .forward a
      else .overrun a
  removed : forall now payload owner, s.clock ≤ now ->
    (s.broker.exec now (.recordDownloadChunk u id payload)).2 = .overrun owner ->
    (s.broker.exec now (.recordDownloadChunk u id payload)).1.download? u id = none
  closed_dropped : forall now, s.clock ≤ now -> ¬ DownloadOpen u id a granted since now ->
    (forall payload, (s.broker.exec now (.recordDownloadChunk u id payload)).2 = .drop) ∧
      (forall size, (s.broker.exec now (.noteDownloadBegin u id size)).2 = none) ∧
      (s.broker.exec now (.resolveDownload u id)).2 = none
  counter_exact : forall entry payload, s.broker.download? u id = some entry ->
    entry.bytesForwarded = sentBytes u id since ∧
      entry.bytesForwarded + Slice.length payload < 0x10000000000000000

/-- Every granted download is governed, whatever the desktop declares and sends and whatever
any connections do since. -/
theorem download_governed {labels : List BrokerLabel} {s : BrokerRun} {u id : String}
    {a : ConnId} {grant : BrokerEvent} {since before : List BrokerEvent} (hrun : Runs labels s)
    (hlog : s.log = since ++ grant :: before) (hgrant : grant.grants? u id = some a)
    (hlatest : forall e, e ∈ since -> e.grants? u id = none) :
    DownloadGoverned u id a grant.now since s := by
  have h := download_tally hrun hlog hgrant hlatest
  exact
    { sum_limit := h.sum_le
      live_iff := by
        intro now hclock
        have hnow := h.advance hclock
        constructor
        · intro hlive
          rcases Option.isSome_iff_exists.mp hlive with ⟨entry, hswept⟩
          exact hnow.open_of_swept hswept
        · intro hopen
          rw [hnow.swept_of_open hopen]
          rfl
      open_chunk := by
        intro now payload hclock hopen
        exact (h.advance hclock).decided hopen payload
      removed := by
        intro now payload owner _ hreply
        exact Broker.download?_of_overrun hreply
      closed_dropped := by
        intro now hclock hclosed
        exact (h.advance hclock).dropped hclosed
      counter_exact := by
        intro entry payload hentry
        have hcounter : entry.bytesForwarded = sentBytes u id since := by
          rw [h.entry_eq entry hentry]
          rfl
        rw [hcounter]
        exact ⟨rfl, h.counter_received payload⟩ }

theorem download_governed_example :
    DownloadGoverned "user" "file" 1 0
      [event (perform (perform init 0 (.registerDownload "user" "file" 1)) 5
          (.recordDownloadChunk "user" "file" ⟨[1, 2, 3], by decide⟩)) 6
          (.noteDownloadBegin "user" "file" 0xffffffffffffffff),
        event (perform init 0 (.registerDownload "user" "file" 1)) 5
          (.recordDownloadChunk "user" "file" ⟨[1, 2, 3], by decide⟩)]
      (perform (perform (perform init 0 (.registerDownload "user" "file" 1)) 5
        (.recordDownloadChunk "user" "file" ⟨[1, 2, 3], by decide⟩)) 6
        (.noteDownloadBegin "user" "file" 0xffffffffffffffff)) :=
  have hrun : Runs [.call 0 (.registerDownload "user" "file" 1),
      .call 5 (.recordDownloadChunk "user" "file" ⟨[1, 2, 3], by decide⟩),
      .call 6 (.noteDownloadBegin "user" "file" 0xffffffffffffffff)] _ := rfl
  have hgrant : (event init 0 (.registerDownload "user" "file" 1)).grants? "user" "file" =
      some 1 := rfl
  download_governed hrun rfl hgrant (by simp [event, BrokerEvent.grants?])

end BrokerRun

end CommandRelay
