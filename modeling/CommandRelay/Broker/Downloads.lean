import CommandRelay.Broker.Runs

/-!
# Download ownership

A download is granted to the connection that requested it.  The first part
states the machine of the download under one id and shows that the broker's
table runs it; the second part says which connection the desktop's begin,
chunks and end are routed to.
-/

namespace CommandRelay

open Foundation

/-!
## The single-download machine
-/

namespace DownloadEntry

def swept (now : Instant) (entry : Option DownloadEntry) : Option DownloadEntry :=
  entry.filter (live now)

def granted (conn : ConnId) (now : Instant) : DownloadEntry where
  owner := conn
  declaredSize := none
  bytesForwarded := 0
  lastActivity := now

def begun (size : Nat) (now : Instant) (e : DownloadEntry) : DownloadEntry :=
  { e with declaredSize := some size, lastActivity := now }

def chunkDecision (payload : Slice) (now : Instant) :
    Option DownloadEntry -> DownloadChunkDecision
  | none => .drop
  | some e => if e.overruns payload now then .overrun e.owner else .forward e.owner

def afterChunk (payload : Slice) (now : Instant) :
    Option DownloadEntry -> Option DownloadEntry
  | none => none
  | some e => if e.overruns payload now then none else some (e.received payload now)

end DownloadEntry

namespace AccountState

variable (st : AccountState) (downloadId id : String) (conn : ConnId) (now : Instant)

def downloadAt (id : String) (st : AccountState) : Option DownloadEntry :=
  st.downloads.lookup id

def downloadRoom (now : Instant) (st : AccountState) : Bool :=
  (st.gcDownloads now).downloads.size < maxActiveDownloads

theorem downloadAt_gcDownloads :
    (st.gcDownloads now).downloadAt id = DownloadEntry.swept now (st.downloadAt id) :=
  Table.lookup_retain (DownloadEntry.live now) st.downloads id

theorem registerDownload_ok :
    (st.registerDownload downloadId conn now).2 = .ok () <-> st.downloadRoom now = true := by
  unfold registerDownload downloadRoom
  by_cases hfull : maxActiveDownloads ≤ (st.gcDownloads now).downloads.size
  · simp [hfull]
  · simp [hfull, Nat.not_le.mp hfull]

theorem downloadAt_registerDownload :
    (st.registerDownload downloadId conn now).1.downloadAt id =
      if id = downloadId ∧ (st.registerDownload downloadId conn now).2 = .ok () then
        some (DownloadEntry.granted conn now)
      else DownloadEntry.swept now (st.downloadAt id) := by
  rw [← downloadAt_gcDownloads]
  unfold registerDownload
  by_cases hfull : maxActiveDownloads ≤ (st.gcDownloads now).downloads.size
  · simp [hfull]
  · simp [hfull, downloadAt, Table.lookup_insert_of_eq, DownloadEntry.granted]

theorem noteDownloadBegin_owner (size : Nat) :
    (st.noteDownloadBegin downloadId size now).2 =
      (DownloadEntry.swept now (st.downloadAt downloadId)).map DownloadEntry.owner := by
  rw [← downloadAt_gcDownloads]
  rfl

theorem downloadAt_noteDownloadBegin (size : Nat) :
    (st.noteDownloadBegin downloadId size now).1.downloadAt id =
      if id = downloadId then
        (DownloadEntry.swept now (st.downloadAt id)).map (DownloadEntry.begun size now)
      else DownloadEntry.swept now (st.downloadAt id) := by
  rw [← downloadAt_gcDownloads]
  unfold downloadAt noteDownloadBegin
  by_cases hid : id = downloadId
  · subst hid
    simp only [Table.lookup_modify_same, if_true]
    rfl
  · simp [Table.lookup_modify_ne _ _ hid, hid]

theorem recordDownloadChunk_decision (payload : Slice) :
    (st.recordDownloadChunk downloadId payload now).2 =
      DownloadEntry.chunkDecision payload now
        (DownloadEntry.swept now (st.downloadAt downloadId)) := by
  rw [← downloadAt_gcDownloads]
  unfold recordDownloadChunk downloadAt
  cases hentry : (st.gcDownloads now).downloads.lookup downloadId with
  | none => simp [hentry, DownloadEntry.chunkDecision]
  | some e =>
      by_cases hover : e.overruns payload now = true
      · simp [hentry, DownloadEntry.chunkDecision, hover]
      · simp [hentry, DownloadEntry.chunkDecision, hover]

theorem downloadAt_recordDownloadChunk (payload : Slice) :
    (st.recordDownloadChunk downloadId payload now).1.downloadAt id =
      if id = downloadId then
        DownloadEntry.afterChunk payload now (DownloadEntry.swept now (st.downloadAt id))
      else DownloadEntry.swept now (st.downloadAt id) := by
  rw [← downloadAt_gcDownloads]
  unfold recordDownloadChunk downloadAt
  cases hentry : (st.gcDownloads now).downloads.lookup downloadId with
  | none =>
      by_cases hid : id = downloadId
      · subst hid
        simp [hentry, DownloadEntry.afterChunk]
      · simp [hentry, hid]
  | some e =>
      by_cases hover : e.overruns payload now = true
      · by_cases hid : id = downloadId
        · subst hid
          simp [hentry, DownloadEntry.afterChunk, hover]
        · simp [hentry, hid, hover, AList.lookup_erase_ne hid]
      · by_cases hid : id = downloadId
        · subst hid
          simp [hentry, DownloadEntry.afterChunk, hover, Table.lookup_modify_same]
        · simp [hentry, hid, hover, Table.lookup_modify_ne _ _ hid]

theorem resolveDownload_owner :
    (st.resolveDownload downloadId now).2 =
      (DownloadEntry.swept now (st.downloadAt downloadId)).map DownloadEntry.owner := by
  rw [← downloadAt_gcDownloads]
  rfl

theorem downloadAt_resolveDownload :
    (st.resolveDownload downloadId now).1.downloadAt id =
      if id = downloadId then none else DownloadEntry.swept now (st.downloadAt id) := by
  rw [← downloadAt_gcDownloads]
  unfold downloadAt resolveDownload
  by_cases hid : id = downloadId
  · subst hid
    simp [AList.lookup_erase]
  · simp [hid, AList.lookup_erase_ne hid]

theorem downloadAt_unregisterClient :
    (st.unregisterClient conn).downloadAt id =
      (st.downloadAt id).filter fun e => !decide (e.owner = conn) :=
  Table.lookup_retain _ st.downloads id

end AccountState

namespace Broker

def download? (b : Broker) (u id : String) : Option DownloadEntry :=
  b.part u (AccountState.downloadAt id)

def downloadAfter (now : Instant) (id : String) :
    (c : BrokerCall) -> c.Reply -> Option DownloadEntry -> Option DownloadEntry
  | .registerDownload _ downloadId conn, reply, e =>
      if id = downloadId ∧ reply = .ok () then some (DownloadEntry.granted conn now)
      else DownloadEntry.swept now e
  | .noteDownloadBegin _ downloadId size, _, e =>
      if id = downloadId then
        (DownloadEntry.swept now e).map (DownloadEntry.begun size now)
      else DownloadEntry.swept now e
  | .recordDownloadChunk _ downloadId payload, _, e =>
      if id = downloadId then
        DownloadEntry.afterChunk payload now (DownloadEntry.swept now e)
      else DownloadEntry.swept now e
  | .resolveDownload _ downloadId, _, e =>
      if id = downloadId then none else DownloadEntry.swept now e
  | .unregisterClient _ _ conn, _, e => e.filter fun entry => !decide (entry.owner = conn)
  | _, _, e => e

theorem downloadAfter_none {now : Instant} {id : String} {c : BrokerCall} (reply : c.Reply)
    (h : c.creates = false) : downloadAfter now id c reply none = none := by
  cases c with
  | registerDownload v downloadId conn => simp [BrokerCall.creates] at h
  | noteDownloadBegin v downloadId size => simp [downloadAfter, DownloadEntry.swept]
  | recordDownloadChunk v downloadId payload =>
      simp [downloadAfter, DownloadEntry.swept, DownloadEntry.afterChunk]
  | resolveDownload v downloadId => simp [downloadAfter, DownloadEntry.swept]
  | _ => rfl

theorem download?_exec {b : Broker} {now : Instant} {c : BrokerCall} {u : String}
    (hu : c.subject? = some u) (id : String) :
    (b.exec now c).1.download? u id =
      downloadAfter now id c (b.exec now c).2 (b.download? u id) := by
  refine part_exec _ hu rfl (downloadAfter_none _) ?_
  cases c with
  | registerDownload v downloadId conn =>
      cases hu
      exact (b.entry u).downloadAt_registerDownload downloadId id conn now
  | noteDownloadBegin v downloadId size =>
      exact (b.entry u).downloadAt_noteDownloadBegin downloadId id now size
  | recordDownloadChunk v downloadId payload =>
      exact (b.entry u).downloadAt_recordDownloadChunk downloadId id now payload
  | resolveDownload v downloadId =>
      exact (b.entry u).downloadAt_resolveDownload downloadId id now
  | unregisterClient v deviceId conn => exact (b.entry u).downloadAt_unregisterClient id conn
  | _ =>
      exact congrArg (AList.lookup id)
        ((b.entry u).after_agree .downloads b.alive now (by simp [BrokerCall.touches]))

theorem download?_exec_other {b : Broker} {now : Instant} {c : BrokerCall} {u : String}
    (hu : c.subject? ≠ some u) (id : String) :
    (b.exec now c).1.download? u id = b.download? u id :=
  part_congr (account_exec_other hu)

end Broker

/-!
## Download events
-/

namespace BrokerEvent

def grants? (u id : String) : BrokerEvent -> Option ConnId
  | ⟨_, .registerDownload v downloadId conn, .ok ()⟩ =>
      if u = v ∧ id = downloadId then some conn else none
  | _ => none

/-- For the desktop's begin, a chunk or the desktop's end of the download: the
connection it is routed to, if any. -/
def routed? (u id : String) : BrokerEvent -> Option (Option ConnId)
  | ⟨_, .noteDownloadBegin v downloadId _, owner⟩ =>
      if u = v ∧ id = downloadId then some owner else none
  | ⟨_, .recordDownloadChunk v downloadId _, decision⟩ =>
      if u = v ∧ id = downloadId then
        match decision with
        | .forward owner => some (some owner)
        | .overrun owner => some (some owner)
        | .drop => some none
      else none
  | ⟨_, .resolveDownload v downloadId, owner⟩ =>
      if u = v ∧ id = downloadId then some owner else none
  | _ => none

/-- The download of connection `a` ends: it is resolved, it overruns, or `a`
disconnects. -/
def closesDownload (u id : String) (a : ConnId) : BrokerEvent -> Bool
  | ⟨_, .resolveDownload v downloadId, _⟩ => decide (u = v ∧ id = downloadId)
  | ⟨_, .recordDownloadChunk v downloadId _, .overrun _⟩ =>
      decide (u = v ∧ id = downloadId)
  | ⟨_, .unregisterClient v _ conn, _⟩ => decide (u = v ∧ conn = a)
  | _ => false

/-- A grant to `a`, and anything routed to `a`, is activity of its download. -/
def refreshesDownload (u id : String) (a : ConnId) (e : BrokerEvent) : Bool :=
  decide (e.grants? u id = some a ∨ e.routed? u id = some (some a))

end BrokerEvent

section Ownership

variable (u id : String) (a : ConnId) (granted : Instant)

def lastDownloadActivity : List BrokerEvent -> Instant
  | [] => granted
  | e :: rest =>
      if e.refreshesDownload u id a then e.now else lastDownloadActivity rest

/-- The download granted to `a` has not ended after the given events: nothing
closed it, and it is not idle. -/
def DownloadOpen (since : List BrokerEvent) (now : Instant) : Prop :=
  (forall e, e ∈ since -> e.closesDownload u id a = false) ∧
    elapsedSecs now (lastDownloadActivity u id a granted since) < uploadIdleTimeoutSecs

end Ownership

namespace BrokerRun

/--
Every begin, chunk and end of a download is routed to the connection the
download was granted to, for as long as that download is open.
-/
def DownloadsOwned (s : BrokerRun) : Prop :=
  forall u id a since grant before, s.log = since ++ grant :: before ->
    grant.grants? u id = some a ->
    forall later e earlier owner, since = later ++ e :: earlier ->
      DownloadOpen u id a grant.now earlier e.now ->
      e.routed? u id = some owner -> owner = some a

/-- A connection requests a download under an id that another connection's live
download has, and the table has room for it. -/
def takesDownloadOver (s : BrokerRun) : BrokerLabel -> Bool
  | .call now (.registerDownload u id conn) =>
      (s.broker.entry u).downloadRoom now &&
        (DownloadEntry.swept now (s.broker.download? u id)).any fun e =>
          !decide (e.owner = conn)
  | _ => false

end BrokerRun

/-- The entry of a download against the events since it was granted. -/
structure DownloadHistory (u id : String) (a : ConnId) (granted : Instant)
    (since : List BrokerEvent) (clock : Instant) (entry : Option DownloadEntry) : Prop where
  held : DownloadOpen u id a granted since clock -> exists e, entry = some e ∧
    e.owner = a ∧ e.lastActivity = lastDownloadActivity u id a granted since
  routed : forall later e earlier owner, since = later ++ e :: earlier ->
    DownloadOpen u id a granted earlier e.now -> e.routed? u id = some owner ->
    owner = some a

namespace DownloadHistory

variable {u id : String} {a : ConnId} {granted clock now : Instant}
  {since : List BrokerEvent} {entry entry' : Option DownloadEntry} {e : BrokerEvent}

theorem start : DownloadHistory u id a granted [] clock
    (some (DownloadEntry.granted a granted)) where
  held := fun _ => ⟨_, rfl, rfl, rfl⟩
  routed := by simp

theorem open_earlier (hclock : clock ≤ now) (h : DownloadOpen u id a granted since now) :
    DownloadOpen u id a granted since clock :=
  ⟨h.1, Nat.lt_of_le_of_lt (Nat.div_le_div_right (Nat.sub_le_sub_right hclock _)) h.2⟩

theorem advance (h : DownloadHistory u id a granted since clock entry)
    (hclock : clock ≤ now) : DownloadHistory u id a granted since now entry where
  held := fun hopen => h.held (open_earlier hclock hopen)
  routed := h.routed

theorem swept_held (h : DownloadHistory u id a granted since now entry)
    (hopen : DownloadOpen u id a granted since now) :
    exists e, DownloadEntry.swept now entry = some e ∧ e.owner = a ∧
      e.lastActivity = lastDownloadActivity u id a granted since := by
  rcases h.held hopen with ⟨e, rfl, howner, hactivity⟩
  refine ⟨e, ?_, howner, hactivity⟩
  refine Option.filter_eq_some_iff.mpr ⟨rfl, ?_⟩
  rw [DownloadEntry.live, hactivity]
  exact decide_eq_true hopen.2

theorem open_tail (hopen : DownloadOpen u id a granted (e :: since) now)
    (hquiet : e.refreshesDownload u id a = false) :
    DownloadOpen u id a granted since now ∧
      lastDownloadActivity u id a granted (e :: since) =
        lastDownloadActivity u id a granted since := by
  have hlast : lastDownloadActivity u id a granted (e :: since) =
      lastDownloadActivity u id a granted since := by
    simp [lastDownloadActivity, hquiet]
  exact ⟨⟨fun f hf => hopen.1 f (List.mem_cons_of_mem _ hf), hlast ▸ hopen.2⟩, hlast⟩

/--
The step rule: one more event keeps the history, when what it routes goes to the
owner of the swept entry, an activity leaves an entry of `a`, and any other event
that does not close the download keeps the entry of `a`.
-/
theorem extend (h : DownloadHistory u id a granted since e.now entry)
    (hrouted : forall owner, e.routed? u id = some owner ->
      owner = (DownloadEntry.swept e.now entry).map DownloadEntry.owner)
    (hactive : e.refreshesDownload u id a = true ->
      e.closesDownload u id a = false -> exists entry0, entry' = some entry0 ∧
        entry0.owner = a ∧ entry0.lastActivity = e.now)
    (hkeep : forall entry0, DownloadEntry.swept e.now entry = some entry0 ->
      entry0.owner = a -> e.refreshesDownload u id a = false ->
      e.closesDownload u id a = false -> entry' = some entry0) :
    DownloadHistory u id a granted (e :: since) e.now entry' where
  held := by
    intro hopen
    have hcloses := hopen.1 e List.mem_cons_self
    cases hrefresh : e.refreshesDownload u id a with
    | true =>
        rcases hactive hrefresh hcloses with ⟨entry0, hentry, howner, hactivity⟩
        exact ⟨entry0, hentry, howner, by simp [lastDownloadActivity, hrefresh, hactivity]⟩
    | false =>
        rcases open_tail hopen hrefresh with ⟨hbefore, hlast⟩
        rcases h.swept_held hbefore with ⟨entry0, hentry, howner, hactivity⟩
        exact ⟨entry0, hkeep entry0 hentry howner hrefresh hcloses, howner,
          hactivity.trans hlast.symm⟩
  routed := by
    intro later f earlier owner hsplit hopen hf
    cases later with
    | nil =>
        simp only [List.nil_append, List.cons.injEq] at hsplit
        rcases hsplit with ⟨rfl, rfl⟩
        rcases h.swept_held hopen with ⟨entry0, hentry, howner, _⟩
        rw [hrouted owner hf, hentry, Option.map_some, howner]
    | cons g later' =>
        simp only [List.cons_append, List.cons.injEq] at hsplit
        exact h.routed later' f earlier owner hsplit.2 hopen hf

end DownloadHistory

/-!
## Runs
-/

namespace Broker

variable {b : Broker} {now : Instant} {c : BrokerCall} {u id : String} {a : ConnId}

theorem exec_noteDownloadBegin_owner (b : Broker) (now : Instant) (u id : String)
    (size : Nat) :
    (b.exec now (.noteDownloadBegin u id size)).2 =
      (DownloadEntry.swept now (b.download? u id)).map DownloadEntry.owner := by
  show (b.withAccount u none _).2 = _
  unfold withAccount download? part
  cases b.account u with
  | none => rfl
  | some st => exact st.noteDownloadBegin_owner id now size

theorem exec_recordDownloadChunk_decision (b : Broker) (now : Instant) (u id : String)
    (payload : Slice) :
    (b.exec now (.recordDownloadChunk u id payload)).2 =
      DownloadEntry.chunkDecision payload now
        (DownloadEntry.swept now (b.download? u id)) := by
  show (b.withAccount u DownloadChunkDecision.drop _).2 = _
  unfold withAccount download? part
  cases b.account u with
  | none => rfl
  | some st => exact st.recordDownloadChunk_decision id now payload

theorem exec_resolveDownload_owner (b : Broker) (now : Instant) (u id : String) :
    (b.exec now (.resolveDownload u id)).2 =
      (DownloadEntry.swept now (b.download? u id)).map DownloadEntry.owner := by
  show (b.withAccount u none _).2 = _
  unfold withAccount download? part
  cases b.account u with
  | none => rfl
  | some st => exact st.resolveDownload_owner id now

theorem routed?_exec {owner : Option ConnId}
    (h : BrokerEvent.routed? u id ⟨now, c, (b.exec now c).2⟩ = some owner) :
    owner = (DownloadEntry.swept now (b.download? u id)).map DownloadEntry.owner := by
  cases c with
  | noteDownloadBegin v downloadId size =>
      simp only [BrokerEvent.routed?, Option.ite_none_right_eq_some, Option.some.injEq] at h
      rcases h with ⟨⟨rfl, rfl⟩, rfl⟩
      exact b.exec_noteDownloadBegin_owner now u id size
  | recordDownloadChunk v downloadId payload =>
      simp only [BrokerEvent.routed?, Option.ite_none_right_eq_some] at h
      rcases h with ⟨⟨rfl, rfl⟩, h⟩
      rw [exec_recordDownloadChunk_decision] at h
      cases hentry : DownloadEntry.swept now (b.download? u id) with
      | none => simpa [hentry, DownloadEntry.chunkDecision, eq_comm] using h
      | some e =>
          by_cases hover : e.overruns payload now = true
          · simpa [hentry, DownloadEntry.chunkDecision, hover, eq_comm] using h
          · simpa [hentry, DownloadEntry.chunkDecision, hover, eq_comm] using h
  | resolveDownload v downloadId =>
      simp only [BrokerEvent.routed?, Option.ite_none_right_eq_some, Option.some.injEq] at h
      rcases h with ⟨⟨rfl, rfl⟩, rfl⟩
      exact b.exec_resolveDownload_owner now u id
  | _ => simp [BrokerEvent.routed?] at h

theorem download?_of_grants
    (h : BrokerEvent.grants? u id ⟨now, c, (b.exec now c).2⟩ = some a) :
    (b.exec now c).1.download? u id = some (DownloadEntry.granted a now) := by
  cases c with
  | registerDownload v downloadId conn =>
      cases hreply : (b.exec now (.registerDownload v downloadId conn)).2 with
      | error reason => simp [BrokerEvent.grants?, hreply] at h
      | ok accepted =>
          cases accepted
          simp only [hreply, BrokerEvent.grants?, Option.ite_none_right_eq_some,
            Option.some.injEq] at h
          rcases h with ⟨⟨rfl, rfl⟩, rfl⟩
          rw [download?_exec rfl, hreply]
          simp [downloadAfter]
  | _ => simp [BrokerEvent.grants?] at h

theorem download?_of_routed
    (h : BrokerEvent.routed? u id ⟨now, c, (b.exec now c).2⟩ = some (some a))
    (hcloses : BrokerEvent.closesDownload u id a ⟨now, c, (b.exec now c).2⟩ = false) :
    exists e, (b.exec now c).1.download? u id = some e ∧ e.owner = a ∧
      e.lastActivity = now := by
  have howner := routed?_exec h
  rcases Option.map_eq_some_iff.mp howner.symm with ⟨e, hentry, rfl⟩
  cases c with
  | noteDownloadBegin v downloadId size =>
      simp only [BrokerEvent.routed?, Option.ite_none_right_eq_some, Option.some.injEq] at h
      rcases h with ⟨⟨rfl, rfl⟩, _⟩
      refine ⟨e.begun size now, ?_, rfl, rfl⟩
      rw [download?_exec rfl]
      simp [downloadAfter, hentry]
  | recordDownloadChunk v downloadId payload =>
      simp only [BrokerEvent.routed?, Option.ite_none_right_eq_some] at h
      rcases h with ⟨⟨rfl, rfl⟩, _⟩
      rw [exec_recordDownloadChunk_decision, hentry] at hcloses
      by_cases hover : e.overruns payload now = true
      · simp [DownloadEntry.chunkDecision, hover, BrokerEvent.closesDownload] at hcloses
      · refine ⟨e.received payload now, ?_, rfl, rfl⟩
        rw [download?_exec rfl]
        simp [downloadAfter, hentry, DownloadEntry.afterChunk, hover]
  | resolveDownload v downloadId =>
      simp only [BrokerEvent.routed?, Option.ite_none_right_eq_some, Option.some.injEq] at h
      rcases h with ⟨⟨rfl, rfl⟩, _⟩
      simp [BrokerEvent.closesDownload] at hcloses
  | _ => simp [BrokerEvent.routed?] at h

/-- Nothing else changes the live entry of a connection, but for another
connection's request under the same id. -/
theorem download?_kept {s : BrokerRun} {e : DownloadEntry}
    (hentry : DownloadEntry.swept now (s.broker.download? u id) = some e)
    (hquiet : (s.event now c).refreshesDownload u id e.owner = false)
    (hcloses : (s.event now c).closesDownload u id e.owner = false)
    (hok : s.takesDownloadOver (.call now c) = false) :
    (s.broker.exec now c).1.download? u id = some e := by
  have hpresent : s.broker.download? u id = some e :=
    (Option.filter_eq_some_iff.mp hentry).1
  have hnot : forall owner, (s.event now c).routed? u id = some owner -> False := by
    intro owner hrouted
    have howner := routed?_exec hrouted
    rw [hentry, Option.map_some] at howner
    rw [howner] at hrouted
    simp [BrokerEvent.refreshesDownload, hrouted] at hquiet
  by_cases hu : c.subject? = some u
  · rw [download?_exec hu]
    cases c with
    | registerDownload v downloadId conn =>
        cases hu
        by_cases hid : id = downloadId ∧
            (s.broker.exec now (.registerDownload u downloadId conn)).2 = .ok ()
        · rcases hid with ⟨rfl, hreply⟩
          have hroom : (s.broker.entry u).downloadRoom now = true :=
            ((s.broker.entry u).registerDownload_ok id conn now).mp hreply
          have howner : e.owner = conn := by
            simpa [BrokerRun.takesDownloadOver, hroom, hentry] using hok
          have hgrant : (s.event now (.registerDownload u id conn)).grants? u id =
              some e.owner := by
            simp [BrokerRun.event, BrokerEvent.grants?, hreply, howner]
          simp [BrokerEvent.refreshesDownload, hgrant] at hquiet
        · simp only [downloadAfter, if_neg hid]
          exact hentry
    | noteDownloadBegin v downloadId size =>
        cases hu
        by_cases hid : id = downloadId
        · exact (hnot _ (by simp [BrokerRun.event, BrokerEvent.routed?, hid]; rfl)).elim
        · simp only [downloadAfter, if_neg hid]
          exact hentry
    | recordDownloadChunk v downloadId payload =>
        cases hu
        by_cases hid : id = downloadId
        · subst hid
          cases hdecision : (s.broker.exec now (.recordDownloadChunk u id payload)).2 with
          | forward owner =>
              exact (hnot (some owner)
                (by simp [BrokerRun.event, BrokerEvent.routed?, hdecision])).elim
          | overrun owner =>
              exact (hnot (some owner)
                (by simp [BrokerRun.event, BrokerEvent.routed?, hdecision])).elim
          | drop =>
              exact (hnot none
                (by simp [BrokerRun.event, BrokerEvent.routed?, hdecision])).elim
        · simp only [downloadAfter, if_neg hid]
          exact hentry
    | resolveDownload v downloadId =>
        cases hu
        by_cases hid : id = downloadId
        · exact (hnot _ (by simp [BrokerRun.event, BrokerEvent.routed?, hid]; rfl)).elim
        · simp only [downloadAfter, if_neg hid]
          exact hentry
    | unregisterClient v deviceId conn =>
        cases hu
        have hother : e.owner ≠ conn := by
          simpa [BrokerRun.event, BrokerEvent.closesDownload, eq_comm] using hcloses
        simp [downloadAfter, hpresent, hother]
    | _ => exact hpresent
  · rw [download?_exec_other hu]
    exact hpresent

end Broker

namespace BrokerRun

/-- The history of every download since a grant of it. -/
theorem download_history {labels : List BrokerLabel} {s : BrokerRun} (hrun : Runs labels s)
    (hok : Admits step (fun s l => s.takesDownloadOver l = false) init labels)
    {u id : String} {a : ConnId} {grant : BrokerEvent} {since before : List BrokerEvent}
    (hlog : s.log = since ++ grant :: before) (hgrant : grant.grants? u id = some a) :
    DownloadHistory u id a grant.now since s.clock (s.broker.download? u id) := by
  refine admitted_induction (motive := fun s => forall since grant before,
    s.log = since ++ grant :: before -> grant.grants? u id = some a ->
    DownloadHistory u id a grant.now since s.clock (s.broker.download? u id))
    ?_ ?_ ?_ hrun hok since grant before hlog hgrant
  · intro since grant before hlog
    simp [init] at hlog
  · intro s now c ih hok hclock since grant before hlog hgrant
    cases since with
    | nil =>
        simp only [perform, List.nil_append, List.cons.injEq] at hlog
        rcases hlog with ⟨rfl, _⟩
        rw [show (s.perform now c).broker = (s.broker.exec now c).1 from rfl,
          Broker.download?_of_grants hgrant]
        exact DownloadHistory.start
    | cons e rest =>
        simp only [perform, List.cons_append, List.cons.injEq] at hlog
        rcases hlog with ⟨rfl, hrest⟩
        have hhistory := (ih rest grant before hrest hgrant).advance hclock
        refine hhistory.extend (e := s.event now c) (fun owner hr => Broker.routed?_exec hr)
          ?_ ?_
        · intro hactive hcloses
          rcases of_decide_eq_true hactive with hgrants | hrouted
          · exact ⟨_, Broker.download?_of_grants hgrants, rfl, rfl⟩
          · exact Broker.download?_of_routed hrouted hcloses
        · intro entry hentry howner hquiet hcloses
          subst howner
          exact Broker.download?_kept hentry hquiet hcloses hok
  · intro s s' ih hquiet since grant before hlog hgrant
    rw [show s'.broker.download? u id = s.broker.download? u id from
      Broker.part_congr (hquiet.account u)]
    exact (ih since grant before (hquiet.log ▸ hlog) hgrant).advance hquiet.clock

/-- In a run in which no connection requests a download under an id that another
one's live download has, every download is routed to its owner. -/
theorem downloads_owned {labels : List BrokerLabel} {s : BrokerRun} (hrun : Runs labels s)
    (hok : Admits step (fun s l => s.takesDownloadOver l = false) init labels) :
    s.DownloadsOwned := by
  intro u id a since grant before hlog hgrant
  exact (download_history hrun hok hlog hgrant).routed

theorem downloads_owned_example :
    (perform (perform init 0 (.registerDownload "user" "file" 1)) 5
      (.noteDownloadBegin "user" "file" 100)).DownloadsOwned :=
  have hrun : Runs [.call 0 (.registerDownload "user" "file" 1),
      .call 5 (.noteDownloadBegin "user" "file" 100)] _ := rfl
  downloads_owned hrun ⟨rfl, rfl, trivial⟩

/-- Connection 2 requests the id of connection 1's download, and the desktop's
begin then goes to connection 2. -/
theorem takeover_misroutes : exists s,
    Runs [.call 0 (.registerDownload "user" "file" 1),
      .call 1 (.registerDownload "user" "file" 2),
      .call 2 (.noteDownloadBegin "user" "file" 100)] s ∧ ¬ s.DownloadsOwned := by
  refine ⟨_, rfl, fun howned => ?_⟩
  have hrouted := howned "user" "file" 1
    [_, event (perform init 0 (.registerDownload "user" "file" 1)) 1
      (.registerDownload "user" "file" 2)]
    (event init 0 (.registerDownload "user" "file" 1)) [] rfl rfl [] _ _ (some 2) rfl
    ⟨by simp [event, BrokerEvent.closesDownload], by decide⟩ rfl
  simp at hrouted

end BrokerRun

end CommandRelay
