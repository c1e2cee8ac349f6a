import CommandRelay.Broker.Runs

/-!
# Upload governance

The upload under one id evolves on its own: an operation on the account sweeps
it, starts it, feeds it, finishes it or removes it.  The first part states that
single-upload machine and shows that the broker's table runs it; the second part
relates an upload's counter to the decisions made since it was accepted.
-/

namespace CommandRelay

open Foundation

/-!
## The single-upload machine
-/

namespace UploadEntry

def swept (now : Instant) (upload : Option UploadEntry) : Option UploadEntry :=
  upload.filter (live now)

def chunkDecision (conn : ConnId) (payload : Slice) (now : Instant) :
    Option UploadEntry -> ChunkDecision
  | none => .drop
  | some e =>
      if e.rejects conn then .drop
      else if e.overruns payload now then .overrun
      else .forward

def afterChunk (conn : ConnId) (payload : Slice) (now : Instant) :
    Option UploadEntry -> Option UploadEntry
  | none => none
  | some e =>
      if e.rejects conn then some e
      else if e.overruns payload now then none
      else some ((e.received payload now).buffered payload)

def marked (conn : ConnId) (e : UploadEntry) : UploadEntry :=
  if e.owner = conn then { e with buffer := some [] } else e

def taken (conn : ConnId) (e : UploadEntry) : UploadEntry :=
  if e.owner = conn then { e with buffer := none } else e

def finishedAt (conn : ConnId) (now : Instant) (e : UploadEntry) : UploadEntry :=
  if e.owner = conn then { e with finished := true, lastActivity := now } else e

def opened (size : Nat) (conn : ConnId) (now : Instant) : UploadEntry where
  owner := conn
  declaredSize := size
  bytesForwarded := 0
  lastActivity := now
  finished := false
  buffer := none

end UploadEntry

namespace AccountState

variable (st : AccountState) (uploadId id : String) (conn : ConnId) (now : Instant)

def uploadAt (id : String) (st : AccountState) : Option UploadEntry :=
  st.uploads.lookup id

theorem uploadAt_gcUploads :
    (st.gcUploads now).uploadAt id = UploadEntry.swept now (st.uploadAt id) :=
  Table.lookup_retain (UploadEntry.live now) st.uploads id

theorem uploadAt_beginUpload (size : Nat) :
    (st.beginUpload uploadId size conn now).1.uploadAt id =
      if id = uploadId ∧ (st.beginUpload uploadId size conn now).2 = .ok () then
        some (UploadEntry.opened size conn now)
      else UploadEntry.swept now (st.uploadAt id) := by
  rw [← uploadAt_gcUploads]
  unfold beginUpload
  by_cases hsize : maxUploadSize < size
  · simp [hsize]
  · by_cases hslots : maxActiveUploads ≤ (st.gcUploads now).uploads.size
    · simp [hsize, hslots]
    · by_cases hdup : ((st.gcUploads now).uploads.lookup uploadId).isSome = true
      · simp [hsize, hslots, hdup]
      · simp [hsize, hslots, hdup, uploadAt, Table.lookup_insert_of_eq,
          UploadEntry.opened]

theorem beginUpload_ok_size {size : Nat}
    (h : (st.beginUpload uploadId size conn now).2 = .ok ()) :
    size ≤ maxUploadSize := by
  by_cases hsize : maxUploadSize < size
  · simp [beginUpload, hsize] at h
  · omega

theorem beginUpload_active {size : Nat} {e : UploadEntry}
    (h : UploadEntry.swept now (st.uploadAt uploadId) = some e) :
    (st.beginUpload uploadId size conn now).2 ≠ .ok () := by
  rw [← uploadAt_gcUploads] at h
  have hdup : ((st.gcUploads now).uploads.lookup uploadId).isSome = true := by
    rw [show (st.gcUploads now).uploads.lookup uploadId = some e from h]
    rfl
  unfold beginUpload
  by_cases hsize : maxUploadSize < size
  · simp [hsize]
  · by_cases hslots : maxActiveUploads ≤ (st.gcUploads now).uploads.size
    · simp [hsize, hslots]
    · simp [hsize, hslots, hdup]

theorem uploadAt_markBugReportUpload :
    (st.markBugReportUpload uploadId conn).uploadAt id =
      if id = uploadId then (st.uploadAt id).map (UploadEntry.marked conn)
      else st.uploadAt id := by
  unfold uploadAt markBugReportUpload
  by_cases hid : id = uploadId
  · subst hid
    simp only [Table.lookup_modify_same, if_true]
    rfl
  · simp [Table.lookup_modify_ne _ _ hid, hid]

theorem uploadAt_takeBugReportBuffer :
    (st.takeBugReportBuffer uploadId conn).1.uploadAt id =
      if id = uploadId then (st.uploadAt id).map (UploadEntry.taken conn)
      else st.uploadAt id := by
  unfold takeBugReportBuffer uploadAt
  by_cases hid : id = uploadId
  · subst hid
    cases hentry : st.uploads.lookup id with
    | none => simp [hentry]
    | some e =>
        by_cases hown : e.owner = conn
        · simp [hentry, hown, Table.lookup_modify_same, UploadEntry.taken]
        · simp [hentry, hown, UploadEntry.taken]
  · cases hentry : st.uploads.lookup uploadId with
    | none => simp [hid]
    | some e =>
        by_cases hown : e.owner = conn
        · simp [hid, hown, Table.lookup_modify_ne _ _ hid]
        · simp [hid, hown]

theorem recordUploadChunk_decision (payload : Slice) :
    (st.recordUploadChunk uploadId conn payload now).2 =
      UploadEntry.chunkDecision conn payload now
        (UploadEntry.swept now (st.uploadAt uploadId)) := by
  rw [← uploadAt_gcUploads]
  unfold recordUploadChunk uploadAt
  cases hentry : (st.gcUploads now).uploads.lookup uploadId with
  | none => simp [hentry, UploadEntry.chunkDecision]
  | some e =>
      by_cases hrejects : e.rejects conn = true
      · simp [hentry, UploadEntry.chunkDecision, hrejects]
      · by_cases hover : e.overruns payload now = true
        · simp [hentry, UploadEntry.chunkDecision, hrejects, hover]
        · simp [hentry, UploadEntry.chunkDecision, hrejects, hover]

theorem uploadAt_recordUploadChunk (payload : Slice) :
    (st.recordUploadChunk uploadId conn payload now).1.uploadAt id =
      if id = uploadId then
        UploadEntry.afterChunk conn payload now
          (UploadEntry.swept now (st.uploadAt id))
      else UploadEntry.swept now (st.uploadAt id) := by
  rw [← uploadAt_gcUploads]
  unfold recordUploadChunk uploadAt
  cases hentry : (st.gcUploads now).uploads.lookup uploadId with
  | none =>
      by_cases hid : id = uploadId
      · subst hid
        simp [hentry, UploadEntry.afterChunk]
      · simp [hentry, hid]
  | some e =>
      by_cases hrejects : e.rejects conn = true
      · by_cases hid : id = uploadId
        · subst hid
          simp [hentry, UploadEntry.afterChunk, hrejects]
        · simp [hentry, hid, hrejects]
      · by_cases hover : e.overruns payload now = true
        · by_cases hid : id = uploadId
          · subst hid
            simp [hentry, UploadEntry.afterChunk, hrejects, hover]
          · simp [hentry, hid, hrejects, hover, AList.lookup_erase_ne hid]
        · by_cases hid : id = uploadId
          · subst hid
            simp [hentry, UploadEntry.afterChunk, hrejects, hover,
              Table.lookup_modify_same]
          · simp [hentry, hid, hrejects, hover, Table.lookup_modify_ne _ _ hid]

theorem uploadAt_finishUpload :
    (st.finishUpload uploadId conn now).uploadAt id =
      if id = uploadId then
        (UploadEntry.swept now (st.uploadAt id)).map (UploadEntry.finishedAt conn now)
      else UploadEntry.swept now (st.uploadAt id) := by
  rw [← uploadAt_gcUploads]
  unfold uploadAt finishUpload
  by_cases hid : id = uploadId
  · subst hid
    simp only [Table.lookup_modify_same, if_true]
    rfl
  · simp [Table.lookup_modify_ne _ _ hid, hid]

theorem uploadAt_resolveUpload :
    (st.resolveUpload uploadId now).1.uploadAt id =
      if id = uploadId then none else UploadEntry.swept now (st.uploadAt id) := by
  rw [← uploadAt_gcUploads]
  unfold uploadAt resolveUpload
  by_cases hid : id = uploadId
  · subst hid
    simp [AList.lookup_erase]
  · simp [hid, AList.lookup_erase_ne hid]

theorem uploadAt_dropUploadsOf :
    (st.dropUploadsOf conn).uploadAt id =
      (st.uploadAt id).filter fun e => !decide (e.owner = conn) :=
  Table.lookup_retain _ st.uploads id

theorem uploadAt_withoutDesktop :
    (st.withoutDesktop conn).uploadAt id =
      (st.uploadAt id).filter fun e => !decide (e.owner = conn) := by
  rw [← uploadAt_dropUploadsOf]
  unfold withoutDesktop
  by_cases hstale : (st.dropUploadsOf conn).heldByOther conn = true
  · simp [hstale]
  · simp [hstale, uploadAt]

theorem uploadAt_unregisterClient :
    (st.unregisterClient conn).uploadAt id =
      (st.uploadAt id).filter fun e => !decide (e.owner = conn) :=
  Table.lookup_retain _ st.uploads id

end AccountState

namespace Broker

def upload? (b : Broker) (u id : String) : Option UploadEntry :=
  b.part u (AccountState.uploadAt id)

def uploadAfter (now : Instant) (id : String) :
    (c : BrokerCall) -> c.Reply -> Option UploadEntry -> Option UploadEntry
  | .beginUpload _ uploadId size conn, reply, e =>
      if id = uploadId ∧ reply = .ok () then some (UploadEntry.opened size conn now)
      else UploadEntry.swept now e
  | .markBugReportUpload _ uploadId conn, _, e =>
      if id = uploadId then e.map (UploadEntry.marked conn) else e
  | .takeBugReportBuffer _ uploadId conn, _, e =>
      if id = uploadId then e.map (UploadEntry.taken conn) else e
  | .recordUploadChunk _ uploadId conn payload, _, e =>
      if id = uploadId then
        UploadEntry.afterChunk conn payload now (UploadEntry.swept now e)
      else UploadEntry.swept now e
  | .finishUpload _ uploadId conn, _, e =>
      if id = uploadId then
        (UploadEntry.swept now e).map (UploadEntry.finishedAt conn now)
      else UploadEntry.swept now e
  | .resolveUpload _ uploadId, _, e =>
      if id = uploadId then none else UploadEntry.swept now e
  | .unregisterClient _ _ conn, _, e => e.filter fun entry => !decide (entry.owner = conn)
  | .unregisterDesktop _ conn, _, e => e.filter fun entry => !decide (entry.owner = conn)
  | _, _, e => e

theorem upload?_of_entry (b : Broker) (u id : String) :
    (b.entry u).uploadAt id = b.upload? u id :=
  field_entry b u rfl

theorem uploadAfter_none {now : Instant} {id : String} {c : BrokerCall} (reply : c.Reply)
    (h : c.creates = false) : uploadAfter now id c reply none = none := by
  cases c with
  | beginUpload v uploadId size conn => simp [BrokerCall.creates] at h
  | markBugReportUpload v uploadId conn => simp [uploadAfter]
  | takeBugReportBuffer v uploadId conn => simp [uploadAfter]
  | recordUploadChunk v uploadId conn payload =>
      simp [uploadAfter, UploadEntry.swept, UploadEntry.afterChunk]
  | finishUpload v uploadId conn => simp [uploadAfter, UploadEntry.swept]
  | resolveUpload v uploadId => simp [uploadAfter, UploadEntry.swept]
  | _ => rfl

theorem upload?_exec {b : Broker} {now : Instant} {c : BrokerCall} {u : String}
    (hu : c.subject? = some u) (id : String) :
    (b.exec now c).1.upload? u id =
      uploadAfter now id c (b.exec now c).2 (b.upload? u id) := by
  refine part_exec _ hu rfl (uploadAfter_none _) ?_
  cases c with
  | beginUpload v uploadId size conn =>
      cases hu
      exact (b.entry u).uploadAt_beginUpload uploadId id conn now size
  | markBugReportUpload v uploadId conn =>
      exact (b.entry u).uploadAt_markBugReportUpload uploadId id conn
  | takeBugReportBuffer v uploadId conn =>
      exact (b.entry u).uploadAt_takeBugReportBuffer uploadId id conn
  | recordUploadChunk v uploadId conn payload =>
      exact (b.entry u).uploadAt_recordUploadChunk uploadId id conn now payload
  | finishUpload v uploadId conn =>
      exact (b.entry u).uploadAt_finishUpload uploadId id conn now
  | resolveUpload v uploadId => exact (b.entry u).uploadAt_resolveUpload uploadId id now
  | unregisterClient v deviceId conn =>
      exact (b.entry u).uploadAt_unregisterClient id conn
  | unregisterDesktop v conn => exact (b.entry u).uploadAt_withoutDesktop id conn
  | _ =>
      exact congrArg (AList.lookup id)
        ((b.entry u).after_agree .uploads b.alive now (by simp [BrokerCall.touches]))

theorem upload?_exec_other {b : Broker} {now : Instant} {c : BrokerCall} {u : String}
    (hu : c.subject? ≠ some u) (id : String) :
    (b.exec now c).1.upload? u id = b.upload? u id :=
  part_congr (account_exec_other hu)

end Broker

/-!
## Upload events
-/

/-- One governed chunk and its decision. -/
structure UploadChunk where
  conn : ConnId
  payload : Slice
  decision : ChunkDecision

namespace BrokerEvent

/-- An accepted begin for the upload: its declared size and its sender. -/
def opens? (u id : String) : BrokerEvent -> Option (Nat × ConnId)
  | ⟨_, .beginUpload v uploadId size conn, .ok ()⟩ =>
      if u = v ∧ id = uploadId then some (size, conn) else none
  | _ => none

def chunk? (u id : String) : BrokerEvent -> Option UploadChunk
  | ⟨_, .recordUploadChunk v uploadId conn payload, decision⟩ =>
      if u = v ∧ id = uploadId then some ⟨conn, payload, decision⟩ else none
  | _ => none

def finisher? (u id : String) : BrokerEvent -> Option ConnId
  | ⟨_, .finishUpload v uploadId conn, _⟩ =>
      if u = v ∧ id = uploadId then some conn else none
  | _ => none

end BrokerEvent

namespace UploadChunk

def forwarded (chunk : UploadChunk) : Nat :=
  if chunk.decision = .forward then chunk.payload.length else 0

end UploadChunk

section History

variable (u id : String)

def forwardedBytes : List BrokerEvent -> Nat
  | [] => 0
  | e :: rest =>
      match e.chunk? u id with
      | none => forwardedBytes rest
      | some chunk => chunk.forwarded + forwardedBytes rest

def FinishedBy (c : ConnId) (events : List BrokerEvent) : Prop :=
  exists e, e ∈ events ∧ e.finisher? u id = some c

def Overran (events : List BrokerEvent) : Prop :=
  exists e chunk, e ∈ events ∧ e.chunk? u id = some chunk ∧ chunk.decision = .overrun

def BrokerEvent.refreshes (c : ConnId) (e : BrokerEvent) : Bool :=
  (e.chunk? u id).any (fun chunk => chunk.decision = .forward) ||
    decide (e.finisher? u id = some c)

/-- The time of the upload's last activity, `opened` before any of the events. -/
def lastUploadActivity (c : ConnId) (opened : Instant) : List BrokerEvent -> Instant
  | [] => opened
  | e :: rest =>
      if e.refreshes u id c then e.now else lastUploadActivity c opened rest

end History

section HistoryLemmas

variable {u id : String} {c : ConnId} {e : BrokerEvent} {events : List BrokerEvent}

theorem forwardedBytes_cons_none (h : e.chunk? u id = none) :
    forwardedBytes u id (e :: events) = forwardedBytes u id events := by
  simp [forwardedBytes, h]

theorem forwardedBytes_cons_some {chunk : UploadChunk} (h : e.chunk? u id = some chunk) :
    forwardedBytes u id (e :: events) = chunk.forwarded + forwardedBytes u id events := by
  simp [forwardedBytes, h]

theorem finishedBy_cons :
    FinishedBy u id c (e :: events) <->
      e.finisher? u id = some c ∨ FinishedBy u id c events := by
  simp [FinishedBy]

theorem overran_cons_none (h : e.chunk? u id = none) :
    Overran u id (e :: events) <-> Overran u id events := by
  simp [Overran, h]

theorem overran_cons_some {chunk : UploadChunk} (h : e.chunk? u id = some chunk) :
    Overran u id (e :: events) <->
      chunk.decision = .overrun ∨ Overran u id events := by
  simp [Overran, h]

theorem finisher?_of_chunk? {chunk : UploadChunk} (h : e.chunk? u id = some chunk) :
    e.finisher? u id = none := by
  rcases e with ⟨now, call, reply⟩
  cases call <;> simp_all [BrokerEvent.chunk?, BrokerEvent.finisher?]

theorem chunk?_of_finisher? (h : e.finisher? u id = some c) : e.chunk? u id = none := by
  rcases e with ⟨now, call, reply⟩
  cases call <;> simp_all [BrokerEvent.chunk?, BrokerEvent.finisher?]

theorem chunk?_of_subject (h : e.call.subject? ≠ some u) : e.chunk? u id = none := by
  rcases e with ⟨now, call, reply⟩
  cases call <;> simp_all [BrokerEvent.chunk?, BrokerCall.subject?, eq_comm]

theorem finisher?_of_subject (h : e.call.subject? ≠ some u) : e.finisher? u id = none := by
  rcases e with ⟨now, call, reply⟩
  cases call <;> simp_all [BrokerEvent.finisher?, BrokerCall.subject?, eq_comm]

theorem split_cons {later earlier : List BrokerEvent} {f : BrokerEvent}
    (h : e :: events = later ++ f :: earlier) :
    (f = e ∧ earlier = events) ∨ exists later', events = later' ++ f :: earlier := by
  cases later with
  | nil =>
      simp only [List.nil_append, List.cons.injEq] at h
      exact Or.inl ⟨h.1.symm, h.2.symm⟩
  | cons g later' =>
      simp only [List.cons_append, List.cons.injEq] at h
      exact Or.inr ⟨later', h.2⟩

end HistoryLemmas

/-!
## The invariant of one upload

`UploadHistory` relates the entry under an id to the events since the begin that
created it, newest first.
-/

structure UploadHistory (u id : String) (c : ConnId) (size : Nat) (opened : Instant)
    (since : List BrokerEvent) (upload : Option UploadEntry) : Prop where
  size_le : size ≤ maxUploadSize
  sum_le : forwardedBytes u id since ≤ size
  owner_eq : forall e, upload = some e -> e.owner = c
  declared_eq : forall e, upload = some e -> e.declaredSize = size
  counter_eq : forall e, upload = some e -> e.bytesForwarded = forwardedBytes u id since
  activity_eq : forall e, upload = some e ->
    e.lastActivity = lastUploadActivity u id c opened since
  finished_iff : forall e, upload = some e ->
    (e.finished = true <-> FinishedBy u id c since)
  severed : Overran u id since -> upload = none
  forwards : forall later e earlier chunk, since = later ++ e :: earlier ->
    e.chunk? u id = some chunk -> chunk.decision = .forward ->
    chunk.conn = c ∧ ¬ FinishedBy u id c earlier
  drops : forall later e earlier chunk, since = later ++ e :: earlier ->
    e.chunk? u id = some chunk -> Overran u id earlier -> chunk.decision = .drop

namespace UploadHistory

variable {u id : String} {c : ConnId} {size : Nat} {opened now : Instant}
  {since : List BrokerEvent} {upload upload' : Option UploadEntry} {e : BrokerEvent}

theorem start (hsize : size ≤ maxUploadSize) :
    UploadHistory u id c size opened [] (some (UploadEntry.opened size c opened)) where
  size_le := hsize
  sum_le := Nat.zero_le size
  owner_eq := by
    rintro _ ⟨rfl⟩
    rfl
  declared_eq := by
    rintro _ ⟨rfl⟩
    rfl
  counter_eq := by
    rintro _ ⟨rfl⟩
    rfl
  activity_eq := by
    rintro _ ⟨rfl⟩
    rfl
  finished_iff := by
    rintro _ ⟨rfl⟩
    simp [UploadEntry.opened, FinishedBy]
  severed := by simp [Overran]
  forwards := by simp
  drops := by simp

theorem weaken (h : UploadHistory u id c size opened since upload)
    (hsub : forall e, upload' = some e -> upload = some e) :
    UploadHistory u id c size opened since upload' where
  size_le := h.size_le
  sum_le := h.sum_le
  owner_eq e he := h.owner_eq e (hsub e he)
  declared_eq e he := h.declared_eq e (hsub e he)
  counter_eq e he := h.counter_eq e (hsub e he)
  activity_eq e he := h.activity_eq e (hsub e he)
  finished_iff e he := h.finished_iff e (hsub e he)
  severed hover := by
    cases hupload : upload' with
    | none => rfl
    | some e => simpa [h.severed hover] using hsub e hupload
  forwards := h.forwards
  drops := h.drops

theorem swept (h : UploadHistory u id c size opened since upload) :
    UploadHistory u id c size opened since (UploadEntry.swept now upload) :=
  h.weaken fun _ he => (Option.filter_eq_some_iff.mp he).1

theorem map_buffer (h : UploadHistory u id c size opened since upload)
    {change : UploadEntry -> UploadEntry}
    (hchange : forall e, change e = { e with buffer := (change e).buffer }) :
    UploadHistory u id c size opened since (upload.map change) := by
  cases upload with
  | none => exact h
  | some entry =>
      have hentry := hchange entry
      refine
        { size_le := h.size_le
          sum_le := h.sum_le
          owner_eq := ?_
          declared_eq := ?_
          counter_eq := ?_
          activity_eq := ?_
          finished_iff := ?_
          severed := fun hover => by simpa using h.severed hover
          forwards := h.forwards
          drops := h.drops } <;>
        rintro _ ⟨rfl⟩ <;> rw [hentry]
      · exact h.owner_eq entry rfl
      · exact h.declared_eq entry rfl
      · exact h.counter_eq entry rfl
      · exact h.activity_eq entry rfl
      · exact h.finished_iff entry rfl

theorem quiet (h : UploadHistory u id c size opened since upload)
    (hchunk : e.chunk? u id = none) (hfinish : e.finisher? u id ≠ some c) :
    UploadHistory u id c size opened (e :: since) upload where
  size_le := h.size_le
  sum_le := by
    rw [forwardedBytes_cons_none hchunk]
    exact h.sum_le
  owner_eq := h.owner_eq
  declared_eq := h.declared_eq
  counter_eq := by
    rw [forwardedBytes_cons_none hchunk]
    exact h.counter_eq
  activity_eq := by
    have hquiet : e.refreshes u id c = false := by
      simp [BrokerEvent.refreshes, hchunk, hfinish]
    simpa [lastUploadActivity, hquiet] using h.activity_eq
  finished_iff entry hentry := by
    rw [finishedBy_cons, or_iff_right hfinish]
    exact h.finished_iff entry hentry
  severed := by
    rw [overran_cons_none hchunk]
    exact h.severed
  forwards later f earlier chunk hsplit hf := by
    rcases split_cons hsplit with ⟨rfl, rfl⟩ | ⟨later', hsince⟩
    · simp [hchunk] at hf
    · exact h.forwards later' f earlier chunk hsince hf
  drops later f earlier chunk hsplit hf := by
    rcases split_cons hsplit with ⟨rfl, rfl⟩ | ⟨later', hsince⟩
    · simp [hchunk] at hf
    · exact h.drops later' f earlier chunk hsince hf

theorem counter_received (h : UploadHistory u id c size opened since upload)
    (now : Instant) {entry : UploadEntry} (hentry : upload = some entry) (payload : Slice) :
    (entry.received payload now).bytesForwarded =
      forwardedBytes u id since + payload.length := by
  have hsum := h.sum_le
  have hsize : size ≤ 25 * 1024 * 1024 := h.size_le
  have hpayload : payload.length < 0x8000000000000000 := payload.fits
  show (entry.bytesForwarded + payload.length) % 0x10000000000000000 = _
  rw [h.counter_eq entry hentry]
  exact Nat.mod_eq_of_lt (by omega)

theorem overruns_iff (h : UploadHistory u id c size opened since upload)
    {entry : UploadEntry} (hentry : upload = some entry) (payload : Slice) :
    entry.overruns payload now = true <->
      size < forwardedBytes u id since + payload.length := by
  have hbudget : entry.budget = size := by
    rw [UploadEntry.budget, h.declared_eq entry hentry]
    exact Nat.min_eq_left h.size_le
  simp [UploadEntry.overruns, hbudget, h.counter_received now hentry payload]

theorem rejects_iff (h : UploadHistory u id c size opened since upload)
    {entry : UploadEntry} (hentry : upload = some entry) (conn : ConnId) :
    entry.rejects conn = true <-> FinishedBy u id c since ∨ conn ≠ c := by
  rw [← h.finished_iff entry hentry]
  simp [UploadEntry.rejects, h.owner_eq entry hentry, ne_comm]

theorem chunkDecision_eq (h : UploadHistory u id c size opened since upload)
    {entry : UploadEntry} (hentry : upload = some entry)
    (hopen : ¬ FinishedBy u id c since) (payload : Slice) :
    UploadEntry.chunkDecision c payload now upload =
      if forwardedBytes u id since + payload.length ≤ size then .forward
      else .overrun := by
  have hrejects : ¬ entry.rejects c = true := by
    rw [h.rejects_iff hentry]
    simp [hopen]
  subst hentry
  by_cases hover : entry.overruns payload now = true
  · have hbig := (h.overruns_iff rfl payload).mp hover
    simp [UploadEntry.chunkDecision, hrejects, hover, Nat.not_le.mpr hbig]
  · have hfits := mt (h.overruns_iff rfl payload).mpr hover
    simp [UploadEntry.chunkDecision, hrejects, hover, Nat.not_lt.mp hfits]

variable {chunk : UploadChunk}

theorem chunk_drop (h : UploadHistory u id c size opened since upload)
    (hchunk : e.chunk? u id = some chunk) (hdrop : chunk.decision = .drop) :
    UploadHistory u id c size opened (e :: since) upload := by
  have hbytes : forwardedBytes u id (e :: since) = forwardedBytes u id since := by
    rw [forwardedBytes_cons_some hchunk]
    simp [UploadChunk.forwarded, hdrop]
  have hquiet : e.refreshes u id c = false := by
    simp [BrokerEvent.refreshes, hchunk, hdrop, finisher?_of_chunk? hchunk]
  refine
    { size_le := h.size_le
      sum_le := hbytes ▸ h.sum_le
      owner_eq := h.owner_eq
      declared_eq := h.declared_eq
      counter_eq := hbytes ▸ h.counter_eq
      activity_eq := by simpa [lastUploadActivity, hquiet] using h.activity_eq
      finished_iff := ?_
      severed := ?_
      forwards := ?_
      drops := ?_ }
  · intro entry hentry
    rw [finishedBy_cons, finisher?_of_chunk? hchunk, h.finished_iff entry hentry]
    simp
  · rw [overran_cons_some hchunk, hdrop]
    rintro (hover | hover)
    · contradiction
    · exact h.severed hover
  · intro later f earlier chunk' hsplit hf hforward
    rcases split_cons hsplit with ⟨rfl, rfl⟩ | ⟨later', hsince⟩
    · rw [hchunk, Option.some.injEq] at hf
      rw [← hf, hdrop] at hforward
      contradiction
    · exact h.forwards later' f earlier chunk' hsince hf hforward
  · intro later f earlier chunk' hsplit hf hover
    rcases split_cons hsplit with ⟨rfl, rfl⟩ | ⟨later', hsince⟩
    · rw [hchunk, Option.some.injEq] at hf
      exact hf ▸ hdrop
    · exact h.drops later' f earlier chunk' hsince hf hover

theorem chunk_overrun (h : UploadHistory u id c size opened since upload)
    (hchunk : e.chunk? u id = some chunk) (hoverrun : chunk.decision = .overrun)
    (hpresent : upload ≠ none) :
    UploadHistory u id c size opened (e :: since) none := by
  have hbytes : forwardedBytes u id (e :: since) = forwardedBytes u id since := by
    rw [forwardedBytes_cons_some hchunk]
    simp [UploadChunk.forwarded, hoverrun]
  refine
    { size_le := h.size_le
      sum_le := hbytes ▸ h.sum_le
      owner_eq := by simp
      declared_eq := by simp
      counter_eq := by simp
      activity_eq := by simp
      finished_iff := by simp
      severed := fun _ => rfl
      forwards := ?_
      drops := ?_ }
  · intro later f earlier chunk' hsplit hf hforward
    rcases split_cons hsplit with ⟨rfl, rfl⟩ | ⟨later', hsince⟩
    · rw [hchunk, Option.some.injEq] at hf
      rw [← hf, hoverrun] at hforward
      contradiction
    · exact h.forwards later' f earlier chunk' hsince hf hforward
  · intro later f earlier chunk' hsplit hf hover
    rcases split_cons hsplit with ⟨rfl, rfl⟩ | ⟨later', hsince⟩
    · exact absurd (h.severed hover) hpresent
    · exact h.drops later' f earlier chunk' hsince hf hover

theorem chunk_forward (h : UploadHistory u id c size opened since upload)
    (hchunk : e.chunk? u id = some chunk) (hforward : chunk.decision = .forward)
    {entry : UploadEntry} (hentry : upload = some entry)
    (hrejects : ¬ entry.rejects chunk.conn = true)
    (hfits : ¬ entry.overruns chunk.payload e.now = true) :
    UploadHistory u id c size opened (e :: since)
      (some ((entry.received chunk.payload e.now).buffered chunk.payload)) := by
  have hbytes : forwardedBytes u id (e :: since) =
      forwardedBytes u id since + chunk.payload.length := by
    rw [forwardedBytes_cons_some hchunk, Nat.add_comm]
    simp [UploadChunk.forwarded, hforward]
  have hactive : e.refreshes u id c = true := by
    simp [BrokerEvent.refreshes, hchunk, hforward]
  rw [h.rejects_iff hentry, not_or, not_not] at hrejects
  rw [h.overruns_iff hentry, Nat.not_lt] at hfits
  refine
    { size_le := h.size_le
      sum_le := hbytes ▸ hfits
      owner_eq := ?_
      declared_eq := ?_
      counter_eq := ?_
      activity_eq := ?_
      finished_iff := ?_
      severed := ?_
      forwards := ?_
      drops := ?_ }
  · rintro _ ⟨rfl⟩
    exact h.owner_eq entry hentry
  · rintro _ ⟨rfl⟩
    exact h.declared_eq entry hentry
  · rintro _ ⟨rfl⟩
    rw [hbytes]
    exact h.counter_received e.now hentry chunk.payload
  · rintro _ ⟨rfl⟩
    simp [lastUploadActivity, hactive, UploadEntry.buffered, UploadEntry.received]
  · rintro _ ⟨rfl⟩
    rw [finishedBy_cons, finisher?_of_chunk? hchunk]
    simpa [UploadEntry.buffered, UploadEntry.received] using h.finished_iff entry hentry
  · rw [overran_cons_some hchunk, hforward]
    rintro (hover | hover)
    · contradiction
    · simp [h.severed hover] at hentry
  · intro later f earlier chunk' hsplit hf hforward'
    rcases split_cons hsplit with ⟨rfl, rfl⟩ | ⟨later', hsince⟩
    · rw [hchunk, Option.some.injEq] at hf
      subst hf
      exact ⟨hrejects.2, hrejects.1⟩
    · exact h.forwards later' f earlier chunk' hsince hf hforward'
  · intro later f earlier chunk' hsplit hf hover
    rcases split_cons hsplit with ⟨rfl, rfl⟩ | ⟨later', hsince⟩
    · simp [h.severed hover] at hentry
    · exact h.drops later' f earlier chunk' hsince hf hover

theorem chunk_decided (h : UploadHistory u id c size opened since upload)
    (hchunk : e.chunk? u id = some chunk)
    (hdecision : chunk.decision =
      UploadEntry.chunkDecision chunk.conn chunk.payload e.now upload) :
    UploadHistory u id c size opened (e :: since)
      (UploadEntry.afterChunk chunk.conn chunk.payload e.now upload) := by
  cases hupload : upload with
  | none =>
      rw [hupload] at h hdecision
      exact h.chunk_drop hchunk hdecision
  | some entry =>
      by_cases hrejects : entry.rejects chunk.conn = true
      · simp only [UploadEntry.afterChunk, if_pos hrejects]
        simp only [hupload, UploadEntry.chunkDecision, if_pos hrejects] at hdecision
        exact hupload ▸ h.chunk_drop hchunk hdecision
      · by_cases hover : entry.overruns chunk.payload e.now = true
        · simp only [UploadEntry.afterChunk, if_neg hrejects, if_pos hover]
          simp only [hupload, UploadEntry.chunkDecision, if_neg hrejects,
            if_pos hover] at hdecision
          exact h.chunk_overrun hchunk hdecision (by simp [hupload])
        · simp only [UploadEntry.afterChunk, if_neg hrejects, if_neg hover]
          simp only [hupload, UploadEntry.chunkDecision, if_neg hrejects,
            if_neg hover] at hdecision
          exact h.chunk_forward hchunk hdecision hupload hrejects hover

theorem finish (h : UploadHistory u id c size opened since upload)
    (hfinish : e.finisher? u id = some c) :
    UploadHistory u id c size opened (e :: since)
      (upload.map (UploadEntry.finishedAt c e.now)) := by
  have hchunk : e.chunk? u id = none := chunk?_of_finisher? hfinish
  have hactive : e.refreshes u id c = true := by
    simp [BrokerEvent.refreshes, hfinish]
  have hfinished : forall entry, upload.map (UploadEntry.finishedAt c e.now) = some entry ->
      exists old, upload = some old ∧
        entry = { old with finished := true, lastActivity := e.now } := by
    intro entry hentry
    rcases Option.map_eq_some_iff.mp hentry with ⟨old, hold, rfl⟩
    exact ⟨old, hold, by simp [UploadEntry.finishedAt, h.owner_eq old hold]⟩
  refine
    { size_le := h.size_le
      sum_le := by
        rw [forwardedBytes_cons_none hchunk]
        exact h.sum_le
      owner_eq := ?_
      declared_eq := ?_
      counter_eq := ?_
      activity_eq := ?_
      finished_iff := ?_
      severed := ?_
      forwards := ?_
      drops := ?_ }
  · intro entry hentry
    rcases hfinished entry hentry with ⟨old, hold, rfl⟩
    exact h.owner_eq old hold
  · intro entry hentry
    rcases hfinished entry hentry with ⟨old, hold, rfl⟩
    exact h.declared_eq old hold
  · intro entry hentry
    rcases hfinished entry hentry with ⟨old, hold, rfl⟩
    rw [forwardedBytes_cons_none hchunk]
    exact h.counter_eq old hold
  · intro entry hentry
    rcases hfinished entry hentry with ⟨old, hold, rfl⟩
    simp [lastUploadActivity, hactive]
  · intro entry hentry
    rcases hfinished entry hentry with ⟨old, hold, rfl⟩
    simp [finishedBy_cons, hfinish]
  · rw [overran_cons_none hchunk]
    intro hover
    simp [h.severed hover]
  · intro later f earlier chunk' hsplit hf hforward
    rcases split_cons hsplit with ⟨rfl, rfl⟩ | ⟨later', hsince⟩
    · simp [hchunk] at hf
    · exact h.forwards later' f earlier chunk' hsince hf hforward
  · intro later f earlier chunk' hsplit hf hover
    rcases split_cons hsplit with ⟨rfl, rfl⟩ | ⟨later', hsince⟩
    · simp [hchunk] at hf
    · exact h.drops later' f earlier chunk' hsince hf hover

end UploadHistory

/-!
## Runs
-/

namespace Broker

theorem exec_recordUploadChunk_reply (b : Broker) (now : Instant) (u id : String)
    (conn : ConnId) (payload : Slice) :
    (b.exec now (.recordUploadChunk u id conn payload)).2 =
      UploadEntry.chunkDecision conn payload now
        (UploadEntry.swept now (b.upload? u id)) := by
  show (b.withAccount u ChunkDecision.drop _).2 = _
  unfold withAccount upload? part
  cases b.account u with
  | none => rfl
  | some st => exact st.recordUploadChunk_decision id conn now payload

theorem size_le_of_opens? {b : Broker} {now : Instant} {call : BrokerCall} {u id : String}
    {size : Nat} {c : ConnId}
    (h : BrokerEvent.opens? u id ⟨now, call, (b.exec now call).2⟩ = some (size, c)) :
    size ≤ maxUploadSize ∧
      (b.exec now call).1.upload? u id = some (UploadEntry.opened size c now) := by
  cases call with
  | beginUpload v uploadId declared conn =>
      cases hreply : (b.exec now (.beginUpload v uploadId declared conn)).2 with
      | error reason => simp [BrokerEvent.opens?, hreply] at h
      | ok accepted =>
          cases accepted
          by_cases hid : u = v ∧ id = uploadId
          · rw [hreply] at h
            simp only [BrokerEvent.opens?, if_pos hid, Option.some.injEq,
              Prod.mk.injEq] at h
            rcases hid with ⟨rfl, rfl⟩
            rcases h with ⟨rfl, rfl⟩
            refine ⟨(b.entry u).beginUpload_ok_size id conn now hreply, ?_⟩
            rw [upload?_exec rfl, hreply]
            simp [uploadAfter]
          · simp [BrokerEvent.opens?, hreply, hid] at h
  | _ => simp [BrokerEvent.opens?] at h

end Broker

namespace UploadHistory

variable {u id : String} {c : ConnId} {size : Nat} {opened : Instant}
  {since : List BrokerEvent}

theorem operation {b : Broker}
    (h : UploadHistory u id c size opened since (b.upload? u id))
    (now : Instant) (call : BrokerCall)
    (hopens : BrokerEvent.opens? u id ⟨now, call, (b.exec now call).2⟩ = none) :
    UploadHistory u id c size opened (⟨now, call, (b.exec now call).2⟩ :: since)
      ((b.exec now call).1.upload? u id) := by
  by_cases hu : call.subject? = some u
  · rw [Broker.upload?_exec hu]
    cases call with
    | beginUpload v uploadId declared conn =>
        cases hu
        refine UploadHistory.quiet ?_ rfl (by simp [BrokerEvent.finisher?])
        by_cases hid : id = uploadId ∧
            (b.exec now (.beginUpload u uploadId declared conn)).2 = .ok ()
        · rw [hid.2] at hopens
          simp [BrokerEvent.opens?, hid.1] at hopens
        · simp only [Broker.uploadAfter, if_neg hid]
          exact h.swept
    | markBugReportUpload v uploadId conn =>
        refine UploadHistory.quiet ?_ rfl (by simp [BrokerEvent.finisher?])
        by_cases hid : id = uploadId
        · simp only [Broker.uploadAfter, if_pos hid]
          refine h.map_buffer fun entry => ?_
          by_cases hown : entry.owner = conn <;> simp [UploadEntry.marked, hown]
        · simp only [Broker.uploadAfter, if_neg hid]
          exact h
    | takeBugReportBuffer v uploadId conn =>
        refine UploadHistory.quiet ?_ rfl (by simp [BrokerEvent.finisher?])
        by_cases hid : id = uploadId
        · simp only [Broker.uploadAfter, if_pos hid]
          refine h.map_buffer fun entry => ?_
          by_cases hown : entry.owner = conn <;> simp [UploadEntry.taken, hown]
        · simp only [Broker.uploadAfter, if_neg hid]
          exact h
    | recordUploadChunk v uploadId conn payload =>
        cases hu
        by_cases hid : id = uploadId
        · subst hid
          simp only [Broker.uploadAfter, if_true]
          have hchunk : BrokerEvent.chunk? u id
              ⟨now, .recordUploadChunk u id conn payload,
                (b.exec now (.recordUploadChunk u id conn payload)).2⟩ =
              some ⟨conn, payload, (b.exec now (.recordUploadChunk u id conn payload)).2⟩ := by
            simp [BrokerEvent.chunk?]
          exact h.swept.chunk_decided hchunk
            (b.exec_recordUploadChunk_reply now u id conn payload)
        · simp only [Broker.uploadAfter, if_neg hid]
          exact UploadHistory.quiet h.swept (by simp [BrokerEvent.chunk?, hid])
            (by simp [BrokerEvent.finisher?])
    | finishUpload v uploadId conn =>
        cases hu
        by_cases hid : id = uploadId
        · subst hid
          simp only [Broker.uploadAfter, if_true]
          by_cases hc : conn = c
          · subst hc
            exact h.swept.finish (e := ⟨now, .finishUpload u id conn, ()⟩)
              (by simp [BrokerEvent.finisher?])
          · have hkeep : (UploadEntry.swept now (b.upload? u id)).map
                (UploadEntry.finishedAt conn now) =
                UploadEntry.swept now (b.upload? u id) := by
              cases hswept : UploadEntry.swept now (b.upload? u id) with
              | none => rfl
              | some entry =>
                  have hown := h.swept.owner_eq entry hswept
                  simp [UploadEntry.finishedAt, hown, Ne.symm hc]
            rw [hkeep]
            exact UploadHistory.quiet h.swept rfl (by simp [BrokerEvent.finisher?, hc])
        · simp only [Broker.uploadAfter, if_neg hid]
          exact UploadHistory.quiet h.swept rfl (by simp [BrokerEvent.finisher?, hid])
    | resolveUpload v uploadId =>
        refine UploadHistory.quiet ?_ rfl (by simp [BrokerEvent.finisher?])
        by_cases hid : id = uploadId
        · simp only [Broker.uploadAfter, if_pos hid]
          exact h.weaken (by simp)
        · simp only [Broker.uploadAfter, if_neg hid]
          exact h.swept
    | unregisterClient v deviceId conn =>
        refine UploadHistory.quiet ?_ rfl (by simp [BrokerEvent.finisher?])
        exact h.weaken fun _ he => (Option.filter_eq_some_iff.mp he).1
    | unregisterDesktop v conn =>
        refine UploadHistory.quiet ?_ rfl (by simp [BrokerEvent.finisher?])
        exact h.weaken fun _ he => (Option.filter_eq_some_iff.mp he).1
    | _ => exact UploadHistory.quiet h rfl (by simp [BrokerEvent.finisher?])
  · rw [Broker.upload?_exec_other hu]
    refine UploadHistory.quiet h ?_ ?_
    · exact chunk?_of_subject (e := ⟨now, call, _⟩) hu
    · simp [finisher?_of_subject (e := ⟨now, call, (b.exec now call).2⟩) hu]

end UploadHistory

namespace BrokerRun

/-- The history of every upload since the begin that was last accepted for it. -/
theorem upload_history {labels : List BrokerLabel} {s : BrokerRun} (hrun : Runs labels s)
    {u id : String} {size : Nat} {c : ConnId} {opening : BrokerEvent}
    {since before : List BrokerEvent} (hlog : s.log = since ++ opening :: before)
    (hopening : opening.opens? u id = some (size, c))
    (hlatest : forall e, e ∈ since -> e.opens? u id = none) :
    UploadHistory u id c size opening.now since (s.broker.upload? u id) := by
  refine runs_induction (motive := fun s => forall since before opening,
    s.log = since ++ opening :: before -> opening.opens? u id = some (size, c) ->
    (forall e, e ∈ since -> e.opens? u id = none) ->
    UploadHistory u id c size opening.now since (s.broker.upload? u id))
    ?_ ?_ ?_ hrun since before opening hlog hopening hlatest
  · intro since before opening hlog
    simp [init] at hlog
  · intro s now call ih _ since before opening hlog hopening hlatest
    cases since with
    | nil =>
        simp only [perform, List.nil_append, List.cons.injEq] at hlog
        rcases hlog with ⟨rfl, _⟩
        rcases Broker.size_le_of_opens? hopening with ⟨hsize, hupload⟩
        rw [show (s.perform now call).broker = (s.broker.exec now call).1 from rfl, hupload]
        exact UploadHistory.start hsize
    | cons e rest =>
        simp only [perform, List.cons_append, List.cons.injEq] at hlog
        rcases hlog with ⟨rfl, hrest⟩
        have hhistory := ih rest before opening hrest hopening
          fun e he => hlatest e (List.mem_cons_of_mem _ he)
        exact hhistory.operation now call (hlatest _ List.mem_cons_self)
  · intro s s' ih hquiet since before opening hlog
    rw [show s'.broker.upload? u id = s.broker.upload? u id from
      Broker.part_congr (hquiet.account u)]
    exact ih since before opening (hquiet.log ▸ hlog)

/--
What the relay promises about an upload of connection `c` with the given
declared size, `opened` at the time its begin was accepted, after the events
`since` then.  The last four parts speak about the entry while it exists, and
about any next operation.
-/
structure UploadGoverned (u id : String) (c : ConnId) (size : Nat) (opened : Instant)
    (since : List BrokerEvent) (s : BrokerRun) : Prop where
  forward_from_owner : forall later e earlier chunk, since = later ++ e :: earlier ->
    e.chunk? u id = some chunk -> chunk.decision = .forward ->
    chunk.conn = c ∧ ¬ FinishedBy u id c earlier
  size_limit : size ≤ maxUploadSize
  sum_within_size : forwardedBytes u id since ≤ size
  drop_after_overrun : forall later e earlier chunk, since = later ++ e :: earlier ->
    e.chunk? u id = some chunk -> Overran u id earlier -> chunk.decision = .drop
  removed_after_overrun : Overran u id since -> s.broker.upload? u id = none
  owner_chunk : forall entry now payload, s.broker.upload? u id = some entry ->
    ¬ FinishedBy u id c since ->
    elapsedSecs now (lastUploadActivity u id c opened since) < uploadIdleTimeoutSecs ->
    (s.broker.exec now (.recordUploadChunk u id c payload)).2 =
      if forwardedBytes u id since + payload.length ≤ size then .forward else .overrun
  counter_exact : forall entry payload, s.broker.upload? u id = some entry ->
    entry.bytesForwarded = forwardedBytes u id since ∧
      entry.bytesForwarded + Slice.length payload < 0x10000000000000000
  active_begin_refused : forall entry now size' c', s.broker.upload? u id = some entry ->
    elapsedSecs now (lastUploadActivity u id c opened since) < uploadIdleTimeoutSecs ->
    (s.broker.exec now (.beginUpload u id size' c')).2 ≠ .ok () ∧
      (s.broker.exec now (.beginUpload u id size' c')).1.upload? u id = some entry

/-- Every accepted upload is governed, whatever operations any connections make
since. -/
theorem upload_governed {labels : List BrokerLabel} {s : BrokerRun} {u id : String}
    {size : Nat} {c : ConnId} {opening : BrokerEvent} {since before : List BrokerEvent}
    (hrun : Runs labels s) (hlog : s.log = since ++ opening :: before)
    (hopening : opening.opens? u id = some (size, c))
    (hlatest : forall e, e ∈ since -> e.opens? u id = none) :
    UploadGoverned u id c size opening.now since s := by
  have h := upload_history hrun hlog hopening hlatest
  have hlive : forall entry now, s.broker.upload? u id = some entry ->
      elapsedSecs now (lastUploadActivity u id c opening.now since) <
        uploadIdleTimeoutSecs ->
      UploadEntry.swept now (s.broker.upload? u id) = some entry := by
    intro entry now hentry hactive
    rw [← h.activity_eq entry hentry] at hactive
    rw [hentry]
    exact Option.filter_eq_some_iff.mpr ⟨rfl, decide_eq_true hactive⟩
  exact
    { forward_from_owner := h.forwards
      size_limit := h.size_le
      sum_within_size := h.sum_le
      drop_after_overrun := h.drops
      removed_after_overrun := h.severed
      owner_chunk := by
        intro entry now payload hentry hopen hactive
        rw [Broker.exec_recordUploadChunk_reply]
        exact h.swept.chunkDecision_eq (hlive entry now hentry hactive) hopen payload
      counter_exact := by
        intro entry payload hentry
        have hsum := h.sum_le
        have hsize : size ≤ 25 * 1024 * 1024 := h.size_le
        have hpayload : payload.length < 0x8000000000000000 := payload.fits
        rw [h.counter_eq entry hentry]
        exact ⟨rfl, by omega⟩
      active_begin_refused := by
        intro entry now size' c' hentry hactive
        have hswept := hlive entry now hentry hactive
        have hrefused : (s.broker.exec now (.beginUpload u id size' c')).2 ≠ .ok () := by
          refine (s.broker.entry u).beginUpload_active id c' now (e := entry) ?_
          rw [Broker.upload?_of_entry]
          exact hswept
        refine ⟨hrefused, ?_⟩
        rw [Broker.upload?_exec rfl]
        simp only [Broker.uploadAfter, true_and]
        rw [if_neg hrefused, hswept] }

theorem upload_governed_example :
    UploadGoverned "user" "file" 1 10 0
      [event (perform init 0 (.beginUpload "user" "file" 10 1)) 5
        (.recordUploadChunk "user" "file" 1 ⟨[1, 2, 3], by decide⟩)]
      (perform (perform init 0 (.beginUpload "user" "file" 10 1)) 5
        (.recordUploadChunk "user" "file" 1 ⟨[1, 2, 3], by decide⟩)) :=
  have hrun : Runs [.call 0 (.beginUpload "user" "file" 10 1),
      .call 5 (.recordUploadChunk "user" "file" 1 ⟨[1, 2, 3], by decide⟩)] _ := rfl
  have hopening : (event init 0 (.beginUpload "user" "file" 10 1)).opens? "user" "file" =
      some (10, 1) := rfl
  upload_governed hrun rfl hopening (by simp [event, BrokerEvent.opens?])

end BrokerRun

end CommandRelay
