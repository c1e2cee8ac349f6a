import CommandRelay.Broker.Frames

/-!
# What one connection does to the others

An operation made for a connection leaves an account alone when it changes at most
the uploads that connection owns, and leaves the other connections alone when it
enqueues nothing to them.  For each operation of a desktop's frames this section
says exactly when it does.
-/

namespace CommandRelay

open Foundation

/-!
## Tables of uploads
-/

def SameOthers (c : ConnId) (t t' : Table String UploadEntry) : Prop :=
  forall id e, e.owner ≠ c -> (t'.lookup id = some e <-> t.lookup id = some e)

def LiveOthers (c : ConnId) (now : Instant) (t : Table String UploadEntry) : Prop :=
  forall id e, e.owner ≠ c -> t.lookup id = some e -> e.live now = true

def FreeOfOthers (c : ConnId) (id : String) (t : Table String UploadEntry) : Prop :=
  forall e, t.lookup id = some e -> e.owner = c

section

variable {c : ConnId} {t t' t'' : Table String UploadEntry} {now : Instant} {id : String}

theorem SameOthers.refl (t : Table String UploadEntry) : SameOthers c t t :=
  fun _ _ _ => Iff.rfl

theorem SameOthers.symm (h : SameOthers c t t') : SameOthers c t' t :=
  fun id e howner => (h id e howner).symm

theorem SameOthers.trans (h : SameOthers c t t') (h' : SameOthers c t' t'') :
    SameOthers c t t'' :=
  fun id e howner => (h' id e howner).trans (h id e howner)

theorem sameOthers_iff_of_right (h : SameOthers c t' t'') :
    SameOthers c t t'' <-> SameOthers c t t' :=
  ⟨fun h' => h'.trans h.symm, fun h' => h'.trans h⟩

theorem liveOthers_congr (h : SameOthers c t t') :
    LiveOthers c now t' <-> LiveOthers c now t := by
  constructor
  · intro hlive id e howner he
    exact hlive id e howner ((h id e howner).mpr he)
  · intro hlive id e howner he
    exact hlive id e howner ((h id e howner).mp he)

theorem freeOfOthers_congr (h : SameOthers c t t') :
    FreeOfOthers c id t' <-> FreeOfOthers c id t := by
  constructor
  · intro hfree e he
    by_contra howner
    exact howner (hfree e ((h id e howner).mpr he))
  · intro hfree e he
    by_contra howner
    exact howner (hfree e ((h id e howner).mp he))

theorem sameOthers_retain :
    SameOthers c t (t.retain (UploadEntry.live now)) <-> LiveOthers c now t := by
  constructor
  · intro h id e howner he
    exact (Table.lookup_retain_eq_some.mp ((h id e howner).mpr he)).2
  · intro h id e howner
    rw [Table.lookup_retain_eq_some]
    exact ⟨And.left, fun he => ⟨he, h id e howner he⟩⟩

theorem sameOthers_erase : SameOthers c t (t.erase id) <-> FreeOfOthers c id t := by
  constructor
  · intro h e he
    by_contra howner
    exact (Table.lookup_erase_eq_some.mp ((h id e howner).mpr he)).1 rfl
  · intro h id' e howner
    rw [Table.lookup_erase_eq_some]
    refine ⟨And.right, fun he => ⟨?_, he⟩⟩
    rintro rfl
    exact howner (h e he)

/-- A change in place of an entry that stays with its owner, made only when that is
the connection. -/
theorem sameOthers_modify {f : UploadEntry -> UploadEntry} (hfree : FreeOfOthers c id t)
    (howner : forall e, (f e).owner = e.owner) : SameOthers c t (t.modify id f) := by
  intro id' e he
  rw [Table.lookup_modify]
  by_cases hid : id' = id
  · subst hid
    cases hentry : t.lookup id' with
    | none => simp
    | some old =>
        have hold := hfree old hentry
        simp only [Option.map_some, if_pos, Option.some.injEq]
        constructor
        · rintro rfl
          exact absurd ((howner old).trans hold) he
        · rintro rfl
          exact absurd hold he
  · simp [hid]

theorem sameOthers_insert {e : UploadEntry} (howner : e.owner = c)
    (habsent : t.lookup id = none) : SameOthers c t (t.insert id e) := by
  intro id' e' he'
  rw [Table.lookup_insert_of_eq]
  by_cases hid : id' = id
  · subst hid
    rw [if_pos rfl, habsent]
    constructor
    · intro h
      cases h
      exact absurd howner he'
    · intro h
      cases h
  · rw [if_neg hid]

theorem sameOthers_retain_erase :
    SameOthers c t ((t.retain (UploadEntry.live now)).erase id) <->
      LiveOthers c now t ∧ FreeOfOthers c id t := by
  constructor
  · intro h
    have hkept : forall id' e, e.owner ≠ c -> t.lookup id' = some e ->
        id' ≠ id ∧ e.live now = true := by
      intro id' e howner he
      rcases Table.lookup_erase_eq_some.mp ((h id' e howner).mpr he) with ⟨hid, hretained⟩
      exact ⟨hid, (Table.lookup_retain_eq_some.mp hretained).2⟩
    refine ⟨fun id' e howner he => (hkept id' e howner he).2, fun e he => ?_⟩
    by_contra howner
    exact (hkept id e howner he).1 rfl
  · rintro ⟨hlive, hfree⟩
    have hretain := sameOthers_retain.mpr hlive
    exact hretain.trans (sameOthers_erase.mpr ((freeOfOthers_congr hretain).mpr hfree))

end

/-!
## Accounts
-/

namespace AccountState

/-- Two states of an account are the same but for the uploads of a connection. -/
structure SameBut (c : ConnId) (st st' : AccountState) : Prop where
  desktop : st'.desktopTx = st.desktopTx
  capabilities : st'.desktopCapabilities = st.desktopCapabilities
  uploads : SameOthers c st.uploads st'.uploads
  downloads : forall id, st'.downloads.lookup id = st.downloads.lookup id
  supervisor : forall id, st'.supervisorPending.lookup id = st.supervisorPending.lookup id
  clients : st'.clients = st.clients
  pending : st'.pendingDevices = st.pendingDevices
  queue : st'.replayQueue = st.replayQueue
  target : st'.replayTarget = st.replayTarget

section

variable {c : ConnId} {st st' st'' : AccountState}

theorem SameBut.refl (st : AccountState) : SameBut c st st :=
  ⟨rfl, rfl, SameOthers.refl _, fun _ => rfl, fun _ => rfl, rfl, rfl, rfl, rfl⟩

theorem SameBut.symm (h : SameBut c st st') : SameBut c st' st :=
  ⟨h.desktop.symm, h.capabilities.symm, h.uploads.symm, fun id => (h.downloads id).symm,
    fun id => (h.supervisor id).symm, h.clients.symm, h.pending.symm, h.queue.symm,
    h.target.symm⟩

theorem SameBut.trans (h : SameBut c st st') (h' : SameBut c st' st'') : SameBut c st st'' :=
  ⟨h'.desktop.trans h.desktop, h'.capabilities.trans h.capabilities,
    h.uploads.trans h'.uploads, fun id => (h'.downloads id).trans (h.downloads id),
    fun id => (h'.supervisor id).trans (h.supervisor id), h'.clients.trans h.clients,
    h'.pending.trans h.pending, h'.queue.trans h.queue, h'.target.trans h.target⟩

theorem sameBut_uploads (h : st' = { st with uploads := st'.uploads }) :
    SameBut c st st' <-> SameOthers c st.uploads st'.uploads := by
  constructor
  · exact SameBut.uploads
  · intro huploads
    rw [h]
    exact ⟨rfl, rfl, huploads, fun _ => rfl, fun _ => rfl, rfl, rfl, rfl, rfl⟩

theorem sameBut_downloads (h : st' = { st with downloads := st'.downloads }) :
    SameBut c st st' <-> forall id, st'.downloads.lookup id = st.downloads.lookup id := by
  constructor
  · exact SameBut.downloads
  · intro hdownloads
    rw [h]
    exact ⟨rfl, rfl, SameOthers.refl _, hdownloads, fun _ => rfl, rfl, rfl, rfl, rfl⟩

theorem sameBut_supervisor
    (h : st' = { st with supervisorPending := st'.supervisorPending }) :
    SameBut c st st' <->
      forall id, st'.supervisorPending.lookup id = st.supervisorPending.lookup id := by
  constructor
  · exact SameBut.supervisor
  · intro hsupervisor
    rw [h]
    exact ⟨rfl, rfl, SameOthers.refl _, fun _ => rfl, hsupervisor, rfl, rfl, rfl, rfl⟩

end

/-!
Each operation that the frames of a desktop lead to, and when it leaves the account
as it was.
-/

section

variable {c : ConnId} {st : AccountState} {id : String} {now : Instant}

theorem sameBut_beginUpload {size : Nat} :
    SameBut c st (st.beginUpload id size c now).1 <-> LiveOthers c now st.uploads := by
  rw [sameBut_uploads (st.beginUpload_frame id c now size), <- sameOthers_retain]
  apply sameOthers_iff_of_right
  unfold beginUpload
  by_cases hsize : maxUploadSize < size
  · simp only [if_pos hsize]
    exact SameOthers.refl _
  · by_cases hslots : maxActiveUploads ≤ (st.gcUploads now).uploads.size
    · simp only [if_neg hsize, if_pos hslots]
      exact SameOthers.refl _
    · by_cases hdup : ((st.gcUploads now).uploads.lookup id).isSome = true
      · simp only [if_neg hsize, if_neg hslots, if_pos hdup]
        exact SameOthers.refl _
      · simp only [if_neg hsize, if_neg hslots, if_neg hdup]
        exact sameOthers_insert rfl (Option.not_isSome_iff_eq_none.mp hdup)

theorem sameBut_markBugReportUpload : SameBut c st (st.markBugReportUpload id c) := by
  refine (sameBut_uploads rfl).mpr ?_
  intro id' e he
  show (st.uploads.modify id _).lookup id' = some e <-> _
  rw [Table.lookup_modify]
  cases hentry : st.uploads.lookup id' with
  | none => simp
  | some old =>
      by_cases hid : id' = id
      · by_cases hold : old.owner = c
        · simp only [Option.map_some, if_pos hid, if_pos hold, Option.some.injEq]
          constructor
          · rintro rfl
            exact absurd hold he
          · rintro rfl
            exact absurd hold he
        · simp [hid, hold]
      · simp [hid]

theorem sameBut_takeBugReportBuffer : SameBut c st (st.takeBugReportBuffer id c).1 := by
  refine (sameBut_uploads (st.takeBugReportBuffer_frame id c)).mpr ?_
  unfold takeBugReportBuffer
  cases hentry : st.uploads.lookup id with
  | none => exact SameOthers.refl _
  | some e =>
      by_cases hown : e.owner = c
      · simp only [if_pos hown]
        apply sameOthers_modify
        · intro e' he'
          rw [hentry] at he'
          cases he'
          exact hown
        · intro e'
          rfl
      · simp only [if_neg hown]
        exact SameOthers.refl _

theorem sameBut_recordUploadChunk {payload : Slice} :
    SameBut c st (st.recordUploadChunk id c payload now).1 <->
      LiveOthers c now st.uploads := by
  rw [sameBut_uploads (st.recordUploadChunk_frame id c now payload), <- sameOthers_retain]
  apply sameOthers_iff_of_right
  unfold recordUploadChunk
  simp only []
  cases hentry : (st.gcUploads now).uploads.lookup id with
  | none => exact SameOthers.refl _
  | some e =>
      by_cases hrejects : e.rejects c = true
      · simp only [if_pos hrejects]
        exact SameOthers.refl _
      · have hfree : FreeOfOthers c id (st.gcUploads now).uploads := by
          intro e' he'
          rw [hentry] at he'
          cases he'
          simp [UploadEntry.rejects] at hrejects
          exact hrejects.2
        by_cases hover : e.overruns payload now = true
        · simp only [if_neg hrejects, if_pos hover]
          exact sameOthers_erase.mpr hfree
        · simp only [if_neg hrejects, if_neg hover]
          exact sameOthers_modify hfree fun e' => rfl

theorem sameBut_resolveUpload :
    SameBut c st (st.resolveUpload id now).1 <->
      LiveOthers c now st.uploads ∧ FreeOfOthers c id st.uploads := by
  have hframe : (st.resolveUpload id now).1 =
      { st with uploads := (st.resolveUpload id now).1.uploads } := rfl
  rw [sameBut_uploads hframe]
  exact sameOthers_retain_erase

def LiveDownloads (now : Instant) (st : AccountState) : Prop :=
  forall id e, st.downloads.lookup id = some e -> e.live now = true

def LiveSupervisor (now : Instant) (st : AccountState) : Prop :=
  forall id e, st.supervisorPending.lookup id = some e -> e.live now = true

theorem sameBut_noteDownloadBegin {size : Nat} :
    SameBut c st (st.noteDownloadBegin id size now).1 <->
      st.LiveDownloads now ∧ forall e, st.downloads.lookup id = some e ->
        e.declaredSize = some size ∧ e.lastActivity = now := by
  have hframe : (st.noteDownloadBegin id size now).1 =
      { st with downloads := (st.noteDownloadBegin id size now).1.downloads } := rfl
  have hswept := @Table.lookup_swept_iff_of_fixed _ _ _ st.downloads
    (st.noteDownloadBegin id size now).1.downloads (DownloadEntry.live now) id
    (fun e => some { e with declaredSize := some size, lastActivity := now })
    (fun e => e.declaredSize = some size ∧ e.lastActivity = now)
    (by
      show (Table.modify id _ _).lookup id = _
      rw [Table.lookup_modify_same, Option.map_eq_bind]
      rfl)
    (fun id' hid => Table.lookup_modify_ne _ _ hid)
    (by
      intro e
      cases e
      simp [eq_comm])
  rw [sameBut_downloads hframe, hswept]
  rfl

theorem sameBut_resolveDownload :
    SameBut c st (st.resolveDownload id now).1 <->
      st.LiveDownloads now ∧ st.downloads.lookup id = none := by
  have hframe : (st.resolveDownload id now).1 =
      { st with downloads := (st.resolveDownload id now).1.downloads } := rfl
  have hswept := @Table.lookup_swept_iff _ _ _ st.downloads
    (st.resolveDownload id now).1.downloads (DownloadEntry.live now) id (fun _ => none)
    (by
      show (AList.erase id _).lookup id = _
      rw [AList.lookup_erase, Option.bind_fun_none])
    (fun id' hid => AList.lookup_erase_ne hid)
  rw [sameBut_downloads hframe, hswept, Option.eq_none_iff_forall_ne_some]
  apply and_congr_right
  intro _
  simp

theorem sameBut_recordDownloadChunk {payload : Slice} :
    SameBut c st (st.recordDownloadChunk id payload now).1 <->
      st.LiveDownloads now ∧ forall e, st.downloads.lookup id = some e ->
        e.overruns payload now = false ∧ e.received payload now = e := by
  have hswept := @Table.lookup_swept_iff_of_fixed _ _ _ st.downloads
    (st.recordDownloadChunk id payload now).1.downloads (DownloadEntry.live now) id
    (fun e => if e.overruns payload now then none else some (e.received payload now))
    (fun e => e.overruns payload now = false ∧ e.received payload now = e)
    (by
      unfold recordDownloadChunk
      simp only []
      show _ = ((st.gcDownloads now).downloads.lookup id).bind _
      cases hentry : (st.gcDownloads now).downloads.lookup id with
      | none => exact hentry
      | some e =>
          by_cases hover : e.overruns payload now = true
          · simp [hover]
          · simp [hover, Table.lookup_modify_same, hentry])
    (by
      intro id' hid
      unfold recordDownloadChunk
      simp only []
      show _ = (st.gcDownloads now).downloads.lookup id'
      cases hentry : (st.gcDownloads now).downloads.lookup id with
      | none => rfl
      | some e =>
          by_cases hover : e.overruns payload now = true
          · simp [hover, AList.lookup_erase_ne hid]
          · simp [hover, Table.lookup_modify_ne _ _ hid])
    (by
      intro e
      cases hover : e.overruns payload now with
      | true => simp
      | false => simp)
  rw [sameBut_downloads (st.recordDownloadChunk_frame id now payload), hswept]
  rfl

theorem sameBut_withReply {alive : ConnId -> Bool} {reply : ControlMessage} :
    SameBut c st (st.withReply alive id reply now) <->
      st.LiveSupervisor now ∧ forall e, st.supervisorPending.lookup id = some e ->
        alive e.owner = false ∧ e.stored = some reply := by
  have hswept := @Table.lookup_swept_iff_of_fixed _ _ _ st.supervisorPending
    (st.withReply alive id reply now).supervisorPending (SupervisorEntry.live now) id
    (fun e => if alive e.owner then none else some { e with stored := some reply })
    (fun e => alive e.owner = false ∧ e.stored = some reply)
    (by
      unfold withReply
      simp only []
      show _ = ((st.gcSupervisor now).supervisorPending.lookup id).bind _
      cases hentry : (st.gcSupervisor now).supervisorPending.lookup id with
      | none => exact hentry
      | some e =>
          by_cases halive : alive e.owner = true
          · simp [halive]
          · simp [halive, Table.lookup_modify_same, hentry])
    (by
      intro id' hid
      unfold withReply
      simp only []
      show _ = (st.gcSupervisor now).supervisorPending.lookup id'
      cases hentry : (st.gcSupervisor now).supervisorPending.lookup id with
      | none => rfl
      | some e =>
          by_cases halive : alive e.owner = true
          · simp [halive, AList.lookup_erase_ne hid]
          · simp [halive, Table.lookup_modify_ne _ _ hid])
    (by
      intro e
      cases halive : alive e.owner with
      | true => simp
      | false =>
          cases e
          simp [eq_comm])
  rw [sameBut_supervisor (st.withReply_frame id now alive reply), hswept]
  rfl

theorem sameBut_beginReplay :
    SameBut c st st.beginReplay <-> st.replayQueue = [] ∧ st.replayTarget = none := by
  constructor
  · intro h
    have hqueue : st.replayQueue.tail = st.replayQueue := h.queue
    have htarget : st.replayQueue.head? = st.replayTarget := h.target
    cases hlist : st.replayQueue with
    | nil =>
        rw [hlist] at htarget
        exact ⟨rfl, htarget.symm⟩
    | cons r rest =>
        rw [hlist] at hqueue
        exact absurd hqueue.symm (List.cons_ne_self _ _)
  · rintro ⟨hqueue, htarget⟩
    have hsame : st.beginReplay = st := by
      cases st
      cases hqueue
      cases htarget
      rfl
    rw [hsame]
    exact SameBut.refl st

theorem sameBut_endReplay : SameBut c st st.endReplay.1 <-> st.replayTarget = none := by
  constructor
  · intro h
    exact h.target.symm
  · intro htarget
    have hsame : st.endReplay.1 = st := by
      cases st
      cases htarget
      rfl
    rw [hsame]
    exact SameBut.refl st

theorem sameBut_unregisterDevice :
    SameBut c st (st.unregisterDevice id) <->
      (forall k, k ∈ st.clients -> k.info.deviceId ≠ id) ∧
        forall r, r ∈ st.replayQueue -> r.deviceId ≠ id := by
  constructor
  · intro h
    have hclients : st.clients.filter (fun k => !decide (k.info.deviceId = id)) =
        st.clients := h.clients
    have hqueue : st.replayQueue.filter (fun r => !decide (r.deviceId = id)) =
        st.replayQueue := h.queue
    rw [List.filter_eq_self] at hclients hqueue
    exact ⟨fun k hk => by simpa using hclients k hk, fun r hr => by simpa using hqueue r hr⟩
  · rintro ⟨hclients, hqueue⟩
    have hsame : st.unregisterDevice id = st := by
      have hclients := List.filter_eq_self.mpr (fun k hk => by
        simpa using hclients k hk : forall k, k ∈ st.clients ->
          (!decide (k.info.deviceId = id)) = true)
      have hqueue := List.filter_eq_self.mpr (fun r hr => by
        simpa using hqueue r hr : forall r, r ∈ st.replayQueue ->
          (!decide (r.deviceId = id)) = true)
      unfold unregisterDevice
      rw [hclients, hqueue]
    rw [hsame]
    exact SameBut.refl st

theorem takePendingDevice_none :
    (st.takePendingDevice id).2 = none <->
      forall p, p ∈ st.pendingDevices -> p.deviceId ≠ id := by
  unfold takePendingDevice
  cases hfound : st.pendingDevices.findIdx? fun p => p.deviceId = id with
  | none =>
      rw [List.findIdx?_eq_none_iff] at hfound
      simpa using hfound
  | some idx =>
      rcases List.findIdx?_eq_some_iff_getElem.mp hfound with ⟨hlt, hp, _⟩
      simp only [List.getElem?_eq_getElem hlt]
      constructor
      · intro h
        cases h
      · intro h
        exact absurd (of_decide_eq_true hp) (h _ (List.getElem_mem hlt))

theorem length_takePendingDevice {p : PendingDevice} (h : (st.takePendingDevice id).2 = some p) :
    (st.takePendingDevice id).1.pendingDevices.length < st.pendingDevices.length := by
  unfold takePendingDevice at h ⊢
  cases hfound : st.pendingDevices.findIdx? fun p => p.deviceId = id with
  | none => simp [hfound] at h
  | some idx =>
      rcases List.findIdx?_eq_some_iff_getElem.mp hfound with ⟨hlt, _, _⟩
      simp only [List.length_eraseIdx, if_pos hlt]
      omega

end

end AccountState

/-!
## Channels
-/

namespace Broker

/-- What has been enqueued for the connections other than this one, and the resync
tasks that wait for those of them that can still receive. -/
def others (c : ConnId) (b : Broker) : List (ConnId × WsMessage) × List ConnId :=
  (b.delivered.filter fun m => !decide (m.1 = c),
    b.nudges.filter fun tx => !decide (tx = c) && b.alive tx)

def Unheard (b : Broker) (c tx : ConnId) : Prop :=
  tx = c ∨ b.alive tx = false

/-- Live output sent to the connection is not heard by another than this one, and
sets off no resync task for it. -/
def Withheld (b : Broker) (c tx : ConnId) : Prop :=
  b.Unheard c tx ∨ (b.channels tx).dirty = true

/-- What the others have got only grows. -/
structure Grows (c : ConnId) (b b' : Broker) : Prop where
  alive : forall tx, b'.alive tx = b.alive tx
  delivered : (b.others c).1 <:+ (b'.others c).1
  nudges : (b.others c).2 <+: (b'.others c).2

section

variable {c tx : ConnId} {b b' b'' : Broker} {msg : WsMessage}

theorem others_trans_iff (h : Grows c b b') (h' : Grows c b' b'') :
    b''.others c = b.others c <-> b'.others c = b.others c ∧ b''.others c = b'.others c := by
  constructor
  · intro heq
    have hdelivered : (b'.others c).1 <:+ (b.others c).1 := heq ▸ h'.delivered
    have hnudges : (b'.others c).2 <+: (b.others c).2 := heq ▸ h'.nudges
    have hfirst : b'.others c = b.others c :=
      Prod.ext (hdelivered.eq_of_length_le h.delivered.length_le)
        (hnudges.eq_of_length_le h.nudges.length_le)
    exact ⟨hfirst, heq.trans hfirst.symm⟩
  · rintro ⟨hfirst, hsecond⟩
    exact hsecond.trans hfirst

theorem others_send :
    (b.send tx msg).1.others c =
      (if b.alive tx && !decide (tx = c) then (tx, msg) :: (b.others c).1
        else (b.others c).1, (b.others c).2) := by
  have halive := alive_send b tx msg
  simp only [others, delivered_send, nudges_send, halive]
  cases hlive : b.alive tx with
  | false => simp
  | true =>
      by_cases htx : tx = c
      · simp [htx]
      · simp [htx]

theorem others_send_iff :
    (b.send tx msg).1.others c = b.others c <-> b.Unheard c tx := by
  rw [others_send]
  unfold Unheard
  cases hlive : b.alive tx with
  | false => simp
  | true =>
      by_cases htx : tx = c
      · simp [htx]
      · simp [htx, Prod.ext_iff]

theorem grows_send : Grows c b (b.send tx msg).1 where
  alive := alive_send b tx msg
  delivered := by
    rw [others_send]
    by_cases h : (b.alive tx && !decide (tx = c)) = true
    · simp only [if_pos h]
      exact List.suffix_cons _ _
    · simp only [if_neg h]
      exact List.suffix_rfl
  nudges := by
    simp only [others_send]
    exact List.prefix_rfl

theorem others_outputTo_over (hdirty : (b.channels tx).dirty = false)
    (hover : (b.channels tx).overBudget msg = true) :
    (b.outputTo tx msg).others c =
      ((b.others c).1, if b.alive tx && !decide (tx = c) then (b.others c).2 ++ [tx]
        else (b.others c).2) := by
  have halive := alive_outputTo b tx msg
  have hnudges : (b.outputTo tx msg).nudges = b.nudges ++ [tx] := by
    simp [outputTo, sendOutput, hdirty, hover, setChannel]
  have hdelivered : (b.outputTo tx msg).delivered = b.delivered := by
    simp [outputTo, sendOutput, hdirty, hover, setChannel]
  refine Prod.ext (by simp only [others, hdelivered]) ?_
  simp only [others, hnudges, halive, List.filter_append]
  cases hlive : b.alive tx with
  | false => simp [hlive]
  | true =>
      by_cases htx : tx = c
      · simp [htx]
      · simp [hlive, htx]

theorem outputTo_dirty (hdirty : (b.channels tx).dirty = true) : b.outputTo tx msg = b := by
  simp [outputTo, sendOutput, hdirty]

theorem outputTo_send (hdirty : (b.channels tx).dirty = false)
    (hover : (b.channels tx).overBudget msg = false) :
    b.outputTo tx msg = (b.send tx msg).1 := by
  simp [outputTo, sendOutput, hdirty, hover]

theorem channels_send_ne {tx' : ConnId} (hne : tx' ≠ tx) :
    (b.send tx msg).1.channels tx' = b.channels tx' := by
  rw [send_frame]
  exact Function.update_of_ne hne _ _

theorem others_outputTo_iff :
    (b.outputTo tx msg).others c = b.others c <-> b.Withheld c tx := by
  unfold Withheld
  cases hdirty : (b.channels tx).dirty with
  | true => simp [outputTo_dirty hdirty]
  | false =>
      cases hover : (b.channels tx).overBudget msg with
      | false => simp [outputTo_send hdirty hover, others_send_iff]
      | true =>
          rw [others_outputTo_over hdirty hover]
          unfold Unheard
          cases hlive : b.alive tx with
          | false => simp
          | true =>
              by_cases htx : tx = c
              · simp [htx]
              · simp [htx, Prod.ext_iff]

theorem grows_outputTo : Grows c b (b.outputTo tx msg) where
  alive := alive_outputTo b tx msg
  delivered := by
    cases hdirty : (b.channels tx).dirty with
    | true =>
        simp only [outputTo_dirty hdirty]
        exact List.suffix_rfl
    | false =>
        cases hover : (b.channels tx).overBudget msg with
        | false =>
            rw [outputTo_send hdirty hover]
            exact grows_send.delivered
        | true =>
            simp only [others_outputTo_over hdirty hover]
            exact List.suffix_rfl
  nudges := by
    cases hdirty : (b.channels tx).dirty with
    | true =>
        simp only [outputTo_dirty hdirty]
        exact List.prefix_rfl
    | false =>
        cases hover : (b.channels tx).overBudget msg with
        | false =>
            rw [outputTo_send hdirty hover]
            exact grows_send.nudges
        | true =>
            rw [others_outputTo_over hdirty hover]
            by_cases h : (b.alive tx && !decide (tx = c)) = true
            · simp only [if_pos h]
              exact List.prefix_append _ _
            · simp only [if_neg h]
              exact List.prefix_rfl

theorem grows_relation : StepRelation (Grows c) where
  refl _ := ⟨fun _ => rfl, List.suffix_rfl, List.prefix_rfl⟩
  trans h h' :=
    ⟨fun tx => (h'.alive tx).trans (h.alive tx), h.delivered.trans h'.delivered,
      h.nudges.trans h'.nudges⟩
  put _ _ _ := ⟨fun _ => rfl, List.suffix_rfl, List.prefix_rfl⟩
  send _ _ _ := grows_send
  clearDirty b tx := by
    have halive : forall tx', (b.clearDirty tx).alive tx' = b.alive tx' :=
      fun tx' => alive_setChannel_same (by rfl) tx'
    refine ⟨halive, List.suffix_rfl, ?_⟩
    show b.nudges.filter _ <+: b.nudges.filter _
    simp only [halive]
    exact List.prefix_rfl
  outputTo _ _ _ := grows_outputTo

theorem others_sendAll_iff {txs : List ConnId} :
    (b.sendAll txs msg).others c = b.others c <-> forall tx, tx ∈ txs -> b.Unheard c tx := by
  induction txs generalizing b with
  | nil => simp [sendAll]
  | cons tx rest ih =>
      have hrest : Grows c _ _ :=
        grows_relation.toSendRelation.sendAll (b.send tx msg).1 rest msg
      show ((b.send tx msg).1.sendAll rest msg).others c = _ <-> _
      rw [others_trans_iff grows_send hrest, others_send_iff, ih, List.forall_mem_cons]
      simp only [Unheard, alive_send]

theorem others_broadcastOutput_iff {txs : List ConnId} :
    (b.broadcastOutput txs msg).others c = b.others c <->
      forall tx, tx ∈ txs -> b.Withheld c tx := by
  induction txs generalizing b with
  | nil => simp [broadcastOutput]
  | cons tx rest ih =>
      have hrest : Grows c _ _ := grows_relation.broadcastOutput (b.outputTo tx msg) rest msg
      show ((b.outputTo tx msg).broadcastOutput rest msg).others c = _ <-> _
      rw [others_trans_iff grows_outputTo hrest, others_outputTo_iff, ih,
        List.forall_mem_cons]
      apply and_congr_right
      intro hhead
      apply forall₂_congr
      intro tx' _
      by_cases htx : tx' = tx
      · subst htx
        have hafter : (b.outputTo tx' msg).Withheld c tx' := by
          rcases hhead with (hself | hdead) | hdirty
          · exact Or.inl (Or.inl hself)
          · exact Or.inl (Or.inr ((alive_outputTo b tx' msg tx').trans hdead))
          · rw [outputTo_dirty hdirty]
            exact Or.inr hdirty
        exact ⟨fun _ => hhead, fun _ => hafter⟩
      · have hchannel : (b.outputTo tx msg).channels tx' = b.channels tx' := by
          cases hdirty : (b.channels tx).dirty with
          | true => rw [outputTo_dirty hdirty]
          | false =>
              cases hover : (b.channels tx).overBudget msg with
              | false => rw [outputTo_send hdirty hover, channels_send_ne htx]
              | true => simp [outputTo, sendOutput, hdirty, hover, setChannel, htx]
        unfold Withheld Unheard
        rw [hchannel, alive_outputTo]

end

end Broker

end CommandRelay
