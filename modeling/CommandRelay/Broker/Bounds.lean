import CommandRelay.Broker.Downloads
import CommandRelay.Broker.Membership
import CommandRelay.Broker.Uploads

/-!
# Bounds of an account

Every table and list of an account is bounded, and an operation that a bound refuses
leaves the entries alone.
-/

namespace CommandRelay

open Foundation

/-- The sizes an account keeps to. -/
structure AccountState.Bounded (st : AccountState) : Prop where
  clients : st.clients.length ≤ maxClients
  uploads : st.uploads.size ≤ maxActiveUploads
  downloads : st.downloads.size ≤ maxActiveDownloads
  supervisor : st.supervisorPending.size ≤ maxPendingSupervisor
  queue : st.replayQueue.length ≤ maxReplayQueue

namespace AccountState

section

variable {st : AccountState} {alive : ConnId -> Bool} {now : Instant} {c : BrokerCall}

theorem bounded_new : AccountState.new.Bounded where
  clients := Nat.zero_le _
  uploads := Nat.zero_le _
  downloads := Nat.zero_le _
  supervisor := Nat.zero_le _
  queue := Nat.zero_le _

theorem length_joined {client : ClientConnection} {clients : List ClientConnection}
    (h : clients.length ≤ maxClients) : (joined client clients).length ≤ maxClients := by
  unfold joined
  by_cases hmem : client.tx ∈ clients.map ClientConnection.tx
  · rw [if_pos hmem, ← List.length_map ClientConnection.tx, map_tx_replaceClient, List.length_map]
    exact h
  · rw [if_neg hmem]
    by_cases hfull : maxClients ≤ clients.length
    · rw [if_pos hfull]
      exact h
    · rw [if_neg hfull, List.length_append]
      exact Nat.lt_of_not_le hfull

theorem length_clientsAfter {clients : List ClientConnection} (h : clients.length ≤ maxClients) :
    (clientsAfter c clients).length ≤ maxClients := by
  cases c
  case registerClient v tx info => exact length_joined h
  case unregisterClient v d conn => exact Nat.le_trans (List.length_filter_le _ _) h
  case unregisterDevice v d => exact Nat.le_trans (List.length_filter_le _ _) h
  all_goals exact h

theorem size_uploads_after (h : st.uploads.size ≤ maxActiveUploads) :
    (st.after alive now c).uploads.size ≤ maxActiveUploads := by
  have hkept : AccountPart.uploads ∉ c.touches ->
        (st.after alive now c).uploads.size ≤ maxActiveUploads :=
    fun htouch => Nat.le_trans
      (Nat.le_of_eq (congrArg Table.size (st.after_agree .uploads alive now htouch))) h
  have hgc : (st.gcUploads now).uploads.size ≤ maxActiveUploads :=
    Nat.le_trans (Table.size_retain_le _ _) h
  cases c
  case beginUpload v id size conn =>
      show (st.beginUpload id size conn now).1.uploads.size ≤ maxActiveUploads
      unfold beginUpload
      simp only []
      split
      · exact hgc
      · split
        · exact hgc
        · rename_i hroom
          split
          · exact hgc
          · exact Nat.le_trans (Table.size_insert_le _ _) (Nat.lt_of_not_le hroom)
  case markBugReportUpload v id conn =>
      show (st.markBugReportUpload id conn).uploads.size ≤ maxActiveUploads
      exact Nat.le_trans (Nat.le_of_eq (Table.size_modify _ _)) h
  case takeBugReportBuffer v id conn =>
      show (st.takeBugReportBuffer id conn).1.uploads.size ≤ maxActiveUploads
      unfold takeBugReportBuffer
      split
      · exact h
      · split
        · exact Nat.le_trans (Nat.le_of_eq (Table.size_modify _ _)) h
        · exact h
  case recordUploadChunk v id conn payload =>
      show (st.recordUploadChunk id conn payload now).1.uploads.size ≤ maxActiveUploads
      unfold recordUploadChunk
      simp only []
      split
      · exact hgc
      · split
        · exact hgc
        · split
          · exact Nat.le_trans (Table.size_erase_le _) hgc
          · exact Nat.le_trans (Nat.le_of_eq (Table.size_modify _ _)) hgc
  case finishUpload v id conn =>
      exact Nat.le_trans (Nat.le_of_eq (Table.size_modify _ _)) hgc
  case resolveUpload v id => exact Nat.le_trans (Table.size_erase_le _) hgc
  case unregisterClient v d conn => exact Nat.le_trans (Table.size_retain_le _ _) h
  case unregisterDesktop v conn =>
      show (st.withoutDesktop conn).uploads.size ≤ maxActiveUploads
      unfold withoutDesktop
      simp only []
      split <;> exact Nat.le_trans (Table.size_retain_le _ _) h
  all_goals exact hkept (by simp [BrokerCall.touches])

theorem size_downloads_after (h : st.downloads.size ≤ maxActiveDownloads) :
    (st.after alive now c).downloads.size ≤ maxActiveDownloads := by
  have hkept : AccountPart.downloads ∉ c.touches ->
        (st.after alive now c).downloads.size ≤ maxActiveDownloads :=
    fun htouch => Nat.le_trans
      (Nat.le_of_eq (congrArg Table.size (st.after_agree .downloads alive now htouch))) h
  have hgc : (st.gcDownloads now).downloads.size ≤ maxActiveDownloads :=
    Nat.le_trans (Table.size_retain_le _ _) h
  cases c
  case registerDownload v id conn =>
      show (st.registerDownload id conn now).1.downloads.size ≤ maxActiveDownloads
      unfold registerDownload
      simp only []
      split
      · exact hgc
      · rename_i hroom
        exact Nat.le_trans (Table.size_insert_le _ _) (Nat.lt_of_not_le hroom)
  case noteDownloadBegin v id size =>
      exact Nat.le_trans (Nat.le_of_eq (Table.size_modify _ _)) hgc
  case recordDownloadChunk v id payload =>
      show (st.recordDownloadChunk id payload now).1.downloads.size ≤ maxActiveDownloads
      unfold recordDownloadChunk
      simp only []
      split
      · exact hgc
      · split
        · exact Nat.le_trans (Table.size_erase_le _) hgc
        · exact Nat.le_trans (Nat.le_of_eq (Table.size_modify _ _)) hgc
  case resolveDownload v id => exact Nat.le_trans (Table.size_erase_le _) hgc
  case unregisterClient v d conn => exact Nat.le_trans (Table.size_retain_le _ _) h
  all_goals exact hkept (by simp [BrokerCall.touches])

theorem size_supervisor_after (h : st.supervisorPending.size ≤ maxPendingSupervisor) :
    (st.after alive now c).supervisorPending.size ≤ maxPendingSupervisor := by
  have hkept : AccountPart.supervisor ∉ c.touches ->
        (st.after alive now c).supervisorPending.size ≤ maxPendingSupervisor :=
    fun htouch => Nat.le_trans
      (Nat.le_of_eq (congrArg Table.size (st.after_agree .supervisor alive now htouch))) h
  have hgc : (st.gcSupervisor now).supervisorPending.size ≤ maxPendingSupervisor :=
    Nat.le_trans (Table.size_retain_le _ _) h
  cases c
  case beginSupervisorQuery v id conn =>
      show (st.beginSupervisorQuery id conn now).1.supervisorPending.size ≤ maxPendingSupervisor
      unfold beginSupervisorQuery
      simp only []
      split
      · split
        · exact Nat.le_trans (Table.size_erase_le _) hgc
        · exact Nat.le_trans (Nat.le_of_eq (Table.size_modify _ _)) hgc
      · split
        · exact hgc
        · rename_i hroom
          exact Nat.le_trans (Table.size_insert_le _ _) (Nat.lt_of_not_le hroom)
  case resolveSupervisor v id reply =>
      show (st.withReply alive id reply now).supervisorPending.size ≤ maxPendingSupervisor
      unfold withReply
      simp only []
      split
      · exact hgc
      · split
        · exact Nat.le_trans (Table.size_erase_le _) hgc
        · exact Nat.le_trans (Nat.le_of_eq (Table.size_modify _ _)) hgc
  all_goals exact hkept (by simp [BrokerCall.touches])

theorem length_queue_after (h : st.replayQueue.length ≤ maxReplayQueue) :
    (st.after alive now c).replayQueue.length ≤ maxReplayQueue := by
  have hkept : AccountPart.replay ∉ c.touches ->
      (st.after alive now c).replayQueue.length ≤ maxReplayQueue :=
    fun htouch => Nat.le_trans (Nat.le_of_eq (congrArg (fun p => p.1.length)
      (st.after_agree .replay alive now htouch))) h
  cases c
  case registerDesktop v tx capabilities => exact Nat.zero_le _
  case unregisterDesktop v conn =>
      show (st.withoutDesktop conn).replayQueue.length ≤ maxReplayQueue
      unfold withoutDesktop
      simp only []
      split
      · exact h
      · exact Nat.zero_le _
  case unregisterClient v d conn => exact Nat.le_trans (List.length_filter_le _ _) h
  case unregisterDevice v d => exact Nat.le_trans (List.length_filter_le _ _) h
  case noteSessionListRequest v d conn =>
      show (st.queueReplay d conn).replayQueue.length ≤ maxReplayQueue
      unfold queueReplay
      by_cases hroom : st.replayQueue.length < maxReplayQueue
      · rw [if_pos hroom]
        show (st.replayQueue ++ [_]).length ≤ maxReplayQueue
        rw [List.length_append]
        exact hroom
      · rw [if_neg hroom]
        exact h
  case beginReplay v =>
      show st.replayQueue.tail.length ≤ maxReplayQueue
      rw [List.length_tail]
      exact Nat.le_trans (Nat.sub_le _ _) h
  case endReplay v => exact h
  all_goals exact hkept (by simp [BrokerCall.touches])

theorem bounded_after (h : st.Bounded) : (st.after alive now c).Bounded where
  clients := by
    rw [clients_after]
    exact length_clientsAfter h.clients
  uploads := size_uploads_after h.uploads
  downloads := size_downloads_after h.downloads
  supervisor := size_supervisor_after h.supervisor
  queue := length_queue_after h.queue

end

end AccountState

namespace Broker

theorem bounded_exec {b : Broker} {now : Instant} {c : BrokerCall}
    (h : forall u st, b.account u = some st -> st.Bounded) {u : String} {st : AccountState}
    (hst : (b.exec now c).1.account u = some st) : st.Bounded := by
  by_cases hu : c.subject? = some u
  · rw [account_exec_subject hu] at hst
    by_cases hcreates : c.creates = true
    · rw [if_pos hcreates] at hst
      cases hst
      refine AccountState.bounded_after ?_
      unfold entry
      cases hold : b.account u with
      | none => exact AccountState.bounded_new
      | some old => exact h u old hold
    · rw [if_neg hcreates] at hst
      rcases Option.map_eq_some_iff.mp hst with ⟨old, hold, rfl⟩
      exact AccountState.bounded_after (h u old hold)
  · rw [account_exec_other hu] at hst
    exact h u st hst

end Broker

/-!
## Reachable states
-/

namespace BrokerRun

/-- A state that the broker's operations lead to, with background steps between them. -/
inductive Reachable : BrokerRun -> Prop where
  | init : Reachable init
  | step {s s' l} (hs : Reachable s) (hstep : step s l = some s') : Reachable s'
  | shutdown {s} (hs : Reachable s) :
      Reachable { s with broker := s.broker.broadcastShutdown }

theorem reachable_of_runs {labels : List BrokerLabel} {s : BrokerRun} (hrun : Runs labels s) :
    Reachable s :=
  follow_invariant (motive := Reachable) (fun _ _ _ hs _ hstep => .step hs hstep) .init hrun
    (admits_of_forall (fun _ _ => trivial) init labels :
      Admits BrokerRun.step (fun _ _ => True) init labels)

/-- What holds at the start, and is kept by every operation and by what leaves the accounts
and the log alone, holds in every reachable state. -/
theorem reachable_induction {motive : BrokerRun -> Prop} (hinit : motive init)
    (hcall : forall s now c, Reachable s -> s.clock ≤ now -> motive s -> motive (s.perform now c))
    (hsame : forall s s', motive s -> (forall u, s'.broker.account u = s.broker.account u) ->
      s'.log = s.log -> motive s')
    {s : BrokerRun} (hs : Reachable s) : motive s := by
  induction hs with
  | init => exact hinit
  | step hs hstep ih =>
      rcases step_cases hstep with ⟨now, c, _, hclock, rfl⟩ | hquiet
      · exact hcall _ now c hs hclock ih
      · exact hsame _ _ ih hquiet.account hquiet.log
  | shutdown hs ih => exact hsame _ _ ih (fun u => Broker.account_broadcastShutdown _ u) rfl

/-- The bytes that an entry has forwarded were within its budget when its last chunk was
accepted; none has been accepted since. -/
inductive WithinBudget {α : Type} (accepts : BrokerEvent -> Bool) (entryOf : Broker -> Option α)
    (forwarded budget : α -> Nat) (log : List BrokerEvent) (e : α) : Prop where
  | unused (h : forwarded e = 0)
  | chunk {r now c since last} (hr : Reachable r) (hclock : r.clock ≤ now)
      (hlog : log = since ++ (r.perform now c).log) (haccepts : accepts (r.event now c) = true)
      (hsince : forall f, f ∈ since -> accepts f = false)
      (hlast : entryOf (r.perform now c).broker = some last)
      (hsame : forwarded e = forwarded last) (hbudget : forwarded last ≤ budget last)

/-- What one operation does to an entry: it is new, a chunk for it has been accepted, or
what it has forwarded stays. -/
inductive Moved {α : Type} (forwarded budget : α -> Nat) (sound : α -> Prop) (old : Option α)
    (accepted : Bool) (e : α) : Prop where
  | opened (hsound : sound e) (hforwarded : forwarded e = 0)
  | chunk {o} (hold : old = some o) (hsound : sound o -> sound e) (haccepted : accepted = true)
      (hbudget : forwarded e ≤ budget e)
  | kept {o} (hold : old = some o) (hsound : sound o -> sound e) (haccepted : accepted = false)
      (hforwarded : forwarded e = forwarded o)

/-- Entries that every operation moves in this way. -/
structure Tracked {α : Type} (accepts : BrokerEvent -> Bool) (entryOf : Broker -> Option α)
    (forwarded budget : α -> Nat) (sound : α -> Prop) : Prop where
  congr : forall {b b'}, (forall u, b'.account u = b.account u) -> entryOf b' = entryOf b
  start : entryOf Broker.new = none
  moved : forall {b now c e}, entryOf (b.exec now c).1 = some e ->
    Moved forwarded budget sound (entryOf b) (accepts ⟨now, c, (b.exec now c).2⟩) e

theorem Tracked.within {α : Type} {accepts : BrokerEvent -> Bool} {entryOf : Broker -> Option α}
    {forwarded budget : α -> Nat} {sound : α -> Prop}
    (h : Tracked accepts entryOf forwarded budget sound) {s : BrokerRun} (hs : Reachable s) {e : α}
    (he : entryOf s.broker = some e) :
    sound e ∧ WithinBudget accepts entryOf forwarded budget s.log e := by
  refine reachable_induction (motive := fun s => forall e, entryOf s.broker = some e ->
    sound e ∧ WithinBudget accepts entryOf forwarded budget s.log e) ?_ ?_ ?_ hs e he
  · intro e he
    rw [show (init.broker : Broker) = Broker.new from rfl, h.start] at he
    cases he
  · intro s now c hs hclock ih e he
    cases h.moved he with
    | opened hsound hforwarded => exact ⟨hsound, .unused hforwarded⟩
    | chunk hold hsound haccepted hbudget =>
        have hlog : (s.perform now c).log = [] ++ (s.perform now c).log := rfl
        exact ⟨hsound (ih _ hold).1,
          .chunk hs hclock hlog haccepted (fun _ hf => by cases hf) he rfl hbudget⟩
    | kept hold hsound haccepted hforwarded =>
        rcases ih _ hold with ⟨hsoundOld, hwithin⟩
        refine ⟨hsound hsoundOld, ?_⟩
        cases hwithin with
        | unused hzero => exact .unused (hforwarded.trans hzero)
        | chunk hr hrclock hlog haccepts hsince hlast hsame hbudget =>
            rename_i r t op since last
            have hnew : (s.perform now c).log =
                (s.event now c :: since) ++ (r.perform t op).log := congrArg (_ :: ·) hlog
            refine .chunk hr hrclock hnew haccepts ?_ hlast (hforwarded.trans hsame) hbudget
            intro f hf
            rcases List.mem_cons.mp hf with rfl | hin
            · exact haccepted
            · exact hsince f hin
  · intro s s' ih haccount hlog e he
    rw [h.congr haccount] at he
    rw [hlog]
    exact ih e he

end BrokerRun

/-!
## Transfers
-/

namespace BrokerEvent

def acceptsUpload (u id : String) : BrokerEvent -> Bool
  | ⟨_, .recordUploadChunk v uploadId _ _, .forward⟩ => decide (v = u ∧ uploadId = id)
  | _ => false

def acceptsDownload (u id : String) : BrokerEvent -> Bool
  | ⟨_, .recordDownloadChunk v downloadId _, .forward _⟩ => decide (v = u ∧ downloadId = id)
  | _ => false

theorem acceptsUpload_of_ne {u id v uploadId : String} {conn : ConnId} {payload : Slice}
    {now : Instant} {r : ChunkDecision} (h : ¬ (v = u ∧ uploadId = id)) :
    acceptsUpload u id ⟨now, .recordUploadChunk v uploadId conn payload, r⟩ = false := by
  cases r <;> simp [acceptsUpload, h]

theorem acceptsDownload_of_ne {u id v downloadId : String} {payload : Slice} {now : Instant}
    {r : DownloadChunkDecision} (h : ¬ (v = u ∧ downloadId = id)) :
    acceptsDownload u id ⟨now, .recordDownloadChunk v downloadId payload, r⟩ = false := by
  cases r <;> simp [acceptsDownload, h]

end BrokerEvent

namespace BrokerRun

theorem Moved.same {α : Type} {forwarded budget : α -> Nat} {sound : α -> Prop} {old : Option α}
    {accepted : Bool} {e : α} (hold : old = some e) (haccepted : accepted = false) :
    Moved forwarded budget sound old accepted e :=
  .kept hold (fun hsound => hsound) haccepted rfl

theorem upload_moved {u id : String} {b : Broker} {now : Instant} {c : BrokerCall}
    {e : UploadEntry} (h : (b.exec now c).1.upload? u id = some e) :
    Moved UploadEntry.bytesForwarded UploadEntry.budget (fun e => e.declaredSize ≤ maxUploadSize)
      (b.upload? u id) (BrokerEvent.acceptsUpload u id ⟨now, c, (b.exec now c).2⟩) e := by
  by_cases hu : c.subject? = some u
  · rw [Broker.upload?_exec hu] at h
    have hswept : forall {o}, UploadEntry.swept now (b.upload? u id) = some o ->
        b.upload? u id = some o := fun hold => (Option.filter_eq_some_iff.mp hold).1
    cases c
    case beginUpload v uploadId size conn =>
        cases hu
        by_cases hnew : id = uploadId ∧ (b.exec now (.beginUpload u uploadId size conn)).2 = .ok ()
        · simp only [Broker.uploadAfter, if_pos hnew, Option.some.injEq] at h
          subst h
          exact .opened ((b.entry u).beginUpload_ok_size uploadId conn now hnew.2) rfl
        · simp only [Broker.uploadAfter, if_neg hnew] at h
          exact .same (hswept h) rfl
    case markBugReportUpload v uploadId conn =>
        by_cases hid : id = uploadId
        · simp only [Broker.uploadAfter, if_pos hid] at h
          rcases Option.map_eq_some_iff.mp h with ⟨old, hold, rfl⟩
          unfold UploadEntry.marked
          split
          · exact .kept hold (fun hsound => hsound) rfl rfl
          · exact .same hold rfl
        · simp only [Broker.uploadAfter, if_neg hid] at h
          exact .same h rfl
    case takeBugReportBuffer v uploadId conn =>
        by_cases hid : id = uploadId
        · simp only [Broker.uploadAfter, if_pos hid] at h
          rcases Option.map_eq_some_iff.mp h with ⟨old, hold, rfl⟩
          unfold UploadEntry.taken
          split
          · exact .kept hold (fun hsound => hsound) rfl rfl
          · exact .same hold rfl
        · simp only [Broker.uploadAfter, if_neg hid] at h
          exact .same h rfl
    case recordUploadChunk v uploadId conn payload =>
        cases hu
        rw [Broker.exec_recordUploadChunk_reply]
        by_cases hid : id = uploadId
        · subst hid
          simp only [Broker.uploadAfter, if_true] at h
          cases hlive : UploadEntry.swept now (b.upload? u id) with
          | none =>
              rw [hlive] at h
              cases h
          | some old =>
              rw [hlive] at h
              simp only [UploadEntry.afterChunk] at h
              by_cases hrejects : old.rejects conn = true
              · rw [if_pos hrejects] at h
                cases h
                refine .same (hswept hlive) ?_
                simp [BrokerEvent.acceptsUpload, UploadEntry.chunkDecision, hrejects]
              · rw [if_neg hrejects] at h
                by_cases hover : old.overruns payload now = true
                · rw [if_pos hover] at h
                  cases h
                · rw [if_neg hover] at h
                  cases h
                  refine .chunk (hswept hlive) (fun hsound => hsound) ?_
                    (Nat.le_of_not_lt fun hlt => hover (decide_eq_true hlt))
                  simp [BrokerEvent.acceptsUpload, UploadEntry.chunkDecision, hrejects, hover]
        · simp only [Broker.uploadAfter, if_neg hid] at h
          exact .same (hswept h) (BrokerEvent.acceptsUpload_of_ne fun hall => hid hall.2.symm)
    case finishUpload v uploadId conn =>
        by_cases hid : id = uploadId
        · simp only [Broker.uploadAfter, if_pos hid] at h
          rcases Option.map_eq_some_iff.mp h with ⟨old, hold, rfl⟩
          unfold UploadEntry.finishedAt
          split
          · exact .kept (hswept hold) (fun hsound => hsound) rfl rfl
          · exact .same (hswept hold) rfl
        · simp only [Broker.uploadAfter, if_neg hid] at h
          exact .same (hswept h) rfl
    case resolveUpload v uploadId =>
        by_cases hid : id = uploadId
        · simp only [Broker.uploadAfter, if_pos hid] at h
          cases h
        · simp only [Broker.uploadAfter, if_neg hid] at h
          exact .same (hswept h) rfl
    case unregisterClient v d conn => exact .same (Option.filter_eq_some_iff.mp h).1 rfl
    case unregisterDesktop v conn => exact .same (Option.filter_eq_some_iff.mp h).1 rfl
    all_goals exact .same h rfl
  · rw [Broker.upload?_exec_other hu] at h
    refine .same h ?_
    cases c
    case recordUploadChunk v uploadId conn payload =>
        exact BrokerEvent.acceptsUpload_of_ne fun hall => hu (congrArg some hall.1)
    all_goals rfl

theorem download_moved {u id : String} {b : Broker} {now : Instant} {c : BrokerCall}
    {e : DownloadEntry} (h : (b.exec now c).1.download? u id = some e) :
    Moved DownloadEntry.bytesForwarded DownloadEntry.budget (fun _ => True)
      (b.download? u id) (BrokerEvent.acceptsDownload u id ⟨now, c, (b.exec now c).2⟩) e := by
  by_cases hu : c.subject? = some u
  · rw [Broker.download?_exec hu] at h
    have hswept : forall {o}, DownloadEntry.swept now (b.download? u id) = some o ->
        b.download? u id = some o := fun hold => (Option.filter_eq_some_iff.mp hold).1
    cases c
    case registerDownload v downloadId conn =>
        by_cases hnew : id = downloadId ∧
            (b.exec now (.registerDownload v downloadId conn)).2 = .ok ()
        · simp only [Broker.downloadAfter, if_pos hnew, Option.some.injEq] at h
          subst h
          exact .opened trivial rfl
        · simp only [Broker.downloadAfter, if_neg hnew] at h
          exact .same (hswept h) rfl
    case noteDownloadBegin v downloadId size =>
        by_cases hid : id = downloadId
        · simp only [Broker.downloadAfter, if_pos hid] at h
          rcases Option.map_eq_some_iff.mp h with ⟨old, hold, rfl⟩
          exact .kept (hswept hold) (fun _ => trivial) rfl rfl
        · simp only [Broker.downloadAfter, if_neg hid] at h
          exact .same (hswept h) rfl
    case recordDownloadChunk v downloadId payload =>
        cases hu
        rw [Broker.exec_recordDownloadChunk_decision]
        by_cases hid : id = downloadId
        · subst hid
          simp only [Broker.downloadAfter, if_true] at h
          cases hlive : DownloadEntry.swept now (b.download? u id) with
          | none =>
              rw [hlive] at h
              cases h
          | some old =>
              rw [hlive] at h
              simp only [DownloadEntry.afterChunk] at h
              by_cases hover : old.overruns payload now = true
              · rw [if_pos hover] at h
                cases h
              · rw [if_neg hover] at h
                cases h
                refine .chunk (hswept hlive) (fun _ => trivial) ?_
                  (Nat.le_of_not_lt fun hlt => hover (decide_eq_true hlt))
                simp [BrokerEvent.acceptsDownload, DownloadEntry.chunkDecision, hover]
        · simp only [Broker.downloadAfter, if_neg hid] at h
          exact .same (hswept h) (BrokerEvent.acceptsDownload_of_ne fun hall => hid hall.2.symm)
    case resolveDownload v downloadId =>
        by_cases hid : id = downloadId
        · simp only [Broker.downloadAfter, if_pos hid] at h
          cases h
        · simp only [Broker.downloadAfter, if_neg hid] at h
          exact .same (hswept h) rfl
    case unregisterClient v d conn => exact .same (Option.filter_eq_some_iff.mp h).1 rfl
    all_goals exact .same h rfl
  · rw [Broker.download?_exec_other hu] at h
    refine .same h ?_
    cases c
    case recordDownloadChunk v downloadId payload =>
        exact BrokerEvent.acceptsDownload_of_ne fun hall => hu (congrArg some hall.1)
    all_goals rfl

theorem upload_tracked (u id : String) :
    Tracked (BrokerEvent.acceptsUpload u id) (fun b => b.upload? u id)
      UploadEntry.bytesForwarded UploadEntry.budget fun e => e.declaredSize ≤ maxUploadSize where
  congr := fun h => Broker.part_congr (h u)
  start := rfl
  moved := upload_moved

theorem download_tracked (u id : String) :
    Tracked (BrokerEvent.acceptsDownload u id) (fun b => b.download? u id)
      DownloadEntry.bytesForwarded DownloadEntry.budget fun _ => True where
  congr := fun h => Broker.part_congr (h u)
  start := rfl
  moved := download_moved

end BrokerRun

/-!
## Refusals
-/

namespace AccountState

section

variable {st : AccountState} {id : String} {conn : ConnId} {now : Instant}

theorem beginUpload_refused {size : Nat} {reason : String}
    (h : (st.beginUpload id size conn now).2 = .error reason) :
    (st.beginUpload id size conn now).1 = st.gcUploads now ∧
      (reason = "too_many_uploads" -> maxActiveUploads ≤ (st.gcUploads now).uploads.size) := by
  unfold beginUpload at h ⊢
  by_cases hsize : maxUploadSize < size
  · simp only [if_pos hsize] at h ⊢
    cases h
    exact ⟨trivial, fun hreason => absurd hreason (by decide)⟩
  · by_cases hfull : maxActiveUploads ≤ (st.gcUploads now).uploads.size
    · simp only [if_neg hsize, if_pos hfull]
      exact ⟨trivial, fun _ => hfull⟩
    · by_cases hdup : ((st.gcUploads now).uploads.lookup id).isSome = true
      · simp only [if_neg hsize, if_neg hfull, if_pos hdup] at h ⊢
        cases h
        exact ⟨trivial, fun hreason => absurd hreason (by decide)⟩
      · simp only [if_neg hsize, if_neg hfull, if_neg hdup] at h
        cases h

theorem registerDownload_refused {reason : String}
    (h : (st.registerDownload id conn now).2 = .error reason) :
    (st.registerDownload id conn now).1 = st.gcDownloads now ∧
      maxActiveDownloads ≤ (st.gcDownloads now).downloads.size := by
  unfold registerDownload at h ⊢
  by_cases hfull : maxActiveDownloads ≤ (st.gcDownloads now).downloads.size
  · simp only [if_pos hfull]
    exact ⟨trivial, hfull⟩
  · simp only [if_neg hfull] at h
    cases h

theorem beginSupervisorQuery_refused (h : (st.beginSupervisorQuery id conn now).2 = .capacity) :
    (st.beginSupervisorQuery id conn now).1 = st.gcSupervisor now ∧
      maxPendingSupervisor ≤ (st.gcSupervisor now).supervisorPending.size := by
  unfold beginSupervisorQuery at h ⊢
  cases hentry : (st.gcSupervisor now).supervisorPending.lookup id with
  | some entry =>
      cases hstored : entry.stored <;> simp [hentry, hstored] at h
  | none =>
      by_cases hfull : maxPendingSupervisor ≤ (st.gcSupervisor now).supervisorPending.size
      · simp only [hentry, if_pos hfull]
        exact ⟨trivial, hfull⟩
      · simp [hentry, hfull] at h

end

end AccountState

namespace Broker

/-- The account is as given, and every other account as it was. -/
structure LeavesAt (b b' : Broker) (u : String) (st : AccountState) : Prop where
  account : b'.account u = some st
  others : forall v, v ≠ u -> b'.account v = b.account v

/-- An operation that is refused for a limit sweeps its own table of expired entries and
changes nothing else; a full table is full of live entries. -/
structure RefusesCleanly (b : Broker) : Prop where
  upload : forall {now u id size conn reason},
    (b.exec now (.beginUpload u id size conn)).2 = .error reason ->
      LeavesAt b (b.exec now (.beginUpload u id size conn)).1 u
        { b.entry u with uploads := (b.entry u).uploads.retain (UploadEntry.live now) } ∧
      (reason = "too_many_uploads" ->
        maxActiveUploads ≤ (b.entry u).uploads.entries.countP fun e =>
          elapsedSecs now e.2.lastActivity < uploadIdleTimeoutSecs)
  download : forall {now u id conn reason},
    (b.exec now (.registerDownload u id conn)).2 = .error reason ->
      LeavesAt b (b.exec now (.registerDownload u id conn)).1 u
        { b.entry u with downloads := (b.entry u).downloads.retain (DownloadEntry.live now) } ∧
      maxActiveDownloads ≤ (b.entry u).downloads.entries.countP fun e =>
        elapsedSecs now e.2.lastActivity < uploadIdleTimeoutSecs
  client : forall {now u conn info error},
    (b.exec now (.registerClient u conn info)).2 = .error error ->
      LeavesAt b (b.exec now (.registerClient u conn info)).1 u (b.entry u)
  supervisor : forall {now u id conn},
    (b.exec now (.beginSupervisorQuery u id conn)).2 = .capacity ->
      LeavesAt b (b.exec now (.beginSupervisorQuery u id conn)).1 u
        { b.entry u with
          supervisorPending := (b.entry u).supervisorPending.retain (SupervisorEntry.live now) } ∧
      maxPendingSupervisor ≤ (b.entry u).supervisorPending.entries.countP fun e =>
        elapsedSecs now e.2.created < supervisorGcSecs

theorem leavesAt_exec {b : Broker} {now : Instant} {c : BrokerCall} {u : String}
    {st : AccountState} (hu : c.subject? = some u) (hcreates : c.creates = true)
    (hst : (b.entry u).after b.alive now c = st) : LeavesAt b (b.exec now c).1 u st where
  account := by rw [account_exec_subject hu, if_pos hcreates, hst]
  others := fun v hv => account_exec_other fun hsame => hv (Option.some.inj (hsame.symm.trans hu))

theorem refuses_cleanly (b : Broker) : b.RefusesCleanly where
  upload := by
    intro now u id size conn reason h
    rcases AccountState.beginUpload_refused h with ⟨hst, hfull⟩
    refine ⟨leavesAt_exec rfl rfl hst, fun hreason => ?_⟩
    exact Nat.le_trans (hfull hreason) (Nat.le_of_eq (Table.size_retain _ _))
  download := by
    intro now u id conn reason h
    rcases AccountState.registerDownload_refused h with ⟨hst, hfull⟩
    exact ⟨leavesAt_exec rfl rfl hst, Nat.le_trans hfull (Nat.le_of_eq (Table.size_retain _ _))⟩
  client := by
    intro now u conn info error h
    refine leavesAt_exec rfl rfl ?_
    show (b.entry u).withClient conn info = b.entry u
    simp only [exec, registerClient] at h
    unfold AccountState.withClient
    by_cases hmem : conn ∈ (b.entry u).clientTxs
    · simp [if_pos hmem] at h
    · by_cases hfull : maxClients ≤ (b.entry u).clients.length
      · rw [if_neg hmem, if_pos hfull]
      · simp [if_neg hmem, if_neg hfull] at h
  supervisor := by
    intro now u id conn h
    rcases AccountState.beginSupervisorQuery_refused h with ⟨hst, hfull⟩
    exact ⟨leavesAt_exec rfl rfl hst, Nat.le_trans hfull (Nat.le_of_eq (Table.size_retain _ _))⟩

end Broker

namespace BrokerRun

/-- Every account keeps to its bounds, every transfer to its budget, and every refusal
leaves the live entries alone. -/
theorem accounts_bounded {s : BrokerRun} (hs : Reachable s) :
    (forall u st, s.broker.account u = some st -> st.Bounded) ∧
    (forall u id e, s.broker.upload? u id = some e ->
      e.declaredSize ≤ maxUploadSize ∧
        WithinBudget (BrokerEvent.acceptsUpload u id) (fun b => b.upload? u id)
          UploadEntry.bytesForwarded UploadEntry.budget s.log e) ∧
    (forall u id e, s.broker.download? u id = some e ->
      WithinBudget (BrokerEvent.acceptsDownload u id) (fun b => b.download? u id)
        DownloadEntry.bytesForwarded DownloadEntry.budget s.log e) ∧
    s.broker.RefusesCleanly := by
  refine ⟨?_, ?_, ?_, s.broker.refuses_cleanly⟩
  · refine reachable_induction (motive := fun s =>
      forall u st, s.broker.account u = some st -> st.Bounded) ?_ ?_ ?_ hs
    · intro u st hst
      cases hst
    · intro s now c _ _ ih u st hst
      exact Broker.bounded_exec ih hst
    · intro s s' ih haccount _ u st hst
      exact ih u st ((haccount u).symm.trans hst)
  · intro u id e he
    exact (upload_tracked u id).within hs he
  · intro u id e he
    exact ((download_tracked u id).within hs he).2

theorem accounts_bounded_example : exists s, Reachable s ∧
    (s.broker.upload? "user" "notes").map UploadEntry.bytesForwarded = some 3 ∧
      s.broker.RefusesCleanly ∧ forall st, s.broker.account "user" = some st -> st.Bounded := by
  have hend : (follow step init [.call 0 (.beginUpload "user" "notes" 10 1),
      .call 0 (.recordUploadChunk "user" "notes" 1 ⟨[1, 2, 3], by decide⟩)]).map
      (fun s => (s.broker.upload? "user" "notes").map UploadEntry.bytesForwarded) =
        some (some 3) := by decide +kernel
  rcases Option.map_eq_some_iff.mp hend with ⟨s, hrun, hforwarded⟩
  rcases accounts_bounded (reachable_of_runs hrun) with ⟨hbounded, _, _, hrefuses⟩
  exact ⟨s, reachable_of_runs hrun, hforwarded, hrefuses, fun st hst => hbounded "user" st hst⟩

end BrokerRun

end CommandRelay
