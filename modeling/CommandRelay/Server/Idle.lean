import CommandRelay.Broker.Routing
import CommandRelay.Server.Relay

/-!
# Operations that find nothing to do

The operations that a client's frames lead to, and when they leave the account as it is
and tell its desktop nothing.
-/

namespace CommandRelay

open Foundation

namespace Foundation.Table

variable {key : Type u} {value : Type v} {t : Table key value}

theorem retain_eq_self {keep : value -> Bool} (h : t.entries.all (fun e => keep e.2) = true) :
    t.retain keep = t :=
  AList.ext (List.filter_eq_self.mpr (List.all_eq_true.mp h))

variable [DecidableEq key]

theorem modify_eq_self {k : key} {f : value -> value}
    (h : forall v, t.lookup k = some v -> f v = v) : t.modify k f = t := by
  refine AList.ext ((List.map_congr_left fun e he => ?_).trans (List.map_id t.entries))
  rcases e with ⟨k', v⟩
  by_cases hk : k' = k
  · subst hk
    simp [Sigma.map, h v (AList.mem_lookup_iff.mpr he)]
  · simp [Sigma.map, hk]

theorem erase_eq_self {k : key} (h : t.lookup k = none) : t.erase k = t := by
  refine AList.ext (List.kerase_of_notMem_keys fun hmem => ?_)
  exact AList.lookup_eq_none.mp h hmem

end Foundation.Table

/-!
## The account
-/

namespace AccountState

/-- The sweep removes nothing, and the request is refused or is about something that the
account does not have. -/
def findsNothing (now : Instant) (st : AccountState) : BrokerCall -> Bool
  | .registerClient _ tx _ => tx ∉ st.clientTxs && decide (maxClients ≤ st.clients.length)
  | .noteSessionListRequest .. => maxReplayQueue ≤ st.replayQueue.length
  | .beginUpload _ id size _ =>
      st.uploads.entries.all (fun e => e.2.live now) &&
        (decide (maxUploadSize < size) || decide (maxActiveUploads ≤ st.uploads.size) ||
          (st.uploads.lookup id).isSome)
  | .markBugReportUpload _ id conn =>
      (st.uploads.lookup id).all fun e => e.owner ≠ conn
  | .takeBugReportBuffer _ id conn =>
      (st.uploads.lookup id).all fun e => e.owner ≠ conn || e.buffer.isNone
  | .recordUploadChunk _ id conn _ =>
      st.uploads.entries.all (fun e => e.2.live now) &&
        (st.uploads.lookup id).all fun e => e.rejects conn
  | .finishUpload _ id conn =>
      st.uploads.entries.all (fun e => e.2.live now) &&
        (st.uploads.lookup id).all fun e => e.owner ≠ conn
  | .resolveUpload _ id =>
      st.uploads.entries.all (fun e => e.2.live now) && (st.uploads.lookup id).isNone
  | .registerDownload .. =>
      st.downloads.entries.all (fun e => e.2.live now) &&
        decide (maxActiveDownloads ≤ st.downloads.size)
  | .beginSupervisorQuery _ id conn =>
      st.supervisorPending.entries.all (fun e => e.2.live now) &&
        match st.supervisorPending.lookup id with
        | some e => e.stored.isNone && e.owner = conn
        | none => maxPendingSupervisor ≤ st.supervisorPending.size
  | op => op.subject?.isNone

section

variable {st : AccountState} {id : String} {conn : ConnId} {now : Instant}

theorem other_of_all {o : Option UploadEntry} (h : o.all (fun e => e.owner ≠ conn) = true)
    {e : UploadEntry} (he : o = some e) : e.owner ≠ conn := by
  subst he
  simpa using h

theorem gcUploads_eq_self (h : st.uploads.entries.all (fun e => e.2.live now) = true) :
    st.gcUploads now = st := by
  unfold gcUploads
  rw [Table.retain_eq_self h]

theorem withClient_eq_self {info : ClientInfo} (hnew : conn ∉ st.clientTxs)
    (hfull : maxClients ≤ st.clients.length) : st.withClient conn info = st := by
  unfold withClient
  rw [if_neg hnew, if_pos hfull]

theorem beginUpload_eq_self {size : Nat}
    (hlive : st.uploads.entries.all (fun e => e.2.live now) = true)
    (hrefused : (maxUploadSize < size ∨ maxActiveUploads ≤ st.uploads.size) ∨
      (st.uploads.lookup id).isSome = true) : (st.beginUpload id size conn now).1 = st := by
  unfold beginUpload
  rw [gcUploads_eq_self hlive]
  by_cases hsize : maxUploadSize < size
  · simp only [if_pos hsize]
  · by_cases hfull : maxActiveUploads ≤ st.uploads.size
    · simp only [if_neg hsize, if_pos hfull]
    · have hdup : (st.uploads.lookup id).isSome = true := by simpa [hsize, hfull] using hrefused
      simp only [if_neg hsize, if_neg hfull, if_pos hdup]

theorem markBugReportUpload_eq_self
    (h : (st.uploads.lookup id).all (fun e => e.owner ≠ conn) = true) :
    st.markBugReportUpload id conn = st := by
  unfold markBugReportUpload
  rw [Table.modify_eq_self fun e he => if_neg (other_of_all h he)]

theorem takeBugReportBuffer_eq_self
    (h : (st.uploads.lookup id).all (fun e => e.owner ≠ conn || e.buffer.isNone) = true) :
    (st.takeBugReportBuffer id conn).1 = st := by
  unfold takeBugReportBuffer
  cases hentry : st.uploads.lookup id with
  | none => rfl
  | some e =>
      by_cases hown : e.owner = conn
      · have hnone : e.buffer = none := by simpa [hentry, hown] using h
        simp only [if_pos hown]
        rw [Table.modify_eq_self]
        intro v hv
        rw [hentry] at hv
        cases hv
        rw [← hnone]
      · simp only [if_neg hown]

theorem recordUploadChunk_eq_self {payload : Slice}
    (hlive : st.uploads.entries.all (fun e => e.2.live now) = true)
    (hentry : (st.uploads.lookup id).all (fun e => e.rejects conn) = true) :
    (st.recordUploadChunk id conn payload now).1 = st := by
  unfold recordUploadChunk
  rw [gcUploads_eq_self hlive]
  cases hlookup : st.uploads.lookup id with
  | none => simp only [hlookup]
  | some e =>
      have hrejects : e.rejects conn = true := by simpa [hlookup] using hentry
      simp only [hlookup, if_pos hrejects]

theorem finishUpload_eq_self (hlive : st.uploads.entries.all (fun e => e.2.live now) = true)
    (hentry : (st.uploads.lookup id).all (fun e => e.owner ≠ conn) = true) :
    st.finishUpload id conn now = st := by
  unfold finishUpload
  rw [gcUploads_eq_self hlive]
  show { st with uploads := st.uploads.modify id _ } = st
  rw [Table.modify_eq_self fun e he => if_neg (other_of_all hentry he)]

theorem resolveUpload_eq_self (hlive : st.uploads.entries.all (fun e => e.2.live now) = true)
    (hentry : st.uploads.lookup id = none) : (st.resolveUpload id now).1 = st := by
  unfold resolveUpload
  rw [gcUploads_eq_self hlive]
  show { st with uploads := st.uploads.erase id } = st
  rw [Table.erase_eq_self hentry]

theorem registerDownload_eq_self
    (hlive : st.downloads.entries.all (fun e => e.2.live now) = true)
    (hfull : maxActiveDownloads ≤ st.downloads.size) :
    (st.registerDownload id conn now).1 = st := by
  have hswept : st.gcDownloads now = st := by
    unfold gcDownloads
    rw [Table.retain_eq_self hlive]
  unfold registerDownload
  rw [hswept]
  simp only [if_pos hfull]

/-- A query that the connection has under way, or that there is no room for, is not taken up. -/
theorem beginSupervisorQuery_idle
    (hlive : st.supervisorPending.entries.all (fun e => e.2.live now) = true)
    (hentry : (match st.supervisorPending.lookup id with
      | some e => e.stored.isNone && decide (e.owner = conn)
      | none => decide (maxPendingSupervisor ≤ st.supervisorPending.size)) = true) :
    st.beginSupervisorQuery id conn now = (st, .reowned) ∨
      st.beginSupervisorQuery id conn now = (st, .capacity) := by
  have hswept : st.gcSupervisor now = st := by
    unfold gcSupervisor
    rw [Table.retain_eq_self hlive]
  unfold beginSupervisorQuery
  rw [hswept]
  cases hlookup : st.supervisorPending.lookup id with
  | none =>
      have hfull : maxPendingSupervisor ≤ st.supervisorPending.size := by
        simpa [hlookup] using hentry
      simp only [hlookup, if_pos hfull, or_true]
  | some e =>
      rcases e with ⟨owner, stored, created⟩
      have hown : stored = none ∧ owner = conn := by simpa [hlookup] using hentry
      rcases hown with ⟨rfl, rfl⟩
      refine Or.inl ?_
      simp only [hlookup]
      rw [Table.modify_eq_self]
      intro v hv
      rw [hlookup] at hv
      cases hv
      rfl

theorem after_eq_self {alive : ConnId -> Bool} {op : BrokerCall}
    (h : st.findsNothing now op = true) : st.after alive now op = st := by
  cases op <;> simp only [findsNothing, BrokerCall.subject?, Bool.and_eq_true, Bool.or_eq_true,
    decide_eq_true_eq, Option.isNone_iff_eq_none, reduceCtorEq] at h
  case registerClient => exact withClient_eq_self h.1 h.2
  case noteSessionListRequest => exact if_neg (Nat.not_lt.mpr h)
  case beginUpload => exact beginUpload_eq_self h.1 h.2
  case markBugReportUpload => exact markBugReportUpload_eq_self h
  case takeBugReportBuffer => exact takeBugReportBuffer_eq_self h
  case recordUploadChunk => exact recordUploadChunk_eq_self h.1 h.2
  case finishUpload => exact finishUpload_eq_self h.1 h.2
  case resolveUpload => exact resolveUpload_eq_self h.1 h.2
  case registerDownload => exact registerDownload_eq_self h.1 h.2
  case beginSupervisorQuery =>
      exact (beginSupervisorQuery_idle h.1 h.2).elim (congrArg Prod.fst) (congrArg Prod.fst)
  all_goals rfl

end

end AccountState

/-!
## The broker
-/

namespace Broker

def desktopHears (b : Broker) (u : String) : Bool :=
  (b.entry u).desktopTx.any b.alive

/-- The operation is refused by its account, or is about something that it does not have; a
message to the desktop finds none that can receive it. -/
def spares (b : Broker) (now : Instant) : BrokerCall -> Bool
  | .sendToDesktop u _ => !b.desktopHears u
  | op => op.subject?.all fun u => (b.entry u).findsNothing now op

section

variable {b : Broker} {now : Instant} {op : BrokerCall} {u : String}

theorem findsNothing_of_spares (h : b.spares now op = true) (hu : op.subject? = some u) :
    (b.entry u).findsNothing now op = true := by
  unfold spares at h
  split at h
  · cases hu
  · simpa [hu] using h

theorem entry_exec_of_spares (h : b.spares now op = true) (u : String) :
    (b.exec now op).1.entry u = b.entry u := by
  unfold entry
  by_cases hu : op.subject? = some u
  · have hsame : (b.entry u).after b.alive now op = b.entry u :=
      AccountState.after_eq_self (findsNothing_of_spares h hu)
    rw [account_exec_subject hu]
    by_cases hcreates : op.creates = true
    · rw [if_pos hcreates, Option.getD_some, hsame]
      rfl
    · rw [if_neg hcreates]
      unfold entry at hsame
      cases hst : b.account u with
      | none => rfl
      | some st =>
          rw [hst] at hsame
          exact hsame
  · rw [account_exec_other hu]

theorem entry_of_holds {place : Place} {c : ConnId} (h : b.Holds u place c) :
    (b.entry u).Holds place c := by
  rcases h with ⟨st, hst, hholds⟩
  rw [entry, hst]
  exact hholds

theorem silent_sendToDesktop {msg : WsMessage} (h : b.spares now (.sendToDesktop u msg) = true) :
    Relay.newlyEnqueued b (b.sendToDesktop u msg).1 = [] := by
  rw [List.eq_nil_iff_forall_not_mem]
  rintro ⟨tx, out⟩ hmem
  rcases sendToDesktop_reaches hmem with ⟨hdesktop, halive, _⟩
  have hslot : (b.entry u).desktopTx = some tx := entry_of_holds hdesktop
  simp [spares, desktopHears, hslot, halive] at h

theorem silent_registerClient {tx : ConnId} {info : ClientInfo}
    (h : b.spares now (.registerClient u tx info) = true) :
    Relay.newlyEnqueued b (b.registerClient u tx info).1 = [] := by
  have hrefused := findsNothing_of_spares h rfl
  simp only [AccountState.findsNothing, Bool.and_eq_true, decide_eq_true_eq] at hrefused
  refine Relay.newlyEnqueued_of_append ?_
  simp [registerClient, hrefused.1, hrefused.2, put]

def Heard (b b' : Broker) : Prop :=
  (forall tx, b'.alive tx = b.alive tx) ∧ Enqueues (fun tx => b.alive tx = true) b b'

theorem heard_send (b : Broker) (tx : ConnId) (msg : WsMessage) : Heard b (b.send tx msg).1 := by
  refine ⟨fun tx' => alive_send b tx msg tx', ?_⟩
  by_cases halive : b.alive tx = true
  · exact enqueues_send b msg halive
  · exact enqueues_of_eq (by rw [delivered_send, if_neg halive])

theorem heard_outputTo (b : Broker) (tx : ConnId) (msg : WsMessage) :
    Heard b (b.outputTo tx msg) := by
  refine ⟨fun tx' => alive_outputTo b tx msg tx', ?_⟩
  unfold outputTo sendOutput
  by_cases hdirty : (b.channels tx).dirty = true
  · simp only [if_pos hdirty]
    exact enqueues_of_eq rfl
  · by_cases hover : (b.channels tx).overBudget msg = true
    · simp only [if_neg hdirty, if_pos hover]
      exact enqueues_of_eq rfl
    · simp only [if_neg hdirty, if_neg hover]
      exact (heard_send b tx msg).2

theorem heard_relation : StepRelation Heard where
  refl _ := ⟨fun _ => rfl, enqueues_of_eq rfl⟩
  trans h h' :=
    ⟨fun tx => (h'.1 tx).trans (h.1 tx),
      h.2.trans (h'.2.mono fun tx halive => (h.1 tx).symm.trans halive)⟩
  put _ _ _ := ⟨fun _ => rfl, enqueues_of_eq rfl⟩
  send := heard_send
  clearDirty _ _ := ⟨fun tx' => alive_setChannel_same (by rfl) tx', enqueues_of_eq rfl⟩
  outputTo := heard_outputTo

theorem reaches_of_enqueued {tx : ConnId} {msg : WsMessage}
    (h : (tx, msg) ∈ Relay.newlyEnqueued b (b.exec now op).1) : op.Reaches b tx := by
  rcases enqueues_exec b now op with ⟨new, hnew, hreach⟩
  rw [Relay.newlyEnqueued_of_append hnew] at h
  exact hreach _ h

theorem alive_of_enqueued {tx : ConnId} {msg : WsMessage}
    (h : (tx, msg) ∈ Relay.newlyEnqueued b (b.exec now op).1) : b.alive tx = true := by
  rcases (heard_relation.exec b now op).2 with ⟨new, hnew, hheard⟩
  rw [Relay.newlyEnqueued_of_append hnew] at h
  exact hheard _ h

end

end Broker

end CommandRelay
