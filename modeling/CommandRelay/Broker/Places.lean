import CommandRelay.Broker.Frames

/-!
# Where an account refers to a connection

An account names connections in eight places.  An operation of the broker puts a
connection into a place only when it is given that connection, except that the
start of a replay burst moves the oldest queued request to the target.
-/

namespace CommandRelay

open Foundation

inductive Place where
  | desktop
  | clients
  | uploads
  | downloads
  | supervisor
  | pending
  | queue
  | target
  deriving DecidableEq

def Place.all : List Place :=
  [desktop, clients, uploads, downloads, supervisor, pending, queue, target]

def Place.part : Place -> AccountPart
  | desktop => .desktop
  | clients => .clients
  | uploads => .uploads
  | downloads => .downloads
  | supervisor => .supervisor
  | pending => .pending
  | queue => .replay
  | target => .replay

def BrokerCall.inserts : BrokerCall -> List (Place × ConnId)
  | registerDesktop _ tx _ => [(.desktop, tx)]
  | registerClient _ tx _ => [(.clients, tx)]
  | noteSessionListRequest _ _ conn => [(.queue, conn)]
  | beginUpload _ _ _ conn => [(.uploads, conn)]
  | registerDownload _ _ conn => [(.downloads, conn)]
  | beginSupervisorQuery _ _ conn => [(.supervisor, conn)]
  | addPendingDevice _ pending => [(.pending, pending.clientTx)]
  | _ => []

namespace AccountState

/-- The account refers to the connection in the place. -/
def Holds (st : AccountState) : Place -> ConnId -> Prop
  | .desktop, c => st.desktopTx = some c
  | .clients, c => c ∈ st.clientTxs
  | .uploads, c => st.uploads.Has fun e => e.owner = c
  | .downloads, c => st.downloads.Has fun e => e.owner = c
  | .supervisor, c => st.supervisorPending.Has fun e => e.owner = c
  | .pending, c => exists p, p ∈ st.pendingDevices ∧ p.clientTx = c
  | .queue, c => exists r, r ∈ st.replayQueue ∧ r.tx = c
  | .target, c => exists r, st.replayTarget = some r ∧ r.tx = c

instance decidableHolds (st : AccountState) :
    (place : Place) -> (c : ConnId) -> Decidable (st.Holds place c)
  | .desktop, c => inferInstanceAs (Decidable (st.desktopTx = some c))
  | .clients, c => inferInstanceAs (Decidable (c ∈ st.clientTxs))
  | .uploads, c => inferInstanceAs (Decidable (st.uploads.Has fun e => e.owner = c))
  | .downloads, c => inferInstanceAs (Decidable (st.downloads.Has fun e => e.owner = c))
  | .supervisor, c =>
      inferInstanceAs (Decidable (st.supervisorPending.Has fun e => e.owner = c))
  | .pending, c => inferInstanceAs (Decidable (exists p, p ∈ st.pendingDevices ∧ p.clientTx = c))
  | .queue, c => inferInstanceAs (Decidable (exists r, r ∈ st.replayQueue ∧ r.tx = c))
  | .target, c => decidable_of_iff (st.replayTarget.map ReplayRequest.tx = some c)
      Option.map_eq_some_iff

def refersTo (st : AccountState) (c : ConnId) : Bool :=
  Place.all.any fun place => st.Holds place c

theorem not_holds_of_refersTo {st : AccountState} {place : Place} {c : ConnId}
    (h : st.refersTo c = false) : ¬ st.Holds place c := by
  intro hholds
  have hplace := List.any_eq_false.mp h place (by cases place <;> decide)
  exact hplace (decide_eq_true hholds)

section

variable {st st' : AccountState} {place : Place} {c : ConnId}

theorem not_holds_new : ¬ AccountState.new.Holds place c := by
  cases place
  case uploads => exact Table.not_has_empty
  case downloads => exact Table.not_has_empty
  case supervisor => exact Table.not_has_empty
  all_goals simp [Holds, new, clientTxs]

theorem holds_of_agree (h : Agree st' st place.part) (hst : st'.Holds place c) :
    st.Holds place c := by
  cases place
  case desktop =>
      have hslot := congrArg Prod.fst h
      exact hslot.symm.trans hst
  case clients =>
      have hclients : st'.clients = st.clients := h
      simpa [Holds, clientTxs, hclients] using hst
  case uploads =>
      have huploads : st'.uploads = st.uploads := h
      simpa [Holds, huploads] using hst
  case downloads =>
      have hdownloads : st'.downloads = st.downloads := h
      simpa [Holds, hdownloads] using hst
  case supervisor =>
      have hsupervisor : st'.supervisorPending = st.supervisorPending := h
      simpa [Holds, hsupervisor] using hst
  case pending =>
      have hpending : st'.pendingDevices = st.pendingDevices := h
      simpa [Holds, hpending] using hst
  case queue =>
      have hqueue : st'.replayQueue = st.replayQueue := congrArg Prod.fst h
      simpa [Holds, hqueue] using hst
  case target =>
      have htarget : st'.replayTarget = st.replayTarget := congrArg Prod.snd h
      simpa [Holds, htarget] using hst

end

/-!
## Places after a transition
-/

section

variable {st : AccountState} {c : ConnId} (id : String) (conn : ConnId) (now : Instant)

theorem holds_gcUploads (h : (st.gcUploads now).Holds .uploads c) :
    st.Holds .uploads c :=
  h.of_retain

theorem holds_gcDownloads (h : (st.gcDownloads now).Holds .downloads c) :
    st.Holds .downloads c :=
  h.of_retain

theorem holds_beginUpload (size : Nat)
    (h : (st.beginUpload id size conn now).1.Holds .uploads c) :
    st.Holds .uploads c ∨ c = conn := by
  unfold beginUpload at h
  by_cases hsize : maxUploadSize < size
  · simp only [if_pos hsize] at h
    exact Or.inl (holds_gcUploads now h)
  · by_cases hslots : maxActiveUploads ≤ (st.gcUploads now).uploads.size
    · simp only [if_neg hsize, if_pos hslots] at h
      exact Or.inl (holds_gcUploads now h)
    · by_cases hdup : ((st.gcUploads now).uploads.lookup id).isSome = true
      · simp only [if_neg hsize, if_neg hslots, if_pos hdup] at h
        exact Or.inl (holds_gcUploads now h)
      · simp only [if_neg hsize, if_neg hslots, if_neg hdup] at h
        rcases h.of_insert with hold | hnew
        · exact Or.inl (holds_gcUploads now hold)
        · exact Or.inr hnew.symm

theorem holds_takeBugReportBuffer
    (h : (st.takeBugReportBuffer id conn).1.Holds .uploads c) :
    st.Holds .uploads c := by
  unfold takeBugReportBuffer at h
  cases hentry : st.uploads.lookup id with
  | none =>
      rw [hentry] at h
      exact h
  | some e =>
      rw [hentry] at h
      by_cases hown : e.owner = conn
      · simp only [if_pos hown] at h
        exact h.of_modify (by exact fun _ howner => howner)
      · simp only [if_neg hown] at h
        exact h

theorem holds_recordUploadChunk (payload : Slice)
    (h : (st.recordUploadChunk id conn payload now).1.Holds .uploads c) :
    st.Holds .uploads c := by
  unfold recordUploadChunk at h
  simp only [] at h
  cases hentry : (st.gcUploads now).uploads.lookup id with
  | none =>
      rw [hentry] at h
      exact holds_gcUploads now h
  | some e =>
      rw [hentry] at h
      by_cases hrejects : e.rejects conn = true
      · simp only [if_pos hrejects] at h
        exact holds_gcUploads now h
      · by_cases hover : e.overruns payload now = true
        · simp only [if_neg hrejects, if_pos hover] at h
          exact holds_gcUploads now h.of_erase
        · simp only [if_neg hrejects, if_neg hover] at h
          exact holds_gcUploads now (h.of_modify (by exact fun _ howner => howner))

theorem holds_registerDownload
    (h : (st.registerDownload id conn now).1.Holds .downloads c) :
    st.Holds .downloads c ∨ c = conn := by
  unfold registerDownload at h
  by_cases hslots : maxActiveDownloads ≤ (st.gcDownloads now).downloads.size
  · simp only [if_pos hslots] at h
    exact Or.inl (holds_gcDownloads now h)
  · simp only [if_neg hslots] at h
    rcases h.of_insert with hold | hnew
    · exact Or.inl (holds_gcDownloads now hold)
    · exact Or.inr hnew.symm

theorem holds_recordDownloadChunk (payload : Slice)
    (h : (st.recordDownloadChunk id payload now).1.Holds .downloads c) :
    st.Holds .downloads c := by
  unfold recordDownloadChunk at h
  simp only [] at h
  cases hentry : (st.gcDownloads now).downloads.lookup id with
  | none =>
      rw [hentry] at h
      exact holds_gcDownloads now h
  | some e =>
      rw [hentry] at h
      by_cases hover : e.overruns payload now = true
      · simp only [if_pos hover] at h
        exact holds_gcDownloads now h.of_erase
      · simp only [if_neg hover] at h
        exact holds_gcDownloads now (h.of_modify (by exact fun _ howner => howner))

theorem holds_beginSupervisorQuery
    (h : (st.beginSupervisorQuery id conn now).1.Holds .supervisor c) :
    st.Holds .supervisor c ∨ c = conn := by
  unfold beginSupervisorQuery at h
  simp only [] at h
  cases hentry : (st.gcSupervisor now).supervisorPending.lookup id with
  | none =>
      rw [hentry] at h
      by_cases hcap : maxPendingSupervisor ≤ (st.gcSupervisor now).supervisorPending.size
      · simp only [if_pos hcap] at h
        exact Or.inl h.of_retain
      · simp only [if_neg hcap] at h
        rcases h.of_insert with hold | hnew
        · exact Or.inl hold.of_retain
        · exact Or.inr hnew.symm
  | some e =>
      rw [hentry] at h
      rcases e with ⟨owner, stored, created⟩
      cases stored with
      | some text => exact Or.inl h.of_erase.of_retain
      | none =>
          by_cases hconn : c = conn
          · exact Or.inr hconn
          · have hmodified : Table.Has (fun e : SupervisorEntry => e.owner = c)
                ((st.gcSupervisor now).supervisorPending.modify id fun e =>
                  { e with owner := conn }) := h
            have hold := hmodified.of_modify (by exact fun v hv => absurd hv.symm hconn)
            exact Or.inl hold.of_retain

theorem holds_withReply (alive : ConnId -> Bool) (reply : ControlMessage)
    (h : (st.withReply alive id reply now).Holds .supervisor c) :
    st.Holds .supervisor c := by
  unfold withReply at h
  simp only [] at h
  cases hentry : (st.gcSupervisor now).supervisorPending.lookup id with
  | none =>
      rw [hentry] at h
      exact h.of_retain
  | some e =>
      rw [hentry] at h
      by_cases halive : alive e.owner = true
      · simp only [if_pos halive] at h
        exact h.of_erase.of_retain
      · simp only [if_neg halive] at h
        exact (h.of_modify (by exact fun _ howner => howner)).of_retain

theorem mem_replaceClient {client : ClientConnection} {clients : List ClientConnection}
    (h : c ∈ (replaceClient client clients).map ClientConnection.tx) :
    c ∈ clients.map ClientConnection.tx := by
  induction clients with
  | nil => exact h
  | cons first rest ih =>
      unfold replaceClient at h
      by_cases hfirst : first.tx = client.tx
      · rw [if_pos hfirst] at h
        simpa [hfirst] using h
      · rw [if_neg hfirst] at h
        rcases List.mem_cons.mp h with heq | hrest
        · exact List.mem_cons.mpr (Or.inl heq)
        · exact List.mem_cons.mpr (Or.inr (ih hrest))

theorem holds_withClient (info : ClientInfo)
    (h : (st.withClient conn info).Holds .clients c) : st.Holds .clients c ∨ c = conn := by
  unfold withClient at h
  by_cases hmem : conn ∈ st.clientTxs
  · rw [if_pos hmem] at h
    exact Or.inl (mem_replaceClient h)
  · by_cases hfull : maxClients ≤ st.clients.length
    · rw [if_neg hmem, if_pos hfull] at h
      exact Or.inl h
    · rw [if_neg hmem, if_neg hfull] at h
      simpa [Holds, clientTxs] using h

theorem holds_queueReplay_queue (h : (st.queueReplay id conn).Holds .queue c) :
    st.Holds .queue c ∨ c = conn := by
  unfold queueReplay at h
  by_cases hroom : st.replayQueue.length < maxReplayQueue
  · rw [if_pos hroom] at h
    rcases h with ⟨r, hr, hc⟩
    rcases List.mem_append.mp hr with hold | hnew
    · exact Or.inl ⟨r, hold, hc⟩
    · rw [List.mem_singleton] at hnew
      subst hnew
      exact Or.inr hc.symm
  · rw [if_neg hroom] at h
    exact Or.inl h

theorem holds_takePendingDevice
    (h : (st.takePendingDevice id).1.Holds .pending c) : st.Holds .pending c := by
  unfold takePendingDevice at h
  cases hidx : st.pendingDevices.findIdx? fun p => p.deviceId = id with
  | none =>
      rw [hidx] at h
      exact h
  | some idx =>
      rw [hidx] at h
      rcases h with ⟨p, hp, hc⟩
      exact ⟨p, List.mem_of_mem_eraseIdx hp, hc⟩

end

theorem holds_after {st : AccountState} {alive : ConnId -> Bool} {now : Instant}
    {op : BrokerCall} {place : Place} {c : ConnId}
    (h : (st.after alive now op).Holds place c) :
    st.Holds place c ∨ (place, c) ∈ op.inserts ∨
      (exists u, op = .beginReplay u) ∧ place = .target ∧ st.Holds .queue c := by
  by_cases htouch : place.part ∈ op.touches
  case neg => exact Or.inl (holds_of_agree (st.after_agree place.part alive now htouch) h)
  cases op
  case registerDesktop u tx capabilities =>
      cases place <;> simp [Place.part, BrokerCall.touches] at htouch
      case desktop =>
          have htx : tx = c := Option.some.inj h
          exact Or.inr (Or.inl (by simp [BrokerCall.inserts, htx]))
      case queue => simp [Holds, after] at h
      case target => simp [Holds, after] at h
  case unregisterDesktop u conn =>
      by_cases hstale : (st.dropUploadsOf conn).heldByOther conn = true
      · simp only [after, withoutDesktop, if_pos hstale] at h
        cases place <;> simp [Place.part, BrokerCall.touches] at htouch
        case uploads => exact Or.inl h.of_retain
        all_goals exact Or.inl h
      · simp only [after, withoutDesktop, if_neg hstale] at h
        cases place <;> simp [Place.part, BrokerCall.touches] at htouch
        case uploads => exact Or.inl h.of_retain
        all_goals simp [Holds] at h
  case registerClient u tx info =>
      cases place <;> simp [Place.part, BrokerCall.touches] at htouch
      rcases holds_withClient tx info h with hold | hnew
      · exact Or.inl hold
      · exact Or.inr (Or.inl (by simp [BrokerCall.inserts, hnew]))
  case unregisterClient u d conn =>
      cases place <;> simp [Place.part, BrokerCall.touches] at htouch
      case clients =>
          refine Or.inl ?_
          rcases List.mem_map.mp h with ⟨client, hclient, htx⟩
          exact List.mem_map.mpr ⟨client, (List.mem_filter.mp hclient).1, htx⟩
      case uploads => exact Or.inl h.of_retain
      case downloads => exact Or.inl h.of_retain
      case queue =>
          rcases h with ⟨r, hr, hc⟩
          exact Or.inl ⟨r, (List.mem_filter.mp hr).1, hc⟩
      case target => exact Or.inl h
  case unregisterDevice u d =>
      cases place <;> simp [Place.part, BrokerCall.touches] at htouch
      case clients =>
          refine Or.inl ?_
          rcases List.mem_map.mp h with ⟨client, hclient, htx⟩
          exact List.mem_map.mpr ⟨client, (List.mem_filter.mp hclient).1, htx⟩
      case queue =>
          rcases h with ⟨r, hr, hc⟩
          exact Or.inl ⟨r, (List.mem_filter.mp hr).1, hc⟩
      case target => exact Or.inl h
  case noteSessionListRequest u d conn =>
      cases place <;> simp [Place.part, BrokerCall.touches] at htouch
      case queue =>
          rcases holds_queueReplay_queue d conn h with hold | hnew
          · exact Or.inl hold
          · exact Or.inr (Or.inl (by simp [BrokerCall.inserts, hnew]))
      case target =>
          refine Or.inl ?_
          have hframe : (st.queueReplay d conn).replayTarget = st.replayTarget := by
            rw [queueReplay_frame]
          simpa only [Holds, after, hframe] using h
  case beginReplay u =>
      cases place <;> simp [Place.part, BrokerCall.touches] at htouch
      case queue =>
          rcases h with ⟨r, hr, hc⟩
          exact Or.inl ⟨r, List.mem_of_mem_tail hr, hc⟩
      case target =>
          rcases h with ⟨r, hr, hc⟩
          exact Or.inr (Or.inr ⟨⟨u, rfl⟩, rfl, r, List.mem_of_mem_head? hr, hc⟩)
  case endReplay u =>
      cases place <;> simp [Place.part, BrokerCall.touches] at htouch
      case queue => exact Or.inl h
      case target => simp [Holds, after, endReplay] at h
  case beginUpload u id size conn =>
      cases place <;> simp [Place.part, BrokerCall.touches] at htouch
      rcases holds_beginUpload id conn now size h with hold | hnew
      · exact Or.inl hold
      · exact Or.inr (Or.inl (by simp [BrokerCall.inserts, hnew]))
  case markBugReportUpload u id conn =>
      cases place <;> simp [Place.part, BrokerCall.touches] at htouch
      refine Or.inl (h.of_modify ?_)
      intro v hv
      by_cases hown : v.owner = conn
      · simpa [hown] using hv
      · simpa [hown] using hv
  case takeBugReportBuffer u id conn =>
      cases place <;> simp [Place.part, BrokerCall.touches] at htouch
      exact Or.inl (holds_takeBugReportBuffer id conn h)
  case recordUploadChunk u id conn payload =>
      cases place <;> simp [Place.part, BrokerCall.touches] at htouch
      exact Or.inl (holds_recordUploadChunk id conn now payload h)
  case finishUpload u id conn =>
      cases place <;> simp [Place.part, BrokerCall.touches] at htouch
      refine Or.inl (holds_gcUploads now (h.of_modify ?_))
      intro v hv
      by_cases hown : v.owner = conn
      · simpa [hown] using hv
      · simpa [hown] using hv
  case resolveUpload u id =>
      cases place <;> simp [Place.part, BrokerCall.touches] at htouch
      exact Or.inl (holds_gcUploads now h.of_erase)
  case registerDownload u id conn =>
      cases place <;> simp [Place.part, BrokerCall.touches] at htouch
      rcases holds_registerDownload id conn now h with hold | hnew
      · exact Or.inl hold
      · exact Or.inr (Or.inl (by simp [BrokerCall.inserts, hnew]))
  case noteDownloadBegin u id size =>
      cases place <;> simp [Place.part, BrokerCall.touches] at htouch
      exact Or.inl (holds_gcDownloads now (h.of_modify (by exact fun _ howner => howner)))
  case recordDownloadChunk u id payload =>
      cases place <;> simp [Place.part, BrokerCall.touches] at htouch
      exact Or.inl (holds_recordDownloadChunk id now payload h)
  case resolveDownload u id =>
      cases place <;> simp [Place.part, BrokerCall.touches] at htouch
      exact Or.inl (holds_gcDownloads now h.of_erase)
  case beginSupervisorQuery u id conn =>
      cases place <;> simp [Place.part, BrokerCall.touches] at htouch
      rcases holds_beginSupervisorQuery id conn now h with hold | hnew
      · exact Or.inl hold
      · exact Or.inr (Or.inl (by simp [BrokerCall.inserts, hnew]))
  case resolveSupervisor u id reply =>
      cases place <;> simp [Place.part, BrokerCall.touches] at htouch
      exact Or.inl (holds_withReply id now alive reply h)
  case addPendingDevice u pending =>
      cases place <;> simp [Place.part, BrokerCall.touches] at htouch
      rcases h with ⟨p, hp, hc⟩
      rcases List.mem_append.mp hp with hold | hnew
      · exact Or.inl ⟨p, hold, hc⟩
      · rw [List.mem_singleton] at hnew
        subst hnew
        exact Or.inr (Or.inl (by simp [BrokerCall.inserts, hc]))
  case takePendingDevice u d =>
      cases place <;> simp [Place.part, BrokerCall.touches] at htouch
      exact Or.inl (holds_takePendingDevice d h)
  all_goals simp [BrokerCall.touches] at htouch

end AccountState

namespace Broker

/-- An account refers to the connection in the place. -/
def Holds (b : Broker) (u : String) (place : Place) (c : ConnId) : Prop :=
  exists st, b.account u = some st ∧ st.Holds place c

theorem holds_congr {b b' : Broker} {u : String} (h : b'.account u = b.account u)
    (place : Place) (c : ConnId) : b'.Holds u place c <-> b.Holds u place c := by
  simp [Holds, h]

theorem holds_entry {b : Broker} {u : String} {place : Place} {c : ConnId}
    (h : (b.entry u).Holds place c) : b.Holds u place c := by
  unfold entry at h
  cases hst : b.account u with
  | none =>
      rw [hst] at h
      exact absurd h AccountState.not_holds_new
  | some st =>
      rw [hst] at h
      exact ⟨st, hst, h⟩

theorem account_exec_some {b : Broker} {now : Instant} {op : BrokerCall} {u : String}
    {st : AccountState} (hu : op.subject? = some u)
    (hst : (b.exec now op).1.account u = some st) :
    st = (b.entry u).after b.alive now op ∧
      (op.creates = false -> b.account u = some (b.entry u)) := by
  rw [account_exec_subject hu] at hst
  cases hcreates : op.creates with
  | true =>
      rw [hcreates] at hst
      exact ⟨(Option.some.inj hst).symm, fun h => by cases h⟩
  | false =>
      rw [hcreates] at hst
      cases hold : b.account u with
      | none => simp [hold] at hst
      | some old =>
          have hentry : b.entry u = old := by simp [entry, hold]
          rw [hentry]
          rw [hold] at hst
          exact ⟨(Option.some.inj hst).symm, fun _ => rfl⟩

/-- An operation puts a connection into a place of the account it names only when
it is given it. -/
theorem holds_exec {b : Broker} {now : Instant} {op : BrokerCall} {u : String}
    {place : Place} {c : ConnId} (h : (b.exec now op).1.Holds u place c) :
    b.Holds u place c ∨ op.subject? = some u ∧ (place, c) ∈ op.inserts ∨
      op = .beginReplay u ∧ place = .target ∧ b.Holds u .queue c := by
  by_cases hu : op.subject? = some u
  · rcases h with ⟨st, hst, hholds⟩
    rw [(account_exec_some hu hst).1] at hholds
    rcases AccountState.holds_after hholds with hold | hnew | ⟨⟨v, hop⟩, hplace, hqueue⟩
    · exact Or.inl (holds_entry hold)
    · exact Or.inr (Or.inl ⟨hu, hnew⟩)
    · subst hop
      cases hu
      exact Or.inr (Or.inr ⟨rfl, hplace, holds_entry hqueue⟩)
  · exact Or.inl ((holds_congr (account_exec_other hu) place c).mp h)

end Broker

/-!
## Pending devices
-/

theorem AccountState.mem_takePendingDevice {st : AccountState} {id : String}
    {p : PendingDevice} (h : p ∈ (st.takePendingDevice id).1.pendingDevices) :
    p ∈ st.pendingDevices := by
  unfold takePendingDevice at h
  cases hidx : st.pendingDevices.findIdx? fun p => p.deviceId = id with
  | none =>
      rw [hidx] at h
      exact h
  | some idx =>
      rw [hidx] at h
      exact List.mem_of_mem_eraseIdx h

theorem AccountState.taken_pending {st : AccountState} {id : String} {p : PendingDevice}
    (h : (st.takePendingDevice id).2 = some p) : p ∈ st.pendingDevices ∧ p.deviceId = id := by
  unfold takePendingDevice at h
  cases hidx : st.pendingDevices.findIdx? fun p => p.deviceId = id with
  | none =>
      rw [hidx] at h
      cases h
  | some idx =>
      rw [hidx] at h
      have hfound : st.pendingDevices[idx]? = some p := h
      rcases List.findIdx?_eq_some_iff_getElem.mp hidx with ⟨hlt, hid, _⟩
      rw [List.getElem?_eq_getElem hlt, Option.some.injEq] at hfound
      rw [hfound] at hid
      exact ⟨List.mem_of_getElem hfound, of_decide_eq_true hid⟩

theorem AccountState.kept_takePendingDevice {st : AccountState} {id : String} {p : PendingDevice}
    (h : p ∈ st.pendingDevices) (hid : p.deviceId ≠ id) :
    p ∈ (st.takePendingDevice id).1.pendingDevices := by
  unfold takePendingDevice
  cases hidx : st.pendingDevices.findIdx? fun p => p.deviceId = id with
  | none => exact h
  | some idx =>
      rcases List.findIdx?_eq_some_iff_getElem.mp hidx with ⟨hlt, hfound, _⟩
      rcases List.mem_iff_getElem.mp h with ⟨i, hi, hp⟩
      refine List.mem_eraseIdx_iff_getElem.mpr ⟨i, hi, ?_, hp⟩
      rintro rfl
      exact hid (hp ▸ of_decide_eq_true hfound)

theorem AccountState.pending_after {st : AccountState} {alive : ConnId -> Bool}
    {now : Instant} {op : BrokerCall} {u : String} {p : PendingDevice}
    (hu : op.subject? = some u) (h : p ∈ (st.after alive now op).pendingDevices) :
    p ∈ st.pendingDevices ∨ op = .addPendingDevice u p := by
  by_cases htouches : .pending ∈ op.touches
  · cases op <;> simp [BrokerCall.touches] at htouches
    case addPendingDevice v added =>
      cases hu
      rcases List.mem_append.mp h with hold | hnew
      · exact Or.inl hold
      · exact Or.inr (by rw [List.mem_singleton.mp hnew])
    case takePendingDevice v id => exact Or.inl (mem_takePendingDevice h)
  · have hsame : (st.after alive now op).pendingDevices = st.pendingDevices :=
      after_agree st .pending alive now htouches
    exact Or.inl (hsame ▸ h)

namespace Broker

def Pends (b : Broker) (u : String) (p : PendingDevice) : Prop :=
  exists st, b.account u = some st ∧ p ∈ st.pendingDevices

theorem pends_exec {b : Broker} {now : Instant} {op : BrokerCall} {u : String}
    {p : PendingDevice} (h : (b.exec now op).1.Pends u p) :
    b.Pends u p ∨ op = .addPendingDevice u p := by
  rcases h with ⟨st', hst', hp⟩
  by_cases hu : op.subject? = some u
  · rw [account_exec_subject hu] at hst'
    by_cases hcreates : op.creates = true
    · rw [if_pos hcreates, Option.some.injEq] at hst'
      rw [← hst'] at hp
      rcases AccountState.pending_after hu hp with hold | hnew
      · left
        unfold entry at hold
        cases hst : b.account u with
        | none =>
            rw [hst] at hold
            cases hold
        | some st =>
            rw [hst] at hold
            exact ⟨st, hst, hold⟩
      · exact Or.inr hnew
    · rw [if_neg hcreates] at hst'
      rcases Option.map_eq_some_iff.mp hst' with ⟨st, hst, hafter⟩
      rw [← hafter] at hp
      rcases AccountState.pending_after hu hp with hold | hnew
      · exact Or.inl ⟨st, hst, hold⟩
      · exact Or.inr hnew
  · rw [account_exec_other hu] at hst'
    exact Or.inl ⟨st', hst', hp⟩

theorem pends_kept {b : Broker} {now : Instant} {op : BrokerCall} {u : String}
    {p : PendingDevice} (h : b.Pends u p) (htake : op ≠ .takePendingDevice u p.deviceId) :
    (b.exec now op).1.Pends u p := by
  rcases h with ⟨st, hst, hp⟩
  by_cases hu : op.subject? = some u
  · refine ⟨_, account_exec_of_some op now hst hu, ?_⟩
    by_cases htouches : .pending ∈ op.touches
    · cases op <;> simp [BrokerCall.touches] at htouches
      case addPendingDevice v added =>
          exact List.mem_append_left _ hp
      case takePendingDevice v id =>
          cases hu
          refine AccountState.kept_takePendingDevice hp fun hid => htake ?_
          rw [hid]
    · have hsame : (st.after b.alive now op).pendingDevices = st.pendingDevices :=
        st.after_agree .pending b.alive now htouches
      rw [hsame]
      exact hp
  · exact ⟨st, (account_exec_other hu).trans hst, hp⟩

theorem pends_added (b : Broker) (now : Instant) (u : String) (p : PendingDevice) :
    (b.exec now (.addPendingDevice u p)).1.Pends u p := by
  have hafter := @account_exec_subject b now (.addPendingDevice u p) u rfl
  exact ⟨_, hafter, List.mem_append_right _ List.mem_cons_self⟩

theorem pends_of_taken {b : Broker} {u id : String} {p : PendingDevice}
    (h : (b.takePendingDevice u id).2 = some p) : b.Pends u p ∧ p.deviceId = id := by
  unfold takePendingDevice withAccount at h
  cases hst : b.account u with
  | none =>
      rw [hst] at h
      cases h
  | some st =>
      rw [hst] at h
      rcases AccountState.taken_pending h with ⟨hp, hid⟩
      exact ⟨⟨st, hst, hp⟩, hid⟩

end Broker

end CommandRelay
