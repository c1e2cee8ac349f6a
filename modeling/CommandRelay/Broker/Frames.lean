import CommandRelay.Broker.Calls

/-!
# What each broker operation touches

Sending changes channels and the delivery history, never an account; an account
transition changes one account and no channel.  The lemmas below say so for each
helper, in the form the later proofs rewrite with.
-/

namespace CommandRelay

open Foundation

namespace AccountState

def withoutDesktop (conn : ConnId) (st : AccountState) : AccountState :=
  let st := st.dropUploadsOf conn
  if st.heldByOther conn then st
  else
    { st with
      desktopTx := none
      desktopCapabilities := none
      replayQueue := []
      replayTarget := none }

def withClient (tx : ConnId) (info : ClientInfo) (st : AccountState) :
    AccountState :=
  if tx ∈ st.clientTxs then
    { st with clients := AccountState.replaceClient ⟨tx, info⟩ st.clients }
  else if maxClients ≤ st.clients.length then st
  else { st with clients := st.clients ++ [⟨tx, info⟩] }

def withReply (alive : ConnId -> Bool) (id : String)
    (reply : ControlMessage) (now : Instant) (st : AccountState) : AccountState :=
  let st := st.gcSupervisor now
  match st.supervisorPending.lookup id with
  | none => st
  | some entry =>
      if alive entry.owner then
        { st with supervisorPending := st.supervisorPending.erase id }
      else
        { st with
          supervisorPending := st.supervisorPending.modify id fun e =>
            { e with stored := some reply } }

/-!
## Transitions

Each transition changes one table or list of the account and nothing else.
-/

section Transitions

variable (st : AccountState) (id : String) (conn : ConnId) (now : Instant)

theorem beginUpload_frame (size : Nat) :
    (st.beginUpload id size conn now).1 =
      { st with uploads := (st.beginUpload id size conn now).1.uploads } := by
  unfold beginUpload
  by_cases hsize : maxUploadSize < size
  · simp only [if_pos hsize]
    rfl
  · by_cases hslots : maxActiveUploads ≤ (st.gcUploads now).uploads.size
    · simp only [if_neg hsize, if_pos hslots]
      rfl
    · by_cases hdup : ((st.gcUploads now).uploads.lookup id).isSome = true
      · simp only [if_neg hsize, if_neg hslots, if_pos hdup]
        rfl
      · simp only [if_neg hsize, if_neg hslots, if_neg hdup]
        rfl

theorem takeBugReportBuffer_frame :
    (st.takeBugReportBuffer id conn).1 =
      { st with uploads := (st.takeBugReportBuffer id conn).1.uploads } := by
  unfold takeBugReportBuffer
  cases st.uploads.lookup id with
  | none => rfl
  | some e =>
      by_cases hown : e.owner = conn
      · simp only [if_pos hown]
      · simp only [if_neg hown]

theorem recordUploadChunk_frame (payload : Slice) :
    (st.recordUploadChunk id conn payload now).1 =
      { st with uploads := (st.recordUploadChunk id conn payload now).1.uploads } := by
  unfold recordUploadChunk
  simp only []
  cases (st.gcUploads now).uploads.lookup id with
  | none => rfl
  | some e =>
      by_cases hrejects : e.rejects conn = true
      · simp only [if_pos hrejects]
        rfl
      · by_cases hover : e.overruns payload now = true
        · simp only [if_neg hrejects, if_pos hover]
          rfl
        · simp only [if_neg hrejects, if_neg hover]
          rfl

theorem registerDownload_frame :
    (st.registerDownload id conn now).1 =
      { st with downloads := (st.registerDownload id conn now).1.downloads } := by
  unfold registerDownload
  by_cases hslots : maxActiveDownloads ≤ (st.gcDownloads now).downloads.size
  · simp only [if_pos hslots]
    rfl
  · simp only [if_neg hslots]
    rfl

theorem recordDownloadChunk_frame (payload : Slice) :
    (st.recordDownloadChunk id payload now).1 =
      { st with downloads := (st.recordDownloadChunk id payload now).1.downloads } := by
  unfold recordDownloadChunk
  simp only []
  cases (st.gcDownloads now).downloads.lookup id with
  | none => rfl
  | some e =>
      by_cases hover : e.overruns payload now = true
      · simp only [if_pos hover]
        rfl
      · simp only [if_neg hover]
        rfl

theorem beginSupervisorQuery_frame :
    (st.beginSupervisorQuery id conn now).1 =
      { st with
        supervisorPending := (st.beginSupervisorQuery id conn now).1.supervisorPending } := by
  unfold beginSupervisorQuery
  simp only []
  cases (st.gcSupervisor now).supervisorPending.lookup id with
  | none =>
      by_cases hcap : maxPendingSupervisor ≤ (st.gcSupervisor now).supervisorPending.size
      · simp only [if_pos hcap]
        rfl
      · simp only [if_neg hcap]
        rfl
  | some e =>
      cases e with
      | mk owner stored created =>
          cases stored with
          | none => rfl
          | some text => rfl

theorem withReply_frame (alive : ConnId -> Bool) (reply : ControlMessage) :
    st.withReply alive id reply now =
      { st with
        supervisorPending := (st.withReply alive id reply now).supervisorPending } := by
  unfold withReply
  simp only []
  cases (st.gcSupervisor now).supervisorPending.lookup id with
  | none => rfl
  | some e =>
      by_cases halive : alive e.owner = true
      · simp only [if_pos halive]
        rfl
      · simp only [if_neg halive]
        rfl

theorem withClient_frame (info : ClientInfo) :
    st.withClient conn info =
      { st with clients := (st.withClient conn info).clients } := by
  unfold withClient
  by_cases hmem : conn ∈ st.clientTxs
  · simp only [if_pos hmem]
  · by_cases hfull : maxClients ≤ st.clients.length
    · simp only [if_neg hmem, if_pos hfull]
    · simp only [if_neg hmem, if_neg hfull]

theorem queueReplay_frame :
    st.queueReplay id conn =
      { st with replayQueue := (st.queueReplay id conn).replayQueue } := by
  unfold queueReplay
  by_cases hroom : st.replayQueue.length < maxReplayQueue
  · simp only [if_pos hroom]
  · simp only [if_neg hroom]

theorem takePendingDevice_frame :
    (st.takePendingDevice id).1 =
      { st with pendingDevices := (st.takePendingDevice id).1.pendingDevices } := by
  unfold takePendingDevice
  cases st.pendingDevices.findIdx? fun p => p.deviceId = id with
  | none => rfl
  | some idx => rfl

end Transitions

end AccountState

namespace Broker

/-!
## Accounts
-/

@[simp] theorem account_setChannel (b : Broker) (tx : ConnId) (ch : Channel)
    (u : String) : (b.setChannel tx ch).account u = b.account u := rfl

theorem send_frame (b : Broker) (tx : ConnId) (msg : WsMessage) :
    (b.send tx msg).1 =
      { b.setChannel tx ((b.channels tx).send msg).1 with
        delivered := (b.send tx msg).1.delivered } := by
  unfold send
  by_cases h : ((b.channels tx).send msg).2 = true
  · simp only [if_pos h]
  · simp only [if_neg h]

@[simp] theorem account_send (b : Broker) (tx : ConnId) (msg : WsMessage)
    (u : String) : (b.send tx msg).1.account u = b.account u := by
  rw [send_frame]
  rfl

@[simp] theorem account_sendAll (b : Broker) (txs : List ConnId) (msg : WsMessage)
    (u : String) : (b.sendAll txs msg).account u = b.account u := by
  unfold sendAll
  induction txs generalizing b with
  | nil => rfl
  | cons tx rest ih =>
      rw [List.foldl_cons, ih]
      exact account_send b tx msg u

theorem account_broadcastShutdown (b : Broker) (u : String) :
    b.broadcastShutdown.account u = b.account u := by
  unfold broadcastShutdown
  generalize b.accounts.entries = entries
  induction entries generalizing b with
  | nil => rfl
  | cons e rest ih =>
      rw [List.foldl_cons, ih]
      exact account_sendAll b _ _ u

@[simp] theorem account_sendOutput (b : Broker) (tx : ConnId) (msg : WsMessage)
    (u : String) : (b.sendOutput tx msg).1.account u = b.account u := by
  unfold sendOutput
  by_cases hdirty : (b.channels tx).dirty = true
  · simp [hdirty]
  · by_cases hover : (b.channels tx).overBudget msg = true
    · simp [hdirty, hover]
    · simp [hdirty, hover]

@[simp] theorem account_outputTo (b : Broker) (tx : ConnId) (msg : WsMessage)
    (u : String) : (b.outputTo tx msg).account u = b.account u := by
  unfold outputTo
  by_cases hnudge : (b.sendOutput tx msg).2 = true
  · simp only [if_pos hnudge]
    exact account_sendOutput b tx msg u
  · simp only [if_neg hnudge]
    exact account_sendOutput b tx msg u

@[simp] theorem account_broadcastOutput (b : Broker) (txs : List ConnId)
    (msg : WsMessage) (u : String) :
    (b.broadcastOutput txs msg).account u = b.account u := by
  unfold broadcastOutput
  induction txs generalizing b with
  | nil => rfl
  | cons tx rest ih =>
      rw [List.foldl_cons, ih]
      exact account_outputTo b tx msg u

@[simp] theorem account_sendEach (b : Broker) (txs : List ConnId) (msg : WsMessage)
    (u : String) : (b.sendEach txs msg).1.account u = b.account u := by
  unfold sendEach
  suffices h : forall acc : Broker × Bool,
      (txs.foldl (fun acc tx =>
        ((acc.1.send tx msg).1, acc.2 || (acc.1.send tx msg).2)) acc).1.account u =
        acc.1.account u from h (b, false)
  intro acc
  induction txs generalizing acc with
  | nil => rfl
  | cons tx rest ih =>
      rw [List.foldl_cons, ih]
      exact account_send acc.1 tx msg u

@[simp] theorem account_clearDirty (b : Broker) (tx : ConnId) (u : String) :
    (b.clearDirty tx).account u = b.account u := rfl

theorem account_put (b : Broker) (u : String) (st : AccountState) (v : String) :
    (b.put u st).account v = if v = u then some st else b.account v :=
  Table.lookup_insert_of_eq u v st b.accounts

@[simp] theorem account_put_same (b : Broker) (u : String) (st : AccountState) :
    (b.put u st).account u = some st := by
  simp [account_put]

theorem account_withEntry (b : Broker) (u : String)
    (f : AccountState -> AccountState × α) (v : String) :
    (b.withEntry u f).1.account v =
      if v = u then some (f (b.entry u)).1 else b.account v :=
  account_put b u (f (b.entry u)).1 v

theorem account_withAccount (b : Broker) (u : String) (absent : α)
    (f : AccountState -> AccountState × α) (v : String) :
    (b.withAccount u absent f).1.account v =
      if v = u then (b.account u).map fun st => (f st).1 else b.account v := by
  unfold withAccount
  cases hst : b.account u with
  | none =>
      by_cases hv : v = u
      · simp [hv, hst]
      · simp [hv]
  | some st =>
      simp [account_put]

@[simp] theorem account_replayDesktopStatus (b : Broker) (st : AccountState)
    (tx : ConnId) (u : String) :
    (b.replayDesktopStatus st tx).account u = b.account u := by
  unfold replayDesktopStatus
  cases st.desktopTx with
  | none => rfl
  | some _ => simp

@[simp] theorem account_evictDesktop (b : Broker) (st : AccountState) (u : String) :
    (b.evictDesktop st).account u = b.account u := by
  unfold evictDesktop
  cases st.desktopTx with
  | none => rfl
  | some old => simp

theorem account_registerDesktop (b : Broker) (u : String) (tx : ConnId)
    (capabilities : Option (List String)) (v : String) :
    (b.registerDesktop u tx capabilities).account v =
      if v = u then
        some
          { b.entry u with
            desktopTx := some tx
            desktopCapabilities := capabilities
            replayQueue := []
            replayTarget := none }
      else b.account v := by
  simp [registerDesktop, account_put]

theorem account_unregisterDesktop (b : Broker) (u : String) (conn : ConnId)
    (v : String) :
    (b.unregisterDesktop u conn).account v =
      if v = u then (b.account u).map (AccountState.withoutDesktop conn)
      else b.account v := by
  unfold unregisterDesktop
  cases hst : b.account u with
  | none =>
      by_cases hv : v = u
      · simp [hv, hst]
      · simp [hv]
  | some st =>
      by_cases hstale : (st.dropUploadsOf conn).heldByOther conn = true
      · simp [AccountState.withoutDesktop, hstale, account_put]
      · simp [AccountState.withoutDesktop, hstale, account_put]

theorem account_registerClient (b : Broker) (u : String) (tx : ConnId)
    (info : ClientInfo) (v : String) :
    (b.registerClient u tx info).1.account v =
      if v = u then some (AccountState.withClient tx info (b.entry u))
      else b.account v := by
  unfold registerClient AccountState.withClient
  by_cases hmem : tx ∈ (b.entry u).clientTxs
  · simp [hmem, account_put]
  · by_cases hfull : maxClients ≤ (b.entry u).clients.length
    · simp [hmem, hfull, account_put]
    · simp [hmem, hfull, account_put]

theorem account_noteSessionListRequest (b : Broker) (u deviceId : String)
    (conn : ConnId) (v : String) :
    (b.noteSessionListRequest u deviceId conn).account v =
      if v = u then (b.account u).map (AccountState.queueReplay deviceId conn)
      else b.account v := by
  unfold noteSessionListRequest
  cases hst : b.account u with
  | none =>
      by_cases hv : v = u
      · simp [hv, hst]
      · simp [hv]
  | some st => simp [account_put]

@[simp] theorem account_sendToDesktop (b : Broker) (u : String) (msg : WsMessage)
    (v : String) : (b.sendToDesktop u msg).1.account v = b.account v := by
  unfold sendToDesktop
  cases (b.account u).bind AccountState.desktopTx with
  | none => rfl
  | some tx => simp

@[simp] theorem account_broadcastToClients (b : Broker) (u : String)
    (msg : WsMessage) (v : String) :
    (b.broadcastToClients u msg).account v = b.account v := by
  unfold broadcastToClients
  cases b.account u with
  | none => rfl
  | some st =>
      by_cases hpty : msg.isPtyOutput = true
      · simp [hpty]
      · simp [hpty]

@[simp] theorem account_sendToClient (b : Broker) (u deviceId : String)
    (msg : WsMessage) (v : String) :
    (b.sendToClient u deviceId msg).1.account v = b.account v := by
  unfold sendToClient
  cases b.account u with
  | none => rfl
  | some st => simp

theorem send_delivers (b : Broker) (tx : ConnId) (msg : WsMessage) :
    (b.send tx msg).2 = (b.channels tx).receiverAlive := by
  unfold send
  cases halive : (b.channels tx).receiverAlive <;> simp [halive]

theorem account_resolveSupervisor (b : Broker) (u id : String)
    (reply : ControlMessage) (now : Instant) (v : String) :
    (b.resolveSupervisor u id reply now).1.account v =
      if v = u then
        (b.account u).map
          (AccountState.withReply (fun tx => (b.channels tx).receiverAlive) id reply now)
      else b.account v := by
  unfold resolveSupervisor
  cases hst : b.account u with
  | none =>
      by_cases hv : v = u
      · simp [hv, hst]
      · simp [hv]
  | some st =>
      cases hentry : (st.gcSupervisor now).supervisorPending.lookup id with
      | none => simp [AccountState.withReply, hentry, account_put]
      | some entry =>
          cases halive : (b.channels entry.owner).receiverAlive <;>
            simp [AccountState.withReply, hentry, halive, send_delivers, account_put]

@[simp] theorem account_runNudge (b : Broker) (tx : ConnId) (now : Instant)
    (u : String) : (b.runNudge tx now).account u = b.account u := by
  unfold runNudge
  by_cases hdue : (b.channels tx).nudgeDue now = true
  · simp only [if_pos hdue]
    rw [account_send]
    rfl
  · simp only [if_neg hdue]
    rfl

@[simp] theorem account_drain (b : Broker) (tx : ConnId) (u : String) :
    (b.drain tx).account u = b.account u := rfl

@[simp] theorem account_stopWriter (b : Broker) (tx : ConnId) (u : String) :
    (b.stopWriter tx).account u = b.account u := rfl

end Broker

/-!
## Operations

Every broker operation changes at most the account it names, and does so by one
account transition.
-/

namespace BrokerCall

def subject? : BrokerCall -> Option String
  | send .. | replayTarget _ | isDesktopOnline _ | sendToDesktop .. => none
  | broadcastToClients .. | sendToClient .. | getConnectedClients _ => none
  | registerDesktop username .. | unregisterDesktop username _ => some username
  | registerClient username .. | unregisterClient username .. => some username
  | unregisterDevice username _ | noteSessionListRequest username .. => some username
  | beginReplay username | endReplay username => some username
  | beginUpload username .. | markBugReportUpload username .. => some username
  | takeBugReportBuffer username .. | recordUploadChunk username .. => some username
  | finishUpload username .. | resolveUpload username _ => some username
  | registerDownload username .. | noteDownloadBegin username .. => some username
  | recordDownloadChunk username .. | resolveDownload username _ => some username
  | beginSupervisorQuery username .. | resolveSupervisor username .. => some username
  | addPendingDevice username _ | takePendingDevice username _ => some username

def creates : BrokerCall -> Bool
  | registerDesktop .. | registerClient .. | beginUpload .. => true
  | registerDownload .. | beginSupervisorQuery .. | addPendingDevice .. => true
  | _ => false

end BrokerCall

def AccountState.after (alive : ConnId -> Bool) (now : Instant) (st : AccountState) :
    BrokerCall -> AccountState
  | .registerDesktop _ tx capabilities =>
      { st with
        desktopTx := some tx
        desktopCapabilities := capabilities
        replayQueue := []
        replayTarget := none }
  | .unregisterDesktop _ conn => st.withoutDesktop conn
  | .registerClient _ tx info => st.withClient tx info
  | .unregisterClient _ _ conn => st.unregisterClient conn
  | .unregisterDevice _ deviceId => st.unregisterDevice deviceId
  | .noteSessionListRequest _ deviceId conn => st.queueReplay deviceId conn
  | .beginReplay _ => st.beginReplay
  | .endReplay _ => st.endReplay.1
  | .beginUpload _ uploadId size conn => (st.beginUpload uploadId size conn now).1
  | .markBugReportUpload _ uploadId conn => st.markBugReportUpload uploadId conn
  | .takeBugReportBuffer _ uploadId conn => (st.takeBugReportBuffer uploadId conn).1
  | .recordUploadChunk _ uploadId conn payload =>
      (st.recordUploadChunk uploadId conn payload now).1
  | .finishUpload _ uploadId conn => st.finishUpload uploadId conn now
  | .resolveUpload _ uploadId => (st.resolveUpload uploadId now).1
  | .registerDownload _ downloadId conn => (st.registerDownload downloadId conn now).1
  | .noteDownloadBegin _ downloadId size => (st.noteDownloadBegin downloadId size now).1
  | .recordDownloadChunk _ downloadId payload =>
      (st.recordDownloadChunk downloadId payload now).1
  | .resolveDownload _ downloadId => (st.resolveDownload downloadId now).1
  | .beginSupervisorQuery _ id conn => (st.beginSupervisorQuery id conn now).1
  | .resolveSupervisor _ id reply => st.withReply alive id reply now
  | .addPendingDevice _ pending =>
      { st with pendingDevices := st.pendingDevices ++ [pending] }
  | .takePendingDevice _ deviceId => (st.takePendingDevice deviceId).1
  | _ => st

/-!
An account has seven parts; an operation touches at most a few of them.
-/

inductive AccountPart where
  | desktop
  | uploads
  | downloads
  | supervisor
  | clients
  | pending
  | replay
  deriving DecidableEq

def BrokerCall.touches : BrokerCall -> List AccountPart
  | registerDesktop .. => [.desktop, .replay]
  | unregisterDesktop .. => [.desktop, .uploads, .replay]
  | registerClient .. => [.clients]
  | unregisterClient .. => [.clients, .uploads, .downloads, .replay]
  | unregisterDevice .. => [.clients, .replay]
  | noteSessionListRequest .. | beginReplay _ | endReplay _ => [.replay]
  | beginUpload .. | markBugReportUpload .. | takeBugReportBuffer .. => [.uploads]
  | recordUploadChunk .. | finishUpload .. | resolveUpload .. => [.uploads]
  | registerDownload .. | noteDownloadBegin .. => [.downloads]
  | recordDownloadChunk .. | resolveDownload .. => [.downloads]
  | beginSupervisorQuery .. | resolveSupervisor .. => [.supervisor]
  | addPendingDevice .. | takePendingDevice .. => [.pending]
  | _ => []

namespace AccountState

def Agree (st st' : AccountState) : AccountPart -> Prop
  | .desktop =>
      (st.desktopTx, st.desktopCapabilities) = (st'.desktopTx, st'.desktopCapabilities)
  | .uploads => st.uploads = st'.uploads
  | .downloads => st.downloads = st'.downloads
  | .supervisor => st.supervisorPending = st'.supervisorPending
  | .clients => st.clients = st'.clients
  | .pending => st.pendingDevices = st'.pendingDevices
  | .replay => (st.replayQueue, st.replayTarget) = (st'.replayQueue, st'.replayTarget)

theorem withoutDesktop_agree (st : AccountState) (conn : ConnId) {part : AccountPart}
    (h : part ∉ [AccountPart.desktop, .uploads, .replay]) :
    Agree (st.withoutDesktop conn) st part := by
  unfold withoutDesktop
  by_cases hstale : (st.dropUploadsOf conn).heldByOther conn = true
  · simp only [if_pos hstale]
    cases part <;> first | rfl | simp at h
  · simp only [if_neg hstale]
    cases part <;> first | rfl | simp at h

theorem after_agree (st : AccountState) (part : AccountPart) (alive : ConnId -> Bool)
    (now : Instant) {c : BrokerCall} (h : part ∉ c.touches) :
    Agree (st.after alive now c) st part := by
  cases c
  case unregisterDesktop v conn => exact st.withoutDesktop_agree conn h
  case registerClient v tx info =>
      simp only [after]
      rw [withClient_frame]
      cases part <;> first | rfl | simp [BrokerCall.touches] at h
  case noteSessionListRequest v deviceId conn =>
      simp only [after]
      rw [queueReplay_frame]
      cases part <;> first | rfl | simp [BrokerCall.touches] at h
  case beginUpload v uploadId size conn =>
      simp only [after]
      rw [beginUpload_frame]
      cases part <;> first | rfl | simp [BrokerCall.touches] at h
  case takeBugReportBuffer v uploadId conn =>
      simp only [after]
      rw [takeBugReportBuffer_frame]
      cases part <;> first | rfl | simp [BrokerCall.touches] at h
  case recordUploadChunk v uploadId conn payload =>
      simp only [after]
      rw [recordUploadChunk_frame]
      cases part <;> first | rfl | simp [BrokerCall.touches] at h
  case registerDownload v downloadId conn =>
      simp only [after]
      rw [registerDownload_frame]
      cases part <;> first | rfl | simp [BrokerCall.touches] at h
  case recordDownloadChunk v downloadId payload =>
      simp only [after]
      rw [recordDownloadChunk_frame]
      cases part <;> first | rfl | simp [BrokerCall.touches] at h
  case beginSupervisorQuery v queryId conn =>
      simp only [after]
      rw [beginSupervisorQuery_frame]
      cases part <;> first | rfl | simp [BrokerCall.touches] at h
  case resolveSupervisor v queryId reply =>
      simp only [after]
      rw [withReply_frame]
      cases part <;> first | rfl | simp [BrokerCall.touches] at h
  case takePendingDevice v deviceId =>
      simp only [after]
      rw [takePendingDevice_frame]
      cases part <;> first | rfl | simp [BrokerCall.touches] at h
  all_goals cases part <;> first | rfl | simp [BrokerCall.touches] at h

end AccountState

namespace Broker

def alive (b : Broker) (tx : ConnId) : Bool :=
  (b.channels tx).receiverAlive

theorem account_exec_other {b : Broker} {now : Instant} {c : BrokerCall} {u : String}
    (h : c.subject? ≠ some u) : (b.exec now c).1.account u = b.account u := by
  have hother : forall v, c.subject? = some v -> u ≠ v := fun v hv hu => h (hu ▸ hv)
  cases c
  case send tx msg => exact account_send b tx msg u
  case sendToDesktop v msg => exact account_sendToDesktop b v msg u
  case broadcastToClients v msg => exact account_broadcastToClients b v msg u
  case sendToClient v deviceId msg => exact account_sendToClient b v deviceId msg u
  case replayTarget v => rfl
  case isDesktopOnline v => rfl
  case getConnectedClients v => rfl
  case registerDesktop v tx capabilities =>
      exact (account_registerDesktop b v tx capabilities u).trans (if_neg (hother _ rfl))
  case unregisterDesktop v conn =>
      exact (account_unregisterDesktop b v conn u).trans (if_neg (hother _ rfl))
  case registerClient v tx info =>
      exact (account_registerClient b v tx info u).trans (if_neg (hother _ rfl))
  case noteSessionListRequest v deviceId conn =>
      exact (account_noteSessionListRequest b v deviceId conn u).trans (if_neg (hother _ rfl))
  case resolveSupervisor v id reply =>
      exact (account_resolveSupervisor b v id reply now u).trans (if_neg (hother _ rfl))
  case addPendingDevice v pending =>
      show (b.addPendingDevice v pending).account u = _
      exact (account_withEntry b v _ u).trans (if_neg (hother _ rfl))
  case beginUpload | registerDownload | beginSupervisorQuery =>
      exact (account_withEntry b _ _ u).trans (if_neg (hother _ rfl))
  all_goals exact (account_withAccount b _ _ _ u).trans (if_neg (hother _ rfl))

theorem account_exec_subject {b : Broker} {now : Instant} {c : BrokerCall} {u : String}
    (h : c.subject? = some u) :
    (b.exec now c).1.account u =
      if c.creates then some ((b.entry u).after b.alive now c)
      else (b.account u).map fun st => st.after b.alive now c := by
  cases c <;> cases h
  case registerDesktop tx capabilities =>
      exact (account_registerDesktop b u tx capabilities u).trans (if_pos rfl)
  case unregisterDesktop conn =>
      exact (account_unregisterDesktop b u conn u).trans (if_pos rfl)
  case registerClient tx info =>
      exact (account_registerClient b u tx info u).trans (if_pos rfl)
  case noteSessionListRequest deviceId conn =>
      exact (account_noteSessionListRequest b u deviceId conn u).trans (if_pos rfl)
  case resolveSupervisor id reply =>
      exact (account_resolveSupervisor b u id reply now u).trans (if_pos rfl)
  case addPendingDevice pending =>
      show (b.addPendingDevice u pending).account u = _
      exact (account_withEntry b u _ u).trans (if_pos rfl)
  case beginUpload | registerDownload | beginSupervisorQuery =>
      exact (account_withEntry b u _ u).trans (if_pos rfl)
  all_goals exact (account_withAccount b u _ _ u).trans (if_pos rfl)

theorem account_exec_of_some {b : Broker} {u : String} {st : AccountState} (op : BrokerCall)
    (now : Instant) (hst : b.account u = some st) (hsubject : op.subject? = some u) :
    (b.exec now op).1.account u = some (st.after b.alive now op) := by
  rw [account_exec_subject hsubject]
  simp [hst, entry]

end Broker

/-!
## Step relations

An operation is a sequence of a few primitive steps.  A reflexive and transitive
relation that each primitive step respects holds between a broker and itself
after any operation.
-/

def BrokerCall.regulates : BrokerCall -> Bool
  | noteSessionListRequest .. => true
  | broadcastToClients _ msg => msg.isPtyOutput
  | _ => false

namespace Broker

/-- A relation respected by account updates and unconditional sends. -/
structure SendRelation (rel : Broker -> Broker -> Prop) : Prop where
  refl : forall b, rel b b
  trans : forall {b b' b''}, rel b b' -> rel b' b'' -> rel b b''
  put : forall b u st, rel b (b.put u st)
  send : forall b tx msg, rel b (b.send tx msg).1

namespace SendRelation

variable {rel : Broker -> Broker -> Prop} (h : SendRelation rel) (b : Broker)
include h

theorem sendAll (txs : List ConnId) (msg : WsMessage) : rel b (b.sendAll txs msg) := by
  unfold Broker.sendAll
  induction txs generalizing b with
  | nil => exact h.refl b
  | cons tx rest ih => exact h.trans (h.send b tx msg) (ih _)

theorem sendEach (txs : List ConnId) (msg : WsMessage) :
    rel b (b.sendEach txs msg).1 := by
  unfold Broker.sendEach
  suffices hacc : forall acc : Broker × Bool, rel acc.1
      (txs.foldl (fun acc tx =>
        ((acc.1.send tx msg).1, acc.2 || (acc.1.send tx msg).2)) acc).1 from hacc (b, false)
  intro acc
  induction txs generalizing acc with
  | nil => exact h.refl acc.1
  | cons tx rest ih =>
      exact h.trans (h.send acc.1 tx msg)
        (ih ((acc.1.send tx msg).1, acc.2 || (acc.1.send tx msg).2))

theorem evictDesktop (st : AccountState) : rel b (b.evictDesktop st) := by
  unfold Broker.evictDesktop
  cases st.desktopTx with
  | none => exact h.refl b
  | some old => exact h.send b old .close

theorem replayDesktopStatus (st : AccountState) (tx : ConnId) :
    rel b (b.replayDesktopStatus st tx) := by
  unfold Broker.replayDesktopStatus
  cases st.desktopTx with
  | none => exact h.refl b
  | some _ => exact h.send b tx _

theorem withAccount (u : String) (absent : α) (f : AccountState -> AccountState × α) :
    rel b (b.withAccount u absent f).1 := by
  unfold Broker.withAccount
  cases b.account u with
  | none => exact h.refl b
  | some st => exact h.put b u _

theorem exec (now : Instant) {c : BrokerCall} (hop : c.regulates = false) :
    rel b (b.exec now c).1 := by
  cases c
  case send tx msg => exact h.send b tx msg
  case registerDesktop v tx capabilities =>
      exact h.trans (h.trans (h.evictDesktop b _) (h.put _ _ _)) (h.sendAll _ _ _)
  case unregisterDesktop v conn =>
      show rel b (b.unregisterDesktop v conn)
      unfold unregisterDesktop
      cases b.account v with
      | none => exact h.refl b
      | some st =>
          by_cases hstale : (st.dropUploadsOf conn).heldByOther conn = true
          · simp only [if_pos hstale]
            exact h.put b v _
          · simp only [if_neg hstale]
            exact h.trans (h.put b v _) (h.sendAll _ _ _)
  case registerClient v tx info =>
      show rel b (b.registerClient v tx info).1
      unfold registerClient
      by_cases hmem : tx ∈ (b.entry v).clientTxs
      · simp only [if_pos hmem]
        exact h.trans (h.put b v _) (h.replayDesktopStatus _ _ _)
      · by_cases hfull : maxClients ≤ (b.entry v).clients.length
        · simp only [if_neg hmem, if_pos hfull]
          exact h.put b v _
        · simp only [if_neg hmem, if_neg hfull]
          exact h.trans (h.put b v _) (h.replayDesktopStatus _ _ _)
  case noteSessionListRequest => cases hop
  case sendToDesktop v msg =>
      show rel b (b.sendToDesktop v msg).1
      unfold sendToDesktop
      cases (b.account v).bind AccountState.desktopTx with
      | none => exact h.refl b
      | some tx => exact h.send b tx msg
  case broadcastToClients v msg =>
      show rel b (b.broadcastToClients v msg)
      unfold broadcastToClients
      cases b.account v with
      | none => exact h.refl b
      | some st =>
          have hpty : msg.isPtyOutput = false := by simpa [BrokerCall.regulates] using hop
          simp only [hpty, Bool.false_eq_true, if_false]
          exact h.sendAll b _ msg
  case sendToClient v deviceId msg =>
      show rel b (b.sendToClient v deviceId msg).1
      unfold sendToClient
      cases b.account v with
      | none => exact h.refl b
      | some st => exact h.sendEach b _ msg
  case resolveSupervisor v id reply =>
      show rel b (b.resolveSupervisor v id reply now).1
      unfold resolveSupervisor
      cases b.account v with
      | none => exact h.refl b
      | some st =>
          cases hentry : (st.gcSupervisor now).supervisorPending.lookup id with
          | none =>
              simp only [hentry]
              exact h.put b v _
          | some entry =>
              by_cases hsent : (b.send entry.owner (.text reply)).2 = true
              · simp only [hentry, if_pos hsent]
                exact h.trans (h.send b _ _) (h.put _ v _)
              · simp only [hentry, if_neg hsent]
                exact h.trans (h.send b _ _) (h.put _ v _)
  all_goals first
    | exact h.refl b
    | exact h.put b _ _
    | exact h.withAccount b _ _ _

end SendRelation

/-- A relation that live output and its recovery respect as well. -/
structure StepRelation (rel : Broker -> Broker -> Prop) : Prop where
  refl : forall b, rel b b
  trans : forall {b b' b''}, rel b b' -> rel b' b'' -> rel b b''
  put : forall b u st, rel b (b.put u st)
  send : forall b tx msg, rel b (b.send tx msg).1
  clearDirty : forall b tx, rel b (b.clearDirty tx)
  outputTo : forall b tx msg, rel b (b.outputTo tx msg)

namespace StepRelation

variable {rel : Broker -> Broker -> Prop} (h : StepRelation rel) (b : Broker)
include h

theorem toSendRelation : SendRelation rel where
  refl := h.refl
  trans := h.trans
  put := h.put
  send := h.send

theorem broadcastOutput (txs : List ConnId) (msg : WsMessage) :
    rel b (b.broadcastOutput txs msg) := by
  unfold Broker.broadcastOutput
  induction txs generalizing b with
  | nil => exact h.refl b
  | cons tx rest ih => exact h.trans (h.outputTo b tx msg) (ih _)

theorem exec (now : Instant) (c : BrokerCall) : rel b (b.exec now c).1 := by
  cases hop : c.regulates with
  | false => exact h.toSendRelation.exec b now hop
  | true =>
      cases c <;> simp [BrokerCall.regulates] at hop
      case noteSessionListRequest v deviceId conn =>
          show rel b (b.noteSessionListRequest v deviceId conn)
          unfold noteSessionListRequest
          cases b.account v with
          | none => exact h.refl b
          | some st => exact h.trans (h.put b v _) (h.clearDirty _ conn)
      case broadcastToClients v msg =>
          show rel b (b.broadcastToClients v msg)
          unfold broadcastToClients
          cases b.account v with
          | none => exact h.refl b
          | some st =>
              simp only [if_pos hop]
              exact h.broadcastOutput b _ msg

end StepRelation

end Broker

/-!
## Receivers

Only a writer can end a connection's receiver: no broker operation does.
-/

namespace Broker

theorem alive_setChannel (b : Broker) (tx : ConnId) (ch : Channel) (tx' : ConnId) :
    (b.setChannel tx ch).alive tx' =
      if tx' = tx then ch.receiverAlive else b.alive tx' := by
  by_cases htx : tx' = tx
  · subst htx
    simp [alive, setChannel]
  · simp [alive, setChannel, htx]

theorem alive_setChannel_same {b : Broker} {tx : ConnId} {ch : Channel}
    (h : ch.receiverAlive = b.alive tx) (tx' : ConnId) :
    (b.setChannel tx ch).alive tx' = b.alive tx' := by
  rw [alive_setChannel]
  by_cases htx : tx' = tx
  · simp [htx, h]
  · simp [htx]

theorem alive_send (b : Broker) (tx : ConnId) (msg : WsMessage) (tx' : ConnId) :
    (b.send tx msg).1.alive tx' = b.alive tx' := by
  rw [send_frame]
  exact alive_setChannel_same (by simp [alive]) tx'

theorem alive_outputTo (b : Broker) (tx : ConnId) (msg : WsMessage) (tx' : ConnId) :
    (b.outputTo tx msg).alive tx' = b.alive tx' := by
  unfold outputTo sendOutput
  by_cases hdirty : (b.channels tx).dirty = true
  · simp [hdirty]
  · by_cases hover : (b.channels tx).overBudget msg = true
    · simp only [if_neg hdirty, if_pos hover, if_true]
      exact alive_setChannel_same (by rfl) tx'
    · simp [hdirty, hover, alive_send]

theorem alive_exec (b : Broker) (now : Instant) (c : BrokerCall) (tx' : ConnId) :
    (b.exec now c).1.alive tx' = b.alive tx' := by
  have hrel : StepRelation fun b b' => b'.alive tx' = b.alive tx' :=
    { refl := fun _ => rfl
      trans := fun h h' => h'.trans h
      put := fun _ _ _ => rfl
      send := fun b tx msg => alive_send b tx msg tx'
      clearDirty := fun _ _ => alive_setChannel_same (by rfl) tx'
      outputTo := fun b tx msg => alive_outputTo b tx msg tx' }
  exact hrel.exec b now c

theorem alive_runNudge (b : Broker) (tx : ConnId) (now : Instant) (tx' : ConnId) :
    (b.runNudge tx now).alive tx' = b.alive tx' := by
  unfold runNudge
  by_cases hdue : (b.channels tx).nudgeDue now = true
  · simp only [if_pos hdue, alive_send]
    exact alive_setChannel_same (by rfl) tx'
  · simp only [if_neg hdue]
    rfl

theorem delivered_send (b : Broker) (tx : ConnId) (msg : WsMessage) :
    (b.send tx msg).1.delivered =
      if b.alive tx then (tx, msg) :: b.delivered else b.delivered := by
  cases halive : b.alive tx with
  | true =>
      have hreceiver : (b.channels tx).receiverAlive = true := halive
      simp [send, setChannel, hreceiver]
  | false =>
      have hreceiver : (b.channels tx).receiverAlive = false := halive
      simp [send, setChannel, hreceiver]

theorem nudges_send (b : Broker) (tx : ConnId) (msg : WsMessage) :
    (b.send tx msg).1.nudges = b.nudges := by
  rw [send_frame]
  rfl

theorem alive_drain_ne {b : Broker} {tx tx' : ConnId} (hne : tx' ≠ tx) :
    (b.drain tx).alive tx' = b.alive tx' := by
  unfold drain
  rw [alive_setChannel, if_neg hne]

theorem alive_stopWriter_ne {b : Broker} {tx tx' : ConnId} (hne : tx' ≠ tx) :
    (b.stopWriter tx).alive tx' = b.alive tx' := by
  unfold stopWriter
  rw [alive_setChannel, if_neg hne]

theorem alive_of_alive_drain {b : Broker} {tx tx' : ConnId}
    (h : (b.drain tx).alive tx' = true) : b.alive tx' = true := by
  by_cases htx : tx' = tx
  · subst htx
    unfold drain at h
    rw [alive_setChannel] at h
    simp only [if_true] at h
    unfold Channel.drain at h
    cases hqueue : (b.channels tx').queue with
    | nil => simpa [hqueue, alive] using h
    | cons msg rest =>
        cases msg with
        | close => simp [hqueue, Channel.stop] at h
        | text message => simpa [hqueue, alive] using h
        | binary bytes => simpa [hqueue, alive] using h
  · rwa [alive_drain_ne htx] at h

theorem alive_of_alive_stopWriter {b : Broker} {tx tx' : ConnId}
    (h : (b.stopWriter tx).alive tx' = true) : b.alive tx' = true := by
  by_cases htx : tx' = tx
  · unfold stopWriter at h
    rw [alive_setChannel] at h
    simp [htx, Channel.stop] at h
  · rwa [alive_stopWriter_ne htx] at h

end Broker

/-!
## Parts of an account

The proofs about one kind of entry look at one part of an account, such as the
upload under one id.  An absent account has no parts.
-/

namespace Broker

def part (b : Broker) (u : String) (field : AccountState -> Option β) : Option β :=
  (b.account u).bind field

variable {field : AccountState -> Option β}

theorem part_congr {b b' : Broker} {u : String}
    (h : b'.account u = b.account u) : b'.part u field = b.part u field := by
  simp [part, h]

theorem field_entry (b : Broker) (u : String) (hnew : field AccountState.new = none) :
    field (b.entry u) = b.part u field := by
  unfold entry part
  cases b.account u with
  | none => exact hnew
  | some st => rfl

theorem part_exec {b : Broker} {now : Instant} {c : BrokerCall} {u : String}
    (change : Option β -> Option β) (hu : c.subject? = some u)
    (hnew : field AccountState.new = none)
    (habsent : c.creates = false -> change none = none)
    (hchange : field ((b.entry u).after b.alive now c) = change (field (b.entry u))) :
    (b.exec now c).1.part u field = change (b.part u field) := by
  rw [← field_entry b u hnew, ← hchange]
  unfold part
  rw [account_exec_subject hu]
  cases hcreates : c.creates with
  | true => rfl
  | false =>
      cases hst : b.account u with
      | none =>
          have hfresh : b.entry u = AccountState.new := by simp [entry, hst]
          rw [hchange, hfresh, hnew, habsent hcreates]
          rfl
      | some st =>
          have hentry : b.entry u = st := by simp [entry, hst]
          rw [hentry]
          rfl

end Broker

end CommandRelay
