import CommandRelay.Broker.Connection
import CommandRelay.Foundation.KeyedTable

/-!
# Per-account state

The state the broker keeps for one account, and the transitions of its parts:
governed uploads and downloads, pending supervisor queries, registered clients,
pending devices and replay routing.
-/

namespace CommandRelay

open Foundation

/-- A Rust slice of bytes: its length never exceeds `isize::MAX`. -/
structure Slice where
  bytes : Bytes
  fits : bytes.length < 0x8000000000000000

namespace Slice

def length (s : Slice) : Nat :=
  s.bytes.length

/-- `&s[n..]`. -/
def drop (n : Nat) (s : Slice) : Slice where
  bytes := s.bytes.drop n
  fits := Nat.lt_of_le_of_lt (by simp) s.fits

end Slice

/-- Addition of `u64` values, which wraps in a release build. -/
def addU64 (a b : Nat) : Nat :=
  (a + b) % 0x10000000000000000

structure ClientInfo where
  deviceId : String
  deviceName : String
  ip : String
  connectedAt : String

/-- A connected client with its sender channel and info. -/
structure ClientConnection where
  tx : ConnId
  info : ClientInfo

/-- Pending device approval request. -/
structure PendingDevice where
  deviceId : String
  deviceName : String
  ip : String
  clientTx : ConnId

/-- A queued replay request: the exact connection that asked for the list. -/
structure ReplayRequest where
  deviceId : String
  tx : ConnId

/-- One in-flight upload from a client to the desktop. -/
structure UploadEntry where
  owner : ConnId
  declaredSize : Nat
  bytesForwarded : Nat
  lastActivity : Instant
  finished : Bool
  buffer : Option Bytes

/-- One in-flight download from the desktop to a client. -/
structure DownloadEntry where
  owner : ConnId
  declaredSize : Option Nat
  bytesForwarded : Nat
  lastActivity : Instant

/-- One pending supervisor query.  A parked reply is kept as the control
message whose serialized form the relay stores. -/
structure SupervisorEntry where
  owner : ConnId
  stored : Option ControlMessage
  created : Instant

inductive SupervisorQueryDecision where
  | replay (stored : ControlMessage)
  | reowned
  | capacity
  | forward

inductive SupervisorResolveOutcome where
  | delivered
  | stored
  | unknown
  deriving DecidableEq

inductive ChunkDecision where
  | forward
  | drop
  | overrun
  deriving DecidableEq

inductive DownloadChunkDecision where
  | forward (owner : ConnId)
  | drop
  | overrun (owner : ConnId)
  deriving DecidableEq

inductive BrokerError where
  | desktopAlreadyConnected
  | tooManyClients
  | serverAtCapacity
  | desktopOffline
  | sendFailed
  deriving DecidableEq

def maxClients : Nat := 10
def maxReplayQueue : Nat := 64
def maxUploadSize : Nat := 25 * 1024 * 1024
def maxActiveUploads : Nat := 8
def maxDownloadSize : Nat := 25 * 1024 * 1024
def maxActiveDownloads : Nat := 4
def uploadIdleTimeoutSecs : Nat := 60
def maxPendingSupervisor : Nat := 8
def supervisorGcSecs : Nat := 300

structure AccountState where
  desktopTx : Option ConnId
  desktopCapabilities : Option (List String)
  uploads : Table String UploadEntry
  downloads : Table String DownloadEntry
  supervisorPending : Table String SupervisorEntry
  clients : List ClientConnection
  pendingDevices : List PendingDevice
  replayQueue : List ReplayRequest
  replayTarget : Option ReplayRequest

namespace UploadEntry

def live (now : Instant) (e : UploadEntry) : Bool :=
  elapsedSecs now e.lastActivity < uploadIdleTimeoutSecs

def received (e : UploadEntry) (payload : Slice) (now : Instant) : UploadEntry :=
  { e with
    bytesForwarded := addU64 e.bytesForwarded payload.length
    lastActivity := now }

def buffered (e : UploadEntry) (payload : Slice) : UploadEntry :=
  { e with buffer := e.buffer.map fun buf => buf ++ payload.bytes }

def budget (e : UploadEntry) : Nat :=
  min e.declaredSize maxUploadSize

def rejects (e : UploadEntry) (conn : ConnId) : Bool :=
  e.finished || !decide (e.owner = conn)

def overruns (e : UploadEntry) (payload : Slice) (now : Instant) : Bool :=
  e.budget < (e.received payload now).bytesForwarded

end UploadEntry

namespace DownloadEntry

def live (now : Instant) (e : DownloadEntry) : Bool :=
  elapsedSecs now e.lastActivity < uploadIdleTimeoutSecs

def received (e : DownloadEntry) (payload : Slice) (now : Instant) : DownloadEntry :=
  { e with
    bytesForwarded := addU64 e.bytesForwarded payload.length
    lastActivity := now }

def budget (e : DownloadEntry) : Nat :=
  min (e.declaredSize.getD maxDownloadSize) maxDownloadSize

def overruns (e : DownloadEntry) (payload : Slice) (now : Instant) : Bool :=
  e.budget < (e.received payload now).bytesForwarded

end DownloadEntry

def SupervisorEntry.live (now : Instant) (e : SupervisorEntry) : Bool :=
  elapsedSecs now e.created < supervisorGcSecs

namespace AccountState

def new : AccountState where
  desktopTx := none
  desktopCapabilities := none
  uploads := ∅
  downloads := ∅
  supervisorPending := ∅
  clients := []
  pendingDevices := []
  replayQueue := []
  replayTarget := none

/-!
## Uploads
-/

def gcUploads (now : Instant) (st : AccountState) : AccountState :=
  { st with uploads := st.uploads.retain (UploadEntry.live now) }

def beginUpload (uploadId : String) (size : Nat) (conn : ConnId) (now : Instant)
    (st : AccountState) : AccountState × Except String Unit :=
  let st := st.gcUploads now
  if maxUploadSize < size then (st, .error "file_too_large")
  else if maxActiveUploads ≤ st.uploads.size then (st, .error "too_many_uploads")
  else if (st.uploads.lookup uploadId).isSome then (st, .error "duplicate_upload_id")
  else
    ({ st with
      uploads := st.uploads.insert uploadId
        { owner := conn, declaredSize := size, bytesForwarded := 0,
          lastActivity := now, finished := false, buffer := none } },
      .ok ())

def markBugReportUpload (uploadId : String) (conn : ConnId) (st : AccountState) :
    AccountState :=
  { st with
    uploads := st.uploads.modify uploadId fun e =>
      if e.owner = conn then { e with buffer := some [] } else e }

def takeBugReportBuffer (uploadId : String) (conn : ConnId) (st : AccountState) :
    AccountState × Option Bytes :=
  match st.uploads.lookup uploadId with
  | none => (st, none)
  | some entry =>
      if entry.owner = conn then
        ({ st with
          uploads := st.uploads.modify uploadId fun e => { e with buffer := none } },
          entry.buffer)
      else (st, none)

def recordUploadChunk (uploadId : String) (conn : ConnId) (payload : Slice)
    (now : Instant) (st : AccountState) : AccountState × ChunkDecision :=
  let st := st.gcUploads now
  match st.uploads.lookup uploadId with
  | none => (st, .drop)
  | some entry =>
      if entry.rejects conn then (st, .drop)
      else if entry.overruns payload now then
        ({ st with uploads := st.uploads.erase uploadId }, .overrun)
      else
        ({ st with
          uploads := st.uploads.modify uploadId fun e =>
            (e.received payload now).buffered payload },
          .forward)

def finishUpload (uploadId : String) (conn : ConnId) (now : Instant)
    (st : AccountState) : AccountState :=
  let st := st.gcUploads now
  { st with
    uploads := st.uploads.modify uploadId fun e =>
      if e.owner = conn then { e with finished := true, lastActivity := now } else e }

def resolveUpload (uploadId : String) (now : Instant) (st : AccountState) :
    AccountState × Option ConnId :=
  let st := st.gcUploads now
  ({ st with uploads := st.uploads.erase uploadId },
    (st.uploads.lookup uploadId).map UploadEntry.owner)

/-!
## Downloads
-/

def gcDownloads (now : Instant) (st : AccountState) : AccountState :=
  { st with downloads := st.downloads.retain (DownloadEntry.live now) }

def registerDownload (downloadId : String) (conn : ConnId) (now : Instant)
    (st : AccountState) : AccountState × Except String Unit :=
  let st := st.gcDownloads now
  if maxActiveDownloads ≤ st.downloads.size then
    (st, .error "too many active downloads")
  else
    ({ st with
      downloads := st.downloads.insert downloadId
        { owner := conn, declaredSize := none, bytesForwarded := 0,
          lastActivity := now } },
      .ok ())

def noteDownloadBegin (downloadId : String) (size : Nat) (now : Instant)
    (st : AccountState) : AccountState × Option ConnId :=
  let st := st.gcDownloads now
  ({ st with
    downloads := st.downloads.modify downloadId fun e =>
      { e with declaredSize := some size, lastActivity := now } },
    (st.downloads.lookup downloadId).map DownloadEntry.owner)

def recordDownloadChunk (downloadId : String) (payload : Slice) (now : Instant)
    (st : AccountState) : AccountState × DownloadChunkDecision :=
  let st := st.gcDownloads now
  match st.downloads.lookup downloadId with
  | none => (st, .drop)
  | some entry =>
      if entry.overruns payload now then
        ({ st with downloads := st.downloads.erase downloadId }, .overrun entry.owner)
      else
        ({ st with
          downloads := st.downloads.modify downloadId fun e => e.received payload now },
          .forward entry.owner)

def resolveDownload (downloadId : String) (now : Instant) (st : AccountState) :
    AccountState × Option ConnId :=
  let st := st.gcDownloads now
  ({ st with downloads := st.downloads.erase downloadId },
    (st.downloads.lookup downloadId).map DownloadEntry.owner)

/-!
## Supervisor queries
-/

def gcSupervisor (now : Instant) (st : AccountState) : AccountState :=
  { st with supervisorPending := st.supervisorPending.retain (SupervisorEntry.live now) }

/-- Stored-result replay, in-flight re-own, cap reject, else insert. -/
def beginSupervisorQuery (id : String) (conn : ConnId) (now : Instant)
    (st : AccountState) : AccountState × SupervisorQueryDecision :=
  let st := st.gcSupervisor now
  match st.supervisorPending.lookup id with
  | some entry =>
      match entry.stored with
      | some stored =>
          ({ st with supervisorPending := st.supervisorPending.erase id },
            .replay stored)
      | none =>
          ({ st with
            supervisorPending := st.supervisorPending.modify id fun e =>
              { e with owner := conn } },
            .reowned)
  | none =>
      if maxPendingSupervisor ≤ st.supervisorPending.size then (st, .capacity)
      else
        ({ st with
          supervisorPending := st.supervisorPending.insert id
            { owner := conn, stored := none, created := now } },
          .forward)

/-!
## Clients, pending devices and replay routing
-/

def replaceClient (client : ClientConnection) :
    List ClientConnection -> List ClientConnection
  | [] => []
  | c :: rest =>
      if c.tx = client.tx then client :: rest else c :: replaceClient client rest

def clientTxs (st : AccountState) : List ConnId :=
  st.clients.map ClientConnection.tx

/-- Drop what one client connection holds: its registration, its queued
requests and its transfers. -/
def unregisterClient (conn : ConnId) (st : AccountState) : AccountState :=
  { st with
    clients := st.clients.filter fun c => !decide (c.tx = conn)
    replayQueue := st.replayQueue.filter fun r => !decide (r.tx = conn)
    uploads := st.uploads.retain fun e => !decide (e.owner = conn)
    downloads := st.downloads.retain fun e => !decide (e.owner = conn) }

def unregisterDevice (deviceId : String) (st : AccountState) : AccountState :=
  { st with
    clients := st.clients.filter fun c => !decide (c.info.deviceId = deviceId)
    replayQueue := st.replayQueue.filter fun r => !decide (r.deviceId = deviceId) }

def heldByOther (conn : ConnId) (st : AccountState) : Bool :=
  match st.desktopTx with
  | none => false
  | some current => !decide (current = conn)

def dropUploadsOf (conn : ConnId) (st : AccountState) : AccountState :=
  { st with uploads := st.uploads.retain fun e => !decide (e.owner = conn) }

def queueReplay (deviceId : String) (conn : ConnId) (st : AccountState) :
    AccountState :=
  if st.replayQueue.length < maxReplayQueue then
    { st with replayQueue := st.replayQueue ++ [{ deviceId := deviceId, tx := conn }] }
  else st

def beginReplay (st : AccountState) : AccountState :=
  { st with
    replayTarget := st.replayQueue.head?
    replayQueue := st.replayQueue.tail }

def endReplay (st : AccountState) : AccountState × Option ConnId :=
  ({ st with replayTarget := none }, st.replayTarget.map ReplayRequest.tx)

def takePendingDevice (deviceId : String) (st : AccountState) :
    AccountState × Option PendingDevice :=
  match st.pendingDevices.findIdx? fun p => p.deviceId = deviceId with
  | none => (st, none)
  | some idx =>
      ({ st with pendingDevices := st.pendingDevices.eraseIdx idx },
        st.pendingDevices[idx]?)

def dedupeByDevice : List String -> List ClientConnection -> List ClientInfo
  | _, [] => []
  | seen, c :: rest =>
      if c.info.deviceId ∈ seen then dedupeByDevice seen rest
      else c.info :: dedupeByDevice (c.info.deviceId :: seen) rest

def connectedClients (st : AccountState) : List ClientInfo :=
  dedupeByDevice [] st.clients

end AccountState

end CommandRelay
