import CommandRelay.Broker.Broker
import CommandRelay.Foundation.Runs

/-!
# Broker calls and broker runs

The broker's public operations as data, and the runs in which they are made by
any connections at any nondecreasing times, together with the background steps
of writers and resync tasks.
-/

namespace CommandRelay

open Foundation

inductive BrokerCall where
  | send (tx : ConnId) (msg : WsMessage)
  | registerDesktop (username : String) (tx : ConnId)
      (capabilities : Option (List String))
  | unregisterDesktop (username : String) (conn : ConnId)
  | registerClient (username : String) (tx : ConnId) (info : ClientInfo)
  | unregisterClient (username deviceId : String) (conn : ConnId)
  | unregisterDevice (username deviceId : String)
  | noteSessionListRequest (username deviceId : String) (conn : ConnId)
  | beginReplay (username : String)
  | endReplay (username : String)
  | replayTarget (username : String)
  | isDesktopOnline (username : String)
  | sendToDesktop (username : String) (msg : WsMessage)
  | beginUpload (username uploadId : String) (size : Nat) (conn : ConnId)
  | markBugReportUpload (username uploadId : String) (conn : ConnId)
  | takeBugReportBuffer (username uploadId : String) (conn : ConnId)
  | recordUploadChunk (username uploadId : String) (conn : ConnId) (payload : Slice)
  | finishUpload (username uploadId : String) (conn : ConnId)
  | resolveUpload (username uploadId : String)
  | registerDownload (username downloadId : String) (conn : ConnId)
  | noteDownloadBegin (username downloadId : String) (size : Nat)
  | recordDownloadChunk (username downloadId : String) (payload : Slice)
  | resolveDownload (username downloadId : String)
  | beginSupervisorQuery (username id : String) (conn : ConnId)
  | resolveSupervisor (username id : String) (reply : ControlMessage)
  | broadcastToClients (username : String) (msg : WsMessage)
  | sendToClient (username deviceId : String) (msg : WsMessage)
  | addPendingDevice (username : String) (pending : PendingDevice)
  | takePendingDevice (username deviceId : String)
  | getConnectedClients (username : String)

namespace BrokerCall

@[reducible] def Reply : BrokerCall -> Type
  | send .. => Bool
  | registerDesktop .. => Unit
  | unregisterDesktop .. => Unit
  | registerClient .. => Except BrokerError Unit
  | unregisterClient .. => Unit
  | unregisterDevice .. => Unit
  | noteSessionListRequest .. => Unit
  | beginReplay .. => Unit
  | endReplay .. => Option ConnId
  | replayTarget .. => Option ConnId
  | isDesktopOnline .. => Bool
  | sendToDesktop .. => Except BrokerError Unit
  | beginUpload .. => Except String Unit
  | markBugReportUpload .. => Unit
  | takeBugReportBuffer .. => Option Bytes
  | recordUploadChunk .. => ChunkDecision
  | finishUpload .. => Unit
  | resolveUpload .. => Option ConnId
  | registerDownload .. => Except String Unit
  | noteDownloadBegin .. => Option ConnId
  | recordDownloadChunk .. => DownloadChunkDecision
  | resolveDownload .. => Option ConnId
  | beginSupervisorQuery .. => SupervisorQueryDecision
  | resolveSupervisor .. => SupervisorResolveOutcome
  | broadcastToClients .. => Unit
  | sendToClient .. => Except BrokerError Unit
  | addPendingDevice .. => Unit
  | takePendingDevice .. => Option PendingDevice
  | getConnectedClients .. => List ClientInfo

end BrokerCall

namespace Broker

def exec (now : Instant) (b : Broker) : (c : BrokerCall) -> Broker × c.Reply
  | .send tx msg => b.send tx msg
  | .registerDesktop username tx capabilities =>
      (b.registerDesktop username tx capabilities, ())
  | .unregisterDesktop username conn => (b.unregisterDesktop username conn, ())
  | .registerClient username tx info => b.registerClient username tx info
  | .unregisterClient username _ conn => (b.unregisterClient username conn, ())
  | .unregisterDevice username deviceId => (b.unregisterDevice username deviceId, ())
  | .noteSessionListRequest username deviceId conn =>
      (b.noteSessionListRequest username deviceId conn, ())
  | .beginReplay username => (b.beginReplay username, ())
  | .endReplay username => b.endReplay username
  | .replayTarget username => (b, b.replayTarget username)
  | .isDesktopOnline username => (b, b.isDesktopOnline username)
  | .sendToDesktop username msg => b.sendToDesktop username msg
  | .beginUpload username uploadId size conn =>
      b.withEntry username (AccountState.beginUpload uploadId size conn now)
  | .markBugReportUpload username uploadId conn =>
      b.withAccount username () fun st => (st.markBugReportUpload uploadId conn, ())
  | .takeBugReportBuffer username uploadId conn =>
      b.withAccount username none (AccountState.takeBugReportBuffer uploadId conn)
  | .recordUploadChunk username uploadId conn payload =>
      b.withAccount username .drop
        (AccountState.recordUploadChunk uploadId conn payload now)
  | .finishUpload username uploadId conn =>
      b.withAccount username () fun st => (st.finishUpload uploadId conn now, ())
  | .resolveUpload username uploadId =>
      b.withAccount username none (AccountState.resolveUpload uploadId now)
  | .registerDownload username downloadId conn =>
      b.withEntry username (AccountState.registerDownload downloadId conn now)
  | .noteDownloadBegin username downloadId size =>
      b.withAccount username none (AccountState.noteDownloadBegin downloadId size now)
  | .recordDownloadChunk username downloadId payload =>
      b.withAccount username .drop
        (AccountState.recordDownloadChunk downloadId payload now)
  | .resolveDownload username downloadId =>
      b.withAccount username none (AccountState.resolveDownload downloadId now)
  | .beginSupervisorQuery username id conn =>
      b.withEntry username (AccountState.beginSupervisorQuery id conn now)
  | .resolveSupervisor username id reply => b.resolveSupervisor username id reply now
  | .broadcastToClients username msg => (b.broadcastToClients username msg, ())
  | .sendToClient username deviceId msg => b.sendToClient username deviceId msg
  | .addPendingDevice username pending => (b.addPendingDevice username pending, ())
  | .takePendingDevice username deviceId => b.takePendingDevice username deviceId
  | .getConnectedClients username => (b, b.getConnectedClients username)

end Broker

end CommandRelay
