import CommandRelay.Broker.Account

/-!
# The broker

The central connection broker: the accounts, and the outbound channels of all
connections.  Every operation below is one critical section of the source, so
it is one step of any interleaving.
-/

namespace CommandRelay

open Foundation

/--
The broker's state.  Besides the accounts and the channels it carries the
spawned resync tasks that have not run yet, and the history of every message
that was enqueued, newest first.
-/
structure Broker where
  accounts : Table String AccountState
  channels : ConnId -> Channel
  nudges : List ConnId
  delivered : List (ConnId × WsMessage)

namespace Broker

def new : Broker where
  accounts := ∅
  channels := fun _ => Channel.new
  nudges := []
  delivered := []

/-!
## Sending
-/

def setChannel (b : Broker) (tx : ConnId) (ch : Channel) : Broker :=
  { b with channels := Function.update b.channels tx ch }

/-- `ConnTx::send`. -/
def send (b : Broker) (tx : ConnId) (msg : WsMessage) : Broker × Bool :=
  let sent := (b.channels tx).send msg
  let b := b.setChannel tx sent.1
  if sent.2 then ({ b with delivered := (tx, msg) :: b.delivered }, true)
  else (b, false)

def sendAll (b : Broker) (txs : List ConnId) (msg : WsMessage) : Broker :=
  txs.foldl (fun b tx => (b.send tx msg).1) b

/-- `ConnTx::send_output`: the answer asks for a resync nudge. -/
def sendOutput (b : Broker) (tx : ConnId) (msg : WsMessage) : Broker × Bool :=
  let ch := b.channels tx
  if ch.dirty then (b, false)
  else if ch.overBudget msg then (b.setChannel tx { ch with dirty := true }, true)
  else ((b.send tx msg).1, false)

/-- `ConnTx::clear_dirty`. -/
def clearDirty (b : Broker) (tx : ConnId) : Broker :=
  b.setChannel tx (b.channels tx).clearDirty

/-!
## Account access
-/

def account (b : Broker) (username : String) : Option AccountState :=
  b.accounts.lookup username

/-- `entry(username).or_insert_with(AccountState::new)`. -/
def entry (b : Broker) (username : String) : AccountState :=
  (b.account username).getD AccountState.new

def put (b : Broker) (username : String) (st : AccountState) : Broker :=
  { b with accounts := b.accounts.insert username st }

def withEntry (b : Broker) (username : String) (f : AccountState -> AccountState × α) :
    Broker × α :=
  let r := f (b.entry username)
  (b.put username r.1, r.2)

def withAccount (b : Broker) (username : String) (absent : α)
    (f : AccountState -> AccountState × α) : Broker × α :=
  match b.account username with
  | none => (b, absent)
  | some st =>
      let r := f st
      (b.put username r.1, r.2)

/-!
## Desktops and clients
-/

def evictDesktop (b : Broker) (st : AccountState) : Broker :=
  match st.desktopTx with
  | none => b
  | some old => (b.send old .close).1

/-- The latest registration wins; replay bookkeeping belongs to the previous
desktop connection. -/
def registerDesktop (b : Broker) (username : String) (tx : ConnId)
    (capabilities : Option (List String)) : Broker :=
  let st := b.entry username
  let b := (b.evictDesktop st).put username
    { st with
      desktopTx := some tx
      desktopCapabilities := capabilities
      replayQueue := []
      replayTarget := none }
  b.sendAll st.clientTxs (.text (.desktopStatus true capabilities))

/-- The uploads of the dying connection go first; a stale desktop's disconnect
changes nothing else. -/
def unregisterDesktop (b : Broker) (username : String) (conn : ConnId) : Broker :=
  match b.account username with
  | none => b
  | some st =>
      let st := st.dropUploadsOf conn
      if st.heldByOther conn then b.put username st
      else
        let b := b.put username
          { st with
            desktopTx := none
            desktopCapabilities := none
            replayQueue := []
            replayTarget := none }
        b.sendAll st.clientTxs (.text (.desktopStatus false none))

def replayDesktopStatus (b : Broker) (st : AccountState) (tx : ConnId) : Broker :=
  match st.desktopTx with
  | none => b
  | some _ => (b.send tx (.text (.desktopStatus true st.desktopCapabilities))).1

def registerClient (b : Broker) (username : String) (tx : ConnId) (info : ClientInfo) :
    Broker × Except BrokerError Unit :=
  let st := b.entry username
  if tx ∈ st.clientTxs then
    let st := { st with clients := AccountState.replaceClient ⟨tx, info⟩ st.clients }
    ((b.put username st).replayDesktopStatus st tx, .ok ())
  else if maxClients ≤ st.clients.length then (b.put username st, .error .tooManyClients)
  else
    let st := { st with clients := st.clients ++ [⟨tx, info⟩] }
    ((b.put username st).replayDesktopStatus st tx, .ok ())

def unregisterClient (b : Broker) (username : String) (conn : ConnId) : Broker :=
  (b.withAccount username () fun st => (st.unregisterClient conn, ())).1

def unregisterDevice (b : Broker) (username deviceId : String) : Broker :=
  (b.withAccount username () fun st => (st.unregisterDevice deviceId, ())).1

/-!
## Replay routing
-/

def noteSessionListRequest (b : Broker) (username deviceId : String) (conn : ConnId) :
    Broker :=
  match b.account username with
  | none => b
  | some st => (b.put username (st.queueReplay deviceId conn)).clearDirty conn

def beginReplay (b : Broker) (username : String) : Broker :=
  (b.withAccount username () fun st => (st.beginReplay, ())).1

def endReplay (b : Broker) (username : String) : Broker × Option ConnId :=
  b.withAccount username none AccountState.endReplay

def replayTarget (b : Broker) (username : String) : Option ConnId :=
  (b.account username).bind fun st => st.replayTarget.map ReplayRequest.tx

/-!
## Routing
-/

def isDesktopOnline (b : Broker) (username : String) : Bool :=
  ((b.account username).map fun st => st.desktopTx.isSome).getD false

def sendToDesktop (b : Broker) (username : String) (msg : WsMessage) :
    Broker × Except BrokerError Unit :=
  match (b.account username).bind AccountState.desktopTx with
  | none => (b, .error .desktopOffline)
  | some tx =>
      let sent := b.send tx msg
      (sent.1, if sent.2 then .ok () else .error .sendFailed)

/-- Live output goes through the client's budget; a client that falls behind gets
a resync task. -/
def outputTo (b : Broker) (tx : ConnId) (msg : WsMessage) : Broker :=
  let r := b.sendOutput tx msg
  if r.2 then { r.1 with nudges := r.1.nudges ++ [tx] } else r.1

def broadcastOutput (b : Broker) (txs : List ConnId) (msg : WsMessage) : Broker :=
  txs.foldl (fun b tx => b.outputTo tx msg) b

def broadcastToClients (b : Broker) (username : String) (msg : WsMessage) : Broker :=
  match b.account username with
  | none => b
  | some st =>
      if msg.isPtyOutput then b.broadcastOutput st.clientTxs msg
      else b.sendAll st.clientTxs msg

def sendEach (b : Broker) (txs : List ConnId) (msg : WsMessage) : Broker × Bool :=
  txs.foldl
    (fun acc tx =>
      let sent := acc.1.send tx msg
      (sent.1, acc.2 || sent.2)) (b, false)

def sendToClient (b : Broker) (username deviceId : String) (msg : WsMessage) :
    Broker × Except BrokerError Unit :=
  match b.account username with
  | none => (b, .error .sendFailed)
  | some st =>
      let txs := (st.clients.filter fun c => c.info.deviceId = deviceId).map
        ClientConnection.tx
      let sent := b.sendEach txs msg
      (sent.1, if sent.2 then .ok () else .error .sendFailed)

/-!
## Supervisor replies

The desktop's reply is always a text frame, so it is passed as the control
message it serializes.
-/

def resolveSupervisor (b : Broker) (username id : String) (reply : ControlMessage)
    (now : Instant) : Broker × SupervisorResolveOutcome :=
  match b.account username with
  | none => (b, .unknown)
  | some st =>
      let st := st.gcSupervisor now
      match st.supervisorPending.lookup id with
      | none => (b.put username st, .unknown)
      | some entry =>
          let sent := b.send entry.owner (.text reply)
          if sent.2 then
            (sent.1.put username
              { st with supervisorPending := st.supervisorPending.erase id }, .delivered)
          else
            (sent.1.put username
              { st with
                supervisorPending := st.supervisorPending.modify id fun e =>
                  { e with stored := some reply } }, .stored)

/-!
## Pending devices
-/

def addPendingDevice (b : Broker) (username : String) (pending : PendingDevice) :
    Broker :=
  (b.withEntry username fun st =>
    ({ st with pendingDevices := st.pendingDevices ++ [pending] }, ())).1

def takePendingDevice (b : Broker) (username deviceId : String) :
    Broker × Option PendingDevice :=
  b.withAccount username none (AccountState.takePendingDevice deviceId)

def getConnectedClients (b : Broker) (username : String) : List ClientInfo :=
  ((b.account username).map AccountState.connectedClients).getD []

/-!
## Background steps
-/

def runNudge (b : Broker) (tx : ConnId) (now : Instant) : Broker :=
  let b := { b with nudges := b.nudges.erase tx }
  if (b.channels tx).nudgeDue now then
    ((b.setChannel tx { b.channels tx with lastResync := some now }).send tx
      (.text .resyncRequired)).1
  else b

def drain (b : Broker) (tx : ConnId) : Broker :=
  b.setChannel tx (b.channels tx).drain

def stopWriter (b : Broker) (tx : ConnId) : Broker :=
  b.setChannel tx (b.channels tx).stop

def broadcastShutdown (b : Broker) : Broker :=
  b.accounts.entries.foldl
    (fun b e =>
      b.sendAll (e.2.desktopTx.toList ++ e.2.clientTxs) (.text .relayShuttingDown)) b

end Broker

end CommandRelay
