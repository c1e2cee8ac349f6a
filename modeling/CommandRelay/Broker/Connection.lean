import CommandRelay.Wire.BinaryFrame
import CommandRelay.Wire.ControlMessage

/-!
# Outbound connections

Each connection has an unbounded outbound channel with explicit byte
accounting: the counter grows when a message is enqueued and shrinks when the
connection's writer takes it off the channel.  A client that falls too far
behind is marked dirty and receives no live output until it asks for a replay.
-/

namespace CommandRelay

/-- The identity of a connection: two handles are the same connection exactly
when they share its counter. -/
abbrev ConnId := Nat

/-- A clock reading in nanoseconds. -/
abbrev Instant := Nat

/-- `now.duration_since(earlier).as_secs()`. -/
def elapsedSecs (now earlier : Instant) : Nat :=
  (now - earlier) / 1000000000

/-- A message sent over a connection; a text frame is the serialized form of
the control message it carries. -/
inductive WsMessage where
  | text (message : ControlMessage)
  | binary (bytes : Bytes)
  | close

namespace WsMessage

def byteLen : WsMessage -> Nat
  | text message => message.toText.utf8ByteSize
  | binary bytes => bytes.length
  | close => 0

def isPtyOutput : WsMessage -> Bool
  | binary bytes => bytes.head? = some ptyOutput
  | _ => false

def isClose : WsMessage -> Bool
  | close => true
  | _ => false

end WsMessage

def clientOutputBudgetBytes : Nat := 2 * 1024 * 1024

def resyncMinIntervalSecs : Nat := 10

/-- The shared state behind one connection's outbound handles.  The receiver is
alive until the connection's writer task ends. -/
structure Channel where
  queue : List WsMessage
  queued : Nat
  dirty : Bool
  lastResync : Option Instant
  receiverAlive : Bool

namespace Channel

def new : Channel where
  queue := []
  queued := 0
  dirty := false
  lastResync := none
  receiverAlive := true

/-- Enqueue unconditionally; the answer says whether the receiver is alive.
The counter is raised even when the message is then refused; the bytes that one
connection is ever sent stay far below the `2^64` at which `fetch_add` would wrap. -/
def send (ch : Channel) (msg : WsMessage) : Channel × Bool :=
  let ch := { ch with queued := ch.queued + msg.byteLen }
  if ch.receiverAlive then ({ ch with queue := ch.queue ++ [msg] }, true)
  else (ch, false)

/-- Live output is withheld from a dirty channel, and marks the channel dirty
when it would exceed the budget. -/
def overBudget (ch : Channel) (msg : WsMessage) : Bool :=
  clientOutputBudgetBytes < ch.queued + msg.byteLen

def clearDirty (ch : Channel) : Channel :=
  { ch with dirty := false }

def stop (ch : Channel) : Channel :=
  { ch with queue := [], receiverAlive := false }

/-- The writer takes one message off the channel; a close ends the writer. -/
def drain (ch : Channel) : Channel :=
  match ch.queue with
  | [] => ch
  | .close :: _ => ch.stop
  | msg :: rest => { ch with queue := rest, queued := ch.queued - msg.byteLen }

def nudgeDue (ch : Channel) (now : Instant) : Bool :=
  match ch.lastResync with
  | none => true
  | some prev => !(elapsedSecs now prev < resyncMinIntervalSecs)

@[simp] theorem send_receiverAlive (ch : Channel) (msg : WsMessage) :
    (ch.send msg).1.receiverAlive = ch.receiverAlive := by
  cases halive : ch.receiverAlive <;> simp [send, halive]

@[simp] theorem send_dirty (ch : Channel) (msg : WsMessage) :
    (ch.send msg).1.dirty = ch.dirty := by
  cases halive : ch.receiverAlive <;> simp [send, halive]

@[simp] theorem send_lastResync (ch : Channel) (msg : WsMessage) :
    (ch.send msg).1.lastResync = ch.lastResync := by
  cases halive : ch.receiverAlive <;> simp [send, halive]

@[simp] theorem send_delivers (ch : Channel) (msg : WsMessage) :
    (ch.send msg).2 = ch.receiverAlive := by
  cases halive : ch.receiverAlive <;> simp [send, halive]

end Channel

end CommandRelay
