import Mathlib.Algebra.GroupWithZero.Nat
import CommandRelay.Broker.Connection
import CommandRelay.Foundation.Runs
import Mathlib.Tactic.ByContra

/-!
# Byte accounting

A send raises the counter of a connection and then pushes its message; the writer pops a
message and then lowers the counter.  Each of the four is one atomic step, and the steps of
any number of sends interleave with those of the writer.

The counter is a `usize`.  Lowering it may wrap below zero here, and is shown not to.
Raising it is a plain addition: a counted message was allocated in full, and `2^64` bytes
are never sent to one connection.
-/

namespace CommandRelay

open Foundation

/-- Where the writer task of a connection stands. -/
inductive WriterStage where
  | receiving
  | holding (msg : WsMessage)
  | writing
  | closing
  | ended

/-- A connection's channel between the steps of its senders and its writer: the messages
whose lengths are added and which are not pushed yet, and the bytes that were dropped with
the receiver. -/
structure Outbound where
  channel : Channel
  adding : List WsMessage
  writer : WriterStage
  remained : Nat

inductive OutboundLabel where
  | add (msg : WsMessage)
  | push (i : Nat)
  | recv
  | subtract
  | written
  | stop

namespace WsMessage

def writtenLen : WsMessage -> Option Nat
  | text message => some message.toText.utf8ByteSize
  | binary bytes => some bytes.length
  | close => none

theorem byteLen_eq (msg : WsMessage) : msg.byteLen = msg.writtenLen.getD 0 := by
  cases msg <;> rfl

end WsMessage

def totalBytes (msgs : List WsMessage) : Nat :=
  (msgs.map WsMessage.byteLen).sum

/-- `fetch_sub` on a `usize`, which wraps below zero. -/
def fetchSub (counter n : Nat) : Nat :=
  if n ≤ counter then counter - n else counter + 0x10000000000000000 - n

namespace WriterStage

def heldBytes : WriterStage -> Nat
  | holding msg => msg.byteLen
  | _ => 0

/-- The writer waits in an `await`, where it may fail or be aborted. -/
def awaits : WriterStage -> Bool
  | receiving | writing | closing => true
  | holding _ | ended => false

end WriterStage

namespace Outbound

def init : Outbound where
  channel := Channel.new
  adding := []
  writer := .receiving
  remained := 0

/-- `tx.send(msg)`: a message is lost when the receiver is gone. -/
def pushed (ch : Channel) (msg : WsMessage) : Channel :=
  if ch.receiverAlive then { ch with queue := ch.queue ++ [msg] } else ch

def step (s : Outbound) : OutboundLabel -> Option Outbound
  | .add msg =>
      some
        { s with
          channel := { s.channel with queued := s.channel.queued + msg.byteLen }
          adding := s.adding ++ [msg] }
  | .push i =>
      match s.adding[i]? with
      | none => none
      | some msg =>
          some { s with channel := pushed s.channel msg, adding := s.adding.eraseIdx i }
  | .recv =>
      match s.writer, s.channel.queue with
      | .receiving, msg :: rest =>
          some { s with channel := { s.channel with queue := rest }, writer := .holding msg }
      | _, _ => none
  | .subtract =>
      match s.writer with
      | .holding msg =>
          match msg.writtenLen with
          | some n =>
              some
                { s with
                  channel := { s.channel with queued := fetchSub s.channel.queued n }
                  writer := .writing }
          | none => some { s with writer := .closing }
      | _ => none
  | .written =>
      match s.writer with
      | .writing => some { s with writer := .receiving }
      | _ => none
  | .stop =>
      if s.writer.awaits then
        some
          { s with
            channel := s.channel.stop
            writer := .ended
            remained := totalBytes s.channel.queue }
      else none

def Runs (labels : List OutboundLabel) (s : Outbound) : Prop :=
  follow step init labels = some s

/-- The counter is exact while the receiver lives, and covers what was left after it. -/
structure Accounted (s : Outbound) : Prop where
  exact : s.channel.receiverAlive = true ->
    s.channel.queued =
      totalBytes s.channel.queue + totalBytes s.adding + s.writer.heldBytes
  no_underflow : forall msg, s.writer = .holding msg -> msg.byteLen ≤ s.channel.queued
  rest : s.channel.receiverAlive = true -> s.channel.queue = [] -> s.adding = [] ->
    (forall msg, s.writer ≠ .holding msg) -> s.channel.queued = 0
  after : s.channel.receiverAlive = false -> s.remained ≤ s.channel.queued

/-!
## The invariant
-/

theorem totalBytes_cons (msg : WsMessage) (msgs : List WsMessage) :
    totalBytes (msg :: msgs) = msg.byteLen + totalBytes msgs := by
  simp [totalBytes]

theorem totalBytes_snoc (msgs : List WsMessage) (msg : WsMessage) :
    totalBytes (msgs ++ [msg]) = totalBytes msgs + msg.byteLen := by
  simp [totalBytes]

theorem totalBytes_eraseIdx {msgs : List WsMessage} {i : Nat} {msg : WsMessage}
    (h : msgs[i]? = some msg) :
    totalBytes (msgs.eraseIdx i) + msg.byteLen = totalBytes msgs := by
  induction msgs generalizing i with
  | nil => cases h
  | cons first rest ih =>
      cases i with
      | zero =>
          cases h
          rw [List.eraseIdx_cons_zero, totalBytes_cons, Nat.add_comm]
      | succ i =>
          have hrest := ih h
          rw [List.eraseIdx_cons_succ, totalBytes_cons, totalBytes_cons]
          omega

/-- The receiver lives as long as the writer; until then nothing is lost, afterwards
nothing is subtracted. -/
structure Balanced (s : Outbound) : Prop where
  alive : s.channel.receiverAlive = true <-> s.writer ≠ .ended
  exact : s.channel.receiverAlive = true ->
    s.channel.queued =
      totalBytes s.channel.queue + totalBytes s.adding + s.writer.heldBytes
  after : s.channel.receiverAlive = false -> s.remained ≤ s.channel.queued

variable {s s' : Outbound} {l : OutboundLabel} {labels : List OutboundLabel}

theorem balanced_of_alive (halive : s.channel.receiverAlive = true) (hwriter : s.writer ≠ .ended)
    (hexact : s.channel.queued =
      totalBytes s.channel.queue + totalBytes s.adding + s.writer.heldBytes) : s.Balanced where
  alive := ⟨fun _ => hwriter, fun _ => halive⟩
  exact := fun _ => hexact
  after := by
    intro hgone
    rw [halive] at hgone
    cases hgone

theorem balanced_of_gone (hgone : s.channel.receiverAlive = false) (hwriter : s.writer = .ended)
    (hafter : s.remained ≤ s.channel.queued) : s.Balanced where
  alive := by
    rw [hgone, hwriter]
    constructor
    · intro halive
      cases halive
    · intro hlive
      exact absurd rfl hlive
  exact := by
    intro halive
    rw [hgone] at halive
    cases halive
  after := fun _ => hafter

theorem Balanced.exact_of_writer (h : s.Balanced) {stage : WriterStage} (hstage : s.writer = stage)
    (hlive : stage ≠ .ended) :
    s.channel.receiverAlive = true ∧
      s.channel.queued =
        totalBytes s.channel.queue + totalBytes s.adding + stage.heldBytes := by
  have halive : s.channel.receiverAlive = true := h.alive.mpr (hstage ▸ hlive)
  constructor
  · exact halive
  · rw [← hstage]
    exact h.exact halive

theorem Balanced.held_le (h : s.Balanced) {msg : WsMessage} (hholding : s.writer = .holding msg) :
    msg.byteLen ≤ s.channel.queued := by
  rw [(h.exact_of_writer hholding (fun hended => by cases hended)).2]
  exact Nat.le_add_left _ _

theorem balanced_init : init.Balanced :=
  balanced_of_alive rfl (fun hended => by cases hended) rfl

theorem balanced_add (h : s.Balanced) (msg : WsMessage) :
    Balanced
      { s with
        channel := { s.channel with queued := s.channel.queued + msg.byteLen }
        adding := s.adding ++ [msg] } := by
  cases halive : s.channel.receiverAlive with
  | true =>
      have hexact := h.exact halive
      refine balanced_of_alive halive (h.alive.mp halive) ?_
      show s.channel.queued + msg.byteLen =
        totalBytes s.channel.queue + totalBytes (s.adding ++ [msg]) + s.writer.heldBytes
      rw [totalBytes_snoc]
      omega
  | false =>
      have hended : s.writer = .ended := by
        by_contra hlive
        rw [h.alive.mpr hlive] at halive
        cases halive
      exact balanced_of_gone halive hended
        (Nat.le_trans (h.after halive) (Nat.le_add_right _ _))

theorem balanced_push (h : s.Balanced) {i : Nat} {msg : WsMessage}
    (hmsg : s.adding[i]? = some msg) :
    Balanced { s with channel := pushed s.channel msg, adding := s.adding.eraseIdx i } := by
  cases halive : s.channel.receiverAlive with
  | true =>
      have hexact := h.exact halive
      have herase := totalBytes_eraseIdx hmsg
      have hpushed : pushed s.channel msg =
          { s.channel with queue := s.channel.queue ++ [msg] } := if_pos halive
      rw [hpushed]
      refine balanced_of_alive halive (h.alive.mp halive) ?_
      show s.channel.queued = totalBytes (s.channel.queue ++ [msg]) +
        totalBytes (s.adding.eraseIdx i) + s.writer.heldBytes
      rw [totalBytes_snoc]
      omega
  | false =>
      have hended : s.writer = .ended := by
        by_contra hlive
        rw [h.alive.mpr hlive] at halive
        cases halive
      have hpushed : pushed s.channel msg = s.channel := if_neg (by rw [halive]; decide)
      rw [hpushed]
      exact balanced_of_gone halive hended (h.after halive)

theorem balanced_subtract (h : s.Balanced) {msg : WsMessage} {n : Nat}
    (hwriter : s.writer = .holding msg) (hlen : msg.writtenLen = some n) :
    Balanced
      { s with
        channel := { s.channel with queued := fetchSub s.channel.queued n }
        writer := .writing } := by
  rcases h.exact_of_writer hwriter (fun hended => by cases hended) with ⟨halive, hexact⟩
  have hheld : (WriterStage.holding msg).heldBytes = n := by
    show msg.byteLen = n
    rw [msg.byteLen_eq, hlen]
    rfl
  rw [hheld] at hexact
  refine balanced_of_alive halive (fun hended => by cases hended) ?_
  show fetchSub s.channel.queued n = totalBytes s.channel.queue + totalBytes s.adding + 0
  rw [fetchSub, if_pos (by omega)]
  omega

theorem balanced_step (h : s.Balanced) (hstep : step s l = some s') : s'.Balanced := by
  cases l with
  | add msg =>
      cases hstep
      exact balanced_add h msg
  | push i =>
      simp only [step] at hstep
      cases hmsg : s.adding[i]? with
      | none =>
          rw [hmsg] at hstep
          cases hstep
      | some msg =>
          rw [hmsg] at hstep
          cases hstep
          exact balanced_push h hmsg
  | recv =>
      simp only [step] at hstep
      split at hstep
      · rename_i msg rest hwriter hqueue
        cases hstep
        rcases h.exact_of_writer hwriter (fun hended => by cases hended) with ⟨halive, hexact⟩
        rw [hqueue, totalBytes_cons] at hexact
        refine balanced_of_alive halive (fun hended => by cases hended) ?_
        show s.channel.queued = totalBytes rest + totalBytes s.adding + msg.byteLen
        have hidle : WriterStage.receiving.heldBytes = 0 := rfl
        omega
      · cases hstep
  | subtract =>
      simp only [step] at hstep
      split at hstep
      · rename_i msg hwriter
        cases hlen : msg.writtenLen with
        | some n =>
            rw [hlen] at hstep
            cases hstep
            exact balanced_subtract h hwriter hlen
        | none =>
            rw [hlen] at hstep
            cases hstep
            rcases h.exact_of_writer hwriter (fun hended => by cases hended) with
              ⟨halive, hexact⟩
            have hheld : (WriterStage.holding msg).heldBytes = 0 := by
              show msg.byteLen = 0
              rw [msg.byteLen_eq, hlen]
              rfl
            rw [hheld] at hexact
            exact balanced_of_alive halive (fun hended => by cases hended) hexact
      · cases hstep
  | written =>
      simp only [step] at hstep
      split at hstep
      · rename_i hwriter
        cases hstep
        rcases h.exact_of_writer hwriter (fun hended => by cases hended) with ⟨halive, hexact⟩
        exact balanced_of_alive halive (fun hended => by cases hended) hexact
      · cases hstep
  | stop =>
      simp only [step] at hstep
      by_cases hawaits : s.writer.awaits = true
      · rw [if_pos hawaits] at hstep
        cases hstep
        have hlive : s.writer ≠ .ended := by
          intro hended
          rw [hended] at hawaits
          cases hawaits
        have hexact := (h.exact_of_writer rfl hlive).2
        refine balanced_of_gone rfl rfl ?_
        show totalBytes s.channel.queue ≤ s.channel.queued
        omega
      · rw [if_neg hawaits] at hstep
        cases hstep

/-- The outbound accounting of a connection is exact in every interleaving. -/
theorem bytes_accounted (hrun : Runs labels s) : s.Accounted := by
  have hall : Admits step (fun _ _ => True) init labels :=
    admits_of_forall (fun _ _ => trivial) init labels
  have h : s.Balanced := follow_invariant (motive := Balanced)
    (fun _ _ _ h _ hstep => balanced_step h hstep) balanced_init hrun hall
  exact
    { exact := h.exact
      no_underflow := fun _ hholding => h.held_le hholding
      rest := by
        intro halive hqueue hadding hwriter
        have hexact := h.exact halive
        have hheld : s.writer.heldBytes = 0 := by
          cases hstage : s.writer with
          | holding msg => exact absurd hstage (hwriter msg)
          | _ => rfl
        rw [hqueue, hadding, hheld] at hexact
        exact hexact
      after := h.after }

theorem bytes_accounted_example : exists s,
    Runs [.add (.binary [1, 2]), .add (.binary [3]), .push 1, .recv, .push 0] s ∧
      s.channel.queued = 3 ∧ s.Accounted := by
  have hrun : Runs [.add (.binary [1, 2]), .add (.binary [3]), .push 1, .recv, .push 0] _ := rfl
  exact ⟨_, hrun, rfl, bytes_accounted hrun⟩

/-!
## Steps taken together
-/

theorem send_of_steps (s : Outbound) (msg : WsMessage) :
    follow step s [.add msg, .push s.adding.length] =
      some { s with channel := (s.channel.send msg).1 } := by
  have herase : (s.adding ++ [msg]).eraseIdx s.adding.length = s.adding := by
    rw [List.eraseIdx_append_of_length_le (Nat.le_refl _), Nat.sub_self]
    exact List.append_nil _
  cases halive : s.channel.receiverAlive with
  | true => simp [follow, step, herase, pushed, Channel.send, halive]
  | false => simp [follow, step, herase, pushed, Channel.send, halive]

theorem drain_of_steps (h : s.Balanced) (hwriter : s.writer = .receiving) {msg : WsMessage}
    {rest : List WsMessage} (hqueue : s.channel.queue = msg :: rest) (hclose : msg ≠ .close) :
    follow step s [.recv, .subtract] =
      some { s with channel := s.channel.drain, writer := .writing } := by
  have halive : s.channel.receiverAlive = true := by
    rw [h.alive, hwriter]
    exact fun hended => by cases hended
  have hexact := h.exact halive
  rw [hqueue, totalBytes_cons] at hexact
  cases msg with
  | text message =>
      have hle : message.toText.utf8ByteSize ≤ s.channel.queued := by
        have hlen : (WsMessage.text message).byteLen = message.toText.utf8ByteSize := rfl
        omega
      simp [follow, step, hwriter, hqueue, WsMessage.writtenLen, fetchSub, hle, Channel.drain,
        WsMessage.byteLen]
  | binary bytes =>
      have hle : bytes.length ≤ s.channel.queued := by
        have hlen : (WsMessage.binary bytes).byteLen = bytes.length := rfl
        omega
      simp [follow, step, hwriter, hqueue, WsMessage.writtenLen, fetchSub, hle, Channel.drain,
        WsMessage.byteLen]
  | close => exact absurd rfl hclose

end Outbound

end CommandRelay
