import CommandRelay.Broker.Membership
import CommandRelay.Foundation.Gate

/-!
# Live output without silent gaps

What the broker keeps for one connection is a gated stream: live output is offered
to the gate, a request for the session list reopens it, and everything else goes
past it.
-/

namespace CommandRelay

open Foundation

/-!
## One connection's line
-/

/-- A connection's channel, everything enqueued to it so far, newest first, and the
number of its resync tasks that wait to run. -/
structure Line where
  channel : Channel
  received : List WsMessage
  nudges : Nat

namespace Line

def send (msg : WsMessage) (line : Line) : Line :=
  { line with
    channel := (line.channel.send msg).1
    received :=
      if line.channel.receiverAlive then msg :: line.received else line.received }

def output (msg : WsMessage) (line : Line) : Line :=
  if line.channel.dirty then line
  else if line.channel.overBudget msg then
    { line with
      channel := { line.channel with dirty := true }
      nudges := line.nudges + 1 }
  else line.send msg

def clearDirty (line : Line) : Line :=
  { line with channel := line.channel.clearDirty }

def Sent (line line' : Line) : Prop :=
  exists msgs : List WsMessage, line' = msgs.foldl (fun line msg => line.send msg) line

end Line

namespace Broker

def line (b : Broker) (c : ConnId) : Line where
  channel := b.channels c
  received := (b.delivered.filter fun m => m.1 = c).map Prod.snd
  nudges := b.nudges.count c

theorem line_send (b : Broker) (tx : ConnId) (msg : WsMessage) (c : ConnId) :
    (b.send tx msg).1.line c = if tx = c then (b.line c).send msg else b.line c := by
  by_cases hc : tx = c
  · subst hc
    rw [if_pos rfl]
    cases halive : (b.channels tx).receiverAlive <;>
      simp [send, line, Line.send, setChannel, halive]
  · rw [if_neg hc]
    have hc' : c ≠ tx := fun h => hc h.symm
    cases halive : (b.channels tx).receiverAlive <;>
      simp [send, line, setChannel, halive, hc, hc']

theorem line_outputTo (b : Broker) (tx : ConnId) (msg : WsMessage) (c : ConnId) :
    (b.outputTo tx msg).line c = if tx = c then (b.line c).output msg else b.line c := by
  have hflag : (b.line tx).channel = b.channels tx := rfl
  unfold outputTo sendOutput
  by_cases hdirty : (b.channels tx).dirty = true
  · simp only [if_pos hdirty, Bool.false_eq_true, if_false]
    by_cases hc : tx = c
    · subst hc
      rw [if_pos rfl, Line.output, hflag, if_pos hdirty]
    · rw [if_neg hc]
  · by_cases hover : (b.channels tx).overBudget msg = true
    · simp only [if_neg hdirty, if_pos hover, if_true]
      by_cases hc : tx = c
      · subst hc
        rw [if_pos rfl, Line.output, hflag, if_neg hdirty, if_pos hover]
        simp [line, setChannel]
      · have hc' : c ≠ tx := fun h => hc h.symm
        rw [if_neg hc]
        simp [line, setChannel, hc', hc]
    · simp only [if_neg hdirty, if_neg hover, Bool.false_eq_true, if_false]
      rw [line_send]
      by_cases hc : tx = c
      · subst hc
        rw [if_pos rfl, if_pos rfl, Line.output, hflag, if_neg hdirty, if_neg hover]
      · rw [if_neg hc, if_neg hc]

theorem line_broadcastOutput {txs : List ConnId} (hnodup : txs.Nodup) (b : Broker)
    (msg : WsMessage) (c : ConnId) :
    (b.broadcastOutput txs msg).line c =
      if c ∈ txs then (b.line c).output msg else b.line c := by
  unfold broadcastOutput
  induction txs generalizing b with
  | nil => rfl
  | cons tx rest ih =>
      rcases List.nodup_cons.mp hnodup with ⟨hfresh, hrest⟩
      rw [List.foldl_cons, ih hrest, line_outputTo]
      by_cases hc : tx = c
      · subst hc
        rw [if_neg hfresh, if_pos rfl, if_pos List.mem_cons_self]
      · rw [if_neg hc]
        have hmem : c ∈ tx :: rest <-> c ∈ rest := by
          rw [List.mem_cons]
          exact or_iff_right fun h => hc h.symm
        simp only [hmem]

theorem sent_refl (line : Line) : line.Sent line :=
  ⟨[], rfl⟩

theorem sentRelation (c : ConnId) : SendRelation fun b b' => (b.line c).Sent (b'.line c) where
  refl := fun b => sent_refl (b.line c)
  trans := by
    rintro b b' b'' ⟨msgs, hmsgs⟩ ⟨msgs', hmsgs'⟩
    refine ⟨msgs ++ msgs', ?_⟩
    rw [hmsgs', hmsgs, List.foldl_append]
  put := fun b u st => sent_refl (b.line c)
  send := by
    intro b tx msg
    rw [line_send]
    by_cases hc : tx = c
    · rw [if_pos hc]
      exact ⟨[msg], rfl⟩
    · rw [if_neg hc]
      exact sent_refl (b.line c)

end Broker

/-!
## What every line satisfies
-/

def queuedBytes : List WsMessage -> Nat
  | [] => 0
  | msg :: rest => msg.byteLen + queuedBytes rest

theorem queuedBytes_append (queue queue' : List WsMessage) :
    queuedBytes (queue ++ queue') = queuedBytes queue + queuedBytes queue' := by
  induction queue with
  | nil => simp [queuedBytes]
  | cons msg rest ih => simp [queuedBytes, ih, Nat.add_assoc]

namespace Line

/-- While the receiver is alive the counter is the size of the queue, and the queue
is what was enqueued and has not been taken off yet. -/
def Faithful (line : Line) : Prop :=
  line.channel.receiverAlive = true ->
    line.channel.queued = queuedBytes line.channel.queue ∧
      exists taken, line.received = line.channel.queue.reverse ++ taken

theorem Faithful.send {line : Line} (h : line.Faithful) (msg : WsMessage) :
    (line.send msg).Faithful := by
  intro halive
  have hlive : line.channel.receiverAlive = true := by simpa [Line.send] using halive
  rcases h hlive with ⟨hqueued, taken, htaken⟩
  have hchannel : (line.channel.send msg).1 =
      { line.channel with
        queued := line.channel.queued + msg.byteLen
        queue := line.channel.queue ++ [msg] } := by
    simp [Channel.send, hlive]
  constructor
  · simp [Line.send, hchannel, queuedBytes_append, queuedBytes, hqueued]
  · exact ⟨taken, by simp [Line.send, hchannel, hlive, htaken]⟩

theorem Faithful.sent {line line' : Line} (h : line.Faithful) (hsent : line.Sent line') :
    line'.Faithful := by
  rcases hsent with ⟨msgs, rfl⟩
  induction msgs generalizing line with
  | nil => exact h
  | cons msg rest ih => exact ih (h.send msg)

theorem Faithful.output {line : Line} (h : line.Faithful) (msg : WsMessage) :
    (line.output msg).Faithful := by
  unfold Line.output
  by_cases hdirty : line.channel.dirty = true
  · rw [if_pos hdirty]
    exact h
  · by_cases hover : line.channel.overBudget msg = true
    · rw [if_neg hdirty, if_pos hover]
      exact h
    · rw [if_neg hdirty, if_neg hover]
      exact h.send msg

theorem Sent.dirty {line line' : Line} (h : line.Sent line') :
    line'.channel.dirty = line.channel.dirty := by
  rcases h with ⟨msgs, rfl⟩
  induction msgs generalizing line with
  | nil => rfl
  | cons msg rest ih => exact ih.trans (by simp [send])

theorem Sent.received {line line' : Line} (h : line.Sent line') :
    exists new, line'.received = new ++ line.received := by
  rcases h with ⟨msgs, rfl⟩
  induction msgs generalizing line with
  | nil => exact ⟨[], rfl⟩
  | cons msg rest ih =>
      have hrest : exists new, (rest.foldl (fun line msg => line.send msg)
          (line.send msg)).received = new ++ (line.send msg).received := ih
      rcases hrest with ⟨new, hnew⟩
      rw [List.foldl_cons, hnew]
      by_cases halive : line.channel.receiverAlive = true
      · exact ⟨new ++ [msg], by simp [send, halive]⟩
      · exact ⟨new, by simp [send, halive]⟩

theorem Faithful.drain {line : Line} (h : line.Faithful) :
    ({ line with channel := line.channel.drain } : Line).Faithful := by
  intro halive
  simp only [Channel.drain] at halive ⊢
  split at halive
  · rename_i hqueue
    exact h halive
  · simp [Channel.stop] at halive
  · rename_i msg rest hclose hqueue
    have hlive : line.channel.receiverAlive = true := halive
    rcases h hlive with ⟨hqueued, taken, htaken⟩
    rw [hqueue, queuedBytes] at hqueued
    constructor
    · show line.channel.queued - msg.byteLen = queuedBytes rest
      omega
    · refine ⟨msg :: taken, ?_⟩
      show line.received = rest.reverse ++ msg :: taken
      rw [htaken, hqueue]
      simp

end Line

namespace Line

/-- A line with the same flag that may have received more. -/
structure Extends (line line' : Line) : Prop where
  dirty : line'.channel.dirty = line.channel.dirty
  received : exists new, line'.received = new ++ line.received
  faithful : line.Faithful -> line'.Faithful

theorem Sent.extends {line line' : Line} (h : line.Sent line') : line.Extends line' where
  dirty := h.dirty
  received := h.received
  faithful := fun hline => hline.sent h

theorem extends_of_eq {line line' : Line} (h : line' = line) : line.Extends line' := by
  subst h
  exact (Broker.sent_refl line').extends

end Line

namespace Broker

variable (b : Broker) (c : ConnId)

theorem line_drain (tx : ConnId) : (b.line c).Extends ((b.drain tx).line c) := by
  by_cases hc : tx = c
  · subst hc
    have hline : (b.drain tx).line tx =
        { b.line tx with channel := (b.line tx).channel.drain } := by
      simp [line, drain, setChannel]
    rw [hline]
    refine { dirty := ?_, received := ⟨[], rfl⟩, faithful := fun h => h.drain }
    simp only [Channel.drain]
    split <;> rfl
  · have hc' : c ≠ tx := fun h => hc h.symm
    exact Line.extends_of_eq (by simp [line, drain, setChannel, hc'])

theorem line_stopWriter (tx : ConnId) :
    (b.line c).Extends ((b.stopWriter tx).line c) := by
  by_cases hc : tx = c
  · subst hc
    have hline : (b.stopWriter tx).line tx =
        { b.line tx with channel := (b.line tx).channel.stop } := by
      simp [line, stopWriter, setChannel]
    rw [hline]
    refine { dirty := rfl, received := ⟨[], rfl⟩, faithful := ?_ }
    intro _ halive
    simp [Channel.stop] at halive
  · have hc' : c ≠ tx := fun h => hc h.symm
    exact Line.extends_of_eq (by simp [line, stopWriter, setChannel, hc'])

theorem line_runNudge (tx : ConnId) (now : Instant) :
    (b.line c).Extends ((b.runNudge tx now).line c) := by
  have hwaiting : (b.line c).Extends
      (({ b with nudges := b.nudges.erase tx } : Broker).line c) :=
    { dirty := rfl, received := ⟨[], rfl⟩, faithful := id }
  unfold runNudge
  simp only []
  split
  · rw [line_send]
    by_cases hc : tx = c
    · subst hc
      rw [if_pos rfl]
      have hmarked : (b.line tx).Extends
          ((({ b with nudges := b.nudges.erase tx } : Broker).setChannel tx
            { b.channels tx with lastResync := some now }).line tx) := by
        refine { dirty := ?_, received := ⟨[], rfl⟩, faithful := ?_ }
        · simp [line, setChannel]
        · intro h halive
          have hlive : (b.line tx).channel.receiverAlive = true := by
            simpa [line, setChannel] using halive
          simpa [line, setChannel] using h hlive
      have hsent : Line.Extends _ (Line.send (.text .resyncRequired)
          ((({ b with nudges := b.nudges.erase tx } : Broker).setChannel tx
            { b.channels tx with lastResync := some now }).line tx)) :=
        (show Line.Sent _ _ from ⟨[.text .resyncRequired], rfl⟩).extends
      refine
        { dirty := hsent.dirty.trans hmarked.dirty
          received := ?_
          faithful := fun h => hsent.faithful (hmarked.faithful h) }
      rcases hsent.received with ⟨new, hnew⟩
      rcases hmarked.received with ⟨old, hold⟩
      exact ⟨new ++ old, by rw [hnew, hold, List.append_assoc]⟩
    · have hc' : c ≠ tx := fun h => hc h.symm
      rw [if_neg hc]
      refine { dirty := ?_, received := ⟨[], rfl⟩, faithful := ?_ }
      · simp [line, setChannel, hc']
      · intro h halive
        have hlive : (b.line c).channel.receiverAlive = true := by
          simpa [line, setChannel, hc'] using halive
        simpa [line, setChannel, hc'] using h hlive
  · exact hwaiting

theorem line_noteSessionListRequest (u d : String) (conn : ConnId) :
    (b.noteSessionListRequest u d conn).line c = b.line c ∨
      conn = c ∧ (b.noteSessionListRequest u d conn).line c = (b.line c).clearDirty := by
  unfold noteSessionListRequest
  cases b.account u with
  | none => exact Or.inl rfl
  | some st =>
      by_cases hc : conn = c
      · subst hc
        refine Or.inr ⟨rfl, ?_⟩
        simp [line, Line.clearDirty, clearDirty, setChannel, put]
      · have hc' : c ≠ conn := fun h => hc h.symm
        exact Or.inl (by simp [line, clearDirty, setChannel, put, hc'])

theorem line_broadcastToClients {u : String} {msg : WsMessage}
    (hnodup : ((b.clients u).map ClientConnection.tx).Nodup)
    (hpty : msg.isPtyOutput = true) :
    (b.broadcastToClients u msg).line c =
      if c ∈ (b.clients u).map ClientConnection.tx then (b.line c).output msg
      else b.line c := by
  unfold broadcastToClients
  unfold clients entry at hnodup ⊢
  cases hst : b.account u with
  | none => rfl
  | some st =>
      rw [hst] at hnodup
      simp only [if_pos hpty]
      exact line_broadcastOutput hnodup b msg c

end Broker

/-!
## Watching one connection's output
-/

structure OutputRun where
  run : BrokerRun
  history : List (GateEntry WsMessage)

namespace OutputRun

variable (c : ConnId)

def init : OutputRun where
  run := BrokerRun.init
  history := []

def added (before after : Broker) : List WsMessage :=
  (after.line c).received.take
    ((after.line c).received.length - (before.line c).received.length)

/-- What a step is for the connection: live output is offered to it while it is
among the clients of the account, and its own requests reopen the gate. -/
def eventOf (before after : Broker) : BrokerLabel -> GateEvent WsMessage
  | .call _ (.broadcastToClients u msg) =>
      if msg.isPtyOutput = true ∧ c ∈ (before.clients u).map ClientConnection.tx then
        .offer msg (queuedBytes (before.channels c).queue)
          (!(added c before after).isEmpty)
          (decide ((before.line c).nudges < (after.line c).nudges))
      else .bypass (added c before after)
  | .call _ (.noteSessionListRequest _ _ conn) =>
      if conn = c then .reopen else .bypass (added c before after)
  | _ => .bypass (added c before after)

def observe (before after : Broker) (l : BrokerLabel) : GateEntry WsMessage where
  event := eventOf c before after l
  closed := (after.channels c).dirty

def step (w : OutputRun) (l : BrokerLabel) : Option OutputRun :=
  (w.run.step l).map fun s =>
    { run := s, history := observe c w.run.broker s.broker l :: w.history }

def Runs (labels : List BrokerLabel) (w : OutputRun) : Prop :=
  follow (step c) init labels = some w

def LawfulOutput (history : List (GateEntry WsMessage)) : Prop :=
  Gate.Lawful clientOutputBudgetBytes WsMessage.byteLen history

/-- What the history of a connection whose receiver is alive says. -/
structure Gapless (w : OutputRun) : Prop where
  /-- Between a withheld frame and a later one that is enqueued, the connection has
  asked for the session list. -/
  gaps : forall {later mid before frame frame' load load' alarm alarm' closed closed'},
    w.history = later ++ ⟨.offer frame' load' true alarm', closed'⟩ ::
      (mid ++ ⟨.offer frame load false alarm, closed⟩ :: before) ->
    exists e, e ∈ mid ∧ e.reopens = true
  /-- A frame is withheld only from a paused connection, or when it would take the
  bytes in the queue over the budget. -/
  withheld : forall {later before frame load alarm closed},
    w.history = later ++ ⟨.offer frame load false alarm, closed⟩ :: before ->
    Gate.closedAfter before = true ∨ clientOutputBudgetBytes < load + frame.byteLen
  /-- A pause, for as long as it lasts, raises one resync. -/
  pauses : forall {later period before},
    w.history = later ++ (period ++ before) -> Gate.closedAfter before = false ->
    period ≠ [] -> (forall e, e ∈ period -> e.closed = true) ->
    (period.filter GateEntry.alarms).length = 1
  /-- What was enqueued to the connection is what the steps enqueued, in their order,
  each frame once. -/
  order : Gate.stream w.history = (w.run.broker.line c).received
  /-- The queue is what was enqueued and has not been taken off yet. -/
  queue : exists taken, Gate.stream w.history =
    (w.run.broker.channels c).queue.reverse ++ taken

/-- The invariant: the history is that of the connection's gate. -/
structure Watched (w : OutputRun) : Prop where
  lawful : LawfulOutput w.history
  closed : Gate.closedAfter w.history = (w.run.broker.channels c).dirty
  stream : Gate.stream w.history = (w.run.broker.line c).received
  faithful : (w.run.broker.line c).Faithful

variable {c : ConnId}

theorem added_append {before after : Broker}
    (h : exists new, (after.line c).received = new ++ (before.line c).received) :
    added c before after ++ (before.line c).received = (after.line c).received := by
  rcases h with ⟨new, hnew⟩
  have hlength : (after.line c).received.length - (before.line c).received.length =
      new.length := by
    rw [hnew, List.length_append]
    omega
  rw [added, hlength, hnew, List.take_left]

theorem watched_bypass {w : OutputRun} {s : BrokerRun} {l : BrokerLabel} (h : w.Watched c)
    (hextends : (w.run.broker.line c).Extends (s.broker.line c))
    (hevent : eventOf c w.run.broker s.broker l = .bypass (added c w.run.broker s.broker)) :
    Watched c { run := s, history := observe c w.run.broker s.broker l :: w.history } where
  lawful := by
    refine ⟨?_, h.lawful⟩
    rw [h.closed]
    simp only [Gate.Follows, observe, hevent]
    exact hextends.dirty
  closed := rfl
  stream := by
    show (observe c w.run.broker s.broker l).output ++ Gate.stream w.history = _
    simp only [observe, GateEntry.output, hevent, h.stream]
    exact added_append hextends.received
  faithful := hextends.faithful h.faithful

theorem watched_reopen {w : OutputRun} {s : BrokerRun} {l : BrokerLabel} (h : w.Watched c)
    (hline : s.broker.line c = w.run.broker.line c ∨
      s.broker.line c = (w.run.broker.line c).clearDirty)
    (hevent : eventOf c w.run.broker s.broker l = .reopen) :
    Watched c { run := s, history := observe c w.run.broker s.broker l :: w.history } where
  lawful := by
    refine ⟨?_, h.lawful⟩
    rw [h.closed]
    simp only [Gate.Follows, observe, hevent]
    intro hdirty
    have hflag : (s.broker.line c).channel.dirty = true := hdirty
    rcases hline with hsame | hcleared
    · rw [hsame] at hflag
      exact hflag
    · rw [hcleared] at hflag
      cases hflag
  closed := rfl
  stream := by
    show (observe c w.run.broker s.broker l).output ++ Gate.stream w.history = _
    simp only [observe, GateEntry.output, hevent, h.stream, List.nil_append]
    rcases hline with hsame | hcleared
    · rw [hsame]
    · rw [hcleared]
      rfl
  faithful := by
    rcases hline with hsame | hcleared
    · rw [hsame]
      exact h.faithful
    · rw [hcleared]
      exact h.faithful

theorem watched_offer {w : OutputRun} {s : BrokerRun} {l : BrokerLabel} {msg : WsMessage}
    (h : w.Watched c) (halive : w.run.broker.alive c = true)
    (hline : s.broker.line c = (w.run.broker.line c).output msg)
    (hevent : eventOf c w.run.broker s.broker l =
      .offer msg (queuedBytes (w.run.broker.channels c).queue)
        (!(added c w.run.broker s.broker).isEmpty)
        (decide ((w.run.broker.line c).nudges < (s.broker.line c).nudges))) :
    Watched c { run := s, history := observe c w.run.broker s.broker l :: w.history } := by
  have hqueued : (w.run.broker.channels c).queued =
      queuedBytes (w.run.broker.channels c).queue := (h.faithful halive).1
  have hoverflows : Gate.overflows clientOutputBudgetBytes WsMessage.byteLen
      (queuedBytes (w.run.broker.channels c).queue) msg =
        (w.run.broker.channels c).overBudget msg := by
    rw [← hqueued]
    rfl
  have hclosed : (observe c w.run.broker s.broker l).closed = (s.broker.line c).channel.dirty :=
    rfl
  have hfaithful : (s.broker.line c).Faithful := hline ▸ h.faithful.output msg
  have hadded : added c w.run.broker s.broker =
      (s.broker.line c).received.take
        ((s.broker.line c).received.length - (w.run.broker.line c).received.length) := rfl
  have houtput : (observe c w.run.broker s.broker l).output =
      if !(added c w.run.broker s.broker).isEmpty then [msg] else [] := by
    simp [observe, GateEntry.output, hevent]
  suffices hmain : Gate.Follows clientOutputBudgetBytes WsMessage.byteLen
      (w.run.broker.channels c).dirty (observe c w.run.broker s.broker l) ∧
      (observe c w.run.broker s.broker l).output ++ (w.run.broker.line c).received =
        (s.broker.line c).received by
    refine { lawful := ⟨?_, h.lawful⟩, closed := rfl, stream := ?_, faithful := hfaithful }
    · rw [h.closed]
      exact hmain.1
    · show (observe c w.run.broker s.broker l).output ++ Gate.stream w.history = _
      rw [h.stream]
      exact hmain.2
  rw [houtput]
  simp only [Gate.Follows, observe, hevent, hoverflows]
  rw [show (s.broker.channels c).dirty = (s.broker.line c).channel.dirty from rfl, hadded, hline]
  have hflag : (w.run.broker.line c).channel = w.run.broker.channels c := rfl
  unfold Line.output
  by_cases hdirty : (w.run.broker.channels c).dirty = true
  · rw [hflag, if_pos hdirty]
    simp [hflag, hdirty]
  · by_cases hover : (w.run.broker.channels c).overBudget msg = true
    · rw [hflag, if_neg hdirty, if_pos hover]
      simp [hdirty, hover]
    · have hreceiver : (w.run.broker.channels c).receiverAlive = true := halive
      rw [hflag, if_neg hdirty, if_neg hover]
      simp [Line.send, hflag, hdirty, hover, hreceiver]

theorem watched_call {w : OutputRun} {now : Instant} {op : BrokerCall} (h : w.Watched c)
    (halive : w.run.broker.alive c = true)
    (hnodup : forall u, ((w.run.broker.clients u).map ClientConnection.tx).Nodup) :
    Watched c
      { run := w.run.perform now op
        history := observe c w.run.broker (w.run.broker.exec now op).1 (.call now op) ::
          w.history } := by
  cases hop : op.regulates with
  | false =>
      have hsent := (Broker.sentRelation c).exec w.run.broker now hop
      refine watched_bypass h hsent.extends ?_
      cases op
      case noteSessionListRequest => cases hop
      case broadcastToClients u msg =>
          have hpty : msg.isPtyOutput = false := hop
          exact if_neg fun hc => by simp [hpty] at hc
      all_goals rfl
  | true =>
      cases op <;> simp [BrokerCall.regulates] at hop
      case noteSessionListRequest u d conn =>
          rcases w.run.broker.line_noteSessionListRequest c u d conn with
            hsame | ⟨hconn, hcleared⟩
          · by_cases hconn : conn = c
            · exact watched_reopen h (Or.inl hsame) (if_pos hconn)
            · exact watched_bypass h (Line.extends_of_eq hsame) (if_neg hconn)
          · exact watched_reopen h (Or.inr hcleared) (if_pos hconn)
      case broadcastToClients u msg =>
          have hline := w.run.broker.line_broadcastToClients c (hnodup u) hop
          by_cases hmem : c ∈ (w.run.broker.clients u).map ClientConnection.tx
          · rw [if_pos hmem] at hline
            exact watched_offer h halive hline (if_pos ⟨hop, hmem⟩)
          · rw [if_neg hmem] at hline
            exact watched_bypass h (Line.extends_of_eq hline) (if_neg fun hc => hmem hc.2)

/-- The invariant of a connection whose receiver is alive, and of the clients. -/
theorem watched_step {w w' : OutputRun} {l : BrokerLabel}
    (h : w.run.broker.alive c = true -> w.Watched c) (hroster : forall u, w.run.Roster u)
    (hstep : step c w l = some w') :
    (w'.run.broker.alive c = true -> w'.Watched c) ∧ forall u, w'.run.Roster u := by
  rcases Option.map_eq_some_iff.mp hstep with ⟨s, hs, rfl⟩
  cases l with
  | call now op =>
      by_cases hclock : w.run.clock ≤ now
      · simp only [BrokerRun.step, if_pos hclock, Option.some.injEq] at hs
        subst hs
        refine ⟨fun hlive => ?_, fun u => (hroster u).perform now op⟩
        have halive := (Broker.alive_exec w.run.broker now op c).symm.trans hlive
        exact watched_call (h halive) halive fun u => (hroster u).nodup
      · simp [BrokerRun.step, hclock] at hs
  | nudge now tx =>
      rcases BrokerRun.step_cases hs with ⟨_, _, hlabel, _⟩ | hquiet
      · cases hlabel
      · refine ⟨fun hlive => ?_, fun u => (hroster u).background hquiet⟩
        refine watched_bypass (h (hquiet.alive c hlive)) ?_ rfl
        by_cases hguard : w.run.clock ≤ now ∧ tx ∈ w.run.broker.nudges
        · simp only [BrokerRun.step, if_pos hguard, Option.some.injEq] at hs
          subst hs
          exact w.run.broker.line_runNudge c tx now
        · simp [BrokerRun.step, hguard] at hs
  | drain tx =>
      rcases BrokerRun.step_cases hs with ⟨_, _, hlabel, _⟩ | hquiet
      · cases hlabel
      · refine ⟨fun hlive => ?_, fun u => (hroster u).background hquiet⟩
        refine watched_bypass (h (hquiet.alive c hlive)) ?_ rfl
        simp only [BrokerRun.step, Option.some.injEq] at hs
        subst hs
        exact w.run.broker.line_drain c tx
  | stopWriter tx =>
      rcases BrokerRun.step_cases hs with ⟨_, _, hlabel, _⟩ | hquiet
      · cases hlabel
      · refine ⟨fun hlive => ?_, fun u => (hroster u).background hquiet⟩
        refine watched_bypass (h (hquiet.alive c hlive)) ?_ rfl
        simp only [BrokerRun.step, Option.some.injEq] at hs
        subst hs
        exact w.run.broker.line_stopWriter c tx

theorem Watched.gapless {w : OutputRun} (h : w.Watched c)
    (halive : w.run.broker.alive c = true) : w.Gapless c where
  gaps := by
    intro later mid before frame frame' load load' alarm alarm' closed closed' hhistory
    have hlawful := h.lawful
    rw [hhistory] at hlawful
    exact Gate.reopened_between hlawful
  withheld := by
    intro later before frame load alarm closed hhistory
    have hlawful := h.lawful
    rw [hhistory] at hlawful
    exact Gate.withheld_cases hlawful
  pauses := by
    intro later period before hhistory hopen hsome hclosed
    have hlawful := h.lawful
    rw [hhistory] at hlawful
    exact Gate.one_alarm (Gate.lawful_of_append hlawful) hopen hsome hclosed
  order := h.stream
  queue := by
    rw [h.stream]
    exact (h.faithful halive).2

/--
In every run, the live output of a connection whose receiver is alive has only
gaps that end with a request for the session list.
-/
theorem no_silent_gaps {labels : List BrokerLabel} {w : OutputRun} (hrun : Runs c labels w)
    (halive : w.run.broker.alive c = true) : w.Gapless c := by
  have hall : Admits (step c) (fun _ _ => True) init labels :=
    admits_of_forall (fun _ _ => trivial) init labels
  have hwatched := follow_invariant
    (motive := fun w => (w.run.broker.alive c = true -> w.Watched c) ∧
      forall u, w.run.Roster u) ?_ ?_ hrun hall
  · exact (hwatched.1 halive).gapless halive
  · intro w l w' h _ hstep
    exact watched_step h.1 h.2 hstep
  · refine ⟨fun _ => ?_, fun u => BrokerRun.roster_init u⟩
    exact
      { lawful := trivial
        closed := rfl
        stream := rfl
        faithful := fun _ => ⟨rfl, [], rfl⟩ }

theorem no_silent_gaps_example : exists w,
    Runs 2 [.call 0 (.registerClient "user" 2 ⟨"phone", "Phone", "192.0.2.1", ""⟩),
      .call 1 (.broadcastToClients "user" (.binary [ptyOutput])), .drain 2] w ∧
      w.Gapless 2 := by
  have hrun : exists w,
      Runs 2 [.call 0 (.registerClient "user" 2 ⟨"phone", "Phone", "192.0.2.1", ""⟩),
        .call 1 (.broadcastToClients "user" (.binary [ptyOutput])), .drain 2] w ∧
        w.run.broker.alive 2 = true := ⟨_, rfl, rfl⟩
  rcases hrun with ⟨w, hw, halive⟩
  exact ⟨w, hw, no_silent_gaps hw halive⟩

end OutputRun

end CommandRelay
