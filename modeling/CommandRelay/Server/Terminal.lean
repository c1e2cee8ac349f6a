import CommandRelay.Broker.Backpressure
import CommandRelay.Broker.Output
import CommandRelay.Server.Streams

/-!
# Terminal output

Live output goes to every client of the account but those that are paused, and the frames
of a replay burst to the client whose list request started it.
-/

namespace CommandRelay

open Foundation

namespace WsMessage

def isOutput (msg : WsMessage) : Bool :=
  msg.frame?.any fun frame => frame.1 = ptyOutput

def isScrollback (msg : WsMessage) : Bool :=
  msg.frame?.any fun frame => frame.1 = ptyScrollback

theorem frame_of_any {msg : WsMessage} {frameType : UInt8}
    (h : (msg.frame?.any fun frame => frame.1 = frameType) = true) :
    exists id, msg.frame? = some (frameType, id) := by
  cases hframe : msg.frame? with
  | none =>
      rw [hframe] at h
      cases h
  | some frame =>
      rw [hframe] at h
      rcases frame with ⟨t, id⟩
      exact ⟨id, by rw [show t = frameType from of_decide_eq_true h]⟩

theorem isPtyOutput_of_isOutput {msg : WsMessage} (h : msg.isOutput = true) :
    msg.isPtyOutput = true := by
  rcases frame_of_any h with ⟨id, hframe⟩
  rcases parse_of_frame hframe with ⟨data, payload, rfl, hparse⟩
  exact decide_eq_true (parseBinaryFrame_head hparse)

end WsMessage

/-!
## A paused client stays paused
-/

def BrokerCall.requestsNoList (c : ConnId) : BrokerCall -> Bool
  | noteSessionListRequest _ _ conn => conn ≠ c
  | _ => true

theorem Line.dirty_output {line : Line} (h : line.channel.dirty = true) (msg : WsMessage) :
    (line.output msg).channel.dirty = true := by
  unfold output
  rw [if_pos h]
  exact h

namespace Broker

variable {b : Broker} {c : ConnId}

theorem dirty_outputTo (h : b.dirty c = true) (tx : ConnId) (msg : WsMessage) :
    (b.outputTo tx msg).dirty c = true := by
  show ((b.outputTo tx msg).line c).channel.dirty = true
  rw [line_outputTo]
  by_cases hc : tx = c
  · rw [if_pos hc]
    exact Line.dirty_output h msg
  · rw [if_neg hc]
    exact h

theorem dirty_broadcastOutput (h : b.dirty c = true) (txs : List ConnId) (msg : WsMessage) :
    (b.broadcastOutput txs msg).dirty c = true := by
  unfold broadcastOutput
  induction txs generalizing b with
  | nil => exact h
  | cons tx rest ih => exact ih (dirty_outputTo h tx msg)

theorem dirty_exec (h : b.dirty c = true) (now : Instant) {op : BrokerCall}
    (hop : op.requestsNoList c = true) : (b.exec now op).1.dirty c = true := by
  cases hregulates : op.regulates with
  | false => exact ((sentRelation c).exec b now hregulates).dirty.trans h
  | true =>
      cases op with
      | noteSessionListRequest u d conn =>
          rcases line_noteSessionListRequest b c u d conn with hline | ⟨hconn, _⟩
          · exact (congrArg (fun line => line.channel.dirty) hline).trans h
          · exact absurd hconn (of_decide_eq_true hop)
      | broadcastToClients u msg =>
          show (b.broadcastToClients u msg).dirty c = true
          unfold broadcastToClients
          cases b.account u with
          | none => exact h
          | some st =>
              simp only [if_pos (show msg.isPtyOutput = true from hregulates)]
              exact dirty_broadcastOutput h st.clientTxs msg
      | _ => cases hregulates

end Broker

theorem BrokerRun.dirty_step {run run' : BrokerRun} {label : BrokerLabel} {c : ConnId}
    (hstep : run.step label = some run')
    (hlabel : forall now op, label = .call now op -> op.requestsNoList c = true)
    (h : run.broker.dirty c = true) : run'.broker.dirty c = true := by
  cases label with
  | call now op =>
      by_cases hclock : run.clock ≤ now
      · simp only [step, if_pos hclock, Option.some.injEq] at hstep
        subst hstep
        exact Broker.dirty_exec h now (hlabel now op rfl)
      · simp [step, hclock] at hstep
  | nudge now tx =>
      by_cases hguard : run.clock ≤ now ∧ tx ∈ run.broker.nudges
      · simp only [step, if_pos hguard, Option.some.injEq] at hstep
        subst hstep
        exact (Broker.dirty_runNudge run.broker tx now c).trans h
      · simp [step, hguard] at hstep
  | drain tx =>
      cases hstep
      exact (Broker.dirty_drain run.broker tx c).trans h
  | stopWriter tx =>
      cases hstep
      exact (Broker.dirty_stopWriter run.broker tx c).trans h

/-!
## Offering live output
-/

namespace Stream

section

variable {env : Env} {u : String} {c r : ConnId} {b : Broker} {m : WsMessage} {frame : Inbound}
  {current : ConnectionRole}

theorem enqueued_of_line {b' : Broker} (new : List WsMessage)
    (hdelivered : exists added, b'.delivered = added ++ b.delivered)
    (hline : (b'.line r).received = new ++ (b.line r).received) :
    relayedTo r (Relay.newlyEnqueued b b') =
      new.filterMap (WsMessage.ofKind WsMessage.isRelayed) := by
  rcases hdelivered with ⟨added, hadded⟩
  rw [Relay.newlyEnqueued_of_append hadded]
  have hnew : (added.filter fun m => m.1 = r).map Prod.snd = new := by
    refine List.append_cancel_right (?_ : _ ++ (b.line r).received = new ++ _)
    rw [← hline]
    unfold Broker.line
    rw [hadded, List.filter_append, List.map_append]
  rw [← hnew]
  rfl

theorem output_handled (c : ConnId) (ip : String) (hrole : current = .desktop u)
    (hframe : frame.relayed? = some m) (houtput : m.isOutput = true) :
    Handler.processWsMessage env frame current c ip =
      Handler.act (.broker (.broadcastToClients u m)) := by
  subst hrole
  rcases WsMessage.frame_of_any houtput with ⟨id, hm⟩
  rcases Handler.processWsMessage_frame hframe hm env (.desktop u) c ip with
    ⟨data, payload, rfl, hparse, hprocess⟩
  rw [hprocess, Handler.handleBinaryMessage, hparse]
  rfl

/-- Live output reaches a listed client that can receive, or finds it paused and leaves it
so. -/
theorem output_offered (now : Instant)
    (hnodup : forall u, ((b.clients u).map ClientConnection.tx).Nodup)
    (hready : b.Holds u .clients r ∧ b.alive r = true) (houtput : m.isOutput = true) :
    b.dirty r = false ∧
        relayedTo r (Relay.newlyEnqueued b (b.exec now (.broadcastToClients u m)).1) = [m] ∨
      (b.exec now (.broadcastToClients u m)).1.dirty r = true ∧
        relayedTo r (Relay.newlyEnqueued b (b.exec now (.broadcastToClients u m)).1) = [] := by
  rcases hready with ⟨⟨st, hst, hclient⟩, halive⟩
  have hlisted : r ∈ (b.clients u).map ClientConnection.tx := by
    unfold Broker.clients Broker.entry
    rw [hst]
    exact hclient
  have hline : ((b.exec now (.broadcastToClients u m)).1).line r = (b.line r).output m :=
    (Broker.line_broadcastToClients b r (hnodup u)
      (WsMessage.isPtyOutput_of_isOutput houtput)).trans (if_pos hlisted)
  have hdelivered : exists added, (b.exec now (.broadcastToClients u m)).1.delivered =
      added ++ b.delivered := by
    rcases Broker.passesOn_exec WsMessage.foreign_isRelayed hnodup now
      (.broadcastToClients u m) with ⟨added, hadded, _⟩
    exact ⟨added, hadded⟩
  have hdirty : (b.exec now (.broadcastToClients u m)).1.dirty r =
      ((b.line r).output m).channel.dirty := congrArg (fun line => line.channel.dirty) hline
  have hreceived := congrArg Line.received hline
  by_cases hpaused : (b.line r).channel.dirty = true
  · rw [Line.output, if_pos hpaused] at hdirty hreceived
    exact Or.inr ⟨hdirty.trans hpaused, enqueued_of_line [] hdelivered hreceived⟩
  · by_cases hover : (b.line r).channel.overBudget m = true
    · rw [Line.output, if_neg hpaused, if_pos hover] at hdirty hreceived
      exact Or.inr ⟨hdirty, enqueued_of_line [] hdelivered hreceived⟩
    · have hlive : (b.line r).channel.receiverAlive = true := halive
      rw [Line.output, if_neg hpaused, if_neg hover, Line.send, if_pos hlive] at hreceived
      refine Or.inl ⟨Bool.eq_false_iff.mpr hpaused, ?_⟩
      rw [enqueued_of_line [m] hdelivered hreceived]
      rcases WsMessage.frame_of_any houtput with ⟨id, hm⟩
      simp [WsMessage.ofKind, WsMessage.isRelayed_of_frame hm]

end

def output (env : Env) (u : String) (c client : ConnId) : Stream env c client where
  direct := WsMessage.isOutput
  role := fun current => current = .desktop u
  ready := fun b => b.Holds u .clients client ∧ b.alive client = true
  open_ := fun b => b.dirty client = false
  keeps := BrokerCall.requestsNoList client
  deciding := fun m task => task = Handler.act (.broker (.broadcastToClients u m))
  passing := fun _ _ => False
  handled := output_handled c
  invokes := fun h => h.elim (fun htask => ⟨_, _, htask⟩) False.elim
  decided := fun now hnodup hready hdirect htask => by
    cases htask
    rcases output_offered now hnodup hready hdirect with hsent | ⟨hpaused, hnothing⟩
    · exact Or.inl hsent
    · exact Or.inr (Or.inr ⟨Bool.not_eq_false _ |>.mpr hpaused, hnothing, trivial⟩)
  passed := fun _ _ _ _ htask => htask.elim
  sends := fun _ _ => rfl
  cut := fun hstep hlabel hopen => by
    refine Bool.eq_false_iff.mpr fun hdirty => ?_
    rw [BrokerRun.dirty_step hstep hlabel hdirty] at hopen
    cases hopen

/-!
## Replay bursts
-/

section

variable {env : Env} {u : String} {r : ConnId} {b : Broker} {m : WsMessage} {frame : Inbound}
  {current : ConnectionRole}

theorem scrollback_handled (c : ConnId) (ip : String) (hrole : current = .desktop u)
    (hframe : frame.relayed? = some m) (hscrollback : m.isScrollback = true) :
    exists data : Slice, m = .binary data.bytes ∧
      Handler.processWsMessage env frame current c ip = Handler.handleScrollback data u := by
  subst hrole
  rcases WsMessage.frame_of_any hscrollback with ⟨id, hm⟩
  rcases Handler.processWsMessage_frame hframe hm env (.desktop u) c ip with
    ⟨data, payload, rfl, hparse, hprocess⟩
  refine ⟨data, rfl, ?_⟩
  rw [hprocess, Handler.handleBinaryMessage, hparse]
  rfl

theorem handleScrollback_asks (data : Slice) (u : String) :
    exists next, Handler.handleScrollback data u = .invoke (.broker (.replayTarget u)) next ∧
      forall tx, next (some tx) = Handler.act (.broker (.send tx (.binary data.bytes))) :=
  ⟨_, rfl, fun _ => rfl⟩

theorem replayTarget_of_holds (h : b.Holds u .target r) : b.replayTarget u = some r := by
  rcases h with ⟨st, hst, htarget⟩
  unfold Broker.replayTarget
  rw [hst]
  exact Option.map_eq_some_iff.mpr htarget

end

def burst (env : Env) (u : String) (c target : ConnId) : Stream env c target where
  direct := WsMessage.isScrollback
  role := fun current => current = .desktop u
  ready := fun b => b.Holds u .target target ∧ b.alive target = true
  open_ := fun _ => True
  keeps := fun _ => true
  deciding := fun m task => exists data : Slice, m = .binary data.bytes ∧
    task = Handler.handleScrollback data u
  passing := fun m task => task = Handler.act (.broker (.send target m))
  handled := scrollback_handled c
  invokes := fun h => by
    rcases h with ⟨data, _, htask⟩ | htask
    · exact ⟨_, _, htask⟩
    · exact ⟨_, _, htask⟩
  decided := fun now _ hready _ htask => by
    rcases htask with ⟨data, rfl, htask⟩
    rcases handleScrollback_asks data u with ⟨next, hasks, hsends⟩
    rw [hasks] at htask
    cases htask
    refine Or.inr (Or.inl ⟨trivial, rfl, ?_⟩)
    show next (Broker.replayTarget _ u) = _
    rw [replayTarget_of_holds hready.1, hsends]
  passed := fun _ _ hready hdirect htask => by
    cases htask
    rcases WsMessage.frame_of_any hdirect with ⟨id, hm⟩
    exact send_enqueued hready.2 (WsMessage.isRelayed_of_frame hm)
  sends := fun _ _ => rfl
  cut := fun _ _ _ => trivial

end Stream

namespace Relay

/-- The desktop of the account is connected, a client is listed, and it does not ask for the
session list in this step. -/
def Showing (u : String) (c client : ConnId) (s : Relay) (l : RelayLabel) : Prop :=
  s.role c = .desktop u ∧
    (s.broker.Holds u .clients client ∧ s.broker.alive client = true) ∧
    (s.operation? l).all (BrokerCall.requestsNoList client) = true

/-- The desktop of the account is connected, and the replay burst is for a connection that
can receive. -/
def Replaying (u : String) (c target : ConnId) (s : Relay) (_ : RelayLabel) : Prop :=
  s.role c = .desktop u ∧ s.broker.Holds u .target target ∧ s.broker.alive target = true

/-- Live output has no gaps: from one of its list requests to the next a listed client is
enqueued the first part of the live output that is received from the desktop, in order, and
all of it if it is not paused at the end. -/
theorem output_unbroken {env : Env} {auth : AuthManager} {database : Database} {u : String}
    {c client : ConnId} {before labels : List RelayLabel} {start s : Relay}
    (hrun : Runs env auth database before start) (hidle : start.activity c = .idle)
    (hfollow : follow (step env) start labels = some s)
    (hholds : Admits (step env) (Showing u c client) start labels)
    (hdone : s.activity c = .idle) :
    exists got, (relayedFrom c client s.log).filter WsMessage.isOutput =
        (relayedFrom c client start.log).filter WsMessage.isOutput ++ got ∧
      got <+: (receivedOn c labels).filter WsMessage.isOutput ∧
      (s.broker.dirty client = false ->
        got = (receivedOn c labels).filter WsMessage.isOutput) :=
  carried_of_runs (Stream.output env u c client) hrun hidle hfollow hholds hdone

/-- A replay burst is complete: while it is for a connection, that connection is enqueued
all that the desktop is received to replay, in order. -/
theorem burst_complete {env : Env} {auth : AuthManager} {database : Database} {u : String}
    {c target : ConnId} {before labels : List RelayLabel} {start s : Relay}
    (hrun : Runs env auth database before start) (hidle : start.activity c = .idle)
    (hfollow : follow (step env) start labels = some s)
    (hholds : Admits (step env) (Replaying u c target) start labels)
    (hdone : s.activity c = .idle) :
    (relayedFrom c target s.log).filter WsMessage.isScrollback =
      (relayedFrom c target start.log).filter WsMessage.isScrollback ++
        (receivedOn c labels).filter WsMessage.isScrollback :=
  carried_whole (Stream.burst env u c target) (fun _ => trivial) (fun _ => rfl) hrun hidle hfollow
    hholds hdone

instance decidableShowing (u : String) (c client : ConnId) (s : Relay) (l : RelayLabel) :
    Decidable (Showing u c client s l) :=
  inferInstanceAs (Decidable (_ ∧ _ ∧ _))

instance decidableReplaying (u : String) (c target : ConnId) (s : Relay) (l : RelayLabel) :
    Decidable (Replaying u c target s l) :=
  inferInstanceAs (Decidable (_ ∧ _ ∧ _))

def session : String :=
  "00000000-0000-4000-8000-00000000000b"

def desktopShows : List RelayLabel :=
  Deployment.turn 1 (.binary (buildBinaryFrame ptyOutput session [104, 105])) 1 ++
    Deployment.turn 1 (.binary (buildBinaryFrame ptyOutput session [10])) 1

/-- The phone asks for the session list, and the desktop takes the request up. -/
def burstBegins : List RelayLabel :=
  Deployment.turn 2 (Deployment.message .sessionListRequest) 2 ++
    Deployment.turn 1 (Deployment.message .replayBegin) 1

def desktopReplays : List RelayLabel :=
  Deployment.turn 1 (.binary (buildBinaryFrame ptyScrollback session [104, 105])) 2 ++
    Deployment.turn 1 (.binary (buildBinaryFrame ptyScrollback session [10])) 2

theorem output_unbroken_example : exists start s got,
    Runs Deployment.env Deployment.auth Deployment.database deskAndPhone start ∧
      follow (step Deployment.env) start desktopShows = some s ∧
      (relayedFrom 1 2 s.log).filter WsMessage.isOutput =
        (relayedFrom 1 2 start.log).filter WsMessage.isOutput ++ got ∧
      got <+: (receivedOn 1 desktopShows).filter WsMessage.isOutput := by
  have hend : holdsAlong (Showing "user" 1 2) 1 deskAndPhone desktopShows =
      some (true, true, some true) := by decide +kernel
  rcases holds_along hend with ⟨start, s, hrun, hidle, hfollow, hholds, hdone⟩
  rcases output_unbroken hrun hidle hfollow hholds hdone with ⟨got, hgot, hfirst, _⟩
  exact ⟨start, s, got, hrun, hfollow, hgot, hfirst⟩

theorem burst_complete_example : exists start s,
    Runs Deployment.env Deployment.auth Deployment.database (deskAndPhone ++ burstBegins)
        start ∧
      follow (step Deployment.env) start desktopReplays = some s ∧
      (relayedFrom 1 2 s.log).filter WsMessage.isScrollback =
        (relayedFrom 1 2 start.log).filter WsMessage.isScrollback ++
          (receivedOn 1 desktopReplays).filter WsMessage.isScrollback := by
  have hend : holdsAlong (Replaying "user" 1 2) 1 (deskAndPhone ++ burstBegins)
      desktopReplays = some (true, true, some true) := by decide +kernel
  rcases holds_along hend with ⟨start, s, hrun, hidle, hfollow, hholds, hdone⟩
  exact ⟨start, s, hrun, hfollow, burst_complete hrun hidle hfollow hholds hdone⟩

end Relay

end CommandRelay
