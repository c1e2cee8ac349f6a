import CommandRelay.Server.Delivery

/-!
# Streams

The handlers of a connection pass the messages of one kind on to a receiver.  While that is
there, what gets through is the first part of what is received, once each and in order, and
all of it unless the stream is cut.  What a client types and what a desktop says of its
sessions is never cut.
-/

namespace CommandRelay

open Foundation

namespace WsMessage

/-- What a client sends its desktop directly: keystrokes, and requests on sessions. -/
def isInput : WsMessage -> Bool
  | .text (.sessionSpawnRequest ..) | .text (.sessionCloseRequest _) => true
  | .text (.ptyResize ..) | .text (.sessionRenamed ..) => true
  | .binary data =>
      match parseBinaryFrame data with
      | .ok (frameType, _) => frameType = ptyInput
      | .error _ => false
  | _ => false

def isUpdate : WsMessage -> Bool
  | .text (.sessionCreated ..) | .text (.sessionClosed _) | .text (.sessionRenamed ..) => true
  | .text (.contextUpdate ..) | .text (.ptyResized ..) => true
  | _ => false

def frame? : WsMessage -> Option (UInt8 × String)
  | .binary data =>
      match parseBinaryFrame data with
      | .ok (frameType, id, _) => some (frameType, id)
      | .error _ => none
  | _ => none

theorem parse_of_frame {msg : WsMessage} {frameType : UInt8} {id : String}
    (h : msg.frame? = some (frameType, id)) :
    exists data payload, msg = .binary data ∧
      parseBinaryFrame data = .ok (frameType, id, payload) := by
  cases msg with
  | binary data =>
      simp only [frame?] at h
      cases hparse : parseBinaryFrame data with
      | error e =>
          rw [hparse] at h
          cases h
      | ok parsed =>
          rw [hparse] at h
          rcases parsed with ⟨frameType', id', payload⟩
          cases h
          exact ⟨data, payload, rfl, hparse⟩
  | _ => cases h

theorem isRelayed_of_frame {msg : WsMessage} {frameType : UInt8} {id : String}
    (h : msg.frame? = some (frameType, id)) : msg.isRelayed = true := by
  rcases parse_of_frame h with ⟨data, payload, rfl, _⟩
  rfl

theorem relayed?_of_isRelayed {msg : WsMessage} (h : msg.isRelayed = true) :
    msg.relayed? = some msg := if_pos h

theorem isRelayed_of_isInput {msg : WsMessage} (h : msg.isInput = true) :
    msg.isRelayed = true := by
  cases msg with
  | text m => cases m <;> first | rfl | cases h
  | binary data => rfl
  | close => cases h

theorem parse_of_isInput {data : Bytes} (h : (binary data).isInput = true) :
    exists id payload, parseBinaryFrame data = .ok (ptyInput, id, payload) := by
  simp only [isInput] at h
  cases hparse : parseBinaryFrame data with
  | error e =>
      rw [hparse] at h
      cases h
  | ok parsed =>
      rcases parsed with ⟨frameType, id, payload⟩
      rw [hparse] at h
      cases of_decide_eq_true h
      exact ⟨id, payload, rfl⟩

theorem not_isPtyOutput_of_isUpdate {msg : WsMessage} (h : msg.isUpdate = true) :
    ¬ msg.isPtyOutput = true := by
  cases msg with
  | text m => exact Bool.false_ne_true
  | binary data => cases h
  | close => cases h

theorem isRelayed_of_isUpdate {msg : WsMessage} (h : msg.isUpdate = true) :
    msg.isRelayed = true := by
  cases msg with
  | text m => cases m <;> first | rfl | cases h
  | binary data => cases h
  | close => cases h

end WsMessage

theorem Inbound.relayed?_cases {frame : Inbound} {m : WsMessage} (h : frame.relayed? = some m) :
    (exists size msg, frame = .text size (some msg) ∧ ¬ maxTextMessageSize < size ∧
      m = .text msg.clamped) ∨
      exists data, frame = .binary data ∧ ¬ maxBinaryMessageSize < data.length ∧
        m = .binary data := by
  cases frame with
  | other => cases h
  | text size parsed =>
      cases parsed with
      | none => cases h
      | some msg =>
          simp only [Inbound.relayed?] at h
          by_cases hsize : maxTextMessageSize < size
          · rw [if_pos hsize] at h
            cases h
          · rw [if_neg hsize] at h
            unfold WsMessage.relayed? WsMessage.ofKind at h
            split at h
            · exact Or.inl ⟨size, msg, rfl, hsize, (Option.some.inj h).symm⟩
            · cases h
  | binary data =>
      simp only [Inbound.relayed?] at h
      by_cases hsize : maxBinaryMessageSize < data.length
      · rw [if_pos hsize] at h
        cases h
      · rw [if_neg hsize] at h
        exact Or.inr ⟨data, rfl, hsize, (Option.some.inj h).symm⟩

/-- How the handlers of a connection pass on one kind of messages to a receiver, under certain
roles and while the broker is ready.  A handler first decides about its message: it may cut
the stream, after which nothing more gets through.  A message it has decided for is
enqueued. -/
structure Stream (env : Env) (c r : ConnId) where
  direct : WsMessage -> Bool
  role : ConnectionRole -> Prop
  ready : Broker -> Prop
  /-- The stream has not been cut. -/
  open_ : Broker -> Prop
  /-- The operation does not open the stream again. -/
  keeps : BrokerCall -> Bool
  deciding : WsMessage -> Handler Unit -> Prop
  passing : WsMessage -> Handler Unit -> Prop
  handled : forall {frame current m} (ip : String), role current -> frame.relayed? = some m ->
    direct m = true -> deciding m (Handler.processWsMessage env frame current c ip)
  invokes : forall {m task}, deciding m task ∨ passing m task ->
    exists op next, task = .invoke (.broker op) next
  decided : forall {b m op next} (now : Instant),
    (forall u, ((b.clients u).map ClientConnection.tx).Nodup) -> ready b -> direct m = true ->
      deciding m (.invoke (.broker op) next) ->
      open_ b ∧ relayedTo r (Relay.newlyEnqueued b (b.exec now op).1) = [m] ∨
        open_ b ∧ op.relayed? = none ∧ passing m (next (b.exec now op).2) ∨
        ¬ open_ (b.exec now op).1 ∧ relayedTo r (Relay.newlyEnqueued b (b.exec now op).1) = [] ∧
          Handler.Passes none (next (b.exec now op).2)
  passed : forall {b m op next} (now : Instant),
    (forall u, ((b.clients u).map ClientConnection.tx).Nodup) -> ready b -> direct m = true ->
      passing m (.invoke (.broker op) next) ->
      relayedTo r (Relay.newlyEnqueued b (b.exec now op).1) = [m]
  sends : forall tx msg, keeps (.send tx msg) = true
  cut : forall {run run' : BrokerRun} {label : BrokerLabel}, run.step label = some run' ->
    (forall now op, label = .call now op -> keeps op = true) ->
      open_ run'.broker -> open_ run.broker

theorem Handler.processWsMessage_frame {frame : Inbound} {m : WsMessage} {frameType : UInt8}
    {id : String} (hframe : frame.relayed? = some m) (hm : m.frame? = some (frameType, id))
    (env : Env) (current : ConnectionRole) (c : ConnId) (ip : String) :
    exists (data : Slice) (payload : Bytes), m = .binary data.bytes ∧
      parseBinaryFrame data.bytes = .ok (frameType, id, payload) ∧
      processWsMessage env frame current c ip = handleBinaryMessage data current c := by
  rcases WsMessage.parse_of_frame hm with ⟨data, payload, rfl, hparse⟩
  rcases Inbound.relayed?_cases hframe with ⟨_, _, _, _, hm⟩ | ⟨data', rfl, hsize, hm⟩
  · cases hm
  · cases hm
    exact ⟨_, payload, rfl, hparse, dif_neg hsize⟩

namespace Stream

section

variable {env : Env} {u : String} {r : ConnId} {b : Broker} {m : WsMessage} {frame : Inbound}
  {current : ConnectionRole}

theorem send_enqueued (halive : b.alive r = true) (hrelayed : m.isRelayed = true) :
    relayedTo r (Relay.newlyEnqueued b (b.send r m).1) = [m] := by
  rw [Relay.newlyEnqueued_send, if_pos halive, relayedTo, sentTo_single, if_pos rfl]
  exact congrArg Option.toList (WsMessage.relayed?_of_isRelayed hrelayed)

theorem sendToDesktop_enqueued (hready : b.Holds u .desktop r ∧ b.alive r = true)
    (hrelayed : m.isRelayed = true) :
    relayedTo r (Relay.newlyEnqueued b (b.sendToDesktop u m).1) = [m] := by
  rcases hready with ⟨⟨st, hst, hdesktop⟩, halive⟩
  have hslot : (b.account u).bind AccountState.desktopTx = some r := by
    rw [hst]
    exact hdesktop
  have hsend : (b.sendToDesktop u m).1 = (b.send r m).1 := by
    unfold Broker.sendToDesktop
    rw [hslot]
  rw [hsend]
  exact send_enqueued halive hrelayed

theorem input_handled (c : ConnId) (ip : String) (hrole : exists d, current = .client u d)
    (hframe : frame.relayed? = some m) (hinput : m.isInput = true) :
    Handler.processWsMessage env frame current c ip =
      Handler.act (.broker (.sendToDesktop u m)) := by
  rcases hrole with ⟨d, rfl⟩
  rcases Inbound.relayed?_cases hframe with ⟨size, msg, rfl, hsize, rfl⟩ | ⟨data, rfl, hsize, rfl⟩
  · simp only [Handler.processWsMessage, if_neg hsize]
    cases msg <;> first | rfl | cases hinput
  · rcases WsMessage.parse_of_isInput hinput with ⟨id, payload, hparse⟩
    simp only [Handler.processWsMessage, dif_neg hsize, Handler.handleBinaryMessage, hparse]
    rfl

theorem update_handled (c : ConnId) (ip : String) (hrole : current = .desktop u)
    (hframe : frame.relayed? = some m) (hupdate : m.isUpdate = true) :
    Handler.processWsMessage env frame current c ip =
      Handler.act (.broker (.broadcastToClients u m)) := by
  subst hrole
  rcases Inbound.relayed?_cases hframe with ⟨size, msg, rfl, hsize, rfl⟩ | ⟨data, rfl, _, rfl⟩
  · simp only [Handler.processWsMessage, if_neg hsize]
    cases msg <;> first | rfl | cases hupdate
  · cases hupdate

theorem update_enqueued (now : Instant)
    (hnodup : forall u, ((b.clients u).map ClientConnection.tx).Nodup)
    (hready : b.Holds u .clients r ∧ b.alive r = true) (hupdate : m.isUpdate = true) :
    relayedTo r (Relay.newlyEnqueued b (b.exec now (.broadcastToClients u m)).1) = [m] := by
  rcases hready with ⟨⟨st, hst, hclient⟩, halive⟩
  have hdistinct : st.clientTxs.Nodup := by
    have h := hnodup u
    unfold Broker.clients Broker.entry at h
    rw [hst] at h
    exact h
  have hsend : (b.exec now (.broadcastToClients u m)).1 = b.sendAll st.clientTxs m := by
    show b.broadcastToClients u m = _
    unfold Broker.broadcastToClients
    rw [hst]
    exact if_neg (WsMessage.not_isPtyOutput_of_isUpdate hupdate)
  rw [hsend, Relay.newlyEnqueued_of_append (b.delivered_sendAll st.clientTxs m), relayedTo,
    sentTo, Broker.filter_delivered hdistinct, if_pos ⟨hclient, halive⟩]
  exact congrArg Option.toList
    (WsMessage.relayed?_of_isRelayed (WsMessage.isRelayed_of_isUpdate hupdate))

end

def ofOneCall {env : Env} {c r : ConnId} (direct : WsMessage -> Bool)
    (role : ConnectionRole -> Prop) (ready : Broker -> Prop) (carry : WsMessage -> BrokerCall)
    (handled : forall {frame current m} (ip : String), role current ->
      frame.relayed? = some m -> direct m = true ->
        Handler.processWsMessage env frame current c ip = Handler.act (.broker (carry m)))
    (enqueued : forall {b m} (now : Instant),
      (forall u, ((b.clients u).map ClientConnection.tx).Nodup) -> ready b -> direct m = true ->
        relayedTo r (Relay.newlyEnqueued b (b.exec now (carry m)).1) = [m]) :
    Stream env c r where
  direct := direct
  role := role
  ready := ready
  open_ := fun _ => True
  keeps := fun _ => true
  deciding := fun m task => task = Handler.act (.broker (carry m))
  passing := fun _ _ => False
  handled := handled
  invokes := fun h => h.elim (fun htask => ⟨_, _, htask⟩) False.elim
  decided := fun now hnodup hready hdirect htask => by
    cases htask
    exact Or.inl ⟨trivial, enqueued now hnodup hready hdirect⟩
  passed := fun _ _ _ _ htask => htask.elim
  sends := fun _ _ => rfl
  cut := fun _ _ _ => trivial

def input (env : Env) (u : String) (c desktop : ConnId) : Stream env c desktop :=
  ofOneCall WsMessage.isInput (fun current => exists d, current = .client u d)
    (fun b => b.Holds u .desktop desktop ∧ b.alive desktop = true) (.sendToDesktop u)
    (input_handled c) fun _ _ hready hinput =>
      sendToDesktop_enqueued hready (WsMessage.isRelayed_of_isInput hinput)

def updates (env : Env) (u : String) (c client : ConnId) : Stream env c client :=
  ofOneCall WsMessage.isUpdate (fun current => current = .desktop u)
    (fun b => b.Holds u .clients client ∧ b.alive client = true) (.broadcastToClients u)
    (update_handled c) update_enqueued

end Stream

def Activity.isIdle : Activity -> Bool
  | idle => true
  | _ => false

theorem Activity.eq_idle {act : Activity} (h : act.isIdle = true) : act = .idle := by
  cases act <;> first | rfl | cases h

/-- Whether a connection is a client of an account can be evaluated. -/
instance decidableClientOf (u : String) : (role : ConnectionRole) ->
    Decidable (exists d, role = .client u d)
  | .client v d =>
      if h : v = u then isTrue ⟨d, h ▸ rfl⟩
      else isFalse fun hclient => by
        rcases hclient with ⟨d', heq⟩
        cases heq
        exact h rfl
  | .desktop _ => isFalse fun hclient => by rcases hclient with ⟨_, heq⟩; cases heq
  | .unauthenticated => isFalse fun hclient => by rcases hclient with ⟨_, heq⟩; cases heq

instance Broker.decidableHolds (b : Broker) (u : String) (place : Place) (c : ConnId) :
    Decidable (b.Holds u place c) :=
  decidable_of_iff (exists st, st ∈ b.account u ∧ st.Holds place c) Iff.rfl

/-!
## Following a stream
-/

namespace Relay

section

variable {env : Env} {c r : ConnId} {stream : Stream env c r}
  {base received got : List WsMessage}
  {labels : List RelayLabel} {l : RelayLabel} {s s' : Relay} {m : Option WsMessage}
  {work work' : WsMessage -> Handler Unit -> Prop}

def WorksOn (stream : Stream env c r) (work : WsMessage -> Handler Unit -> Prop) (s : Relay)
    (m : Option WsMessage) : Prop :=
  forall x, m = some x -> stream.direct x = true -> exists frame current past task,
    s.activity c = .handling frame current past task ∧ work x task

/-- What has got through of a stream is all that was received of it but for what is left, or
the stream has been cut. -/
inductive Flows (stream : Stream env c r) (s : Relay) (m : Option WsMessage)
    (got received : List WsMessage) : Prop where
  | whole (hwork : WorksOn stream (fun x task => stream.deciding x task ∨ stream.passing x task)
        s m)
      (hsame : got ++ m.toList.filter stream.direct = received)
  | cut (hclosed : ¬ stream.open_ s.broker) (hwork : WorksOn stream stream.deciding s m)
      (hfirst : got <+: received)

def Follows (stream : Stream env c r) (base received : List WsMessage) (s : Relay) : Prop :=
  exists m got, s.Remains c m ∧
    (relayedFrom c r s.log).filter stream.direct = base ++ got ∧ Flows stream s m got received

theorem WorksOn.congr (h : WorksOn stream work s m) (hactivity : s'.activity c = s.activity c) :
    WorksOn stream work s' m := by
  intro x hx hdirect
  rw [hactivity]
  exact h x hx hdirect

theorem WorksOn.mono (h : WorksOn stream work s m)
    (hwork : forall x task, work x task -> work' x task) : WorksOn stream work' s m := by
  intro x hx hdirect
  rcases h x hx hdirect with ⟨frame, current, past, task, hact, htask⟩
  exact ⟨frame, current, past, task, hact, hwork x task htask⟩

theorem worksOn_none : WorksOn stream work s none := fun x hx => by cases hx

theorem WorksOn.nothing (h : WorksOn stream work s m)
    (hwork : forall x task, work x task -> stream.deciding x task ∨ stream.passing x task)
    (hended : forall {frame current past call next},
      s.activity c = .handling frame current past (.invoke call next) -> call = .panic) :
    m.toList.filter stream.direct = [] := by
  apply List.filter_eq_nil_iff.mpr
  intro x hx hdirect
  rcases h x (Option.mem_toList.mp hx) hdirect with ⟨frame, current, past, task, hact, htask⟩
  rcases stream.invokes (hwork x task htask) with ⟨op, next, rfl⟩
  cases hended hact

theorem Flows.settle (h : Flows stream s m got received)
    (hended : forall {frame current past call next},
      s.activity c = .handling frame current past (.invoke call next) -> call = .panic) :
    got = received ∨ ¬ stream.open_ s.broker ∧ got <+: received := by
  cases h with
  | whole hwork hsame =>
      rw [hwork.nothing (fun _ _ => id) hended, List.append_nil] at hsame
      exact Or.inl hsame
  | cut hclosed hwork hfirst => exact Or.inr ⟨hclosed, hfirst⟩

theorem Flows.rest (h : Flows stream s m got received)
    (hended : forall {frame current past call next},
      s.activity c = .handling frame current past (.invoke call next) -> call = .panic)
    (hclosed : ¬ stream.open_ s.broker -> ¬ stream.open_ s'.broker) :
    Flows stream s' none got received := by
  rcases h.settle hended with rfl | ⟨hcut, hfirst⟩
  · exact .whole worksOn_none (List.append_nil _)
  · exact .cut (hclosed hcut) worksOn_none hfirst

theorem Flows.keep (h : Flows stream s m got received) (hactivity : s'.activity c = s.activity c)
    (hclosed : ¬ stream.open_ s.broker -> ¬ stream.open_ s'.broker) :
    Flows stream s' m got received := by
  cases h with
  | whole hwork hsame => exact .whole (hwork.congr hactivity) hsame
  | cut hcut hwork hfirst => exact .cut (hclosed hcut) (hwork.congr hactivity) hfirst

theorem nothing_left (h : forall x, m = some x -> stream.direct x = false) :
    m.toList.filter stream.direct = [] := by
  apply List.filter_eq_nil_iff.mpr
  intro x hx
  rw [h x (Option.mem_toList.mp hx)]
  exact Bool.false_ne_true

theorem Flows.skip {m' : Option WsMessage} (h : Flows stream s m got received)
    (hm : forall x, m = some x -> stream.direct x = false)
    (hm' : forall x, m' = some x -> stream.direct x = false)
    (hclosed : ¬ stream.open_ s.broker -> ¬ stream.open_ s'.broker) :
    Flows stream s' m' got received := by
  have hworks : forall {work : WsMessage -> Handler Unit -> Prop}, WorksOn stream work s' m' := by
    intro work x hx hdirect
    rw [hm' x hx] at hdirect
    cases hdirect
  cases h with
  | whole _ hsame =>
      rw [nothing_left hm] at hsame
      exact .whole hworks (by rw [nothing_left hm', hsame])
  | cut hcut _ hfirst => exact .cut (hclosed hcut) hworks hfirst

theorem Follows.receive (h : s.Follows stream base received) (hrole : stream.role (s.role c))
    {frame : Inbound} (hidle : s.activity c = .idle) :
    (s.setActivity c (.handling frame (s.role c) []
      (Handler.processWsMessage env frame (s.role c) c (s.sockets c).ip))).Follows stream base
        (received ++ frame.relayed?.toList.filter stream.direct) := by
  rcases h with ⟨m, got, _, hgot, hflows⟩
  have hwork : forall {work : WsMessage -> Handler Unit -> Prop},
      (forall x task, stream.deciding x task -> work x task) ->
      WorksOn stream work (s.setActivity c (.handling frame (s.role c) []
        (Handler.processWsMessage env frame (s.role c) c (s.sockets c).ip))) frame.relayed? := by
    intro work hdeciding x hx hdirect
    rw [activity_setActivity_same]
    exact ⟨_, _, _, _, rfl, hdeciding _ _ (stream.handled _ hrole hx hdirect)⟩
  have hended : forall {frame current past call next},
      s.activity c = .handling frame current past (.invoke call next) -> call = .panic := by
    intro _ _ _ _ _ hact
    rw [hidle] at hact
    cases hact
  refine ⟨frame.relayed?, got, ?_, hgot, ?_⟩
  · unfold Remains
    rw [activity_setActivity_same]
    exact Handler.processWsMessage_passes env frame (s.role c) c _
  · rcases hflows.settle hended with rfl | ⟨hcut, hfirst⟩
    · exact .whole (hwork fun _ _ => Or.inl) rfl
    · exact .cut hcut (hwork fun _ _ => id) (hfirst.trans (List.prefix_append _ _))

theorem relayed?_of_enqueued {a : Ambient} {call : Call} {x : WsMessage}
    (hnodup : forall u, ((s.broker.clients u).map ClientConnection.tx).Nodup)
    (h : relayedTo r (newlyEnqueued s.broker (s.app.exec env a call).1.broker) = [x]) :
    call.relayed? = some x := by
  have honce := sublist_perform env s r a call hnodup r
  rw [h] at honce
  exact Option.mem_toList.mp (List.singleton_sublist.mp honce)

theorem filter_perform {a : Ambient} {call : Call}
    {kind : WsMessage -> Bool}
    (hnodup : forall u, ((s.broker.clients u).map ClientConnection.tx).Nodup)
    (hcall : forall x, call.relayed? = some x -> kind x = false) :
    (relayedFrom c r (s.perform env c a call).log).filter kind =
      (relayedFrom c r s.log).filter kind := by
  have honce := sublist_perform env s c a call hnodup r
  rw [log_perform, relayedFrom_cons, if_pos rfl, List.filter_append]
  have hnothing : (relayedTo r
      (newlyEnqueued s.broker (s.app.exec env a call).1.broker)).reverse.filter kind = [] := by
    apply List.filter_eq_nil_iff.mpr
    intro x hx
    rw [hcall x (Option.mem_toList.mp (honce.subset hx))]
    exact Bool.false_ne_true
  rw [hnothing, List.append_nil]

section Perform

variable {a : Ambient} {frame : Inbound} {current : ConnectionRole} {past : List CallAnswer}
  {op : BrokerCall} {next : op.Reply -> Handler Unit} {x : WsMessage}

theorem remains_perform {call : Call} {next : call.Reply -> Handler Unit}
    (h : Handler.Passes m (next (s.answer env a call))) :
    ((s.perform env c a call).setActivity c (.handling frame current
      (⟨call, s.answer env a call⟩ :: past) (next (s.answer env a call)))).Remains c m := by
  unfold Remains
  rw [activity_setActivity_same]
  exact h

theorem through_perform
    (hnodup : forall u, ((s.broker.clients u).map ClientConnection.tx).Nodup)
    (hparked : s.broker.Parked WsMessage.isRelayed) (hdirect : stream.direct x = true)
    (hsent : relayedTo r (newlyEnqueued s.broker (s.broker.exec a.now op).1) = [x])
    (hpasses : Handler.Passes (some x) (.invoke (.broker op) next)) :
    Handler.Passes none (next (s.answer env a (.broker op))) ∧
      (relayedFrom c r (s.perform env c a (.broker op)).log).filter stream.direct =
        (relayedFrom c r s.log).filter stream.direct ++ [x] := by
  have hnew : relayedTo r (newlyEnqueued s.broker
      (s.app.exec env a (.broker op)).1.broker) = [x] := hsent
  have hcall : (Call.broker op).relayed? = some x := relayed?_of_enqueued hnodup hnew
  constructor
  · rcases hpasses with ⟨hnone, _⟩ | ⟨_, _, hnext⟩
    · rw [hcall] at hnone
      cases hnone
    · exact hnext _ (Call.plausible_of_parked hparked (.broker op))
  · rw [log_perform, relayedFrom_cons, if_pos rfl, hnew, List.filter_append]
    simp [hdirect]

theorem Flows.call (h : Flows stream s (some x) got received) (hdirect : stream.direct x = true)
    {call : Call} {next : call.Reply -> Handler Unit}
    (hbusy : s.activity c = .handling frame current past (.invoke call next)) :
    exists op, call = .broker op := by
  have hwork : WorksOn stream (fun x task => stream.deciding x task ∨ stream.passing x task) s
      (some x) := by
    cases h with
    | whole hworks _ => exact hworks
    | cut _ hworks _ => exact hworks.mono fun _ _ => Or.inl
  rcases hwork x rfl hdirect with ⟨frame', current', past', task, hact, htask⟩
  rcases stream.invokes htask with ⟨op, next', rfl⟩
  rw [hbusy] at hact
  injection hact with _ _ _ heq
  injection heq with hcall
  exact ⟨op, hcall⟩

theorem Flows.perform (h : Flows stream s (some x) got received)
    (hdirect : stream.direct x = true)
    (hnodup : forall u, ((s.broker.clients u).map ClientConnection.tx).Nodup)
    (hparked : s.broker.Parked WsMessage.isRelayed) (hready : stream.ready s.broker)
    (hpasses : Handler.Passes (some x) (.invoke (.broker op) next))
    (hbusy : s.activity c = .handling frame current past (.invoke (.broker op) next))
    (hgot : (relayedFrom c r s.log).filter stream.direct = base ++ got) :
    ((s.perform env c a (.broker op)).setActivity c (.handling frame current
      (⟨.broker op, s.answer env a (.broker op)⟩ :: past)
      (next (s.answer env a (.broker op))))).Follows stream base received := by
  have hwork : forall {work : WsMessage -> Handler Unit -> Prop},
      WorksOn stream work s (some x) -> work x (.invoke (.broker op) next) := by
    intro work hworks
    rcases hworks x rfl hdirect with ⟨frame', current', past', task, hact, htask⟩
    rw [hbusy] at hact
    injection hact with _ _ _ heq
    rw [heq]
    exact htask
  have hcut : relayedTo r (newlyEnqueued s.broker (s.broker.exec a.now op).1) = [] ->
      (relayedFrom c r (s.perform env c a (.broker op)).log).filter stream.direct =
        base ++ got := by
    intro hnothing
    have hnew : relayedTo r (newlyEnqueued s.broker
        (s.app.exec env a (.broker op)).1.broker) = [] := hnothing
    rw [log_perform, relayedFrom_cons, if_pos rfl, hnew, List.reverse_nil, List.append_nil, hgot]
  cases h with
  | cut hclosed hworks hfirst =>
      rcases stream.decided a.now hnodup hready hdirect (hwork hworks) with
        ⟨hopen, _⟩ | ⟨hopen, _⟩ | ⟨hshut, hnothing, hrest⟩
      · exact absurd hopen hclosed
      · exact absurd hopen hclosed
      · exact ⟨none, got, remains_perform hrest, hcut hnothing, .cut hshut worksOn_none hfirst⟩
  | whole hworks hsame =>
      have hwhole : got ++ [x] = received := by
        rw [← hsame]
        simp [hdirect]
      have hthrough : relayedTo r (newlyEnqueued s.broker (s.broker.exec a.now op).1) = [x] ->
          ((s.perform env c a (.broker op)).setActivity c (.handling frame current
            (⟨.broker op, s.answer env a (.broker op)⟩ :: past)
            (next (s.answer env a (.broker op))))).Follows stream base received := by
        intro hsent
        rcases through_perform hnodup hparked hdirect hsent hpasses with ⟨hnext, hlog⟩
        refine ⟨none, got ++ [x], remains_perform hnext, ?_, .whole worksOn_none ?_⟩
        · rw [log_setActivity, hlog, hgot, List.append_assoc]
        · rw [Option.toList_none, List.filter_nil, List.append_nil, hwhole]
      rcases hwork hworks with hdeciding | hpassing
      · rcases stream.decided a.now hnodup hready hdirect hdeciding with
          ⟨_, hsent⟩ | ⟨_, hnone, hpassing⟩ | ⟨hshut, hnothing, hrest⟩
        · exact hthrough hsent
        · have hsub := sublist_perform env s c a (.broker op) hnodup r
          rw [show (Call.broker op).relayed? = none from hnone] at hsub
          have hnothing := List.reverse_eq_nil_iff.mp (List.sublist_nil.mp hsub)
          have hnext : Handler.Passes (some x) (next (s.answer env a (.broker op))) := by
            rcases hpasses with ⟨_, hnext⟩ | ⟨hcall, _, _⟩
            · exact hnext _ (Call.plausible_of_parked hparked (.broker op))
            · exact absurd ((show (Call.broker op).relayed? = none from hnone).symm.trans hcall)
                (by simp)
          refine ⟨some x, got, remains_perform hnext, hcut hnothing, .whole ?_ hsame⟩
          intro y hy _
          cases hy
          rw [activity_setActivity_same]
          exact ⟨_, _, _, _, rfl, Or.inr hpassing⟩
        · exact ⟨none, got, remains_perform hrest, hcut hnothing,
            .cut hshut worksOn_none (hwhole ▸ List.prefix_append _ _)⟩
      · exact hthrough (stream.passed a.now hnodup hready hdirect hpassing)

end Perform

/-- Every step of a stream that holds keeps what has got through a part of what was
received, and all of it unless the stream is cut. -/
theorem Follows.step (h : s.Follows stream base received)
    (hnodup : forall u, ((s.broker.clients u).map ClientConnection.tx).Nodup)
    (hparked : s.broker.Parked WsMessage.isRelayed) (hrole : stream.role (s.role c))
    (hready : stream.ready s.broker) (hkeeps : (s.operation? l).all stream.keeps = true)
    (hstep : step env s l = some s') :
    s'.Follows stream base (received ++ (l.received? c).toList.filter stream.direct) := by
  rcases h with ⟨m, got, hremains, hgot, hflows⟩
  have hclosed : ¬ stream.open_ s.broker -> ¬ stream.open_ s'.broker :=
    broker_kept (motive := fun b => ¬ stream.open_ b) stream.sends
      (fun hnext hlabel hcut hopen => hcut (stream.cut hnext hlabel hopen)) hstep hkeeps
  have hnone : l.received? c = none ->
      received ++ (l.received? c).toList.filter stream.direct = received := by
    intro hreceived
    rw [hreceived, Option.toList_none, List.filter_nil, List.append_nil]
  cases turn_of_step hnodup hparked hremains hstep with
  | aside hactivity hlog hreceived =>
      rw [hnone hreceived]
      refine ⟨m, got, ?_, ?_, hflows.keep hactivity hclosed⟩
      · unfold Remains
        rw [hactivity]
        exact hremains
      · rw [hlog]
        exact hgot
  | receives hl hidle hs' =>
      rename_i frame
      subst hl hs'
      have hframe : (RelayLabel.receive c frame).received? c = frame.relayed? := if_pos rfl
      rw [hframe]
      exact Follows.receive ⟨m, got, hremains, hgot, hflows⟩ hrole hidle
  | calls hl hbusy hs' =>
      rename_i a frame current past call next
      subst hl
      rw [hnone rfl]
      unfold Remains at hremains
      rw [hbusy] at hremains
      by_cases hdirect : exists x, m = some x ∧ stream.direct x = true
      · rcases hdirect with ⟨x, rfl, hx⟩
        rcases hflows.call hx hbusy with ⟨op, rfl⟩
        rw [hs']
        exact hflows.perform hx hnodup hparked hready hremains hbusy hgot
      · have hother : forall x, m = some x -> stream.direct x = false :=
          fun x hx => Bool.eq_false_iff.mpr fun hdir => hdirect ⟨x, hx, hdir⟩
        rcases hremains.next (Call.plausible_of_parked hparked call) with
          ⟨m', hnext, hleft, hcall⟩
        subst hs'
        refine ⟨m', got, remains_perform hnext, ?_, ?_⟩
        · rw [log_setActivity, filter_perform hnodup fun x hx => hother x (hcall x hx)]
          exact hgot
        · exact hflows.skip hother (fun x hx => hother x (hleft x hx)) hclosed
  | rests hended hremains' hlog hreceived =>
      rw [hnone hreceived]
      refine ⟨none, got, hremains', ?_, hflows.rest hended hclosed⟩
      rw [hlog]
      exact hgot

end

/-- The role of the sender and the receiver's place hold at a step, and the stream is not
opened again. -/
def Holding {env : Env} {c r : ConnId} (stream : Stream env c r) (s : Relay)
    (l : RelayLabel) : Prop :=
  stream.role (s.role c) ∧ stream.ready s.broker ∧ (s.operation? l).all stream.keeps = true

section

variable {env : Env} {auth : AuthManager} {database : Database} {c r : ConnId}
  {before labels : List RelayLabel} {start s : Relay}

theorem follows_of_runs {stream : Stream env c r} (hrun : Runs env auth database before start)
    (hidle : start.activity c = .idle) (hfollow : follow (step env) start labels = some s)
    (hholds : Admits (step env) (Holding stream) start labels) :
    s.Follows stream ((relayedFrom c r start.log).filter stream.direct)
      ((receivedOn c labels).filter stream.direct) := by
  induction labels using List.reverseRecOn generalizing s with
  | nil =>
      cases hfollow
      refine ⟨none, [], ?_, (List.append_nil _).symm, .whole worksOn_none rfl⟩
      unfold Remains
      rw [hidle]
      trivial
  | append_singleton earlier l ih =>
      rcases follow_append_eq_some.mp hfollow with ⟨mid, hmid, hlast⟩
      rcases follow_cons_eq_some.mp hlast with ⟨s', hstep, hs⟩
      cases hs
      rcases (admits_append hmid).mp hholds with ⟨hearlier, ⟨hrole, hready, hkeeps⟩, _⟩
      have hruns : Runs env auth database (before ++ earlier) mid :=
        follow_append_eq_some.mpr ⟨start, hrun, hmid⟩
      rw [receivedOn_snoc, List.filter_append]
      exact (ih hmid hearlier).step (nodup_clients hruns)
        (relaying_of_runs hruns).parked hrole hready hkeeps hstep

/-- What gets through while a stream holds is a part of what is received from its start on,
and all of it unless the stream is cut. -/
theorem carried_of_runs (stream : Stream env c r) (hrun : Runs env auth database before start)
    (hidle : start.activity c = .idle) (hfollow : follow (step env) start labels = some s)
    (hholds : Admits (step env) (Holding stream) start labels) (hdone : s.activity c = .idle) :
    exists got, (relayedFrom c r s.log).filter stream.direct =
        (relayedFrom c r start.log).filter stream.direct ++ got ∧
      got <+: (receivedOn c labels).filter stream.direct ∧
      (stream.open_ s.broker -> got = (receivedOn c labels).filter stream.direct) := by
  rcases follows_of_runs hrun hidle hfollow hholds with ⟨m, got, _, hgot, hflows⟩
  have hended : forall {frame current past call next},
      s.activity c = .handling frame current past (.invoke call next) -> call = .panic := by
    intro _ _ _ _ _ hact
    rw [hdone] at hact
    cases hact
  rcases hflows.settle hended with rfl | ⟨hcut, hfirst⟩
  · exact ⟨_, hgot, List.prefix_refl _, fun _ => rfl⟩
  · exact ⟨got, hgot, hfirst, fun hopen => absurd hopen hcut⟩

theorem carried_whole (stream : Stream env c r) (hopen : forall b, stream.open_ b)
    (hkeeps : forall op, stream.keeps op = true) (hrun : Runs env auth database before start)
    (hidle : start.activity c = .idle) (hfollow : follow (step env) start labels = some s)
    (hholds : Admits (step env) (fun s _ => stream.role (s.role c) ∧ stream.ready s.broker)
      start labels) (hdone : s.activity c = .idle) :
    (relayedFrom c r s.log).filter stream.direct =
      (relayedFrom c r start.log).filter stream.direct ++
        (receivedOn c labels).filter stream.direct := by
  have hholding : Admits (step env) (Holding stream) start labels := by
    refine hholds.mono fun s l h => ⟨h.1, h.2, ?_⟩
    cases s.operation? l with
    | none => rfl
    | some op => exact hkeeps op
  rcases carried_of_runs stream hrun hidle hfollow hholding hdone with ⟨got, hgot, _, hall⟩
  rw [hall (hopen s.broker)] at hgot
  exact hgot

end

/-- A client of the account is connected, and so is its desktop. -/
def Typing (u : String) (c desktop : ConnId) (s : Relay) (_ : RelayLabel) : Prop :=
  (exists d, s.role c = .client u d) ∧
    s.broker.Holds u .desktop desktop ∧ s.broker.alive desktop = true

/-- The desktop of the account is connected, and a client is listed. -/
def Watching (u : String) (c client : ConnId) (s : Relay) (_ : RelayLabel) : Prop :=
  s.role c = .desktop u ∧ s.broker.Holds u .clients client ∧ s.broker.alive client = true

/-- Keystrokes and direct requests are neither lost, repeated nor reordered: while a client
stays one of its account and a desktop stays registered there, the desktop is enqueued all
that is received of them from the client, in order. -/
theorem input_exact {env : Env} {auth : AuthManager} {database : Database} {u : String}
    {c desktop : ConnId} {before labels : List RelayLabel} {start s : Relay}
    (hrun : Runs env auth database before start) (hidle : start.activity c = .idle)
    (hfollow : follow (step env) start labels = some s)
    (hholds : Admits (step env) (Typing u c desktop) start labels)
    (hdone : s.activity c = .idle) :
    (relayedFrom c desktop s.log).filter WsMessage.isInput =
      (relayedFrom c desktop start.log).filter WsMessage.isInput ++
        (receivedOn c labels).filter WsMessage.isInput :=
  carried_whole (Stream.input env u c desktop) (fun _ => trivial) (fun _ => rfl) hrun hidle hfollow
    hholds hdone

/-- What a desktop says of its sessions reaches each client in full: while the desktop
keeps its role and a client stays listed, the client is enqueued all that is received of
it, in order. -/
theorem updates_exact {env : Env} {auth : AuthManager} {database : Database} {u : String}
    {c client : ConnId} {before labels : List RelayLabel} {start s : Relay}
    (hrun : Runs env auth database before start) (hidle : start.activity c = .idle)
    (hfollow : follow (step env) start labels = some s)
    (hholds : Admits (step env) (Watching u c client) start labels)
    (hdone : s.activity c = .idle) :
    (relayedFrom c client s.log).filter WsMessage.isUpdate =
      (relayedFrom c client start.log).filter WsMessage.isUpdate ++
        (receivedOn c labels).filter WsMessage.isUpdate :=
  carried_whole (Stream.updates env u c client) (fun _ => trivial) (fun _ => rfl) hrun hidle hfollow
    hholds hdone

/-- Whether a connection types can be evaluated. -/
instance decidableTyping (u : String) (c desktop : ConnId) (s : Relay) (l : RelayLabel) :
    Decidable (Typing u c desktop s l) :=
  inferInstanceAs (Decidable (_ ∧ _ ∧ _))

instance decidableWatching (u : String) (c client : ConnId) (s : Relay) (l : RelayLabel) :
    Decidable (Watching u c client s l) :=
  inferInstanceAs (Decidable (_ ∧ _ ∧ _))

def phoneAsks : List RelayLabel :=
  Deployment.turn 2 (Deployment.message (.sessionCloseRequest "s")) 1 ++
    Deployment.turn 2 (Deployment.message (.sessionCloseRequest "t")) 1

def desktopTells : List RelayLabel :=
  Deployment.turn 1 (Deployment.message (.sessionClosed "s")) 1 ++
    Deployment.turn 1 (Deployment.message (.sessionRenamed "t" "build")) 1

/-- A run of the deployment that admits a condition from some point on, and whose socket
handles nothing at either end. -/
def holdsAlong (ok : Relay -> RelayLabel -> Prop) [forall s l, Decidable (ok s l)] (c : ConnId)
    (before labels : List RelayLabel) : Option (Bool × Bool × Option Bool) :=
  (Deployment.after before).map fun start =>
    ((start.activity c).isIdle, decide (Admits (step Deployment.env) ok start labels),
      (follow (step Deployment.env) start labels).map fun s => (s.activity c).isIdle)

theorem holds_along {ok : Relay -> RelayLabel -> Prop} [forall s l, Decidable (ok s l)]
    {c : ConnId} {before labels : List RelayLabel}
    (h : holdsAlong ok c before labels = some (true, true, some true)) :
    exists start s, Runs Deployment.env Deployment.auth Deployment.database before start ∧
      start.activity c = .idle ∧ follow (step Deployment.env) start labels = some s ∧
      Admits (step Deployment.env) ok start labels ∧ s.activity c = .idle := by
  rcases Option.map_eq_some_iff.mp h with ⟨start, hstart, hfacts⟩
  simp only [Prod.mk.injEq, Option.map_eq_some_iff, decide_eq_true_eq] at hfacts
  rcases hfacts with ⟨hidle, hadmits, s, hfollow, hdone⟩
  exact ⟨start, s, hstart, Activity.eq_idle hidle, hfollow, hadmits, Activity.eq_idle hdone⟩

theorem input_exact_example : exists start s,
    Runs Deployment.env Deployment.auth Deployment.database deskAndPhone start ∧
      follow (step Deployment.env) start phoneAsks = some s ∧
      (relayedFrom 2 1 s.log).filter WsMessage.isInput =
        (relayedFrom 2 1 start.log).filter WsMessage.isInput ++
          (receivedOn 2 phoneAsks).filter WsMessage.isInput := by
  have hend : holdsAlong (Typing "user" 2 1) 2 deskAndPhone phoneAsks =
      some (true, true, some true) := by decide +kernel
  rcases holds_along hend with ⟨start, s, hrun, hidle, hfollow, hholds, hdone⟩
  exact ⟨start, s, hrun, hfollow, input_exact hrun hidle hfollow hholds hdone⟩

theorem updates_exact_example : exists start s,
    Runs Deployment.env Deployment.auth Deployment.database deskAndPhone start ∧
      follow (step Deployment.env) start desktopTells = some s ∧
      (relayedFrom 1 2 s.log).filter WsMessage.isUpdate =
        (relayedFrom 1 2 start.log).filter WsMessage.isUpdate ++
          (receivedOn 1 desktopTells).filter WsMessage.isUpdate := by
  have hend : holdsAlong (Watching "user" 1 2) 1 deskAndPhone desktopTells =
      some (true, true, some true) := by decide +kernel
  rcases holds_along hend with ⟨start, s, hrun, hidle, hfollow, hholds, hdone⟩
  exact ⟨start, s, hrun, hfollow, updates_exact hrun hidle hfollow hholds hdone⟩

end Relay

end CommandRelay
