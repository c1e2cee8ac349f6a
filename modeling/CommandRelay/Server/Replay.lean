import CommandRelay.Server.Relay

/-!
# Replay bursts

One desktop answers the list requests of its clients one at a time, in the order in
which they reach it.  The relay does not number the requests: it keeps a queue of its
own, and a burst goes to the head of that queue.
-/

namespace CommandRelay

open Foundation

/-- A message of a burst: the connection whose request it answers, whether that can
still receive, and what was enqueued. -/
structure BurstMessage where
  requester : ConnId
  message : WsMessage
  reachable : Bool
  enqueued : List (ConnId × WsMessage)

/-- The relay, the device of each connected client, and the desktop: the requests it has
received and not taken up yet, and the one it is answering. -/
structure Replay where
  app : App
  clients : ConnId -> Option String
  waiting : List ConnId
  answering : Option ConnId
  answered : List BurstMessage

inductive ReplayLabel where
  | connect (c : ConnId) (info : ClientInfo) (a : Ambient)
  | request (c : ConnId) (a : Ambient)
  | disconnect (c : ConnId) (a : Ambient)
  | stopWriter (c : ConnId)
  | replayBegin (a : Ambient)
  | scrollback (data : Slice) (a : Ambient)
  | sessionList (sessions : List SessionInfo) (accounts : Option (List AccountMeta))
      (a : Ambient)

def Slice.isScrollback (data : Slice) : Bool :=
  match parseBinaryFrame data.bytes with
  | .ok (frameType, _, _) => frameType = ptyScrollback
  | .error _ => false

/-- A message of a burst goes to the requester alone, or to nobody when it is gone. -/
def BurstMessage.Delivered (m : BurstMessage) : Prop :=
  m.enqueued = if m.reachable then [(m.requester, m.message)] else []

namespace Replay

/-!
## Steps

Each step runs one handler to its end.
-/

section

variable (env : Env) (u : String) (desktop : ConnId) (s : Replay)

def broker : Broker :=
  s.app.broker

def account : Option AccountState :=
  s.broker.account u

def process (a : Ambient) (task : Handler Unit) : App :=
  (Program.run (App.exec env a) s.app task).1

def answer (a : Ambient) (c : ConnId) (msg : WsMessage) (task : Handler Unit) : Replay :=
  { s with
    app := s.process env a task
    answered :=
      { requester := c, message := msg, reachable := s.broker.alive c,
        enqueued := Relay.newlyEnqueued s.broker (s.process env a task).broker } :: s.answered }

def step : ReplayLabel -> Option Replay
  | .connect c info a =>
      if c = desktop then none
      else
        some { s with
          app := s.process env a (Handler.act (.broker (.registerClient u c info)))
          clients := Function.update s.clients c (some info.deviceId) }
  | .request c a =>
      match s.clients c with
      | none => none
      | some d =>
          let app := s.process env a
            (Handler.handleControlMessage env .sessionListRequest (.client u d) c "")
          -- The desktop queues the request when it receives it.
          let received := (Relay.newlyEnqueued s.broker app.broker).filter fun m => m.1 = desktop
          some { s with app := app, waiting := s.waiting ++ received.map fun _ => c }
  | .disconnect c a =>
      match s.clients c with
      | none => none
      | some d =>
          let app := s.process env a (Handler.cleanup (.client u d) c)
          some { s with
            app := { app with broker := app.broker.stopWriter c }
            clients := Function.update s.clients c none }
  | .stopWriter c =>
      if c = desktop then none
      else some { s with app := { s.app with broker := s.broker.stopWriter c } }
  | .replayBegin a =>
      match s.answering, s.waiting with
      | none, c :: rest =>
          some { s with
            app := s.process env a
              (Handler.handleControlMessage env .replayBegin (.desktop u) desktop "")
            waiting := rest
            answering := some c }
      | _, _ => none
  | .scrollback data a =>
      match s.answering with
      | none => none
      | some c =>
          if data.isScrollback then
            some (s.answer env a c (.binary data.bytes)
              (Handler.handleBinaryMessage data (.desktop u) desktop))
          else none
  | .sessionList sessions accounts a =>
      match s.answering with
      | none => none
      | some c =>
          let s' := s.answer env a c (.text (.sessionList sessions accounts))
            (Handler.handleControlMessage env (.sessionList sessions accounts) (.desktop u)
              desktop "")
          some { s' with answering := none }

end

/-- The desktop has just registered, and no request has been made to it. -/
structure Starts (u : String) (desktop : ConnId) (s : Replay) : Prop where
  account : exists st, s.account u = some st ∧ st.desktopTx = some desktop ∧
    st.replayQueue = [] ∧ st.replayTarget = none
  alive : s.broker.alive desktop = true
  client : s.clients desktop = none
  waiting : s.waiting = []
  answering : s.answering = none
  answered : s.answered = []

/-- A client that disconnects has no request in the queue, and a request is made only
when the queue has room for it. -/
def keepsQueue (u : String) (s : Replay) : ReplayLabel -> Bool
  | .disconnect c _ =>
      ((s.account u).map fun st => st.replayQueue.all fun r => r.tx ≠ c).getD true
  | .request _ _ =>
      ((s.account u).map fun st => decide (st.replayQueue.length < maxReplayQueue)).getD true
  | _ => true

def KeepsQueue (u : String) (s : Replay) (l : ReplayLabel) : Prop :=
  s.keepsQueue u l = true

instance (u : String) (s : Replay) (l : ReplayLabel) : Decidable (s.KeepsQueue u l) :=
  inferInstanceAs (Decidable (_ = true))

/-!
## The two queues agree
-/

/-- The relay's queue and target are those of the desktop, request by request. -/
structure Aligned (u : String) (desktop : ConnId) (s : Replay) : Prop where
  account : exists st, s.account u = some st ∧ st.desktopTx = some desktop ∧
    st.replayQueue.map ReplayRequest.tx = s.waiting ∧
    st.replayTarget.map ReplayRequest.tx = s.answering
  alive : s.broker.alive desktop = true
  client : s.clients desktop = none
  delivered : forall m, m ∈ s.answered -> m.Delivered

theorem Starts.aligned {u : String} {desktop : ConnId} {s : Replay} (h : s.Starts u desktop) :
    s.Aligned u desktop where
  account := by
    rcases h.account with ⟨st, hst, hdesktop, hqueue, htarget⟩
    exact ⟨st, hst, hdesktop, by rw [hqueue, h.waiting]; rfl, by rw [htarget, h.answering]; rfl⟩
  alive := h.alive
  client := h.client
  delivered := by
    intro m hm
    rw [h.answered] at hm
    cases hm

section

variable {env : Env} {u : String} {desktop : ConnId} {s s' : Replay} {c : ConnId} {a : Ambient}

theorem Aligned.of_agree (h : s.Aligned u desktop)
    (haccount : forall st, s.account u = some st -> exists st', s'.account u = some st' ∧
      st'.desktopTx = st.desktopTx ∧ st'.replayQueue = st.replayQueue ∧
      st'.replayTarget = st.replayTarget)
    (halive : s'.broker.alive desktop = s.broker.alive desktop)
    (hclient : s'.clients desktop = none) (hwaiting : s'.waiting = s.waiting)
    (hanswering : s'.answering = s.answering) (hanswered : s'.answered = s.answered) :
    s'.Aligned u desktop where
  account := by
    rcases h.account with ⟨st, hst, hdesktop, hqueue, htarget⟩
    rcases haccount st hst with ⟨st', hst', hdesktop', hqueue', htarget'⟩
    exact ⟨st', hst', hdesktop'.trans hdesktop, by rw [hqueue', hqueue, hwaiting],
      by rw [htarget', htarget, hanswering]⟩
  alive := halive.trans h.alive
  client := hclient
  delivered := hanswered ▸ h.delivered

theorem aligned_connect {info : ClientInfo} (h : s.Aligned u desktop)
    (hstep : s.step env u desktop (.connect c info a) = some s') : s'.Aligned u desktop := by
  unfold step at hstep
  by_cases hc : c = desktop
  · simp [hc] at hstep
  · simp only [if_neg hc] at hstep
    cases hstep
    refine h.of_agree (fun st hst => ?_) (Broker.alive_exec _ _ _ _) ?_ rfl rfl rfl
    · have hafter := Broker.account_exec_of_some (.registerClient u c info) a.now hst rfl
      refine ⟨_, hafter, ?_⟩
      show (st.withClient c info).desktopTx = st.desktopTx ∧
        (st.withClient c info).replayQueue = st.replayQueue ∧
        (st.withClient c info).replayTarget = st.replayTarget
      rw [st.withClient_frame c info]
      exact ⟨rfl, rfl, rfl⟩
    · exact (Function.update_of_ne (Ne.symm hc) _ _).trans h.client

theorem aligned_stopWriter (h : s.Aligned u desktop)
    (hstep : s.step env u desktop (.stopWriter c) = some s') : s'.Aligned u desktop := by
  unfold step at hstep
  by_cases hc : c = desktop
  · simp [hc] at hstep
  · simp only [if_neg hc] at hstep
    cases hstep
    refine h.of_agree (fun st hst => ⟨st, ?_, rfl, rfl, rfl⟩)
      (Broker.alive_stopWriter_ne (Ne.symm hc)) h.client rfl rfl rfl
    exact (Broker.account_stopWriter _ _ _).trans hst

theorem aligned_request (h : s.Aligned u desktop) (hkeeps : s.KeepsQueue u (.request c a))
    (hstep : s.step env u desktop (.request c a) = some s') : s'.Aligned u desktop := by
  unfold step at hstep
  cases hclient : s.clients c with
  | none => simp [hclient] at hstep
  | some d =>
      simp only [hclient] at hstep
      cases hstep
      rcases h.account with ⟨st, hst, hdesktop, hqueue, htarget⟩
      have hroom : st.replayQueue.length < maxReplayQueue := by
        simpa [KeepsQueue, keepsQueue, hst] using hkeeps
      have hnoted : s.broker.noteSessionListRequest u d c =
          (s.broker.put u (st.queueReplay d c)).clearDirty c := by
        have hst : s.broker.account u = some st := hst
        simp [Broker.noteSessionListRequest, hst]
      have hput : (s.broker.noteSessionListRequest u d c).account u =
          some (st.queueReplay d c) := by
        rw [hnoted]
        simp
      have hslot : (st.queueReplay d c).desktopTx = some desktop := by
        rw [st.queueReplay_frame d c]
        exact hdesktop
      have halive : (s.broker.noteSessionListRequest u d c).alive desktop = true := by
        rw [hnoted]
        exact (Broker.alive_setChannel_same (by rfl) desktop).trans h.alive
      have hsent : ((s.broker.noteSessionListRequest u d c).sendToDesktop u
          (.text .sessionListRequest)).1 =
          ((s.broker.noteSessionListRequest u d c).send desktop (.text .sessionListRequest)).1 := by
        simp [Broker.sendToDesktop, hput, hslot]
      have hdelivered : (s.broker.noteSessionListRequest u d c).delivered = s.broker.delivered := by
        rw [hnoted]
        rfl
      have hbroker : (s.process env a (Handler.handleControlMessage env .sessionListRequest
          (.client u d) c "")).broker =
          ((s.broker.noteSessionListRequest u d c).send desktop (.text .sessionListRequest)).1 :=
        hsent
      have hreceived : Relay.newlyEnqueued s.broker (s.process env a
          (Handler.handleControlMessage env .sessionListRequest (.client u d) c "")).broker =
          [(desktop, .text .sessionListRequest)] := by
        have hnew := Relay.newlyEnqueued_send (s.broker.noteSessionListRequest u d c) desktop
          (.text .sessionListRequest)
        rw [halive, if_pos rfl] at hnew
        rw [hbroker]
        unfold Relay.newlyEnqueued at hnew ⊢
        rw [hdelivered] at hnew
        exact hnew
      have hqueued : (st.queueReplay d c).replayQueue = st.replayQueue ++ [⟨d, c⟩] := by
        simp [AccountState.queueReplay, hroom]
      constructor
      · refine ⟨st.queueReplay d c, ?_, hslot, ?_, ?_⟩
        · show (s.process env a (Handler.handleControlMessage env .sessionListRequest
            (.client u d) c "")).broker.account u = _
          rw [hbroker, Broker.account_send]
          exact hput
        · show _ = s.waiting ++ _
          rw [hreceived, hqueued, List.map_append, hqueue]
          simp
        · rw [st.queueReplay_frame d c]
          exact htarget
      · show (s.process env a (Handler.handleControlMessage env .sessionListRequest
          (.client u d) c "")).broker.alive desktop = true
        rw [hbroker, Broker.alive_send]
        exact halive
      · exact h.client
      · exact h.delivered

theorem aligned_disconnect (h : s.Aligned u desktop)
    (hkeeps : s.KeepsQueue u (.disconnect c a))
    (hstep : s.step env u desktop (.disconnect c a) = some s') : s'.Aligned u desktop := by
  unfold step at hstep
  cases hclient : s.clients c with
  | none => simp [hclient] at hstep
  | some d =>
      simp only [hclient] at hstep
      cases hstep
      have hne : desktop ≠ c := by
        rintro rfl
        rw [h.client] at hclient
        cases hclient
      have hbroker : (s.process env a (Handler.cleanup (.client u d) c)).broker =
          ((s.broker.unregisterClient u c).send c .close).1 := rfl
      refine h.of_agree (fun st hst => ⟨st.unregisterClient c, ?_, rfl, ?_, rfl⟩) ?_ ?_ rfl rfl rfl
      · show (Broker.stopWriter _ c).account u = _
        rw [hbroker, Broker.account_stopWriter, Broker.account_send]
        exact Broker.account_exec_of_some (.unregisterClient u d c) a.now hst rfl
      · have hnone : forall r, r ∈ st.replayQueue -> r.tx ≠ c := by
          simpa [KeepsQueue, keepsQueue, hst] using hkeeps
        refine List.filter_eq_self.mpr fun r hr => ?_
        simpa using hnone r hr
      · show (Broker.stopWriter _ c).alive desktop = _
        rw [Broker.alive_stopWriter_ne hne, hbroker, Broker.alive_send]
        exact Broker.alive_exec s.broker a.now (.unregisterClient u d c) desktop
      · exact (Function.update_of_ne hne _ _).trans h.client

theorem aligned_replayBegin (h : s.Aligned u desktop)
    (hstep : s.step env u desktop (.replayBegin a) = some s') : s'.Aligned u desktop := by
  rcases h.account with ⟨st, hst, hdesktop, hqueue, htarget⟩
  unfold step at hstep
  cases hanswering : s.answering with
  | some c => simp [hanswering] at hstep
  | none =>
      cases hwaiting : s.waiting with
      | nil => simp [hanswering, hwaiting] at hstep
      | cons c rest =>
          simp only [hanswering, hwaiting] at hstep
          cases hstep
          rw [hwaiting] at hqueue
          cases hlist : st.replayQueue with
          | nil => simp [hlist] at hqueue
          | cons r others =>
              simp only [hlist, List.map_cons, List.cons.injEq] at hqueue
              refine ⟨⟨st.beginReplay, ?_, hdesktop, ?_, ?_⟩, ?_, h.client, h.delivered⟩
              · exact Broker.account_exec_of_some (.beginReplay u) a.now hst rfl
              · show st.replayQueue.tail.map _ = rest
                rw [hlist]
                exact hqueue.2
              · show st.replayQueue.head?.map _ = some c
                rw [hlist]
                exact congrArg some hqueue.1
              · exact (Broker.alive_exec s.broker a.now (.beginReplay u) desktop).trans h.alive

theorem delivered_send {b b' : Broker} {tx : ConnId} {msg : WsMessage}
    (hb : b.delivered = s.broker.delivered) (halive : b.alive tx = s.broker.alive tx)
    (hsent : b' = (b.send tx msg).1) :
    BurstMessage.Delivered
      { requester := tx, message := msg, reachable := s.broker.alive tx,
        enqueued := Relay.newlyEnqueued s.broker b' } := by
  have hnew := Relay.newlyEnqueued_send b tx msg
  rw [halive] at hnew
  unfold BurstMessage.Delivered
  unfold Relay.newlyEnqueued at hnew ⊢
  rw [hb, <- hsent] at hnew
  exact hnew

theorem scrollback_sent {data : Slice} {st : AccountState} (hdata : data.isScrollback = true)
    (hst : s.account u = some st) (htarget : st.replayTarget.map ReplayRequest.tx = some c) :
    (s.process env a (Handler.handleBinaryMessage data (.desktop u) desktop)).broker =
      (s.broker.send c (.binary data.bytes)).1 := by
  have hhandler : Handler.handleBinaryMessage data (.desktop u) desktop =
      Handler.handleScrollback data u := by
    unfold Slice.isScrollback at hdata
    unfold Handler.handleBinaryMessage
    cases hparsed : parseBinaryFrame data.bytes with
    | error e => simp [hparsed] at hdata
    | ok parsed =>
        rcases parsed with ⟨frameType, id, payload⟩
        have htype : frameType = ptyScrollback := by simpa [hparsed] using hdata
        subst htype
        rfl
  have hreply : s.app.broker.replayTarget u = some c := by
    have hst : s.app.broker.account u = some st := hst
    simp [Broker.replayTarget, hst, htarget]
  have hreply : (s.app.exec env a (.broker (.replayTarget u))).2 = some c := hreply
  unfold process
  rw [hhandler]
  unfold Handler.handleScrollback Handler.ask
  rw [Program.run_perform_bind, hreply]
  rfl

theorem aligned_scrollback {data : Slice} (h : s.Aligned u desktop)
    (hstep : s.step env u desktop (.scrollback data a) = some s') : s'.Aligned u desktop := by
  rcases h.account with ⟨st, hst, hdesktop, hqueue, htarget⟩
  unfold step at hstep
  cases hanswering : s.answering with
  | none => simp [hanswering] at hstep
  | some c =>
      simp only [hanswering] at hstep
      by_cases hdata : data.isScrollback = true
      · rw [if_pos hdata] at hstep
        cases hstep
        have hbroker := @scrollback_sent env u desktop s c a data st hdata hst
          (htarget.trans hanswering)
        refine ⟨⟨st, ?_, hdesktop, hqueue, htarget⟩, ?_, h.client, ?_⟩
        · show
            (s.process env a (Handler.handleBinaryMessage data (.desktop u) desktop)).broker.account
              u = _
          rw [hbroker, Broker.account_send]
          exact hst
        · show
            (s.process env a (Handler.handleBinaryMessage data (.desktop u) desktop)).broker.alive
              desktop = true
          rw [hbroker, Broker.alive_send]
          exact h.alive
        · intro m hm
          rcases List.mem_cons.mp hm with rfl | hold
          · exact delivered_send rfl rfl hbroker
          · exact h.delivered m hold
      · rw [if_neg hdata] at hstep
        cases hstep

theorem sessionList_sent {sessions : List SessionInfo} {accounts : Option (List AccountMeta)}
    {st : AccountState} (hst : s.account u = some st)
    (htarget : st.replayTarget.map ReplayRequest.tx = some c) :
    (s.process env a (Handler.handleControlMessage env (.sessionList sessions accounts)
      (.desktop u) desktop "")).broker =
      ((s.broker.put u st.endReplay.1).send c (.text (.sessionList sessions accounts))).1 := by
  have hst : s.app.broker.account u = some st := hst
  have hended : s.app.broker.endReplay u = (s.app.broker.put u st.endReplay.1, some c) := by
    simp [Broker.endReplay, Broker.withAccount, hst, AccountState.endReplay, htarget]
  have hreply : (s.app.exec env a (.broker (.endReplay u))).2 = some c :=
    congrArg Prod.snd hended
  have hbroker : (s.app.exec env a (.broker (.endReplay u))).1.broker =
      s.app.broker.put u st.endReplay.1 := congrArg Prod.fst hended
  unfold process
  have hhandler : Handler.handleControlMessage env (.sessionList sessions accounts) (.desktop u)
      desktop "" = Handler.handleSessionList (.sessionList sessions accounts) (.desktop u) := rfl
  rw [hhandler]
  unfold Handler.handleSessionList Handler.ask
  dsimp only
  rw [Program.run_perform_bind, hreply]
  show ((s.app.exec env a (.broker (.endReplay u))).1.broker.send c _).1 = _
  rw [hbroker]
  rfl

theorem aligned_sessionList {sessions : List SessionInfo} {accounts : Option (List AccountMeta)}
    (h : s.Aligned u desktop)
    (hstep : s.step env u desktop (.sessionList sessions accounts a) = some s') :
    s'.Aligned u desktop := by
  rcases h.account with ⟨st, hst, hdesktop, hqueue, htarget⟩
  unfold step at hstep
  cases hanswering : s.answering with
  | none => simp [hanswering] at hstep
  | some c =>
      simp only [hanswering] at hstep
      cases hstep
      have hbroker := @sessionList_sent env u desktop s c a sessions accounts st hst
        (htarget.trans hanswering)
      refine ⟨⟨st.endReplay.1, ?_, hdesktop, hqueue, rfl⟩, ?_, h.client, ?_⟩
      · show (s.process env a _).broker.account u = _
        rw [hbroker, Broker.account_send]
        simp
      · show (s.process env a _).broker.alive desktop = true
        rw [hbroker, Broker.alive_send]
        exact h.alive
      · intro m hm
        rcases List.mem_cons.mp hm with rfl | hold
        · exact delivered_send (b := s.broker.put u st.endReplay.1) rfl rfl hbroker
        · exact h.delivered m hold

theorem aligned_step {l : ReplayLabel} (h : s.Aligned u desktop) (hkeeps : s.KeepsQueue u l)
    (hstep : s.step env u desktop l = some s') : s'.Aligned u desktop := by
  cases l with
  | connect c info a => exact aligned_connect h hstep
  | request c a => exact aligned_request h hkeeps hstep
  | disconnect c a => exact aligned_disconnect h hkeeps hstep
  | stopWriter c => exact aligned_stopWriter h hstep
  | replayBegin a => exact aligned_replayBegin h hstep
  | scrollback data a => exact aligned_scrollback h hstep
  | sessionList sessions accounts a => exact aligned_sessionList h hstep

/-- While no queued request is lost and none is refused a place in the queue, each message
of a burst goes to its requester or to nobody. -/
theorem burst_reaches_requester {s₀ : Replay} {labels : List ReplayLabel}
    (hstart : s₀.Starts u desktop) (hrun : follow (step env u desktop) s₀ labels = some s)
    (hkeeps : Admits (step env u desktop) (KeepsQueue u) s₀ labels) :
    forall m, m ∈ s.answered -> m.Delivered := by
  have haligned : s.Aligned u desktop :=
    follow_invariant (fun _ _ _ hs hl hstep => aligned_step hs hl hstep) hstart.aligned hrun
      hkeeps
  exact haligned.delivered

end

def registered : Replay where
  app :=
    { broker := Broker.new.registerDesktop "user" 1 none
      auth := Deployment.auth
      database := Deployment.database
      pushes := [] }
  clients := fun _ => none
  waiting := []
  answering := none
  answered := []

def phoneInfo : ClientInfo where
  deviceId := Deployment.phone.text
  deviceName := "Phone"
  ip := "192.0.2.1"
  connectedAt := "2023-11-14T22:13:20+00:00"

def bothRequest : List ReplayLabel :=
  [.connect 2 phoneInfo (Deployment.ambient 0), .connect 3 phoneInfo (Deployment.ambient 0),
    .request 2 (Deployment.ambient 0), .request 3 (Deployment.ambient 0)]

def answersFirst : List ReplayLabel :=
  [.replayBegin (Deployment.ambient 0), .sessionList [] none (Deployment.ambient 0)]

def receivers (s : Replay) : List (ConnId × List ConnId) :=
  s.answered.map fun m => (m.requester, m.enqueued.map Prod.fst)

theorem registered_starts : registered.Starts "user" 1 := by
  refine ⟨?_, by decide +kernel, rfl, rfl, rfl, rfl⟩
  have haccount : (registered.account "user").map (fun st => (st.desktopTx,
      st.replayQueue.length, st.replayTarget.isSome)) = some (some 1, 0, false) := by
    decide +kernel
  rcases Option.map_eq_some_iff.mp haccount with ⟨st, hst, hvalues⟩
  injection hvalues with hdesktop hvalues
  injection hvalues with hqueue htarget
  exact ⟨st, hst, hdesktop, List.length_eq_zero_iff.mp hqueue, by simpa using htarget⟩

theorem burst_reaches_requester_example : exists s,
    follow (step Deployment.env "user" 1) registered (bothRequest ++ answersFirst) = some s ∧
      s.receivers = [(2, [2])] ∧ forall m, m ∈ s.answered -> m.Delivered := by
  have hrun : (follow (step Deployment.env "user" 1) registered
      (bothRequest ++ answersFirst)).map receivers = some [(2, [2])] := by
    decide +kernel
  rcases Option.map_eq_some_iff.mp hrun with ⟨s, hs, hreceivers⟩
  exact ⟨s, hs, hreceivers, burst_reaches_requester registered_starts hs (by decide +kernel)⟩

/-- The first tab goes away before the desktop answers it: its answer goes to the other. -/
theorem burst_reaches_other_tab : exists s,
    follow (step Deployment.env "user" 1) registered
        (bothRequest ++ [.disconnect 2 (Deployment.ambient 0)] ++ answersFirst) = some s ∧
      s.receivers = [(2, [3])] ∧ ¬ forall m, m ∈ s.answered -> m.Delivered := by
  have hrun : (follow (step Deployment.env "user" 1) registered
      (bothRequest ++ [.disconnect 2 (Deployment.ambient 0)] ++ answersFirst)).map receivers =
        some [(2, [3])] := by
    decide +kernel
  rcases Option.map_eq_some_iff.mp hrun with ⟨s, hs, hreceivers⟩
  refine ⟨s, hs, hreceivers, fun hall => ?_⟩
  have hone : exists m, m ∈ s.answered ∧ (m.requester, m.enqueued.map Prod.fst) = (2, [3]) := by
    apply List.mem_map.mp
    show _ ∈ s.receivers
    rw [hreceivers]
    simp
  rcases hone with ⟨m, hm, hpair⟩
  injection hpair with hrequester henqueued
  have hdelivered := hall m hm
  unfold BurstMessage.Delivered at hdelivered
  rw [hdelivered, hrequester] at henqueued
  cases hreachable : m.reachable with
  | true => simp [hreachable] at henqueued
  | false => simp [hreachable] at henqueued

end Replay

end CommandRelay
