import CommandRelay.Server.Relay

/-!
# The order of list requests

A list request is queued at the relay and then forwarded to the desktop.  Between the two
steps of one handler come those of others, and the registrations of desktops.  The queue
agrees with what the desktop has received as long as the handlers forward in the order in
which they queued, and no desktop registers while one of them is between its two steps.
-/

namespace CommandRelay

open Foundation

/-- The relay, the handlers of list requests that are under way, those of them that are
between their two steps, in the order of the first one, and the requests that a connection
has received as the desktop and not answered, in order. -/
structure ListRequests where
  app : App
  tasks : ConnId -> Option (Handler Unit)
  between : List ConnId
  received : ConnId -> List ConnId

inductive ListRequestLabel where
  | request (c : ConnId) (deviceId : String)
  | resume (c : ConnId) (a : Ambient)
  | finish (c : ConnId)
  | registerDesktop (tx : ConnId) (capabilities : Option (List String)) (a : Ambient)
  | replayBegin (a : Ambient)

namespace ListRequests

section

variable (env : Env) (u : String) (s : ListRequests)

def broker : Broker :=
  s.app.broker

def desktop : Option ConnId :=
  (s.broker.account u).bind AccountState.desktopTx

def queue : List ConnId :=
  ((s.broker.account u).map fun st => st.replayQueue.map ReplayRequest.tx).getD []

/-- The requests that the current desktop has received and not answered. -/
def arrived : List ConnId :=
  ((s.desktop u).map s.received).getD []

/-- The requests that a step enqueues to a connection: nothing else is sent to a desktop
while requests are handled. -/
def arrivals (tx : ConnId) (app : App) : List (ConnId × WsMessage) :=
  (Relay.newlyEnqueued s.broker app.broker).filter fun m => m.1 = tx

def betweenAfter (c : ConnId) : Call -> List ConnId
  | .broker (.noteSessionListRequest ..) => s.between ++ [c]
  | .broker (.sendToDesktop ..) => s.between.erase c
  | _ => s.between

/-- A desktop answers only what it has received. -/
def step : ListRequestLabel -> Option ListRequests
  | .request c deviceId =>
      match s.tasks c with
      | none =>
          some { s with
            tasks := Function.update s.tasks c (some
              (Handler.handleControlMessage env .sessionListRequest (.client u deviceId) c "")) }
      | some _ => none
  | .resume c a =>
      match s.tasks c with
      | some (.invoke call next) =>
          let r := s.app.exec env a call
          some
            { app := r.1
              tasks := Function.update s.tasks c (some (next r.2))
              between := s.betweenAfter c call
              received := fun tx => s.received tx ++ (s.arrivals tx r.1).map fun _ => c }
      | _ => none
  | .finish c =>
      match s.tasks c with
      | some (.done _) => some { s with tasks := Function.update s.tasks c none }
      | _ => none
  | .registerDesktop tx capabilities a =>
      some { s with app := (s.app.exec env a (.broker (.registerDesktop u tx capabilities))).1 }
  | .replayBegin a =>
      match s.desktop u with
      | none => none
      | some d =>
          match s.received d with
          | [] => none
          | _ :: rest =>
              some { s with
                app := (Program.run (App.exec env a) s.app
                  (Handler.handleControlMessage env .replayBegin (.desktop u) d "")).1
                received := Function.update s.received d rest }

def Forwarding (c : ConnId) : Prop :=
  exists next,
    s.tasks c = some (.invoke (.broker (.sendToDesktop u (.text .sessionListRequest))) next)

/-- The queue holds the requests that the desktop has received, in their order, and then
only requests whose forward is still to come. -/
def Ordered : Prop :=
  exists coming, s.queue u = s.arrived u ++ coming ∧ coming.Nodup ∧
    forall c, c ∈ coming -> s.Forwarding u c

/-- No request is under way. -/
structure Starts : Prop where
  tasks : forall c, s.tasks c = none
  between : s.between = []
  queue : s.queue u = []
  received : forall tx, s.received tx = []

/-- A request is only queued while the queue has room. -/
def hasRoom : ListRequestLabel -> Bool
  | .resume c _ =>
      match s.tasks c with
      | some (.invoke (.broker (.noteSessionListRequest ..)) _) =>
          (s.queue u).length < maxReplayQueue
      | _ => true
  | _ => true

def hasDesktop : Bool :=
  (s.broker.account u).all fun st => st.desktopTx.any s.broker.alive

/-- The handlers forward in the order in which they queued, while the desktop is there; and a
desktop registers while no handler is between its two steps, with nothing left to answer. -/
def keepsOrder : ListRequestLabel -> Bool
  | .resume c _ =>
      match s.tasks c with
      | some (.invoke (.broker (.sendToDesktop ..)) _) =>
          s.between.head? = some c && s.hasDesktop u
      | _ => true
  | .registerDesktop tx _ _ => s.between.isEmpty && (s.received tx).isEmpty
  | _ => true

def KeepsOrder (l : ListRequestLabel) : Prop :=
  s.hasRoom u l = true ∧ s.keepsOrder u l = true

end

instance (u : String) (s : ListRequests) (l : ListRequestLabel) : Decidable (s.KeepsOrder u l) :=
  inferInstanceAs (Decidable (_ ∧ _))

/-!
## Steps
-/

/-- A handler of a list request, from its first call to its last. -/
inductive Stage (u : String) (c : ConnId) : Handler Unit -> Prop where
  | noting {d} : Stage u c (Handler.handleSessionListRequest (.client u d) c)
  | forwarding : Stage u c (Handler.sendToDesktop u (.text .sessionListRequest))
  | done : Stage u c (.done ())

/-- The handlers between their steps are those with their forward to come, and their requests
end the queue of the account. -/
structure Sound (u : String) (s : ListRequests) : Prop where
  stage : forall {c task}, s.tasks c = some task -> Stage u c task
  nodup : s.between.Nodup
  forwarding : forall c, c ∈ s.between <-> s.Forwarding u c
  agrees : (s.broker.account u).isSome = true -> s.queue u = s.arrived u ++ s.between

section

variable {env : Env} {u : String} {s s' : ListRequests} {c : ConnId} {a : Ambient}

theorem arrived_of_starts (h : s.Starts u) : s.arrived u = [] := by
  unfold arrived
  cases s.desktop u with
  | none => rfl
  | some d => exact h.received d

theorem Starts.sound (h : s.Starts u) : s.Sound u where
  stage := fun htask => by
    rw [h.tasks] at htask
    cases htask
  nodup := by
    rw [h.between]
    exact List.nodup_nil
  forwarding := fun c => by
    rw [h.between]
    refine iff_of_false List.not_mem_nil ?_
    rintro ⟨next, hnext⟩
    rw [h.tasks] at hnext
    cases hnext
  agrees := fun _ => by rw [h.queue, arrived_of_starts h, h.between, List.append_nil]

theorem Sound.ordered (h : s.Sound u) : s.Ordered u := by
  cases hst : s.broker.account u with
  | none =>
      refine ⟨[], ?_, List.nodup_nil, fun c hc => by cases hc⟩
      simp [queue, arrived, desktop, hst]
  | some st =>
      have hsome : (s.broker.account u).isSome = true := by rw [hst]; rfl
      exact ⟨s.between, h.agrees hsome, h.nodup, fun c hc => (h.forwarding c).mp hc⟩

theorem forwarding_update {task : Option (Handler Unit)} {c' : ConnId}
    (hne : c' ≠ c) (htasks : s'.tasks = Function.update s.tasks c task) :
    s'.Forwarding u c' <-> s.Forwarding u c' := by
  unfold Forwarding
  rw [htasks, Function.update_of_ne hne]

theorem stage_update {task : Option (Handler Unit)} (h : s.Sound u)
    (htasks : s'.tasks = Function.update s.tasks c task)
    (hstage : forall t, task = some t -> Stage u c t) {c' : ConnId} {t : Handler Unit}
    (ht : s'.tasks c' = some t) : Stage u c' t := by
  rw [htasks] at ht
  by_cases hc : c' = c
  · subst hc
    rw [Function.update_self] at ht
    exact hstage t ht
  · rw [Function.update_of_ne hc] at ht
    exact h.stage ht

theorem Sound.moved {task : Option (Handler Unit)} (h : s.Sound u)
    (hnot : ¬ s.Forwarding u c) (happ : s'.app = s.app) (hbetween : s'.between = s.between)
    (htasks : s'.tasks = Function.update s.tasks c task) (hreceived : s'.received = s.received)
    (hstage : forall t, task = some t -> Stage u c t) (hnot' : ¬ s'.Forwarding u c) :
    s'.Sound u where
  stage := stage_update h htasks hstage
  nodup := hbetween ▸ h.nodup
  forwarding := by
    intro c'
    rw [hbetween, h.forwarding]
    by_cases hc : c' = c
    · subst hc
      exact iff_of_false hnot hnot'
    · exact (forwarding_update hc htasks).symm
  agrees := by
    have hqueue := h.agrees
    unfold queue arrived desktop broker at hqueue ⊢
    rw [happ, hreceived, hbetween]
    exact hqueue

theorem not_forwarding_of_none (h : s.tasks c = none) : ¬ s.Forwarding u c := by
  rintro ⟨next, hnext⟩
  rw [h] at hnext
  cases hnext

theorem not_forwarding_of_noting {d : String}
    (h : s.tasks c = some (Handler.handleSessionListRequest (.client u d) c)) :
    ¬ s.Forwarding u c := by
  rintro ⟨next, hnext⟩
  rw [h] at hnext
  cases hnext

theorem newlyEnqueued_noteSessionListRequest (b : Broker) (d : String) :
    Relay.newlyEnqueued b (b.noteSessionListRequest u d c) = [] := by
  refine Relay.newlyEnqueued_of_append ?_
  unfold Broker.noteSessionListRequest
  cases b.account u with
  | none => rfl
  | some st => rfl

theorem queue_noted {d : String} {st : AccountState} (hst : s.broker.account u = some st)
    (hroom : (s.queue u).length < maxReplayQueue)
    (hbroker : s'.broker = s.broker.noteSessionListRequest u d c) :
    s'.queue u = s.queue u ++ [c] ∧ s'.desktop u = s.desktop u := by
  have hqueue : s.queue u = st.replayQueue.map ReplayRequest.tx := by simp [queue, hst]
  have hfits : st.replayQueue.length < maxReplayQueue := by
    rw [hqueue, List.length_map] at hroom
    exact hroom
  have haccount : s'.broker.account u =
      some { st with replayQueue := st.replayQueue ++ [{ deviceId := d, tx := c }] } := by
    rw [hbroker]
    simp [Broker.noteSessionListRequest, hst, AccountState.queueReplay, hfits]
  constructor
  · rw [hqueue]
    simp [queue, haccount]
  · unfold desktop
    rw [haccount, hst]
    rfl

theorem sound_noted {d : String} (h : s.Sound u)
    (htask : s.tasks c = some (Handler.handleSessionListRequest (.client u d) c))
    (hroom : (s.queue u).length < maxReplayQueue)
    (hbroker : s'.broker = s.broker.noteSessionListRequest u d c)
    (htasks : s'.tasks = Function.update s.tasks c
      (some (Handler.sendToDesktop u (.text .sessionListRequest))))
    (hbetween : s'.between = s.between ++ [c]) (hreceived : s'.received = s.received) :
    s'.Sound u := by
  have hfresh : c ∉ s.between := fun hc =>
    not_forwarding_of_noting htask ((h.forwarding c).mp hc)
  have hforwards : s'.Forwarding u c := ⟨_, by rw [htasks, Function.update_self]; rfl⟩
  refine
    { stage := stage_update h htasks fun t ht => by
        cases ht
        exact .forwarding
      nodup := ?_
      forwarding := fun c' => ?_
      agrees := fun hsome => ?_ }
  · rw [hbetween]
    refine List.nodup_append.mpr ⟨h.nodup, List.nodup_singleton c, fun x hx y hy heq => ?_⟩
    exact hfresh (List.mem_singleton.mp hy ▸ heq ▸ hx)
  · rw [hbetween, List.mem_append, List.mem_singleton, h.forwarding]
    by_cases hc : c' = c
    · subst hc
      exact iff_of_true (Or.inr rfl) hforwards
    · rw [forwarding_update hc htasks]
      exact ⟨fun h => h.resolve_right hc, Or.inl⟩
  · cases hst : s.broker.account u with
    | none =>
        rw [hbroker] at hsome
        simp [Broker.noteSessionListRequest, hst] at hsome
    | some st =>
        rcases queue_noted hst hroom hbroker with ⟨hqueue, hdesktop⟩
        have harrived : s'.arrived u = s.arrived u := by
          unfold arrived
          rw [hdesktop, hreceived]
        rw [hqueue, h.agrees (by rw [hst]; rfl), harrived, hbetween, List.append_assoc]

theorem arrived_forwarded {st : AccountState} (hst : s.broker.account u = some st)
    (hdesktop : s.hasDesktop u = true)
    (hbroker : s'.broker = (s.broker.sendToDesktop u (.text .sessionListRequest)).1)
    (hreceived : s'.received = fun tx => s.received tx ++ (s.arrivals tx s'.app).map fun _ => c) :
    s'.arrived u = s.arrived u ++ [c] := by
  unfold hasDesktop at hdesktop
  rw [hst] at hdesktop
  rcases (Option.any_eq_true _ _).mp hdesktop with ⟨d, hd, halive⟩
  have hslot : s.desktop u = some d := by
    unfold desktop
    rw [hst]
    exact hd
  have hslot' : s'.desktop u = some d := by
    rw [← hslot]
    unfold desktop
    rw [hbroker, Broker.account_sendToDesktop]
  have hsent : s'.broker = (s.broker.send d (.text .sessionListRequest)).1 := by
    rw [hbroker, Broker.sendToDesktop]
    unfold desktop at hslot
    rw [hslot]
  have hreaches : s.arrivals d s'.app = [(d, .text .sessionListRequest)] := by
    have hnew := Relay.newlyEnqueued_send s.broker d (.text .sessionListRequest)
    rw [halive, if_pos rfl, ← hsent] at hnew
    unfold arrivals
    rw [show s'.app.broker = s'.broker from rfl, hnew]
    simp
  unfold arrived
  rw [hslot', hslot, hreceived]
  simp [hreaches]

theorem sound_forwarded (h : s.Sound u) (hfirst : s.between.head? = some c)
    (hdesktop : s.hasDesktop u = true)
    (hbroker : s'.broker = (s.broker.sendToDesktop u (.text .sessionListRequest)).1)
    (htasks : s'.tasks = Function.update s.tasks c (some (.done ())))
    (hbetween : s'.between = s.between.erase c)
    (hreceived : s'.received = fun tx => s.received tx ++ (s.arrivals tx s'.app).map fun _ => c) :
    s'.Sound u := by
  rcases List.head?_eq_some_iff.mp hfirst with ⟨later, hlater⟩
  have hrest : s'.between = later := by
    rw [hbetween, hlater, List.erase_cons_head]
  have hnodup := h.nodup
  rw [hlater, List.nodup_cons] at hnodup
  have haccount : s'.broker.account u = s.broker.account u := by
    rw [hbroker]
    exact Broker.account_sendToDesktop _ _ _ _
  refine
    { stage := stage_update h htasks fun t ht => by
        cases ht
        exact .done
      nodup := hrest ▸ hnodup.2
      forwarding := fun c' => ?_
      agrees := fun hsome => ?_ }
  · rw [hrest]
    by_cases hc : c' = c
    · subst hc
      refine iff_of_false hnodup.1 ?_
      rintro ⟨next, hnext⟩
      rw [htasks, Function.update_self] at hnext
      cases hnext
    · rw [forwarding_update hc htasks, ← h.forwarding, hlater, List.mem_cons]
      exact ⟨Or.inr, fun h => h.resolve_left hc⟩
  · rw [haccount] at hsome
    rcases Option.isSome_iff_exists.mp hsome with ⟨st, hst⟩
    have hqueue : s'.queue u = s.queue u := by
      unfold queue
      rw [haccount]
    rw [hqueue, h.agrees hsome, arrived_forwarded hst hdesktop hbroker hreceived, hlater, hrest,
      List.append_assoc]
    rfl

theorem sound_registered {tx : ConnId} {capabilities : Option (List String)} (h : s.Sound u)
    (hnone : s.between = []) (hanswered : s.received tx = []) :
    Sound u { s with
      app := (s.app.exec env a (.broker (.registerDesktop u tx capabilities))).1 } where
  stage := h.stage
  nodup := h.nodup
  forwarding := h.forwarding
  agrees := by
    intro _
    have haccount := Broker.account_registerDesktop s.broker u tx capabilities u
    rw [if_pos rfl] at haccount
    have hdesktop : desktop u { s with
        app := (s.app.exec env a (.broker (.registerDesktop u tx capabilities))).1 } = some tx :=
      congrArg (fun o => Option.bind o AccountState.desktopTx) haccount
    have hqueue : queue u { s with
        app := (s.app.exec env a (.broker (.registerDesktop u tx capabilities))).1 } = [] :=
      congrArg (fun o => (Option.map (fun st : AccountState =>
        st.replayQueue.map ReplayRequest.tx) o).getD []) haccount
    rw [hqueue]
    unfold arrived
    rw [hdesktop]
    simp [hanswered, hnone]

theorem sound_answered {d first : ConnId} {rest : List ConnId} (h : s.Sound u)
    (hslot : s.desktop u = some d) (hreceived : s.received d = first :: rest) :
    Sound u { s with
      app := (Program.run (App.exec env a) s.app
        (Handler.handleControlMessage env .replayBegin (.desktop u) d "")).1
      received := Function.update s.received d rest } where
  stage := h.stage
  nodup := h.nodup
  forwarding := h.forwarding
  agrees := by
    intro _
    rcases Option.bind_eq_some_iff.mp hslot with ⟨st, hst, hdesktop⟩
    have haccount : (s.broker.beginReplay u).account u = some st.beginReplay :=
      Broker.account_exec_of_some (.beginReplay u) a.now hst rfl
    have hordered := h.agrees (by rw [hst]; rfl)
    have harrived : s.arrived u = first :: rest := by
      unfold arrived
      rw [hslot, Option.map_some, Option.getD_some, hreceived]
    have hqueue : s.queue u = st.replayQueue.map ReplayRequest.tx := by
      have hst : s.broker.account u = some st := hst
      simp [queue, hst]
    rw [hqueue, harrived] at hordered
    show (((s.broker.beginReplay u).account u).map fun st =>
      st.replayQueue.map ReplayRequest.tx).getD [] =
        ((((s.broker.beginReplay u).account u).bind AccountState.desktopTx).map
          (Function.update s.received d rest)).getD [] ++ s.between
    rw [haccount]
    have hkept : st.beginReplay.desktopTx = some d := hdesktop
    simp only [Option.map_some, Option.getD_some, Option.bind_some, hkept, Function.update_self]
    show st.replayQueue.tail.map ReplayRequest.tx = rest ++ s.between
    rw [List.map_tail, hordered]
    rfl

theorem sound_step {l : ListRequestLabel} (h : s.Sound u) (hkeeps : s.KeepsOrder u l)
    (hstep : s.step env u l = some s') : s'.Sound u := by
  cases l with
  | request c deviceId =>
      simp only [step] at hstep
      cases htask : s.tasks c with
      | some task => simp [htask] at hstep
      | none =>
          simp only [htask] at hstep
          cases hstep
          refine h.moved (not_forwarding_of_none htask) rfl rfl rfl rfl (fun t ht => ?_) ?_
          · cases ht
            exact .noting
          · exact not_forwarding_of_noting (d := deviceId) (Function.update_self _ _ _)
  | resume c a =>
      simp only [step] at hstep
      cases htask : s.tasks c with
      | none => simp [htask] at hstep
      | some task =>
          rcases hkeeps with ⟨hroom, horder⟩
          simp only [hasRoom, htask] at hroom
          simp only [keepsOrder, htask] at horder
          simp only [htask] at hstep
          cases h.stage htask with
          | @noting d =>
              cases hstep
              refine sound_noted h htask (of_decide_eq_true hroom) rfl rfl rfl ?_
              funext tx
              have hnone := newlyEnqueued_noteSessionListRequest (c := c) (u := u) s.broker d
              unfold arrivals
              rw [show (s.app.exec env a (.broker (.noteSessionListRequest u d c))).1.broker =
                s.broker.noteSessionListRequest u d c from rfl, hnone]
              exact List.append_nil _
          | forwarding =>
              cases hstep
              rcases Bool.and_eq_true_iff.mp horder with ⟨hfirst, hdesktop⟩
              exact sound_forwarded h (of_decide_eq_true hfirst) hdesktop rfl rfl rfl rfl
          | done => cases hstep
  | finish c =>
      simp only [step] at hstep
      cases htask : s.tasks c with
      | none => simp [htask] at hstep
      | some task =>
          simp only [htask] at hstep
          cases task with
          | invoke call next => cases hstep
          | done value =>
              cases hstep
              refine h.moved ?_ rfl rfl rfl rfl (fun t ht => by cases ht) ?_
              · rintro ⟨next, hnext⟩
                rw [htask] at hnext
                cases hnext
              · exact not_forwarding_of_none (Function.update_self _ _ _)
  | registerDesktop tx capabilities a =>
      cases hstep
      rcases Bool.and_eq_true_iff.mp hkeeps.2 with ⟨hnone, hanswered⟩
      exact sound_registered h (List.isEmpty_iff.mp hnone) (List.isEmpty_iff.mp hanswered)
  | replayBegin a =>
      simp only [step] at hstep
      cases hslot : s.desktop u with
      | none => simp [hslot] at hstep
      | some d =>
          simp only [hslot] at hstep
          cases hreceived : s.received d with
          | nil => simp [hreceived] at hstep
          | cons first rest =>
              simp only [hreceived] at hstep
              cases hstep
              exact sound_answered h hslot hreceived

/-- In every run whose handlers forward in the order in which they queued, the queue is what
the desktop has received and not answered, in its order, and then requests that are still to
be forwarded. -/
theorem requests_ordered {s₀ : ListRequests} {labels : List ListRequestLabel}
    (hstart : s₀.Starts u) (hrun : follow (step env u) s₀ labels = some s)
    (hok : Admits (step env u) (KeepsOrder u) s₀ labels) : s.Ordered u :=
  (follow_invariant (motive := Sound u) (fun _ _ _ hs hl hstep => sound_step hs hl hstep)
    hstart.sound hrun hok).ordered

end

def quiet : ListRequests where
  app :=
    { broker := Broker.new.registerDesktop "user" 1 none
      auth := Deployment.auth
      database := Deployment.database
      pushes := [] }
  tasks := fun _ => none
  between := []
  received := fun _ => []

theorem starts_quiet : quiet.Starts "user" where
  tasks := fun _ => rfl
  between := rfl
  queue := by decide +kernel
  received := fun _ => rfl

def resume (c : ConnId) : ListRequestLabel :=
  .resume c (Deployment.ambient 0)

/-- Two phones ask one after the other, and the first of them is answered. -/
def inTurn : List ListRequestLabel :=
  [.request 2 "phone", .request 3 "tablet", resume 2, resume 3, resume 2, resume 3,
    .replayBegin (Deployment.ambient 0)]

theorem requests_ordered_example : exists s,
    follow (step Deployment.env "user") quiet inTurn = some s ∧ s.queue "user" = [3] ∧
      s.arrived "user" = [3] ∧ s.Ordered "user" := by
  have hend : (follow (step Deployment.env "user") quiet inTurn).map
      (fun s => (s.queue "user", s.arrived "user")) = some ([3], [3]) := by decide +kernel
  rcases Option.map_eq_some_iff.mp hend with ⟨s, hrun, hfacts⟩
  rcases Prod.mk.inj hfacts with ⟨hqueue, harrived⟩
  exact ⟨s, hrun, hqueue, harrived, requests_ordered starts_quiet hrun (by decide +kernel)⟩

def overtaken : List ListRequestLabel :=
  [.request 2 "phone", .request 3 "tablet", resume 2, resume 3, resume 3]

theorem request_overtaken : exists s,
    quiet.Starts "user" ∧ follow (step Deployment.env "user") quiet overtaken = some s ∧
      Admits (step Deployment.env "user") (fun s l => s.hasRoom "user" l = true) quiet
        overtaken ∧
      s.queue "user" = [2, 3] ∧ s.arrived "user" = [3] ∧ ¬ s.Ordered "user" := by
  have hend : (follow (step Deployment.env "user") quiet overtaken).map
      (fun s => (s.queue "user", s.arrived "user")) = some ([2, 3], [3]) := by decide +kernel
  rcases Option.map_eq_some_iff.mp hend with ⟨s, hrun, hfacts⟩
  rcases Prod.mk.inj hfacts with ⟨hqueue, harrived⟩
  refine ⟨s, starts_quiet, hrun, by decide +kernel, hqueue, harrived, ?_⟩
  rintro ⟨coming, hordered, _⟩
  rw [hqueue, harrived] at hordered
  cases hordered

end ListRequests

end CommandRelay
