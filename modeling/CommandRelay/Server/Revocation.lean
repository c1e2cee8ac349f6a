import CommandRelay.Server.Idle
import CommandRelay.Server.Registration
import CommandRelay.Server.RoleGating
import CommandRelay.Server.Routine

/-!
# Revocation on open connections

The revocation of a device takes its connections off the clients list and the replay queue
of the account.  The sockets stay open and keep their role, and so does what the account
refers to them for elsewhere.
-/

namespace CommandRelay

open Foundation

/-!
## The answer to an enrolment
-/

namespace Call

def answersEnrolment : Call -> Bool
  | broker (.takePendingDevice ..) | broker (.registerClient ..) => true
  | broker (.send _ (.text (.authResult ..))) => true
  | updateDeviceLastSeen .. | createJwt .. | revokeDevice _ | utcNow => true
  | _ => false

def isAside : Call -> Bool
  | broker (.sendToDesktop ..) => false
  | broker op => op.subject?.isNone
  | _ => true

end Call

def ControlMessage.isRequest : ControlMessage -> Bool
  | auth .. | desktopRegister .. => true
  | sessionSpawnRequest .. | sessionCloseRequest _ | ptyResize .. | sessionRenamed .. => true
  | fileUploadBegin .. | fileUploadEnd .. | fileDownloadRequest .. => true
  | sessionListRequest | supervisorQuery .. => true
  | _ => false

namespace Inbound

def isRequest (frame : Inbound) : Bool :=
  match frame with
  | .binary data =>
      match parseBinaryFrame data with
      | .ok (frameType, _) => frameType = ptyInput || frameType = ptyFileChunk
      | .error _ => false
  | frame => frame.control?.any ControlMessage.isRequest

def settlesDevice (frame : Inbound) : Bool :=
  match frame.control? with
  | some (.deviceApproved _) | some (.deviceRejected _) => true
  | _ => false

end Inbound

/-- Only an approval or a rejection takes a device off the pending list, and it answers the
enrolment and does nothing else. -/
def Call.keepsTo (frame : Inbound) (call : Call) : Bool :=
  frame.isAuth || if frame.settlesDevice then call.answersEnrolment else !call.takesPending

namespace Handler

section

variable {d : String} {role : ConnectionRole}

theorem handleDeviceApproved_answers :
    Makes Call.answersEnrolment (handleDeviceApproved d role) := by
  cases role with
  | desktop u =>
      refine makes_ask rfl fun taken => ?_
      cases taken with
      | none => exact makes_skip
      | some pending =>
          refine makes_then rfl (makes_ask rfl fun token => ?_)
          cases token with
          | error e => exact makes_skip
          | ok token => exact makes_then rfl (makes_ask rfl fun connectedAt => makes_act rfl)
  | _ => exact makes_skip

theorem handleDeviceRejected_answers :
    Makes Call.answersEnrolment (handleDeviceRejected d role) := by
  cases role with
  | desktop u =>
      refine makes_ask rfl fun taken => ?_
      cases taken with
      | none => exact makes_skip
      | some pending => exact makes_then rfl (makes_act rfl)
  | _ => exact makes_skip

theorem keepsTo_of_makes {frame : Inbound} {task : Handler Unit}
    (hframe : frame.settlesDevice = false) (h : Makes (fun call => !call.takesPending) task) :
    Makes (Call.keepsTo frame) task :=
  h.mono fun call hcall => by simp [Call.keepsTo, hframe, hcall]

theorem keepsTo_of_passive {frame : Inbound} {task : Handler Unit}
    (hframe : frame.settlesDevice = false) (h : Passive task) :
    Makes (Call.keepsTo frame) task :=
  keepsTo_of_makes hframe (h.mono fun _ hcall => (Bool.and_eq_true_iff.mp hcall).2)

theorem keepsTo_of_answers {frame : Inbound} {task : Handler Unit}
    (hframe : frame.settlesDevice = true) (h : Makes Call.answersEnrolment task) :
    Makes (Call.keepsTo frame) task :=
  h.mono fun call hcall => by simp [Call.keepsTo, hframe, hcall]

theorem makes_of_forall {p : Call -> Bool} {task : Handler Unit}
    (h : forall call, p call = true) : Makes p task :=
  Program.obeys_of_forall fun _ call => h call

theorem processWsMessage_keepsTo (env : Env) (frame : Inbound) (role : ConnectionRole)
    (c : ConnId) (ip : String) :
    Makes (Call.keepsTo frame) (processWsMessage env frame role c ip) := by
  cases frame with
  | other => exact makes_skip
  | binary data =>
      unfold processWsMessage
      by_cases hsize : maxBinaryMessageSize < data.length
      · simp only [dif_pos hsize]
        exact makes_skip
      · simp only [dif_neg hsize]
        exact keepsTo_of_passive rfl handleBinaryMessage_passive
  | text size parsed =>
      unfold processWsMessage
      by_cases hsize : maxTextMessageSize < size
      · simp only [if_pos hsize]
        exact makes_skip
      · simp only [if_neg hsize]
        cases parsed with
        | none => exact makes_skip
        | some msg =>
            have hcontrol : (Inbound.text size (some msg)).control? = some msg := if_neg hsize
            have hsettles : forall {settles}, settles = (match some msg with
                | some (.deviceApproved _) | some (.deviceRejected _) => true
                | _ => false) -> (Inbound.text size (some msg)).settlesDevice = settles := by
              rintro settles rfl
              rw [Inbound.settlesDevice, hcontrol]
            cases msg
            case auth =>
                refine makes_of_forall fun call => ?_
                simp [Call.keepsTo, Inbound.isAuth, hcontrol]
            case deviceApproved =>
                exact keepsTo_of_answers (hsettles rfl) handleDeviceApproved_answers
            case deviceRejected =>
                exact keepsTo_of_answers (hsettles rfl) handleDeviceRejected_answers
            case fileUploadBegin =>
                exact keepsTo_of_makes (hsettles rfl) handleFileUploadBegin_takes
            all_goals exact keepsTo_of_passive (hsettles rfl) (handleControlMessage_passive rfl)

/-- A client's frame that is no request leads to no operation on an account and to no message
to a desktop. -/
theorem processWsMessage_aside {env : Env} {frame : Inbound} {u d : String} {c : ConnId}
    {ip : String} (hframe : frame.isRequest = false) :
    Makes Call.isAside (processWsMessage env frame (.client u d) c ip) := by
  cases frame with
  | other => exact makes_skip
  | binary data =>
      unfold processWsMessage
      by_cases hsize : maxBinaryMessageSize < data.length
      · simp only [dif_pos hsize]
        exact makes_skip
      · simp only [dif_neg hsize, handleBinaryMessage]
        simp only [Inbound.isRequest] at hframe
        cases hparse : parseBinaryFrame data with
        | error e => exact makes_skip
        | ok parsed =>
            rcases parsed with ⟨frameType, id, payload⟩
            rw [hparse] at hframe
            rcases Bool.or_eq_false_iff.mp hframe with ⟨hinput, hchunk⟩
            simp only [if_neg (of_decide_eq_false hinput), if_neg (of_decide_eq_false hchunk)]
            exact makes_skip
  | text size parsed =>
      unfold processWsMessage
      by_cases hsize : maxTextMessageSize < size
      · simp only [if_pos hsize]
        exact makes_skip
      · simp only [if_neg hsize]
        cases parsed with
        | none => exact makes_skip
        | some msg =>
            have hcontrol : (Inbound.text size (some msg)).control? = some msg := if_neg hsize
            have hmsg : msg.isRequest = false := by
              simpa [Inbound.isRequest, hcontrol] using hframe
            cases msg
            case ping => exact makes_act rfl
            case vapidKeyRequest => exact makes_ask rfl fun key => makes_act rfl
            case pushUnsubscribe => exact makes_act rfl
            case pushSubscribe subscription =>
                show Makes Call.isAside (handlePushSubscribe env subscription (.client u d))
                unfold handlePushSubscribe
                dsimp only
                split
                · exact makes_skip
                · split
                  · exact makes_skip
                  · split
                    · split
                      · exact makes_act rfl
                      · exact makes_skip
                    · exact makes_skip
            all_goals first
              | exact makes_skip
              | cases hmsg

end

end Handler

/-!
## Revoked connections
-/

/-- The connection that an answer points the desktop's handler to for the desktop's own
message: a pending device is only answered. -/
def aimed? : CallAnswer -> Option ConnId
  | ⟨.broker (.takePendingDevice ..), _⟩ => none
  | a => target? a

def stored? : CallAnswer -> Option ControlMessage
  | ⟨.broker (.beginSupervisorQuery ..), .replay reply⟩ => some reply
  | _ => none

def Place.hearing : List Place :=
  [.clients, .uploads, .downloads, .supervisor, .queue, .target]

/-- The connections in these places, when clients and replay requests of a dropped device do
not count. -/
def AccountState.audience (dropped : Option String) (st : AccountState) : List ConnId :=
  (st.clients.filter fun e => some e.info.deviceId ≠ dropped).map ClientConnection.tx ++
    st.uploads.entries.map (fun e => e.2.owner) ++
    st.downloads.entries.map (fun e => e.2.owner) ++
    st.supervisorPending.entries.map (fun e => e.2.owner) ++
    (st.replayQueue.filter fun r => some r.deviceId ≠ dropped).map ReplayRequest.tx ++
    (st.replayTarget.map ReplayRequest.tx).toList

def BrokerCall.concerns (u : String) : BrokerCall -> Bool
  | sendToDesktop v _ => v = u
  | op => op.subject? = some u

theorem BrokerCall.not_concerns_of_aside {op : BrokerCall} {u : String}
    (h : (Call.broker op).isAside = true) : op.concerns u = false := by
  cases op <;> first | rfl | cases h

def BrokerCall.drops? : BrokerCall -> Option String
  | unregisterDevice _ deviceId => some deviceId
  | _ => none

namespace Relay

section

variable (s : Relay)

/-- The device that the next call takes off its account, or confirms to the desktop to be
revoked. -/
def revoked? : RelayLabel -> Option (String × String)
  | .resume c _ =>
      match s.upcoming c with
      | some (.broker (.unregisterDevice u d)) => some (u, d)
      | some (.broker (.send tx (.text (.deviceRevoked d)))) =>
          match s.role c with
          | .desktop u => if tx = c then some (u, d) else none
          | _ => none
      | _ => none
  | _ => none

def readmits (c : ConnId) : RelayLabel -> Bool
  | .resume c' _ =>
      match s.upcoming c' with
      | some (.broker (.send tx (.text (.authResult true ..)))) => tx = c
      | _ => false
  | _ => false

/-- The connections that a handler brings the desktop's messages to: those that the handler
of a desktop has been pointed to, and its own when it has been answered with a stored reply. -/
def aims (c : ConnId) (u : String) : List ConnId :=
  match s.activity c with
  | .handling _ role past (.invoke _ _) =>
      (if role = .desktop u then past.filterMap aimed? else []) ++
        if past.any fun a => (stored? a).isSome then [c] else []
  | _ => []

def audience (u : String) (dropped : Option String) : List ConnId :=
  (s.broker.entry u).audience dropped ++ s.log.flatMap fun e => s.aims e.conn u

/-- No handler brings the desktop's messages to the connection. -/
structure Unaimed (c : ConnId) (u : String) : Prop where
  aimed : forall {c' frame past call next a},
    s.activity c' = .handling frame (.desktop u) past (.invoke call next) -> a ∈ past ->
      aimed? a ≠ some c
  stored : forall {frame role past call next a},
    s.activity c = .handling frame role past (.invoke call next) -> a ∈ past -> stored? a = none

/-- Neither the account nor a handler brings the desktop's messages to the connection. -/
structure CutOff (c : ConnId) (u : String) : Prop where
  held : forall {place}, place ∈ Place.hearing -> ¬ s.broker.Holds u place c
  unaimed : s.Unaimed c u

end

end Relay

def RelayLabel.receives (c : ConnId) : RelayLabel -> Bool
  | .receive c' _ => c' = c
  | _ => false

/-- A relay, the devices that were revoked since a connection last authenticated, and for each
connection the device it was revoked as when a frame last arrived on it, if it has been so
ever since. -/
structure Vigil where
  relay : Relay
  barred : ConnId -> String -> String -> Bool
  late : ConnId -> Option (String × String)

namespace Vigil

def init (auth : AuthManager) (database : Database) : Vigil where
  relay := Relay.init auth database
  barred := fun _ _ _ => false
  late := fun _ => none

section

variable (v : Vigil)

/-- The connection is a client of the device, and has not authenticated since the device was
revoked. -/
def Revoked (c : ConnId) (u d : String) : Prop :=
  v.relay.role c = .client u d ∧ v.barred c u d = true

def revokedAs (c : ConnId) : Option (String × String) :=
  match v.relay.role c with
  | .client u d => if v.barred c u d then some (u, d) else none
  | _ => none

def Forgotten : Prop :=
  forall c u d, v.Revoked c u d -> v.relay.broker.alive c = true -> v.relay.CutOff c u

def readmitsRevoked (op : BrokerCall) : Bool :=
  op.inserts.any fun i => i.1 ∈ Place.hearing && v.relay.broker.alive i.2 &&
    (v.revokedAs i.2).any fun as => op.subject? = some as.1

/-- A device that is revoked leaves no connection behind that the desktop's messages can
come to. -/
def dropsDevice : RelayLabel -> Bool
  | .resume c a =>
      match v.relay.upcoming c, v.relay.revoked? (.resume c a) with
      | some (.broker op), some (u, d) =>
          (v.relay.audience u op.drops?).all fun tx =>
            !(decide (v.relay.role tx = .client u d) && v.relay.broker.alive tx)
      | _, _ => true
  | _ => true

/-- No connection that the desktop's messages can come to gets the role of a device that has
been revoked since. -/
def welcomesNone : RelayLabel -> Bool
  | .resume c _ =>
      match v.relay.upcoming c with
      | some (.setRole (.client u d)) =>
          !(v.barred c u d && v.relay.broker.alive c) ||
            !(v.relay.audience u none).contains c
      | _ => true
  | _ => true

/-- No operation refers the account to a connection that is revoked, unless it finds nothing
to do. -/
def refersToNone : RelayLabel -> Bool
  | .resume c a =>
      match v.relay.upcoming c with
      | some (.broker op) => !v.readmitsRevoked op || v.relay.broker.spares a.now op
      | _ => true
  | _ => true

/-- An operation on the account of a revoked connection, for a request that arrived on it
since, is refused or about something that the account does not have, and there is no desktop
to send to. -/
def findsNothing : RelayLabel -> Bool
  | .resume c a =>
      match v.relay.activity c, v.late c with
      | .handling frame _ _ (.invoke (.broker op) _), some (u, _) =>
          !frame.isRequest || !op.concerns u || v.relay.broker.spares a.now op
      | _, _ => true
  | _ => true

/-- Revoked connections are kept out. -/
structure KeepsOut (l : RelayLabel) : Prop where
  drops : v.dropsDevice l = true
  welcomes : v.welcomesNone l = true
  refers : v.refersToNone l = true
  spares : v.findsNothing l = true

instance (l : RelayLabel) : Decidable (v.KeepsOut l) :=
  decidable_of_iff (v.dropsDevice l = true ∧ v.welcomesNone l = true ∧
      v.refersToNone l = true ∧ v.findsNothing l = true)
    ⟨fun h => ⟨h.1, h.2.1, h.2.2.1, h.2.2.2⟩, fun h => ⟨h.drops, h.welcomes, h.refers, h.spares⟩⟩

end

def barredAfter (v : Vigil) (l : RelayLabel) (c : ConnId) (u d : String) : Bool :=
  v.relay.revoked? l = some (u, d) || v.barred c u d && !v.relay.readmits c l

def lateAfter (v v' : Vigil) (l : RelayLabel) (c : ConnId) : Option (String × String) :=
  match v'.revokedAs c with
  | none => none
  | some as => if l.receives c || v.late c = some as then some as else none

def step (env : Env) (v : Vigil) (l : RelayLabel) : Option Vigil :=
  (v.relay.step env l).map fun s' =>
    let v' : Vigil := { relay := s', barred := v.barredAfter l, late := v.late }
    { v' with late := v.lateAfter v' l }

def Runs (env : Env) (auth : AuthManager) (database : Database) (labels : List RelayLabel)
    (v : Vigil) : Prop :=
  follow (step env) (init auth database) labels = some v

/-- A step heeds the revocations before it: a frame that arrived on a revoked connection
changes nothing in the account, and is answered at most, unless it goes to the desktop of
another account; a revoked connection hears nothing
that a frame of the account's desktop leads to, but the answer to its own enrolment; and it
is not answered with a reply that the desktop gave before. -/
structure Heeds (v : Vigil) (l : RelayLabel) (s' : Relay) : Prop where
  powerless : forall {c a frame role past call next u d}, l = .resume c a ->
    v.relay.activity c = .handling frame role past (.invoke call next) ->
    v.late c = some (u, d) ->
    s'.broker.entry u = v.relay.broker.entry u ∧
      forall m, m ∈ Relay.newlyEnqueued v.relay.broker s'.broker ->
        m.1 = c ∨ exists w, w ≠ u ∧ v.relay.broker.Holds w .desktop m.1
  unheard : forall {c a frame past task u d tx msg}, l = .resume c a ->
    v.relay.activity c = .handling frame (.desktop u) past task -> frame.isAuth = false ->
    (tx, msg) ∈ Relay.newlyEnqueued v.relay.broker s'.broker -> v.Revoked tx u d ->
    exists success token deviceId error retryAfter,
      msg = .text (.authResult success token deviceId error retryAfter)
  unanswered : forall {c a frame role past task u d msg answered}, l = .resume c a ->
    v.relay.activity c = .handling frame role past task ->
    (c, .text msg) ∈ Relay.newlyEnqueued v.relay.broker s'.broker -> v.Revoked c u d ->
    answered ∈ past -> stored? answered ≠ some msg

end Vigil

/-!
## Cut off
-/

theorem AccountState.mem_audience {st : AccountState} {place : Place} {c : ConnId}
    (hplace : place ∈ Place.hearing) (h : st.Holds place c) : c ∈ st.audience none := by
  have hentry : forall {α : Type} {t : Table String α} {owner : α -> ConnId},
      (t.Has fun e => owner e = c) -> c ∈ t.entries.map fun e => owner e.2 := by
    rintro α t owner ⟨k, e, he, howner⟩
    exact List.mem_map.mpr ⟨⟨k, e⟩, AList.mem_lookup_iff.mp he, howner⟩
  unfold audience
  cases place
  case clients =>
      have hmem : c ∈ st.clientTxs := h
      simp [show st.clients.map ClientConnection.tx = st.clientTxs from rfl, hmem]
  case uploads => simp only [List.mem_append, hentry h, true_or, or_true]
  case downloads => simp only [List.mem_append, hentry h, true_or, or_true]
  case supervisor => simp only [List.mem_append, hentry h, true_or, or_true]
  case queue =>
      have hmem : c ∈ st.replayQueue.map ReplayRequest.tx := List.mem_map.mpr h
      simp [-List.mem_map, hmem]
  case target =>
      rcases h with ⟨r, hr, rfl⟩
      simp [hr]
  all_goals simp [Place.hearing] at hplace

/-- Those that are left when a device is taken off the account are the ones that count when
it is dropped. -/
theorem AccountState.audience_unregisterDevice (st : AccountState) (d : String) :
    (st.unregisterDevice d).audience none = st.audience (some d) := by
  simp [audience, unregisterDevice]

theorem Broker.unstored_of_spares {b : Broker} {now : Instant} {u id : String} {c : ConnId}
    (h : b.spares now (.beginSupervisorQuery u id c) = true) :
    stored? ⟨.broker (.beginSupervisorQuery u id c),
      (b.exec now (.beginSupervisorQuery u id c)).2⟩ = none := by
  have hnothing := findsNothing_of_spares h rfl
  show stored? ⟨.broker (.beginSupervisorQuery u id c),
    ((b.entry u).beginSupervisorQuery id c now).2⟩ = none
  simp only [AccountState.findsNothing, Bool.and_eq_true] at hnothing
  rcases AccountState.beginSupervisorQuery_idle hnothing.1 hnothing.2 with hidle | hidle <;>
    rw [hidle] <;> rfl

namespace Relay

section

variable {env : Env} {auth : AuthManager} {database : Database} {labels : List RelayLabel}
  {s s' : Relay} {l : RelayLabel} {c c' : ConnId} {u d : String}

theorem aims_in_audience {frame : Inbound} {role : ConnectionRole} {past : List CallAnswer}
    {call : Call} {next : call.Reply -> Handler Unit} {a : CallAnswer} (hs : Sound s)
    (hact : s.activity c' = .handling frame role past (.invoke call next)) (ha : a ∈ past)
    (haims : c ∈ s.aims c' u) (dropped : Option String) : c ∈ s.audience u dropped := by
  rcases hs.logged hact a ha with ⟨e, he, rfl, _⟩
  exact List.mem_append_right _ (List.mem_flatMap.mpr ⟨e, he, haims⟩)

theorem unaimed_of_audience {dropped : Option String} (hs : Sound s)
    (h : c ∉ s.audience u dropped) : s.Unaimed c u where
  aimed := by
    intro c' frame past call next a hact ha haimed
    refine h (aims_in_audience hs hact ha ?_ dropped)
    unfold aims
    rw [hact]
    simp only [if_pos]
    exact List.mem_append_left _ (List.mem_filterMap.mpr ⟨a, ha, haimed⟩)
  stored := by
    intro frame role past call next a hact ha
    by_contra hstored
    refine h (aims_in_audience hs hact ha ?_ dropped)
    have hany : (past.any fun a => (stored? a).isSome) = true :=
      List.any_eq_true.mpr ⟨a, ha, Option.isSome_iff_ne_none.mpr hstored⟩
    unfold aims
    rw [hact]
    simp only [if_pos hany]
    exact List.mem_append_right _ (List.mem_singleton.mpr rfl)

theorem cutOff_of_audience (hs : Sound s) (h : c ∉ s.audience u none) : s.CutOff c u where
  held := fun hplace hheld =>
    h (List.mem_append_left _ (AccountState.mem_audience hplace (Broker.entry_of_holds hheld)))
  unaimed := unaimed_of_audience hs h

theorem target_of_aimed {op : BrokerCall} {r : op.Reply} (h : aimed? ⟨.broker op, r⟩ = some c) :
    target? ⟨.broker op, r⟩ = some c := by
  cases op <;> first | exact h | cases h

/-- An answer aims a handler at a connection that the account refers to for messages of the
desktop. -/
theorem held_of_aimed {b : Broker} {now : Instant} {op : BrokerCall}
    (hu : op.desktopSide? = some u) (h : aimed? ⟨.broker op, (b.exec now op).2⟩ = some c) :
    exists place, place ∈ Place.hearing ∧ b.Holds u place c := by
  refine ⟨Broker.targetPlace op, ?_, Broker.held_of_target hu (target_of_aimed h)⟩
  cases op <;> first | (simp [Broker.targetPlace, Place.hearing]; done) | cases h

theorem Unaimed.step (hstep : Transition env s l s') (h : s.Unaimed c u)
    (haimed : forall {c' a frame past call next}, l = .resume c' a ->
      s.activity c' = .handling frame (.desktop u) past (.invoke call next) ->
        aimed? ⟨call, s.answer env a call⟩ ≠ some c)
    (hstored : forall {a frame role past call next}, l = .resume c a ->
      s.activity c = .handling frame role past (.invoke call next) ->
        stored? ⟨call, s.answer env a call⟩ = none) : s'.Unaimed c u where
  aimed := by
    intro c' frame past call next a hact ha
    rcases handling_step hstep hact with
      hold | ⟨_, _, _, hpast, _⟩ | ⟨ambient, asked, before, rest, hlabel, _, hbusy, hpast, _⟩
    · exact h.aimed hold ha
    · rw [hpast] at ha
      cases ha
    · rw [hpast] at ha
      rcases List.mem_cons.mp ha with rfl | hmem
      · exact haimed hlabel hbusy
      · exact h.aimed hbusy hmem
  stored := by
    intro frame role past call next a hact ha
    rcases handling_step hstep hact with
      hold | ⟨_, _, _, hpast, _⟩ | ⟨ambient, asked, before, rest, hlabel, _, hbusy, hpast, _⟩
    · exact h.stored hold ha
    · rw [hpast] at ha
      cases ha
    · rw [hpast] at ha
      rcases List.mem_cons.mp ha with rfl | hmem
      · exact hstored hlabel hbusy
      · exact h.stored hbusy hmem

def Refers (op : BrokerCall) (c : ConnId) (u : String) : Prop :=
  op.subject? = some u ∧ exists place, place ∈ Place.hearing ∧ (place, c) ∈ op.inserts

theorem unheld_step (hs : Sound s) (hstep : Transition env s l s') (h : s.CutOff c u)
    (hrefers : forall {c' a op}, l = .resume c' a -> s.upcoming c' = some (.broker op) ->
      Refers op c u -> s.broker.spares a.now op = true)
    {place : Place} (hplace : place ∈ Place.hearing) : ¬ s'.broker.Holds u place c := by
  intro hheld
  cases step_effect hs hstep with
  | none haccount hlog hclock halive =>
      exact h.held hplace ((Broker.holds_congr (haccount u) place c).mp hheld)
  | handler hclock hbusy hbroker hlog hnow =>
      rename_i c' a frame role past call next
      rw [hbroker] at hheld
      rcases broker_perform_cases env s c' a call with ⟨op, rfl⟩ | ⟨-, hsame⟩
      · rcases Broker.holds_exec hheld with hold | ⟨hu, hinsert⟩ | ⟨_, rfl, hqueue⟩
        · exact h.held hplace hold
        · have hupcoming : s.upcoming c' = some (.broker op) := by rw [upcoming, hbusy]
          have hspares := hrefers rfl hupcoming ⟨hu, place, hplace, hinsert⟩
          have hentry := Broker.entry_of_holds hheld
          rw [broker_perform, Broker.entry_exec_of_spares hspares] at hentry
          exact h.held hplace (Broker.holds_entry hentry)
        · exact h.held (by decide) hqueue
      · rw [hsame] at hheld
        exact h.held hplace hheld
  | cleanup hclock hbusy hcall hbroker hlog hnow =>
      rw [hbroker] at hheld
      rcases Broker.holds_exec hheld with hold | ⟨_, hinsert⟩ | ⟨_, rfl, hqueue⟩
      · exact h.held hplace hold
      · rw [hcall.inserts] at hinsert
        cases hinsert
      · exact h.held (by decide) hqueue

theorem refers_of_stored {frame : Inbound} {role : ConnectionRole} {past : List CallAnswer}
    {call : Call} {next : call.Reply -> Handler Unit} {r : call.Reply}
    (hrun : Runs env auth database labels s)
    (hact : s.activity c = .handling frame role past (.invoke call next))
    (hrole : (s.role c).account? = some u) (h : stored? ⟨call, r⟩ ≠ none) :
    exists id, call = .broker (.beginSupervisorQuery u id c) := by
  cases call
  case broker op =>
      have hpermitted := ((sound_of_runs hrun).behaves hact).1.permitted
      cases op
      case beginSupervisorQuery v id conn =>
          have hframe : ¬ frame.ChangesRole ∧ role.account? = some v ∧ conn = c := by
            cases hpermitted
            case privately hcall => cases hcall
            case ownUpload w hrole hcall => cases hcall
            case desktopCall w hrole hcall => cases hcall
            case query d kind session text fingerprint hrole hquery =>
                refine ⟨?_, by rw [hrole]; rfl, rfl⟩
                rintro (⟨w, _, _, _, _, _, hauth⟩ | ⟨_, _, hregister⟩)
                · rw [hquery] at hauth
                  cases hauth
                · rw [hquery] at hregister
                  cases hregister
          rcases hframe with ⟨hframe, haccount, rfl⟩
          rw [role_of_handling hrun hact hframe, haccount] at hrole
          cases hrole
          exact ⟨id, rfl⟩
      all_goals exact absurd rfl h
  all_goals exact absurd rfl h

theorem CutOff.step (hrun : Runs env auth database labels s) (hstep : Transition env s l s')
    (hrole : (s.role c).account? = some u) (h : s.CutOff c u)
    (hrefers : forall {c' a op}, l = .resume c' a -> s.upcoming c' = some (.broker op) ->
      Refers op c u -> s.broker.spares a.now op = true) : s'.CutOff c u where
  held := unheld_step (sound_of_runs hrun) hstep h hrefers
  unaimed := by
    refine h.unaimed.step hstep ?_ ?_
    · -- An operation of the desktop's own account can point only where the account refers to.
      intro c' a frame past call next _ hact haimed
      cases call
      case broker op =>
          have hpermitted := ((sound_of_runs hrun).behaves hact).1.permitted
          cases hpermitted
          case desktopCall v hrole hcall =>
              cases hrole
              rcases held_of_aimed hcall haimed with ⟨place, hplace, hheld⟩
              exact h.held hplace hheld
          case ownUpload v hrole hcall =>
              have htarget := target_of_aimed haimed
              rw [target_ownUpload hcall] at htarget
              cases htarget
          all_goals contradiction
      all_goals cases haimed
    · intro a frame role past call next hlabel hact
      by_contra hstored
      rcases refers_of_stored hrun hact hrole hstored with ⟨id, rfl⟩
      have hupcoming : s.upcoming c = some (.broker (.beginSupervisorQuery u id c)) := by
        rw [upcoming, hact]
      have hself : Refers (.beginSupervisorQuery u id c) c u :=
        ⟨rfl, .supervisor, by decide, List.mem_singleton.mpr rfl⟩
      exact hstored (Broker.unstored_of_spares (hrefers hlabel hupcoming hself))

theorem CutOff.undisturbed {c' : ConnId} {a : Ambient} {call : Call} (hs : Sound s)
    (hstep : Transition env s (.resume c' a) s') (hupcoming : s.upcoming c' = some call)
    (hcall : forall op, call ≠ .broker op) (h : s.CutOff c u) : s'.CutOff c u where
  held := by
    refine unheld_step hs hstep h ?_
    rintro c'' a' op hlabel hop _
    cases hlabel
    rw [hupcoming] at hop
    exact absurd (Option.some.inj hop) (hcall op)
  unaimed := by
    have hbusy : forall {frame role past call' next},
        s.activity c' = .handling frame role past (.invoke call' next) -> call' = call := by
      intro frame role past call' next hact
      rw [upcoming, hact] at hupcoming
      exact Option.some.inj hupcoming
    refine h.unaimed.step hstep ?_ ?_
    · rintro c'' a' frame past call' next hlabel hact haimed
      cases hlabel
      cases hbusy hact
      cases call
      case broker op => exact hcall op rfl
      all_goals cases haimed
    · rintro a' frame role past call' next hlabel hact
      cases hlabel
      cases hbusy hact
      cases call
      case broker op => exact absurd rfl (hcall op)
      all_goals rfl

theorem call_of_resume {a : Ambient} {frame : Inbound} {role : ConnectionRole}
    {past : List CallAnswer} {task : Handler Unit} (hstep : step env s (.resume c a) = some s')
    (hact : s.activity c = .handling frame role past task) :
    exists call next, task = .invoke call next ∧ s'.broker = (s.perform env c a call).broker := by
  by_cases hclock : s.clock ≤ a.now
  · simp only [step, if_pos hclock, resume, hact] at hstep
    cases task with
    | done value => cases hstep
    | invoke call next => exact ⟨call, next, rfl, by cases call <;> (cases hstep; rfl)⟩
  · simp [step, hclock] at hstep

theorem op_of_enqueued {a : Ambient} {frame : Inbound} {role : ConnectionRole}
    {past : List CallAnswer} {task : Handler Unit} {m : ConnId × WsMessage}
    (hstep : step env s (.resume c a) = some s')
    (hact : s.activity c = .handling frame role past task)
    (hmsg : m ∈ newlyEnqueued s.broker s'.broker) :
    exists op next, task = .invoke (.broker op) next ∧
      s'.broker = (s.broker.exec a.now op).1 := by
  rcases call_of_resume hstep hact with ⟨call, next, rfl, hbroker⟩
  rcases broker_perform_cases env s c a call with ⟨op, rfl⟩ | ⟨-, hsame⟩
  · exact ⟨op, next, rfl, hbroker⟩
  · rw [hbroker, hsame] at hmsg
    rw [newlyEnqueued, Nat.sub_self, List.take_zero] at hmsg
    cases hmsg

end

end Relay

/-- What an operation that finds nothing to do tells, it tells the client whose frame it is. -/
theorem Permitted.told_of_spares {c tx : ConnId} {frame : Inbound} {past : List CallAnswer}
    {op : BrokerCall} {b : Broker} {now : Instant} {msg : WsMessage} {u d : String}
    (h : Permitted c frame (.client u d) past (.broker op)) (hspares : b.spares now op = true)
    (hmsg : (tx, msg) ∈ Relay.newlyEnqueued b (b.exec now op).1) : tx = c := by
  have hreach := Broker.reaches_of_enqueued hmsg
  cases h
  case privately hcall => cases hcall
  case reply out => exact hreach
  case tokenClient v info hauth hrole =>
      have hmsg : (tx, msg) ∈ Relay.newlyEnqueued b (b.registerClient v c info).1 := hmsg
      rw [Broker.silent_registerClient hspares] at hmsg
      cases hmsg
  case registerDesktop v d' version capabilities hrole hregister => cases hspares
  case ownUpload v hrole hcall => exact absurd hreach (not_reaches_ownUpload hcall)
  case desktopCall v hrole hcall => cases hrole
  case route v tx' out hrole htarget => cases hrole
  case approve v tx' info hrole htarget => cases hrole
  all_goals first
    | exact (hreach : False).elim
    | exact absurd hmsg (Broker.silent_sendToDesktop hspares ▸ List.not_mem_nil)

/-- What an operation that does not concern the client's account tells, it tells the client, or
the desktop of another account. -/
theorem Permitted.told_elsewhere {c tx : ConnId} {frame : Inbound} {past : List CallAnswer}
    {op : BrokerCall} {b : Broker} {now : Instant} {msg : WsMessage} {u d : String}
    (h : Permitted c frame (.client u d) past (.broker op)) (hother : op.concerns u = false)
    (hmsg : (tx, msg) ∈ Relay.newlyEnqueued b (b.exec now op).1) :
    tx = c ∨ exists w, w ≠ u ∧ b.Holds w .desktop tx := by
  have hreach := Broker.reaches_of_enqueued hmsg
  cases h
  case privately hcall => cases hcall
  case reply out => exact Or.inl hreach
  case tokenClient v info hauth hrole => exact Or.inl hreach
  case announce w d' name ip hauth => exact Or.inr ⟨w, of_decide_eq_false hother, hreach⟩
  case registerDesktop v d' version capabilities hrole hregister =>
      cases hrole
      simp [BrokerCall.concerns, BrokerCall.subject?] at hother
  case ownUpload v hrole hcall => exact absurd hreach (not_reaches_ownUpload hcall)
  case desktopCall v hrole hcall => cases hrole
  case route v tx' out hrole htarget => cases hrole
  case approve v tx' info hrole htarget => cases hrole
  case forward v d' out hrole hframe hplain =>
      cases hrole
      exact absurd rfl (of_decide_eq_false hother)
  case forwardBytes v d' data hrole hframe =>
      cases hrole
      exact absurd rfl (of_decide_eq_false hother)
  case forwardEnd v d' id text hrole hframe hdone =>
      cases hrole
      exact absurd rfl (of_decide_eq_false hother)
  case forwardQuery v d' id kind session text fingerprint hrole hframe hdecided =>
      cases hrole
      exact absurd rfl (of_decide_eq_false hother)
  all_goals exact (hreach : False).elim

/-!
## Every run
-/

namespace Broker

theorem entry_exec_of_elsewhere {b : Broker} {now : Instant} {op : BrokerCall} {u : String}
    (h : op.concerns u = false) : (b.exec now op).1.entry u = b.entry u := by
  unfold entry
  rw [account_exec_other]
  intro hsubject
  unfold BrokerCall.concerns at h
  split at h
  · cases hsubject
  · simp [hsubject] at h

theorem holds_after_of_exec {b : Broker} {now : Instant} {op : BrokerCall} {u : String}
    {place : Place} {c : ConnId} (hu : op.subject?.all (fun v => v = u) = true)
    (h : (b.exec now op).1.Holds u place c) :
    ((b.entry u).after b.alive now op).Holds place c := by
  rcases h with ⟨st, hst, hholds⟩
  cases hsubject : op.subject? with
  | none =>
      have hsame : (b.entry u).after b.alive now op = b.entry u := by
        cases op <;> first | rfl | cases hsubject
      rw [account_exec_other (by rw [hsubject]; simp)] at hst
      rw [hsame]
      exact entry_of_holds ⟨st, hst, hholds⟩
  | some v =>
      have hv : v = u := by simpa [hsubject] using hu
      subst hv
      rw [(account_exec_some hsubject hst).1] at hholds
      exact hholds

end Broker

namespace Relay

section

variable {env : Env} {auth : AuthManager} {database : Database} {labels : List RelayLabel}
  {s s' : Relay} {l : RelayLabel} {c : ConnId} {u d : String}

theorem allowed_of_handling (allowed : Inbound -> ConnectionRole -> Call -> Prop)
    (hall : forall frame role c ip, Program.Obeys (fun _ call => allowed frame role call) []
      (Handler.processWsMessage env frame role c ip) fun _ _ => True)
    {frame : Inbound} {role : ConnectionRole} {past : List CallAnswer} {call : Call}
    {next : call.Reply -> Handler Unit} (hrun : Runs env auth database labels s)
    (hact : s.activity c = .handling frame role past (.invoke call next)) :
    allowed frame role call := by
  have hobeys : Program.Obeys (fun _ call => allowed frame role call) past (.invoke call next)
      fun _ _ => True :=
    @obeys_of_runs env auth database (fun _ frame role _ => allowed frame role) hall labels s hrun
      c frame role past _ hact
  exact hobeys.1

theorem keepsTo_of_handling {frame : Inbound} {role : ConnectionRole} {past : List CallAnswer}
    {call : Call} {next : call.Reply -> Handler Unit} (hrun : Runs env auth database labels s)
    (hact : s.activity c = .handling frame role past (.invoke call next)) :
    call.keepsTo frame = true :=
  allowed_of_handling (fun frame _ call => call.keepsTo frame = true)
    (fun frame role c ip => Handler.processWsMessage_keepsTo env frame role c ip) hrun hact

theorem aside_of_handling {frame : Inbound} {past : List CallAnswer} {call : Call}
    {next : call.Reply -> Handler Unit} (hrun : Runs env auth database labels s)
    (hact : s.activity c = .handling frame (.client u d) past (.invoke call next))
    (hframe : frame.isRequest = false) : call.isAside = true := by
  refine allowed_of_handling
    (fun frame role call => frame.isRequest = false -> forall u d, role = .client u d ->
      call.isAside = true) ?_ hrun hact hframe u d rfl
  intro frame role c ip
  by_cases hclient : frame.isRequest = false ∧ exists u d, role = .client u d
  · rcases hclient with ⟨hframe, u, d, rfl⟩
    exact Program.Obeys.mono (Handler.processWsMessage_aside hframe)
      fun _ _ haside _ _ _ _ => haside
  · exact Program.obeys_of_forall fun _ _ hframe u d hrole =>
      absurd ⟨hframe, u, d, hrole⟩ hclient

theorem role_of_desktop {frame : Inbound} {past : List CallAnswer} {task : Handler Unit}
    (hrun : Runs env auth database labels s)
    (hact : s.activity c = .handling frame (.desktop u) past task)
    (hframe : forall w, ¬ frame.Authenticates w) : s.role c = .desktop u := by
  rw [(sound_of_runs hrun).role hact]
  refine roleOf_eq fun a ha new hcall => ?_
  rcases permitted_of_past hrun hact ha with ⟨older, hpermitted⟩
  rw [hcall] at hpermitted
  cases hpermitted with
  | privately h => cases h
  | keyRole hauth hkey => exact hframe _ hauth
  | tokenRole hauth hdevice => exact hframe _ hauth
  | desktopRole hclient hregister hdone => cases hclient

/-- What is used of an operation that revokes a device of the account, or confirms it. -/
structure Revokes (op : BrokerCall) (u : String) : Prop where
  subject : op.subject?.all (fun v => v = u) = true
  leaves : forall alive now st,
    (AccountState.after alive now st op).audience none = st.audience op.drops?
  silent : forall r, aimed? ⟨.broker op, r⟩ = none ∧ stored? ⟨.broker op, r⟩ = none

theorem op_of_revoked (h : s.revoked? l = some (u, d)) :
    exists c' a op, l = .resume c' a ∧ s.upcoming c' = some (.broker op) ∧
      Revokes op u := by
  cases l with
  | resume c' a =>
      simp only [revoked?] at h
      split at h
      · rename_i v e hupcoming
        cases h
        exact ⟨c', a, _, rfl, hupcoming,
          { subject := by simp [BrokerCall.subject?]
            leaves := fun alive now st => st.audience_unregisterDevice d
            silent := fun r => ⟨rfl, rfl⟩ }⟩
      · rename_i tx e hupcoming
        split at h
        · split at h
          · cases h
            exact ⟨c', a, _, rfl, hupcoming,
              { subject := rfl
                leaves := fun _ _ _ => rfl
                silent := fun r => ⟨rfl, rfl⟩ }⟩
          · cases h
        · cases h
      · cases h
  | _ => cases h

theorem cutOff_of_revoked {c' : ConnId} {a : Ambient} {op : BrokerCall} (hs : Sound s)
    (hstep : step env s (.resume c' a) = some s') (hupcoming : s.upcoming c' = some (.broker op))
    (hrevokes : Revokes op u) (h : c ∉ s.audience u op.drops?) : s'.CutOff c u := by
  rcases activity_of_upcoming hupcoming with ⟨frame, role, past, next, hact⟩
  rcases call_of_resume hstep hact with ⟨call, next', htask, hbroker⟩
  cases htask
  refine
    { held := fun hplace hheld => ?_
      unaimed := (unaimed_of_audience hs h).step (step_transition hstep) ?_ ?_ }
  · rw [hbroker] at hheld
    have hafter := AccountState.mem_audience hplace
      (Broker.holds_after_of_exec hrevokes.subject hheld)
    rw [hrevokes.leaves] at hafter
    exact h (List.mem_append_left _ hafter)
  · intro c'' a' frame' past' call' next'' hlabel hbusy
    cases hlabel
    rw [hact] at hbusy
    cases hbusy
    rw [(hrevokes.silent _).1]
    nofun
  · intro a' frame' role' past' call' next'' hlabel hbusy
    cases hlabel
    rw [hact] at hbusy
    cases hbusy
    exact (hrevokes.silent _).2

end

end Relay

namespace Vigil

section

variable {env : Env} {auth : AuthManager} {database : Database} {labels : List RelayLabel}
  {v v' : Vigil} {l : RelayLabel} {c : ConnId} {u d : String}

theorem revokedAs_eq_some : v.revokedAs c = some (u, d) <-> v.Revoked c u d := by
  unfold revokedAs Revoked
  cases hrole : v.relay.role c with
  | client w e =>
      by_cases hbarred : v.barred c w e = true
      · simp only [if_pos hbarred, Option.some.injEq, Prod.mk.injEq, ConnectionRole.client.injEq]
        constructor
        · rintro ⟨rfl, rfl⟩
          exact ⟨⟨rfl, rfl⟩, hbarred⟩
        · exact And.left
      · simp only [if_neg hbarred, ConnectionRole.client.injEq]
        constructor
        · nofun
        · rintro ⟨⟨rfl, rfl⟩, h⟩
          exact absurd h hbarred
  | _ => simp

theorem relay_step (hstep : step env v l = some v') :
    Relay.step env v.relay l = some v'.relay ∧ v'.barred = v.barredAfter l ∧
      v'.late = v.lateAfter v' l := by
  rcases Option.map_eq_some_iff.mp hstep with ⟨s', hs', rfl⟩
  exact ⟨hs', rfl, rfl⟩

theorem late_step (hstep : step env v l = some v') (h : v'.late c = some (u, d)) :
    v'.Revoked c u d ∧ (l.receives c = true ∨ v.late c = some (u, d)) := by
  rw [(relay_step hstep).2.2] at h
  unfold lateAfter at h
  cases has : v'.revokedAs c with
  | none => simp [has] at h
  | some as =>
      simp only [has] at h
      split at h
      · rename_i hlate
        cases h
        exact ⟨revokedAs_eq_some.mp has, by simpa using hlate⟩
      · cases h

/-- A connection that is revoked was so before, or its device has just been revoked, or it has
just got the role of a device that was revoked since. -/
theorem revoked_step (hs : Relay.Sound v.relay) (hstep : step env v l = some v')
    (h : v'.Revoked c u d) :
    v.Revoked c u d ∨ v.relay.role c = .client u d ∧ v.relay.revoked? l = some (u, d) ∨
      v.barred c u d = true ∧ exists a, l = .resume c a ∧
        v.relay.upcoming c = some (.setRole (.client u d)) := by
  rcases relay_step hstep with ⟨hrelay, hbarred, _⟩
  have hcases : v.relay.revoked? l = some (u, d) ∨ v.barred c u d = true := by
    have h := h.2
    rw [hbarred] at h
    unfold barredAfter at h
    simp only [Bool.or_eq_true, decide_eq_true_eq, Bool.and_eq_true] at h
    exact h.imp_right And.left
  rcases Relay.role_step hs (Relay.step_transition hrelay) c with
    hsame | ⟨hnone, _⟩ | ⟨a, frame, role, past, next, hlabel, hact⟩
  · have hrole := hsame.symm.trans h.1
    rcases hcases with hrevoked | hold
    · exact Or.inr (Or.inl ⟨hrole, hrevoked⟩)
    · exact Or.inl ⟨hrole, hold⟩
  · rw [h.1] at hnone
    cases hnone
  · rw [h.1] at hact
    have hupcoming : v.relay.upcoming c = some (.setRole (.client u d)) := by
      rw [Relay.upcoming, hact]
    rcases hcases with hrevoked | hold
    · rcases Relay.op_of_revoked hrevoked with ⟨c', a', op, hlabel', hupcoming', _⟩
      rw [hlabel] at hlabel'
      cases hlabel'
      rw [hupcoming] at hupcoming'
      cases hupcoming'
    · exact Or.inr (Or.inr ⟨hold, a, hlabel, hupcoming⟩)

theorem spares_of_refers {c' : ConnId} {a : Ambient} {op : BrokerCall}
    (hkeeps : v.KeepsOut (.resume c' a)) (hupcoming : v.relay.upcoming c' = some (.broker op))
    (hrevoked : v.Revoked c u d) (halive : v.relay.broker.alive c = true)
    (h : Relay.Refers op c u) : v.relay.broker.spares a.now op = true := by
  rcases h with ⟨hu, place, hplace, hinsert⟩
  have hrefers := hkeeps.refers
  simp only [refersToNone, hupcoming] at hrefers
  refine (Bool.or_eq_true_iff.mp hrefers).resolve_left ?_
  suffices hreadmits : v.readmitsRevoked op = true by simp [hreadmits]
  refine List.any_eq_true.mpr ⟨(place, c), hinsert, ?_⟩
  simp [hplace, halive, revokedAs_eq_some.mpr hrevoked, hu]

theorem forgotten_step (hrun : Relay.Runs env auth database labels v.relay) (h : v.Forgotten)
    (hkeeps : v.KeepsOut l) (hstep : step env v l = some v') : v'.Forgotten := by
  intro c u d hrevoked halive'
  have hs := Relay.sound_of_runs hrun
  have hrelay := (relay_step hstep).1
  have htransition := Relay.step_transition hrelay
  have halive := Relay.alive_step (Relay.step_effect hs htransition) halive'
  rcases revoked_step hs hstep hrevoked with hold | ⟨hrole, hrevokes⟩ | ⟨hbarred, a, rfl, hgives⟩
  · refine (h c u d hold halive).step hrun htransition (by rw [hold.1]; rfl) ?_
    rintro c' a op rfl hupcoming hrefers
    exact spares_of_refers hkeeps hupcoming hold halive hrefers
  · have hdrops := hkeeps.drops
    rcases Relay.op_of_revoked hrevokes with ⟨c', a, op, rfl, hupcoming, hop⟩
    refine Relay.cutOff_of_revoked hs hrelay hupcoming hop fun hmem => ?_
    simp only [dropsDevice, hupcoming, hrevokes] at hdrops
    have hdropped := List.all_eq_true.mp hdrops c hmem
    simp [hrole, halive] at hdropped
  · have hwelcomes := hkeeps.welcomes
    simp only [welcomesNone, hgives] at hwelcomes
    have hout : c ∉ v.relay.audience u none := by
      simpa [hbarred, halive] using hwelcomes
    exact (Relay.cutOff_of_audience hs hout).undisturbed hs htransition hgives nofun

/-- What holds of every run that keeps revoked connections out. -/
structure Kept (v : Vigil) : Prop where
  forgotten : v.Forgotten
  late : forall {c u d frame role past task}, v.late c = some (u, d) ->
    v.relay.activity c = .handling frame role past task -> role = .client u d

theorem role_of_late {frame : Inbound} {role : ConnectionRole} {past : List CallAnswer}
    {task : Handler Unit} (hs : Relay.Sound v.relay) (h : v.Kept) (hstep : step env v l = some v')
    (hlate : v'.late c = some (u, d))
    (hact : v'.relay.activity c = .handling frame role past task) : role = .client u d := by
  have hrelay := (relay_step hstep).1
  have htransition := Relay.step_transition hrelay
  rcases late_step hstep hlate with ⟨hrevoked, hcase⟩
  rcases Relay.handling_step htransition hact with
    hold | ⟨rfl, _, hrole, _⟩ | ⟨a, call, before, next, rfl, _, hbusy, _⟩
  · rcases hcase with hreceives | hbefore
    · cases l with
      | receive c' frame' =>
          cases of_decide_eq_true hreceives
          simp [Relay.step, hold] at hrelay
      | _ => cases hreceives
    · exact h.late hbefore hold
  · rcases Relay.role_step hs htransition c with hsame | ⟨hnone, _⟩ | ⟨a, _, _, _, _, hlabel, _⟩
    · exact hrole.trans (hsame.symm.trans hrevoked.1)
    · rw [hrevoked.1] at hnone
      cases hnone
    · cases hlabel
  · rcases hcase with hreceives | hbefore
    · cases hreceives
    · exact h.late hbefore hbusy

theorem kept_of_runs (hrun : Runs env auth database labels v)
    (hok : Admits (step env) KeepsOut (init auth database) labels) :
    (exists labels, Relay.Runs env auth database labels v.relay) ∧ v.Kept := by
  refine follow_invariant (motive := fun v =>
    (exists labels, Relay.Runs env auth database labels v.relay) ∧ v.Kept) ?_ ?_ hrun hok
  · rintro v l v' ⟨⟨before, hbefore⟩, hkept⟩ hkeeps hstep
    exact ⟨⟨_, Relay.runs_snoc hbefore (relay_step hstep).1⟩,
      forgotten_step hbefore hkept.forgotten hkeeps hstep,
      role_of_late (Relay.sound_of_runs hbefore) hkept hstep⟩
  · exact ⟨⟨[], rfl⟩, fun _ _ _ h => (by cases h.1), fun h => by cases h⟩

theorem powerless_step {a : Ambient} {frame : Inbound} {role : ConnectionRole}
    {past : List CallAnswer} {call : Call} {next : call.Reply -> Handler Unit}
    (hrun : Relay.Runs env auth database labels v.relay) (hkept : v.Kept)
    (hkeeps : v.KeepsOut (.resume c a)) (hstep : step env v (.resume c a) = some v')
    (hact : v.relay.activity c = .handling frame role past (.invoke call next))
    (hlate : v.late c = some (u, d)) :
    v'.relay.broker.entry u = v.relay.broker.entry u ∧
      forall m, m ∈ Relay.newlyEnqueued v.relay.broker v'.relay.broker ->
        m.1 = c ∨ exists w, w ≠ u ∧ v.relay.broker.Holds w .desktop m.1 := by
  have hrelay := (relay_step hstep).1
  rcases Relay.call_of_resume hrelay hact with ⟨call', next', htask, hbroker⟩
  cases htask
  rcases Relay.broker_perform_cases env v.relay c a call with ⟨op, rfl⟩ | ⟨-, hsame⟩
  · have hnothing := hkeeps.spares
    simp only [findsNothing, hact, hlate] at hnothing
    have hpermitted := ((Relay.sound_of_runs hrun).behaves hact).1.permitted
    rw [hkept.late hlate hact] at hpermitted
    rw [hbroker, Relay.broker_perform]
    cases hconcerns : op.concerns u with
    | false =>
        refine ⟨Broker.entry_exec_of_elsewhere hconcerns, ?_⟩
        rintro ⟨tx, msg⟩ hmsg
        exact hpermitted.told_elsewhere hconcerns hmsg
    | true =>
        have hrequest : frame.isRequest = true := by
          by_contra hframe
          rw [hkept.late hlate hact] at hact
          have haside := Relay.aside_of_handling hrun hact (Bool.eq_false_iff.mpr hframe)
          rw [BrokerCall.not_concerns_of_aside haside] at hconcerns
          cases hconcerns
        have hspares : v.relay.broker.spares a.now op = true := by
          simpa [hconcerns, hrequest] using hnothing
        refine ⟨Broker.entry_exec_of_spares hspares u, ?_⟩
        rintro ⟨tx, msg⟩ hmsg
        exact Or.inl (hpermitted.told_of_spares hspares hmsg)
  · rw [hbroker, hsame]
    refine ⟨rfl, fun m hm => ?_⟩
    rw [Relay.newlyEnqueued, Nat.sub_self, List.take_zero] at hm
    cases hm

theorem answers_of_unaimed {frame : Inbound} {role : ConnectionRole} {past : List CallAnswer}
    {call : Call} {next : call.Reply -> Handler Unit} {answered : CallAnswer} {tx : ConnId}
    (hrun : Relay.Runs env auth database labels v.relay)
    (hact : v.relay.activity c = .handling frame role past (.invoke call next))
    (hframe : frame.isAuth = false) (hmem : answered ∈ past)
    (htarget : target? answered = some tx) (haimed : aimed? answered ≠ some tx) :
    call.answersEnrolment = true := by
  have htakes : answered.call.takesPending = true := by
    rcases answered with ⟨asked, r⟩
    cases asked
    case broker op => cases op <;> first | rfl | exact absurd htarget haimed
    all_goals exact absurd htarget haimed
  rcases Relay.past_origin hrun hact hmem with
    ⟨before, after, t, _, hbefore, _, older, rest, hasked, _⟩
  have hkeeps := Relay.keepsTo_of_handling hbefore hasked
  have hsettles : frame.settlesDevice = true := by
    by_contra hnot
    simp [Call.keepsTo, hframe, hnot, htakes] at hkeeps
  simpa [Call.keepsTo, hframe, hsettles] using Relay.keepsTo_of_handling hrun hact

/-- What a frame of the desktop leads to comes to a revoked connection only as the answer to
its enrolment. -/
theorem unheard_step {a : Ambient} {frame : Inbound} {past : List CallAnswer}
    {task : Handler Unit} {tx : ConnId} {msg : WsMessage}
    (hrun : Relay.Runs env auth database labels v.relay) (hkept : v.Kept)
    (hkeeps : v.KeepsOut (.resume c a)) (hstep : step env v (.resume c a) = some v')
    (hact : v.relay.activity c = .handling frame (.desktop u) past task)
    (hframe : frame.isAuth = false)
    (hmsg : (tx, msg) ∈ Relay.newlyEnqueued v.relay.broker v'.relay.broker)
    (hrevoked : v.Revoked tx u d) :
    exists success token deviceId error retryAfter,
      msg = .text (.authResult success token deviceId error retryAfter) := by
  rcases Relay.op_of_enqueued (relay_step hstep).1 hact hmsg with ⟨op, next, rfl, hbroker⟩
  rw [hbroker] at hmsg
  have hpermitted := ((Relay.sound_of_runs hrun).behaves hact).1.permitted
  have hreach := Broker.reaches_of_enqueued hmsg
  have halive := Broker.alive_of_enqueued hmsg
  have hcut := hkept.forgotten tx u d hrevoked halive
  have hnoAuth : forall w, ¬ frame.Authenticates w := fun w hauth => by
    rw [Inbound.isAuth_of_authenticates hauth] at hframe
    cases hframe
  rcases hpermitted.desktop_reaches hnoAuth hreach with
    rfl | hclient | hquery | ⟨answered, hmem, htarget⟩
  · -- The desktop's own connection has kept its account, and would be its client.
    have hrole := Relay.role_of_desktop hrun hact hnoAuth
    rw [hrevoked.1] at hrole
    cases hrole
  · exact absurd hclient (hcut.held (by decide))
  · exact absurd hquery (hcut.held (by decide))
  · have hanswers := answers_of_unaimed hrun hact hframe hmem htarget
      (hcut.unaimed.aimed hact hmem)
    cases op
    case send tx' out =>
        have hout : out = msg := by
          have hmsg : (tx, msg) ∈ Relay.newlyEnqueued v.relay.broker
              (v.relay.broker.send tx' out).1 := hmsg
          rw [Relay.newlyEnqueued_send] at hmsg
          split at hmsg
          · cases List.mem_singleton.mp hmsg
            rfl
          · cases hmsg
        subst hout
        cases out
        case text reply =>
            cases reply
            case authResult => exact ⟨_, _, _, _, _, rfl⟩
            all_goals cases hanswers
        all_goals cases hanswers
    case registerClient w tx' info =>
        have hrefers : Relay.Refers (.registerClient w tx' info) tx u := by
          cases hreach
          refine ⟨?_, .clients, by decide, List.mem_singleton.mpr rfl⟩
          cases hpermitted
          case privately hcall => cases hcall
          case tokenClient hauth _ => exact absurd hauth (hnoAuth w)
          case ownUpload hcall => cases hcall
          case desktopCall hcall => cases hcall
          case approve hrole _ =>
              cases hrole
              rfl
        have hupcoming : v.relay.upcoming c = some (.broker (.registerClient w tx' info)) := by
          rw [Relay.upcoming, hact]
        have hspares := spares_of_refers hkeeps hupcoming hrevoked halive hrefers
        have hmsg : (tx, msg) ∈ Relay.newlyEnqueued v.relay.broker
            (v.relay.broker.registerClient w tx' info).1 := hmsg
        rw [Broker.silent_registerClient hspares] at hmsg
        cases hmsg
    all_goals first
      | exact (hreach : False).elim
      | cases hanswers

theorem unanswered_step {a : Ambient} {frame : Inbound} {role : ConnectionRole}
    {past : List CallAnswer} {task : Handler Unit} {msg : ControlMessage} {answered : CallAnswer}
    (hkept : v.Kept) (hstep : step env v (.resume c a) = some v')
    (hact : v.relay.activity c = .handling frame role past task)
    (hmsg : (c, .text msg) ∈ Relay.newlyEnqueued v.relay.broker v'.relay.broker)
    (hrevoked : v.Revoked c u d) (hmem : answered ∈ past) : stored? answered ≠ some msg := by
  rcases Relay.op_of_enqueued (relay_step hstep).1 hact hmsg with ⟨op, next, rfl, hbroker⟩
  rw [hbroker] at hmsg
  have hcut := hkept.forgotten c u d hrevoked (Broker.alive_of_enqueued hmsg)
  rw [hcut.unaimed.stored hact hmem]
  nofun

end

def revokePhone : List RelayLabel :=
  Deployment.turn 1 (Deployment.message (.deviceRevoke Deployment.phone.text)) 4

/-- The phone pings after it was revoked, and the desktop tells its clients that a session
has closed. -/
def pingAfterRevocation : List RelayLabel :=
  Relay.deskAndPhone ++ revokePhone ++ Deployment.turn 2 (Deployment.message .ping) 1 ++
    [.receive 1 (Deployment.message (.sessionClosed "s"))]

def seen (labels : List RelayLabel) (l : RelayLabel) (look : Vigil -> Vigil -> α) : Option α :=
  (follow (step Deployment.env) (init Deployment.auth Deployment.database) labels).bind fun v =>
    (step Deployment.env v l).map (look v)

theorem step_of_seen {labels : List RelayLabel} {l : RelayLabel} {look : Vigil -> Vigil -> α}
    {r : α} (h : seen labels l look = some r) : exists v v',
    Runs Deployment.env Deployment.auth Deployment.database labels v ∧
      step Deployment.env v l = some v' ∧ look v v' = r := by
  rcases Option.bind_eq_some_iff.mp h with ⟨v, hv, hlook⟩
  rcases Option.map_eq_some_iff.mp hlook with ⟨v', hstep, hr⟩
  exact ⟨v, v', hv, hstep, hr⟩

end Vigil

end CommandRelay
