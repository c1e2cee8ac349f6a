import CommandRelay.Broker.Output
import CommandRelay.Server.BrokerView
import CommandRelay.Server.Credentials

/-!
# A returning device is listed

A connection that becomes a client by a device token is registered by the same
handler, in a later call.  The registration may be refused, and an entry may be
removed under another device's name; otherwise the connection stays listed, and as
long as its writer runs the broadcasts of the desktop reach it.
-/

namespace CommandRelay

open Foundation

/-!
## A role is owed a registration
-/

def Call.givesClient : Call -> Bool
  | .setRole (.client _ d) => !decide (d = "desktop")
  | _ => false

def givesRole (u d : String) : CallAnswer -> Bool
  | ⟨.setRole (.client v e), _⟩ => v = u ∧ e = d
  | _ => false

def answersRegistration (u : String) (c : ConnId) : CallAnswer -> Bool
  | ⟨.broker (.registerClient v tx _), _⟩ => v = u ∧ tx = c
  | _ => false

def Owing (c : ConnId) (u d : String) (past : List CallAnswer) : Prop :=
  Standing (givesRole u d) (answersRegistration u c) past

def Discharges (c : ConnId) (past : List CallAnswer) (task : Handler Unit) : Prop :=
  Program.Obeys (fun _ _ => True) past task fun past _ =>
    forall u d, d ≠ "desktop" -> ¬ Owing c u d past

namespace Handler

def Free (task : Handler Unit) : Prop :=
  Program.Obeys (fun _ call => call.givesClient = false) [] task fun _ _ => True

section

variable {c : ConnId} {past : List CallAnswer} {call : Call} {task : Handler Unit}

theorem not_owing_cons {a : CallAnswer} (hcall : a.call.givesClient = false)
    (h : forall u d, d ≠ "desktop" -> ¬ Owing c u d past) (u d : String) (hd : d ≠ "desktop") :
    ¬ Owing c u d (a :: past) := by
  intro howing
  rcases a with ⟨call, r⟩
  rcases standing_cons.mp howing with hgives | ⟨_, hold⟩
  · cases call
    case setRole new =>
        cases new
        case client v e =>
            have hve : v = u ∧ e = d := of_decide_eq_true hgives
            have he : e = "desktop" := by simpa [Call.givesClient] using hcall
            exact hd (hve.2.symm.trans he)
        all_goals cases hgives
    all_goals cases hgives
  · exact h u d hd hold

theorem discharges_ask {next : call.Reply -> Handler Unit}
    (hnext : forall r, Discharges c (⟨call, r⟩ :: past) (next r)) :
    Discharges c past (ask call >>= next) :=
  ⟨trivial, hnext⟩

theorem discharges_of_free
    (hfree : Free task) (h : forall u d, d ≠ "desktop" -> ¬ Owing c u d past) :
    Discharges c past task := by
  unfold Free at hfree
  generalize ([] : List CallAnswer) = seen at hfree
  induction task generalizing past seen with
  | done value => exact h
  | invoke call next ih =>
      exact ⟨trivial, fun r => ih r (not_owing_cons hfree.1 h) _ (hfree.2 r)⟩

theorem free_act (h : call.givesClient = false) : Free (act call) :=
  ⟨h, fun _ => trivial⟩

theorem free_then (h : call.givesClient = false) (htask : Free task) :
    Free (act call >>= fun _ => task) :=
  ⟨h, fun _ => obeys_past htask⟩

theorem free_ask {next : call.Reply -> Handler Unit} (h : call.givesClient = false)
    (hnext : forall r, Free (next r)) : Free (ask call >>= next) :=
  ⟨h, fun r => obeys_past (hnext r)⟩

theorem free_of_behaves {frame : Inbound} {role : ConnectionRole}
    (h : Behaves c frame role past task) (hframe : forall u, ¬ frame.Authenticates u) :
    Free task := by
  induction task generalizing past with
  | done value => trivial
  | invoke call next ih =>
      refine ⟨?_, fun r => obeys_past (ih r (h.2 r))⟩
      cases h.1.permitted
      case privately hcall => cases call <;> first | rfl | cases hcall
      case keyRole u key hauth hkey => exact absurd hauth (hframe u)
      case tokenRole u d hauth hdevice => exact absurd hauth (hframe u)
      all_goals rfl

end

section

variable {past : List CallAnswer} {u ip : String} {c : ConnId}

theorem free_enrolDevice : Free (enrolDevice u c ip) := by
  refine free_then rfl (free_ask rfl fun online => ?_)
  cases online with
  | false => exact free_act rfl
  | true =>
      refine free_ask rfl fun registered => ?_
      cases registered with
      | error e => exact free_act rfl
      | ok deviceId => exact free_then rfl (free_act rfl)

theorem free_authTotp (totp : Option String) : Free (authTotp u totp c ip) := by
  refine free_ask rfl fun r => ?_
  cases r with
  | error e => exact free_enrolDevice
  | ok needed =>
      cases needed with
      | false => exact free_enrolDevice
      | true =>
          cases totp with
          | none => exact free_act rfl
          | some code =>
              refine free_ask rfl fun r => ?_
              cases r with
              | error e => exact free_then rfl (free_act rfl)
              | ok _ => exact free_enrolDevice

theorem free_authPassword (passwordHash totp : Option String) :
    Free (authPassword u passwordHash totp c ip) := by
  cases passwordHash with
  | none => exact free_act rfl
  | some hash =>
      refine free_ask rfl fun r => ?_
      cases r with
      | error e => exact free_then rfl (free_act rfl)
      | ok _ => exact free_authTotp totp

theorem free_authDesktopKey (key : String) : Free (authDesktopKey u key c) := by
  have hfail : Free (act (.recordFailure u) >>= fun _ => sendAuthError c "invalid_credentials") :=
    free_then rfl (free_act rfl)
  refine free_ask rfl fun r => ?_
  cases r with
  | error e => exact hfail
  | ok valid =>
      cases valid with
      | false => exact hfail
      | true => exact free_then rfl (free_then rfl (free_act (by simp [Call.givesClient])))

theorem discharges_welcomeDevice {d : String}
    (h : forall v e, e ≠ "desktop" -> ¬ Owing c v e past) :
    Discharges c past (welcomeDevice u d c ip) := by
  refine ⟨trivial, fun r => ⟨trivial, fun r' => ⟨trivial, fun token => ?_⟩⟩⟩
  have hissued := not_owing_cons (a := ⟨.createJwt u d, token⟩) rfl
    (not_owing_cons (a := ⟨.updateDeviceLastSeen d ip, r'⟩) rfl
      (not_owing_cons (a := ⟨.clearRateLimit u, r⟩) rfl h))
  cases token with
  | error e => exact ⟨trivial, fun r => not_owing_cons (a := ⟨.panic, r⟩) rfl hissued⟩
  | ok fresh =>
      refine ⟨trivial, fun sent => ⟨trivial, fun given => ⟨trivial, fun at_ =>
        ⟨trivial, fun registered => ?_⟩⟩⟩⟩
      intro v e he howing
      rcases standing_cons.mp howing with hgives | ⟨hkept, hstands⟩
      · cases hgives
      · have hother : u ≠ v := by
          intro heq
          simp [answersRegistration, heq] at hkept
        rcases standing_cons.mp hstands with hgives | ⟨_, hstands⟩
        · cases hgives
        · rcases standing_cons.mp hstands with hgives | ⟨_, hstands⟩
          · have hsame : u = v ∧ d = e := of_decide_eq_true hgives
            exact hother hsame.1
          · exact not_owing_cons (a := ⟨.broker (.send c _), sent⟩) rfl hissued v e he hstands

theorem discharges_authDeviceToken (token : String) (passwordHash totp : Option String)
    (h : forall v e, e ≠ "desktop" -> ¬ Owing c v e past) :
    Discharges c past (authDeviceToken u token passwordHash totp c ip) := by
  have hpassword : Free (authPassword u passwordHash totp c ip) :=
    free_authPassword passwordHash totp
  refine discharges_ask fun r => ?_
  have hvalidated := not_owing_cons (a := ⟨.validateJwt token, r⟩) rfl h
  cases r with
  | error e => exact discharges_of_free hpassword hvalidated
  | ok claims =>
      by_cases hsub : claims.sub = u
      · simp only [if_pos hsub]
        refine discharges_ask fun registered => ?_
        have hlooked := not_owing_cons
          (a := ⟨.isDeviceRegistered claims.deviceId u, registered⟩) rfl hvalidated
        cases registered with
        | false => exact discharges_of_free hpassword hlooked
        | true => exact discharges_welcomeDevice hlooked
      · simp only [if_neg hsub]
        exact discharges_of_free hpassword hvalidated

theorem discharges_handleAuth (passwordHash totp deviceToken desktopKey : Option String) :
    Discharges c [] (handleAuth u passwordHash totp deviceToken desktopKey c ip) := by
  refine discharges_ask fun r => ?_
  have hnothing : forall v e, e ≠ "desktop" -> ¬ Owing c v e [] := fun _ _ _ => not_standing_nil
  have hchecked := not_owing_cons (a := ⟨.checkRateLimit u, r⟩) rfl hnothing
  cases r with
  | some retryAfter => exact discharges_of_free (free_act rfl) hchecked
  | none =>
      cases desktopKey with
      | some key => exact discharges_of_free (free_authDesktopKey key) hchecked
      | none =>
          cases deviceToken with
          | some token => exact discharges_authDeviceToken token passwordHash totp hchecked
          | none => exact discharges_of_free (free_authPassword passwordHash totp) hchecked

end

theorem processWsMessage_discharges (env : Env) (frame : Inbound) (role : ConnectionRole)
    (c : ConnId) (ip : String) : Discharges c [] (processWsMessage env frame role c ip) := by
  by_cases hauth : exists u, frame.Authenticates u
  · rcases hauth with ⟨u, version, passwordHash, totp, deviceToken, desktopKey, hframe⟩
    cases frame with
    | text size parsed =>
        by_cases hsize : maxTextMessageSize < size
        · simp [Inbound.control?, hsize] at hframe
        · have hparsed :
            parsed = some (.auth version u passwordHash totp deviceToken desktopKey) := by
            simpa [Inbound.control?, hsize] using hframe
          unfold processWsMessage
          simp only [if_neg hsize, hparsed, handleControlMessage]
          split
          · exact discharges_handleAuth passwordHash totp deviceToken desktopKey
          · exact discharges_of_free (free_act rfl) fun _ _ _ => not_standing_nil
    | binary data => cases hframe
    | other => cases hframe
  · exact discharges_of_free
      (free_of_behaves (processWsMessage_behaves env frame role c ip) fun u hu => hauth ⟨u, hu⟩)
      fun _ _ _ => not_standing_nil

end Handler

namespace AccountState

variable {client : ClientConnection} {clients : List ClientConnection} {c : ConnId}

theorem mem_joined_of_mem (h : c ∈ clients.map ClientConnection.tx) :
    c ∈ (joined client clients).map ClientConnection.tx := by
  unfold joined
  by_cases hmem : client.tx ∈ clients.map ClientConnection.tx
  · rw [if_pos hmem, map_tx_replaceClient]
    exact h
  · by_cases hfull : maxClients ≤ clients.length
    · rw [if_neg hmem, if_pos hfull]
      exact h
    · rw [if_neg hmem, if_neg hfull, List.map_append]
      exact List.mem_append_left _ h

theorem mem_joined_self
    (h : client.tx ∈ clients.map ClientConnection.tx ∨ clients.length < maxClients) :
    client.tx ∈ (joined client clients).map ClientConnection.tx := by
  by_cases hmem : client.tx ∈ clients.map ClientConnection.tx
  · exact mem_joined_of_mem hmem
  · have hroom : ¬ maxClients ≤ clients.length := Nat.not_le.mpr (h.resolve_left hmem)
    rw [joined, if_neg hmem, if_neg hroom, List.map_append]
    exact List.mem_append_right _ (by simp)

end AccountState

namespace Broker

def listed (b : Broker) (u : String) : List ConnId :=
  (b.clients u).map ClientConnection.tx

def ListedAs (b : Broker) (u : String) (c : ConnId) (d : String) : Prop :=
  exists e, e ∈ b.clients u ∧ e.tx = c ∧ e.info.deviceId = d

/-- A listed connection stays listed, unless it is unregistered or the device of its
entry is. -/
theorem listed_exec {b : Broker} {now : Instant} {op : BrokerCall} {u : String} {c : ConnId}
    (h : c ∈ b.listed u) (hconn : forall d, op ≠ .unregisterClient u d c)
    (hdevice : forall d, op = .unregisterDevice u d -> ¬ b.ListedAs u c d) :
    c ∈ (b.exec now op).1.listed u := by
  rcases List.mem_map.mp h with ⟨e, he, hc⟩
  by_cases hu : op.subject? = some u
  · unfold listed
    rw [clients_exec hu]
    cases op
    case registerClient v tx info => exact AccountState.mem_joined_of_mem h
    case unregisterClient v d conn =>
        cases hu
        refine List.mem_map.mpr ⟨e, List.mem_filter.mpr ⟨he, ?_⟩, hc⟩
        have hne : e.tx ≠ conn := fun heq => hconn d (by rw [← hc, heq])
        simpa using hne
    case unregisterDevice v d =>
        cases hu
        refine List.mem_map.mpr ⟨e, List.mem_filter.mpr ⟨he, ?_⟩, hc⟩
        have hne : e.info.deviceId ≠ d := fun heq => hdevice d rfl ⟨e, he, hc, heq⟩
        simpa using hne
    all_goals exact h
  · unfold listed
    rw [clients_exec_other hu]
    exact h

theorem listed_registerClient {b : Broker} {now : Instant} {u : String} {c : ConnId}
    {info : ClientInfo} (h : c ∈ b.listed u ∨ (b.clients u).length < maxClients) :
    c ∈ (b.exec now (.registerClient u c info)).1.listed u := by
  unfold listed
  rw [clients_exec rfl]
  exact AccountState.mem_joined_self h

/-- A broadcast of the account reaches the connection: it is enqueued to it once, or it is
live output and the connection is paused afterwards. -/
def Reaches (b : Broker) (u : String) (c : ConnId) : Prop :=
  forall msg : WsMessage,
    ((b.broadcastToClients u msg).line c).received = msg :: (b.line c).received ∨
      msg.isPtyOutput = true ∧ ((b.broadcastToClients u msg).line c).channel.dirty = true

theorem received_sendAll {b : Broker} {txs : List ConnId} {c : ConnId} (hnodup : txs.Nodup)
    (hmem : c ∈ txs) (halive : b.alive c = true) (msg : WsMessage) :
    ((b.sendAll txs msg).line c).received = msg :: (b.line c).received := by
  unfold line
  rw [delivered_sendAll, List.filter_append, List.map_append, filter_delivered hnodup,
    if_pos ⟨hmem, halive⟩]
  rfl

theorem received_output {line : Line} (halive : line.channel.receiverAlive = true)
    (msg : WsMessage) :
    (line.output msg).received = msg :: line.received ∨
      (line.output msg).channel.dirty = true := by
  unfold Line.output
  by_cases hdirty : line.channel.dirty = true
  · rw [if_pos hdirty]
    exact .inr hdirty
  · rw [if_neg hdirty]
    by_cases hover : line.channel.overBudget msg = true
    · rw [if_pos hover]
      exact .inr rfl
    · rw [if_neg hover, Line.send, if_pos halive]
      exact .inl rfl

theorem reaches_of_listed {b : Broker} {u : String} {c : ConnId}
    (hnodup : (b.listed u).Nodup) (hlisted : c ∈ b.listed u) (halive : b.alive c = true) :
    b.Reaches u c := by
  intro msg
  unfold listed at hnodup hlisted
  by_cases hpty : msg.isPtyOutput = true
  · rw [line_broadcastToClients b c hnodup hpty, if_pos hlisted]
    exact (received_output halive msg).imp_right fun hdirty => ⟨hpty, hdirty⟩
  · left
    unfold clients entry at hnodup hlisted
    unfold broadcastToClients
    cases hst : b.account u with
    | none =>
        rw [hst] at hlisted
        cases hlisted
    | some st =>
        rw [hst] at hnodup hlisted
        simp only [if_neg hpty]
        exact received_sendAll hnodup hlisted halive msg

theorem alive_drain {b : Broker} {c : ConnId} (halive : b.alive c = true)
    (hclose : (b.channels c).queue.head?.any WsMessage.isClose = false) :
    (b.drain c).alive c = true := by
  unfold drain Channel.drain
  rw [alive_setChannel, if_pos rfl]
  cases hqueue : (b.channels c).queue with
  | nil => exact halive
  | cons msg rest =>
      rw [hqueue] at hclose
      cases msg with
      | close => cases hclose
      | text m => exact halive
      | binary data => exact halive

end Broker

namespace Relay

def isOpen (s : Relay) (c : ConnId) : Bool :=
  match s.activity c with
  | .idle | .handling .. => true
  | _ => false

def isSettled (s : Relay) (c : ConnId) : Bool :=
  match s.activity c with
  | .idle => true
  | .handling frame _ _ _ => !frame.isAuth
  | _ => false

def isOtherDevice (s : Relay) (u d : String) (c : ConnId) : Bool :=
  s.isOpen c &&
    match s.role c with
    | .client v e => v = u && e ≠ d && e ≠ "desktop"
    | _ => false

def isPhone (s : Relay) (c : ConnId) : Bool :=
  s.isOpen c &&
    match s.role c with
    | .client _ d => d ≠ "desktop"
    | _ => false

/-- A returning device finds its connection listed, or room; the revocation of a device
removes the connections of no other; and a connection has a writer when it becomes the
client of a device, and as long as it is one. -/
def keepsListed (s : Relay) : RelayLabel -> Bool
  | .resume c _ =>
      match s.activity c with
      | .handling _ _ _ (.invoke (.setRole (.client _ d)) _) =>
          d = "desktop" || s.broker.alive c
      | .handling frame _ _ (.invoke (.broker (.registerClient u tx _)) _) =>
          !frame.isAuth || tx ∈ s.broker.listed u || (s.broker.clients u).length < maxClients
      | .handling _ _ _ (.invoke (.broker (.unregisterDevice u d)) _) =>
          (s.broker.clients u).all fun e =>
            e.info.deviceId ≠ d || !s.isOtherDevice u d e.tx
      | _ => true
  | .stopWriter c => !s.isPhone c
  | .drain c => !s.isPhone c || !(s.broker.channels c).queue.head?.any WsMessage.isClose
  | _ => true

def KeepsListed (s : Relay) (l : RelayLabel) : Prop :=
  s.keepsListed l = true

instance (s : Relay) (l : RelayLabel) : Decidable (s.KeepsListed l) :=
  inferInstanceAs (Decidable (_ = true))

def welcomes (c : ConnId) (u d : String) (e : RelayEvent) : Bool :=
  e.conn = c && givesRole u d e.answered

def revokes (u d : String) (e : RelayEvent) : Bool :=
  match e.answered.call with
  | .broker (.unregisterDevice v d') => v = u && d' = d
  | _ => false

/-- The connection became a client of the device, which has not been revoked since. -/
def Unrevoked (s : Relay) (c : ConnId) (u d : String) : Prop :=
  Standing (welcomes c u d) (revokes u d) s.log

/-- An open connection with the role of a device's client is listed, or its handler
owes the registration. -/
structure Seats (s : Relay) : Prop where
  discharges : forall {c frame role past task}, s.activity c = .handling frame role past task ->
    Discharges c past task
  gave : forall {c frame role past task u d}, s.activity c = .handling frame role past task ->
    Owing c u d past -> frame.isAuth = true
  listed : forall {c u d}, s.role c = .client u d -> d ≠ "desktop" -> s.isOpen c = true ->
    s.Unrevoked c u d -> c ∈ s.broker.listed u ∨ Owing c u d (s.pastOf c)

theorem seats_init (auth : AuthManager) (database : Database) : Seats (init auth database) where
  discharges := fun hact => by cases hact
  gave := fun hact => by cases hact
  listed := fun hrole => by cases hrole

section

variable {env : Env} {s s' : Relay} {c c' : ConnId} {u d : String}

theorem listed_congr (haccount : forall v, s'.account v = s.account v) (u : String) :
    s'.broker.listed u = s.broker.listed u :=
  congrArg _ (Broker.clients_congr (haccount u))

theorem Seats.keep (h : s.Seats) (hrole : s'.role c = s.role c)
    (hpast : s'.pastOf c = s.pastOf c)
    (hlisted : s.role c = .client u d -> c ∈ s.broker.listed u -> c ∈ s'.broker.listed u)
    (hclient : s'.role c = .client u d) (hd : d ≠ "desktop") (hopen : s.isOpen c = true)
    (hunrevoked : s.Unrevoked c u d) :
    c ∈ s'.broker.listed u ∨ Owing c u d (s'.pastOf c) := by
  rw [hrole] at hclient
  rcases h.listed hclient hd hopen hunrevoked with hin | howing
  · exact Or.inl (hlisted hclient hin)
  · rw [hpast]
    exact Or.inr howing

theorem not_permitted_unregisterClient {frame : Inbound} {role : ConnectionRole}
    {past : List CallAnswer}
    (h : Permitted c' frame role past (.broker (.unregisterClient u d c))) :
    False := by
  cases h
  case privately hcall => cases hcall
  case ownUpload v hrole hcall => cases hcall
  case desktopCall v hrole hcall => cases hcall

theorem listed_perform {a : Ambient} {frame : Inbound} {role : ConnectionRole}
    {past : List CallAnswer} {call : Call} {next : call.Reply -> Handler Unit}
    (hbusy : s.activity c' = .handling frame role past (.invoke call next))
    (hpermitted : Permitted c' frame role past call) (hkeeps : s.KeepsListed (.resume c' a))
    (hclient : s.role c = .client u d) (hd : d ≠ "desktop") (hopen : s.isOpen c = true)
    (hrevokes : call ≠ .broker (.unregisterDevice u d)) (hin : c ∈ s.broker.listed u) :
    c ∈ (s.perform env c' a call).broker.listed u := by
  rcases broker_perform_cases env s c' a call with ⟨op, rfl⟩ | ⟨hother, hsame⟩
  · refine Broker.listed_exec hin ?_ ?_
    · intro d' hd'
      rw [hd'] at hpermitted
      exact not_permitted_unregisterClient hpermitted
    · rintro d' rfl ⟨e, he, hc, hdevice⟩
      have hall := hkeeps
      simp only [KeepsListed, keepsListed, hbusy] at hall
      have hother : d ≠ d' := fun heq => hrevokes (by rw [heq])
      have hstranger : s.isOtherDevice u d' e.tx = true := by
        simp [isOtherDevice, hc, hopen, hclient, hother, hd]
      have he := List.all_eq_true.mp hall e he
      simp [hdevice, hstranger] at he
  · rw [hsame]
    exact hin

theorem seat_resume {a : Ambient} {frame : Inbound} {role : ConnectionRole}
    {past : List CallAnswer} {call : Call} {next : call.Reply -> Handler Unit}
    (h : s.Seats)
    (hbusy : s.activity c = .handling frame role past (.invoke call next))
    (hpermitted : Permitted c frame role past call)
    (hauth : Owing c u d past -> frame.isAuth = true) (hkeeps : s.KeepsListed (.resume c a))
    (hclient : roleAfter (s.role c) call = .client u d) (hd : d ≠ "desktop")
    (hunrevoked : (s.perform env c a call).Unrevoked c u d) :
    c ∈ (s.perform env c a call).broker.listed u ∨
      Owing c u d (⟨call, s.answer env a call⟩ :: past) := by
  by_cases hgives : givesRole u d ⟨call, s.answer env a call⟩ = true
  · exact Or.inr (standing_cons.mpr (Or.inl hgives))
  · have hsame : s.role c = .client u d := by
      cases call
      case setRole new =>
          have hnew : new = .client u d := hclient
          subst hnew
          simp [givesRole] at hgives
      all_goals exact hclient
    have hopen : s.isOpen c = true := by rw [isOpen, hbusy]
    have hpast : s.pastOf c = past := pastOf_handling hbusy
    rcases standing_cons.mp hunrevoked with hnew | ⟨hkept, hold⟩
    · simp [welcomes, hgives] at hnew
    · rcases h.listed hsame hd hopen hold with hin | howing
      · left
        refine listed_perform hbusy hpermitted hkeeps hsame hd hopen ?_ hin
        intro hcall
        subst hcall
        simp [revokes] at hkept
      · rw [hpast] at howing
        by_cases hregisters : answersRegistration u c ⟨call, s.answer env a call⟩ = true
        · left
          have hframe := hauth howing
          cases call
          case broker op =>
              cases op
              case registerClient v tx info =>
                  have hown : v = u ∧ tx = c := of_decide_eq_true hregisters
                  rcases hown with ⟨rfl, rfl⟩
                  have hroom := hkeeps
                  simp only [KeepsListed, keepsListed, hbusy, hframe] at hroom
                  have hfits : tx ∈ s.broker.listed v ∨
                      (s.broker.clients v).length < maxClients := by simpa using hroom
                  exact Broker.listed_registerClient hfits
              all_goals cases hregisters
          all_goals cases hregisters
        · exact Or.inr (standing_cons.mpr (Or.inr ⟨Bool.eq_false_iff.mpr hregisters, howing⟩))

theorem isOpen_handling {frame : Inbound} {role : ConnectionRole} {past : List CallAnswer}
    {task : Handler Unit} (h : s.activity c = .handling frame role past task) :
    s.isOpen c = true := by
  rw [isOpen, h]

theorem isOpen_setActivity_ne {act : Activity} (hne : c ≠ c') :
    (s.setActivity c' act).isOpen c = s.isOpen c := by
  rw [isOpen, activity_setActivity_ne s act hne, isOpen]

theorem isOpen_perform {a : Ambient} {call : Call} :
    (s.perform env c' a call).isOpen c = s.isOpen c := by
  rw [isOpen, activity_perform, isOpen]

theorem unrevoked_perform_other {a : Ambient} {call : Call} (hne : c ≠ c')
    (h : (s.perform env c' a call).Unrevoked c u d) :
    s.Unrevoked c u d ∧ call ≠ .broker (.unregisterDevice u d) := by
  rcases standing_cons.mp h with hnew | ⟨hkept, hold⟩
  · simp [welcomes, Ne.symm hne] at hnew
  · refine ⟨hold, ?_⟩
    intro hcall
    subst hcall
    simp [revokes] at hkept

/-- A connection that is open after a step was open before it, or has just been opened. -/
theorem isOpen_step {l : RelayLabel} (hstep : Transition env s l s')
    (hopen : s'.isOpen c = true) : s.isOpen c = true ∨ s'.role c = .unauthenticated := by
  cases hstep with
  | connect hvacant hsockets haccount hlog hclock halive =>
      rename_i c' ip
      by_cases hc : c = c'
      · subst hc
        exact .inr (by simp [role, hsockets])
      · exact .inl (by simpa [isOpen, activity, hsockets, hc] using hopen)
  | receive hidle =>
      rename_i c' frame
      by_cases hc : c = c'
      · subst hc
        exact .inl (by rw [isOpen, hidle])
      · exact .inl ((isOpen_setActivity_ne hc).symm.trans hopen)
  | resume hclock hbusy =>
      rename_i c' a frame receivedAs past call next
      by_cases hc : c = c'
      · subst hc
        exact .inl (isOpen_handling hbusy)
      · rw [isOpen_setActivity_ne hc, isOpen_perform] at hopen
        exact .inl hopen
  | returned hbusy =>
      rename_i c' frame receivedAs past
      by_cases hc : c = c'
      · subst hc
        exact .inl (isOpen_handling hbusy)
      · exact .inl ((isOpen_setActivity_ne hc).symm.trans hopen)
  | panic hclock hbusy =>
      rename_i c' a frame receivedAs past next
      by_cases hc : c = c'
      · subst hc
        simp [isOpen] at hopen
      · rw [isOpen_setActivity_ne hc, isOpen_perform] at hopen
        exact .inl hopen
  | clean hclock hbusy =>
      rename_i c' a call next
      by_cases hc : c = c'
      · subst hc
        simp [isOpen] at hopen
      · rw [isOpen_setActivity_ne hc, isOpen_perform] at hopen
        exact .inl hopen
  | hangUp hidle =>
      rename_i c'
      by_cases hc : c = c'
      · subst hc
        simp [isOpen] at hopen
      · exact .inl ((isOpen_setActivity_ne hc).symm.trans hopen)
  | closed hbusy =>
      rename_i c'
      by_cases hc : c = c'
      · subst hc
        simp [isOpen] at hopen
      · exact .inl ((isOpen_setActivity_ne hc).symm.trans hopen)
  | background hquiet =>
      rw [isOpen, activity, hquiet.sockets] at hopen
      exact .inl hopen

theorem seats_listed_step (hs : Sound s) (h : s.Seats) {l : RelayLabel}
    (hkeeps : s.KeepsListed l) (hstep : Transition env s l s')
    (hclient : s'.role c = .client u d) (hd : d ≠ "desktop") (hopen : s'.isOpen c = true)
    (hunrevoked : s'.Unrevoked c u d) :
    c ∈ s'.broker.listed u ∨ Owing c u d (s'.pastOf c) := by
  have hwas : s.isOpen c = true := by
    rcases isOpen_step hstep hopen with hwas | hnew
    · exact hwas
    · rw [hnew] at hclient
      cases hclient
  cases hstep with
  | connect hvacant hsockets haccount hlog hclock halive =>
      rename_i c' ip
      have hold : s.Unrevoked c u d := by simpa only [Unrevoked, hlog] using hunrevoked
      by_cases hc : c = c'
      · subst hc
        simp [role, hsockets] at hclient
      · refine h.keep (by simp [role, hsockets, hc]) (by simp [pastOf, activity, hsockets, hc])
          (fun _ hin => ?_) hclient hd hwas hold
        rw [listed_congr haccount]
        exact hin
  | receive hidle =>
      rename_i c' frame
      refine h.keep (role_setActivity _ _ _ _) ?_ (fun _ hin => hin) hclient hd hwas hunrevoked
      by_cases hc : c = c'
      · subst hc
        rw [pastOf_idle (s := s) (by simp [hidle])]
        simp [pastOf]
      · exact pastOf_setActivity_ne hc
  | resume hclock hbusy =>
      rename_i c' a frame receivedAs past call next
      have hpermitted := (hs.behaves hbusy).1.permitted
      by_cases hc : c = c'
      · subst hc
        have hseat := @seat_resume env _ _ _ _ _ _ _ _ _ _ h hbusy hpermitted
          (fun howing => h.gave hbusy howing)
          hkeeps (by simpa [role_perform] using hclient) hd hunrevoked
        rw [pastOf, activity_setActivity_same]
        exact hseat
      · rcases unrevoked_perform_other hc hunrevoked with ⟨hold, hrevokes⟩
        refine h.keep ?_ ((pastOf_setActivity_ne hc).trans pastOf_perform) ?_ hclient hd hwas hold
        · rw [role_setActivity, role_perform_ne env s c' a call hc]
        · intro hsame hin
          exact listed_perform hbusy hpermitted hkeeps hsame hd hwas hrevokes hin
  | panic hclock hbusy =>
      rename_i c' a frame receivedAs past next
      by_cases hc : c = c'
      · subst hc
        simp [isOpen] at hopen
      · rcases unrevoked_perform_other hc hunrevoked with ⟨hold, hrevokes⟩
        refine h.keep ?_ ((pastOf_setActivity_ne hc).trans pastOf_perform) (fun _ hin => hin)
          hclient hd hwas hold
        rw [role_setActivity, role_perform_ne env s c' a _ hc]
  | returned hbusy =>
      rename_i c' frame receivedAs past
      by_cases hc : c = c'
      · subst hc
        rw [role_setActivity] at hclient
        rcases h.listed hclient hd hwas hunrevoked with hin | howing
        · exact Or.inl hin
        · rw [pastOf_handling hbusy] at howing
          exact absurd howing (h.discharges hbusy u d hd)
      · exact h.keep (role_setActivity _ _ _ _) (pastOf_setActivity_ne hc) (fun _ hin => hin)
          hclient hd hwas hunrevoked
  | hangUp hidle =>
      rename_i c'
      by_cases hc : c = c'
      · subst hc
        simp [isOpen] at hopen
      · exact h.keep (role_setActivity _ _ _ _) (pastOf_setActivity_ne hc) (fun _ hin => hin)
          hclient hd hwas hunrevoked
  | clean hclock hbusy =>
      rename_i c' a call next
      rcases closing_call (hs.closing hbusy) with ⟨op, rfl, hclean⟩
      by_cases hc : c = c'
      · subst hc
        simp [isOpen] at hopen
      · rcases unrevoked_perform_other hc hunrevoked with ⟨hold, hrevokes⟩
        refine h.keep ?_ ((pastOf_setActivity_ne hc).trans pastOf_perform) ?_ hclient hd hwas hold
        · rw [role_setActivity, role_perform_ne env s c' a _ hc]
        · intro _ hin
          refine Broker.listed_exec hin ?_ ?_
          · intro d' hd'
            subst hd'
            generalize s.role c' = role at hclean
            cases hclean
            exact hc rfl
          · intro d' hd'
            subst hd'
            generalize s.role c' = role at hclean
            cases hclean
  | closed hbusy =>
      rename_i c'
      by_cases hc : c = c'
      · subst hc
        simp [isOpen] at hopen
      · exact h.keep (by rw [role_setActivity, role_setBroker]) (pastOf_setActivity_ne hc)
          (fun _ hin => hin) hclient hd hwas hunrevoked
  | background hquiet =>
      have hold : s.Unrevoked c u d := by simpa only [Unrevoked, hquiet.log] using hunrevoked
      refine h.keep (by rw [role, hquiet.sockets, role])
        (by rw [pastOf, activity, hquiet.sockets, pastOf, activity]) (fun _ hin => ?_) hclient hd
        hwas hold
      rw [listed_congr hquiet.account]
      exact hin

theorem alive_perform {a : Ambient} {call : Call} {act : Activity} :
    ((s.perform env c' a call).setActivity c' act).broker.alive c = s.broker.alive c := by
  show (s.perform env c' a call).broker.alive c = s.broker.alive c
  rcases broker_perform_cases env s c' a call with ⟨op, rfl⟩ | ⟨-, hsame⟩
  · exact Broker.alive_exec _ _ _ _
  · rw [hsame]

/-- A step that can end the writer of a connection: the end of the writer itself, a message
taken by it, or the end of the connection. -/
theorem alive_or_ends {l : RelayLabel} (hstep : step env s l = some s')
    (halive : s.broker.alive c = true) :
    s'.broker.alive c = true ∨ l = .stopWriter c ∨
      (l = .drain c ∧ s' = s.setBroker (s.broker.drain c)) ∨ s'.activity c = .closed := by
  cases step_taken hstep with
  | connect hvacant => exact .inl ((Broker.alive_send _ _ _ _).trans halive)
  | resume hclock hbusy => exact .inl (alive_perform.trans halive)
  | panic hclock hbusy => exact .inl (alive_perform.trans halive)
  | clean hclock hbusy => exact .inl (alive_perform.trans halive)
  | closed hbusy =>
      rename_i c'
      by_cases hc : c = c'
      · subst hc
        exact .inr (.inr (.inr (activity_setActivity_same _ _ _)))
      · exact .inl ((Broker.alive_stopWriter_ne hc).trans halive)
  | ping hidle => exact .inl ((Broker.alive_send _ _ _ _).trans halive)
  | nudge hclock hwaits => exact .inl ((Broker.alive_runNudge _ _ _ _).trans halive)
  | drain hopened =>
      rename_i c'
      by_cases hc : c = c'
      · subst hc
        exact .inr (.inr (.inl ⟨rfl, rfl⟩))
      · exact .inl ((Broker.alive_drain_ne hc).trans halive)
  | stopWriter hopened =>
      rename_i c'
      by_cases hc : c = c'
      · subst hc
        exact .inr (.inl rfl)
      · exact .inl ((Broker.alive_stopWriter_ne hc).trans halive)
  | shutdown => exact .inl ((alive_foldl_sendAll _ _ _ _ _).trans halive)
  | _ => exact .inl halive

theorem phone_step (hs : Sound s) {l : RelayLabel} (hstep : Transition env s l s')
    (hphone : s'.isPhone c = true) :
    s.isPhone c = true ∨ exists a frame role past v d next, l = .resume c a ∧
      s.activity c = .handling frame role past (.invoke (.setRole (.client v d)) next) ∧
        d ≠ "desktop" := by
  rcases Bool.and_eq_true_iff.mp hphone with ⟨hopen, hrole⟩
  rcases role_step hs hstep c with hsame | ⟨hnew, _⟩ | ⟨a, frame, role, past, next, rfl, hact⟩
  · rcases isOpen_step hstep hopen with hwas | hnew
    · left
      rw [isPhone, hwas, ← hsame]
      exact hrole
    · rw [hnew] at hrole
      cases hrole
  · rw [hnew] at hrole
    cases hrole
  · right
    cases hnew : s'.role c with
    | client v d =>
        rw [hnew] at hact hrole
        exact ⟨a, frame, role, past, v, d, next, rfl, hact, of_decide_eq_true hrole⟩
    | _ =>
        rw [hnew] at hrole
        cases hrole

theorem hearing_step (hs : Sound s)
    (h : forall c, s.isPhone c = true -> s.broker.alive c = true) {l : RelayLabel}
    (hkeeps : s.KeepsListed l) (hstep : step env s l = some s')
    (hphone : s'.isPhone c = true) : s'.broker.alive c = true := by
  have hwas : s.broker.alive c = true := by
    rcases phone_step hs (step_transition hstep) hphone with
      hold | ⟨a, frame, role, past, v, d, next, rfl, hbusy, hd⟩
    · exact h c hold
    · simpa [KeepsListed, keepsListed, hbusy, hd] using hkeeps
  rcases alive_or_ends hstep hwas with halive | rfl | ⟨rfl, rfl⟩ | hclosed
  · exact halive
  · have hstill : s.isPhone c = true := by
      rcases phone_step hs (step_transition hstep) hphone with hold | ⟨_, _, _, _, _, _, _, hl, _⟩
      · exact hold
      · cases hl
    simp [KeepsListed, keepsListed, hstill] at hkeeps
  · have hstill : s.isPhone c = true := hphone
    have htakes : (s.broker.channels c).queue.head?.any WsMessage.isClose = false := by
      simpa [KeepsListed, keepsListed, hstill] using hkeeps
    exact Broker.alive_drain hwas htakes
  · have hopen : s'.isOpen c = true := (Bool.and_eq_true _ _ ▸ hphone).1
    rw [isOpen, hclosed] at hopen
    cases hopen

theorem gave_step (hs : Sound s) (h : s.Seats) {l : RelayLabel} (hstep : Transition env s l s')
    {frame : Inbound} {role : ConnectionRole} {past : List CallAnswer} {task : Handler Unit}
    (hact : s'.activity c = .handling frame role past task) (howing : Owing c u d past) :
    frame.isAuth = true := by
  rcases handling_step hstep hact with
    hold | ⟨_, _, _, hpast, _⟩ | ⟨a, call, before, next, _, _, hbusy, hpast, _⟩
  · exact h.gave hold howing
  · rw [hpast] at howing
    exact (not_standing_nil howing).elim
  · rw [hpast] at howing
    rcases standing_cons.mp howing with hgives | ⟨_, hold⟩
    · have hpermitted := (hs.behaves hbusy).1.permitted
      cases call
      case setRole new =>
          cases hpermitted with
          | privately hcall => cases hcall
          | keyRole hauth hkey => exact Inbound.isAuth_of_authenticates hauth
          | tokenRole hauth hdevice => exact Inbound.isAuth_of_authenticates hauth
          | desktopRole hrole hregister hdone => cases hgives
      all_goals cases hgives
    · exact h.gave hbusy hold

theorem seats_step (hs : Sound s) (h : s.Seats) {l : RelayLabel} (hkeeps : s.KeepsListed l)
    (hstep : Transition env s l s') : s'.Seats where
  discharges := fun hact => obeys_step (Handler.processWsMessage_discharges env) hstep
    (fun hact => h.discharges hact) hact
  gave := fun hact howing => gave_step hs h hstep hact howing
  listed := fun hclient hd hopen hunrevoked =>
    seats_listed_step hs h hkeeps hstep hclient hd hopen hunrevoked

end

theorem unrevoked_of_any {s : Relay} {c : ConnId} {u d : String}
    (hwelcome : s.log.any (welcomes c u d) = true)
    (hnone : s.log.all (fun e => !revokes u d e) = true) :
    s.Unrevoked c u d := by
  rcases List.any_eq_true.mp hwelcome with ⟨e, he, hwelcomes⟩
  rcases List.append_of_mem he with ⟨since, before, hlog⟩
  refine ⟨since, e, before, hlog, hwelcomes, ?_⟩
  intro f hf
  have hkept := List.all_eq_true.mp hnone f (by rw [hlog]; exact List.mem_append_left _ hf)
  simpa using hkept

def elevenTabs : List RelayLabel :=
  [1, 2, 3, 4, 5, 6, 7, 8, 9, 10, 11].flatMap fun c : ConnId =>
    Deployment.open_ c :: Deployment.tokenAuth c

end Relay

end CommandRelay
