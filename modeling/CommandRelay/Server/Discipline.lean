import CommandRelay.Broker.Places
import CommandRelay.Server.Handlers

/-!
# What a handler may do

The calls a handler may make for one frame, given the role the socket had when
the frame arrived and the answers received so far.  Every interleaving argument
about the relay starts from this list.
-/

namespace CommandRelay

open Foundation

namespace Inbound

/-- The control message a text frame is dispatched to. -/
def control? : Inbound -> Option ControlMessage
  | .text size parsed => if maxTextMessageSize < size then none else parsed
  | _ => none

def Authenticates (frame : Inbound) (username : String) : Prop :=
  exists version passwordHash totp deviceToken desktopKey,
    frame.control? =
      some (.auth version username passwordHash totp deviceToken desktopKey)

def isAuth (frame : Inbound) : Bool :=
  match frame.control? with
  | some (.auth ..) => true
  | _ => false

theorem isAuth_of_authenticates {frame : Inbound} {u : String} (h : frame.Authenticates u) :
    frame.isAuth = true := by
  rcases h with ⟨_, _, _, _, _, h⟩
  unfold isAuth
  rw [h]

end Inbound

namespace ConnectionRole

def account? : ConnectionRole -> Option String
  | unauthenticated => none
  | desktop username => some username
  | client username _ => some username

end ConnectionRole

/-- The client messages the relay hands to the desktop as they are, whatever the
state of a transfer or a query. -/
def ControlMessage.isPlain : ControlMessage -> Bool
  | sessionSpawnRequest .. | sessionCloseRequest _ | ptyResize .. => true
  | sessionRenamed .. | fileUploadBegin .. | fileDownloadRequest .. => true
  | sessionListRequest => true
  | _ => false

namespace Call

def isPrivate : Call -> Bool
  | broker _ | setRole _ => false
  | _ => true

end Call

namespace BrokerCall

def desktopSide? : BrokerCall -> Option String
  | resolveUpload username _ | noteDownloadBegin username .. => some username
  | recordDownloadChunk username .. | resolveDownload username _ => some username
  | endReplay username | replayTarget username => some username
  | resolveSupervisor username .. | broadcastToClients username _ => some username
  | takePendingDevice username _ | getConnectedClients username => some username
  | sendToClient username .. | unregisterDevice username _ => some username
  | _ => none

def ownUpload? : BrokerCall -> Option (String × ConnId)
  | beginUpload username _ _ conn => some (username, conn)
  | markBugReportUpload username _ conn => some (username, conn)
  | takeBugReportBuffer username _ conn => some (username, conn)
  | recordUploadChunk username _ conn _ => some (username, conn)
  | _ => none

end BrokerCall

def target? : CallAnswer -> Option ConnId
  | ⟨.broker (.resolveUpload ..), tx⟩ => tx
  | ⟨.broker (.noteDownloadBegin ..), tx⟩ => tx
  | ⟨.broker (.recordDownloadChunk ..), .forward tx⟩ => some tx
  | ⟨.broker (.recordDownloadChunk ..), .overrun tx⟩ => some tx
  | ⟨.broker (.resolveDownload ..), tx⟩ => tx
  | ⟨.broker (.endReplay _), tx⟩ => tx
  | ⟨.broker (.replayTarget _), tx⟩ => tx
  | ⟨.broker (.takePendingDevice ..), pending⟩ => pending.map PendingDevice.clientTx
  | _ => none

/-!
## Permitted calls
-/

inductive Permitted (c : ConnId) (frame : Inbound) (role : ConnectionRole)
    (past : List CallAnswer) : Call -> Prop where
  | privately {call} (hcall : call.isPrivate = true) : Permitted c frame role past call
  | reply {msg} : Permitted c frame role past (.broker (.send c msg))
  | online {u} : Permitted c frame role past (.broker (.isDesktopOnline u))
  -- Authentication
  | keyRole {u key} (hframe : frame.Authenticates u)
      (hkey : ⟨.verifyDesktopKey u key, .ok true⟩ ∈ past) :
      Permitted c frame role past (.setRole (.client u "desktop"))
  | tokenRole {u d} (hframe : frame.Authenticates u)
      (hdevice : ⟨.isDeviceRegistered d u, true⟩ ∈ past) :
      Permitted c frame role past (.setRole (.client u d))
  | tokenClient {u info} (hframe : frame.Authenticates u)
      (hrole : ⟨.setRole (.client u info.deviceId), ()⟩ ∈ past) :
      Permitted c frame role past (.broker (.registerClient u c info))
  | announce {u d name ip} (hframe : frame.Authenticates u) :
      Permitted c frame role past
        (.broker (.sendToDesktop u (.text (.devicePending d name ip))))
  | enrol {u pending} (hframe : frame.Authenticates u) (htx : pending.clientTx = c) :
      Permitted c frame role past (.broker (.addPendingDevice u pending))
  -- A client
  | registerDesktop {u d version capabilities} (hrole : role = .client u d)
      (hframe : frame.control? = some (.desktopRegister version capabilities)) :
      Permitted c frame role past (.broker (.registerDesktop u c capabilities))
  | desktopRole {u d version capabilities} (hrole : role = .client u d)
      (hframe : frame.control? = some (.desktopRegister version capabilities))
      (hdone : ⟨.broker (.registerDesktop u c capabilities), ()⟩ ∈ past) :
      Permitted c frame role past (.setRole (.desktop u))
  | forward {u d msg} (hrole : role = .client u d) (hframe : frame.control? = some msg)
      (hplain : msg.isPlain = true) :
      Permitted c frame role past (.broker (.sendToDesktop u (.text msg)))
  | forwardBytes {u d data} (hrole : role = .client u d) (hframe : frame = .binary data) :
      Permitted c frame role past (.broker (.sendToDesktop u (.binary data)))
  | ownUpload {u op} (hrole : role.account? = some u)
      (hcall : op.ownUpload? = some (u, c)) : Permitted c frame role past (.broker op)
  | finishUpload {u d id text} (hrole : role = .client u d)
      (hframe : frame.control? = some (.fileUploadEnd id text))
      (hfirst : ⟨.broker (.finishUpload u id c), ()⟩ ∉ past) :
      Permitted c frame role past (.broker (.finishUpload u id c))
  | forwardEnd {u d id text} (hrole : role = .client u d)
      (hframe : frame.control? = some (.fileUploadEnd id text))
      (hdone : past.head? = some ⟨.broker (.finishUpload u id c), ()⟩) :
      Permitted c frame role past (.broker (.sendToDesktop u (.text (.fileUploadEnd id text))))
  | resolveOffline {u d id text} (hrole : role = .client u d)
      (hframe : frame.control? = some (.fileUploadEnd id text))
      (hoffline : past.head? = some ⟨.broker (.isDesktopOnline u), false⟩) :
      Permitted c frame role past (.broker (.resolveUpload u id))
  | requestDownload {u d id session path} (hrole : role = .client u d)
      (hframe : frame.control? = some (.fileDownloadRequest id session path)) :
      Permitted c frame role past (.broker (.registerDownload u id c))
  | requestList {u d} (hrole : role = .client u d)
      (hframe : frame.control? = some .sessionListRequest) :
      Permitted c frame role past (.broker (.noteSessionListRequest u d c))
  | query {u d id kind session text fingerprint} (hrole : role = .client u d)
      (hframe : frame.control? = some (.supervisorQuery id kind session text fingerprint)) :
      Permitted c frame role past (.broker (.beginSupervisorQuery u id c))
  | forwardQuery {u d id kind session text fingerprint} (hrole : role = .client u d)
      (hframe : frame.control? = some (.supervisorQuery id kind session text fingerprint))
      (hdecided : past.head? = some ⟨.broker (.beginSupervisorQuery u id c), .forward⟩) :
      Permitted c frame role past
        (.broker (.sendToDesktop u (.text (.supervisorQuery id kind session text fingerprint))))
  -- A desktop
  | desktopCall {u op} (hrole : role = .desktop u) (hcall : op.desktopSide? = some u) :
      Permitted c frame role past (.broker op)
  | beginReplay {u} (hrole : role = .desktop u)
      (hframe : frame.control? = some .replayBegin) :
      Permitted c frame role past (.broker (.beginReplay u))
  | route {u tx msg} (hrole : role = .desktop u)
      (htarget : exists a, a ∈ past ∧ target? a = some tx) :
      Permitted c frame role past (.broker (.send tx msg))
  | approve {u tx info} (hrole : role = .desktop u)
      (htarget : exists a, a ∈ past ∧ target? a = some tx) :
      Permitted c frame role past (.broker (.registerClient u tx info))

def nextCall? (frame : Inbound) : List CallAnswer -> Option Call
  | ⟨.broker (.registerDesktop u _ _), _⟩ :: _ => some (.setRole (.desktop u))
  | ⟨.broker (.finishUpload u _ _), _⟩ :: _ =>
      frame.control?.map fun msg => .broker (.sendToDesktop u (.text msg))
  | ⟨.broker (.beginSupervisorQuery u _ _), .forward⟩ :: _ =>
      frame.control?.map fun msg => .broker (.sendToDesktop u (.text msg))
  | _ => none

structure Allowed (c : ConnId) (frame : Inbound) (role : ConnectionRole)
    (past : List CallAnswer) (call : Call) : Prop where
  permitted : Permitted c frame role past call
  due : forall next, nextCall? frame past = some next -> call = next

def Behaves (c : ConnId) (frame : Inbound) (role : ConnectionRole)
    (past : List CallAnswer) (task : Handler Unit) : Prop :=
  Program.Obeys (Allowed c frame role) past task fun past _ => nextCall? frame past = none

/-- The ways a handler's call can put a connection into a place of an account. -/
inductive Insertion (c : ConnId) (frame : Inbound) (role : ConnectionRole)
    (past : List CallAnswer) (u : String) : Place -> ConnId -> Prop where
  | desktop {d version capabilities} (hrole : role = .client u d)
      (hframe : frame.control? = some (.desktopRegister version capabilities)) :
      Insertion c frame role past u .desktop c
  | upload (hrole : role.account? = some u) : Insertion c frame role past u .uploads c
  | download {d id session path} (hrole : role = .client u d)
      (hframe : frame.control? = some (.fileDownloadRequest id session path)) :
      Insertion c frame role past u .downloads c
  | queue {d} (hrole : role = .client u d)
      (hframe : frame.control? = some .sessionListRequest) :
      Insertion c frame role past u .queue c
  | supervisor {d id kind session text fingerprint} (hrole : role = .client u d)
      (hframe : frame.control? = some (.supervisorQuery id kind session text fingerprint)) :
      Insertion c frame role past u .supervisor c
  | pending (hframe : frame.Authenticates u) : Insertion c frame role past u .pending c
  | welcomed {d} (hframe : frame.Authenticates u)
      (hrole : ⟨.setRole (.client u d), ()⟩ ∈ past) :
      Insertion c frame role past u .clients c
  | approved {tx} (hrole : role = .desktop u)
      (htarget : exists a, a ∈ past ∧ target? a = some tx) :
      Insertion c frame role past u .clients tx

theorem Permitted.insertion {c tx : ConnId} {frame : Inbound} {role : ConnectionRole}
    {past : List CallAnswer} {op : BrokerCall} {u : String} {place : Place}
    (h : Permitted c frame role past (.broker op)) (hu : op.subject? = some u)
    (hinsert : (place, tx) ∈ op.inserts) : Insertion c frame role past u place tx := by
  cases h
  case tokenClient v info hframe hrole =>
      cases List.mem_singleton.mp hinsert
      cases hu
      exact .welcomed hframe hrole
  case enrol v pending hframe htx =>
      cases List.mem_singleton.mp hinsert
      cases hu
      rw [htx]
      exact .pending hframe
  case registerDesktop v d version capabilities hrole hframe =>
      cases List.mem_singleton.mp hinsert
      cases hu
      exact .desktop hrole hframe
  case ownUpload v hrole hcall =>
      cases op <;> simp [BrokerCall.ownUpload?, BrokerCall.inserts] at hcall hinsert
      case beginUpload =>
          cases hu
          rw [hinsert.1, hinsert.2, hcall.2]
          exact .upload (hcall.1 ▸ hrole)
  case requestDownload v d id session path hrole hframe =>
      cases List.mem_singleton.mp hinsert
      cases hu
      exact .download hrole hframe
  case requestList v d hrole hframe =>
      cases List.mem_singleton.mp hinsert
      cases hu
      exact .queue hrole hframe
  case query v d id kind session text fingerprint hrole hframe =>
      cases List.mem_singleton.mp hinsert
      cases hu
      exact .supervisor hrole hframe
  case desktopCall v hrole hcall =>
      cases op <;> simp [BrokerCall.desktopSide?, BrokerCall.inserts] at hcall hinsert
  case approve v t info hrole htarget =>
      cases List.mem_singleton.mp hinsert
      cases hu
      exact .approved hrole htarget
  case privately hcall => cases hcall
  all_goals cases hinsert

/-!
## Every handler behaves
-/

namespace Handler

theorem processWsMessage_of_control {env : Env} {frame : Inbound} {msg : ControlMessage}
    {role : ConnectionRole} {c : ConnId} {ip : String} (h : frame.control? = some msg) :
    processWsMessage env frame role c ip = handleControlMessage env msg role c ip := by
  cases frame with
  | text size parsed =>
      unfold Inbound.control? at h
      by_cases hsize : maxTextMessageSize < size
      · simp only [if_pos hsize] at h
        cases h
      · simp only [if_neg hsize] at h
        subst h
        simp only [processWsMessage, if_neg hsize]
  | _ => cases h

section

variable {c : ConnId} {frame : Inbound} {role : ConnectionRole}
  {past : List CallAnswer} {call : Call} {task : Handler Unit}

theorem behaves_skip (hfree : nextCall? frame past = none) :
    Behaves c frame role past skip := hfree

theorem behaves_act (hcall : Allowed c frame role past call)
    (hfree : forall r, nextCall? frame (⟨call, r⟩ :: past) = none) :
    Behaves c frame role past (act call) :=
  ⟨hcall, hfree⟩

theorem behaves_act_then (hcall : Allowed c frame role past call)
    (hrest : forall r, Behaves c frame role (⟨call, r⟩ :: past) task) :
    Behaves c frame role past (act call >>= fun _ => task) :=
  ⟨hcall, hrest⟩

theorem behaves_ask {next : call.Reply -> Handler Unit}
    (hcall : Allowed c frame role past call)
    (hrest : forall r, Behaves c frame role (⟨call, r⟩ :: past) (next r)) :
    Behaves c frame role past (ask call >>= next) :=
  ⟨hcall, hrest⟩

theorem allowed_of_free (hcall : Permitted c frame role past call)
    (hfree : nextCall? frame past = none) : Allowed c frame role past call where
  permitted := hcall
  due := fun next hnext => by rw [hfree] at hnext; cases hnext

theorem behaves_reply {msg : WsMessage} (hfree : nextCall? frame past = none) :
    Behaves c frame role past (send c msg) :=
  behaves_act (allowed_of_free .reply hfree) fun _ => rfl

theorem behaves_fail {u error : String} (hfree : nextCall? frame past = none) :
    Behaves c frame role past
      (act (.recordFailure u) >>= fun _ => sendAuthError c error) :=
  behaves_act_then (allowed_of_free (.privately rfl) hfree) fun _ => behaves_reply rfl

end

/-!
### Authentication
-/

section

variable {c : ConnId} {frame : Inbound} {role : ConnectionRole}
  {past : List CallAnswer} {u ip : String} (hframe : frame.Authenticates u)
  (hfree : nextCall? frame past = none)
include hframe hfree

theorem authDesktopKey_behaves (key : String) :
    Behaves c frame role past (authDesktopKey u key c) := by
  apply behaves_ask (allowed_of_free (.privately rfl) hfree)
  intro r
  cases r with
  | error e => exact behaves_fail rfl
  | ok valid =>
      cases valid with
      | false => exact behaves_fail rfl
      | true =>
          apply behaves_act_then (allowed_of_free (.privately rfl) rfl)
          intro _
          apply behaves_act_then (allowed_of_free .reply rfl)
          intro _
          have hkey := List.mem_cons_self
            (a := (⟨.verifyDesktopKey u key, .ok true⟩ : CallAnswer)) (l := past)
          apply behaves_act
          · exact allowed_of_free
              (.keyRole hframe (List.mem_cons_of_mem _ (List.mem_cons_of_mem _ hkey))) rfl
          · intro _
            rfl

theorem enrolDevice_behaves : Behaves c frame role past (enrolDevice u c ip) := by
  apply behaves_act_then (allowed_of_free (.privately rfl) hfree)
  intro _
  apply behaves_ask (allowed_of_free .online rfl)
  intro online
  cases online with
  | false => exact behaves_reply rfl
  | true =>
      apply behaves_ask (allowed_of_free (.privately rfl) rfl)
      intro registered
      cases registered with
      | error e => exact behaves_reply rfl
      | ok deviceId =>
          apply behaves_act_then (allowed_of_free (.announce hframe) rfl)
          intro _
          exact behaves_act (allowed_of_free (.enrol hframe rfl) rfl) fun _ => rfl

theorem authTotp_behaves (totp : Option String) :
    Behaves c frame role past (authTotp u totp c ip) := by
  apply behaves_ask (allowed_of_free (.privately rfl) hfree)
  intro r
  cases r with
  | error e => exact enrolDevice_behaves hframe rfl
  | ok needed =>
      cases needed with
      | false => exact enrolDevice_behaves hframe rfl
      | true =>
          cases totp with
          | none => exact behaves_reply rfl
          | some code =>
              apply behaves_ask (allowed_of_free (.privately rfl) rfl)
              intro verified
              cases verified with
              | error e => exact behaves_fail rfl
              | ok _ => exact enrolDevice_behaves hframe rfl

theorem authPassword_behaves (passwordHash totp : Option String) :
    Behaves c frame role past (authPassword u passwordHash totp c ip) := by
  cases passwordHash with
  | none => exact behaves_reply hfree
  | some hash =>
      apply behaves_ask (allowed_of_free (.privately rfl) hfree)
      intro verified
      cases verified with
      | error e => exact behaves_fail rfl
      | ok _ => exact authTotp_behaves hframe rfl totp

theorem welcomeDevice_behaves {d : String}
    (hdevice : ⟨.isDeviceRegistered d u, true⟩ ∈ past) :
    Behaves c frame role past (welcomeDevice u d c ip) := by
  apply behaves_act_then (allowed_of_free (.privately rfl) hfree)
  intro _
  apply behaves_act_then (allowed_of_free (.privately rfl) rfl)
  intro _
  apply behaves_ask (allowed_of_free (.privately rfl) rfl)
  intro token
  cases token with
  | error e => exact behaves_act (allowed_of_free (.privately rfl) rfl) fun _ => rfl
  | ok token =>
      apply behaves_act_then (allowed_of_free .reply rfl)
      intro _
      apply behaves_act_then
      · refine allowed_of_free (.tokenRole hframe ?_) rfl
        iterate 4 apply List.mem_cons_of_mem
        exact hdevice
      · intro _
        apply behaves_ask (allowed_of_free (.privately rfl) rfl)
        intro connectedAt
        refine behaves_act (allowed_of_free (.tokenClient hframe ?_) rfl) fun _ => rfl
        exact List.mem_cons_of_mem _ List.mem_cons_self

theorem authDeviceToken_behaves (token : String) (passwordHash totp : Option String) :
    Behaves c frame role past (authDeviceToken u token passwordHash totp c ip) := by
  apply behaves_ask (allowed_of_free (.privately rfl) hfree)
  intro r
  cases r with
  | error e => exact authPassword_behaves hframe rfl passwordHash totp
  | ok claims =>
      by_cases hsub : claims.sub = u
      · simp only [if_pos hsub]
        apply behaves_ask (allowed_of_free (.privately rfl) rfl)
        intro registered
        cases registered with
        | false => exact authPassword_behaves hframe rfl passwordHash totp
        | true => exact welcomeDevice_behaves hframe rfl List.mem_cons_self
      · simp only [if_neg hsub]
        exact authPassword_behaves hframe rfl passwordHash totp

theorem handleAuth_behaves (passwordHash totp deviceToken desktopKey : Option String) :
    Behaves c frame role past
      (handleAuth u passwordHash totp deviceToken desktopKey c ip) := by
  apply behaves_ask (allowed_of_free (.privately rfl) hfree)
  intro limited
  cases limited with
  | some retryAfter => exact behaves_reply rfl
  | none =>
      cases desktopKey with
      | some key => exact authDesktopKey_behaves hframe rfl key
      | none =>
          cases deviceToken with
          | some token => exact authDeviceToken_behaves hframe rfl token passwordHash totp
          | none => exact authPassword_behaves hframe rfl passwordHash totp

end

/-!
### Control messages
-/

section

variable {c : ConnId} {frame : Inbound} {role : ConnectionRole}
  {past : List CallAnswer} {msg : ControlMessage}

theorem handleDesktopRegister_behaves {version : UInt32}
    {capabilities : Option (List String)}
    (hframe : frame.control? = some (.desktopRegister version capabilities)) :
    Behaves c frame role [] (handleDesktopRegister capabilities role c) := by
  cases role with
  | unauthenticated => exact behaves_skip rfl
  | desktop u => exact behaves_skip rfl
  | client u d =>
      apply behaves_act_then (allowed_of_free (.registerDesktop rfl hframe) rfl)
      intro _
      apply behaves_act_then
      · exact
          { permitted := .desktopRole rfl hframe List.mem_cons_self
            due := fun next hnext => (Option.some.inj hnext) }
      · intro _
        exact behaves_reply rfl

theorem sendToDesktop_behaves {u d : String} (hrole : role = .client u d)
    (hframe : frame.control? = some msg) (hplain : msg.isPlain = true)
    (hfree : nextCall? frame past = none) :
    Behaves c frame role past (sendToDesktop u (.text msg)) :=
  behaves_act (allowed_of_free (.forward hrole hframe hplain) hfree) fun _ => rfl

theorem handleFileUploadBegin_behaves {id kind name mime : String} {size : UInt64}
    {session : Option String}
    (hframe : frame.control? = some (.fileUploadBegin id kind name size mime session)) :
    Behaves c frame role []
      (handleFileUploadBegin (.fileUploadBegin id kind name size mime session) id kind size
        role c) := by
  cases role with
  | unauthenticated => exact behaves_skip rfl
  | client u d =>
      unfold handleFileUploadBegin
      by_cases hlarge : kind = "bug_report" ∧ maxBugReportUploadSize < size.toNat
      · simp only [if_pos hlarge]
        exact behaves_reply rfl
      · simp only [if_neg hlarge]
        apply behaves_ask (allowed_of_free (.ownUpload rfl rfl) rfl)
        intro r
        cases r with
        | error reason => exact behaves_reply rfl
        | ok _ =>
            by_cases hkind : kind = "bug_report"
            · simp only [if_pos hkind]
              apply behaves_act_then (allowed_of_free (.ownUpload rfl rfl) rfl)
              intro _
              exact sendToDesktop_behaves rfl hframe rfl rfl
            · simp only [if_neg hkind]
              exact sendToDesktop_behaves rfl hframe rfl rfl
  | desktop u =>
      unfold handleFileUploadBegin
      by_cases hskip : kind ≠ "bug_report" ∨ maxBugReportUploadSize < size.toNat
      · simp only [if_pos hskip]
        exact behaves_skip rfl
      · simp only [if_neg hskip]
        apply behaves_ask (allowed_of_free (.ownUpload rfl rfl) rfl)
        intro r
        cases r with
        | error reason => exact behaves_skip rfl
        | ok _ => exact behaves_act (allowed_of_free (.ownUpload rfl rfl) rfl) fun _ => rfl

theorem finishUpload_behaves {u d id : String} {text : Option String}
    (hrole : role = .client u d)
    (hframe : frame.control? = some (.fileUploadEnd id text))
    (hfirst : ⟨.broker (.finishUpload u id c), ()⟩ ∉ past)
    (hfree : nextCall? frame past = none) :
    Behaves c frame role past (finishUpload (.fileUploadEnd id text) u id c) := by
  apply behaves_act_then (allowed_of_free (.finishUpload hrole hframe hfirst) hfree)
  intro _
  refine behaves_act { permitted := .forwardEnd hrole hframe rfl, due := ?_ } fun _ => rfl
  intro next hnext
  simp only [nextCall?, hframe, Option.map_some, Option.some.injEq] at hnext
  exact hnext

theorem handleFileUploadEnd_behaves {id : String} {text : Option String}
    (hframe : frame.control? = some (.fileUploadEnd id text)) :
    Behaves c frame role []
      (handleFileUploadEnd (.fileUploadEnd id text) id text role c) := by
  cases role with
  | unauthenticated => exact behaves_skip rfl
  | client u d =>
      apply behaves_ask (allowed_of_free (.ownUpload rfl rfl) rfl)
      intro taken
      cases taken with
      | none => exact finishUpload_behaves rfl hframe (by simp) rfl
      | some screenshot =>
          apply behaves_act_then (allowed_of_free (.privately rfl) rfl)
          intro _
          apply behaves_ask (allowed_of_free .online rfl)
          intro online
          cases online with
          | true => exact finishUpload_behaves rfl hframe (by simp) rfl
          | false =>
              apply behaves_act_then (allowed_of_free (.resolveOffline rfl hframe rfl) rfl)
              intro _
              exact behaves_reply rfl
  | desktop u =>
      apply behaves_ask (allowed_of_free (.ownUpload rfl rfl) rfl)
      intro taken
      cases taken with
      | none => exact behaves_act (allowed_of_free (.desktopCall rfl rfl) rfl) fun _ => rfl
      | some screenshot =>
          apply behaves_act_then (allowed_of_free (.privately rfl) rfl)
          intro _
          exact behaves_act (allowed_of_free (.desktopCall rfl rfl) rfl) fun _ => rfl

theorem handleFileDownloadRequest_behaves {id session path : String}
    (hframe : frame.control? = some (.fileDownloadRequest id session path)) :
    Behaves c frame role []
      (handleFileDownloadRequest (.fileDownloadRequest id session path) id role c) := by
  cases role with
  | unauthenticated => exact behaves_skip rfl
  | desktop u => exact behaves_skip rfl
  | client u d =>
      apply behaves_ask (allowed_of_free (.requestDownload rfl hframe) rfl)
      intro r
      cases r with
      | error reason => exact behaves_reply rfl
      | ok _ => exact sendToDesktop_behaves rfl hframe rfl rfl

theorem handleSessionListRequest_behaves
    (hframe : frame.control? = some .sessionListRequest) :
    Behaves c frame role [] (handleSessionListRequest role c) := by
  cases role with
  | unauthenticated => exact behaves_skip rfl
  | desktop u => exact behaves_skip rfl
  | client u d =>
      apply behaves_act_then (allowed_of_free (.requestList rfl hframe) rfl)
      intro _
      exact sendToDesktop_behaves rfl hframe rfl rfl

theorem handleSupervisorQuery_behaves {id kind : String}
    {session text fingerprint : Option String}
    (hframe : frame.control? = some (.supervisorQuery id kind session text fingerprint)) :
    Behaves c frame role []
      (handleSupervisorQuery (.supervisorQuery id kind session text fingerprint) id role
        c) := by
  cases role with
  | unauthenticated => exact behaves_skip rfl
  | desktop u => exact behaves_skip rfl
  | client u d =>
      apply behaves_ask (allowed_of_free .online rfl)
      intro online
      cases online with
      | false => exact behaves_reply rfl
      | true =>
          apply behaves_ask (allowed_of_free (.query rfl hframe) rfl)
          intro decision
          cases decision with
          | replay stored => exact behaves_reply rfl
          | reowned => exact behaves_skip rfl
          | capacity => exact behaves_reply rfl
          | forward =>
              refine behaves_act
                { permitted := .forwardQuery rfl hframe rfl, due := ?_ } fun _ => rfl
              intro next hnext
              simp only [nextCall?, hframe, Option.map_some, Option.some.injEq] at hnext
              exact hnext

theorem forwardToDesktop_behaves (hframe : frame.control? = some msg)
    (hplain : msg.isPlain = true) :
    Behaves c frame role [] (forwardToDesktop msg role) := by
  cases role with
  | unauthenticated => exact behaves_skip rfl
  | desktop u => exact behaves_skip rfl
  | client u d => exact sendToDesktop_behaves rfl hframe hplain rfl

theorem desktopAct_behaves {u : String} {op : BrokerCall} (hrole : role = .desktop u)
    (hcall : op.desktopSide? = some u) (hfree : nextCall? frame past = none)
    (hquiet : forall r, nextCall? frame (⟨.broker op, r⟩ :: past) = none) :
    Behaves c frame role past (act (.broker op)) :=
  behaves_act (allowed_of_free (.desktopCall hrole hcall) hfree) hquiet

theorem sendTo_behaves {u : String} {tx : Option ConnId} {out : WsMessage}
    (hrole : role = .desktop u) (hfree : nextCall? frame past = none)
    (htarget : forall t, tx = some t -> exists a, a ∈ past ∧ target? a = some t) :
    Behaves c frame role past (sendTo tx out) := by
  cases tx with
  | none => exact behaves_skip hfree
  | some t => exact behaves_act (allowed_of_free (.route hrole (htarget t rfl)) hfree) fun _ => rfl

theorem handleFileUploadResult_behaves {id : String} :
    Behaves c frame role [] (handleFileUploadResult msg id role) := by
  cases role with
  | unauthenticated => exact behaves_skip rfl
  | client u d => exact behaves_skip rfl
  | desktop u =>
      apply behaves_ask (allowed_of_free (.desktopCall rfl rfl) rfl)
      intro tx
      exact sendTo_behaves rfl rfl fun t ht => ⟨_, List.mem_cons_self, ht⟩

theorem handleFileDownloadBegin_behaves {id : String} {size : UInt64} :
    Behaves c frame role [] (handleFileDownloadBegin msg id size role) := by
  cases role with
  | unauthenticated => exact behaves_skip rfl
  | client u d => exact behaves_skip rfl
  | desktop u =>
      apply behaves_ask (allowed_of_free (.desktopCall rfl rfl) rfl)
      intro tx
      exact sendTo_behaves rfl rfl fun t ht => ⟨_, List.mem_cons_self, ht⟩

theorem handleFileDownloadEnd_behaves {id : String} :
    Behaves c frame role [] (handleFileDownloadEnd msg id role) := by
  cases role with
  | unauthenticated => exact behaves_skip rfl
  | client u d => exact behaves_skip rfl
  | desktop u =>
      apply behaves_ask (allowed_of_free (.desktopCall rfl rfl) rfl)
      intro tx
      exact sendTo_behaves rfl rfl fun t ht => ⟨_, List.mem_cons_self, ht⟩

theorem handleReplayBegin_behaves (hframe : frame.control? = some .replayBegin) :
    Behaves c frame role [] (handleReplayBegin role) := by
  cases role with
  | unauthenticated => exact behaves_skip rfl
  | client u d => exact behaves_skip rfl
  | desktop u => exact behaves_act (allowed_of_free (.beginReplay rfl hframe) rfl) fun _ => rfl

theorem handleSessionList_behaves :
    Behaves c frame role [] (handleSessionList msg role) := by
  cases role with
  | unauthenticated => exact behaves_skip rfl
  | client u d => exact behaves_skip rfl
  | desktop u =>
      apply behaves_ask (allowed_of_free (.desktopCall rfl rfl) rfl)
      intro tx
      cases tx with
      | none => exact desktopAct_behaves rfl rfl rfl fun _ => rfl
      | some t =>
          refine behaves_act (allowed_of_free (.route rfl ?_) rfl) fun _ => rfl
          exact ⟨_, List.mem_cons_self, rfl⟩

theorem handleSupervisorReply_behaves {id : String} :
    Behaves c frame role [] (handleSupervisorReply msg id role) := by
  cases role with
  | unauthenticated => exact behaves_skip rfl
  | client u d => exact behaves_skip rfl
  | desktop u => exact desktopAct_behaves rfl rfl rfl fun _ => rfl

theorem handleSessionRenamed_behaves {session label : String}
    (hframe : frame.control? = some (.sessionRenamed session label)) :
    Behaves c frame role [] (handleSessionRenamed (.sessionRenamed session label) role) := by
  cases role with
  | unauthenticated => exact behaves_skip rfl
  | client u d => exact sendToDesktop_behaves rfl hframe rfl rfl
  | desktop u => exact desktopAct_behaves rfl rfl rfl fun _ => rfl

theorem forwardToClients_behaves : Behaves c frame role [] (forwardToClients msg role) := by
  cases role with
  | unauthenticated => exact behaves_skip rfl
  | client u d => exact behaves_skip rfl
  | desktop u => exact desktopAct_behaves rfl rfl rfl fun _ => rfl

theorem handleSessionNotification_behaves {session title body : String} :
    Behaves c frame role [] (handleSessionNotification session title body role) := by
  cases role with
  | unauthenticated => exact behaves_skip rfl
  | client u d => exact behaves_skip rfl
  | desktop u =>
      apply behaves_act_then (allowed_of_free (.desktopCall rfl rfl) rfl)
      intro _
      exact behaves_act (allowed_of_free (.privately rfl) rfl) fun _ => rfl

theorem handlePushSubscribe_behaves {env : Env} {subscription : Json.Value} :
    Behaves c frame role [] (handlePushSubscribe env subscription role) := by
  cases role with
  | unauthenticated => exact behaves_skip rfl
  | desktop u => exact behaves_skip rfl
  | client u d =>
      unfold handlePushSubscribe
      by_cases hdesktop : d = "desktop"
      · simp only [if_pos hdesktop]
        exact behaves_skip rfl
      · simp only [if_neg hdesktop]
        cases (subscription.get? "endpoint").bind Json.asStr? with
        | none => exact behaves_skip rfl
        | some endpoint =>
            by_cases hvalid : isValidPushEndpoint env.parseUrl endpoint = true
            · by_cases hsize : subscription.toText.utf8ByteSize ≤ maxPushSubscriptionLen
              · simp only [if_pos hvalid, if_pos hsize]
                exact behaves_act (allowed_of_free (.privately rfl) rfl) fun _ => rfl
              · simp only [if_pos hvalid, if_neg hsize]
                exact behaves_skip rfl
            · simp only [if_neg hvalid]
              exact behaves_skip rfl

theorem handlePushUnsubscribe_behaves :
    Behaves c frame role [] (handlePushUnsubscribe role) := by
  cases role with
  | unauthenticated => exact behaves_skip rfl
  | desktop u => exact behaves_skip rfl
  | client u d => exact behaves_act (allowed_of_free (.privately rfl) rfl) fun _ => rfl

theorem handleVapidKeyRequest_behaves :
    Behaves c frame role [] (handleVapidKeyRequest role c) := by
  have hreply : Behaves c frame role []
      (ask .publicKey >>= fun key => send c (.text (.vapidPublicKey key))) :=
    behaves_ask (allowed_of_free (.privately rfl) rfl) fun _ => behaves_reply rfl
  cases role with
  | unauthenticated => exact behaves_skip rfl
  | desktop u => exact hreply
  | client u d => exact hreply

theorem handleDeviceApproved_behaves {d : String} :
    Behaves c frame role [] (handleDeviceApproved d role) := by
  cases role with
  | unauthenticated => exact behaves_skip rfl
  | client u d => exact behaves_skip rfl
  | desktop u =>
      apply behaves_ask (allowed_of_free (.desktopCall rfl rfl) rfl)
      intro taken
      cases taken with
      | none => exact behaves_skip rfl
      | some pending =>
          let taken : CallAnswer := ⟨.broker (.takePendingDevice u d), some pending⟩
          apply behaves_act_then (allowed_of_free (.privately rfl) rfl)
          intro _
          apply behaves_ask (allowed_of_free (.privately rfl) rfl)
          intro token
          cases token with
          | error e => exact behaves_skip rfl
          | ok token =>
              apply behaves_act_then
              · refine allowed_of_free (.route rfl ⟨taken, ?_, rfl⟩) rfl
                iterate 2 apply List.mem_cons_of_mem
                exact List.mem_cons_self
              · intro _
                apply behaves_ask (allowed_of_free (.privately rfl) rfl)
                intro connectedAt
                refine behaves_act (allowed_of_free (.approve rfl ⟨taken, ?_, rfl⟩) rfl)
                  fun _ => rfl
                iterate 4 apply List.mem_cons_of_mem
                exact List.mem_cons_self

theorem handleDeviceRejected_behaves {d : String} :
    Behaves c frame role [] (handleDeviceRejected d role) := by
  cases role with
  | unauthenticated => exact behaves_skip rfl
  | client u d => exact behaves_skip rfl
  | desktop u =>
      apply behaves_ask (allowed_of_free (.desktopCall rfl rfl) rfl)
      intro taken
      cases taken with
      | none => exact behaves_skip rfl
      | some pending =>
          apply behaves_act_then
          · exact allowed_of_free (.route rfl ⟨_, List.mem_cons_self, rfl⟩) rfl
          · intro _
            exact behaves_act (allowed_of_free (.privately rfl) rfl) fun _ => rfl

theorem handleConnectedDevicesRequest_behaves :
    Behaves c frame role [] (handleConnectedDevicesRequest role c) := by
  cases role with
  | unauthenticated => exact behaves_skip rfl
  | client u d => exact behaves_skip rfl
  | desktop u =>
      apply behaves_ask (allowed_of_free (.desktopCall rfl rfl) rfl)
      intro _
      exact behaves_reply rfl

theorem handleDeviceRevoke_behaves {d : String} :
    Behaves c frame role [] (handleDeviceRevoke d role c) := by
  cases role with
  | unauthenticated => exact behaves_skip rfl
  | client u d => exact behaves_skip rfl
  | desktop u =>
      apply behaves_act_then (allowed_of_free (.desktopCall rfl rfl) rfl)
      intro _
      apply behaves_act_then (allowed_of_free (.desktopCall rfl rfl) rfl)
      intro _
      apply behaves_act_then (allowed_of_free (.privately rfl) rfl)
      intro _
      exact behaves_reply rfl

theorem handleControlMessage_behaves {env : Env} {ip : String}
    (hframe : frame.control? = some msg) :
    Behaves c frame role [] (handleControlMessage env msg role c ip) := by
  cases msg
  case ping => exact behaves_reply rfl
  case auth version username passwordHash totp deviceToken desktopKey =>
      unfold handleControlMessage
      by_cases hvalid : isValidUsername username = true
      · simp only [if_pos hvalid]
        exact handleAuth_behaves ⟨_, _, _, _, _, hframe⟩ rfl passwordHash totp deviceToken
          desktopKey
      · simp only [if_neg hvalid]
        exact behaves_reply rfl
  case desktopRegister => exact handleDesktopRegister_behaves hframe
  case sessionSpawnRequest => exact forwardToDesktop_behaves hframe rfl
  case sessionCloseRequest => exact forwardToDesktop_behaves hframe rfl
  case ptyResize => exact forwardToDesktop_behaves hframe rfl
  case fileUploadBegin => exact handleFileUploadBegin_behaves hframe
  case fileUploadEnd => exact handleFileUploadEnd_behaves hframe
  case fileUploadResult => exact handleFileUploadResult_behaves
  case fileDownloadRequest => exact handleFileDownloadRequest_behaves hframe
  case fileDownloadBegin => exact handleFileDownloadBegin_behaves
  case fileDownloadEnd => exact handleFileDownloadEnd_behaves
  case sessionListRequest => exact handleSessionListRequest_behaves hframe
  case replayBegin => exact handleReplayBegin_behaves hframe
  case supervisorQuery => exact handleSupervisorQuery_behaves hframe
  case supervisorResult => exact handleSupervisorReply_behaves
  case supervisorError => exact handleSupervisorReply_behaves
  case sessionRenamed => exact handleSessionRenamed_behaves hframe
  case sessionCreated => exact forwardToClients_behaves
  case sessionClosed => exact forwardToClients_behaves
  case contextUpdate => exact forwardToClients_behaves
  case ptyResized => exact forwardToClients_behaves
  case sessionList => exact handleSessionList_behaves
  case sessionNotification => exact handleSessionNotification_behaves
  case pushSubscribe => exact handlePushSubscribe_behaves
  case pushUnsubscribe => exact handlePushUnsubscribe_behaves
  case vapidKeyRequest => exact handleVapidKeyRequest_behaves
  case deviceApproved => exact handleDeviceApproved_behaves
  case deviceRejected => exact handleDeviceRejected_behaves
  case connectedDevicesRequest => exact handleConnectedDevicesRequest_behaves
  case deviceRevoke => exact handleDeviceRevoke_behaves
  all_goals exact behaves_skip rfl

end

/-!
### Binary frames
-/

section

variable {c : ConnId} {frame : Inbound} {role : ConnectionRole} {data : Slice}

theorem handleFileChunk_behaves {u d id : String} (hrole : role = .client u d)
    (hframe : frame = .binary data.bytes) :
    Behaves c frame role [] (handleFileChunk data id u c) := by
  have hown : role.account? = some u := by
    rw [hrole]
    rfl
  apply behaves_ask (allowed_of_free (.ownUpload hown rfl) rfl)
  intro decision
  cases decision with
  | forward =>
      exact behaves_act (allowed_of_free (.forwardBytes hrole hframe) rfl) fun _ => rfl
  | overrun => exact behaves_reply rfl
  | drop => exact behaves_skip rfl

theorem handleFileDownloadChunk_behaves {u id : String} (hrole : role = .desktop u) :
    Behaves c frame role [] (handleFileDownloadChunk data id u) := by
  apply behaves_ask (allowed_of_free (.desktopCall hrole rfl) rfl)
  intro decision
  cases decision with
  | forward tx =>
      refine behaves_act (allowed_of_free (.route hrole ?_) rfl) fun _ => rfl
      exact ⟨_, List.mem_cons_self, rfl⟩
  | overrun tx =>
      refine behaves_act (allowed_of_free (.route hrole ?_) rfl) fun _ => rfl
      exact ⟨_, List.mem_cons_self, rfl⟩
  | drop => exact behaves_skip rfl

theorem handleScrollback_behaves {u : String} (hrole : role = .desktop u) :
    Behaves c frame role [] (handleScrollback data u) := by
  apply behaves_ask (allowed_of_free (.desktopCall hrole rfl) rfl)
  intro target
  cases target with
  | none => exact desktopAct_behaves hrole rfl rfl fun _ => rfl
  | some tx =>
      refine behaves_act (allowed_of_free (.route hrole ?_) rfl) fun _ => rfl
      exact ⟨_, List.mem_cons_self, rfl⟩

theorem handleBinaryMessage_behaves (hframe : frame = .binary data.bytes) :
    Behaves c frame role [] (handleBinaryMessage data role c) := by
  unfold handleBinaryMessage
  cases parseBinaryFrame data.bytes with
  | error e => exact behaves_skip rfl
  | ok parsed =>
      rcases parsed with ⟨frameType, id, payload⟩
      cases role with
      | unauthenticated => exact behaves_skip rfl
      | client u d =>
          by_cases hinput : frameType = ptyInput
          · simp only [if_pos hinput]
            exact behaves_act (allowed_of_free (.forwardBytes rfl hframe) rfl) fun _ => rfl
          · by_cases hchunk : frameType = ptyFileChunk
            · simp only [if_neg hinput, if_pos hchunk]
              exact handleFileChunk_behaves rfl hframe
            · simp only [if_neg hinput, if_neg hchunk]
              exact behaves_skip rfl
      | desktop u =>
          by_cases hchunk : frameType = ptyFileChunk
          · simp only [if_pos hchunk]
            exact behaves_act (allowed_of_free (.ownUpload rfl rfl) rfl) fun _ => rfl
          · by_cases hdownload : frameType = ptyFileDownloadChunk
            · simp only [if_neg hchunk, if_pos hdownload]
              exact handleFileDownloadChunk_behaves rfl
            · by_cases houtput : frameType = ptyOutput
              · simp only [if_neg hchunk, if_neg hdownload, if_pos houtput]
                exact desktopAct_behaves rfl rfl rfl fun _ => rfl
              · by_cases hscrollback : frameType = ptyScrollback
                · simp only [if_neg hchunk, if_neg hdownload, if_neg houtput,
                    if_pos hscrollback]
                  exact handleScrollback_behaves rfl
                · simp only [if_neg hchunk, if_neg hdownload, if_neg houtput,
                    if_neg hscrollback]
                  exact behaves_skip rfl

end

theorem processWsMessage_behaves (env : Env) (frame : Inbound) (role : ConnectionRole)
    (c : ConnId) (ip : String) :
    Behaves c frame role [] (processWsMessage env frame role c ip) := by
  cases frame with
  | other => exact behaves_skip rfl
  | text size parsed =>
      unfold processWsMessage
      by_cases hlarge : maxTextMessageSize < size
      · simp only [if_pos hlarge]
        exact behaves_skip rfl
      · simp only [if_neg hlarge]
        cases parsed with
        | none => exact behaves_skip rfl
        | some msg => exact handleControlMessage_behaves (if_neg hlarge)
  | binary data =>
      unfold processWsMessage
      by_cases hlarge : maxBinaryMessageSize < data.length
      · simp only [dif_pos hlarge]
        exact behaves_skip rfl
      · simp only [dif_neg hlarge]
        exact handleBinaryMessage_behaves rfl

end Handler

end CommandRelay
