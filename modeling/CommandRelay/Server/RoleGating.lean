import CommandRelay.Broker.Routing
import CommandRelay.Server.Relay

/-!
# Every frame is gated by the role

What the handler of a frame can do to the broker, under each role its socket may
have.  The handlers of other sockets act in between.
-/

namespace CommandRelay

open Foundation

namespace Broker

def served : List Place :=
  [.uploads, .downloads, .supervisor, .target, .pending]

def Serves (b : Broker) (u : String) (tx : ConnId) : Prop :=
  exists place, place ∈ served ∧ b.Holds u place tx

section

variable {b : Broker} {now : Instant} {u : String} {tx : ConnId} {place : Place}

theorem held_of_account {absent : α} {f : AccountState -> AccountState × α}
    (answers : α -> Prop) (habsent : ¬ answers absent)
    (hf : forall st, answers (f st).2 -> st.Holds place tx)
    (h : answers (b.withAccount u absent f).2) : b.Holds u place tx := by
  unfold withAccount at h
  cases hst : b.account u with
  | none =>
      rw [hst] at h
      exact absurd h habsent
  | some st =>
      rw [hst] at h
      exact ⟨st, hst, hf st h⟩

theorem held_of_owner {f : AccountState -> AccountState × Option ConnId}
    (hf : forall st, (f st).2 = some tx -> st.Holds place tx)
    (h : (b.withAccount u none f).2 = some tx) : b.Holds u place tx :=
  held_of_account (fun r => r = some tx) (by simp) hf h

theorem has_of_live {table : Foundation.Table String α} {keep : α -> Bool} {owner : α -> ConnId}
    {id : String} (h : ((table.retain keep).lookup id).map owner = some tx) :
    table.Has fun e => owner e = tx := by
  rcases Option.map_eq_some_iff.mp h with ⟨e, he, howner⟩
  exact Table.Has.of_retain ⟨id, e, he, howner⟩

theorem downloads_of_chunk {st : AccountState} {id : String} {payload : Slice}
    (h : (st.recordDownloadChunk id payload now).2 = .forward tx ∨
      (st.recordDownloadChunk id payload now).2 = .overrun tx) : st.Holds .downloads tx := by
  unfold AccountState.recordDownloadChunk at h
  cases hentry : (st.gcDownloads now).downloads.lookup id with
  | none => simp [hentry] at h
  | some entry =>
      have howner : entry.owner = tx := by
        by_cases hover : entry.overruns payload now = true
        · simpa [hentry, hover] using h
        · simpa [hentry, hover] using h
      exact Table.Has.of_retain ⟨id, entry, hentry, howner⟩

theorem chunk_of_target {id : String} {payload : Slice} {r : DownloadChunkDecision}
    (h : target? ⟨.broker (.recordDownloadChunk u id payload), r⟩ = some tx) :
    r = .forward tx ∨ r = .overrun tx := by
  cases r with
  | forward t => exact Or.inl (congrArg _ (Option.some.inj h))
  | overrun t => exact Or.inr (congrArg _ (Option.some.inj h))
  | drop => cases h

def targetPlace : BrokerCall -> Place
  | .resolveUpload .. => .uploads
  | .noteDownloadBegin .. | .recordDownloadChunk .. | .resolveDownload .. => .downloads
  | .takePendingDevice .. => .pending
  | _ => .target

/-- An answer of the broker points the desktop's handler to a connection that the
account refers to. -/
theorem held_of_target {op : BrokerCall} (hu : op.desktopSide? = some u)
    (h : target? ⟨.broker op, (b.exec now op).2⟩ = some tx) : b.Holds u (targetPlace op) tx := by
  cases op
  case resolveUpload v id =>
      cases hu
      exact held_of_owner (fun st hst => has_of_live hst) h
  case noteDownloadBegin v id size =>
      cases hu
      exact held_of_owner (fun st hst => has_of_live hst) h
  case resolveDownload v id =>
      cases hu
      exact held_of_owner (fun st hst => has_of_live hst) h
  case recordDownloadChunk v id payload =>
      cases hu
      exact held_of_account
        (fun r => r = DownloadChunkDecision.forward tx ∨ r = .overrun tx) (by simp)
        (fun st hst => downloads_of_chunk hst) (chunk_of_target h)
  case endReplay v =>
      cases hu
      refine held_of_owner ?_ h
      intro st hst
      exact Option.map_eq_some_iff.mp hst
  case replayTarget v =>
      cases hu
      rcases Option.bind_eq_some_iff.mp h with ⟨st, hst, htarget⟩
      exact ⟨st, hst, Option.map_eq_some_iff.mp htarget⟩
  case takePendingDevice v id =>
      cases hu
      rcases Option.map_eq_some_iff.mp h with ⟨p, hp, htx⟩
      rcases pends_of_taken hp with ⟨⟨st, hst, hmem⟩, _⟩
      exact ⟨st, hst, p, hmem, htx⟩
  all_goals cases h

theorem serves_of_target {op : BrokerCall} (hu : op.desktopSide? = some u)
    (h : target? ⟨.broker op, (b.exec now op).2⟩ = some tx) : b.Serves u tx :=
  ⟨targetPlace op, by cases op <;> simp [targetPlace, served], held_of_target hu h⟩

end

end Broker

namespace Inbound

/-- The frame authenticates, or registers a desktop. -/
def ChangesRole (frame : Inbound) : Prop :=
  (exists u, frame.Authenticates u) ∨
    exists version capabilities,
      frame.control? = some (.desktopRegister version capabilities)

end Inbound

/-!
## One call
-/

section

variable {c : ConnId} {frame : Inbound} {role : ConnectionRole} {past : List CallAnswer}

theorem Permitted.subject {op : BrokerCall} {u : String}
    (h : Permitted c frame role past (.broker op)) (hframe : ¬ frame.ChangesRole)
    (hu : op.subject? = some u) : role.account? = some u := by
  cases h
  case privately hcall => cases hcall
  case tokenClient v info hauth hrole => exact absurd (Or.inl ⟨v, hauth⟩) hframe
  case enrol v pending hauth htx => exact absurd (Or.inl ⟨v, hauth⟩) hframe
  case registerDesktop v d version capabilities hrole hregister =>
      exact absurd (Or.inr ⟨version, capabilities, hregister⟩) hframe
  case ownUpload v hrole hcall =>
      rw [hrole]
      cases op <;> simp [BrokerCall.ownUpload?, BrokerCall.subject?] at hcall hu
      all_goals rw [← hu, hcall.1]
  case desktopCall v hrole hcall =>
      rw [hrole]
      cases op <;> simp [BrokerCall.desktopSide?, BrokerCall.subject?] at hcall hu
      all_goals rw [← hu, ← hcall]; rfl
  case approve v tx info hrole htarget =>
      cases hu
      rw [hrole]
      rfl
  case beginReplay v hrole hreplay =>
      cases hu
      rw [hrole]
      rfl
  case finishUpload v d id text hrole hend hfirst =>
      cases hu
      rw [hrole]
      rfl
  case resolveOffline v d id text hrole hend hoffline =>
      cases hu
      rw [hrole]
      rfl
  case requestDownload v d id session path hrole hrequest =>
      cases hu
      rw [hrole]
      rfl
  case requestList v d hrole hrequest =>
      cases hu
      rw [hrole]
      rfl
  case query v d id kind session text fingerprint hrole hquery =>
      cases hu
      rw [hrole]
      rfl
  all_goals cases hu

theorem not_reaches_ownUpload {op : BrokerCall} {b : Broker} {tx : ConnId}
    {own : String × ConnId} (h : op.ownUpload? = some own) : ¬ op.Reaches b tx := by
  intro hreach
  cases op <;> first | exact (hreach : False).elim | cases h

theorem target_ownUpload {op : BrokerCall} {r : op.Reply} {own : String × ConnId}
    (h : op.ownUpload? = some own) : target? ⟨.broker op, r⟩ = none := by
  cases op <;> first | rfl | cases h

theorem Permitted.unauthenticated {op : BrokerCall}
    (h : Permitted c frame .unauthenticated past (.broker op)) (hframe : ¬ frame.ChangesRole) :
    (exists msg, op = .send c msg) ∨ exists u, op = .isDesktopOnline u := by
  cases h
  case reply msg => exact Or.inl ⟨msg, rfl⟩
  case online u => exact Or.inr ⟨u, rfl⟩
  case privately hcall => cases hcall
  case tokenClient v info hauth hrole => exact absurd (Or.inl ⟨v, hauth⟩) hframe
  case enrol v pending hauth htx => exact absurd (Or.inl ⟨v, hauth⟩) hframe
  case announce v d name ip hauth => exact absurd (Or.inl ⟨v, hauth⟩) hframe
  case ownUpload v hrole hcall => cases hrole
  all_goals contradiction

theorem Permitted.client_reaches {op : BrokerCall} {b : Broker} {u d : String} {tx : ConnId}
    (h : Permitted c frame (.client u d) past (.broker op)) (hframe : ¬ frame.ChangesRole)
    (hreach : op.Reaches b tx) : tx = c ∨ b.Holds u .desktop tx := by
  cases h
  case privately hcall => cases hcall
  case reply msg => exact Or.inl hreach
  case tokenClient v info hauth hrole => exact absurd (Or.inl ⟨v, hauth⟩) hframe
  case announce v d' name ip hauth => exact absurd (Or.inl ⟨v, hauth⟩) hframe
  case registerDesktop v d' version capabilities hrole hregister =>
      exact absurd (Or.inr ⟨version, capabilities, hregister⟩) hframe
  case forward v d' msg hrole hmsg hplain =>
      cases hrole
      exact Or.inr hreach
  case forwardBytes v d' data hrole hdata =>
      cases hrole
      exact Or.inr hreach
  case forwardEnd v d' id text hrole hend hdone =>
      cases hrole
      exact Or.inr hreach
  case forwardQuery v d' id kind session text fingerprint hrole hquery hdecided =>
      cases hrole
      exact Or.inr hreach
  case ownUpload v hrole hcall => exact absurd hreach (not_reaches_ownUpload hcall)
  case desktopCall v hrole hcall => cases hrole
  case route v tx' msg hrole htarget => cases hrole
  case approve v tx' info hrole htarget => cases hrole
  all_goals cases hreach

theorem Permitted.desktop_reaches {op : BrokerCall} {b : Broker} {u : String} {tx : ConnId}
    (h : Permitted c frame (.desktop u) past (.broker op))
    (hframe : forall v, ¬ frame.Authenticates v)
    (hreach : op.Reaches b tx) :
    tx = c ∨ b.Holds u .clients tx ∨ b.Holds u .supervisor tx ∨
      exists a, a ∈ past ∧ target? a = some tx := by
  cases h
  case privately hcall => cases hcall
  case reply msg => exact Or.inl hreach
  case tokenClient v info hauth hrole => exact absurd hauth (hframe v)
  case announce v d' name ip hauth => exact absurd hauth (hframe v)
  case registerDesktop v d' version capabilities hrole hregister => cases hrole
  case forward v d' msg hrole hmsg hplain => cases hrole
  case forwardBytes v d' data hrole hdata => cases hrole
  case forwardEnd v d' id text hrole hend hdone => cases hrole
  case forwardQuery v d' id kind session text fingerprint hrole hquery hdecided => cases hrole
  case ownUpload v hrole hcall => exact absurd hreach (not_reaches_ownUpload hcall)
  case desktopCall v hrole hcall =>
      cases hrole
      cases op
      case resolveSupervisor v' id msg =>
          cases hcall
          exact Or.inr (Or.inr (Or.inl hreach))
      case broadcastToClients v' msg =>
          cases hcall
          exact Or.inr (Or.inl hreach)
      case sendToClient v' d' msg =>
          cases hcall
          exact Or.inr (Or.inl hreach)
      all_goals first | exact (hreach : False).elim | cases hcall
  case route v tx' msg hrole htarget =>
      cases hreach
      exact Or.inr (Or.inr (Or.inr htarget))
  case approve v tx' info hrole htarget =>
      cases hreach
      exact Or.inr (Or.inr (Or.inr htarget))
  all_goals cases hreach

end

namespace Relay

variable {env : Env} {auth : AuthManager} {database : Database} {labels : List RelayLabel}
  {s s' : Relay} {c : ConnId} {frame : Inbound} {role : ConnectionRole}
  {past : List CallAnswer} {task : Handler Unit}

/-- While the handler was at work on the frame that the socket received last, the account
referred to the connection for a transfer, a query, a burst or an enrolment. -/
def ServedMeanwhile (env : Env) (auth : AuthManager) (database : Database)
    (labels : List RelayLabel) (c : ConnId) (frame : Inbound) (u : String) (tx : ConnId) :
    Prop :=
  PassesSince env auth database labels c fun t =>
    (exists role past task, t.activity c = .handling frame role past task) ∧
      t.broker.Serves u tx

/-- What a call of the handler of a frame does under each role of its socket. -/
structure Gated (env : Env) (auth : AuthManager) (database : Database)
    (labels : List RelayLabel) (s s' : Relay) (c : ConnId) (frame : Inbound) : Prop where
  others : forall v, (s.role c).account? ≠ some v -> s'.account v = s.account v
  unauthenticated : s.role c = .unauthenticated ->
    s'.broker = s.broker ∨ exists msg, s'.broker = (s.broker.send c msg).1
  client : forall u d, s.role c = .client u d ->
    Broker.Enqueues (fun tx => tx = c ∨ s.broker.Holds u .desktop tx) s.broker s'.broker
  desktop : forall u, s.role c = .desktop u ->
    Broker.Enqueues (fun tx => tx = c ∨ s.broker.Holds u .clients tx ∨
      ServedMeanwhile env auth database labels c frame u tx) s.broker s'.broker

theorem role_of_handling (hrun : Runs env auth database labels s)
    (hact : s.activity c = .handling frame role past task) (hframe : ¬ frame.ChangesRole) :
    s.role c = role := by
  rw [(sound_of_runs hrun).role hact]
  refine roleOf_eq fun a ha new hcall => ?_
  rcases permitted_of_past hrun hact ha with ⟨older, hpermitted⟩
  rw [hcall] at hpermitted
  cases hpermitted with
  | privately h => cases h
  | keyRole hauth hkey => exact hframe (Or.inl ⟨_, hauth⟩)
  | tokenRole hauth hdevice => exact hframe (Or.inl ⟨_, hauth⟩)
  | desktopRole hclient hregister hdone => exact hframe (Or.inr ⟨_, _, hregister⟩)

theorem served_of_target {u : String} {tx : ConnId} (hrun : Runs env auth database labels s)
    (hact : s.activity c = .handling frame (.desktop u) past task) {a : CallAnswer}
    (ha : a ∈ past) (htarget : target? a = some tx) :
    ServedMeanwhile env auth database labels c frame u tx := by
  rcases past_since hrun hact ha with
    ⟨before, after, t, hlabels, hbefore, ⟨ambient, older, next, hasked, hanswer⟩, hsince⟩
  refine ⟨before, after, t, hlabels, hbefore, ⟨⟨_, older, _, hasked⟩, ?_⟩, hsince⟩
  have hpermitted := ((sound_of_runs hbefore).behaves hasked).1.permitted
  rcases a with ⟨call, r⟩
  cases call
  case broker op =>
      have hr : r = (t.broker.exec ambient.now op).2 := hanswer
      rw [hr] at htarget
      cases hpermitted
      case desktopCall v hrole hcall =>
          cases hrole
          exact Broker.serves_of_target hcall htarget
      case ownUpload v hrole hcall =>
          rw [target_ownUpload hcall] at htarget
          cases htarget
      all_goals contradiction
  all_goals cases htarget

theorem gated_perform (hrun : Runs env auth database labels s) {a : Ambient} {call : Call}
    {next : call.Reply -> Handler Unit}
    (hact : s.activity c = .handling frame role past (.invoke call next))
    (hframe : ¬ frame.ChangesRole) (hbroker : s'.broker = (s.perform env c a call).broker) :
    Gated env auth database labels s s' c frame := by
  have hrole := role_of_handling hrun hact hframe
  have hpermitted := ((sound_of_runs hrun).behaves hact).1.permitted
  rcases broker_perform_cases env s c a call with ⟨op, rfl⟩ | ⟨-, hsame⟩
  · have hexec : s'.broker = (s.broker.exec a.now op).1 := hbroker
    refine
      { others := ?_
        unauthenticated := ?_
        client := ?_
        desktop := ?_ }
    · intro v hv
      rw [hrole] at hv
      show s'.broker.account v = _
      rw [hexec]
      exact Broker.account_exec_other fun hu => hv (hpermitted.subject hframe hu)
    · intro hunauthenticated
      rw [hunauthenticated] at hrole
      rw [← hrole] at hpermitted
      rw [hexec]
      rcases hpermitted.unauthenticated hframe with ⟨msg, rfl⟩ | ⟨u, rfl⟩
      · exact Or.inr ⟨msg, rfl⟩
      · exact Or.inl rfl
    · intro u d hclient
      rw [← hrole, hclient] at hpermitted
      rw [hexec]
      exact (Broker.enqueues_exec s.broker a.now op).mono fun tx hreach =>
        hpermitted.client_reaches hframe hreach
    · intro u hdesktop
      rw [← hrole, hdesktop] at hpermitted hact
      rw [hexec]
      refine (Broker.enqueues_exec s.broker a.now op).mono fun tx hreach => ?_
      rcases hpermitted.desktop_reaches (fun v hauth => hframe (Or.inl ⟨v, hauth⟩)) hreach with
        hself | hclient | hquery | ⟨answered, hmem, htarget⟩
      · exact Or.inl hself
      · exact Or.inr (Or.inl hclient)
      · have hserved : s.broker.Serves u tx := ⟨.supervisor, by decide, hquery⟩
        exact Or.inr (Or.inr (passesSince_of_runs hrun ⟨⟨_, past, _, hact⟩, hserved⟩))
      · exact Or.inr (Or.inr (served_of_target hrun hact hmem htarget))
  · have hsame : s'.broker = s.broker :=
      hbroker.trans hsame
    exact
      { others := fun v _ => congrArg (fun b => b.account v) hsame
        unauthenticated := fun _ => Or.inl hsame
        client := fun _ _ _ => Broker.enqueues_of_eq (congrArg Broker.delivered hsame)
        desktop := fun _ _ => Broker.enqueues_of_eq (congrArg Broker.delivered hsame) }

/-- The label is a step of the connection on a frame that it receives or handles. -/
inductive Processing (s : Relay) (c : ConnId) (frame : Inbound) : RelayLabel -> Prop where
  | receive : Processing s c frame (.receive c frame)
  | call {a receivedAs answers rest}
      (hact : s.activity c = .handling frame receivedAs answers rest) :
      Processing s c frame (.resume c a)
  | returned {receivedAs answers rest}
      (hact : s.activity c = .handling frame receivedAs answers rest) :
      Processing s c frame (.finish c)

/--
In every run, every step of the processing of a frame other than an authentication
and a registration is gated by the role of its socket.
-/
theorem role_gating (hrun : Runs env auth database labels s) (hframe : ¬ frame.ChangesRole)
    {l : RelayLabel} (hprocessing : Processing s c frame l) (hnext : step env s l = some s') :
    Gated env auth database labels s s' c frame := by
  have hsilent : s'.broker = s.broker -> Gated env auth database labels s s' c frame :=
    fun hsame =>
      { others := fun v _ => congrArg (fun b => b.account v) hsame
        unauthenticated := fun _ => Or.inl hsame
        client := fun _ _ _ => Broker.enqueues_of_eq (congrArg Broker.delivered hsame)
        desktop := fun _ _ => Broker.enqueues_of_eq (congrArg Broker.delivered hsame) }
  cases hprocessing with
  | receive =>
      cases hact : s.activity c with
      | idle =>
          simp only [step, hact, Option.some.injEq] at hnext
          exact hsilent (by rw [← hnext, broker_setActivity])
      | _ => simp [step, hact] at hnext
  | call hact =>
      rename_i a role past task
      simp only [step] at hnext
      split at hnext
      · unfold resume at hnext
        rw [hact] at hnext
        cases task with
        | done value => cases hnext
        | invoke call next =>
            have hbroker : s'.broker = (s.perform env c a call).broker := by
              cases call <;> (cases hnext; rfl)
            exact gated_perform hrun hact hframe hbroker
      · cases hnext
  | returned hact =>
      have hnext : s.finish c = some s' := hnext
      unfold finish at hnext
      rw [hact] at hnext
      split at hnext
      · cases hnext
        exact hsilent (broker_setActivity s c _)
      · rename_i hclosing
        cases hclosing
      · cases hnext

def closeRequest : Inbound :=
  Deployment.message (.sessionCloseRequest "s")

def beforeRequest : List RelayLabel :=
  Deployment.open_ 1 :: Deployment.keyAuth 1 ++ Deployment.register 1 ++
    Deployment.open_ 2 :: Deployment.tokenAuth 2

theorem role_gating_example : exists s s',
    Runs Deployment.env Deployment.auth Deployment.database
      (beforeRequest ++ [.receive 2 closeRequest]) s ∧
      step Deployment.env s (.resume 2 (Deployment.ambient 0)) = some s' ∧
      Gated Deployment.env Deployment.auth Deployment.database
        (beforeRequest ++ [.receive 2 closeRequest]) s s' 2 closeRequest := by
  have hend : (Deployment.after (beforeRequest ++
      [.receive 2 closeRequest, .resume 2 (Deployment.ambient 0)])).isSome = true := by
    decide +kernel
  rcases Option.isSome_iff_exists.mp hend with ⟨s', hs'⟩
  rcases follow_append_eq_some.mp hs' with ⟨t, ht, hrest⟩
  rcases follow_cons_eq_some.mp hrest with ⟨s, hreceive, hcall⟩
  rcases follow_cons_eq_some.mp hcall with ⟨_, hresume, _⟩
  have hrun := runs_snoc ht hreceive
  have hact : exists role past task, s.activity 2 = .handling closeRequest role past task := by
    cases hidle : t.activity 2 with
    | idle =>
        simp only [step, hidle, Option.some.injEq] at hreceive
        rw [← hreceive, activity_setActivity_same]
        exact ⟨_, _, _, rfl⟩
    | _ => simp [step, hidle] at hreceive
  rcases hact with ⟨role, past, task, hact⟩
  have hframe : ¬ closeRequest.ChangesRole := by
    rintro (⟨u, _, _, _, _, _, h⟩ | ⟨_, _, h⟩) <;> cases h
  exact ⟨s, _, hrun, hresume, role_gating hrun hframe (.call hact) hresume⟩

end Relay

end CommandRelay
