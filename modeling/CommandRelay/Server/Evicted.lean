import CommandRelay.Broker.Isolation
import CommandRelay.Server.Relay

/-!
# The evicted desktop

A desktop connection that has been replaced keeps its role until its socket closes,
and its frames are dispatched on that role.  This section says exactly which of its
frames leave its account and the other connections alone.
-/

namespace CommandRelay

open Foundation

/-!
## Processing without interruption
-/

namespace Handler

/-- The application after a handler has made all its calls, one for each of the
surroundings and none left over. -/
def complete (env : Env) : Handler Unit -> List Ambient -> App -> Option App
  | .done _, [], app => some app
  | .invoke call next, a :: rest, app =>
      complete env (next (app.exec env a call).2) rest (app.exec env a call).1
  | .done _, _ :: _, _ => none
  | .invoke _ _, [], _ => none

section

variable {env : Env} {as : List Ambient} {app app' : App}

theorem complete_skip (h : complete env skip as app = some app') : app' = app := by
  cases as with
  | nil =>
      cases h
      rfl
  | cons a rest => cases h

theorem complete_invoke {call : Call} {next : call.Reply -> Handler Unit}
    (h : complete env (.invoke call next) as app = some app') : exists a rest,
    as = a :: rest ∧
      complete env (next (app.exec env a call).2) rest (app.exec env a call).1 = some app' := by
  cases as with
  | nil => cases h
  | cons a rest => exact ⟨a, rest, rfl, h⟩

theorem complete_act {call : Call} (h : complete env (act call) as app = some app') :
    exists a, as = [a] ∧ app' = (app.exec env a call).1 := by
  rcases complete_invoke h with ⟨a, rest, has, hrest⟩
  cases rest with
  | nil =>
      cases hrest
      exact ⟨a, has, rfl⟩
  | cons _ _ => cases hrest

theorem complete_private {call : Call} {next : call.Reply -> Handler Unit}
    (hprivate : forall op, call ≠ .broker op)
    (h : complete env (.invoke call next) as app = some app') : exists r rest app₁,
    app₁.broker = app.broker ∧ complete env (next r) rest app₁ = some app' := by
  rcases complete_invoke h with ⟨a, rest, _, hrest⟩
  exact ⟨_, rest, _, App.broker_exec_other hprivate, hrest⟩

theorem complete_sendTo {tx : Option ConnId} {msg : WsMessage}
    (h : complete env (sendTo tx msg) as app = some app') :
    app'.broker = app.broker.sendAll tx.toList msg := by
  cases tx with
  | none =>
      rw [complete_skip h]
      rfl
  | some tx =>
      rcases complete_act h with ⟨a, _, rfl⟩
      rfl

end

end Handler

namespace Relay

variable {env : Env}

/-- The steps of a socket that handles a frame while the other sockets wait. -/
def processing (c : ConnId) (frame : Inbound) (as : List Ambient) : List RelayLabel :=
  .receive c frame :: (as.map (.resume c) ++ [.finish c])

theorem not_finished_of_panicked {s : Relay} {c : ConnId} {as : List Ambient} {s' : Relay}
    (hact : s.activity c = .panicked) :
    follow (step env) s (as.map (.resume c) ++ [.finish c]) ≠ some s' := by
  cases as with
  | nil =>
      intro h
      rcases follow_cons_eq_some.mp h with ⟨m, hm, _⟩
      simp [step, finish, hact] at hm
  | cons a rest =>
      intro h
      rcases follow_cons_eq_some.mp h with ⟨m, hm, _⟩
      simp [step, resume, hact] at hm

theorem resume_call {s m : Relay} {c : ConnId} {a : Ambient} {frame : Inbound}
    {role : ConnectionRole} {past : List CallAnswer} {call : Call}
    {next : call.Reply -> Handler Unit}
    (hact : s.activity c = .handling frame role past (.invoke call next))
    (h : s.resume env c a = some m) :
    m.activity c = .panicked ∨
      m.activity c = .handling frame role (⟨call, s.answer env a call⟩ :: past)
        (next (s.answer env a call)) ∧ m.app = (s.app.exec env a call).1 := by
  cases call
  case panic =>
      simp only [resume, hact] at h
      cases h
      exact Or.inl (activity_setActivity_same _ _ _)
  all_goals
    simp only [resume, hact] at h
    cases h
    exact Or.inr ⟨activity_setActivity_same _ _ _, rfl⟩

theorem complete_of_handled {s s' : Relay} {c : ConnId} {as : List Ambient} {frame : Inbound}
    {role : ConnectionRole} {past : List CallAnswer} {task : Handler Unit}
    (hact : s.activity c = .handling frame role past task)
    (h : follow (step env) s (as.map (.resume c) ++ [.finish c]) = some s') :
    task.complete env as s.app = some s'.app := by
  induction as generalizing s past task with
  | nil =>
      rcases follow_cons_eq_some.mp h with ⟨m, hm, hrest⟩
      cases hrest
      cases task with
      | done value =>
          simp only [step, finish, hact] at hm
          cases hm
          rfl
      | invoke call next => simp [step, finish, hact] at hm
  | cons a rest ih =>
      rcases follow_cons_eq_some.mp h with ⟨m, hm, hrest⟩
      cases task with
      | done value => simp [step, resume, hact] at hm
      | invoke call next =>
          by_cases hclock : s.clock ≤ a.now
          · simp only [step, if_pos hclock] at hm
            rcases resume_call hact hm with hpanicked | ⟨hact', happ⟩
            · exact absurd hrest (not_finished_of_panicked hpanicked)
            · have hcomplete := ih hact' hrest
              rw [happ] at hcomplete
              exact hcomplete
          · simp [step, if_neg hclock] at hm

theorem complete_of_processing {s s' : Relay} {c : ConnId} {frame : Inbound}
    {as : List Ambient} (h : follow (step env) s (processing c frame as) = some s') :
    (Handler.processWsMessage env frame (s.role c) c (s.sockets c).ip).complete env as s.app =
      some s'.app := by
  rcases follow_cons_eq_some.mp h with ⟨m, hm, hrest⟩
  cases hact : s.activity c with
  | idle =>
      simp only [step, hact] at hm
      cases hm
      have hcomplete := complete_of_handled (activity_setActivity_same _ _ _) hrest
      exact hcomplete
  | _ => simp [step, hact] at hm

end Relay

/-!
## What a frame leaves alone
-/

namespace Broker

/-- Between two states of the broker an account has stayed as it was but for the uploads
of a connection, and the other connections have got nothing. -/
def Untouched (c : ConnId) (u : String) (b b' : Broker) : Prop :=
  (forall st, b.account u = some st -> exists st', b'.account u = some st' ∧ st.SameBut c st') ∧
    b'.others c = b.others c

section

variable {c tx : ConnId} {u : String} {b b₁ b' : Broker} {st st₁ : AccountState}
  {msg : WsMessage}

theorem Untouched.refl (b : Broker) : Untouched c u b b :=
  ⟨fun st hst => ⟨st, hst, AccountState.SameBut.refl st⟩, rfl⟩

theorem Untouched.trans (h : Untouched c u b b₁) (h' : Untouched c u b₁ b') :
    Untouched c u b b' := by
  refine ⟨fun st hst => ?_, h'.2.trans h.2⟩
  rcases h.1 st hst with ⟨st₁, hst₁, hsame⟩
  rcases h'.1 st₁ hst₁ with ⟨st', hst', hsame'⟩
  exact ⟨st', hst', hsame.trans hsame'⟩

theorem Untouched.symm (hst : b.account u = some st) (h : Untouched c u b b₁) :
    Untouched c u b₁ b := by
  refine ⟨fun st₁ hst₁ => ?_, h.2.symm⟩
  rcases h.1 st hst with ⟨st', hst', hsame⟩
  rw [hst₁] at hst'
  cases hst'
  exact ⟨st, hst, hsame.symm⟩

theorem untouched_iff_of_left (hst : b.account u = some st) (h : Untouched c u b b₁) :
    Untouched c u b b' <-> Untouched c u b₁ b' :=
  ⟨fun h' => (h.symm hst).trans h', h.trans⟩

theorem untouched_iff_of_right (hst₁ : b₁.account u = some st₁) (h : Untouched c u b₁ b') :
    Untouched c u b b' <-> Untouched c u b b₁ :=
  ⟨fun h' => h'.trans (h.symm hst₁), fun h' => h'.trans h⟩

theorem untouched_iff (hst : b.account u = some st) (hst₁ : b'.account u = some st₁) :
    Untouched c u b b' <-> st.SameBut c st₁ ∧ b'.others c = b.others c := by
  unfold Untouched
  rw [hst, hst₁]
  simp

theorem untouched_transition (op : BrokerCall) (now : Instant) (hst : b.account u = some st)
    (hsubject : op.subject? = some u)
    (hsilent : (b.exec now op).1.others c = b.others c) :
    Untouched c u b (b.exec now op).1 <-> st.SameBut c (st.after b.alive now op) := by
  rw [untouched_iff hst (account_exec_of_some op now hst hsubject)]
  exact ⟨And.left, fun h => ⟨h, hsilent⟩⟩

theorem untouched_sendAll {txs : List ConnId} (hgrows : Grows c b b₁) :
    Untouched c u b (b₁.sendAll txs msg) <->
      Untouched c u b b₁ ∧ forall tx, tx ∈ txs -> b₁.Unheard c tx := by
  have hsent : Grows c _ _ := grows_relation.toSendRelation.sendAll b₁ txs msg
  unfold Untouched
  rw [others_trans_iff hgrows hsent, others_sendAll_iff, account_sendAll, and_assoc]

theorem untouched_broadcast (msg : WsMessage) (hgrows : Grows c b b₁)
    (hst₁ : b₁.account u = some st₁) :
    Untouched c u b (b₁.broadcastToClients u msg) <->
      Untouched c u b b₁ ∧ forall tx, tx ∈ st₁.clientTxs ->
        if msg.isPtyOutput then b₁.Withheld c tx else b₁.Unheard c tx := by
  unfold broadcastToClients
  simp only [hst₁]
  cases hpty : msg.isPtyOutput with
  | true =>
      have hsent : Grows c _ _ := grows_relation.broadcastOutput b₁ st₁.clientTxs msg
      unfold Untouched
      rw [if_pos rfl, others_trans_iff hgrows hsent, others_broadcastOutput_iff,
        account_broadcastOutput, and_assoc]
      simp
  | false =>
      rw [if_neg (by simp), untouched_sendAll hgrows]
      simp

theorem others_withAccount {absent : α} {f : AccountState -> AccountState × α} :
    (b.withAccount u absent f).1.others c = b.others c := by
  unfold withAccount
  cases b.account u with
  | none => rfl
  | some st => rfl

theorem others_withEntry {f : AccountState -> AccountState × α} :
    (b.withEntry u f).1.others c = b.others c := rfl

theorem reply_withAccount {absent : α} {f : AccountState -> AccountState × α}
    (hst : b.account u = some st) : (b.withAccount u absent f).2 = (f st).2 := by
  unfold withAccount
  rw [hst]

end

end Broker

/-!
## The frames that leave everything alone
-/

def Broker.NoneHears (b : Broker) (c : ConnId) (st : AccountState) : Prop :=
  forall tx, tx ∈ st.clientTxs -> b.Unheard c tx

/-- A supervisor reply finds no entry, or one that already holds it for an owner who
cannot receive. -/
def SparesReply (now : Instant) (b : Broker) (st : AccountState) (id : String)
    (reply : ControlMessage) : Prop :=
  st.LiveSupervisor now ∧ forall e, st.supervisorPending.lookup id = some e ->
    b.alive e.owner = false ∧ e.stored = some reply

/-- The control messages of a desktop connection that leave its account and the other
connections alone, in a state and at a time. -/
def ControlMessage.Spares (now : Instant) (b : Broker) (c : ConnId) (st : AccountState) :
    ControlMessage -> Prop
  | .fileUploadBegin _ kind _ size _ _ =>
      kind ≠ "bug_report" ∨ maxBugReportUploadSize < size.toNat ∨
        LiveOthers c now st.uploads
  | .fileUploadEnd id _ | .fileUploadResult id .. =>
      LiveOthers c now st.uploads ∧ FreeOfOthers c id st.uploads
  | .fileDownloadBegin id _ size _ =>
      st.LiveDownloads now ∧ forall e, st.downloads.lookup id = some e ->
        e.declaredSize = some size.toNat ∧ e.lastActivity = now ∧ b.Unheard c e.owner
  | .fileDownloadEnd id .. => st.LiveDownloads now ∧ st.downloads.lookup id = none
  | .replayBegin => st.replayQueue = [] ∧ st.replayTarget = none
  | .sessionList .. => st.replayTarget = none ∧ b.NoneHears c st
  | .supervisorResult id payload => SparesReply now b st id (.supervisorResult id payload)
  | .supervisorError id message => SparesReply now b st id (.supervisorError id message)
  | .sessionRenamed .. | .sessionCreated .. | .sessionClosed _ => b.NoneHears c st
  | .contextUpdate .. | .ptyResized .. | .sessionNotification .. => b.NoneHears c st
  | .deviceApproved d | .deviceRejected d =>
      forall p, p ∈ st.pendingDevices -> p.deviceId ≠ d
  | .deviceRevoke d =>
      (forall k, k ∈ st.clients -> k.info.deviceId ≠ d) ∧
        forall r, r ∈ st.replayQueue -> r.deviceId ≠ d
  | _ => True

def DownloadEntry.Ignores (now : Instant) (payload : Slice) (e : DownloadEntry) : Prop :=
  e.lastActivity = now ∧ addU64 e.bytesForwarded payload.length = e.bytesForwarded ∧
    e.bytesForwarded ≤ e.budget

/-- The binary frames of a desktop connection that leave its account and the other
connections alone. -/
def Slice.Spares (now : Instant) (b : Broker) (c : ConnId) (st : AccountState)
    (data : Slice) : Prop :=
  match parseBinaryFrame data.bytes with
  | .error _ => True
  | .ok (frameType, id, _) =>
      if frameType = ptyFileChunk then LiveOthers c now st.uploads
      else if frameType = ptyFileDownloadChunk then
        st.LiveDownloads now ∧ forall e, st.downloads.lookup id = some e ->
          e.Ignores now (data.drop binaryHeaderLen) ∧ b.Unheard c e.owner
      else if frameType = ptyOutput then forall tx, tx ∈ st.clientTxs -> b.Withheld c tx
      else if frameType = ptyScrollback then
        match st.replayTarget with
        | some r => b.Unheard c r.tx
        | none => b.NoneHears c st
      else True

def firstAt (as : List Ambient) : Instant :=
  (as.head?.map Ambient.now).getD 0

def lastAt (as : List Ambient) : Instant :=
  (as.getLast?.map Ambient.now).getD 0

namespace Inbound

/-- The moment at which the account is swept of idle entries: the last call of the
handler of a `file_upload_end`, and the first call of the others. -/
def sweptAt (frame : Inbound) (as : List Ambient) : Instant :=
  match frame.control? with
  | some (.fileUploadEnd ..) => lastAt as
  | _ => firstAt as

theorem fits_of_not_lt {data : Bytes} (h : ¬ maxBinaryMessageSize < data.length) :
    data.length < 0x8000000000000000 :=
  Nat.lt_of_le_of_lt (Nat.le_of_not_lt h) (by decide)

/-- The frames of a desktop connection that leave its account and the other connections
alone. -/
def Spares (now : Instant) (b : Broker) (c : ConnId) (st : AccountState) : Inbound -> Prop
  | .text size parsed =>
      match (Inbound.text size parsed).control? with
      | none => True
      | some msg => msg.Spares now b c st
  | .binary data =>
      if h : maxBinaryMessageSize < data.length then True
      else
        Slice.Spares now b c st ⟨data, fits_of_not_lt h⟩
  | .other => True

end Inbound

namespace Handler

section

variable {env : Env} {as : List Ambient} {app app' : App} {u : String} {c : ConnId}
  {st : AccountState} {msg : ControlMessage} {ip : String}

open Broker

theorem skip_untouched (h : complete env skip as app = some app') :
    Untouched c u app.broker app'.broker <-> True := by
  rw [complete_skip h]
  exact iff_true_intro (Untouched.refl _)

theorem send_untouched {msg : WsMessage} (h : complete env (send c msg) as app = some app') :
    Untouched c u app.broker app'.broker <-> True := by
  have hsent := @complete_sendTo env as app app' (some c) msg h
  rw [hsent, untouched_sendAll (grows_relation.refl _)]
  apply iff_true_intro
  refine ⟨Untouched.refl _, fun tx htx => Or.inl ?_⟩
  simpa using htx

theorem handleFileUploadBegin_untouched (msg : ControlMessage)
    (hst : app.broker.account u = some st) {id kind : String}
    {size : UInt64}
    (h : complete env (handleFileUploadBegin msg id kind size (.desktop u) c) as app = some app') :
    Untouched c u app.broker app'.broker <->
      kind ≠ "bug_report" ∨ maxBugReportUploadSize < size.toNat ∨
        LiveOthers c (firstAt as) st.uploads := by
  by_cases hgate : kind ≠ "bug_report" ∨ maxBugReportUploadSize < size.toNat
  · simp only [handleFileUploadBegin, if_pos hgate] at h
    rw [skip_untouched h]
    rw [<- or_assoc]
    exact ⟨fun _ => Or.inl hgate, fun _ => trivial⟩
  · simp only [handleFileUploadBegin, if_neg hgate] at h
    rcases complete_invoke h with ⟨a, rest, rfl, hrest⟩
    have hbegin : Untouched c u app.broker
        (app.exec env a (.broker (.beginUpload u id size.toNat c))).1.broker <->
          LiveOthers c a.now st.uploads :=
      (untouched_transition (.beginUpload u id size.toNat c) a.now hst rfl
        others_withEntry).trans AccountState.sameBut_beginUpload
    rw [<- or_assoc, or_iff_right hgate]
    refine Iff.trans ?_ hbegin
    cases hreply : (app.exec env a (.broker (.beginUpload u id size.toNat c))).2 with
    | error reason =>
        rw [hreply] at hrest
        rw [complete_skip hrest]
    | ok value =>
        rw [hreply] at hrest
        rcases complete_act hrest with ⟨a', _, rfl⟩
        have hbegun := account_exec_of_some (.beginUpload u id size.toNat c) a.now hst rfl
        apply untouched_iff_of_right hbegun
        exact (untouched_transition (.markBugReportUpload u id c) a'.now hbegun rfl
          others_withAccount).mpr AccountState.sameBut_markBugReportUpload

theorem untouched_resolveUpload {b b₁ : Broker} {now : Instant} {id : String}
    (hst : b.account u = some st) (h : Untouched c u b b₁) :
    Untouched c u b (b₁.exec now (.resolveUpload u id)).1 <->
      LiveOthers c now st.uploads ∧ FreeOfOthers c id st.uploads := by
  rcases h.1 st hst with ⟨st₁, hst₁, hsame⟩
  rw [untouched_iff_of_left hst h,
    untouched_transition (.resolveUpload u id) now hst₁ rfl others_withAccount,
    <- liveOthers_congr hsame.uploads, <- freeOfOthers_congr hsame.uploads]
  exact AccountState.sameBut_resolveUpload

theorem handleFileUploadEnd_untouched (msg : ControlMessage)
    (hst : app.broker.account u = some st) {id : String}
    {text : Option String}
    (h : complete env (handleFileUploadEnd msg id text (.desktop u) c) as app = some app') :
    Untouched c u app.broker app'.broker <->
      LiveOthers c (lastAt as) st.uploads ∧ FreeOfOthers c id st.uploads := by
  rcases complete_invoke h with ⟨a, rest, rfl, hrest⟩
  have htaken : Untouched c u app.broker
      (app.exec env a (.broker (.takeBugReportBuffer u id c))).1.broker :=
    (untouched_transition (.takeBugReportBuffer u id c) a.now hst rfl
      others_withAccount).mpr AccountState.sameBut_takeBugReportBuffer
  cases hreply : (app.exec env a (.broker (.takeBugReportBuffer u id c))).2 with
  | none =>
      rw [hreply] at hrest
      rcases complete_act hrest with ⟨a', has, rfl⟩
      cases has
      exact untouched_resolveUpload hst htaken
  | some screenshot =>
      rw [hreply] at hrest
      rcases complete_invoke hrest with ⟨a', rest', has', hrest'⟩
      rcases complete_act hrest' with ⟨a'', has'', rfl⟩
      cases has'
      cases has''
      have hpersisted : ((app.exec env a (.broker (.takeBugReportBuffer u id c))).1.exec env a'
          (.persistBugReport u "desktop" (some "Desktop") (text.getD "") screenshot)).1.broker =
          (app.exec env a (.broker (.takeBugReportBuffer u id c))).1.broker :=
        App.broker_exec_other fun op hop => by cases hop
      exact untouched_resolveUpload hst (hpersisted ▸ htaken)

theorem untouched_sendTo {b b₁ b₂ : Broker} {tx : Option ConnId} {msg : WsMessage}
    (hgrows : Grows c b b₁) (hsent : b₂ = b₁.sendAll tx.toList msg) :
    Untouched c u b b₂ <->
      Untouched c u b b₁ ∧ forall owner, tx = some owner -> b.Unheard c owner := by
  rw [hsent, untouched_sendAll hgrows]
  simp only [Unheard, hgrows.alive, Option.mem_toList]

theorem handleFileUploadResult_untouched (hst : app.broker.account u = some st) {id : String}
    (h : complete env (handleFileUploadResult msg id (.desktop u)) as app = some app') :
    Untouched c u app.broker app'.broker <->
      LiveOthers c (firstAt as) st.uploads ∧ FreeOfOthers c id st.uploads := by
  rcases complete_invoke h with ⟨a, rest, rfl, hrest⟩
  rw [untouched_sendTo (grows_relation.exec _ a.now (.resolveUpload u id))
    (complete_sendTo hrest)]
  have hresolved := (untouched_transition (.resolveUpload u id) a.now hst rfl
    (others_withAccount (c := c))).trans AccountState.sameBut_resolveUpload
  refine (and_congr_left' hresolved).trans ⟨And.left, fun hspared => ⟨hspared, ?_⟩⟩
  intro owner howner
  have hreply : (st.resolveUpload id a.now).2 = some owner :=
    (reply_withAccount hst).symm.trans howner
  rcases Option.map_eq_some_iff.mp hreply with ⟨e, he, rfl⟩
  exact Or.inl (hspared.2 e (Table.lookup_retain_eq_some.mp he).1)

theorem handleFileDownloadBegin_untouched (hst : app.broker.account u = some st) {id : String}
    {size : UInt64}
    (h : complete env (handleFileDownloadBegin msg id size (.desktop u)) as app = some app') :
    Untouched c u app.broker app'.broker <->
      st.LiveDownloads (firstAt as) ∧ forall e, st.downloads.lookup id = some e ->
        e.declaredSize = some size.toNat ∧ e.lastActivity = firstAt as ∧
          app.broker.Unheard c e.owner := by
  rcases complete_invoke h with ⟨a, rest, rfl, hrest⟩
  rw [untouched_sendTo (grows_relation.exec _ a.now (.noteDownloadBegin u id size.toNat))
    (complete_sendTo hrest)]
  have hnoted := (untouched_transition (.noteDownloadBegin u id size.toNat) a.now hst rfl
    (others_withAccount (c := c))).trans AccountState.sameBut_noteDownloadBegin
  refine (and_congr_left' hnoted).trans ?_
  have hreply : (app.exec env a (.broker (.noteDownloadBegin u id size.toNat))).2 =
      (st.noteDownloadBegin id size.toNat a.now).2 := reply_withAccount hst
  rw [hreply]
  show (st.LiveDownloads a.now ∧ _) ∧ _ <-> st.LiveDownloads a.now ∧ _
  constructor
  · rintro ⟨⟨hlive, hstays⟩, hheard⟩
    refine ⟨hlive, fun e he => ?_⟩
    have hkept : (st.gcDownloads a.now).downloads.lookup id = some e :=
      Table.lookup_retain_eq_some.mpr ⟨he, hlive id e he⟩
    refine ⟨(hstays e he).1, (hstays e he).2, hheard e.owner ?_⟩
    exact Option.map_eq_some_iff.mpr ⟨e, hkept, rfl⟩
  · rintro ⟨hlive, hstays⟩
    refine ⟨⟨hlive, fun e he => ⟨(hstays e he).1, (hstays e he).2.1⟩⟩, fun owner howner => ?_⟩
    rcases Option.map_eq_some_iff.mp howner with ⟨e, he, rfl⟩
    exact (hstays e (Table.lookup_retain_eq_some.mp he).1).2.2

theorem handleFileDownloadEnd_untouched (hst : app.broker.account u = some st) {id : String}
    (h : complete env (handleFileDownloadEnd msg id (.desktop u)) as app = some app') :
    Untouched c u app.broker app'.broker <->
      st.LiveDownloads (firstAt as) ∧ st.downloads.lookup id = none := by
  rcases complete_invoke h with ⟨a, rest, rfl, hrest⟩
  rw [untouched_sendTo (grows_relation.exec _ a.now (.resolveDownload u id))
    (complete_sendTo hrest)]
  have hresolved := (untouched_transition (.resolveDownload u id) a.now hst rfl
    (others_withAccount (c := c))).trans AccountState.sameBut_resolveDownload
  refine (and_congr_left' hresolved).trans ⟨And.left, fun hspared => ⟨hspared, ?_⟩⟩
  intro owner howner
  have hreply : (st.resolveDownload id a.now).2 = some owner :=
    (reply_withAccount hst).symm.trans howner
  rcases Option.map_eq_some_iff.mp hreply with ⟨e, he, _⟩
  have hpresent := (Table.lookup_retain_eq_some.mp he).1
  rw [hspared.2] at hpresent
  cases hpresent

theorem handleReplayBegin_untouched (hst : app.broker.account u = some st)
    (h : complete env (handleReplayBegin (.desktop u)) as app = some app') :
    Untouched c u app.broker app'.broker <->
      st.replayQueue = [] ∧ st.replayTarget = none := by
  rcases complete_act h with ⟨a, _, rfl⟩
  exact (untouched_transition (.beginReplay u) a.now hst rfl others_withAccount).trans
    AccountState.sameBut_beginReplay

theorem broadcast_untouched {app₁ : App} {msg : ControlMessage}
    (hgrows : Grows c app.broker app₁.broker)
    {st₁ : AccountState} (hst₁ : app₁.broker.account u = some st₁)
    (hclients : st₁.clients = st.clients)
    (h : complete env (broadcastToClients u (.text msg)) as app₁ = some app') :
    Untouched c u app.broker app'.broker <->
      Untouched c u app.broker app₁.broker ∧ app.broker.NoneHears c st := by
  rcases complete_act h with ⟨a, _, rfl⟩
  have hbroadcast := untouched_broadcast (.text msg) hgrows hst₁
  refine hbroadcast.trans (and_congr_right' ?_)
  have htxs : st₁.clientTxs = st.clientTxs := congrArg (List.map ClientConnection.tx) hclients
  simp [NoneHears, htxs, WsMessage.isPtyOutput, Unheard, hgrows.alive]

theorem forwardToClients_untouched (hst : app.broker.account u = some st)
    (h : complete env (forwardToClients msg (.desktop u)) as app = some app') :
    Untouched c u app.broker app'.broker <-> app.broker.NoneHears c st := by
  rw [broadcast_untouched (grows_relation.refl _) hst rfl h]
  exact and_iff_right (Untouched.refl _)

theorem handleSessionList_untouched (hst : app.broker.account u = some st)
    (h : complete env (handleSessionList msg (.desktop u)) as app = some app') :
    Untouched c u app.broker app'.broker <->
      st.replayTarget = none ∧ app.broker.NoneHears c st := by
  rcases complete_invoke h with ⟨a, rest, rfl, hrest⟩
  have hgrows : Grows c app.broker (app.exec env a (.broker (.endReplay u))).1.broker :=
    grows_relation.exec _ a.now (.endReplay u)
  have hended := (untouched_transition (.endReplay u) a.now hst rfl
    (others_withAccount (c := c))).trans AccountState.sameBut_endReplay
  have hreply : (app.exec env a (.broker (.endReplay u))).2 =
      st.replayTarget.map ReplayRequest.tx := reply_withAccount hst
  rw [hreply] at hrest
  cases htarget : st.replayTarget with
  | none =>
      rw [htarget] at hrest hended
      rw [broadcast_untouched hgrows (account_exec_of_some (.endReplay u) a.now hst rfl) rfl hrest]
      exact and_congr_left' hended
  | some r =>
      rw [htarget] at hrest hended
      rcases complete_act hrest with ⟨a', _, rfl⟩
      have hsent := @untouched_sendTo u c _ _ _ (some r.tx) (.text msg) hgrows rfl
      refine hsent.trans ⟨fun h => ?_, fun h => ?_⟩
      · cases hended.mp h.1
      · cases h.1

theorem handleSupervisorReply_untouched (hst : app.broker.account u = some st) {id : String}
    (h : complete env (handleSupervisorReply msg id (.desktop u)) as app = some app') :
    Untouched c u app.broker app'.broker <->
      SparesReply (firstAt as) app.broker st id msg := by
  rcases complete_act h with ⟨a, rfl, rfl⟩
  have hafter := account_exec_of_some (.resolveSupervisor u id msg) a.now hst rfl
  have hreply := @AccountState.sameBut_withReply c st id a.now app.broker.alive msg
  show Untouched c u app.broker (app.broker.exec a.now (.resolveSupervisor u id msg)).1 <-> _
  rw [untouched_iff hst hafter]
  refine ⟨fun hspared => hreply.mp hspared.1, fun hspared => ⟨hreply.mpr hspared, ?_⟩⟩
  show (app.broker.resolveSupervisor u id msg a.now).1.others c = _
  unfold resolveSupervisor
  simp only [hst]
  cases hentry : (st.gcSupervisor a.now).supervisorPending.lookup id with
  | none => rfl
  | some e =>
      have hdead := (hspared.2 e (Table.lookup_retain_eq_some.mp hentry).1).1
      have hsent : (app.broker.send e.owner (.text msg)).1.others c = app.broker.others c :=
        others_send_iff.mpr (Or.inr hdead)
      have hfailed : (app.broker.send e.owner (.text msg)).2 = false :=
        (send_delivers _ _ _).trans hdead
      simp only [hfailed]
      exact hsent

theorem handleSessionNotification_untouched (hst : app.broker.account u = some st)
    {sessionId title body : String}
    (h : complete env (handleSessionNotification sessionId title body (.desktop u)) as app =
      some app') :
    Untouched c u app.broker app'.broker <-> app.broker.NoneHears c st := by
  rcases complete_invoke h with ⟨a, rest, rfl, hrest⟩
  rcases complete_private (fun op hop => by cases hop) hrest with ⟨r, rest', app₁, happ₁, hdone⟩
  rw [complete_skip hdone, happ₁]
  have hgrows : Grows c app.broker app.broker := grows_relation.refl _
  have hbroadcast := untouched_broadcast
    (.text (.sessionNotification sessionId (takeChars 120 title) (takeChars 300 body)))
    hgrows hst
  refine hbroadcast.trans ((and_iff_right (Untouched.refl _)).trans ?_)
  simp [NoneHears, WsMessage.isPtyOutput]

/-!
An approval, a rejection and a revocation.
-/

theorem handleDeviceRevoke_untouched (hst : app.broker.account u = some st) {d : String}
    (h : complete env (handleDeviceRevoke d (.desktop u) c) as app = some app') :
    Untouched c u app.broker app'.broker <->
      (forall k, k ∈ st.clients -> k.info.deviceId ≠ d) ∧
        forall r, r ∈ st.replayQueue -> r.deviceId ≠ d := by
  rcases complete_invoke h with ⟨a, rest, rfl, hrest⟩
  rcases complete_invoke hrest with ⟨a', rest', _, hrest'⟩
  rcases complete_private (fun op hop => by cases hop) hrest' with ⟨r, rest'', app₃, happ₃, hsend⟩
  have htold :
      (app.exec env a (.broker (.sendToClient u d (.text (.deviceRevoked d))))).1.broker.account u =
        some st := (account_sendToClient app.broker u d _ u).trans hst
  have hdropped := account_exec_of_some (.unregisterDevice u d) a'.now htold rfl
  have hconfirmed := (send_untouched (u := u) hsend).mpr trivial
  rw [happ₃] at hconfirmed
  rw [untouched_iff_of_right hdropped hconfirmed, untouched_iff hst hdropped]
  refine ⟨fun hspared => AccountState.sameBut_unregisterDevice.mp hspared.1, fun hspared =>
    ⟨AccountState.sameBut_unregisterDevice.mpr hspared, others_withAccount.trans ?_⟩⟩
  have hnone : (st.clients.filter fun k => k.info.deviceId = d) = [] := by
    rw [List.filter_eq_nil_iff]
    intro k hk
    simpa using hspared.1 k hk
  show (app.broker.sendToClient u d (.text (.deviceRevoked d))).1.others c = _
  unfold Broker.sendToClient
  simp only [hst, hnone]
  rfl

def PendingAre (u : String) (l : List PendingDevice) (b : Broker) : Prop :=
  exists st, b.account u = some st ∧ st.pendingDevices = l

theorem pendingAre_exec {l : List PendingDevice} {b : Broker} (op : BrokerCall) (now : Instant)
    (htouches : AccountPart.pending ∉ op.touches) (h : PendingAre u l b) :
    PendingAre u l (b.exec now op).1 := by
  rcases h with ⟨st, hst, hpending⟩
  by_cases hsubject : op.subject? = some u
  · refine ⟨_, account_exec_of_some op now hst hsubject, ?_⟩
    have hagree := AccountState.after_agree st .pending b.alive now htouches
    exact Eq.trans hagree hpending
  · exact ⟨st, (account_exec_other hsubject).trans hst, hpending⟩

theorem not_untouched_of_taken {b b' : Broker} {d : String} {p : PendingDevice}
    (hst : b.account u = some st) (htaken : (st.takePendingDevice d).2 = some p)
    (hpending : PendingAre u (st.takePendingDevice d).1.pendingDevices b') :
    ¬ Untouched c u b b' := by
  rintro ⟨hsame, _⟩
  rcases hsame st hst with ⟨st', hst', hsame⟩
  rcases hpending with ⟨st₂, hst₂, hpending⟩
  rw [hst'] at hst₂
  cases hst₂
  have hlength := AccountState.length_takePendingDevice htaken
  rw [<- hpending, hsame.pending] at hlength
  exact Nat.lt_irrefl _ hlength

theorem takePending_untouched (hst : app.broker.account u = some st) {d : String}
    {deal : Option PendingDevice -> Handler Unit}
    (hnone : deal none = skip)
    (hsome : forall p rest app₁, complete env (deal (some p)) rest app₁ = some app' ->
      forall l, PendingAre u l app₁.broker -> PendingAre u l app'.broker)
    (h : complete env (.invoke (.broker (.takePendingDevice u d)) deal) as app = some app') :
    Untouched c u app.broker app'.broker <->
      forall p, p ∈ st.pendingDevices -> p.deviceId ≠ d := by
  rcases complete_invoke h with ⟨a, rest, rfl, hrest⟩
  have hafter := account_exec_of_some (.takePendingDevice u d) a.now hst rfl
  have hreply : (app.exec env a (.broker (.takePendingDevice u d))).2 =
      (st.takePendingDevice d).2 := reply_withAccount hst
  rw [hreply] at hrest
  rw [<- AccountState.takePendingDevice_none]
  cases htaken : (st.takePendingDevice d).2 with
  | none =>
      rw [htaken, hnone] at hrest
      rw [complete_skip hrest]
      refine iff_of_true ?_ rfl
      refine (untouched_transition (.takePendingDevice u d) a.now hst rfl
        others_withAccount).mpr ?_
      have hsame : (st.takePendingDevice d).1 = st := by
        unfold AccountState.takePendingDevice at htaken ⊢
        cases hfound : st.pendingDevices.findIdx? fun p => p.deviceId = d with
        | none => rfl
        | some idx =>
            rcases List.findIdx?_eq_some_iff_getElem.mp hfound with ⟨hlt, _, _⟩
            simp [hfound, List.getElem?_eq_getElem hlt] at htaken
      show st.SameBut c (st.takePendingDevice d).1
      rw [hsame]
      exact AccountState.SameBut.refl st
  | some p =>
      rw [htaken] at hrest
      refine iff_of_false ?_ (by simp)
      exact not_untouched_of_taken hst htaken
        (hsome p rest _ hrest _ ⟨_, hafter, rfl⟩)

theorem handleDeviceApproved_untouched (hst : app.broker.account u = some st) {d : String}
    (h : complete env (handleDeviceApproved d (.desktop u)) as app = some app') :
    Untouched c u app.broker app'.broker <->
      forall p, p ∈ st.pendingDevices -> p.deviceId ≠ d := by
  refine takePending_untouched hst rfl ?_ h
  intro p rest app₁ hdeal l hl
  rcases complete_private (fun op hop => by cases hop) hdeal with ⟨_, rest₂, app₂, happ₂, hjwt⟩
  rcases complete_private (fun op hop => by cases hop) hjwt with ⟨token, rest₃, app₃, happ₃, hsend⟩
  have hl₃ : PendingAre u l app₃.broker := by rwa [happ₃, happ₂]
  cases token with
  | error e =>
      rw [complete_skip hsend]
      exact hl₃
  | ok token =>
      rcases complete_invoke hsend with ⟨a, rest₄, _, hutc⟩
      rcases complete_private (fun op hop => by cases hop) hutc with
        ⟨utc, rest₅, app₅, happ₅, hregister⟩
      rcases complete_act hregister with ⟨a', _, rfl⟩
      refine pendingAre_exec _ a'.now (by simp [BrokerCall.touches]) ?_
      rw [happ₅]
      exact pendingAre_exec _ a.now (by simp [BrokerCall.touches]) hl₃

theorem handleDeviceRejected_untouched (hst : app.broker.account u = some st) {d : String}
    (h : complete env (handleDeviceRejected d (.desktop u)) as app = some app') :
    Untouched c u app.broker app'.broker <->
      forall p, p ∈ st.pendingDevices -> p.deviceId ≠ d := by
  refine takePending_untouched hst rfl ?_ h
  intro p rest app₁ hdeal l hl
  rcases complete_invoke hdeal with ⟨a, rest₂, _, hrevoke⟩
  rcases complete_private (fun op hop => by cases hop) hrevoke with ⟨_, rest₃, app₃, happ₃, hdone⟩
  rw [complete_skip hdone, happ₃]
  exact pendingAre_exec _ a.now (by simp [BrokerCall.touches]) hl

/-!
Binary frames.
-/

theorem ignores_iff {now : Instant} {payload : Slice} {e : DownloadEntry} :
    e.overruns payload now = false ∧ e.received payload now = e <->
      e.Ignores now payload := by
  have hover : e.overruns payload now = false <->
      addU64 e.bytesForwarded payload.length ≤ e.budget :=
    decide_eq_false_iff_not.trans Nat.not_lt
  have hsame : e.received payload now = e <->
      addU64 e.bytesForwarded payload.length = e.bytesForwarded ∧ now = e.lastActivity := by
    cases e
    simp [DownloadEntry.received]
  rw [hover, hsame]
  constructor
  · rintro ⟨hbudget, hbytes, hnow⟩
    exact ⟨hnow.symm, hbytes, hbytes ▸ hbudget⟩
  · rintro ⟨hnow, hbytes, hbudget⟩
    exact ⟨hbytes.symm ▸ hbudget, hbytes, hnow.symm⟩

theorem handleFileDownloadChunk_untouched (hst : app.broker.account u = some st) {data : Slice}
    {id : String} (h : complete env (handleFileDownloadChunk data id u) as app = some app') :
    Untouched c u app.broker app'.broker <->
      st.LiveDownloads (firstAt as) ∧ forall e, st.downloads.lookup id = some e ->
        e.Ignores (firstAt as) (data.drop binaryHeaderLen) ∧ app.broker.Unheard c e.owner := by
  rcases complete_invoke h with ⟨a, rest, rfl, hrest⟩
  have hgrows : Grows c app.broker
      (app.exec env a (.broker (.recordDownloadChunk u id (data.drop binaryHeaderLen)))).1.broker :=
    grows_relation.exec _ a.now _
  have hrecorded := (untouched_transition (.recordDownloadChunk u id (data.drop binaryHeaderLen))
    a.now hst rfl (others_withAccount (c := c))).trans AccountState.sameBut_recordDownloadChunk
  have hreply : (app.exec env a
      (.broker (.recordDownloadChunk u id (data.drop binaryHeaderLen)))).2 =
      (st.recordDownloadChunk id (data.drop binaryHeaderLen) a.now).2 := reply_withAccount hst
  rw [hreply] at hrest
  show _ <-> st.LiveDownloads a.now ∧ _
  -- Whatever the decision, one message at most goes out, to the owner of the entry.
  have hsent : exists msg, app'.broker = (app.exec env a
      (.broker (.recordDownloadChunk u id (data.drop binaryHeaderLen)))).1.broker.sendAll
        ((st.gcDownloads a.now).downloads.lookup id |>.map DownloadEntry.owner).toList msg := by
    unfold AccountState.recordDownloadChunk at hrest
    simp only [] at hrest
    cases hentry : (st.gcDownloads a.now).downloads.lookup id with
    | none =>
        simp only [hentry] at hrest
        exact ⟨.close, by rw [complete_skip hrest]; rfl⟩
    | some e =>
        by_cases hover : e.overruns (data.drop binaryHeaderLen) a.now = true
        · simp only [hentry, if_pos hover] at hrest
          exact ⟨_, @complete_sendTo env rest _ app' (some e.owner) _ hrest⟩
        · simp only [hentry, if_neg hover] at hrest
          exact ⟨_, @complete_sendTo env rest _ app' (some e.owner) _ hrest⟩
  rcases hsent with ⟨msg, hsent⟩
  rw [untouched_sendTo hgrows hsent]
  refine (and_congr_left' hrecorded).trans ?_
  constructor
  · rintro ⟨⟨hlive, hstays⟩, hheard⟩
    refine ⟨hlive, fun e he => ⟨ignores_iff.mp (hstays e he), hheard e.owner ?_⟩⟩
    have hkept : (st.gcDownloads a.now).downloads.lookup id = some e :=
      Table.lookup_retain_eq_some.mpr ⟨he, hlive id e he⟩
    exact Option.map_eq_some_iff.mpr ⟨e, hkept, rfl⟩
  · rintro ⟨hlive, hstays⟩
    refine ⟨⟨hlive, fun e he => ignores_iff.mpr (hstays e he).1⟩, fun owner howner => ?_⟩
    rcases Option.map_eq_some_iff.mp howner with ⟨e, he, rfl⟩
    exact (hstays e (Table.lookup_retain_eq_some.mp he).1).2

theorem handleScrollback_untouched (hst : app.broker.account u = some st) {data : Slice}
    (hdata : WsMessage.isPtyOutput (.binary data.bytes) = false)
    (h : complete env (handleScrollback data u) as app = some app') :
    Untouched c u app.broker app'.broker <->
      match st.replayTarget with
      | some r => app.broker.Unheard c r.tx
      | none => app.broker.NoneHears c st := by
  rcases complete_invoke h with ⟨a, rest, rfl, hrest⟩
  have hreply : (app.exec env a (.broker (.replayTarget u))).2 =
      st.replayTarget.map ReplayRequest.tx := by
    show app.broker.replayTarget u = _
    simp [Broker.replayTarget, hst]
  have hgrows : Grows c app.broker app.broker := grows_relation.refl _
  rw [hreply] at hrest
  cases htarget : st.replayTarget with
  | none =>
      rw [htarget] at hrest
      rcases complete_act hrest with ⟨a', _, rfl⟩
      refine (untouched_broadcast (.binary data.bytes) hgrows hst).trans
        ((and_iff_right (Untouched.refl _)).trans ?_)
      simp [NoneHears, hdata]
  | some r =>
      rw [htarget] at hrest
      rcases complete_act hrest with ⟨a', _, rfl⟩
      have hsent := @untouched_sendTo u c _ _ _ (some r.tx) (.binary data.bytes) hgrows rfl
      refine hsent.trans ((and_iff_right (Untouched.refl _)).trans ?_)
      simp

theorem handleBinaryMessage_untouched (hst : app.broker.account u = some st) {data : Slice}
    (h : complete env (handleBinaryMessage data (.desktop u) c) as app = some app') :
    Untouched c u app.broker app'.broker <->
      data.Spares (firstAt as) app.broker c st := by
  unfold handleBinaryMessage at h
  unfold Slice.Spares
  cases hparsed : parseBinaryFrame data.bytes with
  | error e =>
      rw [hparsed] at h
      exact skip_untouched h
  | ok parsed =>
      rcases parsed with ⟨frameType, id, payload⟩
      have htype := parseBinaryFrame_head hparsed
      rw [hparsed] at h
      simp only [] at h ⊢
      by_cases hchunk : frameType = ptyFileChunk
      · rw [if_pos hchunk] at h ⊢
        rcases complete_act h with ⟨a, rfl, rfl⟩
        exact (untouched_transition (.recordUploadChunk u id c (data.drop binaryHeaderLen))
          a.now hst rfl others_withAccount).trans AccountState.sameBut_recordUploadChunk
      · rw [if_neg hchunk] at h ⊢
        by_cases hdownload : frameType = ptyFileDownloadChunk
        · rw [if_pos hdownload] at h ⊢
          exact handleFileDownloadChunk_untouched hst h
        · rw [if_neg hdownload] at h ⊢
          by_cases houtput : frameType = ptyOutput
          · rw [if_pos houtput] at h ⊢
            rcases complete_act h with ⟨a, _, rfl⟩
            have hgrows : Grows c app.broker app.broker := grows_relation.refl _
            refine (untouched_broadcast (.binary data.bytes) hgrows hst).trans
              ((and_iff_right (Untouched.refl _)).trans ?_)
            have hpty : WsMessage.isPtyOutput (.binary data.bytes) = true := by
              simp [WsMessage.isPtyOutput, htype, houtput]
            simp [hpty]
          · rw [if_neg houtput] at h ⊢
            by_cases hscroll : frameType = ptyScrollback
            · rw [if_pos hscroll] at h ⊢
              refine handleScrollback_untouched hst ?_ h
              simp [WsMessage.isPtyOutput, htype, houtput]
            · rw [if_neg hscroll] at h ⊢
              exact skip_untouched h

/-!
Every frame.
-/

def sweepOf (as : List Ambient) : ControlMessage -> Instant
  | .fileUploadEnd .. => lastAt as
  | _ => firstAt as

theorem handleControlMessage_untouched (hst : app.broker.account u = some st)
    (hauth : forall version v hash totp token key, msg ≠ .auth version v hash totp token key)
    (h : complete env (handleControlMessage env msg (.desktop u) c ip) as app = some app') :
    Untouched c u app.broker app'.broker <->
      msg.Spares (sweepOf as msg) app.broker c st := by
  cases msg
  case auth => exact absurd rfl (hauth _ _ _ _ _ _)
  case ping => exact send_untouched h
  case fileUploadBegin id kind name size mime sessionId =>
      exact handleFileUploadBegin_untouched (.fileUploadBegin id kind name size mime sessionId)
        hst h
  case fileUploadEnd id text => exact handleFileUploadEnd_untouched (.fileUploadEnd id text) hst h
  case fileUploadResult => exact handleFileUploadResult_untouched hst h
  case fileDownloadBegin => exact handleFileDownloadBegin_untouched hst h
  case fileDownloadEnd => exact handleFileDownloadEnd_untouched hst h
  case replayBegin => exact handleReplayBegin_untouched hst h
  case sessionList => exact handleSessionList_untouched hst h
  case supervisorResult | supervisorError => exact handleSupervisorReply_untouched hst h
  case sessionRenamed | sessionCreated | sessionClosed | contextUpdate | ptyResized =>
      exact forwardToClients_untouched hst h
  case sessionNotification => exact handleSessionNotification_untouched hst h
  case deviceApproved => exact handleDeviceApproved_untouched hst h
  case deviceRejected => exact handleDeviceRejected_untouched hst h
  case deviceRevoke => exact handleDeviceRevoke_untouched hst h
  case vapidKeyRequest =>
      rcases complete_private (fun op hop => by cases hop) h with ⟨key, rest, app₁, happ₁, hsend⟩
      rw [<- happ₁]
      exact send_untouched hsend
  case connectedDevicesRequest =>
      rcases complete_invoke h with ⟨a, rest, rfl, hrest⟩
      have hbroker :
          (app.exec env a (.broker (.getConnectedClients u))).1.broker = app.broker := rfl
      rw [<- hbroker]
      exact send_untouched hrest
  all_goals exact skip_untouched h

theorem processWsMessage_untouched (hst : app.broker.account u = some st) {frame : Inbound}
    (hauth : frame.isAuth = false)
    (h : complete env (processWsMessage env frame (.desktop u) c ip) as app = some app') :
    Untouched c u app.broker app'.broker <->
      frame.Spares (frame.sweptAt as) app.broker c st := by
  cases frame with
  | other => exact skip_untouched h
  | binary data =>
      unfold processWsMessage at h
      unfold Inbound.Spares
      by_cases hsize : maxBinaryMessageSize < data.length
      · simp only [dif_pos hsize] at h ⊢
        exact skip_untouched h
      · simp only [dif_neg hsize] at h ⊢
        exact handleBinaryMessage_untouched hst h
  | text size parsed =>
      unfold processWsMessage at h
      unfold Inbound.isAuth at hauth
      unfold Inbound.Spares Inbound.sweptAt
      simp only [Inbound.control?] at hauth ⊢
      by_cases hsize : maxTextMessageSize < size
      · simp only [if_pos hsize] at h ⊢
        exact skip_untouched h
      · simp only [if_neg hsize] at h hauth ⊢
        cases parsed with
        | none => exact skip_untouched h
        | some msg =>
            have hmsg : forall version v hash totp token key,
                msg ≠ .auth version v hash totp token key := by
              rintro version v hash totp token key rfl
              cases hauth
            have hspared := handleControlMessage_untouched hst hmsg h
            refine hspared.trans (Eq.to_iff ?_)
            unfold sweepOf
            cases msg <;> rfl

end

end Handler

/-!
## Evicted desktops
-/

namespace Relay

/-- A connection has the role of the account's desktop, and another one is registered as
the desktop. -/
def Evicted (s : Relay) (u : String) (c : ConnId) : Prop :=
  s.role c = .desktop u ∧
    exists st x, s.account u = some st ∧ st.desktopTx = some x ∧ x ≠ c

/-- What a frame of the evicted desktop must find, in the account as it is. -/
def FindsNothing (s : Relay) (u : String) (c : ConnId) (frame : Inbound)
    (as : List Ambient) : Prop :=
  forall st, s.account u = some st -> frame.Spares (frame.sweptAt as) s.broker c st

/-- A frame of an evicted desktop leaves its account and the other connections alone
exactly when it finds nothing to work on. -/
theorem evicted_frame_untouched {env : Env} {s s' : Relay} {u : String} {c : ConnId}
    {frame : Inbound} {as : List Ambient} (hevicted : s.Evicted u c)
    (hauth : frame.isAuth = false)
    (h : follow (step env) s (processing c frame as) = some s') :
    Broker.Untouched c u s.broker s'.broker <-> s.FindsNothing u c frame as := by
  rcases hevicted with ⟨hrole, st, x, hst, _, _⟩
  have hcomplete := complete_of_processing h
  rw [hrole] at hcomplete
  refine (Handler.processWsMessage_untouched hst hauth hcomplete).trans ?_
  constructor
  · intro hspares st' hst'
    rw [hst] at hst'
    cases hst'
    exact hspares
  · intro hspares
    exact hspares st hst

/-!
A desktop is replaced, and the phone asks the new one for its sessions.
-/

open Deployment in
/-- Connection 2 takes the desktop's place from connection 1; connection 3 is the phone. -/
def replaced : List RelayLabel :=
  [open_ 1] ++ keyAuth 1 ++ register 1 ++ [open_ 2] ++ keyAuth 2 ++ register 2 ++
    [open_ 3] ++ tokenAuth 3

open Deployment in
def listRequested : List RelayLabel :=
  replaced ++ turn 3 (message .sessionListRequest) 2

def queued (s : Relay) : Option (List ConnId) :=
  (s.account "user").map fun st => st.replayQueue.map ReplayRequest.tx

theorem evicted_of_slot {s : Relay} {u : String} {c x : ConnId}
    (hrole : s.role c = .desktop u)
    (hslot : (s.account u).bind AccountState.desktopTx = some x) (hne : x ≠ c) :
    s.Evicted u c := by
  rcases Option.bind_eq_some_iff.mp hslot with ⟨st, hst, hx⟩
  exact ⟨hrole, st, x, hst, hx, hne⟩

/-- With nothing queued and no burst under way, the replay_begin of the replaced desktop
changes nothing. -/
theorem evicted_frame_untouched_example : exists s s',
    Runs Deployment.env Deployment.auth Deployment.database replaced s ∧ s.Evicted "user" 1 ∧
      follow (step Deployment.env) s
        (processing 1 (Deployment.message .replayBegin) [Deployment.ambient 0]) = some s' ∧
      Broker.Untouched 1 "user" s.broker s'.broker := by
  have hrun : (Deployment.after (replaced ++
      processing 1 (Deployment.message .replayBegin) [Deployment.ambient 0])).isSome = true := by
    decide +kernel
  have hstate : (Deployment.after replaced).map (fun s => (s.role 1,
      (s.account "user").bind AccountState.desktopTx, s.queued,
      (s.account "user").map fun st => st.replayTarget.isSome)) =
        some (.desktop "user", some 2, some [], some false) := by
    decide +kernel
  rcases Option.isSome_iff_exists.mp hrun with ⟨s', hs'⟩
  rcases follow_append_eq_some.mp hs' with ⟨s, hs, hprocessing⟩
  rcases Option.map_eq_some_iff.mp hstate with ⟨m, hm, hvalues⟩
  have hsame : s = m := Option.some.inj (hs.symm.trans hm)
  subst hsame
  injection hvalues with hrole hvalues
  injection hvalues with hslot hvalues
  injection hvalues with hqueued htarget
  have hevicted := evicted_of_slot hrole hslot (by decide)
  refine ⟨s, s', hs, hevicted, hprocessing,
    (evicted_frame_untouched hevicted rfl hprocessing).mpr ?_⟩
  intro st hst
  unfold queued at hqueued
  rw [hst] at hqueued htarget
  have hqueue : st.replayQueue.map ReplayRequest.tx = [] := Option.some.inj hqueued
  have hnone : st.replayTarget.isSome = false := Option.some.inj htarget
  exact ⟨List.map_eq_nil_iff.mp hqueue, by simpa using hnone⟩

/-- The replay_begin of the replaced desktop takes the phone's request out of the queue of
the new one. -/
theorem stale_replay_begin : exists s s',
    Runs Deployment.env Deployment.auth Deployment.database listRequested s ∧
      s.Evicted "user" 1 ∧
      follow (step Deployment.env) s
        (processing 1 (Deployment.message .replayBegin) [Deployment.ambient 0]) = some s' ∧
      ¬ Broker.Untouched 1 "user" s.broker s'.broker := by
  have hbefore : (Deployment.after listRequested).map (fun s => (s.role 1,
      (s.account "user").bind AccountState.desktopTx, s.queued)) =
        some (.desktop "user", some 2, some [3]) := by
    decide +kernel
  have hafter : (Deployment.after (listRequested ++
      processing 1 (Deployment.message .replayBegin) [Deployment.ambient 0])).map queued =
        some (some []) := by
    decide +kernel
  rcases Option.map_eq_some_iff.mp hafter with ⟨s', hs', hconsumed⟩
  rcases follow_append_eq_some.mp hs' with ⟨s, hs, hprocessing⟩
  rcases Option.map_eq_some_iff.mp hbefore with ⟨m, hm, hvalues⟩
  have hsame : s = m := Option.some.inj (hs.symm.trans hm)
  subst hsame
  injection hvalues with hrole hvalues
  injection hvalues with hslot hqueued
  refine ⟨s, s', hs, evicted_of_slot hrole hslot (by decide), hprocessing, ?_⟩
  rintro ⟨hsame, _⟩
  rcases Option.map_eq_some_iff.mp hqueued with ⟨st, hst, hqueue⟩
  rcases hsame st hst with ⟨st', hst', hsame⟩
  have hconsumed' : st'.replayQueue.map ReplayRequest.tx = [] := by
    have hst' : s'.account "user" = some st' := hst'
    unfold queued at hconsumed
    rw [hst'] at hconsumed
    exact Option.some.inj hconsumed
  rw [hsame.queue, hqueue] at hconsumed'
  cases hconsumed'

end Relay

end CommandRelay
