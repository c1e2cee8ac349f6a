import CommandRelay.Broker.Uploads
import CommandRelay.Server.Relay
import CommandRelay.Server.Routine

/-!
# Uploads at the desktop

A client's begin, chunks and end of an upload reach the desktop that is registered
when each of them is forwarded.  The upload entry does not say which one that was.
-/

namespace CommandRelay

open Foundation

namespace WsMessage

def tailOf? : WsMessage -> Option String
  | .text (.fileUploadEnd id _) => some id
  | .binary bytes =>
      match parseBinaryFrame bytes with
      | .ok (frameType, id, _) => if frameType = ptyFileChunk then some id else none
      | .error _ => none
  | _ => none

def begins (id : String) : WsMessage -> Bool
  | .text (.fileUploadBegin uploadId ..) => uploadId = id
  | _ => false

end WsMessage

def accepts (u id : String) : CallAnswer -> Bool
  | ⟨.broker (.beginUpload v uploadId _ _), .ok _⟩ => v = u ∧ uploadId = id
  | _ => false

def forwardsBegin (u id : String) : CallAnswer -> Bool
  | ⟨.broker (.sendToDesktop v msg), _⟩ => v = u && msg.begins id
  | _ => false

def passesTail (u id : String) (c : ConnId) : CallAnswer -> Bool
  | ⟨.broker (.recordUploadChunk v uploadId conn _), .forward⟩ => v = u ∧ uploadId = id ∧ conn = c
  | ⟨.broker (.finishUpload v uploadId conn), _⟩ => v = u ∧ uploadId = id ∧ conn = c
  | _ => false

def Unannounced (u id : String) (past : List CallAnswer) : Prop :=
  Standing (accepts u id) (forwardsBegin u id) past

/-!
## The handlers
-/

namespace Call

def prepares : Call -> Bool
  | persistBugReport .. | broker (.isDesktopOnline _) => true
  | broker (.takeBugReportBuffer ..) => true
  | _ => false

def opensUpload : Call -> Bool
  | broker (.beginUpload ..) => true
  | _ => false

def forwardsTail : Call -> Bool
  | broker (.sendToDesktop _ msg) => msg.tailOf?.isSome
  | _ => false

end Call

/-- What a handler has been answered when it opens an upload or forwards a tail. -/
structure Transferring (role : ConnectionRole) (past : List CallAnswer) (call : Call) :
    Prop where
  opening : call.opensUpload = true -> past = []
  tail : forall u msg id, call = .broker (.sendToDesktop u msg) -> msg.tailOf? = some id ->
    exists a earlier d c, past = a :: earlier ∧ passesTail u id c a = true ∧ role = .client u d ∧
      forall b, b ∈ earlier -> b.call.prepares = true
  panic : call = .panic -> forall u id, ¬ Unannounced u id past

def Announced (role : ConnectionRole) (past : List CallAnswer) : Prop :=
  forall u d id, role = .client u d -> ¬ Unannounced u id past

def Transfers (role : ConnectionRole) (past : List CallAnswer) (task : Handler Unit) : Prop :=
  Program.Obeys (Transferring role) past task fun past _ => Announced role past

namespace Handler

def isAside (call : Call) : Bool :=
  !call.opensUpload && !call.forwardsTail

section

variable {c : ConnId} {frame : Inbound} {role : ConnectionRole} {past : List CallAnswer}
  {call : Call} {task : Handler Unit} {u id : String}

theorem transferring_of_aside (h : isAside call = true)
    (hpast : forall u id, ¬ Unannounced u id past) : Transferring role past call where
  opening := by
    intro hopens
    simp [isAside, hopens] at h
  tail := by
    intro u msg id hcall htail
    subst hcall
    simp [isAside, Call.forwardsTail, htail] at h
  panic := fun _ => hpast

theorem unannounced_aside (call : Call) (h : isAside call = true)
    (hpast : forall u id, ¬ Unannounced u id past)
    (r : call.Reply) (u id : String) : ¬ Unannounced u id (⟨call, r⟩ :: past) := by
  intro hstands
  rcases standing_cons.mp hstands with haccepts | ⟨_, hold⟩
  · have hopens : call.opensUpload = true := by
      cases call
      case broker op => cases op <;> first | rfl | cases haccepts
      all_goals cases haccepts
    simp [isAside, hopens] at h
  · exact hpast u id hold

theorem transfers_of_aside (h : Makes isAside task)
    (hpast : forall u id, ¬ Unannounced u id past) : Transfers role past task := by
  unfold Makes at h
  generalize ([] : List CallAnswer) = seen at h
  induction task generalizing past seen with
  | done value => exact fun u d id _ => hpast u id
  | invoke call next ih =>
      exact ⟨transferring_of_aside h.1 hpast,
        fun r => ih r (unannounced_aside _ h.1 hpast r) _ (h.2 r)⟩

theorem transfers_start (h : Makes isAside task) : Transfers role [] task :=
  transfers_of_aside h fun _ _ => not_standing_nil

theorem aside_of_behaves (h : Behaves c frame role past task)
    (hopens : Makes (fun call => !call.opensUpload) task)
    (hend : forall id text, frame.control? ≠ some (.fileUploadEnd id text))
    (hbinary : forall data, frame ≠ .binary data) : Makes isAside task := by
  unfold Makes at hopens
  generalize ([] : List CallAnswer) = seen at hopens
  induction task generalizing past seen with
  | done value => trivial
  | invoke call next ih =>
      refine ⟨?_, fun r => obeys_past (ih r (h.2 r) _ (hopens.2 r))⟩
      have hforwards : call.forwardsTail = false := by
        cases h.1.permitted
        case privately hcall => cases call <;> first | rfl | cases hcall
        case forward v d msg hrole hmsg hplain => cases msg <;> first | rfl | cases hplain
        case forwardBytes v d data hrole hdata => exact absurd hdata (hbinary data)
        case ownUpload v op hrole hcall => cases op <;> first | rfl | cases hcall
        case desktopCall v op hrole hcall => cases op <;> first | rfl | cases hcall
        case forwardEnd v d id text hrole hmsg hdone => exact absurd hmsg (hend id text)
        all_goals rfl
      have hclosed : (!call.opensUpload) = true := hopens.1
      simp [isAside, hforwards, hclosed]

/-!
### Frames of no upload
-/

theorem closed_of_routine (h : Routine task) : Makes (fun call => !call.opensUpload) task := by
  refine h.mono fun call hcall => ?_
  cases call
  case broker op => cases op <;> first | rfl | cases hcall
  all_goals rfl

theorem aside_of_credential (h : Makes Call.isCredential task) : Makes isAside task := by
  refine h.mono fun call hcall => ?_
  cases call
  case broker op =>
      cases op
      case sendToDesktop v msg =>
          cases msg
          case text msg => cases msg <;> first | rfl | cases hcall
          all_goals cases hcall
      all_goals first | rfl | cases hcall
  all_goals rfl

/-!
### Frames of an upload
-/

theorem unannounced_cons_of_aside {a : CallAnswer} (h : accepts u id a = false)
    (hpast : ¬ Unannounced u id past) : ¬ Unannounced u id (a :: past) := by
  intro hstands
  rcases standing_cons.mp hstands with haccepts | ⟨_, hold⟩
  · rw [h] at haccepts
    cases haccepts
  · exact hpast hold

theorem transferring_of_call (h : isAside call = true) (hpanic : call ≠ .panic) :
    Transferring role past call where
  opening := by
    intro hopens
    simp [isAside, hopens] at h
  tail := by
    intro u msg id hcall htail
    subst hcall
    simp [isAside, Call.forwardsTail, htail] at h
  panic := fun hcall => absurd hcall hpanic

theorem transferring_open {size : Nat} :
    Transferring role [] (.broker (.beginUpload u id size c)) where
  opening := fun _ => rfl
  tail := by
    intro _ _ _ hcall
    cases hcall
  panic := by
    intro hcall
    cases hcall

theorem transfers_refused {size : Nat} {reason : String} (h : Makes isAside task) :
    Transfers role [⟨.broker (.beginUpload u id size c), .error reason⟩] task :=
  transfers_of_aside h fun _ _ => unannounced_cons_of_aside rfl not_standing_nil

theorem transfers_announce {msg : ControlMessage} (hbegins : (WsMessage.text msg).begins id = true)
    (hpast : forall v i, Unannounced v i past -> v = u ∧ i = id) :
    Transfers role past (sendToDesktop u (.text msg)) := by
  have haside : isAside (.broker (.sendToDesktop u (.text msg))) = true := by
    cases msg <;> first | rfl | cases hbegins
  refine ⟨transferring_of_call haside (by intro h; cases h), fun r => ?_⟩
  intro v d i hrole hstands
  rcases standing_cons.mp hstands with haccepts | ⟨hkept, hold⟩
  · cases haccepts
  · rcases hpast v i hold with ⟨rfl, rfl⟩
    simp [forwardsBegin, hbegins] at hkept

theorem transfers_handleFileUploadBegin {kind name mime : String} {size : UInt64}
    {session : Option String} :
    Transfers role [] (handleFileUploadBegin (.fileUploadBegin id kind name size mime session) id
      kind size role c) := by
  have honly : forall {w} {r : Except String Unit} v i,
      Unannounced v i [⟨.broker (.beginUpload w id size.toNat c), r⟩] -> v = w ∧ i = id := by
    intro w r v i hstands
    rcases standing_cons.mp hstands with haccepts | ⟨_, hold⟩
    · cases r with
      | error reason => cases haccepts
      | ok _ =>
          have heq : w = v ∧ id = i := of_decide_eq_true haccepts
          exact ⟨heq.1.symm, heq.2.symm⟩
    · exact absurd hold not_standing_nil
  cases role with
  | unauthenticated => exact transfers_start makes_skip
  | client w d =>
      unfold handleFileUploadBegin
      by_cases hlarge : kind = "bug_report" ∧ maxBugReportUploadSize < size.toNat
      · simp only [if_pos hlarge]
        exact transfers_start (makes_act rfl)
      · simp only [if_neg hlarge]
        refine ⟨transferring_open, fun r => ?_⟩
        cases r with
        | error reason => exact transfers_refused (makes_act rfl)
        | ok _ =>
            have hbegins : (WsMessage.text (.fileUploadBegin id kind name size mime session)).begins
                id = true := decide_eq_true rfl
            by_cases hkind : kind = "bug_report"
            · simp only [if_pos hkind]
              refine ⟨transferring_of_call rfl (by intro h; cases h), fun _ => ?_⟩
              refine transfers_announce hbegins fun v i hstands => ?_
              rcases standing_cons.mp hstands with haccepts | ⟨_, hold⟩
              · cases haccepts
              · exact honly v i hold
            · simp only [if_neg hkind]
              exact transfers_announce hbegins honly
  | desktop w =>
      unfold handleFileUploadBegin
      by_cases hskip : kind ≠ "bug_report" ∨ maxBugReportUploadSize < size.toNat
      · simp only [if_pos hskip]
        exact transfers_start makes_skip
      · simp only [if_neg hskip]
        refine ⟨transferring_open, fun r => ?_⟩
        cases r with
        | error reason => exact transfers_refused makes_skip
        | ok _ =>
            refine ⟨transferring_of_call rfl (by intro h; cases h), fun _ => ?_⟩
            intro v d i hrole
            cases hrole

theorem transfers_finishUpload {d : String} {text : Option String}
    (hprepared : forall a, a ∈ past -> a.call.prepares = true)
    (hpast : forall u id, ¬ Unannounced u id past) :
    Transfers (.client u d) past (finishUpload (.fileUploadEnd id text) u id c) := by
  have hfinished := unannounced_aside (.broker (.finishUpload u id c)) rfl hpast ()
  refine ⟨transferring_of_aside rfl hpast, fun _ => ⟨?_, fun r => ?_⟩⟩
  · exact
      { opening := by
          intro hopens
          cases hopens
        tail := by
          intro v msg i hcall htail
          cases hcall
          have hid : id = i := Option.some.inj htail
          subst hid
          exact ⟨_, past, d, c, rfl, by simp [passesTail], rfl, hprepared⟩
        panic := by
          intro hcall
          cases hcall }
  · intro v e i _
    exact unannounced_cons_of_aside rfl (hfinished v i)

theorem transfers_handleFileUploadEnd {text : Option String} :
    Transfers role [] (handleFileUploadEnd (.fileUploadEnd id text) id text role c) := by
  have hnothing : forall u id, ¬ Unannounced u id [] := fun _ _ => not_standing_nil
  cases role with
  | unauthenticated => exact transfers_start makes_skip
  | client u d =>
      refine ⟨transferring_of_aside rfl hnothing, fun taken => ?_⟩
      have htaken := unannounced_aside (.broker (.takeBugReportBuffer u id c)) rfl hnothing
        taken
      cases taken with
      | none => exact transfers_finishUpload (by simp [Call.prepares]) htaken
      | some screenshot =>
          refine ⟨transferring_of_aside rfl htaken, fun stored => ?_⟩
          have hstored := unannounced_aside
            (.persistBugReport u d none (text.getD "") screenshot) rfl htaken stored
          refine ⟨transferring_of_aside rfl hstored, fun online => ?_⟩
          have hasked := unannounced_aside (.broker (.isDesktopOnline u)) rfl hstored online
          cases online with
          | true => exact transfers_finishUpload (by simp [Call.prepares]) hasked
          | false => exact transfers_of_aside (makes_then rfl (makes_act rfl)) hasked
  | desktop u =>
      refine transfers_start (makes_ask rfl fun taken => ?_)
      cases taken with
      | none => exact makes_act rfl
      | some screenshot => exact makes_then rfl (makes_act rfl)

theorem tailOf?_of_parse {data payload : Bytes} {frameType : UInt8}
    (h : parseBinaryFrame data = .ok (frameType, id, payload)) :
    (WsMessage.binary data).tailOf? = if frameType = ptyFileChunk then some id else none := by
  simp [WsMessage.tailOf?, h]

theorem transfers_handleFileChunk {data : Slice} {payload : Bytes} {d : String}
    (h : parseBinaryFrame data.bytes = .ok (ptyFileChunk, id, payload)) :
    Transfers (.client u d) [] (handleFileChunk data id u c) := by
  have hnothing : forall u id, ¬ Unannounced u id [] := fun _ _ => not_standing_nil
  refine ⟨transferring_of_aside rfl hnothing, fun decision => ?_⟩
  have hdecided := unannounced_aside
    (.broker (.recordUploadChunk u id c (data.drop binaryHeaderLen))) rfl hnothing decision
  cases decision with
  | drop => exact transfers_of_aside makes_skip hdecided
  | overrun => exact transfers_of_aside (makes_act rfl) hdecided
  | forward =>
      refine ⟨?_, fun r v e i _ => unannounced_cons_of_aside rfl (hdecided v i)⟩
      exact
        { opening := by
            intro hopens
            cases hopens
          tail := by
            intro v msg i hcall htail
            cases hcall
            have hid : i = id := by simpa [tailOf?_of_parse h, eq_comm] using htail
            subst hid
            exact ⟨_, [], d, c, rfl, by simp [passesTail], rfl, by simp⟩
          panic := by
            intro hcall
            cases hcall }

theorem transfers_handleBinaryMessage {data : Slice} :
    Transfers role [] (handleBinaryMessage data role c) := by
  unfold handleBinaryMessage
  cases hparse : parseBinaryFrame data.bytes with
  | error e => exact transfers_start makes_skip
  | ok parsed =>
      rcases parsed with ⟨frameType, i, payload⟩
      cases role with
      | unauthenticated => exact transfers_start makes_skip
      | client v d =>
          simp only []
          by_cases hinput : frameType = ptyInput
          · rw [if_pos hinput]
            have hother : (WsMessage.binary data.bytes).tailOf? = none := by
              rw [tailOf?_of_parse hparse, if_neg]
              rw [hinput]
              decide
            refine transfers_start (makes_act ?_)
            simp [isAside, Call.opensUpload, Call.forwardsTail, hother]
          · by_cases hchunk : frameType = ptyFileChunk
            · rw [if_neg hinput, if_pos hchunk]
              subst hchunk
              exact transfers_handleFileChunk hparse
            · rw [if_neg hinput, if_neg hchunk]
              exact transfers_start makes_skip
      | desktop v =>
          simp only []
          split
          · exact transfers_start (makes_act rfl)
          · split
            · refine transfers_start (makes_ask rfl fun decision => ?_)
              cases decision with
              | drop => exact makes_skip
              | _ => exact makes_act rfl
            · split
              · exact transfers_start (makes_act rfl)
              · split
                · refine transfers_start (makes_ask rfl fun target => ?_)
                  cases target with
                  | none => exact makes_act rfl
                  | some tx => exact makes_act rfl
                · exact transfers_start makes_skip

theorem transfers_handleControlMessage {env : Env} {ip : String} {msg : ControlMessage}
    (hframe : frame.control? = some msg) (hbinary : forall data, frame ≠ .binary data) :
    Transfers role [] (handleControlMessage env msg role c ip) := by
  cases hroutine : msg.isRoutine with
  | true =>
      by_cases hend : exists id text, msg = .fileUploadEnd id text
      · rcases hend with ⟨id, text, rfl⟩
        exact transfers_handleFileUploadEnd
      · refine transfers_start (aside_of_behaves (handleControlMessage_behaves hframe)
          (closed_of_routine (handleControlMessage_routine hroutine)) ?_ hbinary)
        intro id text hmsg
        rw [hframe] at hmsg
        exact hend ⟨id, text, Option.some.inj hmsg⟩
  | false =>
      cases msg
      case auth version username passwordHash totp deviceToken desktopKey =>
          unfold handleControlMessage
          by_cases hvalid : isValidUsername username = true
          · simp only [if_pos hvalid]
            exact transfers_start (aside_of_credential (handleAuth_credential passwordHash totp
              deviceToken desktopKey))
          · simp only [if_neg hvalid]
            exact transfers_start (makes_act rfl)
      case deviceApproved d =>
          exact transfers_start (aside_of_credential handleDeviceApproved_credential)
      case fileUploadBegin => exact transfers_handleFileUploadBegin
      all_goals cases hroutine

theorem processWsMessage_transfers (env : Env) (frame : Inbound) (role : ConnectionRole)
    (c : ConnId) (ip : String) : Transfers role [] (processWsMessage env frame role c ip) := by
  cases frame with
  | text size parsed =>
      unfold processWsMessage
      by_cases hsize : maxTextMessageSize < size
      · simp only [if_pos hsize]
        exact transfers_start makes_skip
      · simp only [if_neg hsize]
        cases parsed with
        | none => exact transfers_start makes_skip
        | some msg =>
            have hframe : (Inbound.text size (some msg)).control? = some msg := if_neg hsize
            exact transfers_handleControlMessage hframe (by intro data h; cases h)
  | binary data =>
      unfold processWsMessage
      by_cases hsize : maxBinaryMessageSize < data.length
      · simp only [dif_pos hsize]
        exact transfers_start makes_skip
      · simp only [dif_neg hsize]
        exact transfers_handleBinaryMessage
  | other => exact transfers_start makes_skip

end

end Handler

/-!
## Live uploads
-/

namespace Broker

def Uploading (b : Broker) (now : Instant) (u id : String) (c : ConnId) : Prop :=
  exists e, b.upload? u id = some e ∧ e.live now = true ∧ e.owner = c

section

variable {b b' : Broker} {now start : Instant} {u id : String} {c tx : ConnId}

theorem live_earlier {e : UploadEntry} (h : e.live now = true) (hle : start ≤ now) :
    e.live start = true := by
  have hlive : (now - e.lastActivity) / 1000000000 < uploadIdleTimeoutSecs := of_decide_eq_true h
  refine decide_eq_true (Nat.lt_of_le_of_lt ?_ hlive)
  exact Nat.div_le_div_right (Nat.sub_le_sub_right hle _)

theorem Uploading.earlier (h : b.Uploading now u id c) (hle : start ≤ now) :
    b.Uploading start u id c := by
  rcases h with ⟨e, he, hlive, howner⟩
  exact ⟨e, he, live_earlier hlive hle, howner⟩

theorem uploading_congr (h : b'.account u = b.account u) (now : Instant) (id : String)
    (c : ConnId) : b'.Uploading now u id c <-> b.Uploading now u id c := by
  simp [Uploading, upload?, part_congr h]

theorem owner_of_swept {upload : Option UploadEntry} {e : UploadEntry}
    (h : UploadEntry.swept now upload = some e) :
    upload = some e ∧ e.live now = true :=
  Option.filter_eq_some_iff.mp h

theorem owner_uploadAfter {op : BrokerCall} {r : op.Reply} {upload : Option UploadEntry}
    {e : UploadEntry} (h : uploadAfter now id op r upload = some e) (hlive : e.live now = true)
    (hu : op.subject? = some u) :
    accepts u id ⟨.broker op, r⟩ = true ∧ (exists size, op = .beginUpload u id size e.owner) ∨
      accepts u id ⟨.broker op, r⟩ = false ∧
        exists old, upload = some old ∧ old.live now = true ∧ old.owner = e.owner := by
  cases op
  case beginUpload v i size conn =>
      cases hu
      by_cases hnew : id = i ∧ r = .ok ()
      · rcases hnew with ⟨rfl, rfl⟩
        simp only [uploadAfter, and_self, if_true, Option.some.injEq] at h
        subst h
        exact Or.inl ⟨by simp [accepts], size, rfl⟩
      · simp only [uploadAfter, if_neg hnew] at h
        refine Or.inr ⟨?_, e, (owner_of_swept h).1, hlive, rfl⟩
        cases r with
        | error reason => rfl
        | ok _ =>
            have hne : ¬ i = id := fun heq => hnew ⟨heq.symm, rfl⟩
            simp [accepts, hne]
  case markBugReportUpload v i conn =>
      refine Or.inr ⟨rfl, ?_⟩
      by_cases hid : id = i
      · simp only [uploadAfter, if_pos hid] at h
        rcases Option.map_eq_some_iff.mp h with ⟨old, hold, hmark⟩
        refine ⟨old, hold, ?_, ?_⟩
        · rw [← hmark] at hlive
          unfold UploadEntry.marked at hlive
          split at hlive <;> exact hlive
        · rw [← hmark]
          unfold UploadEntry.marked
          split <;> rfl
      · simp only [uploadAfter, if_neg hid] at h
        exact ⟨e, h, hlive, rfl⟩
  case takeBugReportBuffer v i conn =>
      refine Or.inr ⟨rfl, ?_⟩
      by_cases hid : id = i
      · simp only [uploadAfter, if_pos hid] at h
        rcases Option.map_eq_some_iff.mp h with ⟨old, hold, htake⟩
        refine ⟨old, hold, ?_, ?_⟩
        · rw [← htake] at hlive
          unfold UploadEntry.taken at hlive
          split at hlive <;> exact hlive
        · rw [← htake]
          unfold UploadEntry.taken
          split <;> rfl
      · simp only [uploadAfter, if_neg hid] at h
        exact ⟨e, h, hlive, rfl⟩
  case recordUploadChunk v i conn payload =>
      refine Or.inr ⟨by cases r <;> rfl, ?_⟩
      by_cases hid : id = i
      · simp only [uploadAfter, if_pos hid] at h
        cases hswept : UploadEntry.swept now upload with
        | none =>
            rw [hswept] at h
            cases h
        | some old =>
            rw [hswept] at h
            rcases owner_of_swept hswept with ⟨hold, holdlive⟩
            refine ⟨old, hold, holdlive, ?_⟩
            unfold UploadEntry.afterChunk at h
            simp only [] at h
            split at h
            · exact congrArg _ (Option.some.inj h)
            · split at h
              · cases h
              · rw [← Option.some.inj h]
                rfl
      · simp only [uploadAfter, if_neg hid] at h
        exact ⟨e, (owner_of_swept h).1, hlive, rfl⟩
  case finishUpload v i conn =>
      refine Or.inr ⟨rfl, ?_⟩
      by_cases hid : id = i
      · simp only [uploadAfter, if_pos hid] at h
        rcases Option.map_eq_some_iff.mp h with ⟨old, hold, hfinish⟩
        rcases owner_of_swept hold with ⟨hold, holdlive⟩
        refine ⟨old, hold, holdlive, ?_⟩
        rw [← hfinish]
        unfold UploadEntry.finishedAt
        split <;> rfl
      · simp only [uploadAfter, if_neg hid] at h
        exact ⟨e, (owner_of_swept h).1, hlive, rfl⟩
  case resolveUpload v i =>
      refine Or.inr ⟨rfl, ?_⟩
      by_cases hid : id = i
      · simp only [uploadAfter, if_pos hid] at h
        cases h
      · simp only [uploadAfter, if_neg hid] at h
        exact ⟨e, (owner_of_swept h).1, hlive, rfl⟩
  case unregisterClient v d conn =>
      exact Or.inr ⟨rfl, e, (Option.filter_eq_some_iff.mp h).1, hlive, rfl⟩
  case unregisterDesktop v conn =>
      exact Or.inr ⟨rfl, e, (Option.filter_eq_some_iff.mp h).1, hlive, rfl⟩
  all_goals exact Or.inr ⟨rfl, e, h, hlive, rfl⟩

theorem uploading_exec {op : BrokerCall} (h : (b.exec now op).1.Uploading now u id c) :
    accepts u id ⟨.broker op, (b.exec now op).2⟩ = true ∧
        (exists size, op = .beginUpload u id size c) ∨
      accepts u id ⟨.broker op, (b.exec now op).2⟩ = false ∧ b.Uploading now u id c := by
  rcases h with ⟨e, he, hlive, rfl⟩
  by_cases hu : op.subject? = some u
  · rw [upload?_exec hu] at he
    rcases owner_uploadAfter he hlive hu with hnew | ⟨hno, old, hold, holdlive, howner⟩
    · exact Or.inl hnew
    · exact Or.inr ⟨hno, old, hold, holdlive, howner⟩
  · rw [upload?_exec_other hu] at he
    refine Or.inr ⟨?_, e, he, hlive, rfl⟩
    cases op
    case beginUpload v i size conn =>
        have hne : ¬ v = u := fun heq => hu (congrArg some heq)
        cases hr : (b.exec now (.beginUpload v i size conn)).2 with
        | error reason => rfl
        | ok _ => simp [accepts, hne]
    all_goals rfl

end

end Broker

/-!
## Uploads and their desktop
-/

namespace RelayEvent

def opens (u id : String) (e : RelayEvent) : Bool :=
  accepts u id e.answered

def announces (u id : String) (c desktop : ConnId) (e : RelayEvent) : Bool :=
  e.conn = c && forwardsBegin u id e.answered &&
    e.enqueued.any fun m => m.1 = desktop && m.2.begins id

/-- The event enqueues a chunk or an end of the upload to the desktop. -/
def continues (u id : String) (desktop : ConnId) (e : RelayEvent) : Bool :=
  match e.answered.call with
  | .broker (.sendToDesktop v msg) =>
      v = u && msg.tailOf? = some id && e.enqueued.any fun m => m.1 = desktop
  | _ => false

end RelayEvent

namespace Relay

/-- The connection's begin of the upload was enqueued to the desktop, and no upload
has been opened under the id since. -/
def AnnouncedTo (u id : String) (c desktop : ConnId) (log : List RelayEvent) : Prop :=
  Standing (RelayEvent.announces u id c desktop) (RelayEvent.opens u id) log

/-- The connection's last call let a chunk or an end of its upload through, and the
upload had been announced to the desktop. -/
def Continues (u id : String) (c desktop : ConnId) (log : List RelayEvent) : Prop :=
  exists gap e before, log = gap ++ e :: before ∧ (forall f, f ∈ gap -> f.conn ≠ c) ∧
    e.conn = c ∧ passesTail u id c e.answered = true ∧ AnnouncedTo u id c desktop before

/-- Every chunk and every end that was enqueued to a desktop belongs to an upload whose
begin was enqueued to it. -/
def TailsAnnounced (log : List RelayEvent) : Prop :=
  forall later e before, log = later ++ e :: before -> forall u id desktop,
    e.continues u id desktop = true -> Continues u id e.conn desktop before

def forwardsNext (s : Relay) (u : String) (c : ConnId) : Bool :=
  match s.upcoming c with
  | some (.broker (.sendToDesktop v msg)) => v = u && msg.tailOf?.isSome
  | _ => false

/-- A client's upload is in progress in the account: its entry is live, or a chunk or
an end of it is about to be forwarded. -/
def transferring (s : Relay) (u : String) (now : Instant) : Bool :=
  ((s.account u).map fun st => st.uploads.entries.any fun e =>
    e.2.live now && s.role e.2.owner ≠ .desktop u).getD false ||
  s.log.any fun e => s.forwardsNext u e.conn

def publishing (s : Relay) (u : String) (now : Instant) (c : ConnId) : Bool :=
  ((s.account u).map fun st => st.uploads.entries.any fun e =>
    e.2.live now && e.2.owner = c).getD false

/-- A desktop is registered anew only when no client's upload is in progress, a
desktop changes its role only when it has no upload, and an end is for a live upload
of its sender. -/
def keepsDesktop (s : Relay) : RelayLabel -> Bool
  | .resume c a =>
      match s.upcoming c with
      | some (.broker (.registerDesktop u tx _)) =>
          (s.account u).bind AccountState.desktopTx = some tx || !s.transferring u a.now
      | some (.broker (.finishUpload u id conn)) =>
          (s.broker.upload? u id).any fun e => e.live a.now && e.owner = conn
      | some (.setRole _) =>
          match s.role c with
          | .desktop u => !s.publishing u a.now c
          | _ => true
      | _ => true
  | _ => true

def KeepsDesktop (s : Relay) (l : RelayLabel) : Prop :=
  s.keepsDesktop l = true

instance (s : Relay) (l : RelayLabel) : Decidable (s.KeepsDesktop l) :=
  inferInstanceAs (Decidable (_ = true))

/-!
### The invariant
-/

/-- Where a live upload stands: it was announced to the desktop that is registered,
or its begin is on its way, or it is one of a desktop's own. -/
inductive Held (s : Relay) (u id : String) (c : ConnId) : Prop where
  | announced (h : forall desktop, s.broker.Holds u .desktop desktop ->
      s.broker.alive desktop = true -> AnnouncedTo u id c desktop s.log)
  | beginning {frame d past task} (hact : s.activity c = .handling frame (.client u d) past task)
      (h : Unannounced u id past)
  | desktop (h : s.role c = .desktop u)

structure Tailed (s : Relay) : Prop where
  vacant : forall {c}, s.activity c = .vacant -> s.role c = .unauthenticated
  transfers : forall {c frame role past task}, s.activity c = .handling frame role past task ->
    Transfers role past task
  uploads : forall {u id c}, s.broker.Uploading s.clock u id c -> Held s u id c
  next : forall {c frame role past u msg id next desktop},
    s.activity c = .handling frame role past (.invoke (.broker (.sendToDesktop u msg)) next) ->
    msg.tailOf? = some id -> s.broker.Holds u .desktop desktop ->
    s.broker.alive desktop = true -> Continues u id c desktop s.log
  announced : TailsAnnounced s.log

theorem tailed_init (auth : AuthManager) (database : Database) :
    Tailed (init auth database) where
  vacant := fun _ => rfl
  transfers := fun hact => by cases hact
  uploads := by
    rintro u id c ⟨e, he, _⟩
    simp [init, broker, Broker.upload?, Broker.part, Broker.account, Broker.new] at he
  next := fun hact => by cases hact
  announced := by
    intro later e before hlog
    exact absurd hlog.symm (by simp [init])

theorem Continues.cons {u id : String} {c desktop : ConnId} {log : List RelayEvent}
    {e : RelayEvent} (h : Continues u id c desktop log) (hne : e.conn ≠ c) :
    Continues u id c desktop (e :: log) := by
  rcases h with ⟨gap, f, before, rfl, hgap, hrest⟩
  refine ⟨e :: gap, f, before, rfl, ?_, hrest⟩
  intro g hg
  rcases List.mem_cons.mp hg with rfl | hold
  · exact hne
  · exact hgap g hold

section

variable {env : Env} {s s' : Relay} {l : RelayLabel} {c : ConnId} {u id : String}

theorem announcedTo_step {desktop : ConnId} (hs : Sound s) (h : Transition env s l s')
    (hopens : forall e, s'.log = e :: s.log -> e.opens u id = false)
    (hannounced : AnnouncedTo u id c desktop s.log) : AnnouncedTo u id c desktop s'.log := by
  rcases log_step hs h with hlog | ⟨c', a, call, _, _, hlog, _⟩
  · rw [hlog]
    exact hannounced
  · rw [hlog, log_perform]
    exact standing_cons.mpr (Or.inr ⟨hopens _ hlog, hannounced⟩)

theorem announcedTo_forward {a : Ambient} {msg : WsMessage} {v : String} {desktop : ConnId}
    (hforwards : forwardsBegin u id
      ⟨.broker (.sendToDesktop v msg), s.answer env a (.broker (.sendToDesktop v msg))⟩ = true)
    (hslot : s.broker.Holds u .desktop desktop) (halive : s.broker.alive desktop = true) :
    AnnouncedTo u id c desktop (s.perform env c a (.broker (.sendToDesktop v msg))).log := by
  have hboth : v = u ∧ msg.begins id = true := by simpa [forwardsBegin] using hforwards
  rcases hboth with ⟨rfl, hbegins⟩
  refine standing_cons.mpr (Or.inl ?_)
  have hmem : (desktop, msg) ∈ newlyEnqueued s.broker (s.broker.sendToDesktop v msg).1 :=
    Broker.mem_sendToDesktop hslot halive
  have hany : (newlyEnqueued s.broker (s.broker.sendToDesktop v msg).1).any
      (fun m => m.1 = desktop && m.2.begins id) = true :=
    List.any_eq_true.mpr ⟨_, hmem, by simp [hbegins]⟩
  simp only [RelayEvent.announces, hforwards, decide_true, Bool.true_and]
  exact hany

theorem Held.step_beginning (ht : s.Tailed) (hstep : Transition env s l s')
    {frame : Inbound} {d : String} {past : List CallAnswer} {task : Handler Unit}
    (hact : s.activity c = .handling frame (.client u d) past task) (h : Unannounced u id past)
    (hslot : forall desktop, s'.broker.Holds u .desktop desktop ->
      s'.broker.alive desktop = true ->
      s.broker.Holds u .desktop desktop ∧ s.broker.alive desktop = true) :
    Held s' u id c := by
  cases handling_next hstep hact with
  | waits _ hact' => exact .beginning hact' h
  | calls hlabel htask hs' =>
      rename_i a call next
      cases hforwards : forwardsBegin u id ⟨call, s.answer env a call⟩ with
      | true =>
          refine .announced fun desktop hholds halive => ?_
          rcases hslot desktop hholds halive with ⟨hholds, halive⟩
          cases call
          case broker op =>
              cases op
              case sendToDesktop v msg =>
                  rw [hs', log_setActivity]
                  exact announcedTo_forward hforwards hholds halive
              all_goals cases hforwards
          all_goals cases hforwards
      | false =>
          have hact' : s'.activity c = .handling frame (.client u d)
              (⟨call, s.answer env a call⟩ :: past) (next (s.answer env a call)) := by
            rw [hs', activity_setActivity_same]
          exact .beginning hact' (standing_cons.mpr (Or.inr ⟨hforwards, h⟩))
  | panics htask =>
      rw [htask] at hact
      exact absurd h ((ht.transfers hact).1.panic rfl u id)
  | returns htask =>
      rw [htask] at hact
      exact absurd h (ht.transfers hact u d id rfl)

theorem Held.step (hs : Sound s) (ht : s.Tailed) (hstep : Transition env s l s')
    (h : Held s u id c)
    (hslot : forall desktop, s'.broker.Holds u .desktop desktop ->
      s'.broker.alive desktop = true ->
      s.broker.Holds u .desktop desktop ∧ s.broker.alive desktop = true)
    (hopens : forall e, s'.log = e :: s.log -> e.opens u id = false)
    (hrole : s.role c = .desktop u -> s'.role c = .desktop u) : Held s' u id c := by
  cases h with
  | announced hannounced =>
      refine .announced fun desktop hholds halive => ?_
      rcases hslot desktop hholds halive with ⟨hholds, halive⟩
      exact announcedTo_step hs hstep hopens (hannounced desktop hholds halive)
  | beginning hact hunannounced => exact Held.step_beginning ht hstep hact hunannounced hslot
  | desktop hdesktop => exact .desktop (hrole hdesktop)

/-!
### One step
-/

theorem desktop_kept (hs : Sound s) (hkeeps : s.KeepsDesktop l) (hstep : Transition env s l s')
    {desktop : ConnId} (h : s'.broker.Holds u .desktop desktop) :
    s.broker.Holds u .desktop desktop ∨
      exists c a frame role past capabilities next, l = .resume c a ∧
        s.activity c = .handling frame role past
          (.invoke (.broker (.registerDesktop u desktop capabilities)) next) ∧
        s.transferring u s'.clock = false := by
  rcases desktop_step (step_effect hs hstep) h with
    hold | ⟨c, a, frame, role, past, capabilities, next, rfl, hclock, hbusy⟩
  · exact Or.inl hold
  · simp only [KeepsDesktop, keepsDesktop, upcoming, hbusy, Bool.or_eq_true,
      decide_eq_true_eq, Bool.not_eq_true'] at hkeeps
    rcases hkeeps with hsame | hnone
    · rcases Option.bind_eq_some_iff.mp hsame with ⟨st, hst, hslot⟩
      exact Or.inl ⟨st, hst, hslot⟩
    · rw [hclock]
      exact Or.inr ⟨c, a, frame, role, past, capabilities, next, rfl, hbusy, hnone⟩

theorem any_of_uploading {now : Instant} (h : s.broker.Uploading now u id c)
    {p : UploadEntry -> Bool} (hp : forall e : UploadEntry, e.live now = true -> e.owner = c ->
      p e = true) :
    ((s.account u).map fun st => st.uploads.entries.any fun e => p e.2).getD false = true := by
  rcases h with ⟨e, he, hlive, howner⟩
  rcases Option.bind_eq_some_iff.mp he with ⟨st, hst, hentry⟩
  have hst : s.account u = some st := hst
  rw [hst, Option.map_some, Option.getD_some]
  exact List.any_eq_true.mpr ⟨⟨id, e⟩, AList.mem_lookup_iff.mp hentry, hp e hlive howner⟩

theorem desktop_of_uploading {now : Instant} (h : s.broker.Uploading now u id c)
    (hnone : s.transferring u now = false) : s.role c = .desktop u := by
  apply Classical.byContradiction
  intro hrole
  have hany := any_of_uploading h (p := fun e => e.live now && s.role e.owner ≠ .desktop u)
    fun e hlive howner => by simp [hlive, howner, hrole]
  have hbusy : s.transferring u now = true := by
    rw [transferring, hany]
    rfl
  rw [hnone] at hbusy
  cases hbusy

theorem desktop_role_kept (hs : Sound s) (ht : s.Tailed) (hkeeps : s.KeepsDesktop l)
    (hstep : Transition env s l s') (hrole : s.role c = .desktop u)
    (hupload : s.broker.Uploading s'.clock u id c) : s'.role c = .desktop u := by
  rcases role_step hs hstep c with hsame | ⟨_, hvacant⟩ | ⟨a, frame, role, past, next, rfl, hbusy⟩
  · rw [hsame]
    exact hrole
  · rw [ht.vacant hvacant] at hrole
    cases hrole
  · have hclock : s'.role c = s.role c ∨ s'.clock = a.now := by
      cases handling_next hstep hbusy with
      | waits hsocket _ => exact Or.inl (by rw [Relay.role, hsocket, Relay.role])
      | calls hlabel htask hs' =>
          cases hlabel
          exact Or.inr (by rw [hs', clock_setActivity, clock_perform])
      | panics htask => cases htask
      | returns htask => cases htask
    rcases hclock with hsame | hclock
    · rw [hsame]
      exact hrole
    · have hany := any_of_uploading hupload (p := fun e => e.live s'.clock && e.owner = c)
        fun e hlive howner => by simp [hlive, howner]
      have hpublishing : s.publishing u a.now c = true := by
        rw [publishing, ← hclock]
        exact hany
      simp [KeepsDesktop, keepsDesktop, upcoming, hbusy, hrole, hpublishing] at hkeeps

theorem uploading_step (hs : Sound s) (hstep : Transition env s l s')
    (h : s'.broker.Uploading s'.clock u id c) :
    (s.broker.Uploading s'.clock u id c ∧
        forall e, s'.log = e :: s.log -> e.opens u id = false) ∨
      exists c' a frame role past size next, l = .resume c' a ∧
        s'.log = (s.perform env c' a (.broker (.beginUpload u id size c))).log ∧
        s.activity c' = .handling frame role past
          (.invoke (.broker (.beginUpload u id size c)) next) ∧
        accepts u id ⟨.broker (.beginUpload u id size c),
          s.answer env a (.broker (.beginUpload u id size c))⟩ = true := by
  cases step_effect hs hstep with
  | none haccount hlog hclock halive =>
      refine Or.inl ⟨(Broker.uploading_congr (haccount u) _ _ _).mp h, fun e he => ?_⟩
      rw [hlog] at he
      exact absurd he.symm (List.cons_ne_self e s.log)
  | handler hclock hbusy hbroker hlog hnow =>
      rename_i c' a frame role past call next
      rw [hbroker, hnow] at h
      rcases broker_perform_cases env s c' a call with ⟨op, rfl⟩ | ⟨hother, hsame⟩
      · rcases Broker.uploading_exec h with ⟨haccepts, size, hopens⟩ | ⟨hno, hold⟩
        · subst hopens
          exact Or.inr ⟨c', a, frame, role, past, size, next, rfl, hlog, hbusy, haccepts⟩
        · refine Or.inl ⟨hnow ▸ hold, fun e he => ?_⟩
          rw [hlog, log_perform] at he
          rw [← (List.cons.inj he).1]
          exact hno
      · rw [hsame] at h
        refine Or.inl ⟨hnow ▸ h, fun e he => ?_⟩
        rw [hlog, log_perform] at he
        rw [← (List.cons.inj he).1]
        cases call
        case broker op => exact absurd rfl (hother op)
        all_goals rfl
  | cleanup hclock hbusy hcall hbroker hlog hnow =>
      rename_i c' a op next
      rw [hbroker, hnow] at h
      rcases Broker.uploading_exec h with ⟨_, size, hopens⟩ | ⟨hno, hold⟩
      · subst hopens
        generalize s.role c' = role at hcall
        cases hcall
      · refine Or.inl ⟨hnow ▸ hold, fun e he => ?_⟩
        rw [hlog, log_perform] at he
        rw [← (List.cons.inj he).1]
        exact hno

theorem opener {c' : ConnId} {frame : Inbound} {role : ConnectionRole} {past : List CallAnswer}
    {size : Nat} (h : Permitted c' frame role past (.broker (.beginUpload u id size c))) :
    c = c' ∧ role.account? = some u := by
  cases h with
  | privately hcall => cases hcall
  | ownUpload hrole hcall =>
      cases hcall
      exact ⟨rfl, hrole⟩
  | desktopCall hrole hcall => cases hcall

theorem uploads_step (hs : Sound s) (ht : s.Tailed) (hkeeps : s.KeepsDesktop l)
    (hstep : Transition env s l s') (h : s'.broker.Uploading s'.clock u id c) :
    Held s' u id c := by
  have heffect := step_effect hs hstep
  rcases uploading_step hs hstep h with
    ⟨hold, hopens⟩ | ⟨c', a, frame, role, past, size, next, hlabel, hlog, hbusy, haccepts⟩
  · have hheld : Held s u id c := ht.uploads (hold.earlier (clock_step heffect))
    have hrole : s.role c = .desktop u -> s'.role c = .desktop u :=
      fun hdesktop => desktop_role_kept hs ht hkeeps hstep hdesktop hold
    by_cases hslot : forall desktop, s'.broker.Holds u .desktop desktop ->
        s.broker.Holds u .desktop desktop
    · exact hheld.step hs ht hstep
        (fun desktop hholds halive => ⟨hslot desktop hholds, alive_step heffect halive⟩)
          hopens hrole
    · apply Held.desktop
      rcases Classical.not_forall.mp hslot with ⟨desktop, hnew⟩
      rcases Classical.not_imp.mp hnew with ⟨hholds, hnot⟩
      rcases desktop_kept hs hkeeps hstep hholds with
        hkept | ⟨c', a, frame, role, past, capabilities, next, _, _, hnone⟩
      · exact absurd hkept hnot
      · exact hrole (desktop_of_uploading hold hnone)
  · -- The upload is opened by this step.
    rcases opener (hs.behaves hbusy).1.permitted with ⟨hc, haccount⟩
    subst hc
    have hpast : past = [] := (ht.transfers hbusy).1.opening rfl
    subst hpast
    cases handling_next hstep hbusy with
    | waits hsocket hact => exact absurd rfl (conn_ne_of_waiting hstep hbusy hact hlog)
    | calls hlabel' htask hs' =>
        rw [hlabel] at hlabel'
        cases hlabel'
        cases htask
        cases role with
        | unauthenticated => cases haccount
        | desktop v =>
            cases haccount
            apply Held.desktop
            rw [hs', role_setActivity, role_perform, if_pos rfl]
            exact hs.role hbusy
        | client v d =>
            cases haccount
            have hact : s'.activity c = .handling frame (.client u d)
                [⟨.broker (.beginUpload u id size c),
                  s.answer env a (.broker (.beginUpload u id size c))⟩]
                (next (s.answer env a (.broker (.beginUpload u id size c)))) := by
              rw [hs', activity_setActivity_same]
            exact .beginning hact (standing_cons.mpr (Or.inl haccepts))
    | panics htask => cases htask
    | returns htask => cases htask

theorem uploading_of_passed {c' : ConnId} {a : Ambient} {frame : Inbound} {role : ConnectionRole}
    {past : List CallAnswer} {call : Call} {next : call.Reply -> Handler Unit}
    (hkeeps : s.KeepsDesktop (.resume c' a))
    (hbusy : s.activity c' = .handling frame role past (.invoke call next))
    (hpasses : passesTail u id c ⟨call, s.answer env a call⟩ = true) :
    s.broker.Uploading a.now u id c := by
  cases call
  case broker op =>
      cases op
      case recordUploadChunk v i conn payload =>
          cases hr : s.answer env a (.broker (.recordUploadChunk v i conn payload)) with
          | forward =>
              rw [hr] at hpasses
              have heq : v = u ∧ i = id ∧ conn = c := of_decide_eq_true hpasses
              rcases heq with ⟨rfl, rfl, rfl⟩
              have hdecision : UploadEntry.chunkDecision conn payload a.now
                  (UploadEntry.swept a.now (s.broker.upload? v i)) = .forward := by
                rw [← Broker.exec_recordUploadChunk_reply]
                exact hr
              cases hswept : UploadEntry.swept a.now (s.broker.upload? v i) with
              | none =>
                  rw [hswept] at hdecision
                  cases hdecision
              | some e =>
                  rcases Broker.owner_of_swept hswept with ⟨he, hlive⟩
                  refine ⟨e, he, hlive, ?_⟩
                  rw [hswept] at hdecision
                  by_cases hrejects : e.rejects conn = true
                  · simp [UploadEntry.chunkDecision, hrejects] at hdecision
                  · simp [UploadEntry.rejects] at hrejects
                    exact hrejects.2
          | drop =>
              rw [hr] at hpasses
              cases hpasses
          | overrun =>
              rw [hr] at hpasses
              cases hpasses
      case finishUpload v i conn =>
          have heq : v = u ∧ i = id ∧ conn = c := of_decide_eq_true hpasses
          rcases heq with ⟨rfl, rfl, rfl⟩
          simp only [KeepsDesktop, keepsDesktop, upcoming, hbusy] at hkeeps
          rcases (Option.any_eq_true _ _).mp hkeeps with ⟨e, he, hlive⟩
          simp only [Bool.and_eq_true, decide_eq_true_eq] at hlive
          exact ⟨e, he, hlive.1, hlive.2⟩
      all_goals cases hpasses
  all_goals cases hpasses

theorem sender_of_passed {c' : ConnId} {frame : Inbound} {role : ConnectionRole}
    {past : List CallAnswer} {call : Call} {r : call.Reply}
    (h : Permitted c' frame role past call) (hpasses : passesTail u id c ⟨call, r⟩ = true) :
    c = c' := by
  cases call
  case broker op =>
      cases op
      case recordUploadChunk v i conn payload =>
          have hconn : conn = c := by
            cases r <;> first | exact (of_decide_eq_true hpasses).2.2 | cases hpasses
          cases h with
          | privately hcall => cases hcall
          | ownUpload hrole hcall =>
              cases hcall
              exact hconn.symm
          | desktopCall hrole hcall => cases hcall
      case finishUpload v i conn =>
          have heq : v = u ∧ i = id ∧ conn = c := of_decide_eq_true hpasses
          cases h with
          | privately hcall => cases hcall
          | ownUpload hrole hcall => cases hcall
          | finishUpload hrole hframe hfirst => exact heq.2.2.symm
          | desktopCall hrole hcall => cases hcall
      all_goals cases hpasses
  all_goals cases hpasses

theorem not_unannounced_of_prepared {past : List CallAnswer}
    (h : forall b, b ∈ past -> b.call.prepares = true) : ¬ Unannounced u id past := by
  rintro ⟨since, e, before, hlog, haccepts, _⟩
  have he : e.call.prepares = true := h e (by rw [hlog]; simp)
  rcases e with ⟨call, r⟩
  cases call
  case broker op =>
      cases op <;> first | cases haccepts | cases he
  all_goals cases haccepts

theorem announcedTo_of_passed (hs : Sound s) (ht : s.Tailed) {a : Ambient} {frame : Inbound}
    {d : String} {past : List CallAnswer} {call : Call} {next : call.Reply -> Handler Unit}
    (hkeeps : s.KeepsDesktop (.resume c a)) (hclock : s.clock ≤ a.now)
    (hbusy : s.activity c = .handling frame (.client u d) past (.invoke call next))
    (hpasses : passesTail u id c ⟨call, s.answer env a call⟩ = true)
    (hprepared : forall b, b ∈ past -> b.call.prepares = true) {desktop : ConnId}
    (hslot : s.broker.Holds u .desktop desktop) (halive : s.broker.alive desktop = true) :
    AnnouncedTo u id c desktop s.log := by
  have hupload := uploading_of_passed hkeeps hbusy hpasses
  cases ht.uploads (hupload.earlier hclock) with
  | announced hannounced => exact hannounced desktop hslot halive
  | beginning hact hunannounced =>
      rw [hbusy] at hact
      cases hact
      exact absurd hunannounced (not_unannounced_of_prepared hprepared)
  | desktop hdesktop =>
      rw [hs.role hbusy, roleOf_eq] at hdesktop
      · cases hdesktop
      · intro b hb new hcall
        have hprepares := hprepared b hb
        rw [hcall] at hprepares
        cases hprepares

theorem transferring_of_next (hs : Sound s) (ht : s.Tailed) {frame : Inbound}
    {role : ConnectionRole} {past : List CallAnswer} {msg : WsMessage}
    {next : (Call.broker (.sendToDesktop u msg)).Reply -> Handler Unit}
    (hact : s.activity c = .handling frame role past
      (.invoke (.broker (.sendToDesktop u msg)) next))
    (htail : msg.tailOf? = some id) (now : Instant) : s.transferring u now = true := by
  rcases (ht.transfers hact).1.tail u msg id rfl htail with ⟨a, earlier, d, c', hpast, _⟩
  rcases hs.logged hact a (by rw [hpast]; exact List.mem_cons_self) with ⟨e, he, hconn, _⟩
  have hforwards : s.forwardsNext u e.conn = true := by
    simp [forwardsNext, upcoming, hconn, hact, htail]
  have hany : (s.log.any fun e => s.forwardsNext u e.conn) = true :=
    List.any_eq_true.mpr ⟨e, he, hforwards⟩
  rw [transferring, hany, Bool.or_true]

theorem next_step (hs : Sound s) (ht : s.Tailed) (hkeeps : s.KeepsDesktop l)
    (hstep : Transition env s l s') {frame : Inbound} {role : ConnectionRole}
    {past : List CallAnswer} {msg : WsMessage}
    {next : (Call.broker (.sendToDesktop u msg)).Reply -> Handler Unit} {desktop : ConnId}
    (htransfers : Transfers role past (.invoke (.broker (.sendToDesktop u msg)) next))
    (hact : s'.activity c = .handling frame role past
      (.invoke (.broker (.sendToDesktop u msg)) next))
    (htail : msg.tailOf? = some id) (hslot : s'.broker.Holds u .desktop desktop)
    (halive : s'.broker.alive desktop = true) : Continues u id c desktop s'.log := by
  have heffect := step_effect hs hstep
  have halive := alive_step heffect halive
  rcases handling_step hstep hact with
    hwaits | ⟨_, _, _, hpast, _⟩ | ⟨a, call, before, next', rfl, hclock, hbusy, hpast, htask⟩
  · rcases desktop_kept hs hkeeps hstep hslot with
      hkept | ⟨c', a, frame', role', past', capabilities, next', _, _, hnone⟩
    · have hcontinues := ht.next hwaits htail hkept halive
      rcases log_step hs hstep with hlog | ⟨c', a, call, _, _, hlog, _⟩
      · rw [hlog]
        exact hcontinues
      · have hne := conn_ne_of_waiting hstep hwaits hact hlog
        rw [hlog]
        exact hcontinues.cons hne
    · rw [transferring_of_next hs ht hwaits htail] at hnone
      cases hnone
  · rcases htransfers.1.tail u msg id rfl htail with ⟨a, earlier, d, c', hcons, _⟩
    rw [hpast] at hcons
    cases hcons
  · rcases htransfers.1.tail u msg id rfl htail with
      ⟨b, earlier, d, c', hcons, hpasses, hrole, hprepared⟩
    rw [hpast] at hcons hact
    cases hcons
    subst hrole
    have hsender := sender_of_passed (hs.behaves hbusy).1.permitted hpasses
    subst hsender
    have hs' := resumed_step hstep hbusy hact
    have hkept : s.broker.Holds u .desktop desktop := by
      rcases desktop_kept hs hkeeps hstep hslot with
        hkept | ⟨c'', a', frame', role', past', capabilities, next', hlabel, hregister, _⟩
      · exact hkept
      · cases hlabel
        rw [hbusy] at hregister
        cases hregister
        cases hpasses
    have hannounced := @announcedTo_of_passed env _ _ _ _ hs ht _ _ _ _ _ _ hkeeps hclock
      hbusy hpasses hprepared _
      hkept halive
    rw [hs', log_setActivity, log_perform]
    exact ⟨[], _, s.log, rfl, by simp, rfl, hpasses, hannounced⟩

theorem announced_step (hs : Sound s) (ht : s.Tailed) (hstep : Transition env s l s') :
    TailsAnnounced s'.log := by
  rcases log_step hs hstep with hlog | ⟨c, a, call, -, -, hlog, -, hcaller⟩
  · rw [hlog]
    exact ht.announced
  · intro later e before hsplit v i desktop hcontinues
    rw [hlog, log_perform] at hsplit
    clear hlog
    cases later with
    | cons first rest =>
        exact ht.announced rest e before (List.cons.inj hsplit).2 v i desktop hcontinues
    | nil =>
        rcases List.cons.inj hsplit with ⟨rfl, rfl⟩
        rcases hcaller with ⟨frame, role, past, next, hbusy⟩ | ⟨op, rfl, hclean⟩
        · cases call
          case broker op =>
              cases op
              case sendToDesktop w msg =>
                  simp only [RelayEvent.continues, Bool.and_eq_true, decide_eq_true_eq,
                    List.any_eq_true] at hcontinues
                  rcases hcontinues with ⟨⟨rfl, htail⟩, m, hm, rfl⟩
                  rcases Broker.sendToDesktop_reaches hm with ⟨hslot, halive, _⟩
                  exact ht.next hbusy htail hslot halive
              all_goals cases hcontinues
          all_goals cases hcontinues
        · generalize s.role c = role at hclean
          cases hclean <;> cases hcontinues

theorem tailed_step (hs : Sound s) (ht : s.Tailed) (hkeeps : s.KeepsDesktop l)
    (hstep : Transition env s l s') : s'.Tailed := by
  have htransfers : forall {c frame role past task},
      s'.activity c = .handling frame role past task -> Transfers role past task :=
    fun hact => obeys_step (Handler.processWsMessage_transfers env) hstep
      (fun hact => ht.transfers hact) hact
  exact
    { vacant := by
        intro c hvacant
        have hsocket := vacant_step hstep hvacant
        rw [activity, hsocket] at hvacant
        rw [role, hsocket]
        exact ht.vacant hvacant
      transfers := htransfers
      uploads := uploads_step hs ht hkeeps hstep
      next := fun hact => next_step hs ht hkeeps hstep (htransfers hact) hact
      announced := announced_step hs ht hstep }

end

/--
In every run in which a desktop is registered anew only when no client's upload is in
progress, a desktop keeps its role while it has an upload, and each end is for a live
upload of its sender, every chunk and every end that is enqueued to a desktop belongs
to an upload whose begin was enqueued to it.
-/
theorem tails_announced {env : Env} {auth : AuthManager} {database : Database}
    {labels : List RelayLabel} {s : Relay} (hrun : Runs env auth database labels s)
    (hok : Admits (step env) KeepsDesktop (init auth database) labels) :
    TailsAnnounced s.log :=
  (admitted_induction (tailed_init auth database)
    (fun _ _ _ hs ht hl hnext => tailed_step hs ht hl hnext) hrun hok).2.announced

def notes : String :=
  "00000000-0000-4000-8000-00000000000a"

def phoneBegins : List RelayLabel :=
  Deployment.turn 2
    (Deployment.message (.fileUploadBegin notes "file" "notes.txt" 10 "text/plain" none)) 2

def phoneChunk : List RelayLabel :=
  Deployment.turn 2 (.binary (buildBinaryFrame ptyFileChunk notes [1, 2, 3])) 2

theorem tails_announced_example : exists s,
    Runs Deployment.env Deployment.auth Deployment.database
      (deskAndPhone ++ phoneBegins ++ phoneChunk) s ∧
      s.log.any (fun e => e.continues "user" notes 1) = true ∧ TailsAnnounced s.log := by
  have hend : (Deployment.after (deskAndPhone ++ phoneBegins ++ phoneChunk)).map
      (fun s => s.log.any fun e => e.continues "user" notes 1) = some true := by decide +kernel
  rcases Option.map_eq_some_iff.mp hend with ⟨s, hrun, hcontinues⟩
  exact ⟨s, hrun, hcontinues, tails_announced hrun (by decide +kernel)⟩

theorem announces_of_continues {log : List RelayEvent} (h : TailsAnnounced log) {u id : String}
    {desktop : ConnId} (hcontinues : log.any (fun e => e.continues u id desktop) = true) :
    exists c, log.any (fun e => e.announces u id c desktop) = true := by
  rcases List.any_eq_true.mp hcontinues with ⟨e, he, hcontinues⟩
  rcases List.append_of_mem he with ⟨later, before, hlog⟩
  rcases h later e before hlog u id desktop hcontinues with
    ⟨gap, d, first, hbefore, _, _, _, since, f, rest, hfirst, hannounces, _⟩
  refine ⟨e.conn, List.any_eq_true.mpr ⟨f, ?_, hannounces⟩⟩
  rw [hlog, hbefore, hfirst]
  simp

/-- A desktop that takes over while the phone is uploading receives the rest of an
upload whose begin went to its predecessor. -/
theorem tail_at_successor : exists s,
    Runs Deployment.env Deployment.auth Deployment.database
      (deskAndPhone ++ phoneBegins ++ takeOver ++ phoneChunk) s ∧ ¬ TailsAnnounced s.log := by
  have hend : (Deployment.after (deskAndPhone ++ phoneBegins ++ takeOver ++ phoneChunk)).map
      (fun s => (s.log.any fun e => e.continues "user" notes 3,
        s.log.all fun e => e.enqueued.all fun m => m.1 ≠ 3 || !m.2.begins notes)) =
      some (true, true) := by decide +kernel
  rcases Option.map_eq_some_iff.mp hend with ⟨s, hrun, hfacts⟩
  simp only [Prod.mk.injEq] at hfacts
  rcases hfacts with ⟨hcontinues, hnone⟩
  refine ⟨s, hrun, fun h => ?_⟩
  rcases announces_of_continues h hcontinues with ⟨c, hannounces⟩
  rcases List.any_eq_true.mp hannounces with ⟨e, he, hannounces⟩
  simp only [RelayEvent.announces, Bool.and_eq_true, List.any_eq_true, decide_eq_true_eq]
    at hannounces
  rcases hannounces with ⟨_, m, hm, hto, hbegins⟩
  have hnot := List.all_eq_true.mp (List.all_eq_true.mp hnone e he) m hm
  simp [hto, hbegins] at hnot

end Relay

end CommandRelay
