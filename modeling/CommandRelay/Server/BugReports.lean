import CommandRelay.Broker.Uploads
import CommandRelay.Server.Relay
import CommandRelay.Server.Routine

/-!
# Bug reports

The screenshot of a bug report is buffered at the relay while it is uploaded, and
persisted with the report when the upload ends.
-/

namespace CommandRelay

open Foundation

/-!
## Handlers that work on a report
-/

/-- What leads a handler to a call on a bug report. -/
inductive ReportsOn (c : ConnId) (frame : Inbound) (role : ConnectionRole)
    (past : List CallAnswer) : Call -> Prop where
  | elsewhere {call} (hcall : call.reports = false) : ReportsOn c frame role past call
  | marked {u id name size mime session}
      (hframe : frame.control? = some (.fileUploadBegin id "bug_report" name size mime session))
      (hrole : role.account? = some u) (hsize : size.toNat ≤ maxBugReportUploadSize)
      (hbegun : past.head? = some ⟨.broker (.beginUpload u id size.toNat c), .ok ()⟩) :
      ReportsOn c frame role past (.broker (.markBugReportUpload u id c))
  | persisted {u id text d name screenshot}
      (hframe : frame.control? = some (.fileUploadEnd id text))
      (hrole : role.account? = some u)
      (htaken : past.head? = some ⟨.broker (.takeBugReportBuffer u id c), some screenshot⟩) :
      ReportsOn c frame role past (.persistBugReport u d name (text.getD "") screenshot)

namespace Handler

def Reporting (c : ConnId) (frame : Inbound) (role : ConnectionRole) (past : List CallAnswer)
    (task : Handler Unit) : Prop :=
  Program.Obeys (ReportsOn c frame role) past task fun _ _ => True

section

variable {c : ConnId} {frame : Inbound} {role : ConnectionRole} {past : List CallAnswer}
  {call : Call} {task : Handler Unit} {u d ip id kind name : String} {mime : String}
  {session : Option String} {size : UInt64}

theorem reporting_of_makes (h : Makes (fun call => !call.reports) task) :
    Reporting c frame role past task := by
  unfold Makes at h
  generalize ([] : List CallAnswer) = seen at h
  induction task generalizing seen past with
  | done value => trivial
  | invoke call next ih =>
      exact ⟨.elsewhere (Bool.not_eq_true' _ ▸ h.1), fun r => ih r _ (h.2 r)⟩

theorem reporting_of_apart (h : Apart task) : Reporting c frame role past task :=
  reporting_of_makes (h.mono fun _ hcall => (Bool.and_eq_true_iff.mp hcall).2)

theorem reporting_ask {next : call.Reply -> Handler Unit} (hcall : ReportsOn c frame role past call)
    (hnext : forall r, Reporting c frame role (⟨call, r⟩ :: past) (next r)) :
    Reporting c frame role past (ask call >>= next) :=
  ⟨hcall, hnext⟩

theorem reporting_then (hcall : ReportsOn c frame role past call)
    (htask : forall r, Reporting c frame role (⟨call, r⟩ :: past) task) :
    Reporting c frame role past (act call >>= fun _ => task) :=
  ⟨hcall, htask⟩

theorem reporting_act (hcall : ReportsOn c frame role past call) :
    Reporting c frame role past (act call) :=
  ⟨hcall, fun _ => trivial⟩

theorem reporting_of_credential (h : Makes Call.isCredential task) :
    Reporting c frame role past task := by
  refine reporting_of_makes (h.mono fun call hcall => ?_)
  cases call
  case broker op => cases op <;> first | rfl | cases hcall
  case persistBugReport => cases hcall
  all_goals rfl

theorem handleFileUploadBegin_reporting
    (hframe : frame.control? = some (.fileUploadBegin id kind name size mime session))
    {msg : ControlMessage} :
    Reporting c frame role past (handleFileUploadBegin msg id kind size role c) := by
  cases role with
  | unauthenticated => trivial
  | client u d =>
      simp only [handleFileUploadBegin]
      split
      · exact reporting_act (.elsewhere rfl)
      · rename_i hsmall
        refine reporting_ask (.elsewhere rfl) fun begun => ?_
        cases begun with
        | error reason => exact reporting_act (.elsewhere rfl)
        | ok _ =>
            by_cases hkind : kind = "bug_report"
            · simp only [if_pos hkind]
              subst hkind
              have hsize : size.toNat ≤ maxBugReportUploadSize :=
                Nat.le_of_not_lt fun hlarge => hsmall ⟨rfl, hlarge⟩
              exact reporting_then (.marked hframe rfl hsize rfl) fun _ =>
                reporting_act (.elsewhere rfl)
            · simp only [if_neg hkind]
              exact reporting_act (.elsewhere rfl)
  | desktop u =>
      simp only [handleFileUploadBegin]
      split
      · trivial
      · rename_i haccepted
        rcases not_or.mp haccepted with ⟨hkind, hsize⟩
        have hkind := Decidable.not_not.mp hkind
        subst hkind
        refine reporting_ask (.elsewhere rfl) fun begun => ?_
        cases begun with
        | error reason => trivial
        | ok _ => exact reporting_act (.marked hframe rfl (Nat.le_of_not_lt hsize) rfl)

theorem handleFileUploadEnd_reporting {text : Option String}
    (hframe : frame.control? = some (.fileUploadEnd id text)) {msg : ControlMessage} :
    Reporting c frame role past (handleFileUploadEnd msg id text role c) := by
  have hfinish : forall {past u}, Reporting c frame role past (finishUpload msg u id c) :=
    reporting_of_apart finishUpload_apart
  cases role with
  | unauthenticated => trivial
  | client u d =>
      refine reporting_ask (.elsewhere rfl) fun buffer => ?_
      cases buffer with
      | none => exact hfinish
      | some screenshot =>
          refine reporting_then (.persisted hframe rfl rfl) fun _ => ?_
          refine reporting_ask (.elsewhere rfl) fun online => ?_
          cases online with
          | true => exact hfinish
          | false =>
              exact reporting_then (.elsewhere rfl) fun _ => reporting_act (.elsewhere rfl)
  | desktop u =>
      refine reporting_ask (.elsewhere rfl) fun buffer => ?_
      cases buffer with
      | none => exact reporting_act (.elsewhere rfl)
      | some screenshot =>
          exact reporting_then (.persisted hframe rfl rfl) fun _ => reporting_act (.elsewhere rfl)

theorem handleControlMessage_reporting {env : Env} {msg : ControlMessage}
    (hframe : frame.control? = some msg) :
    Reporting c frame role [] (handleControlMessage env msg role c ip) := by
  have hdevice : forall {task}, Makes (fun call => call.isDeviceWork || call.takesPending) task ->
      Reporting c frame role [] task := by
    intro task h
    refine reporting_of_makes (h.mono fun call hcall => ?_)
    cases call
    case broker op => cases op <;> first | rfl | cases hcall
    all_goals first | rfl | cases hcall
  have hwork : forall {task}, Makes Call.isDeviceWork task -> Reporting c frame role [] task :=
    fun h => hdevice (h.mono fun _ hcall => Bool.or_eq_true_iff.mpr (Or.inl hcall))
  cases hapart : msg.isApart with
  | true => exact reporting_of_apart (handleControlMessage_apart hapart)
  | false =>
      cases msg
      case auth version username passwordHash totp deviceToken desktopKey =>
          unfold handleControlMessage
          by_cases hvalid : isValidUsername username = true
          · simp only [if_pos hvalid]
            exact reporting_of_credential (handleAuth_credential passwordHash totp deviceToken
              desktopKey)
          · simp only [if_neg hvalid]
            exact reporting_act (.elsewhere rfl)
      case deviceApproved => exact reporting_of_credential handleDeviceApproved_credential
      case fileUploadBegin => exact handleFileUploadBegin_reporting hframe
      case fileUploadEnd => exact handleFileUploadEnd_reporting hframe
      case deviceRejected => exact hdevice handleDeviceRejected_device
      case deviceRevoke => exact hwork handleDeviceRevoke_device
      case pushSubscribe => exact hwork handlePushSubscribe_device
      case pushUnsubscribe => exact hwork handlePushUnsubscribe_device
      all_goals cases hapart

theorem processWsMessage_reporting (env : Env) (frame : Inbound) (role : ConnectionRole)
    (c : ConnId) (ip : String) :
    Reporting c frame role [] (processWsMessage env frame role c ip) := by
  cases frame with
  | other => trivial
  | text size parsed =>
      unfold processWsMessage
      by_cases hsize : maxTextMessageSize < size
      · simp only [if_pos hsize]
        trivial
      · simp only [if_neg hsize]
        cases parsed with
        | none => trivial
        | some msg =>
            have hframe : (Inbound.text size (some msg)).control? = some msg := if_neg hsize
            exact handleControlMessage_reporting hframe
  | binary data =>
      unfold processWsMessage
      by_cases hsize : maxBinaryMessageSize < data.length
      · simp only [dif_pos hsize]
        trivial
      · simp only [dif_neg hsize]
        exact reporting_of_apart handleBinaryMessage_apart

end

end Handler

/-!
## What the log says of an upload
-/

namespace RelayEvent

variable (u id : String) (c : ConnId)

/-- The size of the upload that the event accepts from the connection. -/
def accepted? (e : RelayEvent) : Option Nat :=
  match e.answered with
  | ⟨.broker (.beginUpload v i size _), .ok _⟩ =>
      if e.conn = c ∧ v = u ∧ i = id then some size else none
  | _ => none

def chunk (e : RelayEvent) : Bytes :=
  match e.answered with
  | ⟨.broker (.recordUploadChunk v i _ payload), .forward⟩ =>
      if e.conn = c ∧ v = u ∧ i = id then payload.bytes else []
  | _ => []

def hands (e : RelayEvent) : Bool :=
  match e.answered with
  | ⟨.broker (.takeBugReportBuffer v i _), some _⟩ => decide (e.conn = c ∧ v = u ∧ i = id)
  | _ => false

end RelayEvent

section

variable (u id : String) (c : ConnId)

def declared? : List RelayEvent -> Option Nat
  | [] => none
  | e :: rest => (e.accepted? u id c).orElse fun _ => declared? rest

/-- The payloads let through since the connection's upload was last accepted, in order. -/
def received : List RelayEvent -> Bytes
  | [] => []
  | e :: rest =>
      if (e.accepted? u id c).isSome then [] else received rest ++ e.chunk u id c

/-- How often the buffer was handed out since the connection's upload was last accepted. -/
def handed : List RelayEvent -> Nat
  | [] => 0
  | e :: rest =>
      if (e.accepted? u id c).isSome then 0
      else handed rest + if e.hands u id c then 1 else 0

end

section

variable {u id : String} {c : ConnId} {e : RelayEvent} {log mid : List RelayEvent}

/-- The event is none of the connection's on the upload. -/
structure Elsewhere (u id : String) (c : ConnId) (e : RelayEvent) : Prop where
  accepted : e.accepted? u id c = none
  chunk : e.chunk u id c = []
  hands : e.hands u id c = false

theorem elsewhere_of_conn (h : e.conn ≠ c) : Elsewhere u id c e where
  accepted := by
    unfold RelayEvent.accepted?
    split
    · exact if_neg fun hall => h hall.1
    · rfl
  chunk := by
    unfold RelayEvent.chunk
    split
    · exact if_neg fun hall => h hall.1
    · rfl
  hands := by
    unfold RelayEvent.hands
    split
    · exact decide_eq_false fun hall => h hall.1
    · rfl

theorem declared?_since (h : forall e, e ∈ mid -> e.accepted? u id c = none) :
    declared? u id c (mid ++ log) = declared? u id c log := by
  induction mid with
  | nil => rfl
  | cons e rest ih =>
      rw [List.cons_append, declared?, h e List.mem_cons_self,
        ih fun e he => h e (List.mem_cons_of_mem _ he)]
      rfl

theorem handed_since (h : forall e, e ∈ mid -> e.accepted? u id c = none) :
    handed u id c log ≤ handed u id c (mid ++ log) := by
  induction mid with
  | nil => exact Nat.le_refl _
  | cons e rest ih =>
      rw [List.cons_append, handed, h e List.mem_cons_self]
      exact Nat.le_add_right_of_le (ih fun e he => h e (List.mem_cons_of_mem _ he))

theorem received_elsewhere (h : forall e, e ∈ mid -> Elsewhere u id c e) :
    received u id c (mid ++ log) = received u id c log := by
  induction mid with
  | nil => rfl
  | cons e rest ih =>
      have he := h e List.mem_cons_self
      rw [List.cons_append, received, he.accepted, he.chunk,
        ih fun e he => h e (List.mem_cons_of_mem _ he), List.append_nil]
      rfl

theorem handed_elsewhere (h : forall e, e ∈ mid -> Elsewhere u id c e) :
    handed u id c (mid ++ log) = handed u id c log := by
  induction mid with
  | nil => rfl
  | cons e rest ih =>
      have he := h e List.mem_cons_self
      rw [List.cons_append, handed, he.accepted, he.hands,
        ih fun e he => h e (List.mem_cons_of_mem _ he)]
      rfl

theorem declared?_accepted {size : Nat} (h : e.accepted? u id c = some size) :
    declared? u id c (e :: log) = some size := by
  rw [declared?, h]
  rfl

theorem received_accepted {size : Nat} (h : e.accepted? u id c = some size) :
    received u id c (e :: log) = [] := by
  rw [received, h]
  rfl

theorem handed_accepted {size : Nat} (h : e.accepted? u id c = some size) :
    handed u id c (e :: log) = 0 := by
  rw [handed, h]
  rfl

end

/-!
## Uploads that are buffered
-/

/-- What an entry keeps of an upload. -/
structure Kept (u id : String) (log : List RelayEvent) (e : UploadEntry) : Prop where
  size : declared? u id e.owner log = some e.declaredSize
  budget : e.bytesForwarded ≤ e.budget
  bytes : (received u id e.owner log).length ≤ e.bytesForwarded
  buffer : forall buf, e.buffer = some buf ->
    buf = received u id e.owner log ∧ handed u id e.owner log = 0

section

variable {u id : String} {log : List RelayEvent} {e : UploadEntry} {event : RelayEvent}
  {now : Instant} {payload : Slice} {c : ConnId}

theorem Kept.elsewhere (h : Kept u id log e) (hevent : Elsewhere u id e.owner event) :
    Kept u id (event :: log) e := by
  have hmid : forall f, f ∈ [event] -> Elsewhere u id e.owner f := by
    intro f hf
    rw [List.mem_singleton.mp hf]
    exact hevent
  exact
    { size := (declared?_since fun f hf => (hmid f hf).accepted).trans h.size
      budget := h.budget
      bytes := Nat.le_trans (Nat.le_of_eq (congrArg _ (received_elsewhere hmid))) h.bytes
      buffer := fun buf hbuf => by
        rcases h.buffer buf hbuf with ⟨hbytes, hhanded⟩
        have hreceived : received u id e.owner (event :: log) = _ := received_elsewhere hmid
        have hsame : handed u id e.owner (event :: log) = _ := handed_elsewhere hmid
        exact ⟨hbytes.trans hreceived.symm, hsame.trans hhanded⟩ }

theorem kept_opened {size : Nat} (h : event.accepted? u id c = some size)  :
    Kept u id (event :: log) (UploadEntry.opened size c now) where
  size := declared?_accepted h
  budget := Nat.zero_le _
  bytes := by
    rw [show (UploadEntry.opened size c now).owner = c from rfl, received_accepted h]
    exact Nat.zero_le _
  buffer := fun buf hbuf => by cases hbuf

theorem Kept.forwarded (h : Kept u id log e) (hover : e.overruns payload now = false)
    (haccepted : event.accepted? u id e.owner = none)
    (hchunk : event.chunk u id e.owner = payload.bytes)
    (hhands : event.hands u id e.owner = false) :
    Kept u id (event :: log) ((e.received payload now).buffered payload) := by
  have hsum : addU64 e.bytesForwarded payload.length = e.bytesForwarded + payload.length := by
    have hbudget := h.budget
    have hfits := payload.fits
    unfold UploadEntry.budget maxUploadSize at hbudget
    unfold addU64 Slice.length
    apply Nat.mod_eq_of_lt
    omega
  have hreceived : received u id e.owner (event :: log) =
      received u id e.owner log ++ payload.bytes := by
    rw [received, haccepted, hchunk]
    rfl
  constructor
  · show declared? u id e.owner (event :: log) = some e.declaredSize
    rw [declared?, haccepted]
    exact h.size
  · unfold UploadEntry.overruns at hover
    exact Nat.le_of_not_lt (of_decide_eq_false hover)
  · show (received u id e.owner (event :: log)).length ≤ addU64 e.bytesForwarded payload.length
    have hbytes := h.bytes
    rw [hreceived, hsum, List.length_append, Slice.length]
    omega
  · intro buf hbuf
    show buf = received u id e.owner (event :: log) ∧ handed u id e.owner (event :: log) = 0
    rcases Option.map_eq_some_iff.mp hbuf with ⟨old, hold, rfl⟩
    rcases h.buffer old hold with ⟨hbytes, hhanded⟩
    refine ⟨by rw [hreceived, hbytes], ?_⟩
    rw [handed, haccepted, hhands, hhanded]
    rfl

theorem Kept.congr {e' : UploadEntry} (h : Kept u id log e) (howner : e'.owner = e.owner)
    (hsize : e'.declaredSize = e.declaredSize) (hbytes : e'.bytesForwarded = e.bytesForwarded)
    (hbuffer : forall buf, e'.buffer = some buf -> e.buffer = some buf) : Kept u id log e' where
  size := by rw [howner, hsize, h.size]
  budget := by
    have hbudget := h.budget
    unfold UploadEntry.budget at hbudget ⊢
    rw [hbytes, hsize]
    exact hbudget
  bytes := by
    rw [howner, hbytes]
    exact h.bytes
  buffer := fun buf hbuf => by
    rw [howner]
    exact h.buffer buf (hbuffer buf hbuf)

/-- An operation of the connection keeps the entries; a report is only marked before any of
its bytes has come. -/
theorem kept_exec {b : Broker} {op : BrokerCall} {t : Instant} {queued : List (ConnId × WsMessage)}
    (hown : forall v conn, op.ownUpload? = some (v, conn) -> conn = c)
    (hmark : op = .markBugReportUpload u id c ->
      received u id c log = [] ∧ handed u id c log = 0)
    (hkept : forall e, b.upload? u id = some e -> Kept u id log e)
    (h : (b.exec now op).1.upload? u id = some e) :
    Kept u id (⟨c, t, ⟨.broker op, (b.exec now op).2⟩, queued⟩ :: log) e := by
  by_cases hu : op.subject? = some u
  · rw [Broker.upload?_exec hu] at h
    have hswept : forall {e}, UploadEntry.swept now (b.upload? u id) = some e ->
        Kept u id log e := fun he => hkept _ (Option.filter_eq_some_iff.mp he).1
    cases op
    case beginUpload v i size conn =>
        cases hu
        cases hown _ _ rfl
        generalize (b.exec now (.beginUpload u i size c)).2 = r at h ⊢
        by_cases hnew : id = i ∧ r = .ok ()
        · rcases hnew with ⟨rfl, rfl⟩
          simp only [Broker.uploadAfter, and_self, if_true, Option.some.injEq] at h
          subst h
          exact kept_opened (by simp [RelayEvent.accepted?])
        · simp only [Broker.uploadAfter, if_neg hnew] at h
          refine (hswept h).elsewhere ⟨?_, rfl, rfl⟩
          cases r with
          | error reason => rfl
          | ok _ =>
              have hne : ¬ i = id := fun heq => hnew ⟨heq.symm, rfl⟩
              simp [RelayEvent.accepted?, hne]
    case markBugReportUpload v i conn =>
        cases hu
        cases hown _ _ rfl
        by_cases hid : id = i
        · subst hid
          simp only [Broker.uploadAfter, if_true] at h
          rcases Option.map_eq_some_iff.mp h with ⟨old, hold, rfl⟩
          have hkeeps : Kept u id (⟨c, t, ⟨.broker (.markBugReportUpload u id c),
              (b.exec now (.markBugReportUpload u id c)).2⟩, queued⟩ :: log) old :=
            (hkept old hold).elsewhere ⟨rfl, rfl, rfl⟩
          unfold UploadEntry.marked
          by_cases howner : old.owner = c
          · rw [if_pos howner]
            refine
              { size := hkeeps.size
                budget := hkeeps.budget
                bytes := hkeeps.bytes
                buffer := fun buf hbuf => ?_ }
            cases hbuf
            rcases hmark rfl with ⟨hreceived, hhanded⟩
            show [] = received u id old.owner _ ∧ handed u id old.owner _ = 0
            rw [howner]
            constructor
            · rw [received, hreceived]
              rfl
            · rw [handed, hhanded]
              rfl
          · rw [if_neg howner]
            exact hkeeps
        · simp only [Broker.uploadAfter, if_neg hid] at h
          exact (hkept e h).elsewhere ⟨rfl, rfl, rfl⟩
    case takeBugReportBuffer v i conn =>
        cases hu
        cases hown _ _ rfl
        by_cases hid : id = i
        · subst hid
          simp only [Broker.uploadAfter, if_true] at h
          rcases Option.map_eq_some_iff.mp h with ⟨old, hold, rfl⟩
          unfold UploadEntry.taken
          by_cases howner : old.owner = c
          · rw [if_pos howner]
            have hkeeps := hkept old hold
            exact
              { size := hkeeps.size
                budget := hkeeps.budget
                bytes := by
                  show (received u id old.owner _ ++ []).length ≤ old.bytesForwarded
                  rw [List.append_nil]
                  exact hkeeps.bytes
                buffer := fun buf hbuf => by cases hbuf }
          · rw [if_neg howner]
            exact (hkept old hold).elsewhere (elsewhere_of_conn fun hc => howner hc.symm)
        · simp only [Broker.uploadAfter, if_neg hid] at h
          refine (hkept e h).elsewhere ⟨rfl, rfl, ?_⟩
          cases (b.exec now (.takeBugReportBuffer u i c)).2 with
          | none => rfl
          | some buf =>
              have hne : ¬ i = id := fun heq => hid heq.symm
              simp [RelayEvent.hands, hne]
    case recordUploadChunk v i conn payload =>
        cases hu
        cases hown _ _ rfl
        by_cases hid : id = i
        · subst hid
          simp only [Broker.uploadAfter, if_true] at h
          rw [Broker.exec_recordUploadChunk_reply]
          cases hlive : UploadEntry.swept now (b.upload? u id) with
          | none =>
              rw [hlive] at h
              cases h
          | some old =>
              rw [hlive] at h
              have hkeeps := hswept hlive
              unfold UploadEntry.afterChunk at h
              simp only [] at h
              by_cases hrejects : old.rejects c = true
              · rw [if_pos hrejects] at h
                cases h
                refine hkeeps.elsewhere ⟨rfl, ?_, rfl⟩
                simp [RelayEvent.chunk, UploadEntry.chunkDecision, hrejects]
              · rw [if_neg hrejects] at h
                by_cases hover : old.overruns payload now = true
                · rw [if_pos hover] at h
                  cases h
                · rw [if_neg hover] at h
                  cases h
                  have howner : old.owner = c := by
                    simp only [UploadEntry.rejects, Bool.or_eq_true, not_or, Bool.not_eq_true,
                      Bool.not_eq_false'] at hrejects
                    exact of_decide_eq_true hrejects.2
                  have hdecision :
                      UploadEntry.chunkDecision c payload now (some old) = .forward := by
                    simp [UploadEntry.chunkDecision, hrejects, hover]
                  refine hkeeps.forwarded (Bool.not_eq_true _ ▸ hover) rfl ?_ rfl
                  rw [hdecision]
                  exact if_pos ⟨howner.symm, rfl, rfl⟩
        · simp only [Broker.uploadAfter, if_neg hid] at h
          refine (hswept h).elsewhere ⟨rfl, ?_, rfl⟩
          have hne : ¬ i = id := fun heq => hid heq.symm
          cases (b.exec now (.recordUploadChunk u i c payload)).2 <;> simp [RelayEvent.chunk, hne]
    case finishUpload v i conn =>
        by_cases hid : id = i
        · simp only [Broker.uploadAfter, if_pos hid] at h
          rcases Option.map_eq_some_iff.mp h with ⟨old, hold, rfl⟩
          have hkeeps := hswept hold
          unfold UploadEntry.finishedAt
          split
          · have hfinished : Kept u id log { old with finished := true, lastActivity := now } :=
              hkeeps.congr rfl rfl rfl fun _ hbuf => hbuf
            exact hfinished.elsewhere ⟨rfl, rfl, rfl⟩
          · exact hkeeps.elsewhere ⟨rfl, rfl, rfl⟩
        · simp only [Broker.uploadAfter, if_neg hid] at h
          exact (hswept h).elsewhere ⟨rfl, rfl, rfl⟩
    case resolveUpload v i =>
        by_cases hid : id = i
        · simp only [Broker.uploadAfter, if_pos hid] at h
          cases h
        · simp only [Broker.uploadAfter, if_neg hid] at h
          exact (hswept h).elsewhere ⟨rfl, rfl, rfl⟩
    case unregisterClient v d conn =>
        exact (hkept e (Option.filter_eq_some_iff.mp h).1).elsewhere ⟨rfl, rfl, rfl⟩
    case unregisterDesktop v conn =>
        exact (hkept e (Option.filter_eq_some_iff.mp h).1).elsewhere ⟨rfl, rfl, rfl⟩
    all_goals exact (hkept e h).elsewhere ⟨rfl, rfl, rfl⟩
  · rw [Broker.upload?_exec_other hu] at h
    refine (hkept e h).elsewhere ?_
    cases op
    case beginUpload v i size conn =>
        have hne : ¬ v = u := fun heq => hu (congrArg some heq)
        refine ⟨?_, rfl, rfl⟩
        cases (b.exec now (.beginUpload v i size conn)).2 <;> simp [RelayEvent.accepted?, hne]
    case takeBugReportBuffer v i conn =>
        have hne : ¬ v = u := fun heq => hu (congrArg some heq)
        refine ⟨rfl, rfl, ?_⟩
        cases (b.exec now (.takeBugReportBuffer v i conn)).2 <;> simp [RelayEvent.hands, hne]
    case recordUploadChunk v i conn payload =>
        have hne : ¬ v = u := fun heq => hu (congrArg some heq)
        refine ⟨rfl, ?_, rfl⟩
        cases (b.exec now (.recordUploadChunk v i conn payload)).2 <;> simp [RelayEvent.chunk, hne]
    all_goals exact ⟨rfl, rfl, rfl⟩

end

theorem buffered_exec {u id : String} {b : Broker} {now : Instant} {op : BrokerCall}
    {e : UploadEntry} {buf : Bytes}
    (h : (b.exec now op).1.upload? u id = some e) (hbuf : e.buffer = some buf) :
    op = .markBugReportUpload u id e.owner ∨
      ((exists old, b.upload? u id = some old ∧ old.owner = e.owner ∧ old.buffer.isSome = true) ∧
        forall c t queued conn, RelayEvent.accepted? u id conn
          ⟨c, t, ⟨.broker op, (b.exec now op).2⟩, queued⟩ = none) := by
  have hsame : b.upload? u id = some e -> exists old, b.upload? u id = some old ∧
      old.owner = e.owner ∧ old.buffer.isSome = true :=
    fun hold => ⟨e, hold, rfl, hbuf ▸ rfl⟩
  have hswept : UploadEntry.swept now (b.upload? u id) = some e ->
      exists old, b.upload? u id = some old ∧ old.owner = e.owner ∧ old.buffer.isSome = true :=
    fun hold => hsame (Option.filter_eq_some_iff.mp hold).1
  by_cases hu : op.subject? = some u
  · rw [Broker.upload?_exec hu] at h
    cases op
    case beginUpload v i size conn =>
        cases hu
        generalize (b.exec now (.beginUpload u i size conn)).2 = r at h ⊢
        by_cases hnew : id = i ∧ r = .ok ()
        · simp only [Broker.uploadAfter, if_pos hnew, Option.some.injEq] at h
          subst h
          cases hbuf
        · simp only [Broker.uploadAfter, if_neg hnew] at h
          refine Or.inr ⟨hswept h, fun c t queued tx => ?_⟩
          cases r with
          | error reason => rfl
          | ok _ =>
              have hne : ¬ i = id := fun heq => hnew ⟨heq.symm, rfl⟩
              simp [RelayEvent.accepted?, hne]
    case markBugReportUpload v i conn =>
        cases hu
        by_cases hid : id = i
        · subst hid
          simp only [Broker.uploadAfter, if_true] at h
          rcases Option.map_eq_some_iff.mp h with ⟨old, hold, rfl⟩
          unfold UploadEntry.marked at hbuf ⊢
          by_cases howner : old.owner = conn
          · rw [if_pos howner]
            exact Or.inl (by rw [howner])
          · rw [if_neg howner] at hbuf ⊢
            exact Or.inr ⟨⟨old, hold, rfl, hbuf ▸ rfl⟩, fun _ _ _ _ => rfl⟩
        · simp only [Broker.uploadAfter, if_neg hid] at h
          exact Or.inr ⟨hsame h, fun _ _ _ _ => rfl⟩
    case takeBugReportBuffer v i conn =>
        by_cases hid : id = i
        · simp only [Broker.uploadAfter, if_pos hid] at h
          rcases Option.map_eq_some_iff.mp h with ⟨old, hold, rfl⟩
          unfold UploadEntry.taken at hbuf ⊢
          by_cases howner : old.owner = conn
          · rw [if_pos howner] at hbuf
            cases hbuf
          · rw [if_neg howner] at hbuf ⊢
            exact Or.inr ⟨⟨old, hold, rfl, hbuf ▸ rfl⟩, fun _ _ _ _ => rfl⟩
        · simp only [Broker.uploadAfter, if_neg hid] at h
          exact Or.inr ⟨hsame h, fun _ _ _ _ => rfl⟩
    case recordUploadChunk v i conn payload =>
        by_cases hid : id = i
        · simp only [Broker.uploadAfter, if_pos hid] at h
          cases hlive : UploadEntry.swept now (b.upload? u id) with
          | none =>
              rw [hlive] at h
              cases h
          | some old =>
              rw [hlive] at h
              have hold := (Option.filter_eq_some_iff.mp hlive).1
              unfold UploadEntry.afterChunk at h
              simp only [] at h
              split at h
              · cases h
                exact Or.inr ⟨hsame hold, fun _ _ _ _ => rfl⟩
              · split at h
                · cases h
                · cases h
                  rcases Option.map_eq_some_iff.mp hbuf with ⟨older, holder, _⟩
                  have holder : old.buffer = some older := holder
                  exact Or.inr ⟨⟨old, hold, rfl, holder ▸ rfl⟩, fun _ _ _ _ => rfl⟩
        · simp only [Broker.uploadAfter, if_neg hid] at h
          exact Or.inr ⟨hswept h, fun _ _ _ _ => rfl⟩
    case finishUpload v i conn =>
        by_cases hid : id = i
        · simp only [Broker.uploadAfter, if_pos hid] at h
          rcases Option.map_eq_some_iff.mp h with ⟨old, hold, rfl⟩
          have hold := (Option.filter_eq_some_iff.mp hold).1
          refine Or.inr ⟨⟨old, hold, ?_, ?_⟩, fun _ _ _ _ => rfl⟩
          · unfold UploadEntry.finishedAt
            split <;> rfl
          · unfold UploadEntry.finishedAt at hbuf
            split at hbuf <;> exact hbuf ▸ rfl
        · simp only [Broker.uploadAfter, if_neg hid] at h
          exact Or.inr ⟨hswept h, fun _ _ _ _ => rfl⟩
    case resolveUpload v i =>
        by_cases hid : id = i
        · simp only [Broker.uploadAfter, if_pos hid] at h
          cases h
        · simp only [Broker.uploadAfter, if_neg hid] at h
          exact Or.inr ⟨hswept h, fun _ _ _ _ => rfl⟩
    case unregisterClient v d conn =>
        exact Or.inr ⟨hsame (Option.filter_eq_some_iff.mp h).1, fun _ _ _ _ => rfl⟩
    case unregisterDesktop v conn =>
        exact Or.inr ⟨hsame (Option.filter_eq_some_iff.mp h).1, fun _ _ _ _ => rfl⟩
    all_goals exact Or.inr ⟨hsame h, fun _ _ _ _ => rfl⟩
  · rw [Broker.upload?_exec_other hu] at h
    refine Or.inr ⟨hsame h, fun c t queued tx => ?_⟩
    cases op
    case beginUpload v i size conn =>
        have hne : ¬ v = u := fun heq => hu (congrArg some heq)
        cases (b.exec now (.beginUpload v i size conn)).2 <;> simp [RelayEvent.accepted?, hne]
    all_goals rfl

theorem buffer_of_taken {b : Broker} {now : Instant} {u id : String} {c : ConnId} {buf : Bytes}
    (h : (b.exec now (.takeBugReportBuffer u id c)).2 = some buf) :
    exists e, b.upload? u id = some e ∧ e.owner = c ∧ e.buffer = some buf := by
  simp only [Broker.exec, Broker.withAccount] at h
  cases hst : b.account u with
  | none => simp [hst] at h
  | some st =>
      simp only [hst, AccountState.takeBugReportBuffer] at h
      cases hentry : st.uploads.lookup id with
      | none => simp [hentry] at h
      | some e =>
          rw [hentry] at h
          by_cases howner : e.owner = c
          · simp only [if_pos howner] at h
            exact ⟨e, by simp [Broker.upload?, Broker.part, hst, AccountState.uploadAt, hentry],
              howner, h⟩
          · simp [if_neg howner] at h

/-!
## What is buffered in a run
-/

theorem Permitted.ownUploader {c conn : ConnId} {frame : Inbound} {role : ConnectionRole}
    {past : List CallAnswer} {op : BrokerCall} {u : String}
    (h : Permitted c frame role past (.broker op)) (hown : op.ownUpload? = some (u, conn)) :
    conn = c := by
  cases h with
  | ownUpload hrole hcall =>
      rw [hcall] at hown
      cases hown
      rfl
  | privately hcall => cases hcall
  | desktopCall hrole hcall => cases op <;> first | cases hcall; done | cases hown
  | _ => cases hown

theorem elsewhere_of_other {u id : String} {c conn : ConnId} {t : Instant}
    {queued : List (ConnId × WsMessage)} {call : Call} {r : call.Reply}
    (h : forall op, call ≠ .broker op) : Elsewhere u id c ⟨conn, t, ⟨call, r⟩, queued⟩ := by
  cases call
  case broker op => exact absurd rfl (h op)
  all_goals exact ⟨rfl, rfl, rfl⟩

namespace Relay

section

variable {env : Env} {auth : AuthManager} {database : Database} {labels : List RelayLabel}
  {s s' : Relay} {l : RelayLabel} {u id : String} {c : ConnId} {size : Nat}

/-- The run passed through the state in which the connection's begin of a bug report was
accepted, and none of its begins for the upload has been accepted since. -/
inductive Reported (env : Env) (auth : AuthManager) (database : Database)
    (labels : List RelayLabel) (s : Relay) (u id : String) (c : ConnId) (size : Nat) : Prop where
  | begun {before after r a frame role past name declared mime session next since}
      (hlabels : labels = before ++ .resume c a :: after)
      (hrun : Runs env auth database before r)
      (hasked : r.activity c =
        .handling frame role past (.invoke (.broker (.beginUpload u id size c)) next))
      (hframe : frame.control? =
        some (.fileUploadBegin id "bug_report" name declared mime session))
      (hrole : role.account? = some u) (hdeclared : declared.toNat = size)
      (hsize : size ≤ maxBugReportUploadSize)
      (haccepted : r.answer env a (.broker (.beginUpload u id size c)) = .ok ())
      (hlog : s.log = since ++ (r.perform env c a (.broker (.beginUpload u id size c))).log)
      (hsince : forall e, e ∈ since -> e.accepted? u id c = none)

theorem Reported.later {more : List RelayLabel} {mid : List RelayEvent}
    (h : Reported env auth database labels s u id c size) (hlog : s'.log = mid ++ s.log)
    (hmid : forall e, e ∈ mid -> e.accepted? u id c = none) :
    Reported env auth database (labels ++ more) s' u id c size := by
  cases h with
  | begun hlabels hrun hasked hframe hrole hdeclared hsize haccepted hold hsince =>
      rename_i before after r a frame role past name declared mime session next since
      have hmore : labels ++ more = before ++ .resume c a :: (after ++ more) := by
        rw [hlabels, List.append_assoc, List.cons_append]
      have hnew : s'.log = (mid ++ since) ++
          (r.perform env c a (.broker (.beginUpload u id size c))).log := by
        rw [hlog, hold, List.append_assoc]
      refine .begun hmore hrun hasked hframe hrole hdeclared hsize haccepted hnew ?_
      intro e he
      rcases List.mem_append.mp he with hin | hin
      · exact hmid e hin
      · exact hsince e hin

theorem Reported.next {event : RelayEvent} (h : Reported env auth database labels s u id c size)
    (hlog : s'.log = event :: s.log) (hevent : event.accepted? u id c = none) :
    Reported env auth database (labels ++ [l]) s' u id c size := by
  have hlog : s'.log = [event] ++ s.log := hlog
  refine h.later hlog fun e he => ?_
  rw [List.mem_singleton.mp he]
  exact hevent

theorem declared?_reported (h : Reported env auth database labels s u id c size) :
    declared? u id c s.log = some size := by
  cases h with
  | begun hlabels hrun hasked hframe hrole hdeclared hsize haccepted hlog hsince =>
      rw [hlog, declared?_since hsince]
      refine declared?_accepted ?_
      simp [RelayEvent.accepted?, haccepted]

theorem Reported.size_le (h : Reported env auth database labels s u id c size) :
    size ≤ maxBugReportUploadSize := by
  cases h with
  | begun hlabels hrun hasked hframe hrole hdeclared hsize haccepted hlog hsince => exact hsize

theorem reporting_of_runs (hrun : Runs env auth database labels s) {frame : Inbound}
    {role : ConnectionRole} {past : List CallAnswer} {task : Handler Unit}
    (hact : s.activity c = .handling frame role past task) :
    Handler.Reporting c frame role past task :=
  obeys_of_runs (fun frame role c ip => Handler.processWsMessage_reporting env frame role c ip)
    hrun hact

/-- What a run keeps of the uploads: their entries agree with the log, and only those of
bug reports are buffered. -/
structure Buffering (env : Env) (auth : AuthManager) (database : Database)
    (labels : List RelayLabel) (s : Relay) : Prop where
  kept : forall {u id e}, s.broker.upload? u id = some e -> Kept u id s.log e
  reported : forall {u id e}, s.broker.upload? u id = some e -> e.buffer.isSome = true ->
    exists size, Reported env auth database labels s u id e.owner size

theorem reported_of_marking (hrun : Runs env auth database labels s) {frame : Inbound}
    {role : ConnectionRole} {past : List CallAnswer} {next : Unit -> Handler Unit}
    (hact : s.activity c =
      .handling frame role past (.invoke (.broker (.markBugReportUpload u id c)) next)) :
    received u id c s.log = [] ∧ handed u id c s.log = 0 ∧
      exists size, Reported env auth database labels s u id c size := by
  cases (reporting_of_runs hrun hact).1 with
  | elsewhere hcall => cases hcall
  | marked hframe hrole hsize hbegun =>
      rename_i name size mime session
      cases past with
      | nil => cases hbegun
      | cons answered older =>
          cases hbegun
          rcases last_call hrun hact with
            ⟨before, a, after, r, next, mid, hlabels, _, hbefore, hasked, hanswer, hlog, hmid⟩
          have haccepted : r.answer env a (.broker (.beginUpload u id size.toNat c)) = .ok () := by
            injection hanswer with _ hreply
            exact hreply.symm
          have helse : forall e, e ∈ mid -> Elsewhere u id c e :=
            fun e he => elsewhere_of_conn (hmid e he)
          have hbegin : RelayEvent.accepted? u id c
              ⟨c, a.now, ⟨.broker (.beginUpload u id size.toNat c),
                r.answer env a (.broker (.beginUpload u id size.toNat c))⟩,
                newlyEnqueued r.broker
                  (r.app.exec env a (.broker (.beginUpload u id size.toNat c))).1.broker⟩ =
              some size.toNat := by
            rw [haccepted]
            exact if_pos ⟨rfl, rfl, rfl⟩
          refine ⟨?_, ?_, size.toNat, ?_⟩
          · rw [hlog, received_elsewhere helse]
            exact received_accepted hbegin
          · rw [hlog, handed_elsewhere helse]
            exact handed_accepted hbegin
          · exact .begun hlabels hbefore hasked hframe hrole rfl hsize haccepted hlog
              fun e he => (helse e he).accepted

theorem buffering_call (hrun : Runs env auth database labels s)
    (hs : Buffering env auth database labels s) {a : Ambient} {call : Call}
    (haccount : forall v, s'.account v = (s.perform env c a call).account v)
    (hlog : s'.log = (s.perform env c a call).log)
    (hown : forall op v conn, call = .broker op -> op.ownUpload? = some (v, conn) -> conn = c)
    (hmarking : forall v i, call = .broker (.markBugReportUpload v i c) ->
      exists frame role past next, s.activity c = .handling frame role past (.invoke call next)) :
    Buffering env auth database (labels ++ [l]) s' := by
  have hupload : forall v i, s'.broker.upload? v i = (s.perform env c a call).broker.upload? v i :=
    fun v i => Broker.part_congr (haccount v)
  rw [log_perform] at hlog
  rcases broker_perform_cases env s c a call with ⟨op, rfl⟩ | ⟨hother, hbroker⟩
  · have hmark : forall v i, op = .markBugReportUpload v i c ->
        received v i c s.log = [] ∧ handed v i c s.log = 0 ∧
          exists size, Reported env auth database labels s v i c size := by
      intro v i hop
      subst hop
      rcases hmarking v i rfl with ⟨_, _, _, _, hact⟩
      exact reported_of_marking hrun hact
    constructor
    · intro v i e he
      rw [hlog]
      rw [hupload] at he
      exact kept_exec (fun w conn => hown op w conn rfl)
        (fun hop => ⟨(hmark v i hop).1, (hmark v i hop).2.1⟩) (fun old hold => hs.kept hold) he
    · intro v i e he hbuf
      rcases Option.isSome_iff_exists.mp hbuf with ⟨buf, hbuf⟩
      rw [hupload] at he
      rcases buffered_exec he hbuf with hop | ⟨⟨old, hold, howner, holdbuf⟩, hnone⟩
      · have hc : e.owner = c := hown op v e.owner rfl (hop ▸ rfl)
        rw [hc] at hop ⊢
        rcases (hmark v i hop).2.2 with ⟨size, hreported⟩
        subst hop
        exact ⟨size, hreported.next hlog rfl⟩
      · rcases hs.reported hold holdbuf with ⟨size, hreported⟩
        rw [howner] at hreported
        exact ⟨size, hreported.next hlog (hnone c a.now _ e.owner)⟩
  · have hsame : forall v i, s'.broker.upload? v i = s.broker.upload? v i := by
      intro v i
      rw [hupload, hbroker]
    constructor
    · intro v i e he
      rw [hlog]
      rw [hsame] at he
      exact (hs.kept he).elsewhere (elsewhere_of_other hother)
    · intro v i e he hbuf
      rw [hsame] at he
      rcases hs.reported he hbuf with ⟨size, hreported⟩
      exact ⟨size, hreported.next hlog (elsewhere_of_other hother).accepted⟩

theorem buffering_of_runs (hrun : Runs env auth database labels s) :
    Buffering env auth database labels s := by
  refine runs_labels_induction (motive := fun labels s => Buffering env auth database labels s)
    ⟨fun h => (by cases h), fun h => by cases h⟩ ?_ hrun
  intro labels s l s' hrun hs hnext
  have hsound := sound_of_runs hrun
  cases step_effect hsound (step_transition hnext) with
  | none haccount hlog hclock halive =>
      have hsame : forall v i, s'.broker.upload? v i = s.broker.upload? v i :=
        fun v i => Broker.part_congr (haccount v)
      constructor
      · intro v i e he
        rw [hlog]
        exact hs.kept (hsame v i ▸ he)
      · intro v i e he hbuf
        rcases hs.reported (hsame v i ▸ he) hbuf with ⟨size, hreported⟩
        have hlog : s'.log = [] ++ s.log := hlog
        exact ⟨size, hreported.later hlog fun _ hf => by cases hf⟩
  | handler hclock hbusy hbroker hlog hnow =>
      rename_i c a frame role past call next
      refine buffering_call hrun hs (fun v => congrArg (Broker.account · v) hbroker) hlog
        (fun op v conn hop hown => ?_) fun _ _ _ => ⟨frame, role, past, next, hbusy⟩
      subst hop
      exact (hsound.behaves hbusy).1.permitted.ownUploader hown
  | cleanup hclock hbusy hcall hbroker hlog hnow =>
      rename_i c a op next
      generalize s.role c = role at hcall
      have hperformed : s'.broker = (s.perform env c a (.broker op)).broker := hbroker
      refine buffering_call hrun hs (fun v => congrArg (Broker.account · v) hperformed) hlog
        (fun other v conn hop hown => ?_) fun v i hop => ?_
      · cases hop
        cases hcall <;> cases hown
      · cases hop
        cases hcall

/-!
## Persisting a report
-/

/-- A handler that is about to persist a report has just taken the buffer of its upload,
and its connection has made no call since. -/
theorem taken_of_persisting (hrun : Runs env auth database labels s) {frame : Inbound}
    {role : ConnectionRole} {past : List CallAnswer} {d text : String} {name : Option String}
    {shot : Bytes} {next : Unit -> Handler Unit}
    (hact : s.activity c =
      .handling frame role past (.invoke (.persistBugReport u d name text shot) next)) :
    exists id note before a after r older next mid taking,
      frame.control? = some (.fileUploadEnd id note) ∧ role.account? = some u ∧
      labels = before ++ .resume c a :: after ∧ (forall a', .resume c a' ∉ after) ∧
      Runs env auth database before r ∧
      r.activity c = .handling frame role older
        (.invoke (.broker (.takeBugReportBuffer u id c)) next) ∧
      (r.broker.exec a.now (.takeBugReportBuffer u id c)).2 = some shot ∧
      s.log = mid ++ taking :: r.log ∧ taking.accepted? u id c = none ∧
      taking.chunk u id c = [] ∧ taking.hands u id c = true ∧
      forall e, e ∈ mid -> e.conn ≠ c := by
  cases (reporting_of_runs hrun hact).1 with
  | elsewhere hcall => cases hcall
  | persisted hframe hrole htaken =>
      rename_i id note
      cases past with
      | nil => cases htaken
      | cons answered older =>
          cases htaken
          rcases last_call hrun hact with
            ⟨before, a, after, r, next, mid, hlabels, hafter, hbefore, hasked, hanswer, hlog, hmid⟩
          have hshot : (r.broker.exec a.now (.takeBugReportBuffer u id c)).2 = some shot := by
            injection hanswer with _ hreply
            exact hreply.symm
          refine ⟨id, note, before, a, after, r, older, next, mid, _, hframe, hrole, hlabels,
            hafter, hbefore, hasked, hshot, hlog, rfl, rfl, ?_, hmid⟩
          have hanswer : r.answer env a (.broker (.takeBugReportBuffer u id c)) = some shot := hshot
          simp [RelayEvent.hands, hanswer]

/-- What is persisted has been let through since the begin of the report, and is only
handed out once. -/
theorem report_of_persisting (hrun : Runs env auth database labels s) {frame : Inbound}
    {role : ConnectionRole} {past : List CallAnswer} {d text : String} {name : Option String}
    {shot : Bytes} {next : Unit -> Handler Unit}
    (hact : s.activity c =
      .handling frame role past (.invoke (.persistBugReport u d name text shot) next)) :
    exists id note size, frame.control? = some (.fileUploadEnd id note) ∧
      role.account? = some u ∧ Reported env auth database labels s u id c size ∧
      shot = received u id c s.log ∧ shot.length ≤ size ∧ handed u id c s.log = 1 := by
  rcases taken_of_persisting hrun hact with
    ⟨id, note, before, a, after, r, older, next, mid, taking, hframe, hrole, hlabels, _, hbefore,
      hasked, hshot, hlog, haccepted, hchunk, hhands, hmid⟩
  have hbuffering := buffering_of_runs hbefore
  rcases buffer_of_taken hshot with ⟨e, hentry, rfl, hbuf⟩
  have hkept := hbuffering.kept hentry
  rcases hkept.buffer shot hbuf with ⟨hbytes, hhanded⟩
  rcases hbuffering.reported hentry (hbuf ▸ rfl) with ⟨size, hreported⟩
  have helse : forall f, f ∈ mid -> Elsewhere u id e.owner f :=
    fun f hf => elsewhere_of_conn (hmid f hf)
  have hreceived : received u id e.owner s.log = received u id e.owner r.log := by
    rw [hlog, received_elsewhere helse, received, haccepted, hchunk, List.append_nil]
    rfl
  refine ⟨id, note, size, hframe, hrole, ?_, hbytes.trans hreceived.symm, ?_, ?_⟩
  · have hsince : s.log = (mid ++ [taking]) ++ r.log := by
      rw [hlog, List.append_assoc, List.singleton_append]
    rw [hlabels]
    refine hreported.later hsince fun f hf => ?_
    rcases List.mem_append.mp hf with hin | hin
    · exact (helse f hin).accepted
    · rw [List.mem_singleton.mp hin]
      exact haccepted
  · have hdeclared : size = e.declaredSize :=
      Option.some.inj ((declared?_reported hreported).symm.trans hkept.size)
    have hlength : shot.length ≤ e.bytesForwarded := hbytes ▸ hkept.bytes
    have hbudget : e.bytesForwarded ≤ min e.declaredSize maxUploadSize := hkept.budget
    omega
  · rw [hlog, handed_elsewhere helse, handed, haccepted, hhands, hhanded]
    rfl

/-- The connection's handler of the upload's end is about to persist the report. -/
def Persists (s : Relay) (c : ConnId) (u id : String) : Prop :=
  exists frame role past d name text shot next note,
    s.activity c = .handling frame role past (.invoke (.persistBugReport u d name text shot) next) ∧
      frame.control? = some (.fileUploadEnd id note)

theorem log_grows {more : List RelayLabel} {r : Relay} (hr : Runs env auth database labels r)
    (hs : Runs env auth database (labels ++ more) s) : exists since, s.log = since ++ r.log := by
  rcases follow_append_eq_some.mp hs with ⟨m, hm, hrest⟩
  cases hr.symm.trans hm
  have hall : Admits (step env) (fun _ _ => True) r more :=
    admits_of_forall (fun _ _ => trivial) r more
  refine (follow_invariant (motive := fun s => Sound s ∧ exists since, s.log = since ++ r.log)
    ?_ ⟨sound_of_runs hr, [], rfl⟩ hrest hall).2
  intro t l t' ht _ hnext
  have htransition := step_transition hnext
  rcases ht with ⟨hsound, since, hlog⟩
  refine ⟨sound_step hsound htransition, ?_⟩
  rcases log_step hsound htransition with hsame | ⟨_, _, _, _, _, hnew, _⟩
  · exact ⟨since, hsame.trans hlog⟩
  · exact ⟨_ :: since, by rw [hnew, log_perform, hlog]; rfl⟩

theorem begun_between (hrun : Runs env auth database labels s) {before after : List RelayLabel}
    {a : Ambient} {r : Relay} (hlabels : labels = before ++ .resume c a :: after)
    (hbefore : Runs env auth database before r) (hfirst : Persists r c u id)
    (hlast : Persists s c u id) :
    exists since e, s.log = since ++ r.log ∧ e ∈ since ∧ (e.accepted? u id c).isSome = true := by
  rcases hlast with ⟨frame, role, past, d, name, text, shot, next, note, hact, hframe⟩
  rcases hfirst with ⟨frame', role', past', d', name', text', shot', next', note', hact', hframe'⟩
  rcases report_of_persisting hbefore hact' with ⟨id', note'', _, hend', _, _, _, _, hhanded'⟩
  rw [hframe'] at hend'
  cases hend'
  rcases taken_of_persisting hrun hact with
    ⟨id', note'', earlier, a', later, t, older, nextTake, mid, taking, hend, _, hsplit, hlater, ht,
      hasked, _, hlog, haccepted, _, hhands, hmid⟩
  rw [hframe] at hend
  cases hend
  rcases report_of_persisting hrun hact with ⟨id', note'', _, hend, _, _, _, _, hhanded⟩
  rw [hframe] at hend
  cases hend
  have hgrows : exists older, t.log = older ++ r.log := by
    rcases List.append_eq_append_iff.mp (hlabels.symm.trans hsplit) with
      ⟨gap, hgap, hrest⟩ | ⟨gap, hgap, hrest⟩
    · rw [hgap] at ht
      exact log_grows hbefore ht
    · cases gap with
      | nil =>
          rw [List.append_nil] at hgap
          rw [hgap] at hbefore
          cases hbefore.symm.trans ht
          rw [hact'] at hasked
          cases hasked
      | cons l gap =>
          exfalso
          injection hrest with _ hrest
          exact hlater a (hrest ▸ List.mem_append_right gap List.mem_cons_self)
  rcases hgrows with ⟨older, holder⟩
  have hsince : s.log = (mid ++ taking :: older) ++ r.log := by
    rw [hlog, holder, List.append_assoc, List.cons_append]
  refine Classical.byContradiction fun hno => ?_
  have hnone : forall e, e ∈ mid ++ taking :: older -> e.accepted? u id c = none := by
    intro e he
    cases hsome : e.accepted? u id c with
    | none => rfl
    | some size => exact absurd ⟨_, e, hsince, he, hsome ▸ rfl⟩ hno
  have holder' : handed u id c r.log ≤ handed u id c (older ++ r.log) :=
    handed_since fun e he =>
      hnone e (List.mem_append_right _ (List.mem_cons_of_mem _ he))
  have hmid' : handed u id c (taking :: older ++ r.log) ≤ handed u id c s.log := by
    rw [hsince, List.append_assoc]
    exact handed_since fun e he => hnone e (List.mem_append_left _ he)
  rw [List.cons_append, handed, haccepted, hhands] at hmid'
  simp only [Option.isSome_none, Bool.false_eq_true, if_false, if_true] at hmid'
  omega

/-- A report is persisted for an upload that its own connection began as one, with the
bytes let through since, once for each begin; nothing else is buffered. -/
theorem reports_persisted (hrun : Runs env auth database labels s) :
    (forall c frame role past u d name text shot next,
      s.activity c =
        .handling frame role past (.invoke (.persistBugReport u d name text shot) next) ->
      exists id note size, frame.control? = some (.fileUploadEnd id note) ∧
        role.account? = some u ∧ Reported env auth database labels s u id c size ∧
        shot = received u id c s.log ∧ shot.length ≤ size ∧ size ≤ maxBugReportUploadSize) ∧
    (forall c u id before a after r, labels = before ++ .resume c a :: after ->
      Runs env auth database before r -> Persists r c u id -> Persists s c u id ->
      exists since e, s.log = since ++ r.log ∧ e ∈ since ∧ (e.accepted? u id c).isSome = true) ∧
    forall u id e, s.broker.upload? u id = some e -> e.buffer.isSome = true ->
      exists size, Reported env auth database labels s u id e.owner size := by
  refine ⟨?_, ?_, ?_⟩
  · intro c frame role past u d name text shot next hact
    rcases report_of_persisting hrun hact with
      ⟨id, note, size, hframe, hrole, hreported, hshot, hlength, _⟩
    exact ⟨id, note, size, hframe, hrole, hreported, hshot, hlength, hreported.size_le⟩
  · intro c u id before a after r hlabels hbefore hfirst hlast
    exact begun_between hrun hlabels hbefore hfirst hlast
  · intro u id e hentry hbuf
    exact (buffering_of_runs hrun).reported hentry hbuf

end

def report : String :=
  "00000000-0000-4000-8000-00000000000b"

/-- The phone uploads the screenshot of a report and ends it, up to the taken buffer. -/
def phoneReports : List RelayLabel :=
  Deployment.turn 2
      (Deployment.message
        (.fileUploadBegin report "bug_report" "shot.png" 10 "image/png" none)) 3 ++
    Deployment.turn 2 (.binary (buildBinaryFrame ptyFileChunk report [1, 2])) 2 ++
    Deployment.turn 2 (.binary (buildBinaryFrame ptyFileChunk report [3])) 2 ++
    Deployment.start 2 (Deployment.message (.fileUploadEnd report (some "It broke."))) 1

/-- The screenshot that a connection is about to persist for an account. -/
def persisting? (s : Relay) (c : ConnId) (u : String) : Option Bytes :=
  match s.upcoming c with
  | some (.persistBugReport v _ _ _ shot) => if v = u then some shot else none
  | _ => none

theorem reports_persisted_example : exists s,
    Runs Deployment.env Deployment.auth Deployment.database (deskAndPhone ++ phoneReports) s ∧
      s.persisting? 2 "user" = some [1, 2, 3] ∧
      exists id size, Reported Deployment.env Deployment.auth Deployment.database
        (deskAndPhone ++ phoneReports) s "user" id 2 size ∧
        [1, 2, 3] = received "user" id 2 s.log ∧ 3 ≤ size := by
  have hend : (Deployment.after (deskAndPhone ++ phoneReports)).map
      (fun s => s.persisting? 2 "user") = some (some [1, 2, 3]) := by decide +kernel
  rcases Option.map_eq_some_iff.mp hend with ⟨s, hrun, hpersisting⟩
  refine ⟨s, hrun, hpersisting, ?_⟩
  unfold persisting? at hpersisting
  split at hpersisting
  · rename_i v d name text shot hupcoming
    by_cases hv : v = "user"
    · rw [if_pos hv] at hpersisting
      cases hpersisting
      subst hv
      rcases activity_of_upcoming hupcoming with ⟨frame, role, past, next, hact⟩
      rcases (reports_persisted hrun).1 2 frame role past _ d name text _ next hact with
        ⟨id, note, size, _, _, hreported, hshot, hlength, _⟩
      exact ⟨id, size, hreported, hshot, hlength⟩
    · rw [if_neg hv] at hpersisting
      cases hpersisting
  · cases hpersisting

end Relay

end CommandRelay
