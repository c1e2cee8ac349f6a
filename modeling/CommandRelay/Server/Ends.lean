import CommandRelay.Server.Transfers

/-!
# The end of an upload

The chunks of an upload are governed under the lock; its end is not.  The handler
marks the upload finished when it is the sender's, and forwards the end in any case.
-/

namespace CommandRelay

open Foundation

namespace Broker

def standing (b : Broker) (u id : String) : Option (ConnId × Bool) :=
  (b.upload? u id).map fun e => (e.owner, e.finished)

end Broker

namespace BrokerCall

def spares (b : Broker) (now : Instant) (u id : String) : BrokerCall -> Bool
  | .resolveUpload v i =>
      v ≠ u || i ≠ id && (b.upload? u id).all (UploadEntry.live now)
  | .beginUpload v .. | .recordUploadChunk v .. | .finishUpload v .. =>
      v ≠ u || (b.upload? u id).all (UploadEntry.live now)
  | _ => true

def uploader? : BrokerCall -> Option ConnId
  | .recordUploadChunk _ _ conn _ | .finishUpload _ _ conn => some conn
  | .unregisterClient _ _ conn | .unregisterDesktop _ conn => some conn
  | _ => none

def resolves : BrokerCall -> Bool
  | .resolveUpload .. => true
  | _ => false

end BrokerCall

namespace Broker

section

variable {b : Broker} {now : Instant} {u id : String} {c : ConnId} {finished : Bool}

theorem swept_of_live {e : UploadEntry} {upload : Option UploadEntry} (h : upload = some e)
    (hlive : upload.all (UploadEntry.live now) = true) : UploadEntry.swept now upload = some e := by
  subst h
  exact Option.filter_eq_some_iff.mpr ⟨rfl, by simpa using hlive⟩

/-- An operation that is not for the owner leaves the upload as it stands, unless it
resolves or sweeps it. -/
theorem standing_exec {op : BrokerCall} (h : b.standing u id = some (c, finished))
    (hspares : op.spares b now u id = true) (hother : op.uploader? ≠ some c) :
    (b.exec now op).1.standing u id = some (c, finished) := by
  rcases Option.map_eq_some_iff.mp h with ⟨e, he, hstands⟩
  simp only [Prod.mk.injEq] at hstands
  rcases hstands with ⟨rfl, rfl⟩
  have hkept : forall {x : Option UploadEntry}, x = some e ->
      x.map (fun e => (e.owner, e.finished)) = some (e.owner, e.finished) := by
    rintro x rfl
    rfl
  have hsweeps : (b.upload? u id).all (UploadEntry.live now) = true ->
      UploadEntry.swept now (some e) = some e := by
    intro hlive
    rw [← he]
    exact (swept_of_live he hlive).trans he.symm
  unfold standing
  by_cases hu : op.subject? = some u
  · rw [upload?_exec hu, he]
    cases op
    case beginUpload v i size conn =>
        cases hu
        have hswept := hsweeps (by simpa [BrokerCall.spares] using hspares)
        by_cases hid : id = i ∧ (b.exec now (.beginUpload u i size conn)).2 = .ok ()
        · rcases hid with ⟨rfl, hok⟩
          refine absurd hok ((b.entry u).beginUpload_active id conn now (e := e) ?_)
          rw [upload?_of_entry, he]
          exact hswept
        · simp only [uploadAfter, if_neg hid]
          exact hkept hswept
    case markBugReportUpload v i conn =>
        simp only [uploadAfter]
        split
        · simp only [Option.map_some, UploadEntry.marked]
          split <;> rfl
        · rfl
    case takeBugReportBuffer v i conn =>
        simp only [uploadAfter]
        split
        · simp only [Option.map_some, UploadEntry.taken]
          split <;> rfl
        · rfl
    case recordUploadChunk v i conn payload =>
        cases hu
        have hswept := hsweeps (by simpa [BrokerCall.spares] using hspares)
        have hrejects : e.rejects conn = true := by
          have hne : ¬ e.owner = conn := fun heq => hother (by rw [heq]; rfl)
          simp [UploadEntry.rejects, hne]
        simp only [uploadAfter]
        split
        · simp only [hswept, UploadEntry.afterChunk, if_pos hrejects]
          rfl
        · exact hkept hswept
    case finishUpload v i conn =>
        cases hu
        have hswept := hsweeps (by simpa [BrokerCall.spares] using hspares)
        have hne : ¬ e.owner = conn := fun heq => hother (by rw [heq]; rfl)
        simp only [uploadAfter]
        split
        · simp only [hswept, Option.map_some, UploadEntry.finishedAt, if_neg hne]
        · exact hkept hswept
    case resolveUpload v i =>
        cases hu
        have hboth : i ≠ id ∧ (b.upload? u id).all (UploadEntry.live now) = true := by
          simpa [BrokerCall.spares] using hspares
        have hswept := hsweeps hboth.2
        simp only [uploadAfter, if_neg (Ne.symm hboth.1)]
        exact hkept hswept
    case unregisterClient v d conn =>
        have hne : ¬ e.owner = conn := fun heq => hother (by rw [heq]; rfl)
        have hfilter : (some e).filter (fun entry => !decide (entry.owner = conn)) = some e :=
          Option.filter_eq_some_iff.mpr ⟨rfl, by simpa using hne⟩
        exact hkept hfilter
    case unregisterDesktop v conn =>
        have hne : ¬ e.owner = conn := fun heq => hother (by rw [heq]; rfl)
        have hfilter : (some e).filter (fun entry => !decide (entry.owner = conn)) = some e :=
          Option.filter_eq_some_iff.mpr ⟨rfl, by simpa using hne⟩
        exact hkept hfilter
    all_goals rfl
  · rw [upload?_exec_other hu, he]
    rfl

theorem standing_finishUpload (h : b.standing u id = some (c, finished))
    (hspares : (BrokerCall.finishUpload u id c).spares b now u id = true) :
    (b.exec now (.finishUpload u id c)).1.standing u id = some (c, true) := by
  rcases Option.map_eq_some_iff.mp h with ⟨e, he, hstands⟩
  simp only [Prod.mk.injEq] at hstands
  rcases hstands with ⟨rfl, rfl⟩
  have hlive : (b.upload? u id).all (UploadEntry.live now) = true := by
    simpa [BrokerCall.spares] using hspares
  unfold standing
  rw [upload?_exec rfl]
  simp only [uploadAfter, if_true, swept_of_live he hlive, Option.map_some,
    UploadEntry.finishedAt]

end

end Broker

namespace Relay

def endOf? (frame : Inbound) (role : ConnectionRole) : Option (String × String) :=
  match role, frame.control? with
  | .client u _, some (.fileUploadEnd id _) => some (u, id)
  | _, _ => none

def ending? (s : Relay) (c : ConnId) : Option (String × String) :=
  match s.activity c with
  | .handling frame role _ (.invoke _ _) => endOf? frame role
  | _ => none

def finishing? (s : Relay) (c : ConnId) : Option (String × String) :=
  match s.upcoming c with
  | some (.broker (.finishUpload u id _)) => some (u, id)
  | _ => none

/-- The account and the id of an upload whose end the handler is about to forward. -/
def forwardingEnd? (s : Relay) (c : ConnId) : Option (String × String) :=
  match s.upcoming c with
  | some (.broker (.sendToDesktop u (.text (.fileUploadEnd id _)))) => some (u, id)
  | _ => none

/-- An end is processed only for an upload of its sender: it is unfinished when the
end's handler marks it, and still there, finished by this handler, when the end is
forwarded. -/
structure EndsOwned (s : Relay) : Prop where
  finishes : forall c u id, s.finishing? c = some (u, id) ->
    s.broker.standing u id = some (c, false)
  forwards : forall c u id, s.forwardingEnd? c = some (u, id) ->
    (s.pastOf c).head? = some ⟨.broker (.finishUpload u id c), ()⟩ ∧
      s.broker.standing u id = some (c, true)

/-- A client sends an end while it owns the unfinished upload, and until the end is
forwarded nobody else resolves the id and no step sweeps the upload as idle. -/
def keepsEnds (s : Relay) : RelayLabel -> Bool
  | .receive c frame =>
      match endOf? frame (s.role c) with
      | some (u, id) => s.broker.standing u id = some (c, false)
      | none => true
  | .resume c a =>
      match s.upcoming c with
      | some (.broker op) =>
          s.log.all fun e =>
            match s.ending? e.conn with
            | some (u, id) => e.conn = c && op.resolves || op.spares s.broker a.now u id
            | none => true
      | _ => true
  | _ => true

def KeepsEnds (s : Relay) (l : RelayLabel) : Prop :=
  s.keepsEnds l = true

instance (s : Relay) (l : RelayLabel) : Decidable (s.KeepsEnds l) :=
  inferInstanceAs (Decidable (_ = true))

/-!
## The handler of an end
-/

end Relay

namespace Call

def recordsChunk : Call -> Bool
  | broker (.recordUploadChunk ..) => true
  | _ => false

def resolvesUpload : Call -> Bool
  | broker op => op.resolves
  | _ => false

def finishesUpload : Call -> Bool
  | broker (.finishUpload ..) => true
  | _ => false

end Call

def Recordless (frame : Inbound) (role : ConnectionRole) (past : List CallAnswer)
    (task : Handler Unit) : Prop :=
  Program.Obeys (fun _ call => (Relay.endOf? frame role).isSome = true -> call.recordsChunk = false)
    past task fun _ _ => True

namespace Handler

section

variable {c : ConnId} {frame : Inbound} {role : ConnectionRole} {past : List CallAnswer}
  {u id : String}

theorem recordless_handleFileUploadEnd {msg : ControlMessage} {text : Option String} :
    Makes (fun call => !call.recordsChunk) (handleFileUploadEnd msg id text role c) := by
  cases role with
  | unauthenticated => exact makes_skip
  | client v d =>
      refine makes_ask rfl fun taken => ?_
      cases taken with
      | none => exact makes_then rfl (makes_act rfl)
      | some screenshot =>
          refine makes_then rfl (makes_ask rfl fun online => ?_)
          cases online with
          | true => exact makes_then rfl (makes_act rfl)
          | false => exact makes_then rfl (makes_act rfl)
  | desktop v =>
      refine makes_ask rfl fun taken => ?_
      cases taken with
      | none => exact makes_act rfl
      | some screenshot => exact makes_then rfl (makes_act rfl)

theorem recordless_of_makes {task : Handler Unit}
    (h : Makes (fun call => !call.recordsChunk) task) : Recordless frame role past task := by
  unfold Makes at h
  generalize ([] : List CallAnswer) = seen at h
  induction task generalizing past seen with
  | done value => trivial
  | invoke call next ih =>
      refine ⟨fun _ => ?_, fun r => ih r _ (h.2 r)⟩
      have hcall := h.1
      simpa using hcall

theorem recordless_of_none {task : Handler Unit} (h : Relay.endOf? frame role = none) :
    Recordless frame role past task := by
  induction task generalizing past with
  | done value => trivial
  | invoke call next ih =>
      refine ⟨fun hend => ?_, fun r => ih r⟩
      rw [h] at hend
      cases hend

theorem processWsMessage_recordless (env : Env) (frame : Inbound) (role : ConnectionRole)
    (c : ConnId) (ip : String) :
    Recordless frame role [] (processWsMessage env frame role c ip) := by
  cases hend : Relay.endOf? frame role with
  | none => exact recordless_of_none hend
  | some ended =>
      cases frame with
      | text size parsed =>
          unfold processWsMessage
          by_cases hsize : maxTextMessageSize < size
          · simp only [if_pos hsize]
            exact recordless_of_makes makes_skip
          · simp only [if_neg hsize]
            cases parsed with
            | none => exact recordless_of_makes makes_skip
            | some msg =>
                have hframe : (Inbound.text size (some msg)).control? = some msg := if_neg hsize
                cases role with
                | client v d =>
                    cases msg
                    case fileUploadEnd i text =>
                        simp only [handleControlMessage]
                        exact recordless_of_makes recordless_handleFileUploadEnd
                    all_goals simp [Relay.endOf?, hframe] at hend
                | unauthenticated => simp [Relay.endOf?] at hend
                | desktop v => simp [Relay.endOf?] at hend
      | binary data => cases role <;> simp [Relay.endOf?, Inbound.control?] at hend
      | other => cases role <;> simp [Relay.endOf?, Inbound.control?] at hend

end

end Handler

section

variable {c : ConnId} {frame : Inbound} {role : ConnectionRole} {past : List CallAnswer}
  {u id : String}

theorem Permitted.uploader {op : BrokerCall} {conn : ConnId}
    (h : Permitted c frame role past (.broker op)) (hop : op.uploader? = some conn) : conn = c := by
  cases h
  case privately hcall => cases hcall
  case ownUpload v hrole hcall =>
      cases op <;> simp [BrokerCall.uploader?, BrokerCall.ownUpload?] at hop hcall
      exact hop.symm.trans hcall.2
  case desktopCall v hrole hcall =>
      cases op <;> simp [BrokerCall.uploader?, BrokerCall.desktopSide?] at hop hcall
  case finishUpload v d i text hrole hframe hfirst => exact (Option.some.inj hop).symm
  all_goals cases hop

theorem Relay.CleanupCall.uploader {op : BrokerCall} {conn : ConnId}
    (h : Relay.CleanupCall c role op)
    (hop : op.uploader? = some conn) : conn = c := by
  cases h <;> first | exact (Option.some.inj hop).symm | cases hop

theorem Permitted.finishes {v i : String} {conn : ConnId}
    (h : Permitted c frame role past (.broker (.finishUpload v i conn))) :
    conn = c ∧ Relay.endOf? frame role = some (v, i) := by
  cases h with
  | privately hcall => cases hcall
  | ownUpload hrole hcall => cases hcall
  | finishUpload hrole hframe hfirst =>
      refine ⟨rfl, ?_⟩
      simp [hrole, Relay.endOf?, hframe]
  | desktopCall hrole hcall => cases hcall

theorem Permitted.forwardsEnd {v i : String} {text : Option String}
    (h : Permitted c frame role past (.broker (.sendToDesktop v (.text (.fileUploadEnd i text))))) :
    past.head? = some ⟨.broker (.finishUpload v i c), ()⟩ ∧
      Relay.endOf? frame role = some (v, i) := by
  cases h with
  | privately hcall => cases hcall
  | ownUpload hrole hcall => cases hcall
  | desktopCall hrole hcall => cases hcall
  | forward hrole hframe hplain => cases hplain
  | forwardEnd hrole hframe hdone =>
      refine ⟨hdone, ?_⟩
      simp [hrole, Relay.endOf?, hframe]

end

namespace Relay

/-!
## The invariant
-/

def marked (past : List CallAnswer) : Bool :=
  past.any fun a => a.call.finishesUpload

structure Ending (s : Relay) : Prop where
  transfers : forall {c frame role past task}, s.activity c = .handling frame role past task ->
    Transfers role past task
  recordless : forall {c frame role past task}, s.activity c = .handling frame role past task ->
    Recordless frame role past task
  known : forall {c}, s.role c ≠ .unauthenticated -> exists e, e ∈ s.log ∧ e.conn = c
  sender : forall {c frame role past task}, s.activity c = .handling frame role past task ->
    (endOf? frame role).isSome = true -> exists e, e ∈ s.log ∧ e.conn = c
  ended : forall {c frame role past call next u id},
    s.activity c = .handling frame role past (.invoke call next) ->
    endOf? frame role = some (u, id) ->
    (forall a, a ∈ past -> a.call.resolvesUpload = false) ->
    s.broker.standing u id = some (c, marked past)

theorem ending_init (auth : AuthManager) (database : Database) : Ending (init auth database) where
  transfers := fun hact => by cases hact
  recordless := fun hact => by cases hact
  known := fun hrole => absurd rfl hrole
  sender := fun hact => by cases hact
  ended := fun hact => by cases hact

section

variable {env : Env} {s s' : Relay} {l : RelayLabel} {c : ConnId} {u id : String}

theorem known_step (hs : Sound s) (he : s.Ending) (hstep : Transition env s l s')
    (hrole : s'.role c ≠ .unauthenticated) : exists e, e ∈ s'.log ∧ e.conn = c := by
  have hkept : s'.role c = s.role c -> exists e, e ∈ s'.log ∧ e.conn = c := by
    intro hsame
    rw [hsame] at hrole
    rcases he.known hrole with ⟨e, hmem, hconn⟩
    exact ⟨e, mem_log_step hs hstep hmem, hconn⟩
  rcases role_step hs hstep c with hsame | ⟨hfresh, _⟩ | ⟨a, frame, role, past, next, rfl, hbusy⟩
  · exact hkept hsame
  · exact absurd hfresh hrole
  · cases handling_next hstep hbusy with
    | waits hsocket _ => exact hkept (by rw [Relay.role, hsocket, Relay.role])
    | calls hlabel htask hs' =>
        rw [hs']
        exact ⟨_, List.mem_cons_self, rfl⟩
    | panics htask => cases htask
    | returns htask => cases htask

theorem sender_step (hs : Sound s) (he : s.Ending) (hstep : Transition env s l s')
    {frame : Inbound} {role : ConnectionRole} {past : List CallAnswer} {task : Handler Unit}
    (hact : s'.activity c = .handling frame role past task)
    (hend : (endOf? frame role).isSome = true) : exists e, e ∈ s'.log ∧ e.conn = c := by
  have hkept : (exists e, e ∈ s.log ∧ e.conn = c) -> exists e, e ∈ s'.log ∧ e.conn = c := by
    rintro ⟨e, hmem, hconn⟩
    exact ⟨e, mem_log_step hs hstep hmem, hconn⟩
  rcases handling_step hstep hact with
    hwaits | ⟨_, _, hrole, _, _⟩ | ⟨a, call, before, next, _, _, hbusy, _, _⟩
  · exact hkept (he.sender hwaits hend)
  · apply hkept
    apply he.known
    intro hnone
    rw [hrole, hnone] at hend
    cases hend
  · exact hkept (he.sender hbusy hend)

theorem spares_of_other (he : s.Ending) {c' : ConnId} {a : Ambient} {op : BrokerCall}
    (hkeeps : s.KeepsEnds (.resume c' a)) (hnext : s.upcoming c' = some (.broker op))
    {frame : Inbound} {role : ConnectionRole} {past : List CallAnswer} {call : Call}
    {next : call.Reply -> Handler Unit}
    (hact : s.activity c = .handling frame role past (.invoke call next))
    (hend : endOf? frame role = some (u, id)) (hother : c = c' -> op.resolves = false) :
    op.spares s.broker a.now u id = true := by
  rcases he.sender hact (by rw [hend]; rfl) with ⟨e, hmem, hconn⟩
  simp only [KeepsEnds, keepsEnds, hnext] at hkeeps
  have hkept := List.all_eq_true.mp hkeeps e hmem
  have hending : s.ending? c = some (u, id) := by rw [ending?, hact]; exact hend
  simp only [hconn, hending, Bool.or_eq_true, Bool.and_eq_true, decide_eq_true_eq] at hkept
  rcases hkept with ⟨hsame, hresolves⟩ | hspares
  · rw [hother hsame] at hresolves
    cases hresolves
  · exact hspares

theorem standing_congr (h : forall v, s'.account v = s.account v) :
    s'.broker.standing u id = s.broker.standing u id :=
  congrArg _ (Broker.part_congr (h u))

theorem standing_waits (hs : Sound s) (he : s.Ending) (hkeeps : s.KeepsEnds l)
    (hstep : Transition env s l s') {frame : Inbound} {role : ConnectionRole}
    {past : List CallAnswer} {call : Call} {next : call.Reply -> Handler Unit} {finished : Bool}
    (hact : s.activity c = .handling frame role past (.invoke call next))
    (hact' : s'.activity c = .handling frame role past (.invoke call next))
    (hend : endOf? frame role = some (u, id))
    (hstanding : s.broker.standing u id = some (c, finished)) :
    s'.broker.standing u id = some (c, finished) := by
  have hcaller : forall e, s'.log = e :: s.log -> e.conn ≠ c :=
    fun e hlog => conn_ne_of_waiting hstep hact hact' hlog
  cases step_effect hs hstep with
  | none haccount hlog hclock halive => exact (standing_congr haccount).trans hstanding
  | handler hclock hbusy hbroker hlog hnow =>
      rename_i c' a frame' role' past' call' next'
      have hne : c' ≠ c := hcaller _ hlog
      rw [hbroker]
      rcases broker_perform_cases env s c' a call' with ⟨op, rfl⟩ | ⟨-, hsame⟩
      · refine Broker.standing_exec hstanding ?_ ?_
        · refine spares_of_other he hkeeps (by rw [upcoming, hbusy]) hact hend ?_
          intro hc
          exact absurd hc.symm hne
        · intro hown
          exact hne ((hs.behaves hbusy).1.permitted.uploader hown).symm
      · rw [hsame]
        exact hstanding
  | cleanup hclock hbusy hcall hbroker hlog hnow =>
      rename_i c' a op next'
      have hne : c' ≠ c := hcaller _ hlog
      rw [hbroker]
      refine Broker.standing_exec hstanding ?_ fun hown => hne (hcall.uploader hown).symm
      generalize s.role c' = role' at hcall
      cases hcall <;> rfl

theorem standing_calls (hs : Sound s) (he : s.Ending) {a : Ambient}
    (hkeeps : s.KeepsEnds (.resume c a)) {frame : Inbound} {role : ConnectionRole}
    {past : List CallAnswer} {call : Call} {next : call.Reply -> Handler Unit}
    (hbusy : s.activity c = .handling frame role past (.invoke call next))
    (hend : endOf? frame role = some (u, id)) (hresolves : call.resolvesUpload = false)
    (hstanding : s.broker.standing u id = some (c, marked past)) :
    (s.perform env c a call).broker.standing u id =
      some (c, marked (⟨call, s.answer env a call⟩ :: past)) := by
  have hpermitted := (hs.behaves hbusy).1.permitted
  rcases broker_perform_cases env s c a call with ⟨op, rfl⟩ | ⟨hother, hsame⟩
  · have hspares : op.spares s.broker a.now u id = true :=
      spares_of_other he hkeeps (by rw [upcoming, hbusy]) hbusy hend fun _ => hresolves
    by_cases hfinish : exists v i conn, op = .finishUpload v i conn
    · rcases hfinish with ⟨v, i, conn, rfl⟩
      rcases hpermitted.finishes with ⟨rfl, hown⟩
      rw [hend] at hown
      cases hown
      exact Broker.standing_finishUpload hstanding hspares
    · have hunmarked : marked (⟨.broker op, s.answer env a (.broker op)⟩ :: past) =
        marked past := by
        cases op
        case finishUpload v i conn => exact absurd ⟨v, i, conn, rfl⟩ hfinish
        all_goals rfl
      rw [hunmarked]
      refine Broker.standing_exec hstanding hspares fun hown => ?_
      have hrecord : (Call.broker op).recordsChunk = false :=
        (he.recordless hbusy).1 (by rw [hend]; rfl)
      cases op
      case recordUploadChunk => cases hrecord
      case finishUpload v i conn => exact hfinish ⟨v, i, conn, rfl⟩
      case unregisterClient v d conn =>
          cases hpermitted
          case privately hcall => cases hcall
          case ownUpload hrole hcall => cases hcall
          case desktopCall hrole hcall => cases hcall
      case unregisterDesktop v conn =>
          cases hpermitted
          case privately hcall => cases hcall
          case ownUpload hrole hcall => cases hcall
          case desktopCall hrole hcall => cases hcall
      all_goals cases hown
  · rw [hsame]
    have hunmarked : marked (⟨call, s.answer env a call⟩ :: past) = marked past := by
      cases call
      case broker op => exact absurd rfl (hother op)
      all_goals rfl
    rw [hunmarked]
    exact hstanding

theorem ended_step (hs : Sound s) (he : s.Ending) (hkeeps : s.KeepsEnds l)
    (hstep : Transition env s l s') {frame : Inbound} {role : ConnectionRole}
    {past : List CallAnswer} {call : Call} {next : call.Reply -> Handler Unit}
    (hact : s'.activity c = .handling frame role past (.invoke call next))
    (hend : endOf? frame role = some (u, id))
    (hresolves : forall a, a ∈ past -> a.call.resolvesUpload = false) :
    s'.broker.standing u id = some (c, marked past) := by
  rcases handling_step hstep hact with
    hwaits | ⟨rfl, _, hrole, hpast, _⟩ | ⟨a, call', before, next', rfl, _, hbusy, hpast, _⟩
  · exact standing_waits hs he hkeeps hstep hwaits hact hend (he.ended hwaits hend hresolves)
  · rw [hrole] at hend
    simp only [KeepsEnds, keepsEnds, hend, decide_eq_true_eq] at hkeeps
    rw [hpast]
    cases step_effect hs hstep with
    | none haccount hlog hclock halive => exact (standing_congr haccount).trans hkeeps
  · rw [hpast] at hresolves hact ⊢
    have hcall : call'.resolvesUpload = false := hresolves _ List.mem_cons_self
    have hbefore := he.ended hbusy hend fun b hb => hresolves b (List.mem_cons_of_mem _ hb)
    rw [resumed_step hstep hbusy hact]
    exact standing_calls hs he hkeeps hbusy hend hcall hbefore

theorem ending_step (hs : Sound s) (he : s.Ending) (hkeeps : s.KeepsEnds l)
    (hstep : Transition env s l s') : s'.Ending where
  transfers := fun hact => obeys_step (Handler.processWsMessage_transfers env) hstep
    (fun hact => he.transfers hact) hact
  recordless := fun hact => by
    have hkept := @obeys_step env _ (fun _ _ _ => True) (Handler.processWsMessage_recordless env)
      s s' l hstep (fun hact => he.recordless hact) _ _ _ _ _ hact
    exact hkept
  known := known_step hs he hstep
  sender := fun hact => sender_step hs he hstep hact
  ended := fun hact => ended_step hs he hkeeps hstep hact

end

section

variable {s : Relay} {c : ConnId} {u id : String}

theorem prepared_of_tail {role : ConnectionRole} {past : List CallAnswer} {msg : WsMessage}
    {next : (Call.broker (.sendToDesktop u msg)).Reply -> Handler Unit}
    (h : Transfers role past (.invoke (.broker (.sendToDesktop u msg)) next))
    (htail : msg.tailOf? = some id) : forall b, b ∈ past.tail -> b.call.prepares = true := by
  rcases h.1.tail u msg id rfl htail with ⟨a, earlier, d, c', hpast, _, _, hprepared⟩
  rw [hpast]
  exact hprepared

theorem harmless_of_prepares {call : Call} (h : call.prepares = true) :
    call.resolvesUpload = false ∧ call.finishesUpload = false := by
  cases call
  case broker op => cases op <;> first | exact ⟨rfl, rfl⟩ | cases h
  all_goals exact ⟨rfl, rfl⟩

theorem not_marked_of_prepared {past : List CallAnswer}
    (h : forall b, b ∈ past -> b.call.prepares = true) : marked past = false := by
  apply List.any_eq_false.mpr
  intro b hb
  simp [(harmless_of_prepares (h b hb)).2]

/-- What precedes the mark of a client's end: the handler is bound to forward the end
next, and forwards it only after preparations. -/
theorem prepared_of_finishing (hs : Sound s) (he : s.Ending) {frame : Inbound}
    {role : ConnectionRole} {past : List CallAnswer} {conn : ConnId}
    {next : (Call.broker (.finishUpload u id conn)).Reply -> Handler Unit}
    (hact : s.activity c = .handling frame role past
      (.invoke (.broker (.finishUpload u id conn)) next)) :
    forall b, b ∈ past -> b.call.prepares = true := by
  have hbehaves := hs.behaves hact
  rcases hbehaves.1.permitted.finishes with ⟨rfl, hend⟩
  have hframe : exists text, frame.control? = some (.fileUploadEnd id text) := by
    unfold endOf? at hend
    split at hend
    · rename_i hmsg
      cases hend
      exact ⟨_, hmsg⟩
    · cases hend
  rcases hframe with ⟨text, hframe⟩
  have hnext := hbehaves.2 ()
  have htransfers := (he.transfers hact).2 ()
  generalize next () = task at hnext htransfers
  cases task with
  | done value =>
      have hdue : nextCall? frame (⟨.broker (.finishUpload u id conn), ()⟩ :: past) = none := hnext
      simp [nextCall?, hframe] at hdue
  | invoke call rest =>
      have hcall := hnext.1.due (.broker (.sendToDesktop u (.text (.fileUploadEnd id text))))
        (by simp [nextCall?, hframe])
      subst hcall
      exact prepared_of_tail htransfers rfl

theorem endsOwned_of_ending (hs : Sound s) (he : s.Ending) : s.EndsOwned where
  finishes := by
    intro c u id hfinishing
    unfold finishing? at hfinishing
    split at hfinishing
    · rename_i v i conn hnext
      cases hfinishing
      rcases activity_of_upcoming hnext with ⟨frame, role, past, next, hact⟩
      rcases (hs.behaves hact).1.permitted.finishes with ⟨rfl, hend⟩
      have hprepared := prepared_of_finishing hs he hact
      rw [he.ended hact hend fun b hb => (harmless_of_prepares (hprepared b hb)).1,
        not_marked_of_prepared hprepared]
    · cases hfinishing
  forwards := by
    intro c u id hforwarding
    unfold forwardingEnd? at hforwarding
    split at hforwarding
    · rename_i v i text hnext
      cases hforwarding
      rcases activity_of_upcoming hnext with ⟨frame, role, past, next, hact⟩
      rcases (hs.behaves hact).1.permitted.forwardsEnd with ⟨hhead, hend⟩
      have hprepared := prepared_of_tail (he.transfers hact) rfl
      rw [pastOf_handling hact]
      refine ⟨hhead, ?_⟩
      cases past with
      | nil => cases hhead
      | cons a earlier =>
          cases hhead
          refine he.ended hact hend ?_
          intro b hb
          rcases List.mem_cons.mp hb with rfl | hold
          · rfl
          · exact (harmless_of_prepares (hprepared b hold)).1
    · cases hforwarding

end

/--
In every run in which a client sends an end only while it owns the unfinished upload,
and nobody else resolves or sweeps the upload until the end is forwarded, every end
that is marked and forwarded is for an upload of its sender.
-/
theorem ends_owned {env : Env} {auth : AuthManager} {database : Database}
    {labels : List RelayLabel} {s : Relay} (hrun : Runs env auth database labels s)
    (hok : Admits (step env) KeepsEnds (init auth database) labels) : s.EndsOwned := by
  have h := admitted_induction (ending_init auth database)
    (fun _ _ _ hs he hl hnext => ending_step hs he hl hnext) hrun hok
  exact endsOwned_of_ending h.1 h.2

def phoneEnds : List RelayLabel :=
  Deployment.start 2 (Deployment.message (.fileUploadEnd notes none)) 2

theorem ends_owned_example : exists s,
    Runs Deployment.env Deployment.auth Deployment.database
      (deskAndPhone ++ phoneBegins ++ phoneEnds) s ∧
      s.forwardingEnd? 2 = some ("user", notes) ∧ s.EndsOwned := by
  have hend : (Deployment.after (deskAndPhone ++ phoneBegins ++ phoneEnds)).map
      (fun s => s.forwardingEnd? 2) = some (some ("user", notes)) := by decide +kernel
  rcases Option.map_eq_some_iff.mp hend with ⟨s, hrun, hforwards⟩
  exact ⟨s, hrun, hforwards, ends_owned hrun (by decide +kernel)⟩

/-- An end for an id under which there is no upload is forwarded all the same. -/
theorem unknown_end_forwarded : exists s,
    Runs Deployment.env Deployment.auth Deployment.database (deskAndPhone ++ phoneEnds) s ∧
      ¬ s.EndsOwned := by
  have hend : (Deployment.after (deskAndPhone ++ phoneEnds)).map
      (fun s => (s.forwardingEnd? 2, s.broker.standing "user" notes)) =
      some (some ("user", notes), none) := by decide +kernel
  rcases Option.map_eq_some_iff.mp hend with ⟨s, hrun, hfacts⟩
  simp only [Prod.mk.injEq] at hfacts
  refine ⟨s, hrun, fun h => ?_⟩
  have howned := (h.forwards 2 "user" notes hfacts.1).2
  rw [hfacts.2] at howned
  cases howned

end Relay

end CommandRelay
