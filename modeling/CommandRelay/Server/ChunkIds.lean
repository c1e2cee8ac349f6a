import CommandRelay.Broker.Uploads
import CommandRelay.Server.Handlers
import CommandRelay.Wire.FrameCodec
import Mathlib.Data.List.Induction

/-!
# The two spellings of an upload id

An upload id travels as a JSON string in `file_upload_begin` and in the 36-byte slot of
every chunk.  The two agree for the ids that fill the slot, and for no others.
-/

namespace CommandRelay

open Foundation

namespace Handler

/-- The chunk that a binary frame is governed as: the id and the payload that
`record_upload_chunk` is called with. -/
def governed? (frame : Slice) (role : ConnectionRole) (c : ConnId) :
    Option (String × Slice) :=
  match handleBinaryMessage frame role c with
  | .invoke (.broker (.recordUploadChunk _ id _ payload)) _ => some (id, payload)
  | _ => none

variable {frame : Slice} {u d id : String} {c : ConnId} {payload : Bytes}

theorem governed?_of_parse (h : parseBinaryFrame frame.bytes = .ok (ptyFileChunk, id, payload)) :
    governed? frame (.client u d) c = some (id, frame.drop binaryHeaderLen) := by
  unfold governed? handleBinaryMessage
  rw [h]
  rfl

theorem parse_of_governed? {chunk : String × Slice}
    (h : governed? frame (.client u d) c = some chunk) :
    exists payload, parseBinaryFrame frame.bytes = .ok (ptyFileChunk, chunk.1, payload) := by
  unfold governed? handleBinaryMessage at h
  cases hparse : parseBinaryFrame frame.bytes with
  | error reason =>
      rw [hparse] at h
      cases h
  | ok parsed =>
      rcases parsed with ⟨frameType, slot, payload⟩
      rw [hparse] at h
      by_cases hinput : frameType = ptyInput
      · simp only [if_pos hinput] at h
        cases h
      · by_cases hchunk : frameType = ptyFileChunk
        · simp only [if_neg hinput, if_pos hchunk] at h
          cases h
          exact ⟨payload, by rw [hchunk]⟩
        · simp only [if_neg hinput, if_neg hchunk] at h
          cases h

theorem slot_of_governed? {chunk : String × Slice}
    (hframe : frame.bytes = buildBinaryFrame ptyFileChunk id payload)
    (h : governed? frame (.client u d) c = some chunk) : textBytes chunk.1 = idSlot id := by
  rcases parse_of_governed? h with ⟨rest, hparse⟩
  rw [hframe] at hparse
  rcases parse_buildBinaryFrame.mp hparse with ⟨_, slot, hslot, hchunk⟩
  cases hchunk
  exact textOf?_eq_some.mp hslot

theorem governed?_of_full (hframe : frame.bytes = buildBinaryFrame ptyFileChunk id payload)
    (hfull : id.utf8ByteSize = 36) :
    governed? frame (.client u d) c = some (id, frame.drop binaryHeaderLen) ∧
      (frame.drop binaryHeaderLen).bytes = payload := by
  have hparse : parseBinaryFrame frame.bytes = .ok (ptyFileChunk, id, payload) := by
    rw [hframe]
    exact parse_buildBinaryFrame.mpr
      ⟨rfl, id, textOf?_eq_some.mpr (idSlot_eq hfull).symm, rfl⟩
  constructor
  · exact governed?_of_parse hparse
  · have hbytes := (parseBinaryFrame_eq_ok.mp hparse).2.2
    show frame.bytes.drop (36 + 1) = payload
    rw [hbytes, List.drop_succ_cons]
    exact List.drop_left' hfull

end Handler

/-!
## What the two halves of a transfer agree on
-/

namespace Broker

/-- The account has the upload, which is neither idle nor finished. -/
structure ActiveUpload (b : Broker) (u id : String) (now : Instant) (e : UploadEntry) : Prop where
  found : b.upload? u id = some e
  live : e.live now = true
  unfinished : e.finished = false

/-- The frame of the owner is recorded under the upload itself, and forwarded. -/
structure Taken (b : Broker) (u id : String) (now : Instant) (e : UploadEntry) (d : String)
    (frame payload : Slice) : Prop where
  governed : Handler.governed? frame (.client u d) e.owner = some (id, payload)
  forward : (b.exec now (.recordUploadChunk u id e.owner payload)).2 = .forward
  counted : (b.exec now (.recordUploadChunk u id e.owner payload)).1.upload? u id =
    some ((e.received payload now).buffered payload)

def attributed? (b : Broker) (u d : String) (c : ConnId) (now : Instant) (frame : Slice) :
    Option String :=
  match Handler.governed? frame (.client u d) c with
  | some (id, _) => if (UploadEntry.swept now (b.upload? u id)).isSome then some id else none
  | none => none

variable {b : Broker} {u d id : String} {c : ConnId} {now : Instant} {e : UploadEntry}
  {frame : Slice} {payload : Bytes}

theorem governed_of_attributed? (h : b.attributed? u d c now frame = some id) :
    exists payload, Handler.governed? frame (.client u d) c = some (id, payload) := by
  unfold attributed? at h
  cases hgoverned : Handler.governed? frame (.client u d) c with
  | none =>
      rw [hgoverned] at h
      cases h
  | some chunk =>
      rw [hgoverned] at h
      rcases chunk with ⟨slot, rest⟩
      by_cases hfound : (UploadEntry.swept now (b.upload? u slot)).isSome = true
      · simp only [if_pos hfound] at h
        cases h
        exact ⟨rest, rfl⟩
      · simp only [if_neg hfound] at h
        cases h

theorem ActiveUpload.taken (h : b.ActiveUpload u id now e) (hfull : id.utf8ByteSize = 36)
    (hframe : frame.bytes = buildBinaryFrame ptyFileChunk id payload)
    (hbudget : e.bytesForwarded + payload.length ≤ e.budget) :
    b.Taken u id now e d frame (frame.drop binaryHeaderLen) := by
  rcases Handler.governed?_of_full (u := u) (d := d) (c := e.owner) hframe hfull with
    ⟨hgoverned, hpayload⟩
  have hswept : UploadEntry.swept now (b.upload? u id) = some e := by
    rw [h.found]
    exact Option.filter_eq_some_iff.mpr ⟨rfl, h.live⟩
  have haccepts : ¬ e.rejects e.owner = true := by
    simp [UploadEntry.rejects, h.unfinished]
  have hfits : ¬ e.overruns (frame.drop binaryHeaderLen) now = true := by
    have hlimit : e.budget ≤ 25 * 1024 * 1024 := Nat.min_le_right _ _
    have hcounter : (e.received (frame.drop binaryHeaderLen) now).bytesForwarded =
        e.bytesForwarded + payload.length := by
      show (e.bytesForwarded + (frame.drop binaryHeaderLen).bytes.length) % _ = _
      rw [hpayload]
      exact Nat.mod_eq_of_lt (by omega)
    simp only [UploadEntry.overruns, hcounter, decide_eq_true_eq]
    omega
  exact
    { governed := hgoverned
      forward := by
        rw [exec_recordUploadChunk_reply, hswept]
        simp only [UploadEntry.chunkDecision, if_neg haccepts, if_neg hfits]
      counted := by
        rw [upload?_exec rfl]
        simp only [uploadAfter, if_true, hswept, UploadEntry.afterChunk, if_neg haccepts,
          if_neg hfits] }

end Broker

namespace BrokerRun

/-- The id was accepted for an upload in the account. -/
def Accepted (s : BrokerRun) (u id : String) : Prop :=
  exists e, e ∈ s.log ∧ (e.opens? u id).isSome = true

/-- The text and the binary half of every transfer of the run agree on its id. -/
structure TransfersAgree (s : BrokerRun) : Prop where
  taken : forall u id now e, s.clock ≤ now -> s.broker.ActiveUpload u id now e ->
    forall d frame payload, frame.bytes = buildBinaryFrame ptyFileChunk id payload ->
    e.bytesForwarded + payload.length ≤ e.budget ->
    s.broker.Taken u id now e d frame (frame.drop binaryHeaderLen)
  apart : forall u id id', s.Accepted u id -> s.Accepted u id' -> id ≠ id' ->
    forall d d' c c' now frame frame' payload payload' upload,
    frame.bytes = buildBinaryFrame ptyFileChunk id payload ->
    frame'.bytes = buildBinaryFrame ptyFileChunk id' payload' ->
    s.broker.attributed? u d c now frame = some upload ->
    s.broker.attributed? u d' c' now frame' ≠ some upload

/-- The halves agree in every state that the run passes through. -/
def AgreeAlong (labels : List BrokerLabel) : Prop :=
  forall before after s, labels = before ++ after -> Runs before s -> s.TransfersAgree

theorem id_of_opens? {u id v uploadId : String} {now : Instant} {size : Nat} {c : ConnId}
    {reply : Except String Unit}
    (h : (BrokerEvent.opens? u id ⟨now, .beginUpload v uploadId size c, reply⟩).isSome = true) :
    id = uploadId := by
  cases reply with
  | error reason => cases h
  | ok accepted =>
      by_cases hid : u = v ∧ id = uploadId
      · exact hid.2
      · simp [BrokerEvent.opens?, hid] at h

theorem accepted_of_upload? {labels : List BrokerLabel} {s : BrokerRun} (hrun : Runs labels s)
    {u id : String} {e : UploadEntry} (h : s.broker.upload? u id = some e) :
    s.Accepted u id := by
  refine runs_induction (motive := fun s =>
    forall e, s.broker.upload? u id = some e -> s.Accepted u id) ?_ ?_ ?_ hrun e h
  · intro e he
    cases he
  · intro s now call ih _ e he
    have hold : s.Accepted u id -> (s.perform now call).Accepted u id := by
      rintro ⟨f, hf, hopens⟩
      exact ⟨f, List.mem_cons_of_mem _ hf, hopens⟩
    cases hopens : (s.event now call).opens? u id with
    | some opening => exact ⟨s.event now call, List.mem_cons_self, by rw [hopens]; rfl⟩
    | none =>
        by_cases hu : call.subject? = some u
        · cases hupload : s.broker.upload? u id with
          | some old => exact hold (ih old hupload)
          | none =>
              have hafter : (s.perform now call).broker.upload? u id =
                  Broker.uploadAfter now id call (s.broker.exec now call).2 none := by
                rw [← hupload]
                exact Broker.upload?_exec hu id
              rw [hafter] at he
              cases call with
              | beginUpload v uploadId size conn =>
                  cases hu
                  by_cases hid : id = uploadId ∧
                      (s.broker.exec now (.beginUpload u uploadId size conn)).2 = .ok ()
                  · simp [event, BrokerEvent.opens?, hid.1, hid.2] at hopens
                  · simp only [Broker.uploadAfter, if_neg hid] at he
                    cases he
              | registerDesktop | registerClient | registerDownload | beginSupervisorQuery
              | addPendingDevice =>
                  simp [Broker.uploadAfter] at he
              | _ =>
                  rw [Broker.uploadAfter_none _ rfl] at he
                  cases he
        · have hsame : (s.perform now call).broker.upload? u id = s.broker.upload? u id :=
            Broker.upload?_exec_other hu id
          rw [hsame] at he
          exact hold (ih e he)
  · intro s s' ih hquiet e he
    have hsame : s'.broker.upload? u id = s.broker.upload? u id :=
      Broker.part_congr (hquiet.account u)
    rw [hsame] at he
    rcases ih e he with ⟨f, hf, hopens⟩
    exact ⟨f, hquiet.log ▸ hf, hopens⟩

theorem log_grows {labels : List BrokerLabel} {s s' : BrokerRun}
    (hrun : follow step s labels = some s') {e : BrokerEvent} (he : e ∈ s.log) : e ∈ s'.log := by
  have hall : Admits step (fun _ _ => True) s labels :=
    admits_of_forall (fun _ _ => trivial) s labels
  refine follow_invariant (motive := fun s => e ∈ s.log) ?_ he hrun hall
  intro s l s' hmem _ hstep
  rcases step_cases hstep with ⟨now, call, rfl, _, rfl⟩ | hquiet
  · exact List.mem_cons_of_mem _ hmem
  · exact hquiet.log ▸ hmem

theorem step_of_mem_log {labels : List BrokerLabel} {s : BrokerRun} (hrun : Runs labels s)
    {e : BrokerEvent} (he : e ∈ s.log) :
    exists before after s' now call, labels = before ++ .call now call :: after ∧
      Runs before s' ∧ s'.clock ≤ now ∧ e = s'.event now call := by
  induction labels using List.reverseRecOn generalizing s with
  | nil =>
      cases hrun
      cases he
  | append_singleton labels l ih =>
      rcases follow_append_eq_some.mp hrun with ⟨m, hm, hlast⟩
      rcases follow_cons_eq_some.mp hlast with ⟨s', hstep, hnil⟩
      cases hnil
      have hearlier : e ∈ m.log -> exists before after s' now call,
          labels ++ [l] = before ++ .call now call :: after ∧
            Runs before s' ∧ s'.clock ≤ now ∧ e = s'.event now call := by
        intro hmem
        rcases ih hm hmem with ⟨before, after, s', now, call, rfl, hbefore⟩
        exact ⟨before, after ++ [l], s', now, call, by simp, hbefore⟩
      rcases step_cases hstep with ⟨now, call, rfl, hclock, rfl⟩ | hquiet
      · rcases List.mem_cons.mp he with hnew | hold
        · exact ⟨labels, [], m, now, call, rfl, hm, hclock, hnew⟩
        · exact hearlier hold
      · exact hearlier (hquiet.log ▸ he)

theorem agree_of_full {labels : List BrokerLabel} {s : BrokerRun} (hrun : Runs labels s)
    (hfull : forall u id, s.Accepted u id -> id.utf8ByteSize = 36) : s.TransfersAgree where
  taken := by
    intro u id now e _ h d frame payload hframe hbudget
    exact h.taken (hfull u id (accepted_of_upload? hrun h.found)) hframe hbudget
  apart := by
    intro u id id' hid hid' hne d d' c c' now frame frame' payload payload' upload hframe
      hframe' hupload hupload'
    rcases Broker.governed_of_attributed? hupload with ⟨_, hgoverned⟩
    rcases Broker.governed_of_attributed? hupload' with ⟨_, hgoverned'⟩
    have hslot := Handler.slot_of_governed? hframe hgoverned
    have hslot' := Handler.slot_of_governed? hframe' hgoverned'
    rw [idSlot_eq (hfull u id hid)] at hslot
    rw [idSlot_eq (hfull u id' hid')] at hslot'
    exact hne (textBytes_inj (hslot.symm.trans hslot'))

theorem full_of_agree {s : BrokerRun} {now : Instant} {call : BrokerCall} {u id : String}
    (hopens : ((s.event now call).opens? u id).isSome = true)
    (h : (s.perform now call).TransfersAgree) : id.utf8ByteSize = 36 := by
  rcases Option.isSome_iff_exists.mp hopens with ⟨⟨size, c⟩, hopening⟩
  have hfound : (s.perform now call).broker.upload? u id =
      some (UploadEntry.opened size c now) := (Broker.size_le_of_opens? hopening).2
  have hactive : (s.perform now call).broker.ActiveUpload u id now
      (UploadEntry.opened size c now) :=
    { found := hfound
      live := by simp [UploadEntry.live, UploadEntry.opened, elapsedSecs, uploadIdleTimeoutSecs]
      unfinished := rfl }
  have hlength : (buildBinaryFrame ptyFileChunk id []).length = 37 := by
    rw [buildBinaryFrame_eq, List.append_nil, List.length_cons, length_idSlot]
  have htaken := h.taken u id now _ (Nat.le_refl now) hactive "device"
    ⟨buildBinaryFrame ptyFileChunk id [], by omega⟩ [] rfl (Nat.zero_le _)
  exact size_of_idSlot (Handler.slot_of_governed? rfl htaken.governed).symm

/-- The halves of every transfer agree all along a run, exactly when every upload id that
was accepted in it has 36 bytes. -/
theorem transfers_agree {labels : List BrokerLabel} {s : BrokerRun} (hrun : Runs labels s) :
    AgreeAlong labels <-> forall u id, s.Accepted u id -> id.utf8ByteSize = 36 := by
  constructor
  · rintro hagree u id ⟨e, he, hopens⟩
    rcases step_of_mem_log hrun he with
      ⟨before, after, s', now, call, hlabels, hbefore, hclock, rfl⟩
    have hstep : step s' (.call now call) = some (s'.perform now call) := if_pos hclock
    have hperform := hagree (before ++ [.call now call]) after _ (by rw [hlabels]; simp)
      (runs_snoc hbefore hstep)
    exact full_of_agree hopens hperform
  · intro hfull before after s' hlabels hbefore
    rw [hlabels] at hrun
    rcases follow_append_eq_some.mp hrun with ⟨m, hm, hrest⟩
    have hm' : m = s' := Option.some.inj (hm.symm.trans hbefore)
    rw [hm'] at hrest
    refine agree_of_full hbefore fun u id haccepted => hfull u id ?_
    rcases haccepted with ⟨e, he, hopens⟩
    exact ⟨e, log_grows hrest he, hopens⟩

theorem transfers_agree_example :
    AgreeAlong [.call 0 (.beginUpload "user" "6f9619ff-8b86-4011-b42d-00cf4fc964ff" 10 1)] :=
  have hrun : Runs
      [.call 0 (.beginUpload "user" "6f9619ff-8b86-4011-b42d-00cf4fc964ff" 10 1)] _ := rfl
  (transfers_agree hrun).mpr (by
    rintro u id ⟨e, he, hopens⟩
    rw [List.mem_singleton.mp he] at hopens
    rw [id_of_opens? hopens]
    rfl)

/-- The chunks of an upload called "file" are recorded under a name padded to 36 bytes. -/
theorem short_id_mislaid : exists s,
    Runs [.call 0 (.beginUpload "user" "file" 10 1)] s ∧ s.Accepted "user" "file" ∧
      Handler.governed? ⟨buildBinaryFrame ptyFileChunk "file" [1, 2, 3], by decide⟩
        (.client "user" "phone") 1 =
          some ("file                                ", ⟨[1, 2, 3], by decide⟩) ∧
      ¬ s.TransfersAgree := by
  have hopens : ((event init 0 (.beginUpload "user" "file" 10 1)).opens? "user" "file").isSome =
      true := rfl
  refine ⟨_, rfl, ⟨_, List.mem_cons_self, hopens⟩, ?_, fun hagree => ?_⟩
  · exact Handler.governed?_of_parse rfl
  · exact absurd (full_of_agree hopens hagree) (by decide)

end BrokerRun

end CommandRelay
