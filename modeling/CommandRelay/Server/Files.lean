import CommandRelay.Broker.Downloads
import CommandRelay.Broker.Uploads
import CommandRelay.Server.Streams
import CommandRelay.Server.Transfers

/-!
# File transfers without holes

Chunks of an upload go to the desktop of the account, and chunks of a download to the
connection that requested it.  A transfer may be cut short, but it never loses a chunk and
goes on: what arrives is the first part of what was sent.
-/

namespace CommandRelay

open Foundation

def WsMessage.isChunk (frameType : UInt8) (id : String) (msg : WsMessage) : Bool :=
  msg.frame? = some (frameType, id)

namespace BrokerCall

def startsUpload (u id : String) (c : ConnId) : BrokerCall -> Bool
  | beginUpload v uploadId _ conn => v = u ∧ uploadId = id ∧ conn = c
  | _ => false

def startsDownload (u id : String) : BrokerCall -> Bool
  | registerDownload v downloadId _ => v = u ∧ downloadId = id
  | _ => false

end BrokerCall

/-!
## Only a begin opens an upload
-/

namespace UploadEntry

section

variable {c : ConnId} {now : Instant} {upload : Option UploadEntry}

/-- The upload takes chunks of the connection. -/
def Takes (c : ConnId) (upload : Option UploadEntry) : Prop :=
  exists e, upload = some e ∧ e.rejects c = false

theorem Takes.of_filter {p : UploadEntry -> Bool} (h : Takes c (upload.filter p)) :
    Takes c upload := by
  rcases h with ⟨e, he, hrejects⟩
  exact ⟨e, (Option.filter_eq_some_iff.mp he).1, hrejects⟩

theorem Takes.of_map {f : UploadEntry -> UploadEntry} (h : Takes c (upload.map f))
    (hf : forall e, (f e).rejects c = false -> e.rejects c = false) : Takes c upload := by
  rcases h with ⟨e, he, hrejects⟩
  rcases Option.map_eq_some_iff.mp he with ⟨e', he', rfl⟩
  exact ⟨e', he', hf e' hrejects⟩

theorem Takes.of_chunk {conn : ConnId} {payload : Slice}
    (h : Takes c (afterChunk conn payload now upload)) : Takes c upload := by
  rcases h with ⟨e, he, hrejects⟩
  cases upload with
  | none => cases he
  | some e' =>
      refine ⟨e', rfl, ?_⟩
      simp only [afterChunk] at he
      split at he
      · cases he
        exact hrejects
      · split at he
        · cases he
        · cases he
          exact hrejects

theorem chunk_cases (c : ConnId) (payload : Slice) (now : Instant)
    (upload : Option UploadEntry) :
    chunkDecision c payload now upload = .forward ∧ Takes c upload ∨
      chunkDecision c payload now upload ≠ .forward ∧
        ¬ Takes c (afterChunk c payload now upload) := by
  cases upload with
  | none =>
      refine Or.inr ⟨fun h => (by cases h), fun h => ?_⟩
      rcases h with ⟨e, he, _⟩
      cases he
  | some e =>
      by_cases hrejects : e.rejects c = true
      · simp only [chunkDecision, afterChunk, if_pos hrejects]
        refine Or.inr ⟨fun h => (by cases h), fun h => ?_⟩
        rcases h with ⟨e', he, htakes⟩
        cases he
        exact Bool.false_ne_true (htakes.symm.trans hrejects)
      · by_cases hover : e.overruns payload now = true
        · simp only [chunkDecision, afterChunk, if_neg hrejects, if_pos hover]
          refine Or.inr ⟨fun h => (by cases h), fun h => ?_⟩
          rcases h with ⟨e', he, _⟩
          cases he
        · simp only [chunkDecision, if_neg hrejects, if_neg hover]
          exact Or.inl ⟨trivial, e, rfl, Bool.eq_false_iff.mpr hrejects⟩

end

section

variable {u id : String} {c : ConnId} {now : Instant} {upload : Option UploadEntry}

theorem takes_of_uploadAfter {op : BrokerCall} {reply : op.Reply} (hu : op.subject? = some u)
    (hop : op.startsUpload u id c = false)
    (h : Takes c (Broker.uploadAfter now id op reply upload)) : Takes c upload := by
  have hsame : forall {i : String} {f : UploadEntry -> UploadEntry} {before},
      (forall e, (f e).rejects c = false -> e.rejects c = false) ->
      Takes c (if id = i then before.map f else before) -> Takes c before := by
    intro i f before hf htakes
    by_cases hi : id = i
    · rw [if_pos hi] at htakes
      exact htakes.of_map hf
    · rw [if_neg hi] at htakes
      exact htakes
  cases op with
  | beginUpload v uploadId size conn =>
      simp only [Broker.uploadAfter] at h
      by_cases hopened : id = uploadId ∧ reply = .ok ()
      · rw [if_pos hopened] at h
        rcases h with ⟨e, he, hrejects⟩
        cases he
        have howner : conn = c := of_decide_eq_true (Bool.not_eq_false' _ |>.mp hrejects)
        exact absurd ⟨Option.some.inj hu, hopened.1.symm, howner⟩ (of_decide_eq_false hop)
      · rw [if_neg hopened] at h
        exact h.of_filter
  | markBugReportUpload v uploadId conn =>
      refine hsame (fun e he => ?_) h
      unfold marked at he
      split at he <;> exact he
  | takeBugReportBuffer v uploadId conn =>
      refine hsame (fun e he => ?_) h
      unfold taken at he
      split at he <;> exact he
  | recordUploadChunk v uploadId conn payload =>
      simp only [Broker.uploadAfter] at h
      by_cases hid : id = uploadId
      · rw [if_pos hid] at h
        exact h.of_chunk.of_filter
      · rw [if_neg hid] at h
        exact h.of_filter
  | finishUpload v uploadId conn =>
      refine Takes.of_filter (hsame (fun e he => ?_) h)
      unfold finishedAt at he
      split at he
      · simp [rejects] at he
      · exact he
  | resolveUpload v uploadId =>
      simp only [Broker.uploadAfter] at h
      by_cases hid : id = uploadId
      · rw [if_pos hid] at h
        rcases h with ⟨e, he, _⟩
        cases he
      · rw [if_neg hid] at h
        exact h.of_filter
  | unregisterClient v deviceId conn => exact h.of_filter
  | unregisterDesktop v conn => exact h.of_filter
  | _ => exact h

end

end UploadEntry

namespace BrokerRun

variable {run run' : BrokerRun} {label : BrokerLabel} {u id : String} {c : ConnId}

theorem takes_step (hstep : run.step label = some run')
    (hlabel : forall now op, label = .call now op -> op.startsUpload u id c = false)
    (h : UploadEntry.Takes c (run'.broker.upload? u id)) :
    UploadEntry.Takes c (run.broker.upload? u id) := by
  rcases step_cases hstep with ⟨now, op, rfl, _, rfl⟩ | hquiet
  · have hafter : UploadEntry.Takes c ((run.broker.exec now op).1.upload? u id) := h
    by_cases hu : op.subject? = some u
    · rw [Broker.upload?_exec hu] at hafter
      exact UploadEntry.takes_of_uploadAfter hu (hlabel now op rfl) hafter
    · rw [Broker.upload?_exec_other hu] at hafter
      exact hafter
  · rw [show run'.broker.upload? u id = run.broker.upload? u id from
      Broker.part_congr (hquiet.account u)] at h
    exact h

end BrokerRun

/-!
## Only a request opens a download
-/

namespace DownloadEntry

variable {u id : String} {now : Instant} {download : Option DownloadEntry}

theorem isSome_of_filter {p : DownloadEntry -> Bool} (h : (download.filter p).isSome = true) :
    download.isSome = true := by
  rcases Option.isSome_iff_exists.mp h with ⟨e, he⟩
  rw [(Option.filter_eq_some_iff.mp he).1]
  rfl

theorem isSome_of_downloadAfter {op : BrokerCall} {reply : op.Reply} (hu : op.subject? = some u)
    (hop : op.startsDownload u id = false)
    (h : (Broker.downloadAfter now id op reply download).isSome = true) :
    download.isSome = true := by
  cases op with
  | registerDownload v downloadId conn =>
      simp only [Broker.downloadAfter] at h
      by_cases hgranted : id = downloadId ∧ reply = .ok ()
      · exact absurd ⟨Option.some.inj hu, hgranted.1.symm⟩ (of_decide_eq_false hop)
      · rw [if_neg hgranted] at h
        exact isSome_of_filter h
  | noteDownloadBegin v downloadId size =>
      simp only [Broker.downloadAfter] at h
      split at h
      · rw [Option.isSome_map] at h
        exact isSome_of_filter h
      · exact isSome_of_filter h
  | recordDownloadChunk v downloadId payload =>
      simp only [Broker.downloadAfter] at h
      split at h
      · cases download with
        | none => cases h
        | some e => rfl
      · exact isSome_of_filter h
  | resolveDownload v downloadId =>
      simp only [Broker.downloadAfter] at h
      split at h
      · cases h
      · exact isSome_of_filter h
  | unregisterClient v deviceId conn => exact isSome_of_filter h
  | _ => exact h

theorem chunk_cases (payload : Slice) (now : Instant) (download : Option DownloadEntry) :
    (exists e, download = some e ∧ chunkDecision payload now download = .forward e.owner) ∨
      (forall owner, chunkDecision payload now download ≠ .forward owner) ∧
        afterChunk payload now download = none := by
  cases download with
  | none => exact Or.inr ⟨fun _ h => (by cases h), rfl⟩
  | some e =>
      by_cases hover : e.overruns payload now = true
      · simp only [chunkDecision, afterChunk, if_pos hover]
        exact Or.inr ⟨fun _ h => (by cases h), trivial⟩
      · simp only [chunkDecision, if_neg hover]
        exact Or.inl ⟨e, rfl, rfl⟩

end DownloadEntry

theorem BrokerRun.isSome_step {run run' : BrokerRun} {label : BrokerLabel} {u id : String}
    (hstep : run.step label = some run')
    (hlabel : forall now op, label = .call now op -> op.startsDownload u id = false)
    (h : (run'.broker.download? u id).isSome = true) :
    (run.broker.download? u id).isSome = true := by
  rcases step_cases hstep with ⟨now, op, rfl, _, rfl⟩ | hquiet
  · have hafter : ((run.broker.exec now op).1.download? u id).isSome = true := h
    by_cases hu : op.subject? = some u
    · rw [Broker.download?_exec hu] at hafter
      exact DownloadEntry.isSome_of_downloadAfter hu (hlabel now op rfl) hafter
    · rw [Broker.download?_exec_other hu] at hafter
      exact hafter
  · rw [show run'.broker.download? u id = run.broker.download? u id from
      Broker.part_congr (hquiet.account u)] at h
    exact h

/-!
## Chunks on their way
-/

namespace Stream

section

variable {env : Env} {u id : String} {r : ConnId} {b : Broker} {m : WsMessage}
  {frame : Inbound} {current : ConnectionRole} {frameType : UInt8}

theorem frame_of_isChunk (h : m.isChunk frameType id = true) :
    m.frame? = some (frameType, id) := of_decide_eq_true h

theorem enqueued_nothing (now : Instant)
    (hnodup : forall u, ((b.clients u).map ClientConnection.tx).Nodup) {op : BrokerCall}
    (hop : op.relayed? = none) :
    relayedTo r (Relay.newlyEnqueued b (b.exec now op).1) = [] := by
  rcases Broker.passesOn_exec WsMessage.foreign_isRelayed hnodup now op with
    ⟨added, hadded, honce⟩
  rw [Relay.newlyEnqueued_of_append hadded]
  have hnone : op.given WsMessage.isRelayed = none := hop
  have hsub := honce r
  rw [hnone] at hsub
  exact List.sublist_nil.mp hsub

theorem upload_handled (c : ConnId) (ip : String) (hrole : exists d, current = .client u d)
    (hframe : frame.relayed? = some m) (hchunk : m.isChunk ptyFileChunk id = true) :
    exists data : Slice, m = .binary data.bytes ∧
      Handler.processWsMessage env frame current c ip = Handler.handleFileChunk data id u c := by
  rcases hrole with ⟨d, rfl⟩
  rcases Handler.processWsMessage_frame hframe (frame_of_isChunk hchunk) env (.client u d) c ip
    with ⟨data, payload, rfl, hparse, hprocess⟩
  refine ⟨data, rfl, ?_⟩
  rw [hprocess, Handler.handleBinaryMessage, hparse]
  rfl

theorem handleFileChunk_asks (data : Slice) (id u : String) (c : ConnId) :
    exists next, Handler.handleFileChunk data id u c =
        .invoke (.broker (.recordUploadChunk u id c (data.drop binaryHeaderLen))) next ∧
      next .forward = Handler.act (.broker (.sendToDesktop u (.binary data.bytes))) ∧
      Handler.Passes none (next .overrun) ∧ Handler.Passes none (next .drop) :=
  ⟨_, rfl, rfl, Handler.passes_act rfl, Handler.passes_skip⟩

theorem upload_decided (b : Broker) (now : Instant) (u id : String) (c : ConnId)
    (payload : Slice) :
    (b.exec now (.recordUploadChunk u id c payload)).2 = .forward ∧
        UploadEntry.Takes c (b.upload? u id) ∨
      (b.exec now (.recordUploadChunk u id c payload)).2 ≠ .forward ∧
        ¬ UploadEntry.Takes c
          ((b.exec now (.recordUploadChunk u id c payload)).1.upload? u id) := by
  have hafter : (b.exec now (.recordUploadChunk u id c payload)).1.upload? u id =
      UploadEntry.afterChunk c payload now (UploadEntry.swept now (b.upload? u id)) :=
    (Broker.upload?_exec rfl id).trans (if_pos rfl)
  rw [Broker.exec_recordUploadChunk_reply, hafter]
  rcases UploadEntry.chunk_cases c payload now (UploadEntry.swept now (b.upload? u id)) with
    ⟨hforward, htakes⟩ | hclosed
  · exact Or.inl ⟨hforward, htakes.of_filter⟩
  · exact Or.inr hclosed

end

/-- The chunks of an upload on their way to a desktop.  A chunk that the upload does not take
cuts it. -/
def upload (env : Env) (u id : String) (c desktop : ConnId) : Stream env c desktop where
  direct := WsMessage.isChunk ptyFileChunk id
  role := fun current => exists d, current = .client u d
  ready := fun b => b.Holds u .desktop desktop ∧ b.alive desktop = true
  open_ := fun b => UploadEntry.Takes c (b.upload? u id)
  keeps := fun op => !op.startsUpload u id c
  deciding := fun m task => exists data : Slice, m = .binary data.bytes ∧
    task = Handler.handleFileChunk data id u c
  passing := fun m task => task = Handler.act (.broker (.sendToDesktop u m))
  handled := upload_handled c
  invokes := fun h => by
    rcases h with ⟨data, _, htask⟩ | htask
    · exact ⟨_, _, htask⟩
    · exact ⟨_, _, htask⟩
  decided := fun {b m op next} now hnodup _ _ htask => by
    rcases htask with ⟨data, rfl, htask⟩
    rcases handleFileChunk_asks data id u c with ⟨next', hasks, hforward, hoverrun, hdrop⟩
    rw [hasks] at htask
    cases htask
    rcases upload_decided b now u id c (data.drop binaryHeaderLen) with
      ⟨hreply, htakes⟩ | ⟨hreply, hclosed⟩
    · refine Or.inr (Or.inl ⟨htakes, rfl, ?_⟩)
      rw [hreply]
      exact hforward
    · refine Or.inr (Or.inr ⟨hclosed, enqueued_nothing now hnodup rfl, ?_⟩)
      generalize (b.exec now (.recordUploadChunk u id c (data.drop binaryHeaderLen))).2 = reply
        at hreply ⊢
      cases reply with
      | forward => exact absurd rfl hreply
      | overrun => exact hoverrun
      | drop => exact hdrop
  passed := fun _ _ hready hdirect htask => by
    cases htask
    exact sendToDesktop_enqueued hready (WsMessage.isRelayed_of_frame (frame_of_isChunk hdirect))
  sends := fun _ _ => rfl
  cut := fun hstep hlabel hopen => BrokerRun.takes_step hstep
    (fun now op hcall => Bool.not_eq_true' _ |>.mp (hlabel now op hcall)) hopen

section

variable {env : Env} {u id : String} {m : WsMessage} {frame : Inbound}
  {current : ConnectionRole}

theorem download_handled (c : ConnId) (ip : String) (hrole : current = .desktop u)
    (hframe : frame.relayed? = some m) (hchunk : m.isChunk ptyFileDownloadChunk id = true) :
    exists data : Slice, m = .binary data.bytes ∧
      Handler.processWsMessage env frame current c ip =
        Handler.handleFileDownloadChunk data id u := by
  subst hrole
  rcases Handler.processWsMessage_frame hframe (frame_of_isChunk hchunk) env (.desktop u) c ip
    with ⟨data, payload, rfl, hparse, hprocess⟩
  refine ⟨data, rfl, ?_⟩
  rw [hprocess, Handler.handleBinaryMessage, hparse]
  rfl

theorem handleFileDownloadChunk_asks (data : Slice) (id u : String) :
    exists next, Handler.handleFileDownloadChunk data id u =
        .invoke (.broker (.recordDownloadChunk u id (data.drop binaryHeaderLen))) next ∧
      (forall tx, next (.forward tx) =
        Handler.act (.broker (.send tx (.binary data.bytes)))) ∧
      (forall tx, Handler.Passes none (next (.overrun tx))) ∧ Handler.Passes none (next .drop) :=
  ⟨_, rfl, fun _ => rfl, fun _ => Handler.passes_act rfl, Handler.passes_skip⟩

theorem download_decided (b : Broker) (now : Instant) (u id : String) (payload : Slice) :
    (exists e, b.download? u id = some e ∧
        (b.exec now (.recordDownloadChunk u id payload)).2 = .forward e.owner) ∨
      (forall owner, (b.exec now (.recordDownloadChunk u id payload)).2 ≠ .forward owner) ∧
        (b.exec now (.recordDownloadChunk u id payload)).1.download? u id = none := by
  have hafter : (b.exec now (.recordDownloadChunk u id payload)).1.download? u id =
      DownloadEntry.afterChunk payload now (DownloadEntry.swept now (b.download? u id)) :=
    (Broker.download?_exec rfl id).trans (if_pos rfl)
  rw [Broker.exec_recordDownloadChunk_decision, hafter]
  rcases DownloadEntry.chunk_cases payload now (DownloadEntry.swept now (b.download? u id)) with
    ⟨e, he, hforward⟩ | hclosed
  · exact Or.inl ⟨e, (Option.filter_eq_some_iff.mp he).1, hforward⟩
  · exact Or.inr hclosed

end

/-- The chunks of a download on their way to the connection that requested it.  A chunk that
is for no download cuts it. -/
def download (env : Env) (u id : String) (c requester : ConnId) : Stream env c requester where
  direct := WsMessage.isChunk ptyFileDownloadChunk id
  role := fun current => current = .desktop u
  ready := fun b => b.alive requester = true ∧
    (b.download? u id).all (fun e => e.owner = requester) = true
  open_ := fun b => (b.download? u id).isSome = true
  keeps := fun op => !op.startsDownload u id
  deciding := fun m task => exists data : Slice, m = .binary data.bytes ∧
    task = Handler.handleFileDownloadChunk data id u
  passing := fun m task => task = Handler.act (.broker (.send requester m))
  handled := download_handled c
  invokes := fun h => by
    rcases h with ⟨data, _, htask⟩ | htask
    · exact ⟨_, _, htask⟩
    · exact ⟨_, _, htask⟩
  decided := fun {b m op next} now hnodup hready _ htask => by
    rcases htask with ⟨data, rfl, htask⟩
    rcases handleFileDownloadChunk_asks data id u with
      ⟨next', hasks, hforward, hoverrun, hdrop⟩
    rw [hasks] at htask
    cases htask
    rcases download_decided b now u id (data.drop binaryHeaderLen) with
      ⟨e, he, hreply⟩ | ⟨hreply, hclosed⟩
    · have howner : e.owner = requester := by
        have hall := hready.2
        rw [he] at hall
        exact of_decide_eq_true hall
      refine Or.inr (Or.inl ⟨?_, rfl, ?_⟩)
      · rw [he]
        rfl
      · rw [hreply, hforward, howner]
    · refine Or.inr (Or.inr ⟨?_, enqueued_nothing now hnodup rfl, ?_⟩)
      · rw [hclosed]
        exact Bool.false_ne_true
      · generalize (b.exec now (.recordDownloadChunk u id (data.drop binaryHeaderLen))).2 =
          reply at hreply ⊢
        cases reply with
        | forward tx => exact absurd rfl (hreply tx)
        | overrun tx => exact hoverrun tx
        | drop => exact hdrop
  passed := fun _ _ hready hdirect htask => by
    cases htask
    exact send_enqueued hready.1 (WsMessage.isRelayed_of_frame (frame_of_isChunk hdirect))
  sends := fun _ _ => rfl
  cut := fun hstep hlabel hopen => BrokerRun.isSome_step hstep
    (fun now op hcall => Bool.not_eq_true' _ |>.mp (hlabel now op hcall)) hopen

end Stream

namespace Relay

/-- A client of the account and its desktop are connected, and the client starts no upload
under the id in this step. -/
def SendsFile (u id : String) (c desktop : ConnId) (s : Relay) (l : RelayLabel) : Prop :=
  (exists d, s.role c = .client u d) ∧
    (s.broker.Holds u .desktop desktop ∧ s.broker.alive desktop = true) ∧
    (s.operation? l).all (fun op => !op.startsUpload u id c) = true

/-- The desktop of the account is connected, the download under the id is the requester's if
there is one, and none is started in this step. -/
def GetsFile (u id : String) (c requester : ConnId) (s : Relay) (l : RelayLabel) : Prop :=
  s.role c = .desktop u ∧
    (s.broker.alive requester = true ∧
      (s.broker.download? u id).all (fun e => e.owner = requester) = true) ∧
    (s.operation? l).all (fun op => !op.startsDownload u id) = true

/-- No upload has a hole: from one begin of an upload to the next the desktop is enqueued the
first chunks that are received of it, in order, and all of them if the upload still takes
chunks at the end. -/
theorem upload_unbroken {env : Env} {auth : AuthManager} {database : Database} {u id : String}
    {c desktop : ConnId} {before labels : List RelayLabel} {start s : Relay}
    (hrun : Runs env auth database before start) (hidle : start.activity c = .idle)
    (hfollow : follow (step env) start labels = some s)
    (hholds : Admits (step env) (SendsFile u id c desktop) start labels)
    (hdone : s.activity c = .idle) :
    exists got, (relayedFrom c desktop s.log).filter (WsMessage.isChunk ptyFileChunk id) =
        (relayedFrom c desktop start.log).filter (WsMessage.isChunk ptyFileChunk id) ++ got ∧
      got <+: (receivedOn c labels).filter (WsMessage.isChunk ptyFileChunk id) ∧
      (UploadEntry.Takes c (s.broker.upload? u id) ->
        got = (receivedOn c labels).filter (WsMessage.isChunk ptyFileChunk id)) :=
  carried_of_runs (Stream.upload env u id c desktop) hrun hidle hfollow hholds hdone

/-- No download has a hole: from one request for a download to the next, its requester is
enqueued the first chunks that are received of it, in order, and all of them if the download
is still there at the end. -/
theorem download_unbroken {env : Env} {auth : AuthManager} {database : Database}
    {u id : String} {c requester : ConnId} {before labels : List RelayLabel} {start s : Relay}
    (hrun : Runs env auth database before start) (hidle : start.activity c = .idle)
    (hfollow : follow (step env) start labels = some s)
    (hholds : Admits (step env) (GetsFile u id c requester) start labels)
    (hdone : s.activity c = .idle) :
    exists got,
      (relayedFrom c requester s.log).filter (WsMessage.isChunk ptyFileDownloadChunk id) =
        (relayedFrom c requester start.log).filter
          (WsMessage.isChunk ptyFileDownloadChunk id) ++ got ∧
      got <+: (receivedOn c labels).filter (WsMessage.isChunk ptyFileDownloadChunk id) ∧
      ((s.broker.download? u id).isSome = true ->
        got = (receivedOn c labels).filter (WsMessage.isChunk ptyFileDownloadChunk id)) :=
  carried_of_runs (Stream.download env u id c requester) hrun hidle hfollow hholds hdone

instance decidableSendsFile (u id : String) (c desktop : ConnId) (s : Relay)
    (l : RelayLabel) : Decidable (SendsFile u id c desktop s l) :=
  inferInstanceAs (Decidable (_ ∧ _ ∧ _))

instance decidableGetsFile (u id : String) (c requester : ConnId) (s : Relay)
    (l : RelayLabel) : Decidable (GetsFile u id c requester s l) :=
  inferInstanceAs (Decidable (_ ∧ _ ∧ _))

def phoneRequests : List RelayLabel :=
  Deployment.turn 2
    (Deployment.message (.fileDownloadRequest notes "00000000-0000-4000-8000-00000000000b"
      "/tmp/notes.txt")) 2

def desktopSends : List RelayLabel :=
  Deployment.turn 1 (.binary (buildBinaryFrame ptyFileDownloadChunk notes [1, 2, 3])) 2

theorem upload_unbroken_example : exists start s got,
    Runs Deployment.env Deployment.auth Deployment.database (deskAndPhone ++ phoneBegins)
        start ∧
      follow (step Deployment.env) start phoneChunk = some s ∧
      (relayedFrom 2 1 s.log).filter (WsMessage.isChunk ptyFileChunk notes) =
        (relayedFrom 2 1 start.log).filter (WsMessage.isChunk ptyFileChunk notes) ++ got ∧
      got <+: (receivedOn 2 phoneChunk).filter (WsMessage.isChunk ptyFileChunk notes) := by
  have hend : holdsAlong (SendsFile "user" notes 2 1) 2 (deskAndPhone ++ phoneBegins)
      phoneChunk = some (true, true, some true) := by decide +kernel
  rcases holds_along hend with ⟨start, s, hrun, hidle, hfollow, hholds, hdone⟩
  rcases upload_unbroken hrun hidle hfollow hholds hdone with ⟨got, hgot, hfirst, _⟩
  exact ⟨start, s, got, hrun, hfollow, hgot, hfirst⟩

theorem download_unbroken_example : exists start s got,
    Runs Deployment.env Deployment.auth Deployment.database (deskAndPhone ++ phoneRequests)
        start ∧
      follow (step Deployment.env) start desktopSends = some s ∧
      (relayedFrom 1 2 s.log).filter (WsMessage.isChunk ptyFileDownloadChunk notes) =
        (relayedFrom 1 2 start.log).filter (WsMessage.isChunk ptyFileDownloadChunk notes) ++
          got ∧
      got <+: (receivedOn 1 desktopSends).filter
        (WsMessage.isChunk ptyFileDownloadChunk notes) := by
  have hend : holdsAlong (GetsFile "user" notes 1 2) 1 (deskAndPhone ++ phoneRequests)
      desktopSends = some (true, true, some true) := by decide +kernel
  rcases holds_along hend with ⟨start, s, hrun, hidle, hfollow, hholds, hdone⟩
  rcases download_unbroken hrun hidle hfollow hholds hdone with ⟨got, hgot, hfirst, _⟩
  exact ⟨start, s, got, hrun, hfollow, hgot, hfirst⟩

end Relay

end CommandRelay
