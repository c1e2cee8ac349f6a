import CommandRelay.Broker.Membership
import CommandRelay.Broker.Routing

/-!
# Messages that are passed on

Terminal data, uploads and requests are passed on from one peer to another: the relay
has no such message of its own.  What an operation of the broker enqueues of a kind that
the broker does not make is the message it was given, at most once for each receiver.
-/

namespace CommandRelay

open Foundation

def ControlMessage.isRelayed : ControlMessage -> Bool
  | .sessionSpawnRequest .. | .sessionListRequest | .sessionList .. | .sessionCreated .. => true
  | .sessionRenamed .. | .sessionClosed _ | .sessionCloseRequest _ => true
  | .sessionNotification .. | .contextUpdate .. => true
  | .ptyResize .. | .ptyResized .. => true
  | .fileUploadBegin .. | .fileUploadEnd .. => true
  | .fileDownloadRequest .. | .fileDownloadBegin .. => true
  | .supervisorQuery .. => true
  | _ => false

namespace WsMessage

def isRelayed : WsMessage -> Bool
  | .text msg => msg.isRelayed
  | .binary _ => true
  | .close => false

def ofKind (kind : WsMessage -> Bool) (msg : WsMessage) : Option WsMessage :=
  if kind msg then some msg else none

def relayed? (msg : WsMessage) : Option WsMessage :=
  msg.ofKind isRelayed

/-- The broker, its timers and a new socket send no message of the kind of their own. -/
structure Foreign (kind : WsMessage -> Bool) : Prop where
  close : kind .close = false
  status : forall online capabilities, kind (.text (.desktopStatus online capabilities)) = false
  hello : forall version client server, kind (.text (.hello version client server)) = false
  ping : kind (.text .ping) = false
  resync : kind (.text .resyncRequired) = false
  shutdown : kind (.text .relayShuttingDown) = false

theorem foreign_isRelayed : Foreign isRelayed where
  close := rfl
  status := fun _ _ => rfl
  hello := fun _ _ _ => rfl
  ping := rfl
  resync := rfl
  shutdown := rfl

theorem ofKind_eq_none {kind : WsMessage -> Bool} {msg : WsMessage} :
    msg.ofKind kind = none <-> kind msg = false := by
  unfold ofKind
  cases kind msg <;> simp

end WsMessage

def BrokerCall.given (kind : WsMessage -> Bool) : BrokerCall -> Option WsMessage
  | .send _ msg | .sendToDesktop _ msg | .broadcastToClients _ msg => msg.ofKind kind
  | .sendToClient _ _ msg => msg.ofKind kind
  | .resolveSupervisor _ _ reply => (WsMessage.text reply).ofKind kind
  | _ => none

def BrokerCall.relayed? (op : BrokerCall) : Option WsMessage :=
  op.given WsMessage.isRelayed

def sentTo (kind : WsMessage -> Bool) (r : ConnId) (enqueued : List (ConnId × WsMessage)) :
    List WsMessage :=
  ((enqueued.filter fun m => m.1 = r).map Prod.snd).filterMap (WsMessage.ofKind kind)

def relayedTo (r : ConnId) (enqueued : List (ConnId × WsMessage)) : List WsMessage :=
  sentTo WsMessage.isRelayed r enqueued

@[simp] theorem sentTo_nil (kind : WsMessage -> Bool) (r : ConnId) : sentTo kind r [] = [] := rfl

theorem sentTo_append (kind : WsMessage -> Bool) (r : ConnId)
    (new old : List (ConnId × WsMessage)) :
    sentTo kind r (new ++ old) = sentTo kind r new ++ sentTo kind r old := by
  unfold sentTo
  rw [List.filter_append, List.map_append, List.filterMap_append]

theorem sentTo_single (kind : WsMessage -> Bool) (r tx : ConnId) (msg : WsMessage) :
    sentTo kind r [(tx, msg)] = if tx = r then (msg.ofKind kind).toList else [] := by
  by_cases htx : tx = r
  · cases hmsg : msg.ofKind kind <;> simp [sentTo, htx, hmsg]
  · simp [sentTo, htx]

theorem relayedTo_append (r : ConnId) (new old : List (ConnId × WsMessage)) :
    relayedTo r (new ++ old) = relayedTo r new ++ relayedTo r old :=
  sentTo_append _ r new old

theorem mem_sentTo {kind : WsMessage -> Bool} {r : ConnId} {msg : WsMessage}
    {enqueued : List (ConnId × WsMessage)} :
    msg ∈ sentTo kind r enqueued <-> (r, msg) ∈ enqueued ∧ kind msg = true := by
  unfold sentTo WsMessage.ofKind
  simp only [List.mem_filterMap, List.mem_map, List.mem_filter, decide_eq_true_eq]
  constructor
  · rintro ⟨found, ⟨⟨tx, sent⟩, ⟨hmem, htx⟩, hsent⟩, hkind⟩
    split at hkind
    · rename_i hof
      cases hkind
      cases htx
      cases hsent
      exact ⟨hmem, hof⟩
    · cases hkind
  · rintro ⟨hmem, hkind⟩
    exact ⟨msg, ⟨(r, msg), ⟨hmem, rfl⟩, rfl⟩, if_pos hkind⟩

namespace Broker

/-- What happens in between enqueues nothing of the kind but a given message, and that to
each receiver at most once. -/
def PassesOn (kind : WsMessage -> Bool) (m : Option WsMessage) (b b' : Broker) : Prop :=
  exists new, b'.delivered = new ++ b.delivered ∧
    forall r, List.Sublist (sentTo kind r new) m.toList

section

variable {kind : WsMessage -> Bool} {b b' b'' : Broker} {m : Option WsMessage}
  {msg : WsMessage} {tx : ConnId} {txs : List ConnId}

theorem passesOn_of_eq (h : b'.delivered = b.delivered) : PassesOn kind m b b' :=
  ⟨[], h, fun _ => List.nil_sublist _⟩

theorem PassesOn.trans (h : PassesOn kind none b b') (h' : PassesOn kind m b' b'') :
    PassesOn kind m b b'' := by
  rcases h with ⟨new, hnew, hnone⟩
  rcases h' with ⟨new', hnew', hsome⟩
  refine ⟨new' ++ new, by rw [hnew', hnew, List.append_assoc], fun r => ?_⟩
  have hnothing : sentTo kind r new = [] := List.sublist_nil.mp (hnone r)
  rw [sentTo_append, hnothing, List.append_nil]
  exact hsome r

theorem PassesOn.old (h : PassesOn kind none b b') (hmem : (tx, msg) ∈ b'.delivered)
    (hmsg : kind msg = true) : (tx, msg) ∈ b.delivered := by
  rcases h with ⟨new, hnew, hnone⟩
  rw [hnew] at hmem
  rcases List.mem_append.mp hmem with hin | hold
  · have hsent := mem_sentTo.mpr ⟨hin, hmsg⟩
    rw [List.sublist_nil.mp (hnone tx)] at hsent
    cases hsent
  · exact hold

theorem passesOn_send (b : Broker) (tx : ConnId) (msg : WsMessage) :
    PassesOn kind (msg.ofKind kind) b (b.send tx msg).1 := by
  rw [PassesOn, delivered_send]
  cases halive : b.alive tx with
  | false => exact ⟨[], rfl, fun _ => List.nil_sublist _⟩
  | true =>
      refine ⟨[(tx, msg)], rfl, fun r => ?_⟩
      rw [sentTo_single]
      by_cases htx : tx = r
      · rw [if_pos htx]
      · rw [if_neg htx]
        exact List.nil_sublist _

theorem passesOn_send_none (b : Broker) (tx : ConnId) (hmsg : kind msg = false) :
    PassesOn kind none b (b.send tx msg).1 := by
  rw [← WsMessage.ofKind_eq_none.mpr hmsg]
  exact passesOn_send b tx msg

theorem passesOn_sendAll_none (b : Broker) (txs : List ConnId) (hmsg : kind msg = false) :
    PassesOn kind none b (b.sendAll txs msg) := by
  unfold sendAll
  induction txs generalizing b with
  | nil => exact passesOn_of_eq rfl
  | cons tx rest ih => exact (passesOn_send_none b tx hmsg).trans (ih _)

theorem passesOn_foldl {f : Broker -> ConnId -> Broker}
    (hf : forall b tx, (f b tx).delivered = b.delivered ∨
      (f b tx).delivered = (tx, msg) :: b.delivered)
    (hnodup : txs.Nodup) (b : Broker) : PassesOn kind (msg.ofKind kind) b (txs.foldl f b) := by
  suffices hfold : exists new, (txs.foldl f b).delivered = new ++ b.delivered ∧
      (forall m, m ∈ new -> m.1 ∈ txs) ∧
      forall r, List.Sublist (sentTo kind r new) (msg.ofKind kind).toList by
    rcases hfold with ⟨new, hnew, _, honce⟩
    exact ⟨new, hnew, honce⟩
  induction txs generalizing b with
  | nil => exact ⟨[], rfl, by simp, fun _ => List.nil_sublist _⟩
  | cons tx rest ih =>
      rcases List.nodup_cons.mp hnodup with ⟨hfresh, hrest⟩
      rcases ih hrest (f b tx) with ⟨new, hnew, hmem, honce⟩
      rcases hf b tx with hsame | hsent
      · refine ⟨new, by rw [List.foldl_cons, hnew, hsame], ?_, honce⟩
        exact fun m hm => List.mem_cons_of_mem tx (hmem m hm)
      · refine ⟨new ++ [(tx, msg)], ?_, ?_, fun r => ?_⟩
        · rw [List.foldl_cons, hnew, hsent, List.append_assoc]
          rfl
        · intro m hm
          rcases List.mem_append.mp hm with hm | hm
          · exact List.mem_cons_of_mem tx (hmem m hm)
          · rw [List.mem_singleton.mp hm]
            exact List.mem_cons_self
        · rw [sentTo_append, sentTo_single]
          by_cases htx : tx = r
          · have hnone : new.filter (fun m => m.1 = r) = [] := by
              apply List.filter_eq_nil_iff.mpr
              intro m hm hr
              exact hfresh (htx ▸ of_decide_eq_true hr ▸ hmem m hm)
            rw [if_pos htx, sentTo, hnone]
            exact List.Sublist.refl _
          · rw [if_neg htx, List.append_nil]
            exact honce r

theorem delivered_send_cases (b : Broker) (tx : ConnId) (msg : WsMessage) :
    (b.send tx msg).1.delivered = b.delivered ∨
      (b.send tx msg).1.delivered = (tx, msg) :: b.delivered := by
  rw [delivered_send]
  cases b.alive tx with
  | false => exact Or.inl rfl
  | true => exact Or.inr rfl

theorem delivered_outputTo_cases (b : Broker) (tx : ConnId) (msg : WsMessage) :
    (b.outputTo tx msg).delivered = b.delivered ∨
      (b.outputTo tx msg).delivered = (tx, msg) :: b.delivered := by
  unfold outputTo sendOutput
  by_cases hdirty : (b.channels tx).dirty = true
  · simp only [if_pos hdirty]
    exact Or.inl rfl
  · by_cases hover : (b.channels tx).overBudget msg = true
    · simp only [if_neg hdirty, if_pos hover]
      exact Or.inl rfl
    · simp only [if_neg hdirty, if_neg hover]
      exact delivered_send_cases b tx msg

theorem sendEach_fst (b : Broker) (txs : List ConnId) (msg : WsMessage) :
    (b.sendEach txs msg).1 = b.sendAll txs msg := by
  unfold sendEach sendAll
  suffices hacc : forall acc : Broker × Bool,
      (txs.foldl (fun acc tx => ((acc.1.send tx msg).1, acc.2 || (acc.1.send tx msg).2)) acc).1 =
        txs.foldl (fun b tx => (b.send tx msg).1) acc.1 from hacc (b, false)
  induction txs with
  | nil => exact fun _ => rfl
  | cons tx rest ih => exact fun acc => ih _

theorem passesOn_withAccount (u : String) (absent : α) (f : AccountState -> AccountState × α) :
    PassesOn kind m b (b.withAccount u absent f).1 := by
  unfold withAccount
  cases b.account u with
  | none => exact passesOn_of_eq rfl
  | some st => exact passesOn_of_eq rfl

theorem passesOn_evictDesktop (hkind : WsMessage.Foreign kind) (b : Broker) (st : AccountState) :
    PassesOn kind none b (b.evictDesktop st) := by
  unfold evictDesktop
  cases st.desktopTx with
  | none => exact passesOn_of_eq rfl
  | some old => exact passesOn_send_none b old hkind.close

theorem passesOn_replayDesktopStatus (hkind : WsMessage.Foreign kind) (b : Broker)
    (st : AccountState) (tx : ConnId) : PassesOn kind none b (b.replayDesktopStatus st tx) := by
  unfold replayDesktopStatus
  cases st.desktopTx with
  | none => exact passesOn_of_eq rfl
  | some _ => exact passesOn_send_none b tx (hkind.status _ _)

theorem passesOn_exec (hkind : WsMessage.Foreign kind)
    (hnodup : forall u, ((b.clients u).map ClientConnection.tx).Nodup) (now : Instant)
    (op : BrokerCall) : PassesOn kind (op.given kind) b (b.exec now op).1 := by
  have hclients : forall {u st}, b.account u = some st -> st.clientTxs.Nodup := by
    intro u st hst
    have h := hnodup u
    unfold clients entry at h
    rw [hst] at h
    exact h
  cases op
  case send tx msg => exact passesOn_send b tx msg
  case registerDesktop u tx capabilities =>
      exact (passesOn_evictDesktop hkind b (b.entry u)).trans
        (passesOn_sendAll_none (put _ u _) _ (hkind.status _ _))
  case unregisterDesktop u conn =>
      show PassesOn kind _ b (b.unregisterDesktop u conn)
      unfold unregisterDesktop
      cases hst : b.account u with
      | none => exact passesOn_of_eq rfl
      | some st =>
          by_cases hstale : (st.dropUploadsOf conn).heldByOther conn = true
          · simp only [if_pos hstale]
            exact passesOn_of_eq rfl
          · simp only [if_neg hstale]
            exact passesOn_sendAll_none (b.put u _) _ (hkind.status _ _)
  case registerClient u tx info =>
      show PassesOn kind _ b (b.registerClient u tx info).1
      unfold registerClient
      by_cases hmem : tx ∈ (b.entry u).clientTxs
      · simp only [if_pos hmem]
        exact passesOn_replayDesktopStatus hkind (b.put u _) _ tx
      · by_cases hfull : maxClients ≤ (b.entry u).clients.length
        · simp only [if_neg hmem, if_pos hfull]
          exact passesOn_of_eq rfl
        · simp only [if_neg hmem, if_neg hfull]
          exact passesOn_replayDesktopStatus hkind (b.put u _) _ tx
  case noteSessionListRequest u d conn =>
      show PassesOn kind _ b (b.noteSessionListRequest u d conn)
      unfold noteSessionListRequest
      cases b.account u with
      | none => exact passesOn_of_eq rfl
      | some st => exact passesOn_of_eq rfl
  case sendToDesktop u msg =>
      show PassesOn kind (msg.ofKind kind) b (b.sendToDesktop u msg).1
      unfold sendToDesktop
      cases (b.account u).bind AccountState.desktopTx with
      | none => exact passesOn_of_eq rfl
      | some tx => exact passesOn_send b tx msg
  case broadcastToClients u msg =>
      show PassesOn kind (msg.ofKind kind) b (b.broadcastToClients u msg)
      unfold broadcastToClients
      cases hst : b.account u with
      | none => exact passesOn_of_eq rfl
      | some st =>
          by_cases hpty : msg.isPtyOutput = true
          · simp only [if_pos hpty]
            exact passesOn_foldl (fun b tx => delivered_outputTo_cases b tx msg) (hclients hst) b
          · simp only [if_neg hpty]
            exact passesOn_foldl (fun b tx => delivered_send_cases b tx msg) (hclients hst) b
  case sendToClient u d msg =>
      show PassesOn kind (msg.ofKind kind) b (b.sendToClient u d msg).1
      unfold sendToClient
      cases hst : b.account u with
      | none => exact passesOn_of_eq rfl
      | some st =>
          have hdevice : ((st.clients.filter fun c => c.info.deviceId = d).map
              ClientConnection.tx).Nodup :=
            (hclients hst).sublist (List.filter_sublist.map _)
          simp only [sendEach_fst]
          exact passesOn_foldl (fun b tx => delivered_send_cases b tx msg) hdevice b
  case resolveSupervisor u id reply =>
      show PassesOn kind ((WsMessage.text reply).ofKind kind) b
        (b.resolveSupervisor u id reply now).1
      unfold resolveSupervisor
      cases hst : b.account u with
      | none => exact passesOn_of_eq rfl
      | some st =>
          cases hentry : (st.gcSupervisor now).supervisorPending.lookup id with
          | none =>
              simp only [hentry]
              exact passesOn_of_eq rfl
          | some entry =>
              by_cases hok : (b.send entry.owner (.text reply)).2 = true
              · simp only [hentry, if_pos hok]
                exact passesOn_send b entry.owner (.text reply)
              · simp only [hentry, if_neg hok]
                exact passesOn_send b entry.owner (.text reply)
  all_goals first
    | exact passesOn_of_eq rfl
    | exact passesOn_withAccount _ _ _

end

end Broker

end CommandRelay
