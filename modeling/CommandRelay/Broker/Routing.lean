import CommandRelay.Broker.Places

/-!
# Where messages go

An operation enqueues messages only to connections it is given or that the
account it names refers to.
-/

namespace CommandRelay

open Foundation

namespace Broker

def Enqueues (reach : ConnId -> Prop) (b b' : Broker) : Prop :=
  exists new, b'.delivered = new ++ b.delivered ∧ forall m, m ∈ new -> reach m.1

section

variable {reach : ConnId -> Prop} {b b' b'' : Broker}

theorem enqueues_of_eq (h : b'.delivered = b.delivered) : Enqueues reach b b' :=
  ⟨[], h, by simp⟩

theorem Enqueues.trans (h : Enqueues reach b b') (h' : Enqueues reach b' b'') :
    Enqueues reach b b'' := by
  rcases h with ⟨new, hnew, hreach⟩
  rcases h' with ⟨new', hnew', hreach'⟩
  refine ⟨new' ++ new, by rw [hnew', hnew, List.append_assoc], ?_⟩
  intro m hm
  rcases List.mem_append.mp hm with hm | hm
  · exact hreach' m hm
  · exact hreach m hm

theorem Enqueues.mono {reach' : ConnId -> Prop} (h : Enqueues reach b b')
    (himp : forall c, reach c -> reach' c) : Enqueues reach' b b' := by
  rcases h with ⟨new, hnew, hreach⟩
  exact ⟨new, hnew, fun m hm => himp m.1 (hreach m hm)⟩

end

section

variable {reach : ConnId -> Prop} (b : Broker) {tx : ConnId} {txs : List ConnId}
  (msg : WsMessage)

theorem enqueues_send (h : reach tx) : Enqueues reach b (b.send tx msg).1 := by
  unfold send
  by_cases halive : ((b.channels tx).send msg).2 = true
  · simp only [if_pos halive]
    refine ⟨[(tx, msg)], rfl, ?_⟩
    intro m hm
    rw [List.mem_singleton] at hm
    rw [hm]
    exact h
  · simp only [if_neg halive]
    exact enqueues_of_eq rfl

theorem enqueues_sendAll (h : forall tx, tx ∈ txs -> reach tx) :
    Enqueues reach b (b.sendAll txs msg) := by
  unfold sendAll
  induction txs generalizing b with
  | nil => exact enqueues_of_eq rfl
  | cons tx rest ih =>
      have hfirst := enqueues_send b msg (h tx List.mem_cons_self)
      exact hfirst.trans (ih _ fun tx' htx' => h tx' (List.mem_cons_of_mem tx htx'))

theorem enqueues_sendEach (h : forall tx, tx ∈ txs -> reach tx) :
    Enqueues reach b (b.sendEach txs msg).1 := by
  unfold sendEach
  suffices hacc : forall acc : Broker × Bool, Enqueues reach acc.1
      (txs.foldl (fun acc tx =>
        ((acc.1.send tx msg).1, acc.2 || (acc.1.send tx msg).2)) acc).1 from hacc (b, false)
  intro acc
  induction txs generalizing acc with
  | nil => exact enqueues_of_eq rfl
  | cons tx rest ih =>
      have hfirst := enqueues_send acc.1 msg (h tx List.mem_cons_self)
      exact hfirst.trans
        (ih (fun tx' htx' => h tx' (List.mem_cons_of_mem tx htx'))
          ((acc.1.send tx msg).1, acc.2 || (acc.1.send tx msg).2))

theorem enqueues_outputTo (h : reach tx) : Enqueues reach b (b.outputTo tx msg) := by
  unfold outputTo sendOutput
  by_cases hdirty : (b.channels tx).dirty = true
  · simp only [if_pos hdirty]
    exact enqueues_of_eq rfl
  · by_cases hover : (b.channels tx).overBudget msg = true
    · simp only [if_neg hdirty, if_pos hover]
      exact enqueues_of_eq rfl
    · simp only [if_neg hdirty, if_neg hover]
      exact enqueues_send b msg h

theorem enqueues_broadcastOutput (h : forall tx, tx ∈ txs -> reach tx) :
    Enqueues reach b (b.broadcastOutput txs msg) := by
  unfold broadcastOutput
  induction txs generalizing b with
  | nil => exact enqueues_of_eq rfl
  | cons tx rest ih =>
      have hfirst := enqueues_outputTo b msg (h tx List.mem_cons_self)
      exact hfirst.trans (ih _ fun tx' htx' => h tx' (List.mem_cons_of_mem tx htx'))

theorem enqueues_evictDesktop {st : AccountState}
    (h : forall tx, st.desktopTx = some tx -> reach tx) :
    Enqueues reach b (b.evictDesktop st) := by
  unfold evictDesktop
  cases hslot : st.desktopTx with
  | none => exact enqueues_of_eq rfl
  | some old => exact enqueues_send b .close (h old hslot)

theorem enqueues_replayDesktopStatus {st : AccountState} (h : reach tx) :
    Enqueues reach b (b.replayDesktopStatus st tx) := by
  unfold replayDesktopStatus
  cases st.desktopTx with
  | none => exact enqueues_of_eq rfl
  | some _ => exact enqueues_send b _ h

theorem enqueues_withAccount (u : String) (absent : α)
    (f : AccountState -> AccountState × α) :
    Enqueues reach b (b.withAccount u absent f).1 := by
  unfold withAccount
  cases b.account u with
  | none => exact enqueues_of_eq rfl
  | some st => exact enqueues_of_eq rfl

end

end Broker

/-- The connections an operation may enqueue a message to. -/
def BrokerCall.Reaches (b : Broker) : BrokerCall -> ConnId -> Prop
  | send tx _, c => c = tx
  | registerDesktop u _ _, c => b.Holds u .desktop c ∨ b.Holds u .clients c
  | unregisterDesktop u _, c => b.Holds u .clients c
  | registerClient _ tx _, c => c = tx
  | sendToDesktop u _, c => b.Holds u .desktop c
  | resolveSupervisor u _ _, c => b.Holds u .supervisor c
  | broadcastToClients u _, c => b.Holds u .clients c
  | sendToClient u _ _, c => b.Holds u .clients c
  | _, _ => False

namespace Broker

theorem enqueues_exec (b : Broker) (now : Instant) (op : BrokerCall) :
    Enqueues (op.Reaches b) b (b.exec now op).1 := by
  cases op
  case send tx msg => exact enqueues_send b msg rfl
  case registerDesktop u tx capabilities =>
      have hevicted : Enqueues ((BrokerCall.registerDesktop u tx capabilities).Reaches b) b
          (b.evictDesktop (b.entry u)) :=
        enqueues_evictDesktop b fun old hold => Or.inl (holds_entry hold)
      refine hevicted.trans (enqueues_sendAll _ _ ?_)
      intro client hclient
      exact Or.inr (holds_entry hclient)
  case unregisterDesktop u conn =>
      show Enqueues _ b (b.unregisterDesktop u conn)
      unfold unregisterDesktop
      cases hst : b.account u with
      | none => exact enqueues_of_eq rfl
      | some st =>
          by_cases hstale : (st.dropUploadsOf conn).heldByOther conn = true
          · simp only [if_pos hstale]
            exact enqueues_of_eq rfl
          · simp only [if_neg hstale]
            exact enqueues_sendAll (b.put u _) _ fun client hclient => ⟨st, hst, hclient⟩
  case registerClient u tx info =>
      show Enqueues _ b (b.registerClient u tx info).1
      unfold registerClient
      by_cases hmem : tx ∈ (b.entry u).clientTxs
      · simp only [if_pos hmem]
        exact enqueues_replayDesktopStatus (b.put u _) rfl
      · by_cases hfull : maxClients ≤ (b.entry u).clients.length
        · simp only [if_neg hmem, if_pos hfull]
          exact enqueues_of_eq rfl
        · simp only [if_neg hmem, if_neg hfull]
          exact enqueues_replayDesktopStatus (b.put u _) rfl
  case noteSessionListRequest u d conn =>
      show Enqueues _ b (b.noteSessionListRequest u d conn)
      unfold noteSessionListRequest
      cases b.account u with
      | none => exact enqueues_of_eq rfl
      | some st => exact enqueues_of_eq rfl
  case sendToDesktop u msg =>
      show Enqueues _ b (b.sendToDesktop u msg).1
      unfold sendToDesktop
      cases hslot : (b.account u).bind AccountState.desktopTx with
      | none => exact enqueues_of_eq rfl
      | some tx =>
          rcases Option.bind_eq_some_iff.mp hslot with ⟨st, hst, htx⟩
          exact enqueues_send b msg ⟨st, hst, htx⟩
  case broadcastToClients u msg =>
      show Enqueues _ b (b.broadcastToClients u msg)
      unfold broadcastToClients
      cases hst : b.account u with
      | none => exact enqueues_of_eq rfl
      | some st =>
          by_cases hpty : msg.isPtyOutput = true
          · simp only [if_pos hpty]
            exact enqueues_broadcastOutput b msg fun client hclient => ⟨st, hst, hclient⟩
          · simp only [if_neg hpty]
            exact enqueues_sendAll b msg fun client hclient => ⟨st, hst, hclient⟩
  case sendToClient u d msg =>
      show Enqueues _ b (b.sendToClient u d msg).1
      unfold sendToClient
      cases hst : b.account u with
      | none => exact enqueues_of_eq rfl
      | some st =>
          refine enqueues_sendEach b msg fun client hclient => ⟨st, hst, ?_⟩
          rcases List.mem_map.mp hclient with ⟨entry, hentry, htx⟩
          exact List.mem_map.mpr ⟨entry, (List.mem_filter.mp hentry).1, htx⟩
  case resolveSupervisor u id reply =>
      show Enqueues _ b (b.resolveSupervisor u id reply now).1
      unfold resolveSupervisor
      cases hst : b.account u with
      | none => exact enqueues_of_eq rfl
      | some st =>
          cases hentry : (st.gcSupervisor now).supervisorPending.lookup id with
          | none =>
              simp only [hentry]
              exact enqueues_of_eq rfl
          | some entry =>
              have howner : st.Holds .supervisor entry.owner :=
                Table.Has.of_retain ⟨id, entry, hentry, rfl⟩
              have hsent : Enqueues ((BrokerCall.resolveSupervisor u id reply).Reaches b) b
                  (b.send entry.owner (.text reply)).1 :=
                enqueues_send b _ ⟨st, hst, howner⟩
              by_cases hok : (b.send entry.owner (.text reply)).2 = true
              · simp only [hentry, if_pos hok]
                exact hsent.trans (enqueues_of_eq rfl)
              · simp only [hentry, if_neg hok]
                exact hsent.trans (enqueues_of_eq rfl)
  all_goals first
    | exact enqueues_of_eq rfl
    | exact enqueues_withAccount b _ _ _

/-!
## Resync tasks
-/

section

variable (b : Broker)

theorem nudges_outputTo (tx : ConnId) (msg : WsMessage) :
    (b.outputTo tx msg).nudges = b.nudges ∨ (b.outputTo tx msg).nudges = b.nudges ++ [tx] := by
  unfold outputTo sendOutput
  by_cases hdirty : (b.channels tx).dirty = true
  · exact .inl (by simp [hdirty])
  · by_cases hover : (b.channels tx).overBudget msg = true
    · exact .inr (by simp [hdirty, hover, setChannel])
    · exact .inl (by simp [hdirty, hover, nudges_send])

theorem nudges_broadcastOutput (txs : List ConnId) (msg : WsMessage) :
    exists new, (b.broadcastOutput txs msg).nudges = b.nudges ++ new ∧
      forall tx, tx ∈ new -> tx ∈ txs := by
  unfold broadcastOutput
  induction txs generalizing b with
  | nil => exact ⟨[], (List.append_nil _).symm, fun tx h => h⟩
  | cons tx rest ih =>
      rcases ih (b.outputTo tx msg) with ⟨new, hnew, hmem⟩
      rcases nudges_outputTo b tx msg with hsame | hone
      · refine ⟨new, by rw [List.foldl_cons, hnew, hsame], fun tx' h => ?_⟩
        exact List.mem_cons_of_mem tx (hmem tx' h)
      · refine ⟨tx :: new, by rw [List.foldl_cons, hnew, hone, List.append_assoc]; rfl, ?_⟩
        intro tx' h
        rcases List.mem_cons.mp h with rfl | hrest
        · exact List.mem_cons_self
        · exact List.mem_cons_of_mem tx (hmem tx' hrest)

theorem nudges_relation : SendRelation fun b b' => b'.nudges = b.nudges where
  refl := fun _ => rfl
  trans := fun h h' => h'.trans h
  put := fun _ _ _ => rfl
  send := nudges_send

theorem nudges_exec (now : Instant) (op : BrokerCall) :
    exists new, (b.exec now op).1.nudges = b.nudges ++ new ∧
      forall tx, tx ∈ new -> exists u msg, op = .broadcastToClients u msg ∧
        b.Holds u .clients tx := by
  have hsame : forall {b' : Broker}, b'.nudges = b.nudges -> exists new,
      b'.nudges = b.nudges ++ new ∧ forall tx, tx ∈ new -> exists u msg,
        op = .broadcastToClients u msg ∧ b.Holds u .clients tx := fun h =>
    ⟨[], by rw [h, List.append_nil], fun tx hmem => by cases hmem⟩
  cases hop : op.regulates with
  | false => exact hsame (nudges_relation.exec b now hop)
  | true =>
      cases op <;> simp [BrokerCall.regulates] at hop
      case noteSessionListRequest u deviceId conn =>
          refine hsame ?_
          show (b.noteSessionListRequest u deviceId conn).nudges = b.nudges
          unfold noteSessionListRequest
          cases b.account u <;> rfl
      case broadcastToClients u msg =>
          show exists new, (b.broadcastToClients u msg).nudges = _ ∧ _
          unfold broadcastToClients
          cases hst : b.account u with
          | none => exact hsame rfl
          | some st =>
              simp only [if_pos hop]
              rcases nudges_broadcastOutput b st.clientTxs msg with ⟨new, hnew, hmem⟩
              exact ⟨new, hnew, fun tx h => ⟨u, msg, rfl, st, hst, hmem tx h⟩⟩

theorem enqueues_runNudge (tx : ConnId) (now : Instant) :
    Enqueues (fun c => c = tx) b (b.runNudge tx now) := by
  unfold runNudge
  dsimp only
  have hsent : Enqueues (fun c => c = tx)
      (({ b with nudges := b.nudges.erase tx } : Broker).setChannel
      tx { b.channels tx with lastResync := some now }) _ :=
    enqueues_send _ (.text .resyncRequired) rfl
  split
  · exact hsent
  · exact enqueues_of_eq rfl

end

end Broker

end CommandRelay
