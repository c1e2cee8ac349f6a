import CommandRelay.Broker.Bounds
import CommandRelay.Broker.Relayed

/-!
# How much an operation sends

An operation sends at most one message to every client of an account, and one or two to
others.  Since an account has a bounded number of clients, so is what an operation sends.
-/

namespace CommandRelay

open Foundation

namespace BrokerCall

def volume : BrokerCall -> Nat
  | send .. | registerClient .. | sendToDesktop .. | resolveSupervisor .. => 1
  | registerDesktop .. => maxClients + 1
  | unregisterDesktop .. | broadcastToClients .. | sendToClient .. => maxClients
  | _ => 0

end BrokerCall

namespace Broker

def EnqueuesAtMost (n : Nat) (b b' : Broker) : Prop :=
  exists new, b'.delivered = new ++ b.delivered ∧ new.length ≤ n

section

variable {b b' b'' : Broker} {m n : Nat} {tx : ConnId} {msg : WsMessage}

theorem enqueuesAtMost_of_eq (h : b'.delivered = b.delivered) : EnqueuesAtMost n b b' :=
  ⟨[], h, Nat.zero_le n⟩

theorem EnqueuesAtMost.mono (h : EnqueuesAtMost m b b') (hle : m ≤ n) : EnqueuesAtMost n b b' := by
  rcases h with ⟨new, hnew, hlength⟩
  exact ⟨new, hnew, Nat.le_trans hlength hle⟩

theorem EnqueuesAtMost.trans (h : EnqueuesAtMost m b b') (h' : EnqueuesAtMost n b' b'') :
    EnqueuesAtMost (m + n) b b'' := by
  rcases h with ⟨new, hnew, hlength⟩
  rcases h' with ⟨new', hnew', hlength'⟩
  refine ⟨new' ++ new, ?_, ?_⟩
  · rw [hnew', hnew, List.append_assoc]
  · rw [List.length_append]
    omega

theorem enqueuesAtMost_of_cases
    (h : b'.delivered = b.delivered ∨ b'.delivered = (tx, msg) :: b.delivered) :
    EnqueuesAtMost 1 b b' := by
  rcases h with hsame | hnew
  · exact enqueuesAtMost_of_eq hsame
  · exact ⟨[(tx, msg)], hnew, Nat.le_refl 1⟩

theorem enqueuesAtMost_send (b : Broker) (tx : ConnId) (msg : WsMessage) :
    EnqueuesAtMost 1 b (b.send tx msg).1 :=
  enqueuesAtMost_of_cases (delivered_send_cases b tx msg)

theorem enqueuesAtMost_foldl {f : Broker -> ConnId -> Broker}
    (hf : forall b tx, EnqueuesAtMost 1 b (f b tx)) (b : Broker) (txs : List ConnId) :
    EnqueuesAtMost txs.length b (txs.foldl f b) := by
  induction txs generalizing b with
  | nil => exact enqueuesAtMost_of_eq rfl
  | cons tx rest ih =>
      rw [List.foldl_cons, List.length_cons, Nat.add_comm]
      exact (hf b tx).trans (ih (f b tx))

theorem enqueuesAtMost_sendAll (b : Broker) (txs : List ConnId) (msg : WsMessage) :
    EnqueuesAtMost txs.length b (b.sendAll txs msg) :=
  enqueuesAtMost_foldl (fun b tx => enqueuesAtMost_send b tx msg) b txs

theorem enqueuesAtMost_broadcastOutput (b : Broker) (txs : List ConnId) (msg : WsMessage) :
    EnqueuesAtMost txs.length b (b.broadcastOutput txs msg) :=
  enqueuesAtMost_foldl
    (fun b tx => enqueuesAtMost_of_cases (delivered_outputTo_cases b tx msg)) b txs

theorem enqueuesAtMost_withAccount (u : String) (absent : α)
    (f : AccountState -> AccountState × α) :
    EnqueuesAtMost n b (b.withAccount u absent f).1 := by
  unfold withAccount
  cases b.account u with
  | none => exact enqueuesAtMost_of_eq rfl
  | some st => exact enqueuesAtMost_of_eq rfl

theorem enqueuesAtMost_evictDesktop (b : Broker) (st : AccountState) :
    EnqueuesAtMost 1 b (b.evictDesktop st) := by
  unfold evictDesktop
  cases st.desktopTx with
  | none => exact enqueuesAtMost_of_eq rfl
  | some old => exact enqueuesAtMost_send b old .close

theorem enqueuesAtMost_replayDesktopStatus (b : Broker) (st : AccountState) (tx : ConnId) :
    EnqueuesAtMost 1 b (b.replayDesktopStatus st tx) := by
  unfold replayDesktopStatus
  cases st.desktopTx with
  | none => exact enqueuesAtMost_of_eq rfl
  | some _ => exact enqueuesAtMost_send b tx _

/-- An operation sends no more than its volume, when accounts have no more clients than they
may. -/
theorem enqueuesAtMost_exec (hclients : forall u, (b.entry u).clientTxs.length ≤ maxClients)
    (now : Instant) (op : BrokerCall) : EnqueuesAtMost op.volume b (b.exec now op).1 := by
  have haccount : forall {u st}, b.account u = some st -> st.clientTxs.length ≤ maxClients := by
    intro u st hst
    have h := hclients u
    unfold entry at h
    rw [hst] at h
    exact h
  cases op
  case send tx msg => exact enqueuesAtMost_send b tx msg
  case registerDesktop u tx capabilities =>
      show EnqueuesAtMost (maxClients + 1) b (b.registerDesktop u tx capabilities)
      rw [Nat.add_comm]
      refine (enqueuesAtMost_evictDesktop b (b.entry u)).trans ?_
      exact (enqueuesAtMost_sendAll (put _ u _) _ _).mono (hclients u)
  case unregisterDesktop u conn =>
      show EnqueuesAtMost maxClients b (b.unregisterDesktop u conn)
      unfold unregisterDesktop
      cases hst : b.account u with
      | none => exact enqueuesAtMost_of_eq rfl
      | some st =>
          by_cases hstale : (st.dropUploadsOf conn).heldByOther conn = true
          · simp only [if_pos hstale]
            exact enqueuesAtMost_of_eq rfl
          · simp only [if_neg hstale]
            have hroom : st.clientTxs.length ≤ maxClients := haccount hst
            exact (enqueuesAtMost_sendAll (b.put u _) _ _).mono hroom
  case registerClient u tx info =>
      show EnqueuesAtMost 1 b (b.registerClient u tx info).1
      unfold registerClient
      by_cases hmem : tx ∈ (b.entry u).clientTxs
      · simp only [if_pos hmem]
        exact enqueuesAtMost_replayDesktopStatus (b.put u _) _ tx
      · by_cases hfull : maxClients ≤ (b.entry u).clients.length
        · simp only [if_neg hmem, if_pos hfull]
          exact enqueuesAtMost_of_eq rfl
        · simp only [if_neg hmem, if_neg hfull]
          exact enqueuesAtMost_replayDesktopStatus (b.put u _) _ tx
  case noteSessionListRequest u d conn =>
      show EnqueuesAtMost 0 b (b.noteSessionListRequest u d conn)
      unfold noteSessionListRequest
      cases b.account u with
      | none => exact enqueuesAtMost_of_eq rfl
      | some st => exact enqueuesAtMost_of_eq rfl
  case sendToDesktop u msg =>
      show EnqueuesAtMost 1 b (b.sendToDesktop u msg).1
      unfold sendToDesktop
      cases (b.account u).bind AccountState.desktopTx with
      | none => exact enqueuesAtMost_of_eq rfl
      | some tx => exact enqueuesAtMost_send b tx msg
  case broadcastToClients u msg =>
      show EnqueuesAtMost maxClients b (b.broadcastToClients u msg)
      unfold broadcastToClients
      cases hst : b.account u with
      | none => exact enqueuesAtMost_of_eq rfl
      | some st =>
          by_cases hpty : msg.isPtyOutput = true
          · simp only [if_pos hpty]
            exact (enqueuesAtMost_broadcastOutput b _ msg).mono (haccount hst)
          · simp only [if_neg hpty]
            exact (enqueuesAtMost_sendAll b _ msg).mono (haccount hst)
  case sendToClient u d msg =>
      show EnqueuesAtMost maxClients b (b.sendToClient u d msg).1
      unfold sendToClient
      cases hst : b.account u with
      | none => exact enqueuesAtMost_of_eq rfl
      | some st =>
          simp only [sendEach_fst]
          refine (enqueuesAtMost_sendAll b _ msg).mono (Nat.le_trans ?_ (haccount hst))
          rw [List.length_map, AccountState.clientTxs, List.length_map]
          exact List.length_filter_le _ _
  case resolveSupervisor u id reply =>
      show EnqueuesAtMost 1 b (b.resolveSupervisor u id reply now).1
      unfold resolveSupervisor
      cases hst : b.account u with
      | none => exact enqueuesAtMost_of_eq rfl
      | some st =>
          cases hentry : (st.gcSupervisor now).supervisorPending.lookup id with
          | none =>
              simp only [hentry]
              exact enqueuesAtMost_of_eq rfl
          | some entry =>
              by_cases hok : (b.send entry.owner (.text reply)).2 = true
              · simp only [hentry, if_pos hok]
                exact enqueuesAtMost_send b entry.owner (.text reply)
              · simp only [hentry, if_neg hok]
                exact enqueuesAtMost_send b entry.owner (.text reply)
  all_goals first
    | exact enqueuesAtMost_of_eq rfl
    | exact enqueuesAtMost_withAccount _ _ _

end

end Broker

theorem BrokerRun.bounded_of_runs {labels : List BrokerLabel} {r : BrokerRun}
    (hrun : Runs labels r) (u : String) : (r.broker.entry u).clientTxs.length ≤ maxClients := by
  have hbounded : forall u st, r.broker.account u = some st -> st.Bounded := by
    refine reachable_induction (motive := fun r =>
      forall u st, r.broker.account u = some st -> st.Bounded) ?_ ?_ ?_ (reachable_of_runs hrun)
    · intro u st hst
      cases hst
    · intro r now op _ _ ih u st hst
      exact Broker.bounded_exec ih hst
    · intro r r' ih haccount _ u st hst
      exact ih u st ((haccount u).symm.trans hst)
  rw [AccountState.clientTxs, List.length_map]
  unfold Broker.entry
  cases hst : r.broker.account u with
  | none => exact AccountState.bounded_new.clients
  | some st => exact (hbounded u st hst).clients

end CommandRelay
