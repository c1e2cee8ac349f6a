import CommandRelay.Broker.Relayed
import CommandRelay.Foundation.Projection

/-!
# One account on a shared broker

When every connection belongs to one account, an account's state, its answers and what
its connections are sent are those of a broker that serves this account alone.
-/

namespace CommandRelay

open Foundation

/-- The account an operation is for, when connections belong to accounts. -/
def BrokerCall.tenant (owner : ConnId -> String) : BrokerCall -> String
  | send tx _ => owner tx
  | registerDesktop u .. | unregisterDesktop u _ | registerClient u .. => u
  | unregisterClient u .. | unregisterDevice u _ | noteSessionListRequest u .. => u
  | beginReplay u | endReplay u | replayTarget u | isDesktopOnline u => u
  | sendToDesktop u _ | beginUpload u .. | markBugReportUpload u .. => u
  | takeBugReportBuffer u .. | recordUploadChunk u .. | finishUpload u .. => u
  | resolveUpload u _ | registerDownload u .. | noteDownloadBegin u .. => u
  | recordDownloadChunk u .. | resolveDownload u _ => u
  | beginSupervisorQuery u .. | resolveSupervisor u .. => u
  | broadcastToClients u _ | sendToClient u .. => u
  | addPendingDevice u _ | takePendingDevice u _ | getConnectedClients u => u

/-- The account a step is for: a background step is for the account of its connection. -/
def BrokerLabel.tenant (owner : ConnId -> String) : BrokerLabel -> String
  | .call _ c => c.tenant owner
  | .nudge _ tx | .drain tx | .stopWriter tx => owner tx

namespace Broker

def only (owner : ConnId -> String) (u : String) (b : Broker) : Broker where
  accounts := (b.account u).elim ∅ fun st => AList.singleton u st
  channels := fun tx => if owner tx = u then b.channels tx else Channel.new
  nudges := b.nudges.filter fun tx => owner tx = u
  delivered := b.delivered.filter fun m => owner m.1 = u

def Confined (owner : ConnId -> String) (b : Broker) : Prop :=
  forall u place c, b.Holds u place c -> owner c = u

section

variable {owner : ConnId -> String} {u v : String} {b : Broker} {tx : ConnId}
  {txs : List ConnId} {msg : WsMessage} {st : AccountState} {α : Type}

theorem accounts_only (b : Broker) : (b.only owner u).accounts =
    (b.account u).elim ∅ fun st => AList.singleton u st := rfl

@[simp] theorem account_only : (b.only owner u).account u = b.account u := by
  rw [account, accounts_only]
  cases b.account u with
  | none => rfl
  | some st => exact AList.lookup_insert ∅

@[simp] theorem entry_only : (b.only owner u).entry u = b.entry u := by
  rw [entry, account_only, entry]

theorem channels_only (htx : owner tx = u) : (b.only owner u).channels tx = b.channels tx :=
  if_pos htx

/-!
## What is for the account
-/

theorem eq_only {b' : Broker}
    (haccounts : b'.accounts = (b.account u).elim ∅ fun st => AList.singleton u st)
    (hchannels : b'.channels = fun tx => if owner tx = u then b.channels tx else Channel.new)
    (hnudges : b'.nudges = b.nudges.filter fun tx => owner tx = u)
    (hdelivered : b'.delivered = b.delivered.filter fun m => owner m.1 = u) :
    b' = b.only owner u := by
  cases b'
  cases haccounts
  cases hchannels
  cases hnudges
  cases hdelivered
  rfl

theorem put_only (b : Broker) (st : AccountState) :
    (b.only owner u).put u st = (b.put u st).only owner u := by
  refine eq_only ?_ rfl rfl rfl
  rw [account_put_same]
  show (b.only owner u).accounts.insert u st = AList.singleton u st
  rw [accounts_only]
  cases b.account u with
  | none => rfl
  | some old => exact AList.insert_singleton_eq

theorem setChannel_only (htx : owner tx = u) (ch : Channel) :
    (b.only owner u).setChannel tx ch = (b.setChannel tx ch).only owner u := by
  refine eq_only rfl ?_ rfl rfl
  funext tx'
  show Function.update (b.only owner u).channels tx ch tx' =
    if owner tx' = u then Function.update b.channels tx ch tx' else Channel.new
  by_cases heq : tx' = tx
  · subst heq
    rw [Function.update_self, Function.update_self, if_pos htx]
  · rw [Function.update_of_ne heq, Function.update_of_ne heq]
    rfl

theorem deliver_only (htx : owner tx = u) (b : Broker) :
    { b.only owner u with delivered := (tx, msg) :: (b.only owner u).delivered } =
      ({ b with delivered := (tx, msg) :: b.delivered } : Broker).only owner u := by
  refine eq_only rfl rfl rfl ?_
  show (tx, msg) :: b.delivered.filter _ = ((tx, msg) :: b.delivered).filter _
  simp [htx]

theorem send_only (htx : owner tx = u) (b : Broker) (msg : WsMessage) :
    (b.only owner u).send tx msg = ((b.send tx msg).1.only owner u, (b.send tx msg).2) := by
  unfold send
  simp only [channels_only htx, setChannel_only htx]
  cases ((b.channels tx).send msg).2 with
  | false => rfl
  | true =>
      simp only [if_true]
      rw [deliver_only htx]

theorem sendAll_only (htxs : forall tx, tx ∈ txs -> owner tx = u) (b : Broker)
    (msg : WsMessage) :
    (b.only owner u).sendAll txs msg = (b.sendAll txs msg).only owner u := by
  unfold sendAll
  induction txs generalizing b with
  | nil => rfl
  | cons tx rest ih =>
      rw [List.foldl_cons, List.foldl_cons, send_only (htxs tx List.mem_cons_self)]
      exact ih (fun tx' htx' => htxs tx' (List.mem_cons_of_mem tx htx')) _

theorem sendEach_only (htxs : forall tx, tx ∈ txs -> owner tx = u) (b : Broker)
    (msg : WsMessage) :
    (b.only owner u).sendEach txs msg =
      ((b.sendEach txs msg).1.only owner u, (b.sendEach txs msg).2) := by
  unfold sendEach
  suffices hacc : forall (b : Broker) (sent : Bool),
      txs.foldl (fun acc tx => ((acc.1.send tx msg).1, acc.2 || (acc.1.send tx msg).2))
        (b.only owner u, sent) =
      ((txs.foldl (fun acc tx => ((acc.1.send tx msg).1, acc.2 || (acc.1.send tx msg).2))
        (b, sent)).1.only owner u,
      (txs.foldl (fun acc tx => ((acc.1.send tx msg).1, acc.2 || (acc.1.send tx msg).2))
        (b, sent)).2) from hacc b false
  induction txs with
  | nil => exact fun _ _ => rfl
  | cons tx rest ih =>
      intro b sent
      simp only [List.foldl_cons, send_only (htxs tx List.mem_cons_self)]
      exact ih (fun tx' htx' => htxs tx' (List.mem_cons_of_mem tx htx')) _ _

theorem outputTo_only (htx : owner tx = u) (b : Broker) (msg : WsMessage) :
    (b.only owner u).outputTo tx msg = (b.outputTo tx msg).only owner u := by
  unfold outputTo sendOutput
  simp only [channels_only htx]
  by_cases hdirty : (b.channels tx).dirty = true
  · simp only [if_pos hdirty]
    rfl
  · by_cases hover : (b.channels tx).overBudget msg = true
    · simp only [if_neg hdirty, if_pos hover, setChannel_only htx]
      refine eq_only rfl rfl ?_ rfl
      show b.nudges.filter _ ++ [tx] = (b.nudges ++ [tx]).filter _
      simp [htx]
    · simp only [if_neg hdirty, if_neg hover, send_only htx]
      rfl

theorem broadcastOutput_only (htxs : forall tx, tx ∈ txs -> owner tx = u) (b : Broker)
    (msg : WsMessage) :
    (b.only owner u).broadcastOutput txs msg = (b.broadcastOutput txs msg).only owner u := by
  unfold broadcastOutput
  induction txs generalizing b with
  | nil => rfl
  | cons tx rest ih =>
      rw [List.foldl_cons, List.foldl_cons, outputTo_only (htxs tx List.mem_cons_self)]
      exact ih (fun tx' htx' => htxs tx' (List.mem_cons_of_mem tx htx')) _

theorem withEntry_only (b : Broker) (f : AccountState -> AccountState × α) :
    (b.only owner u).withEntry u f =
      ((b.withEntry u f).1.only owner u, (b.withEntry u f).2) := by
  unfold withEntry
  simp only [entry_only, put_only]

theorem withAccount_only (b : Broker) (absent : α) (f : AccountState -> AccountState × α) :
    (b.only owner u).withAccount u absent f =
      ((b.withAccount u absent f).1.only owner u, (b.withAccount u absent f).2) := by
  unfold withAccount
  rw [account_only]
  cases b.account u with
  | none => rfl
  | some st =>
      simp only []
      rw [put_only]

theorem evictDesktop_only (hslot : forall tx, st.desktopTx = some tx -> owner tx = u)
    (b : Broker) : (b.only owner u).evictDesktop st = (b.evictDesktop st).only owner u := by
  unfold evictDesktop
  cases hdesktop : st.desktopTx with
  | none => rfl
  | some old =>
      simp only []
      rw [send_only (hslot old hdesktop)]

theorem replayDesktopStatus_only (htx : owner tx = u) (b : Broker) (st : AccountState) :
    (b.only owner u).replayDesktopStatus st tx =
      (b.replayDesktopStatus st tx).only owner u := by
  unfold replayDesktopStatus
  cases st.desktopTx with
  | none => rfl
  | some _ =>
      simp only []
      rw [send_only htx]

theorem exec_only (hconfined : b.Confined owner) (now : Instant) (op : BrokerCall)
    (hinserts : forall i, i ∈ op.inserts -> owner i.2 = op.tenant owner) :
    (b.only owner (op.tenant owner)).exec now op =
      ((b.exec now op).1.only owner (op.tenant owner), (b.exec now op).2) := by
  have hdesktop : forall {u st}, b.account u = some st ->
      forall tx, st.desktopTx = some tx -> owner tx = u :=
    fun hst tx hslot => hconfined _ .desktop tx ⟨_, hst, hslot⟩
  have hclients : forall {u st}, b.account u = some st ->
      forall tx, tx ∈ st.clientTxs -> owner tx = u :=
    fun hst tx hclient => hconfined _ .clients tx ⟨_, hst, hclient⟩
  cases op
  case send tx msg => exact send_only rfl b msg
  case registerDesktop u tx capabilities =>
      have hslot : forall tx, (b.entry u).desktopTx = some tx -> owner tx = u :=
        fun tx hold => hconfined u .desktop tx (holds_entry hold)
      have hlisted : forall tx, tx ∈ (b.entry u).clientTxs -> owner tx = u :=
        fun tx hclient => hconfined u .clients tx (holds_entry hclient)
      simp only [exec, registerDesktop, BrokerCall.tenant, entry_only]
      rw [evictDesktop_only hslot, put_only, sendAll_only hlisted]
  case unregisterDesktop u conn =>
      simp only [exec, unregisterDesktop, BrokerCall.tenant, account_only]
      cases hst : b.account u with
      | none => rfl
      | some st =>
          by_cases hstale : (st.dropUploadsOf conn).heldByOther conn = true
          · simp only [if_pos hstale, put_only]
          · simp only [if_neg hstale, put_only]
            have hremaining : forall tx, tx ∈ (st.dropUploadsOf conn).clientTxs ->
                owner tx = u := fun tx hclient => hclients hst tx hclient
            rw [sendAll_only hremaining]
  case registerClient u tx info =>
      have htx : owner tx = u := hinserts (.clients, tx) List.mem_cons_self
      simp only [exec, registerClient, BrokerCall.tenant, entry_only]
      by_cases hmem : tx ∈ (b.entry u).clientTxs
      · simp only [if_pos hmem, put_only]
        rw [replayDesktopStatus_only htx]
      · by_cases hfull : maxClients ≤ (b.entry u).clients.length
        · simp only [if_neg hmem, if_pos hfull, put_only]
        · simp only [if_neg hmem, if_neg hfull, put_only]
          rw [replayDesktopStatus_only htx]
  case noteSessionListRequest u d conn =>
      have htx : owner conn = u := hinserts (.queue, conn) List.mem_cons_self
      simp only [exec, noteSessionListRequest, BrokerCall.tenant, account_only]
      cases hst : b.account u with
      | none => rfl
      | some st =>
          simp only [put_only, clearDirty, channels_only htx]
          rw [setChannel_only htx]
  case sendToDesktop u msg =>
      simp only [exec, sendToDesktop, BrokerCall.tenant, account_only]
      cases hslot : (b.account u).bind AccountState.desktopTx with
      | none => rfl
      | some tx =>
          rcases Option.bind_eq_some_iff.mp hslot with ⟨st, hst, htx⟩
          simp only [send_only (hdesktop hst tx htx)]
  case resolveSupervisor u id reply =>
      simp only [exec, resolveSupervisor, BrokerCall.tenant, account_only]
      cases hst : b.account u with
      | none => rfl
      | some st =>
          cases hentry : (st.gcSupervisor now).supervisorPending.lookup id with
          | none => simp only [hentry, put_only]
          | some entry =>
              have howner : owner entry.owner = u := hconfined u .supervisor _
                ⟨st, hst, Table.Has.of_retain ⟨id, entry, hentry, rfl⟩⟩
              simp only [hentry, send_only howner]
              cases (b.send entry.owner (.text reply)).2 with
              | false => simp only [Bool.false_eq_true, if_false, put_only]
              | true => simp only [if_true, put_only]
  case broadcastToClients u msg =>
      simp only [exec, broadcastToClients, BrokerCall.tenant, account_only]
      cases hst : b.account u with
      | none => rfl
      | some st =>
          by_cases hpty : msg.isPtyOutput = true
          · simp only [if_pos hpty]
            rw [broadcastOutput_only (hclients hst)]
          · simp only [if_neg hpty]
            rw [sendAll_only (hclients hst)]
  case sendToClient u d msg =>
      simp only [exec, sendToClient, BrokerCall.tenant, account_only]
      cases hst : b.account u with
      | none => rfl
      | some st =>
          have hdevice : forall tx, tx ∈ (st.clients.filter fun c => c.info.deviceId = d).map
              ClientConnection.tx -> owner tx = u :=
            fun tx htx => hclients hst tx (List.map_subset _ (List.filter_subset_self _) htx)
          simp only [sendEach_only hdevice]
  case addPendingDevice u pending =>
      simp only [exec, addPendingDevice, BrokerCall.tenant, withEntry_only]
  all_goals first
    | exact withAccount_only b _ _
    | exact withEntry_only b _
    | simp only [exec, replayTarget, isDesktopOnline, getConnectedClients, BrokerCall.tenant,
        account_only]

/-!
## What is for others
-/

theorem only_congr {b' : Broker} (haccount : b'.account u = b.account u)
    (hchannels : forall tx, owner tx = u -> b'.channels tx = b.channels tx)
    (hnudges : (b'.nudges.filter fun tx => owner tx = u) =
      b.nudges.filter fun tx => owner tx = u)
    (hdelivered : (b'.delivered.filter fun m => owner m.1 = u) =
      b.delivered.filter fun m => owner m.1 = u) :
    b'.only owner u = b.only owner u := by
  refine eq_only (by rw [accounts_only, haccount]) ?_ hnudges hdelivered
  funext tx
  by_cases htx : owner tx = u
  · rw [if_pos htx, channels_only htx, hchannels tx htx]
  · rw [if_neg htx]
    exact if_neg htx

theorem only_put_ne (h : v ≠ u) (b : Broker) (st : AccountState) :
    (b.put v st).only owner u = b.only owner u :=
  only_congr (by rw [account_put, if_neg (Ne.symm h)]) (fun _ _ => rfl) rfl rfl

theorem only_setChannel_ne (htx : owner tx ≠ u) (b : Broker) (ch : Channel) :
    (b.setChannel tx ch).only owner u = b.only owner u := by
  refine only_congr rfl (fun tx' htx' => ?_) rfl rfl
  have hne : tx' ≠ tx := fun heq => htx (heq ▸ htx')
  exact Function.update_of_ne hne _ _

theorem only_send_ne (htx : owner tx ≠ u) (b : Broker) (msg : WsMessage) :
    (b.send tx msg).1.only owner u = b.only owner u := by
  refine Eq.trans ?_ (only_setChannel_ne htx b ((b.channels tx).send msg).1)
  rw [send_frame]
  refine only_congr rfl (fun _ _ => rfl) rfl ?_
  show (b.send tx msg).1.delivered.filter _ = b.delivered.filter _
  rw [delivered_send]
  cases b.alive tx with
  | false => rfl
  | true => simp [htx]

theorem only_outputTo_ne (htx : owner tx ≠ u) (b : Broker) (msg : WsMessage) :
    (b.outputTo tx msg).only owner u = b.only owner u := by
  unfold outputTo sendOutput
  by_cases hdirty : (b.channels tx).dirty = true
  · simp only [if_pos hdirty]
    rfl
  · by_cases hover : (b.channels tx).overBudget msg = true
    · simp only [if_neg hdirty, if_pos hover]
      refine Eq.trans ?_ (only_setChannel_ne htx b { b.channels tx with dirty := true })
      refine only_congr rfl (fun _ _ => rfl) ?_ rfl
      simp [htx]
    · simp only [if_neg hdirty, if_neg hover]
      exact only_send_ne htx b msg

theorem only_foldl {f : Broker -> ConnId -> Broker}
    (hf : forall b tx, tx ∈ txs -> (f b tx).only owner u = b.only owner u) (b : Broker) :
    (txs.foldl f b).only owner u = b.only owner u := by
  induction txs generalizing b with
  | nil => rfl
  | cons tx rest ih =>
      have hrest := ih (fun b tx' htx' => hf b tx' (List.mem_cons_of_mem tx htx')) (f b tx)
      exact hrest.trans (hf b tx List.mem_cons_self)

theorem only_sendAll_ne (htxs : forall tx, tx ∈ txs -> owner tx ≠ u) (b : Broker)
    (msg : WsMessage) : (b.sendAll txs msg).only owner u = b.only owner u :=
  only_foldl (fun b tx htx => only_send_ne (htxs tx htx) b msg) b

theorem only_broadcastOutput_ne (htxs : forall tx, tx ∈ txs -> owner tx ≠ u) (b : Broker)
    (msg : WsMessage) : (b.broadcastOutput txs msg).only owner u = b.only owner u :=
  only_foldl (fun b tx htx => only_outputTo_ne (htxs tx htx) b msg) b

theorem only_withAccount_ne (h : v ≠ u) (b : Broker) (absent : α)
    (f : AccountState -> AccountState × α) :
    (b.withAccount v absent f).1.only owner u = b.only owner u := by
  unfold withAccount
  cases b.account v with
  | none => rfl
  | some st => exact only_put_ne h b _

theorem only_exec_ne (hconfined : b.Confined owner) (now : Instant) (op : BrokerCall)
    (htenant : op.tenant owner ≠ u)
    (hinserts : forall i, i ∈ op.inserts -> owner i.2 = op.tenant owner) :
    (b.exec now op).1.only owner u = b.only owner u := by
  have hdesktop : forall {v st}, v ≠ u -> b.account v = some st ->
      forall tx, st.desktopTx = some tx -> owner tx ≠ u :=
    fun hv hst tx hslot => (hconfined _ .desktop tx ⟨_, hst, hslot⟩).symm ▸ hv
  have hclients : forall {v st}, v ≠ u -> b.account v = some st ->
      forall tx, tx ∈ st.clientTxs -> owner tx ≠ u :=
    fun hv hst tx hclient => (hconfined _ .clients tx ⟨_, hst, hclient⟩).symm ▸ hv
  cases op
  case send tx msg => exact only_send_ne htenant b msg
  case registerDesktop v tx capabilities =>
      have hv : v ≠ u := htenant
      have hlisted : forall tx, tx ∈ (b.entry v).clientTxs -> owner tx ≠ u :=
        fun tx hclient => (hconfined v .clients tx (holds_entry hclient)).symm ▸ hv
      refine ((only_sendAll_ne hlisted _ _).trans (only_put_ne hv _ _)).trans ?_
      unfold evictDesktop
      cases hslot : (b.entry v).desktopTx with
      | none => rfl
      | some old =>
          exact only_send_ne ((hconfined v .desktop old (holds_entry hslot)).symm ▸ hv) b _
  case unregisterDesktop v conn =>
      show (b.unregisterDesktop v conn).only owner u = b.only owner u
      unfold unregisterDesktop
      cases hst : b.account v with
      | none => rfl
      | some st =>
          by_cases hstale : (st.dropUploadsOf conn).heldByOther conn = true
          · simp only [if_pos hstale]
            exact only_put_ne htenant b _
          · simp only [if_neg hstale]
            exact (only_sendAll_ne (hclients htenant hst) _ _).trans (only_put_ne htenant b _)
  case registerClient v tx info =>
      have htx : owner tx ≠ u := (hinserts (.clients, tx) List.mem_cons_self).symm ▸ htenant
      have hreplayed : forall (b : Broker) (st : AccountState),
          (b.replayDesktopStatus st tx).only owner u = b.only owner u := by
        intro b st
        unfold replayDesktopStatus
        cases st.desktopTx with
        | none => rfl
        | some _ => exact only_send_ne htx b _
      show (b.registerClient v tx info).1.only owner u = b.only owner u
      unfold registerClient
      by_cases hmem : tx ∈ (b.entry v).clientTxs
      · simp only [if_pos hmem]
        exact (hreplayed _ _).trans (only_put_ne htenant b _)
      · by_cases hfull : maxClients ≤ (b.entry v).clients.length
        · simp only [if_neg hmem, if_pos hfull]
          exact only_put_ne htenant b _
        · simp only [if_neg hmem, if_neg hfull]
          exact (hreplayed _ _).trans (only_put_ne htenant b _)
  case noteSessionListRequest v d conn =>
      have htx : owner conn ≠ u := (hinserts (.queue, conn) List.mem_cons_self).symm ▸ htenant
      show (b.noteSessionListRequest v d conn).only owner u = b.only owner u
      unfold noteSessionListRequest
      cases b.account v with
      | none => rfl
      | some st => exact (only_setChannel_ne htx _ _).trans (only_put_ne htenant b _)
  case sendToDesktop v msg =>
      show (b.sendToDesktop v msg).1.only owner u = b.only owner u
      unfold sendToDesktop
      cases hslot : (b.account v).bind AccountState.desktopTx with
      | none => rfl
      | some tx =>
          rcases Option.bind_eq_some_iff.mp hslot with ⟨st, hst, htx⟩
          exact only_send_ne (hdesktop htenant hst tx htx) b msg
  case resolveSupervisor v id reply =>
      show (b.resolveSupervisor v id reply now).1.only owner u = b.only owner u
      unfold resolveSupervisor
      cases hst : b.account v with
      | none => rfl
      | some st =>
          cases hentry : (st.gcSupervisor now).supervisorPending.lookup id with
          | none =>
              simp only [hentry]
              exact only_put_ne htenant b _
          | some entry =>
              have howner : owner entry.owner = v := hconfined v .supervisor _
                ⟨st, hst, Table.Has.of_retain ⟨id, entry, hentry, rfl⟩⟩
              have hsent : (b.send entry.owner (.text reply)).1.only owner u = b.only owner u :=
                only_send_ne (howner.symm ▸ htenant) b _
              by_cases hok : (b.send entry.owner (.text reply)).2 = true
              · simp only [hentry, if_pos hok]
                exact (only_put_ne htenant _ _).trans hsent
              · simp only [hentry, if_neg hok]
                exact (only_put_ne htenant _ _).trans hsent
  case broadcastToClients v msg =>
      show (b.broadcastToClients v msg).only owner u = b.only owner u
      unfold broadcastToClients
      cases hst : b.account v with
      | none => rfl
      | some st =>
          by_cases hpty : msg.isPtyOutput = true
          · simp only [if_pos hpty]
            exact only_broadcastOutput_ne (hclients htenant hst) b msg
          · simp only [if_neg hpty]
            exact only_sendAll_ne (hclients htenant hst) b msg
  case sendToClient v d msg =>
      show (b.sendToClient v d msg).1.only owner u = b.only owner u
      unfold sendToClient
      cases hst : b.account v with
      | none => rfl
      | some st =>
          simp only [sendEach_fst]
          refine only_sendAll_ne (fun tx htx => hclients htenant hst tx ?_) b msg
          exact List.map_subset _ (List.filter_subset_self _) htx
  all_goals first
    | rfl
    | exact only_withAccount_ne htenant b _ _
    | exact only_put_ne htenant b _

/-!
## Background steps
-/

theorem runNudge_only (htx : owner tx = u) (b : Broker) (now : Instant) :
    (b.only owner u).runNudge tx now = (b.runNudge tx now).only owner u := by
  have herased : { b.only owner u with nudges := (b.only owner u).nudges.erase tx } =
      ({ b with nudges := b.nudges.erase tx } : Broker).only owner u := by
    refine eq_only rfl rfl ?_ rfl
    show (b.nudges.filter _).erase tx = (b.nudges.erase tx).filter _
    exact List.erase_filter
  unfold runNudge
  simp only [herased, channels_only htx, setChannel_only htx, send_only htx]
  cases (b.channels tx).nudgeDue now with
  | false => simp only [Bool.false_eq_true, if_false]
  | true => simp only [if_true]

theorem only_runNudge_ne (htx : owner tx ≠ u) (b : Broker) (now : Instant) :
    (b.runNudge tx now).only owner u = b.only owner u := by
  have herased : ({ b with nudges := b.nudges.erase tx } : Broker).only owner u =
      b.only owner u := by
    refine only_congr rfl (fun _ _ => rfl) ?_ rfl
    have hnot : tx ∉ b.nudges.filter fun tx => owner tx = u :=
      fun hmem => htx (of_decide_eq_true (List.mem_filter.mp hmem).2)
    show (b.nudges.erase tx).filter _ = b.nudges.filter _
    rw [← List.erase_filter, List.erase_of_not_mem hnot]
  unfold runNudge
  simp only []
  by_cases hdue : (b.channels tx).nudgeDue now = true
  · rw [if_pos hdue]
    exact ((only_send_ne htx _ _).trans (only_setChannel_ne htx _ _)).trans herased
  · rw [if_neg hdue]
    exact herased

theorem drain_only (htx : owner tx = u) (b : Broker) :
    (b.only owner u).drain tx = (b.drain tx).only owner u := by
  rw [drain, channels_only htx, setChannel_only htx, drain]

theorem stopWriter_only (htx : owner tx = u) (b : Broker) :
    (b.only owner u).stopWriter tx = (b.stopWriter tx).only owner u := by
  rw [stopWriter, channels_only htx, setChannel_only htx, stopWriter]

/-!
## Runs
-/

/-- An operation that gives an account connections of its own keeps every account to its
own. -/
theorem Confined.exec (h : b.Confined owner) {now : Instant} {op : BrokerCall}
    (hinserts : forall i, i ∈ op.inserts -> owner i.2 = op.tenant owner) :
    (b.exec now op).1.Confined owner := by
  intro v place c hholds
  rcases holds_exec hholds with hheld | ⟨hsubject, hinsert⟩ | ⟨_, _, hheld⟩
  · exact h v place c hheld
  · have htenant : op.tenant owner = v := by
      cases op <;> first | exact Option.some.inj hsubject | cases hsubject
    exact (hinserts _ hinsert).trans htenant
  · exact h v .queue c hheld

end

end Broker

/-- The operation that a step makes gives an account connections of its own only. -/
def BrokerLabel.KeepsApart (owner : ConnId -> String) : BrokerLabel -> Prop
  | .call _ op => forall i, i ∈ op.inserts -> owner i.2 = op.tenant owner
  | _ => True

namespace BrokerRun

/-- What one account has of a run: a run on a broker of its own, with the events of its
operations. -/
structure Shows (owner : ConnId -> String) (u : String) (s r : BrokerRun) : Prop where
  confined : s.broker.Confined owner
  broker : r.broker = s.broker.only owner u
  clock : r.clock ≤ s.clock
  log : r.log = s.log.filter fun e => e.call.tenant owner = u

section

variable {owner : ConnId -> String} {u : String} {s s' r : BrokerRun} {l : BrokerLabel}

theorem confined_step (h : s.broker.Confined owner) (hapart : l.KeepsApart owner)
    (hstep : step s l = some s') : s'.broker.Confined owner := by
  rcases step_cases hstep with ⟨now, op, rfl, _, rfl⟩ | hquiet
  · exact h.exec hapart
  · intro v place c hholds
    exact h v place c ((Broker.holds_congr (hquiet.account v) place c).mp hholds)

theorem Shows.shown (h : Shows owner u s r) (hapart : l.KeepsApart owner)
    (htenant : l.tenant owner = u) (hstep : step s l = some s') :
    exists r', step r l = some r' ∧ Shows owner u s' r' := by
  have hconfined := confined_step h.confined hapart hstep
  cases l with
  | call now op =>
      by_cases hclock : s.clock ≤ now
      · simp only [step, if_pos hclock, Option.some.injEq] at hstep
        subst hstep
        have hexec := Broker.exec_only h.confined now op hapart
        rw [show op.tenant owner = u from htenant, ← h.broker] at hexec
        refine ⟨r.perform now op, if_pos (Nat.le_trans h.clock hclock), hconfined,
          congrArg Prod.fst hexec, Nat.le_refl _, ?_⟩
        have hevent : r.event now op = s.event now op := by
          rw [event, event, congrArg Prod.snd hexec]
        show r.event now op :: r.log = (s.event now op :: s.log).filter _
        rw [hevent, h.log, List.filter_cons_of_pos]
        exact decide_eq_true htenant
      · simp [step, hclock] at hstep
  | nudge now tx =>
      by_cases hguard : s.clock ≤ now ∧ tx ∈ s.broker.nudges
      · simp only [step, if_pos hguard, Option.some.injEq] at hstep
        subst hstep
        have hwaiting : tx ∈ r.broker.nudges := by
          rw [h.broker]
          exact List.mem_filter.mpr ⟨hguard.2, decide_eq_true htenant⟩
        refine ⟨_, if_pos ⟨Nat.le_trans h.clock hguard.1, hwaiting⟩, hconfined, ?_,
          Nat.le_refl _, h.log⟩
        show r.broker.runNudge tx now = _
        rw [h.broker, Broker.runNudge_only htenant]
      · simp [step, hguard] at hstep
  | drain tx =>
      cases hstep
      refine ⟨_, rfl, hconfined, ?_, h.clock, h.log⟩
      show r.broker.drain tx = _
      rw [h.broker, Broker.drain_only htenant]
  | stopWriter tx =>
      cases hstep
      refine ⟨_, rfl, hconfined, ?_, h.clock, h.log⟩
      show r.broker.stopWriter tx = _
      rw [h.broker, Broker.stopWriter_only htenant]

theorem Shows.hidden (h : Shows owner u s r) (hapart : l.KeepsApart owner)
    (htenant : l.tenant owner ≠ u) (hstep : step s l = some s') : Shows owner u s' r := by
  have hconfined := confined_step h.confined hapart hstep
  cases l with
  | call now op =>
      by_cases hclock : s.clock ≤ now
      · simp only [step, if_pos hclock, Option.some.injEq] at hstep
        subst hstep
        refine ⟨hconfined, ?_, Nat.le_trans h.clock hclock, ?_⟩
        · exact h.broker.trans (Broker.only_exec_ne h.confined now op htenant hapart).symm
        · show r.log = (s.event now op :: s.log).filter _
          rw [h.log, List.filter_cons_of_neg]
          exact fun heq => htenant (of_decide_eq_true heq)
      · simp [step, hclock] at hstep
  | nudge now tx =>
      by_cases hguard : s.clock ≤ now ∧ tx ∈ s.broker.nudges
      · simp only [step, if_pos hguard, Option.some.injEq] at hstep
        subst hstep
        have hunnoticed := Broker.only_runNudge_ne htenant s.broker now
        exact ⟨hconfined, h.broker.trans hunnoticed.symm, Nat.le_trans h.clock hguard.1, h.log⟩
      · simp [step, hguard] at hstep
  | drain tx =>
      cases hstep
      have hunnoticed := Broker.only_setChannel_ne htenant s.broker (s.broker.channels tx).drain
      exact ⟨hconfined, h.broker.trans hunnoticed.symm, h.clock, h.log⟩
  | stopWriter tx =>
      cases hstep
      have hunnoticed := Broker.only_setChannel_ne htenant s.broker (s.broker.channels tx).stop
      exact ⟨hconfined, h.broker.trans hunnoticed.symm, h.clock, h.log⟩

theorem seenBy_shows : SeenBy step step (fun _ l => l.KeepsApart owner)
    (fun l => l.tenant owner = u) (Shows owner u) where
  shows h hapart hshown hstep := h.shown hapart (of_decide_eq_true hshown) hstep
  hides h hapart hshown hstep := h.hidden hapart (of_decide_eq_false hshown) hstep

theorem shows_init : Shows owner u init init where
  confined := by
    rintro v place c ⟨st, hst, _⟩
    cases hst
  broker := Broker.eq_only rfl (by funext tx; exact (ite_self _).symm) rfl rfl
  clock := Nat.le_refl 0
  log := rfl

/-- Accounts do not interfere: when every connection belongs to one account, the steps for
an account are by themselves a run, whose answers, whose account state, and whose channels
and messages for the account's connections are those of the shared broker. -/
theorem account_undisturbed (owner : ConnId -> String) {labels : List BrokerLabel}
    (hrun : Runs labels s)
    (hapart : forall l, l ∈ labels -> l.KeepsApart owner) (u : String) :
    exists r, Runs (labels.filter fun l => l.tenant owner = u) r ∧ Shows owner u s r :=
  seenBy_shows.follow_filter shows_init hrun (admits_of_mem hapart init)

end

/-- Two accounts, each with a desktop, one of which announces a session. -/
def twoAccounts : List BrokerLabel :=
  [.call 0 (.registerDesktop "user" 1 none),
    .call 0 (.registerClient "user" 2
      { deviceId := "phone", deviceName := "Phone", ip := "192.0.2.1", connectedAt := "" }),
    .call 1 (.registerDesktop "guest" 3 none),
    .call 1 (.broadcastToClients "user" (.text (.sessionClosed "s"))),
    .call 2 (.registerDesktop "guest" 4 none), .drain 2, .drain 3]

def guestAfter (c : ConnId) : String :=
  if c ≤ 2 then "user" else "guest"

instance (owner : ConnId -> String) : (l : BrokerLabel) -> Decidable (l.KeepsApart owner)
  | .call _ op => inferInstanceAs (Decidable (forall i, i ∈ op.inserts -> _))
  | .nudge .. | .drain _ | .stopWriter _ => inferInstanceAs (Decidable True)

theorem account_undisturbed_example : exists s r, Runs twoAccounts s ∧
    Runs (twoAccounts.filter fun l => l.tenant guestAfter = "user") r ∧
      Shows guestAfter "user" s r := by
  have hend : (follow step init twoAccounts).isSome = true := by decide +kernel
  rcases Option.isSome_iff_exists.mp hend with ⟨s, hrun⟩
  rcases account_undisturbed guestAfter hrun (by decide +kernel) "user" with
    ⟨r, halone, hshows⟩
  exact ⟨s, r, hrun, halone, hshows⟩

end BrokerRun

end CommandRelay
