import CommandRelay.Broker.Places
import CommandRelay.Broker.Runs

/-!
# Fan-out membership

The clients list of an account holds each connection at most once, and exactly
the connections whose latest successful registration has been followed neither by
the end of that connection nor by the revocation of its device.
-/

namespace CommandRelay

open Foundation

/-!
## The clients list after an operation
-/

namespace AccountState

def joined (client : ClientConnection) (clients : List ClientConnection) :
    List ClientConnection :=
  if client.tx ∈ clients.map ClientConnection.tx then replaceClient client clients
  else if maxClients ≤ clients.length then clients
  else clients ++ [client]

theorem clients_withClient (st : AccountState) (tx : ConnId) (info : ClientInfo) :
    (st.withClient tx info).clients = joined ⟨tx, info⟩ st.clients := by
  unfold withClient joined clientTxs
  by_cases hmem : tx ∈ st.clients.map ClientConnection.tx
  · rw [if_pos hmem, if_pos hmem]
  · by_cases hfull : maxClients ≤ st.clients.length
    · rw [if_neg hmem, if_pos hfull, if_neg hmem, if_pos hfull]
    · rw [if_neg hmem, if_neg hfull, if_neg hmem, if_neg hfull]

def clientsAfter : BrokerCall -> List ClientConnection -> List ClientConnection
  | .registerClient _ tx info, clients => joined ⟨tx, info⟩ clients
  | .unregisterClient _ _ conn, clients => clients.filter fun c => !decide (c.tx = conn)
  | .unregisterDevice _ d, clients => clients.filter fun c => !decide (c.info.deviceId = d)
  | _, clients => clients

theorem clients_after (st : AccountState) (alive : ConnId -> Bool) (now : Instant)
    (op : BrokerCall) : (st.after alive now op).clients = clientsAfter op st.clients := by
  by_cases htouch : AccountPart.clients ∈ op.touches
  · cases op <;> simp [BrokerCall.touches] at htouch
    case registerClient u tx info => exact st.clients_withClient tx info
    case unregisterClient u d conn => rfl
    case unregisterDevice u d => rfl
  · have hagree : (st.after alive now op).clients = st.clients :=
      st.after_agree .clients alive now htouch
    rw [hagree]
    cases op <;> first | rfl | simp [BrokerCall.touches] at htouch

section

variable {client : ClientConnection} {clients : List ClientConnection}

theorem map_tx_replaceClient :
    (replaceClient client clients).map ClientConnection.tx =
      clients.map ClientConnection.tx := by
  induction clients with
  | nil => rfl
  | cons first rest ih =>
      by_cases hfirst : first.tx = client.tx
      · simp [replaceClient, hfirst]
      · simp [replaceClient, hfirst, ih]

theorem nodup_joined (h : (clients.map ClientConnection.tx).Nodup) :
    ((joined client clients).map ClientConnection.tx).Nodup := by
  unfold joined
  by_cases hmem : client.tx ∈ clients.map ClientConnection.tx
  · rw [if_pos hmem, map_tx_replaceClient]
    exact h
  · by_cases hfull : maxClients ≤ clients.length
    · rw [if_neg hmem, if_pos hfull]
      exact h
    · rw [if_neg hmem, if_neg hfull, List.map_append, List.map_singleton,
        ← List.concat_eq_append]
      exact h.concat hmem

theorem mem_replaceClient_iff (h : (clients.map ClientConnection.tx).Nodup)
    (hmem : client.tx ∈ clients.map ClientConnection.tx) (e : ClientConnection) :
    e ∈ replaceClient client clients <-> e = client ∨ e ∈ clients ∧ e.tx ≠ client.tx := by
  induction clients with
  | nil => simp at hmem
  | cons first rest ih =>
      rcases List.nodup_cons.mp h with ⟨hfresh, hrest⟩
      have hskip : forall c : ClientConnection, c ∈ rest -> c.tx ≠ first.tx := by
        intro c hc heq
        exact hfresh (heq ▸ List.mem_map_of_mem hc)
      by_cases hfirst : first.tx = client.tx
      · rw [replaceClient, if_pos hfirst]
        constructor
        · intro he
          rcases List.mem_cons.mp he with heq | htail
          · exact Or.inl heq
          · exact Or.inr ⟨List.mem_cons_of_mem _ htail, hfirst ▸ hskip e htail⟩
        · rintro (heq | ⟨he, hne⟩)
          · exact List.mem_cons.mpr (Or.inl heq)
          · rcases List.mem_cons.mp he with heq | htail
            · exact absurd (heq ▸ hfirst) hne
            · exact List.mem_cons_of_mem _ htail
      · have hmem' : client.tx ∈ rest.map ClientConnection.tx := by
          rcases List.mem_cons.mp hmem with heq | htail
          · exact absurd heq.symm hfirst
          · exact htail
        rw [replaceClient, if_neg hfirst, List.mem_cons, ih hrest hmem']
        constructor
        · rintro (heq | hnew | ⟨he, hne⟩)
          · exact Or.inr ⟨List.mem_cons.mpr (Or.inl heq), heq ▸ hfirst⟩
          · exact Or.inl hnew
          · exact Or.inr ⟨List.mem_cons_of_mem _ he, hne⟩
        · rintro (hnew | ⟨he, hne⟩)
          · exact Or.inr (Or.inl hnew)
          · rcases List.mem_cons.mp he with heq | htail
            · exact Or.inl heq
            · exact Or.inr (Or.inr ⟨htail, hne⟩)

theorem mem_joined (h : (clients.map ClientConnection.tx).Nodup)
    (hroom : client.tx ∈ clients.map ClientConnection.tx ∨ ¬ maxClients ≤ clients.length)
    (e : ClientConnection) :
    e ∈ joined client clients <-> e = client ∨ e ∈ clients ∧ e.tx ≠ client.tx := by
  unfold joined
  by_cases hmem : client.tx ∈ clients.map ClientConnection.tx
  · rw [if_pos hmem]
    exact mem_replaceClient_iff h hmem e
  · have hfull : ¬ maxClients ≤ clients.length := hroom.resolve_left hmem
    have hother : e ∈ clients -> e.tx ≠ client.tx := by
      intro he heq
      exact hmem (heq ▸ List.mem_map_of_mem he)
    rw [if_neg hmem, if_neg hfull, List.mem_append, List.mem_singleton]
    constructor
    · rintro (he | heq)
      · exact Or.inr ⟨he, hother he⟩
      · exact Or.inl heq
    · rintro (heq | ⟨he, _⟩)
      · exact Or.inr heq
      · exact Or.inl he

theorem joined_refused
    (hfull : ¬ (client.tx ∈ clients.map ClientConnection.tx ∨ ¬ maxClients ≤ clients.length)) :
    joined client clients = clients := by
  rw [not_or, not_not] at hfull
  rw [joined, if_neg hfull.1, if_pos hfull.2]

end

/-!
### One entry for each device
-/

theorem mem_dedupeByDevice {seen : List String} {clients : List ClientConnection}
    {d : String} :
    d ∈ (dedupeByDevice seen clients).map ClientInfo.deviceId <->
      d ∉ seen ∧ exists c, c ∈ clients ∧ c.info.deviceId = d := by
  induction clients generalizing seen with
  | nil => simp [dedupeByDevice]
  | cons first rest ih =>
      by_cases hseen : first.info.deviceId ∈ seen
      · rw [dedupeByDevice, if_pos hseen, ih]
        constructor
        · rintro ⟨hd, c, hc, hdevice⟩
          exact ⟨hd, c, List.mem_cons_of_mem _ hc, hdevice⟩
        · rintro ⟨hd, c, hc, hdevice⟩
          rcases List.mem_cons.mp hc with heq | htail
          · exact absurd (hdevice ▸ heq ▸ hseen) hd
          · exact ⟨hd, c, htail, hdevice⟩
      · rw [dedupeByDevice, if_neg hseen, List.map_cons, List.mem_cons, ih]
        constructor
        · rintro (heq | ⟨hd, c, hc, hdevice⟩)
          · exact ⟨heq ▸ hseen, first, List.mem_cons_self, heq.symm⟩
          · exact ⟨fun hmem => hd (List.mem_cons_of_mem _ hmem), c,
              List.mem_cons_of_mem _ hc, hdevice⟩
        · rintro ⟨hd, c, hc, hdevice⟩
          by_cases hfirst : d = first.info.deviceId
          · exact Or.inl hfirst
          · rcases List.mem_cons.mp hc with heq | htail
            · exact absurd (heq ▸ hdevice.symm) hfirst
            · refine Or.inr ⟨?_, c, htail, hdevice⟩
              rw [List.mem_cons, not_or]
              exact ⟨hfirst, hd⟩

theorem nodup_dedupeByDevice (seen : List String) (clients : List ClientConnection) :
    ((dedupeByDevice seen clients).map ClientInfo.deviceId).Nodup := by
  induction clients generalizing seen with
  | nil => exact List.nodup_nil
  | cons first rest ih =>
      by_cases hseen : first.info.deviceId ∈ seen
      · rw [dedupeByDevice, if_pos hseen]
        exact ih seen
      · rw [dedupeByDevice, if_neg hseen, List.map_cons, List.nodup_cons]
        refine ⟨fun hmem => ?_, ih _⟩
        exact (mem_dedupeByDevice.mp hmem).1 List.mem_cons_self

end AccountState

namespace Broker

def clients (b : Broker) (u : String) : List ClientConnection :=
  (b.entry u).clients

theorem clients_congr {b b' : Broker} {u : String} (h : b'.account u = b.account u) :
    b'.clients u = b.clients u := by
  simp [clients, entry, h]

theorem clients_exec {b : Broker} {now : Instant} {op : BrokerCall} {u : String}
    (hu : op.subject? = some u) :
    (b.exec now op).1.clients u = AccountState.clientsAfter op (b.clients u) := by
  unfold clients
  rw [← AccountState.clients_after (b.entry u) b.alive now op]
  unfold entry
  rw [account_exec_subject hu]
  cases hcreates : op.creates with
  | true => rfl
  | false =>
      cases hst : b.account u with
      | some st => simp
      | none =>
          simp only [Bool.false_eq_true, if_false, Option.map_none, Option.getD_none]
          rw [AccountState.clients_after]
          cases op <;> first | rfl | cases hcreates

theorem clients_exec_other {b : Broker} {now : Instant} {op : BrokerCall} {u : String}
    (hu : op.subject? ≠ some u) : (b.exec now op).1.clients u = b.clients u :=
  clients_congr (account_exec_other hu)

theorem registerClient_ok (b : Broker) (u : String) (tx : ConnId) (info : ClientInfo) :
    (b.registerClient u tx info).2 = .ok () <->
      tx ∈ (b.clients u).map ClientConnection.tx ∨ ¬ maxClients ≤ (b.clients u).length := by
  unfold registerClient
  by_cases hmem : tx ∈ (b.entry u).clientTxs
  · simp only [if_pos hmem]
    exact iff_of_true trivial (Or.inl hmem)
  · by_cases hfull : maxClients ≤ (b.entry u).clients.length
    · simp only [if_neg hmem, if_pos hfull]
      refine iff_of_false (fun h => nomatch h) ?_
      rintro (h | h)
      · exact hmem h
      · exact h hfull
    · simp only [if_neg hmem, if_neg hfull]
      exact iff_of_true trivial (Or.inr hfull)

end Broker

/-!
## The history of a registration
-/

namespace BrokerEvent

def registers (u : String) (c : ConnId) (d : String) : BrokerEvent -> Bool
  | ⟨_, .registerClient v tx info, .ok _⟩ => v = u ∧ tx = c ∧ info.deviceId = d
  | _ => false

def supersedes (u : String) (c : ConnId) (d : String) : BrokerEvent -> Bool
  | ⟨_, .registerClient v tx _, .ok _⟩ => v = u ∧ tx = c
  | ⟨_, .unregisterClient v _ conn, _⟩ => v = u ∧ conn = c
  | ⟨_, .unregisterDevice v deviceId, _⟩ => v = u ∧ deviceId = d
  | _ => false

end BrokerEvent

/-- The latest successful registration of the connection was under the device, and
neither its end nor a revocation of the device has followed. -/
def Listed (log : List BrokerEvent) (u : String) (c : ConnId) (d : String) : Prop :=
  Standing (BrokerEvent.registers u c d) (BrokerEvent.supersedes u c d) log

theorem listed_cons {f : BrokerEvent} {log : List BrokerEvent} {u : String} {c : ConnId}
    {d : String} :
    Listed (f :: log) u c d <->
      f.registers u c d = true ∨ f.supersedes u c d = false ∧ Listed log u c d :=
  standing_cons

namespace BrokerRun

/-- The clients list of an account agrees with the history of the run. -/
structure Roster (s : BrokerRun) (u : String) : Prop where
  nodup : ((s.broker.clients u).map ClientConnection.tx).Nodup
  listed : forall c d, (exists e, e ∈ s.broker.clients u ∧ e.tx = c ∧ e.info.deviceId = d) <->
    Listed s.log u c d

theorem Roster.mem {s : BrokerRun} {u : String} (h : s.Roster u) (c : ConnId) :
    c ∈ (s.broker.clients u).map ClientConnection.tx <-> exists d, Listed s.log u c d := by
  constructor
  · intro hc
    rcases List.mem_map.mp hc with ⟨e, he, htx⟩
    exact ⟨e.info.deviceId, (h.listed c _).mp ⟨e, he, htx, rfl⟩⟩
  · rintro ⟨d, hd⟩
    rcases (h.listed c d).mpr hd with ⟨e, he, htx, _⟩
    exact List.mem_map.mpr ⟨e, he, htx⟩

theorem Roster.of_idle {s : BrokerRun} {u : String} {now : Instant} {op : BrokerCall}
    (h : s.Roster u) (hclients : (s.broker.exec now op).1.clients u = s.broker.clients u)
    (hidle : forall c d, (s.event now op).registers u c d = false ∧
      (s.event now op).supersedes u c d = false) : (s.perform now op).Roster u where
  nodup := by
    show (((s.broker.exec now op).1.clients u).map ClientConnection.tx).Nodup
    rw [hclients]
    exact h.nodup
  listed := by
    intro c d
    show (exists e, e ∈ (s.broker.exec now op).1.clients u ∧ _) <->
      Listed (s.event now op :: s.log) u c d
    rw [hclients, listed_cons, (hidle c d).1, (hidle c d).2, h.listed c d]
    simp

theorem Roster.registerClient {s : BrokerRun} {u : String} (h : s.Roster u) (now : Instant)
    (tx : ConnId) (info : ClientInfo) : (s.perform now (.registerClient u tx info)).Roster u := by
  have hclients : (s.broker.exec now (.registerClient u tx info)).1.clients u =
      AccountState.joined ⟨tx, info⟩ (s.broker.clients u) := Broker.clients_exec rfl
  by_cases hroom : tx ∈ (s.broker.clients u).map ClientConnection.tx ∨
      ¬ maxClients ≤ (s.broker.clients u).length
  · have hreply : (s.broker.exec now (.registerClient u tx info)).2 = .ok () :=
      (s.broker.registerClient_ok u tx info).mpr hroom
    have hmem : forall e, e ∈ AccountState.joined ⟨tx, info⟩ (s.broker.clients u) <->
        e = ⟨tx, info⟩ ∨ e ∈ s.broker.clients u ∧ e.tx ≠ tx :=
      AccountState.mem_joined h.nodup hroom
    constructor
    · show (((s.broker.exec now _).1.clients u).map ClientConnection.tx).Nodup
      rw [hclients]
      exact AccountState.nodup_joined h.nodup
    · intro c d
      show (exists e, e ∈ (s.broker.exec now _).1.clients u ∧ _) <-> _
      rw [hclients, perform, listed_cons, ← h.listed c d]
      simp only [event, hreply, BrokerEvent.registers, BrokerEvent.supersedes,
        hmem, true_and, decide_eq_true_eq,
        decide_eq_false_iff_not]
      constructor
      · rintro ⟨e, hnew | ⟨he, hne⟩, htx, hdevice⟩
        · subst hnew
          exact Or.inl ⟨htx, hdevice⟩
        · exact Or.inr ⟨fun heq => hne (htx.trans heq.symm), e, he, htx, hdevice⟩
      · rintro (⟨htx, hdevice⟩ | ⟨hne, e, he, htx, hdevice⟩)
        · exact ⟨⟨tx, info⟩, Or.inl rfl, htx, hdevice⟩
        · exact ⟨e, Or.inr ⟨he, fun heq => hne (heq.symm.trans htx)⟩, htx, hdevice⟩
  · refine h.of_idle (hclients.trans (AccountState.joined_refused hroom)) fun c d => ?_
    cases hreply : (s.broker.exec now (.registerClient u tx info)).2 with
    | ok done =>
        exact absurd ((s.broker.registerClient_ok u tx info).mp hreply) hroom
    | error reason =>
        simp [event, hreply, BrokerEvent.registers, BrokerEvent.supersedes]

theorem Roster.unregisterClient {s : BrokerRun} {u : String} (h : s.Roster u) (now : Instant)
    (d : String) (conn : ConnId) : (s.perform now (.unregisterClient u d conn)).Roster u := by
  have hclients : (s.broker.exec now (.unregisterClient u d conn)).1.clients u =
      (s.broker.clients u).filter fun c => !decide (c.tx = conn) := Broker.clients_exec rfl
  constructor
  · show (((s.broker.exec now _).1.clients u).map ClientConnection.tx).Nodup
    rw [hclients]
    exact h.nodup.sublist (List.filter_sublist.map _)
  · intro c device
    show (exists e, e ∈ (s.broker.exec now _).1.clients u ∧ _) <-> _
    rw [hclients, perform, listed_cons, ← h.listed c device]
    simp only [event, BrokerEvent.registers, BrokerEvent.supersedes, List.mem_filter,
      Bool.false_eq_true, false_or, true_and, decide_eq_false_iff_not, Bool.not_eq_true']
    constructor
    · rintro ⟨e, ⟨he, hne⟩, htx, hdevice⟩
      exact ⟨fun heq => hne (htx.trans heq.symm), e, he, htx, hdevice⟩
    · rintro ⟨hne, e, he, htx, hdevice⟩
      exact ⟨e, ⟨he, fun heq => hne (heq.symm.trans htx)⟩, htx, hdevice⟩

theorem Roster.unregisterDevice {s : BrokerRun} {u : String} (h : s.Roster u) (now : Instant)
    (d : String) : (s.perform now (.unregisterDevice u d)).Roster u := by
  have hclients : (s.broker.exec now (.unregisterDevice u d)).1.clients u =
      (s.broker.clients u).filter fun c => !decide (c.info.deviceId = d) :=
    Broker.clients_exec rfl
  constructor
  · show (((s.broker.exec now _).1.clients u).map ClientConnection.tx).Nodup
    rw [hclients]
    exact h.nodup.sublist (List.filter_sublist.map _)
  · intro c device
    show (exists e, e ∈ (s.broker.exec now _).1.clients u ∧ _) <-> _
    rw [hclients, perform, listed_cons, ← h.listed c device]
    simp only [event, BrokerEvent.registers, BrokerEvent.supersedes, List.mem_filter,
      Bool.false_eq_true, false_or, true_and, decide_eq_false_iff_not, Bool.not_eq_true']
    constructor
    · rintro ⟨e, ⟨he, hne⟩, htx, hdevice⟩
      exact ⟨fun heq => hne (hdevice.trans heq.symm), e, he, htx, hdevice⟩
    · rintro ⟨hne, e, he, htx, hdevice⟩
      exact ⟨e, ⟨he, fun heq => hne (heq.symm.trans hdevice)⟩, htx, hdevice⟩

theorem event_other {s : BrokerRun} {u : String} {now : Instant} {op : BrokerCall}
    (hu : op.subject? ≠ some u) (c : ConnId) (d : String) :
    (s.event now op).registers u c d = false ∧ (s.event now op).supersedes u c d = false := by
  cases op
  case registerClient v tx info =>
      have hv : v ≠ u := fun h => hu (congrArg some h)
      cases hreply : (s.broker.exec now (.registerClient v tx info)).2 <;>
        simp [event, hreply, BrokerEvent.registers, BrokerEvent.supersedes, hv]
  case unregisterClient v d' conn =>
      have hv : v ≠ u := fun h => hu (congrArg some h)
      simp [event, BrokerEvent.registers, BrokerEvent.supersedes, hv]
  case unregisterDevice v d' =>
      have hv : v ≠ u := fun h => hu (congrArg some h)
      simp [event, BrokerEvent.registers, BrokerEvent.supersedes, hv]
  all_goals exact ⟨rfl, rfl⟩

theorem Roster.perform {s : BrokerRun} {u : String} (h : s.Roster u) (now : Instant)
    (op : BrokerCall) : (s.perform now op).Roster u := by
  by_cases hu : op.subject? = some u
  · cases op
    case registerClient v tx info =>
        cases hu
        exact h.registerClient now tx info
    case unregisterClient v d conn =>
        cases hu
        exact h.unregisterClient now d conn
    case unregisterDevice v d =>
        cases hu
        exact h.unregisterDevice now d
    all_goals exact h.of_idle (Broker.clients_exec hu) fun c d => ⟨rfl, rfl⟩
  · exact h.of_idle (Broker.clients_exec_other hu) (event_other hu)

theorem Roster.background {s s' : BrokerRun} {u : String} (h : s.Roster u)
    (hquiet : Quiet s s') : s'.Roster u := by
  have hclients := Broker.clients_congr (hquiet.account u)
  exact
    { nodup := by rw [hclients]; exact h.nodup
      listed := by rw [hclients, hquiet.log]; exact h.listed }

theorem roster_init (u : String) : init.Roster u where
  nodup := List.nodup_nil
  listed := by
    intro c d
    refine iff_of_false ?_ not_standing_nil
    rintro ⟨e, he, _⟩
    cases he

theorem roster_of_runs {labels : List BrokerLabel} {s : BrokerRun} (hrun : Runs labels s)
    (u : String) : s.Roster u :=
  runs_induction (motive := fun s => s.Roster u) (roster_init u)
    (fun _ now op h _ => h.perform now op) (fun _ _ h hquiet => h.background hquiet) hrun

end BrokerRun

/-!
## Who a broadcast reaches
-/

namespace Broker

/-- A message sent to a list of connections is enqueued once to each that has a
receiver, in the order of the list. -/
theorem delivered_sendAll (b : Broker) (txs : List ConnId) (msg : WsMessage) :
    (b.sendAll txs msg).delivered =
      ((txs.filter b.alive).map fun tx => (tx, msg)).reverse ++ b.delivered := by
  unfold sendAll
  induction txs generalizing b with
  | nil => rfl
  | cons tx rest ih =>
      have halive : (b.send tx msg).1.alive = b.alive := funext (alive_send b tx msg)
      rw [List.foldl_cons, ih, delivered_send, halive]
      cases htx : b.alive tx with
      | true => simp [htx]
      | false => simp [htx]

theorem filter_delivered {txs : List ConnId} (hnodup : txs.Nodup) (alive : ConnId -> Bool)
    (msg : WsMessage) (c : ConnId) :
    ((((txs.filter alive).map fun tx => (tx, msg)).reverse).filter fun m => m.1 = c) =
      if c ∈ txs ∧ alive c = true then [(c, msg)] else [] := by
  have hcount := (hnodup.filter alive).count (a := c)
  have hcomp : ((fun m : ConnId × WsMessage => decide (m.1 = c)) ∘ fun tx => (tx, msg)) =
      fun tx => decide (tx = c) := rfl
  rw [List.filter_reverse, List.filter_map, hcomp, List.filter_eq, hcount]
  by_cases hc : c ∈ txs ∧ alive c = true
  · rw [if_pos (List.mem_filter.mpr hc), if_pos hc]
    rfl
  · rw [if_neg (fun h => hc (List.mem_filter.mp h)), if_neg hc]
    rfl

end Broker

/-!
## The end of one connection
-/

namespace AccountState

theorem holds_unregisterClient_other {st : AccountState} {c c' : ConnId} (hne : c' ≠ c)
    (place : Place) : (st.unregisterClient c).Holds place c' <-> st.Holds place c' := by
  have hretained : forall {α : Type} (t : Table String α) (owner : α -> ConnId),
      (t.retain fun e => !decide (owner e = c)).Has (fun e => owner e = c') <->
        t.Has fun e => owner e = c' := by
    intro α t owner
    constructor
    · exact Table.Has.of_retain
    · rintro ⟨k, v, hv, howner⟩
      refine ⟨k, v, Table.lookup_retain_eq_some.mpr ⟨hv, ?_⟩, howner⟩
      simp [howner, hne]
  cases place
  case clients =>
      simp only [Holds, clientTxs, unregisterClient, List.mem_map, List.mem_filter]
      constructor
      · rintro ⟨e, ⟨he, _⟩, htx⟩
        exact ⟨e, he, htx⟩
      · rintro ⟨e, he, htx⟩
        exact ⟨e, ⟨he, by simp [htx, hne]⟩, htx⟩
  case queue =>
      simp only [Holds, unregisterClient, List.mem_filter]
      constructor
      · rintro ⟨r, ⟨hr, _⟩, htx⟩
        exact ⟨r, hr, htx⟩
      · rintro ⟨r, hr, htx⟩
        exact ⟨r, ⟨hr, by simp [htx, hne]⟩, htx⟩
  case uploads => exact hretained st.uploads UploadEntry.owner
  case downloads => exact hretained st.downloads DownloadEntry.owner
  all_goals exact Iff.rfl

end AccountState

theorem Broker.holds_unregisterClient_other {b : Broker} {now : Instant} {u d : String}
    {c c' : ConnId} (hne : c' ≠ c) (v : String) (place : Place) :
    (b.exec now (.unregisterClient u d c)).1.Holds v place c' <-> b.Holds v place c' := by
  by_cases hv : v = u
  · subst hv
    have haccount := @account_exec_subject b now (.unregisterClient v d c) v rfl
    unfold Broker.Holds
    rw [haccount]
    cases b.account v with
    | none => simp [BrokerCall.creates]
    | some st =>
        simp only [BrokerCall.creates, Option.map_some, Option.some.injEq, exists_eq_left',
          Bool.false_eq_true, if_false]
        exact AccountState.holds_unregisterClient_other hne place
  · have hother : (BrokerCall.unregisterClient u d c).subject? ≠ some v :=
      fun h => hv (Option.some.inj h).symm
    exact holds_congr (account_exec_other hother) place c'

namespace BrokerRun

/-- What the clients list of an account means after a run. -/
structure FanOut (s : BrokerRun) (u : String) : Prop where
  nodup : ((s.broker.clients u).map ClientConnection.tx).Nodup
  /-- The list holds exactly the connections whose history says so. -/
  listed : forall c, c ∈ (s.broker.clients u).map ClientConnection.tx <->
    exists d, Listed s.log u c d
  /-- A broadcast other than live output goes once to each of them that still has a
  receiver, and to nobody else. -/
  broadcast : forall now msg, msg.isPtyOutput = false -> exists new,
    (s.broker.exec now (.broadcastToClients u msg)).1.delivered = new ++ s.broker.delivered ∧
      (forall c d, Listed s.log u c d -> s.broker.alive c = true ->
        (new.filter fun m => m.1 = c) = [(c, msg)]) ∧
      forall c, (forall d, ¬ Listed s.log u c d) -> (new.filter fun m => m.1 = c) = []
  /-- The end of one connection leaves every other one where it was. -/
  closing : forall now d c c', c' ≠ c ->
    (forall v place, (s.broker.exec now (.unregisterClient u d c)).1.Holds v place c' <->
      s.broker.Holds v place c') ∧
    forall e, e.tx = c' -> (e ∈ (s.broker.exec now (.unregisterClient u d c)).1.clients u <->
      e ∈ s.broker.clients u)
  /-- Each connected device is reported once. -/
  devices : ((s.broker.getConnectedClients u).map ClientInfo.deviceId).Nodup ∧
    forall d, d ∈ (s.broker.getConnectedClients u).map ClientInfo.deviceId <->
      exists c, Listed s.log u c d

theorem Roster.broadcast {s : BrokerRun} {u : String} (h : s.Roster u) (now : Instant)
    {msg : WsMessage} (hmsg : msg.isPtyOutput = false) : exists new,
    (s.broker.exec now (.broadcastToClients u msg)).1.delivered = new ++ s.broker.delivered ∧
      (forall c d, Listed s.log u c d -> s.broker.alive c = true ->
        (new.filter fun m => m.1 = c) = [(c, msg)]) ∧
      forall c, (forall d, ¬ Listed s.log u c d) -> (new.filter fun m => m.1 = c) = [] := by
  have hsent : (s.broker.exec now (.broadcastToClients u msg)).1.delivered =
      (s.broker.sendAll ((s.broker.clients u).map ClientConnection.tx) msg).delivered := by
    show (s.broker.broadcastToClients u msg).delivered = _
    unfold Broker.broadcastToClients Broker.clients Broker.entry
    cases s.broker.account u with
    | none => rfl
    | some st => simp [hmsg, AccountState.clientTxs]
  refine ⟨_, hsent.trans (Broker.delivered_sendAll _ _ _), ?_, ?_⟩
  · intro c d hd halive
    rw [Broker.filter_delivered h.nodup]
    exact if_pos ⟨(h.mem c).mpr ⟨d, hd⟩, halive⟩
  · intro c hd
    rw [Broker.filter_delivered h.nodup]
    refine if_neg fun hc => ?_
    rcases (h.mem c).mp hc.1 with ⟨d, hlisted⟩
    exact hd d hlisted

theorem Roster.devices {s : BrokerRun} {u : String} (h : s.Roster u) :
    ((s.broker.getConnectedClients u).map ClientInfo.deviceId).Nodup ∧
      forall d, d ∈ (s.broker.getConnectedClients u).map ClientInfo.deviceId <->
        exists c, Listed s.log u c d := by
  have hconnected : s.broker.getConnectedClients u =
      AccountState.dedupeByDevice [] (s.broker.clients u) := by
    unfold Broker.getConnectedClients Broker.clients Broker.entry
    cases s.broker.account u <;> rfl
  rw [hconnected]
  refine ⟨AccountState.nodup_dedupeByDevice [] _, fun d => ?_⟩
  rw [AccountState.mem_dedupeByDevice]
  constructor
  · rintro ⟨_, e, he, hdevice⟩
    exact ⟨e.tx, (h.listed e.tx d).mp ⟨e, he, rfl, hdevice⟩⟩
  · rintro ⟨c, hc⟩
    rcases (h.listed c d).mpr hc with ⟨e, he, _, hdevice⟩
    exact ⟨List.not_mem_nil, e, he, hdevice⟩

/--
After every run the clients list of an account is the one its history describes,
and broadcasts, closings and the list of connected devices go by it.
-/
theorem fan_out {labels : List BrokerLabel} {s : BrokerRun} (hrun : Runs labels s)
    (u : String) : s.FanOut u := by
  have h : s.Roster u := roster_of_runs hrun u
  refine
    { nodup := h.nodup
      listed := h.mem
      broadcast := fun now msg hmsg => h.broadcast now hmsg
      closing := ?_
      devices := h.devices }
  intro now d c c' hne
  refine ⟨fun v place => Broker.holds_unregisterClient_other hne v place, ?_⟩
  intro e he
  rw [@Broker.clients_exec s.broker now (.unregisterClient u d c) u rfl, AccountState.clientsAfter,
    List.mem_filter]
  constructor
  · exact fun h => h.1
  · exact fun h => ⟨h, by simp [he, hne]⟩

theorem fan_out_example :
    (perform (perform init 0 (.registerClient "user" 1 ⟨"phone", "Phone", "192.0.2.1", ""⟩)) 1
      (.registerClient "user" 2 ⟨"phone", "Phone", "192.0.2.1", ""⟩)).FanOut "user" :=
  have hrun : Runs [.call 0 (.registerClient "user" 1 ⟨"phone", "Phone", "192.0.2.1", ""⟩),
      .call 1 (.registerClient "user" 2 ⟨"phone", "Phone", "192.0.2.1", ""⟩)] _ := rfl
  fan_out hrun "user"

end BrokerRun

end CommandRelay
