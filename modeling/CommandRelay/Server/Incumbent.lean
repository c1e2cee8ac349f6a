import CommandRelay.Server.Relay

/-!
# The registered desktop stays open

A registration tells the desktop it replaces to close.  The evicted connection keeps its
receive loop, and an account that is not its own may still have it as the desktop.
-/

namespace CommandRelay

open Foundation

def Call.registers : Call -> Bool
  | .broker (.registerDesktop ..) => true
  | _ => false

theorem Call.eq_of_registers {call : Call} (h : call.registers = true) :
    exists u tx capabilities, call = .broker (.registerDesktop u tx capabilities) := by
  unfold Call.registers at h
  split at h
  · exact ⟨_, _, _, rfl⟩
  · cases h

def RelayEvent.evicts (c : ConnId) (e : RelayEvent) : Bool :=
  e.answered.call.registers && e.enqueued.any fun m => m.1 = c && m.2.isClose

namespace Relay

section

variable (s : Relay)

def toldToClose (c : ConnId) : Bool :=
  s.log.any fun e => e.evicts c

/-- The registered desktop of every account has never been told to close. -/
def DesktopsStay : Prop :=
  forall u c, s.broker.Holds u .desktop c -> s.toldToClose c = false

/-- A connection that registers has not been evicted, and what it evicts is another
connection that no other account has as its desktop. -/
def evictsForGood : RelayLabel -> Bool
  | .resume c _ =>
      match s.upcoming c with
      | some (.broker (.registerDesktop u tx _)) =>
          !s.toldToClose tx &&
            match (s.broker.entry u).desktopTx with
            | none => true
            | some old =>
                !s.broker.alive old || old ≠ tx &&
                  s.broker.accounts.noneElse (fun st => st.desktopTx = some old) u
      | _ => true
  | _ => true

def EvictsForGood (l : RelayLabel) : Prop :=
  s.evictsForGood l = true

end

instance (s : Relay) (l : RelayLabel) : Decidable (s.EvictsForGood l) :=
  inferInstanceAs (Decidable (_ = true))

end Relay

/-!
## What a registration sends
-/

namespace Broker

variable (b : Broker)

theorem sendAll_adds (txs : List ConnId) (msg : WsMessage) : exists new,
    (b.sendAll txs msg).delivered = new ++ b.delivered ∧ forall m, m ∈ new -> m.2 = msg := by
  unfold sendAll
  induction txs generalizing b with
  | nil => exact ⟨[], rfl, fun m hm => by cases hm⟩
  | cons tx rest ih =>
      rcases ih (b.send tx msg).1 with ⟨new, hnew, hall⟩
      rw [List.foldl_cons, hnew, delivered_send]
      by_cases halive : b.alive tx = true
      · rw [if_pos halive]
        refine ⟨new ++ [(tx, msg)], by simp, fun m hm => ?_⟩
        rcases List.mem_append.mp hm with hold | hlast
        · exact hall m hold
        · rw [List.mem_singleton.mp hlast]
      · rw [if_neg halive]
        exact ⟨new, rfl, hall⟩

/-- A registration tells nobody to close but the desktop it replaces, when that one can
be reached. -/
theorem registerDesktop_closes {u : String} {tx c : ConnId}
    {capabilities : Option (List String)} {msg : WsMessage} (hclose : msg.isClose = true)
    (h : (c, msg) ∈ Relay.newlyEnqueued b (b.registerDesktop u tx capabilities)) :
    (b.entry u).desktopTx = some c ∧ b.alive c = true := by
  rcases sendAll_adds ((b.evictDesktop (b.entry u)).put u
    { b.entry u with
      desktopTx := some tx
      desktopCapabilities := capabilities
      replayQueue := []
      replayTarget := none }) (b.entry u).clientTxs (.text (.desktopStatus true capabilities))
    with ⟨new, hnew, hall⟩
  have hdelivered : (b.registerDesktop u tx capabilities).delivered =
      new ++ (b.evictDesktop (b.entry u)).delivered := hnew
  have hannounced : (c, msg) ∉ new := by
    intro hmem
    rw [show msg = _ from hall _ hmem] at hclose
    cases hclose
  cases hslot : (b.entry u).desktopTx with
  | none =>
      simp only [evictDesktop, hslot] at hdelivered
      rw [Relay.newlyEnqueued_of_append hdelivered] at h
      exact absurd h hannounced
  | some old =>
      simp only [evictDesktop, hslot, delivered_send] at hdelivered
      by_cases halive : b.alive old = true
      · rw [if_pos halive, List.append_cons] at hdelivered
        rw [Relay.newlyEnqueued_of_append hdelivered] at h
        rcases List.mem_append.mp h with hold | hlast
        · exact absurd hold hannounced
        · cases List.mem_singleton.mp hlast
          exact ⟨rfl, halive⟩
      · rw [if_neg halive] at hdelivered
        rw [Relay.newlyEnqueued_of_append hdelivered] at h
        exact absurd h hannounced

end Broker

namespace Relay

section

variable {env : Env} {s s' : Relay} {l : RelayLabel} {c : ConnId}

theorem toldToClose_step (heffect : Effect env s s' l) (htold : s'.toldToClose c = true) :
    s.toldToClose c = true ∨ exists c' a u tx capabilities, l = .resume c' a ∧
      s.upcoming c' = some (.broker (.registerDesktop u tx capabilities)) ∧
      s'.broker = s.broker.registerDesktop u tx capabilities ∧
      (s.broker.entry u).desktopTx = some c ∧ s.broker.alive c = true := by
  cases heffect with
  | none haccount hlog hclock halive =>
      unfold toldToClose at htold
      rw [hlog] at htold
      exact Or.inl htold
  | handler hclock hbusy hbroker hlog hnow =>
      rename_i c' a frame role past call next
      unfold toldToClose at htold
      rw [hlog, log_perform, List.any_cons] at htold
      rcases Bool.or_eq_true_iff.mp htold with hnew | hold
      · rcases Bool.and_eq_true_iff.mp hnew with ⟨hregisters, hsent⟩
        rcases List.any_eq_true.mp hsent with ⟨⟨d, msg⟩, hmem, hm⟩
        rcases Bool.and_eq_true_iff.mp hm with ⟨hd, hclose⟩
        cases of_decide_eq_true hd
        rcases Call.eq_of_registers hregisters with ⟨u, tx, capabilities, rfl⟩
        have hupcoming : s.upcoming c' =
            some (.broker (.registerDesktop u tx capabilities)) := by
          rw [upcoming, hbusy]
        rcases Broker.registerDesktop_closes s.broker hclose hmem with ⟨hslot, halive⟩
        exact Or.inr ⟨c', a, u, tx, capabilities, rfl, hupcoming, hbroker, hslot, halive⟩
      · exact Or.inl hold
  | cleanup hclock hbusy hcall hbroker hlog hnow =>
      unfold toldToClose at htold
      rw [hlog, log_perform, List.any_cons] at htold
      rcases Bool.or_eq_true_iff.mp htold with hnew | hold
      · have hregisters := (Bool.and_eq_true_iff.mp hnew).1
        generalize s.role _ = role at hcall
        cases hcall <;> cases hregisters
      · exact Or.inl hold

theorem desktopsStay_step (h : s.DesktopsStay) (heffect : Effect env s s' l)
    (hkeeps : s.EvictsForGood l) : s'.DesktopsStay := by
  intro v d hd
  rw [← Bool.not_eq_true]
  intro htold
  rcases toldToClose_step heffect htold with
    htold | ⟨c', a, u, tx, capabilities, rfl, hupcoming, hbroker, hslot, halive⟩
  · rcases desktop_step heffect hd with
      hheld | ⟨c', a, frame, role, past, capabilities, next, rfl, hnow, hbusy⟩
    · rw [h v d hheld] at htold
      cases htold
    · have hupcoming : s.upcoming c' =
          some (.broker (.registerDesktop v d capabilities)) := by
        rw [upcoming, hbusy]
      unfold EvictsForGood at hkeeps
      simp only [evictsForGood, hupcoming, htold] at hkeeps
      cases hkeeps
  · unfold EvictsForGood at hkeeps
    simp only [evictsForGood, hupcoming, hslot, halive] at hkeeps
    rcases Bool.and_eq_true_iff.mp hkeeps with ⟨_, hkeeps⟩
    rcases Bool.and_eq_true_iff.mp hkeeps with ⟨hother, helse⟩
    rcases hd with ⟨st, hst, hdesktop⟩
    rw [hbroker, Broker.account_registerDesktop] at hst
    by_cases hv : v = u
    · rw [if_pos hv] at hst
      cases hst
      cases hdesktop
      exact of_decide_eq_true hother rfl
    · rw [if_neg hv] at hst
      have hnot := Table.noneElse_iff.mp helse v st hst hv
      exact of_decide_eq_false hnot hdesktop

/-- In every run whose registrations evict for good, the registered desktop of every
account has never been told to close. -/
theorem desktops_stay {auth : AuthManager} {database : Database} {labels : List RelayLabel}
    (hrun : Runs env auth database labels s)
    (hok : Admits (step env) EvictsForGood (init auth database) labels) : s.DesktopsStay := by
  have hinit : (init auth database).DesktopsStay := fun _ _ _ => rfl
  exact (admitted_induction hinit (fun s l s' hs hstay hl hstep =>
    desktopsStay_step hstay (step_effect hs hstep) hl) hrun hok).2

end

/-- The desktop of the account, and whether it has been told to close. -/
def toldDesktop (s : Relay) (u : String) : Option (ConnId × Bool) :=
  ((s.account u).bind AccountState.desktopTx).map fun c => (c, s.toldToClose c)

theorem desktops_stay_example : exists s,
    Runs Deployment.env Deployment.auth Deployment.database (deskAndPhone ++ takeOver) s ∧
      s.toldDesktop "user" = some (3, false) ∧ s.toldToClose 1 = true ∧ s.DesktopsStay := by
  have hend : (Deployment.after (deskAndPhone ++ takeOver)).map
      (fun s => (s.toldDesktop "user", s.toldToClose 1)) = some (some (3, false), true) := by
    decide +kernel
  rcases Option.map_eq_some_iff.mp hend with ⟨s, hrun, hfacts⟩
  rcases Prod.mk.inj hfacts with ⟨hdesktop, htold⟩
  exact ⟨s, hrun, hdesktop, htold, desktops_stay hrun (by decide +kernel)⟩

def registersAgain : List RelayLabel :=
  Deployment.keyAuth 1 ++ Deployment.register 1

/-- It then evicts itself. -/
theorem desktop_evicts_itself : exists s,
    Runs Deployment.env Deployment.auth Deployment.database (deskAndPhone ++ registersAgain) s ∧
      s.toldDesktop "user" = some (1, true) ∧ ¬ s.DesktopsStay := by
  have hend : (Deployment.after (deskAndPhone ++ registersAgain)).map
      (fun s => s.toldDesktop "user") = some (some (1, true)) := by decide +kernel
  rcases Option.map_eq_some_iff.mp hend with ⟨s, hrun, hdesktop⟩
  refine ⟨s, hrun, hdesktop, fun hstay => ?_⟩
  rcases Option.map_eq_some_iff.mp hdesktop with ⟨c, hslot, htold⟩
  rcases Prod.mk.inj htold with ⟨rfl, htold⟩
  rcases Option.bind_eq_some_iff.mp hslot with ⟨st, hst, hc⟩
  rw [hstay "user" 1 ⟨st, hst, hc⟩] at htold
  cases htold

end Relay

end CommandRelay
