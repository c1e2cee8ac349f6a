import CommandRelay.Server.Relay

/-!
# Only a provisioned key makes a desktop

A connection that holds the role or the slot of an account's desktop has passed
the account's desktop key, as long as only connections of the synthetic desktop
device register.
-/

namespace CommandRelay

open Foundation

namespace Relay

/-- The connection has presented the account's desktop key. -/
def PassedKey (s : Relay) (c : ConnId) (u : String) : Prop :=
  exists key, s.Logged c ⟨.verifyDesktopKey u key, .ok true⟩

def registersByKey (s : Relay) : RelayLabel -> Bool
  | .receive c frame =>
      match frame.control?, s.role c with
      | some (.desktopRegister ..), .client _ d => d = "desktop"
      | _, _ => true
  | _ => true

def RegistersByKey (s : Relay) (l : RelayLabel) : Prop :=
  s.registersByKey l = true

instance (s : Relay) (l : RelayLabel) : Decidable (s.RegistersByKey l) :=
  inferInstanceAs (Decidable (_ = true))

/-- What the key has to do with roles, slots and pending registrations. -/
structure Keyed (s : Relay) : Prop where
  desktops : forall {c u}, s.role c = .desktop u -> s.PassedKey c u
  hosts : forall {c u}, s.role c = .client u "desktop" -> s.PassedKey c u
  slots : forall {c u}, s.broker.Holds u .desktop c -> s.PassedKey c u
  registering : forall {c frame u d past task version capabilities},
    s.activity c = .handling frame (.client u d) past task ->
      frame.control? = some (.desktopRegister version capabilities) -> s.PassedKey c u
  devices : forall {c d u}, s.Logged c ⟨.isDeviceRegistered d u, true⟩ -> d ≠ "desktop"

theorem PassedKey.step {env : Env} {s s' : Relay} {l : RelayLabel} {c : ConnId}
    {u : String} (h : s.PassedKey c u) (heffect : Effect env s s' l) : s'.PassedKey c u := by
  rcases h with ⟨key, hkey⟩
  exact ⟨key, hkey.step heffect⟩

theorem ne_desktop_of_registered {d u : String} {db : Database}
    (h : db.isDeviceRegistered d u = true) : d ≠ "desktop" := by
  intro hd
  subst hd
  have hkey : Database.deviceKey "desktop" = none := by decide
  simp [Database.isDeviceRegistered, Database.getDevice, hkey] at h

theorem devices_step {env : Env} {s s' : Relay} {l : RelayLabel} (h : Keyed s)
    (heffect : Effect env s s' l) {c : ConnId} {d u : String}
    (hlogged : s'.Logged c ⟨.isDeviceRegistered d u, true⟩) : d ≠ "desktop" := by
  rcases logged_step_cases heffect hlogged with hold | ⟨a, _, _, hnew⟩
  · exact h.devices hold
  · injection hnew with _ hreply
    have hregistered : (!a.dbFault && s.app.database.isDeviceRegistered d u) = true :=
      hreply.symm
    exact ne_desktop_of_registered ((Bool.and_eq_true _ _).mp hregistered).2

/-- A handler that sets a desktop's or a host's role has seen the key, or
registers under a host's role. -/
theorem passed_of_setRole {s : Relay} {c : ConnId} {frame : Inbound}
    {role new : ConnectionRole} {past : List CallAnswer}
    {next : Unit -> Handler Unit} (hs : Sound s) (h : Keyed s)
    (hbusy : s.activity c = .handling frame role past (.invoke (.setRole new) next))
    {u : String} (hnew : new = .desktop u ∨ new = .client u "desktop") :
    s.PassedKey c u := by
  have hlogged := fun answered => hs.logged hbusy answered
  cases (hs.behaves hbusy).1.permitted with
  | privately hcall => cases hcall
  | keyRole hframe hkey =>
      rename_i v key
      have hv : v = u := by simpa using hnew
      exact ⟨key, hv ▸ hlogged _ hkey⟩
  | tokenRole hframe hdevice =>
      rename_i v d
      have hd : v = u ∧ d = "desktop" := by simpa using hnew
      exact absurd hd.2 (h.devices (hlogged _ hdevice))
  | desktopRole hclient hframe hdone =>
      rename_i v d version capabilities
      have hv : v = u := by simpa using hnew
      rw [hclient] at hbusy
      exact hv ▸ h.registering hbusy hframe

theorem roles_step {env : Env} {s s' : Relay} {l : RelayLabel} (hs : Sound s) (h : Keyed s)
    (hstep : Transition env s l s') {c : ConnId} {u : String}
    (hrole : s'.role c = .desktop u ∨ s'.role c = .client u "desktop") :
    s'.PassedKey c u := by
  have heffect := step_effect hs hstep
  rcases role_step hs hstep c with hsame | ⟨hopen, _⟩ | ⟨a, frame, role, past, next, _, hbusy⟩
  · rw [hsame] at hrole
    rcases hrole with hdesktop | hhost
    · exact (h.desktops hdesktop).step heffect
    · exact (h.hosts hhost).step heffect
  · rw [hopen] at hrole
    simp at hrole
  · exact (passed_of_setRole hs h hbusy hrole).step heffect

theorem keyed_step {env : Env} {s s' : Relay} {l : RelayLabel} (hs : Sound s) (h : Keyed s)
    (hok : s.RegistersByKey l) (hstep : Transition env s l s') : Keyed s' := by
  have heffect := step_effect hs hstep
  refine
    { desktops := fun hrole => roles_step hs h hstep (Or.inl hrole)
      hosts := fun hrole => roles_step hs h hstep (Or.inr hrole)
      slots := ?_
      registering := ?_
      devices := fun hlogged => devices_step h heffect hlogged }
  · intro c u hholds
    rcases holds_step hs heffect hholds with
      hold | ⟨c', a, frame, role, past, call, next, _, hbusy, hinsert⟩ | ⟨hplace, _⟩
    · exact (h.slots hold).step heffect
    · -- Only a registration puts a connection into the slot.
      cases hinsert with
      | desktop hclient hframe =>
          rw [hclient] at hbusy
          exact (h.registering hbusy hframe).step heffect
    · cases hplace
  · intro c frame u d past task version capabilities hact hframe
    rcases handling_step hstep hact with
      hold | ⟨hlabel, _, hrole, _⟩ | ⟨a, call, before, next, _, _, hbusy, _⟩
    · exact (h.registering hold hframe).step heffect
    · subst hlabel
      have hhost : d = "desktop" := by
        simpa [RegistersByKey, registersByKey, hframe, ← hrole] using hok
      exact (h.hosts (hhost ▸ hrole.symm)).step heffect
    · exact (h.registering hbusy hframe).step heffect

theorem keyed_init (auth : AuthManager) (database : Database) :
    Keyed (init auth database) where
  desktops := fun h => by cases h
  hosts := fun h => by cases h
  slots := by
    rintro c u ⟨st, hst, _⟩
    cases hst
  registering := fun h => by cases h
  devices := by
    rintro c d u ⟨e, he, _⟩
    cases he

/--
In every run in which only the synthetic desktop device registers as a desktop,
whoever has an account's desktop role or desktop slot has passed its key.
-/
theorem desktop_passed_key {env : Env} {auth : AuthManager} {database : Database}
    {labels : List RelayLabel} {s : Relay} (hrun : Runs env auth database labels s)
    (hok : Admits (step env) RegistersByKey (init auth database) labels)
    (c : ConnId) (u : String)
    (hdesktop : s.role c = .desktop u ∨
      exists st, s.account u = some st ∧ st.desktopTx = some c) :
    s.PassedKey c u := by
  have hkeyed : Keyed s :=
    (admitted_induction (keyed_init auth database)
      (fun s l s' hs hm hl hnext => keyed_step hs hm hl hnext) hrun hok).2
  rcases hdesktop with hrole | hslot
  · exact hkeyed.desktops hrole
  · exact hkeyed.slots hslot

open Deployment in
theorem desktop_passed_key_example : exists s,
    Runs env auth database (open_ 1 :: keyAuth 1 ++ register 1) s ∧
      s.role 1 = .desktop "user" ∧ s.PassedKey 1 "user" := by
  have hend : (after (open_ 1 :: keyAuth 1 ++ register 1)).map (fun s => s.role 1) =
      some (.desktop "user") := by decide +kernel
  rcases Option.map_eq_some_iff.mp hend with ⟨s, hrun, hrole⟩
  exact ⟨s, hrun, hrole, desktop_passed_key hrun (by decide +kernel) 1 "user" (Or.inl hrole)⟩

def checksKey : Call -> Bool
  | .verifyDesktopKey .. => true
  | _ => false

/-- An approved phone that sends `desktop_register` becomes the desktop, though it
has never presented the key. -/
theorem phone_becomes_desktop : exists s,
    Runs Deployment.env Deployment.auth Deployment.database
      (Deployment.open_ 1 :: Deployment.tokenAuth 1 ++ Deployment.register 1) s ∧
      s.role 1 = .desktop "user" ∧
      (exists st, s.account "user" = some st ∧ st.desktopTx = some 1) ∧
      ¬ s.PassedKey 1 "user" := by
  have hend : (Deployment.after
        (Deployment.open_ 1 :: Deployment.tokenAuth 1 ++ Deployment.register 1)).map
      (fun s => (s.role 1, (s.account "user").map AccountState.desktopTx,
        s.log.all fun e => !checksKey e.answered.call)) =
      some (.desktop "user", some (some 1), true) := by decide +kernel
  rcases Option.map_eq_some_iff.mp hend with ⟨s, hrun, hfacts⟩
  simp only [Prod.mk.injEq] at hfacts
  rcases hfacts with ⟨hrole, hslot, hlog⟩
  refine ⟨s, hrun, hrole, Option.map_eq_some_iff.mp hslot, ?_⟩
  rintro ⟨key, e, he, _, hanswered⟩
  have hnone := List.all_eq_true.mp hlog e he
  simp [hanswered, checksKey] at hnone

end Relay

end CommandRelay
