/-!
# Gated streams

A gate lets offered items pass until one of them would exceed its capacity.  It
then raises one alarm and withholds every item until it is reopened.  Other items
may go past the gate at any time.  A history keeps what happened at a gate, newest
first.
-/

namespace CommandRelay
namespace Foundation

inductive GateEvent (item : Type u) where
  /-- An item is offered while the stream behind the gate holds a load. -/
  | offer (x : item) (load : Nat) (passed alarm : Bool)
  | reopen
  /-- Items go past the gate, newest first. -/
  | bypass (xs : List item)

/-- An event, and whether the gate is closed after it. -/
structure GateEntry (item : Type u) where
  event : GateEvent item
  closed : Bool

namespace GateEntry

variable {item : Type u}

def reopens (e : GateEntry item) : Bool :=
  match e.event with
  | .reopen => true
  | _ => false

def alarms (e : GateEntry item) : Bool :=
  match e.event with
  | .offer _ _ _ alarm => alarm
  | _ => false

def output (e : GateEntry item) : List item :=
  match e.event with
  | .offer x _ passed _ => if passed then [x] else []
  | .reopen => []
  | .bypass xs => xs

end GateEntry

namespace Gate

variable {item : Type u}

def closedAfter : List (GateEntry item) -> Bool
  | [] => false
  | e :: _ => e.closed

def stream : List (GateEntry item) -> List item
  | [] => []
  | e :: rest => e.output ++ stream rest

variable (capacity : Nat) (size : item -> Nat)

def overflows (load : Nat) (x : item) : Bool :=
  capacity < load + size x

def Follows (before : Bool) (e : GateEntry item) : Prop :=
  match e.event with
  | .offer x load passed alarm =>
      passed = (!before && !overflows capacity size load x) ∧
        alarm = (!before && overflows capacity size load x) ∧
        e.closed = (before || overflows capacity size load x)
  | .reopen => e.closed = true -> before = true
  | .bypass _ => e.closed = before

/-- Every entry of the history follows from the one before it. -/
def Lawful : List (GateEntry item) -> Prop
  | [] => True
  | e :: rest => Follows capacity size (closedAfter rest) e ∧ Lawful rest

variable {capacity : Nat} {size : item -> Nat}

theorem lawful_of_append {later history : List (GateEntry item)}
    (h : Lawful capacity size (later ++ history)) : Lawful capacity size history := by
  induction later with
  | nil => exact h
  | cons e rest ih => exact ih h.2

theorem closed_of_kept {mid history : List (GateEntry item)}
    (h : Lawful capacity size (mid ++ history)) (hclosed : closedAfter history = true)
    (hmid : forall e, e ∈ mid -> e.reopens = false) : closedAfter (mid ++ history) = true := by
  induction mid with
  | nil => exact hclosed
  | cons e rest ih =>
      have hrest := ih h.2 fun e' he' => hmid e' (List.mem_cons_of_mem e he')
      have hkept := hmid e List.mem_cons_self
      have hfollows : Follows capacity size (closedAfter (rest ++ history)) e := h.1
      rw [hrest] at hfollows
      rcases e with ⟨event, closed⟩
      cases event with
      | offer x load passed alarm => simpa [closedAfter] using hfollows.2.2
      | reopen => cases hkept
      | bypass xs => exact hfollows

theorem reopened_between {later mid before : List (GateEntry item)} {x y : item}
    {loadx loady : Nat} {alarmx alarmy closedx closedy : Bool}
    (h : Lawful capacity size (later ++ ⟨.offer y loady true alarmy, closedy⟩ :: (mid ++
      ⟨.offer x loadx false alarmx, closedx⟩ :: before))) :
    exists e, e ∈ mid ∧ e.reopens = true := by
  have hpassed := lawful_of_append h
  have hwithheld := lawful_of_append hpassed.2
  have hclosed : closedx = true := by
    have hx := hwithheld.1
    cases hbefore : closedAfter before <;> simp [Follows, hbefore] at hx
    · simp [hx]
    · exact hx.2
  by_cases hmid : forall e, e ∈ mid -> e.reopens = false
  · have hkept := closed_of_kept hpassed.2 hclosed hmid
    have hy := hpassed.1.1
    rw [hkept] at hy
    simp at hy
  · rcases Classical.not_forall.mp hmid with ⟨e, he⟩
    rw [Classical.not_imp, Bool.not_eq_false] at he
    exact ⟨e, he⟩

theorem withheld_cases {later before : List (GateEntry item)} {x : item} {load : Nat}
    {alarm closed : Bool}
    (h : Lawful capacity size (later ++ ⟨.offer x load false alarm, closed⟩ :: before)) :
    closedAfter before = true ∨ capacity < load + size x := by
  have hx := (lawful_of_append h).1.1
  cases hbefore : closedAfter before with
  | true => exact Or.inl rfl
  | false =>
      rw [hbefore] at hx
      right
      simpa [overflows] using hx

theorem one_alarm {period before : List (GateEntry item)}
    (h : Lawful capacity size (period ++ before)) (hopen : closedAfter before = false)
    (hsome : period ≠ []) (hclosed : forall e, e ∈ period -> e.closed = true) :
    (period.filter GateEntry.alarms).length = 1 := by
  induction period with
  | nil => exact absurd rfl hsome
  | cons e rest ih =>
      have hfollows : Follows capacity size (closedAfter (rest ++ before)) e := h.1
      have he := hclosed e List.mem_cons_self
      rcases e with ⟨event, closed⟩
      cases rest with
      | nil =>
          rw [List.nil_append, hopen] at hfollows
          cases event with
          | offer x load passed alarm =>
              have hover : overflows capacity size load x = true := by
                have hc := hfollows.2.2
                rw [he] at hc
                simpa using hc.symm
              have halarm := hfollows.2.1
              rw [hover] at halarm
              have hraised : GateEntry.alarms ⟨.offer x load passed alarm, closed⟩ = true :=
                halarm
              rw [List.filter_cons_of_pos hraised]
              rfl
          | reopen => exact absurd (hfollows he) (by simp)
          | bypass xs => exact absurd (he.symm.trans hfollows) (by simp)
      | cons first tail =>
          have hrest := ih h.2 (by simp) fun e' he' => hclosed e' (List.mem_cons_of_mem _ he')
          have hbefore : closedAfter (first :: tail ++ before) = true :=
            hclosed first (List.mem_cons_of_mem _ List.mem_cons_self)
          have hquiet : GateEntry.alarms ⟨event, closed⟩ = false := by
            rw [hbefore] at hfollows
            cases event with
            | offer x load passed alarm => simpa [GateEntry.alarms] using hfollows.2.1
            | reopen => rfl
            | bypass xs => rfl
          rw [List.filter_cons_of_neg (by rw [hquiet]; simp)]
          exact hrest

end Gate

end Foundation
end CommandRelay
