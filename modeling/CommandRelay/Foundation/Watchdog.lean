/-!
# Watchdogs

A watchdog ticks once in every period and counts the ticks since it was last fed.  A tick
that takes the count over the limit finds its charge silent.
-/

namespace CommandRelay
namespace Foundation

/-- The ticks since the last feeding, and when the next one is due. -/
structure Watchdog where
  misses : Nat
  due : Nat

namespace Watchdog

variable (period : Nat)

def start (now : Nat) : Watchdog where
  misses := 0
  due := now

def feed (w : Watchdog) : Watchdog :=
  { w with misses := 0 }

/-- However late a tick is, the next one is due a period after the last one was. -/
def tick (w : Watchdog) : Watchdog where
  misses := w.misses + 1
  due := w.due + period

/-- Where a watchdog stands that was last fed at `heard`, whose ticks are at most `slack`
late. -/
structure Keeps (slack heard clock : Nat) (w : Watchdog) : Prop where
  due_le_clock : w.due ≤ clock + period
  due_le : w.due ≤ heard + period * (w.misses + 1)
  heard_le : heard + period * w.misses ≤ w.due + slack

variable {period} {slack heard clock now limit : Nat} {w : Watchdog}

theorem keeps_start : (start now).Keeps period slack now now where
  due_le_clock := Nat.le_add_right _ _
  due_le := Nat.le_add_right _ _
  heard_le := Nat.le_add_right _ _

theorem Keeps.later (h : w.Keeps period slack heard clock) (hnow : clock ≤ now) :
    w.Keeps period slack heard now where
  due_le_clock := Nat.le_trans h.due_le_clock (Nat.add_le_add_right hnow period)
  due_le := h.due_le
  heard_le := h.heard_le

theorem Keeps.feed (h : w.Keeps period slack heard clock) (hnow : clock ≤ now)
    (hprompt : now ≤ w.due + slack) : w.feed.Keeps period slack now now where
  due_le_clock := (h.later hnow).due_le_clock
  due_le := by
    have hdue := (h.later hnow).due_le_clock
    simpa [Watchdog.feed] using hdue
  heard_le := by simpa [Watchdog.feed] using hprompt

theorem Keeps.tick (h : w.Keeps period slack heard clock) (hdue : w.due ≤ now) :
    (w.tick period).Keeps period slack heard now where
  due_le_clock := Nat.add_le_add_right hdue period
  due_le := by
    have hbefore := h.due_le
    have hmore : period * (w.misses + 1 + 1) = period * (w.misses + 1) + period :=
      Nat.mul_succ period (w.misses + 1)
    simp only [Watchdog.tick]
    omega
  heard_le := by
    have hbefore := h.heard_le
    have hmore : period * (w.misses + 1) = period * w.misses + period :=
      Nat.mul_succ period w.misses
    simp only [Watchdog.tick]
    omega

/-- While no more ticks are missed than the limit allows and the next one is not overdue,
the silence is bounded. -/
theorem Keeps.silence_le (h : w.Keeps period slack heard clock) (hmisses : w.misses ≤ limit)
    (hprompt : now ≤ w.due + slack) : now ≤ heard + period * (limit + 1) + slack := by
  have hdue := h.due_le
  have hmore : period * (w.misses + 1) ≤ period * (limit + 1) :=
    Nat.mul_le_mul_left period (Nat.succ_le_succ hmisses)
  omega

theorem Keeps.silence_ge (h : w.Keeps period slack heard clock) (hover : limit < w.misses + 1)
    (hdue : w.due ≤ now) : heard + period * limit ≤ now + slack := by
  have hheard := h.heard_le
  have hmore := Nat.mul_le_mul_left period (Nat.le_of_lt_succ hover)
  omega

end Watchdog

end Foundation
end CommandRelay
