import CommandRelay.Foundation.Program

/-!
# Programs of bounded cost

Every call has a cost.  A program costs at most a number when no path through it costs
more, whatever the answers are.
-/

namespace CommandRelay
namespace Foundation
namespace Program

variable {call : Type u} {reply : call -> Type v}

def CostAtMost {α : Type w} (cost : call -> Nat) : Nat -> Program call reply α -> Prop
  | _, done _ => True
  | n, invoke c next => cost c ≤ n ∧ forall r, CostAtMost cost (n - cost c) (next r)

section

variable {α : Type w} {cost : call -> Nat} {m n : Nat} {p : Program call reply α}

theorem CostAtMost.mono (h : p.CostAtMost cost m) (hle : m ≤ n) : p.CostAtMost cost n := by
  induction p generalizing m n with
  | done value => trivial
  | invoke c next ih =>
      exact ⟨Nat.le_trans h.1 hle, fun r => ih r (h.2 r) (Nat.sub_le_sub_right hle _)⟩

theorem costAtMost_invoke {c : call} {next : reply c -> Program call reply α}
    (hcost : cost c + m ≤ n) (hnext : forall r, (next r).CostAtMost cost m) :
    (invoke c next).CostAtMost cost n :=
  ⟨Nat.le_trans (Nat.le_add_right _ m) hcost, fun r => (hnext r).mono (by omega)⟩

end

end Program
end Foundation
end CommandRelay
