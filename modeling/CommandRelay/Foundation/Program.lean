/-!
# Sequential programs over atomic calls

A program is a tree of atomic calls: each node issues one call and continues
with the answer.  Several programs may be interleaved over one shared state, so
a program is reasoned about through the calls it may issue, given the answers
it has received so far.
-/

namespace CommandRelay
namespace Foundation

/-- A program that issues calls one at a time and branches on their answers. -/
inductive Program (call : Type u) (reply : call -> Type v) (result : Type w) where
  | done (value : result)
  | invoke (c : call) (next : reply c -> Program call reply result)

/-- A call together with the answer it received. -/
structure Answered (call : Type u) (reply : call -> Type v) where
  call : call
  reply : reply call

namespace Program

variable {call : Type u} {reply : call -> Type v}

def bind {α β : Type w} : Program call reply α -> (α -> Program call reply β) ->
    Program call reply β
  | done value, f => f value
  | invoke c next, f => invoke c fun r => (next r).bind f

instance : Monad (Program call reply) where
  pure := done
  bind := bind

def perform (c : call) : Program call reply (reply c) :=
  invoke c done

@[simp] theorem pure_eq_done {α : Type w} (value : α) :
    (pure value : Program call reply α) = done value := rfl

@[simp] theorem done_bind {α β : Type w} (value : α)
    (f : α -> Program call reply β) :
    ((done value : Program call reply α) >>= f) = f value := rfl

@[simp] theorem invoke_bind {α β : Type w} (c : call)
    (next : reply c -> Program call reply α) (f : α -> Program call reply β) :
    ((invoke c next : Program call reply α) >>= f) =
      invoke c (fun r => next r >>= f) := rfl

def run {σ : Type w'} (exec : σ -> (c : call) -> σ × reply c) {α : Type w} :
    σ -> Program call reply α -> σ × α
  | s, done value => (s, value)
  | s, invoke c next => run exec (exec s c).1 (next (exec s c).2)

theorem run_perform_bind {σ : Type w'} {exec : σ -> (c : call) -> σ × reply c} {α : Type v}
    {s : σ} {c : call} {f : reply c -> Program call reply α} :
    run exec s (perform c >>= f) = run exec (exec s c).1 (f (exec s c).2) := rfl

/-- The result of a program whose calls are answered one after another. -/
def answeredBy (answer : Nat -> (c : call) -> reply c) {α : Type w} :
    Nat -> Program call reply α -> α
  | _, done value => value
  | n, invoke c next => answeredBy answer (n + 1) (next (answer n c))

theorem answeredBy_perform_bind {answer : Nat -> (c : call) -> reply c} {β : Type v}
    {n : Nat} {c : call} {f : reply c -> Program call reply β} :
    answeredBy answer n (perform c >>= f) = answeredBy answer (n + 1) (f (answer n c)) := rfl

/-!
## Obedience

A program obeys a discipline when every call it can issue is allowed after the
answers it has received, whatever those answers are.  The answers are listed
newest first.
-/

def Obeys {α : Type w} (allowed : List (Answered call reply) -> call -> Prop) :
    List (Answered call reply) -> Program call reply α ->
    (List (Answered call reply) -> α -> Prop) -> Prop
  | past, done value, post => post past value
  | past, invoke c next, post =>
      allowed past c ∧ forall r, Obeys allowed (⟨c, r⟩ :: past) (next r) post

section Obeys

variable {α β : Type w} {allowed : List (Answered call reply) -> call -> Prop}
  {past : List (Answered call reply)}

@[simp] theorem obeys_done {value : α}
    {post : List (Answered call reply) -> α -> Prop} :
    Obeys allowed past (done value) post <-> post past value := Iff.rfl

@[simp] theorem obeys_invoke {c : call} {next : reply c -> Program call reply α}
    {post : List (Answered call reply) -> α -> Prop} :
    Obeys allowed past (invoke c next) post <->
      allowed past c ∧
        forall r, Obeys allowed (⟨c, r⟩ :: past) (next r) post := Iff.rfl

@[simp] theorem obeys_perform {c : call}
    {post : List (Answered call reply) -> reply c -> Prop} :
    Obeys allowed past (perform c) post <->
      allowed past c ∧ forall r, post (⟨c, r⟩ :: past) r := Iff.rfl

@[simp] theorem obeys_bind {p : Program call reply α}
    {f : α -> Program call reply β}
    {post : List (Answered call reply) -> β -> Prop} :
    Obeys allowed past (p >>= f) post <->
      Obeys allowed past p (fun past' value => Obeys allowed past' (f value) post) := by
  induction p generalizing past with
  | done value => exact Iff.rfl
  | invoke c next ih =>
      constructor
      · intro h
        exact ⟨h.1, fun r => (ih r).mp (h.2 r)⟩
      · intro h
        exact ⟨h.1, fun r => (ih r).mpr (h.2 r)⟩

theorem Obeys.mono {allowed' : List (Answered call reply) -> call -> Prop}
    {post : List (Answered call reply) -> α -> Prop} {p : Program call reply α}
    (h : Obeys allowed past p post) (himp : forall past c, allowed past c -> allowed' past c) :
    Obeys allowed' past p post := by
  induction p generalizing past with
  | done value => exact h
  | invoke c next ih => exact ⟨himp past c h.1, fun r => ih r (h.2 r)⟩

theorem obeys_of_forall {p : Program call reply α} (h : forall past c, allowed past c) :
    Obeys allowed past p fun _ _ => True := by
  induction p generalizing past with
  | done value => trivial
  | invoke c next ih => exact ⟨h past c, fun r => ih r⟩

end Obeys

end Program

end Foundation
end CommandRelay
