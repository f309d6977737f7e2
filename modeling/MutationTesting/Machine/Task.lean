import MutationTesting.Machine.Kernel
/-!
# Tasks

What a process still has to do, step by step. A step looks at the kernel or changes it; a task can
also wait until the kernel allows it to go on or a moment has come, start another process, or come
to its end.

Programs are written as acts: what is done, followed by what is done with its result. The task of
a process is its act followed by its end.

## Main definitions

* `Task`, `Act` — with `Act.look`, `Act.change`, `Act.await`, `Act.fork`, `Act.finish`
* `Act.become` — what is done in the place of everything else
* `Act.retry` — again and again until there is a result
-/

namespace MutationTesting

/-- What a process still has to do. -/
inductive Task where
  | done (exit : Exit)
  | look (next : Kernel → Task)
  | put (k : Kernel) (next : Unit → Task)
  /-- Goes on when the kernel is as it should be, or when the moment has come. -/
  | wait (ready : Kernel → Bool) (moment : Option Nat) (next : Unit → Task)
  /-- Starts another process, which has the same descriptors. -/
  | fork (child : Unit → Task) (next : Nat → Task)

/-- What is done, given what is done with its result. -/
def Act (α : Type) : Type := (α → Task) → Task

namespace Act

variable {α β : Type}

instance : Monad Act where
  pure a := fun next => next a
  bind act f := fun next => act fun a => f a next

/-- Looks at the kernel. -/
def look : Act Kernel := fun next => .look next

/-- Changes the kernel with a result. -/
def access (f : Kernel → α × Kernel) : Act α := fun next =>
  .look fun k =>
    let (a, k) := f k
    .put k fun _ => next a

/-- Changes the kernel. -/
def change (f : Kernel → Kernel) : Act Unit := access fun k => ((), f k)

/-- Waits until the kernel is as it should be, or until a moment. -/
def await (ready : Kernel → Bool) (moment : Option Nat) : Act Unit := fun next =>
  .wait ready moment next

/-- Comes to an end. -/
def finish (exit : Exit) : Act α := fun _ => .done exit

/-- An act as a whole task, with an exit code for its result. -/
def task (act : Act Nat) : Task := act fun code => .done (.code (code % 256))

/-- Does something in the place of everything else that there was to do. -/
def become (act : Act Nat) : Act α := fun _ => act.task

/-- Starts a process that does something; its number. -/
def fork (act : Act Nat) : Act Nat := fun next => .fork (fun _ => act.task) next

/-- Never goes on. -/
def stall : Act α := fun _ => .wait (fun _ => false) none fun _ => .done (.code 0)

/-- Lets others go first. -/
def pause : Act Unit := await (fun _ => true) none

/-- How often something is tried again. -/
def persistence : Nat := 1000000000000

/-- Tries something again and again until there is a result. -/
def retryFor (step : Act (Option α)) : Nat → Act α
  | 0 => stall
  | n + 1 => do
    match ← step with
    | some a => return a
    | none => retryFor step n

/-- Tries something again and again until there is a result. -/
def retry (step : Act (Option α)) : Act α := retryFor step persistence

/-- Passes a value on from step to step until there is a result. -/
def iterateFor {σ : Type} (step : σ → Act (σ ⊕ α)) : Nat → σ → Act α
  | 0, _ => stall
  | n + 1, s => do
    match ← step s with
    | .inl s => iterateFor step n s
    | .inr a => return a

/-- Passes a value on from step to step until there is a result. -/
def iterate {σ : Type} (step : σ → Act (σ ⊕ α)) (start : σ) : Act α :=
  iterateFor step persistence start

end Act

end MutationTesting
