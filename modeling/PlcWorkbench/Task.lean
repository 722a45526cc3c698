import PlcWorkbench.Failure
import PlcWorkbench.Log

/-!
# Tasks

A task works on a state, writes log entries, and succeeds with a value or fails. A failure leaves
the state as it stood when the failure arose, and keeps the entries written before it. Tasks are
sequenced as a monad; the equations `run_pure` and `run_bind` say what a sequence does.
-/

namespace PlcWorkbench

/-- What a task leaves: the state, the log entries in order, and its value or failure. -/
structure Outcome (σ α : Type) where
  state : σ
  log : List LogEntry
  result : Except Failure α

/-- An operation on a state that logs and may fail. -/
structure Task (σ α : Type) where
  run : σ → Outcome σ α

namespace Task

variable {σ τ α β : Type}

/-- Succeed and change nothing. -/
def pure (a : α) : Task σ α := ⟨fun s => ⟨s, [], .ok a⟩⟩

/-- Do one task after another; a failure of the first is the failure of both. -/
def bind (t : Task σ α) (f : α → Task σ β) : Task σ β :=
  ⟨fun s =>
    match t.run s with
    | ⟨s, log, .error cause⟩ => ⟨s, log, .error cause⟩
    | ⟨s, log, .ok a⟩ =>
      let next := (f a).run s
      ⟨next.state, log ++ next.log, next.result⟩⟩

instance : Monad (Task σ) where
  pure := Task.pure
  bind := Task.bind

/-- Fail and change nothing. -/
def fail (cause : Failure) : Task σ α := ⟨fun s => ⟨s, [], .error cause⟩⟩

/-- Succeed or fail as given, and change nothing. -/
def ofExcept (result : Except Failure α) : Task σ α := ⟨fun s => ⟨s, [], result⟩⟩

/-- Write one log entry. -/
def log (entry : LogEntry) : Task σ Unit := ⟨fun s => ⟨s, [entry], .ok ()⟩⟩

/-- The state as it stands. -/
def get : Task σ σ := ⟨fun s => ⟨s, [], .ok s⟩⟩

/-- Replace the state and succeed. -/
def modify (f : σ → σ) : Task σ Unit := ⟨fun s => ⟨f s, [], .ok ()⟩⟩

/-- Take a step that succeeds or fails and leaves a state in either case. -/
def step (f : σ → σ × Except Failure α) : Task σ α :=
  ⟨fun s =>
    let (s, result) := f s
    ⟨s, [], result⟩⟩

/-- Do a task on a part of the state. -/
def onPart (part : σ → τ) (replace : σ → τ → σ) (t : Task τ α) : Task σ α :=
  ⟨fun s =>
    let inner := t.run (part s)
    ⟨replace s inner.state, inner.log, inner.result⟩⟩

@[simp] theorem run_pure (a : α) (s : σ) : (Pure.pure a : Task σ α).run s = ⟨s, [], .ok a⟩ := rfl

@[simp] theorem run_bind (t : Task σ α) (f : α → Task σ β) (s : σ) :
    (t >>= f).run s =
      match t.run s with
      | ⟨s, log, .error cause⟩ => ⟨s, log, .error cause⟩
      | ⟨s, log, .ok a⟩ =>
        ⟨((f a).run s).state, log ++ ((f a).run s).log, ((f a).run s).result⟩ := rfl

end Task

end PlcWorkbench
