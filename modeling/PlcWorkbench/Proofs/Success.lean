import PlcWorkbench.Task

/-!
# Operations that succeed

A composed operation that succeeds comes apart: each of its parts succeeded.
-/

namespace PlcWorkbench

/-- A result that is passed on succeeds if it does. -/
theorem map_eq_ok_iff {ε α β : Type} {x : Except ε α} {f : α → β} {b : β} :
    x.map f = .ok b ↔ ∃ a, x = .ok a ∧ f a = b := by
  cases x with
  | error cause => simp [Except.map]
  | ok a => simp [Except.map]

/-- A result that is passed on fails as it does. -/
theorem map_eq_error_iff {ε α β : Type} {x : Except ε α} {f : α → β} {cause : ε} :
    x.map f = .error cause ↔ x = .error cause := by
  cases x with
  | error cause' => simp [Except.map]
  | ok a => simp [Except.map]

namespace Task

variable {σ τ α β : Type} {t : Task σ α} {f : α → Task σ β} {s : σ} {b : β}

/-! ## Single tasks -/

@[simp] theorem run_ofExcept (result : Except Failure α) (s : σ) :
    (ofExcept result).run s = ⟨s, [], result⟩ := rfl

@[simp] theorem run_log (entry : LogEntry) (s : σ) : (log entry).run s = ⟨s, [entry], .ok ()⟩ := rfl

@[simp] theorem run_get (s : σ) : get.run s = ⟨s, [], .ok s⟩ := rfl

@[simp] theorem run_step (step' : σ → σ × Except Failure α) (s : σ) :
    (step step').run s = ⟨(step' s).1, [], (step' s).2⟩ := rfl

theorem run_onPart (part : σ → τ) (replace : σ → τ → σ) (inner : Task τ α) (s : σ) :
    (onPart part replace inner).run s
      = ⟨replace s (inner.run (part s)).state, (inner.run (part s)).log,
          (inner.run (part s)).result⟩ := rfl

/-! ## Success -/

/-- Started in a state, the task succeeds with a value and leaves a state. -/
def Succeeds (t : Task σ α) (s : σ) (a : α) (s' : σ) : Prop := ∃ log, t.run s = ⟨s', log, .ok a⟩

/-- What the task leaves says whether it succeeds. -/
theorem succeeds_iff {a : α} {s' : σ} :
    t.Succeeds s a s' ↔ (t.run s).result = .ok a ∧ (t.run s).state = s' := by
  rw [Succeeds]
  rcases t.run s with ⟨left, log, result⟩
  constructor
  · rintro ⟨log', heq⟩
    cases heq
    exact ⟨rfl, rfl⟩
  · rintro ⟨rfl, rfl⟩
    exact ⟨log, rfl⟩

/-- A task that is done already. -/
theorem succeeds_pure_iff {a a' : α} {s' : σ} :
    (Pure.pure a : Task σ α).Succeeds s a' s' ↔ a' = a ∧ s' = s := by
  rw [succeeds_iff, run_pure, Except.ok.injEq, eq_comm, @eq_comm _ s]

/-- A sequence succeeds if both tasks do, the second from where the first ends. -/
theorem succeeds_bind_iff {s'' : σ} :
    (t >>= f).Succeeds s b s'' ↔ ∃ a s', t.Succeeds s a s' ∧ (f a).Succeeds s' b s'' := by
  simp only [succeeds_iff, run_bind]
  rcases t.run s with ⟨s', log, cause | a⟩
  · simp
  · constructor
    · exact fun h => ⟨a, s', ⟨rfl, rfl⟩, h⟩
    · rintro ⟨a, s', ⟨heq, rfl⟩, h⟩
      cases heq
      exact h

/-- Two tasks that succeed in a row. -/
theorem Succeeds.bind {a : α} {s' s'' : σ} (ht : t.Succeeds s a s') (hf : (f a).Succeeds s' b s'') :
    (t >>= f).Succeeds s b s'' :=
  succeeds_bind_iff.2 ⟨a, s', ht, hf⟩

theorem succeeds_pure (a : α) (s : σ) : (Pure.pure a : Task σ α).Succeeds s a s := ⟨[], rfl⟩

theorem succeeds_log (entry : LogEntry) (s : σ) : (log entry).Succeeds s () s := ⟨[entry], rfl⟩

theorem succeeds_get (s : σ) : get.Succeeds s s s := ⟨[], rfl⟩

theorem succeeds_modify (change : σ → σ) (s : σ) : (modify change).Succeeds s () (change s) :=
  ⟨[], rfl⟩

/-- A step succeeds if it ends well. -/
theorem succeeds_step_iff {change : σ → σ × Except Failure α} {a : α} {s' : σ} :
    (step change).Succeeds s a s' ↔ change s = (s', .ok a) := by
  rw [succeeds_iff, run_step, Prod.ext_iff, and_comm]

/-- A step that ends well. -/
theorem succeeds_step {change : σ → σ × Except Failure α} {a : α} {s' : σ}
    (h : change s = (s', .ok a)) : (step change).Succeeds s a s' :=
  succeeds_step_iff.2 h

/-- A result succeeds with its value. -/
theorem succeeds_ofExcept_iff {result : Except Failure α} {a : α} {s' : σ} :
    (ofExcept result).Succeeds s a s' ↔ result = .ok a ∧ s = s' :=
  succeeds_iff

/-- A task on a part of the state. -/
theorem Succeeds.onPart {inner : Task τ α} {part : σ → τ} {a : α} {x : τ}
    (h : inner.Succeeds (part s) a x) (replace : σ → τ → σ) :
    (onPart part replace inner).Succeeds s a (replace s x) := by
  obtain ⟨log, hrun⟩ := h
  refine ⟨log, ?_⟩
  rw [run_onPart, hrun]

/-- A task succeeds in one way. -/
theorem Succeeds.unique {a a' : α} {s' s'' : σ} (h : t.Succeeds s a s') (h' : t.Succeeds s a' s'') :
    a = a' ∧ s' = s'' := by
  rw [succeeds_iff] at h h'
  rw [h.1, h.2] at h'
  exact ⟨Except.ok.inj h'.1, h'.2⟩

/-- After a task that succeeds, it is up to the next one whether a sequence does. -/
theorem Succeeds.bind_iff {a : α} {s' s'' : σ} (h : t.Succeeds s a s') :
    (t >>= f).Succeeds s b s'' ↔ (f a).Succeeds s' b s'' := by
  rw [succeeds_bind_iff]
  constructor
  · rintro ⟨a', between, first, later⟩
    obtain ⟨rfl, rfl⟩ := h.unique first
    exact later
  · exact fun later => ⟨a, s', h, later⟩

/-- After a task that succeeds, a sequence goes on from where the task ends. -/
theorem Succeeds.run_bind {a : α} {s' : σ} (h : t.Succeeds s a s') :
    ((t >>= f).run s).state = ((f a).run s').state ∧ ((t >>= f).run s).result
      = ((f a).run s').result := by
  obtain ⟨log, hrun⟩ := h
  rw [Task.run_bind, hrun]
  exact ⟨rfl, rfl⟩

end Task

end PlcWorkbench
