import RustFactory.Lib.Except

/-!
# Updates in place

A function that changes a state in place may fail after some of its writes, and then they stay.
`Update.keeping` is the answer of one that has written nothing when it fails; a body whose checks
all come before its first write is shown to give it by peeling off one check after the other.
-/

namespace RustFactory.Lib

/-- A function that writes to a state and may stop with an error at any statement. -/
abbrev Update (σ ε : Type) := ExceptT ε (StateM σ)

namespace Update

variable {σ ε α β : Type}

/-- The answer, and the state as it is left. -/
def exec (body : Update σ ε α) (s : σ) : Except ε α × σ := body.run.run s

/-- A check that reads nothing but its arguments. -/
def check (x : Except ε α) : Update σ ε α := ExceptT.mk (pure x)

/-- The state as it is. -/
def read : Update σ ε σ := get

def write (g : σ → σ) : Update σ ε PUnit := modify g

/-- The answer and the state of a function that leaves the state alone when it fails. -/
def keeping (s : σ) : Except ε (α × σ) → Except ε α × σ
  | .ok (a, s') => (.ok a, s')
  | .error e => (.error e, s)

theorem exec_pure (a : α) (s : σ) : exec (pure a : Update σ ε α) s = (.ok a, s) := rfl

theorem exec_bind (x : Update σ ε α) (f : α → Update σ ε β) (s : σ) :
    exec (x >>= f) s = match exec x s with
      | (.ok a, after) => exec (f a) after
      | (.error e, after) => (.error e, after) := by
  unfold exec
  rw [ExceptT.run_bind, StateT.run_bind]
  show StateT.run _ (StateT.run x.run s).2 = _
  rcases StateT.run x.run s with ⟨answer, after⟩
  cases answer <;> rfl

theorem exec_read_bind (f : σ → Update σ ε α) (s : σ) : exec (read >>= f) s = exec (f s) s := rfl

theorem exec_write_bind (g : σ → σ) (f : PUnit → Update σ ε α) (s : σ) :
    exec (write g >>= f) s = exec (f ⟨⟩) (g s) := rfl

theorem exec_check_keeping {x : Except ε α} {f : α → Update σ ε β}
    {g : α → Except ε (β × σ)} {s : σ} (h : ∀ a, exec (f a) s = keeping s (g a)) :
    exec (check x >>= f) s = keeping s (x >>= g) := by
  cases x with
  | error e => rfl
  | ok a => exact h a

theorem keeping_of_error {s : σ} {x : Except ε (α × σ)} {e : ε} (h : (keeping s x).1 = .error e) :
    (keeping s x).2 = s := by
  cases x with
  | error e => rfl
  | ok a => cases h

theorem keeping_of_ok {s : σ} {x : Except ε (α × σ)} {a : α} (h : (keeping s x).1 = .ok a)
    (hkeeps : ∀ s', x = .ok (a, s') → s' = s) : (keeping s x).2 = s := by
  cases x with
  | error e => cases h
  | ok result =>
    cases h
    exact hkeeps result.2 rfl

end Update

end RustFactory.Lib
