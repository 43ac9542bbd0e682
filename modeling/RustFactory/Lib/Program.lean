import RustFactory.Lib.Machine

/-!
# Programs that issue commands

A program issues commands to a shared system, one at a time, and goes on with the answer.  Several
programs over one system form a pool; its steps are single commands, so that a run of the pool is an
interleaving of the programs at the granularity of commands.

`Pool.invariant_run` is the rule for invariants: what holds of each program and the system is kept by
the program's own commands and not disturbed by those of the others.
-/

namespace RustFactory.Lib

/-- A program with commands `κ`, answers `ρ` and results `α`. -/
inductive Program (κ ρ α : Type) where
  | done (result : α)
  | call (command : κ) (next : ρ → Program κ ρ α)

namespace Program

variable {κ ρ α β : Type}

def bind (f : α → Program κ ρ β) : Program κ ρ α → Program κ ρ β
  | .done result => f result
  | .call command next => .call command fun answer => (next answer).bind f

instance : Monad (Program κ ρ) where
  pure := .done
  bind program f := program.bind f

/-- The program that issues one command and returns the answer. -/
def issue (command : κ) : Program κ ρ ρ := .call command .done

@[simp] theorem done_bind (result : α) (f : α → Program κ ρ β) :
    ((Program.done result : Program κ ρ α) >>= f) = f result := rfl

@[simp] theorem call_bind (command : κ) (next : ρ → Program κ ρ α) (f : α → Program κ ρ β) :
    (Program.call command next >>= f) = .call command fun answer => next answer >>= f := rfl

/-! ## Runs against an arbitrary system -/

/-- The commands that a program issues, with their answers, and its result.  An answer may depend on
everything that was issued before. -/
def run (oracle : List (κ × ρ) → κ → ρ) (history : List (κ × ρ)) :
    Program κ ρ α → List (κ × ρ) × α
  | .done result => ([], result)
  | .call command next =>
    let event := (command, oracle history command)
    let (events, result) := (next event.2).run oracle (history ++ [event])
    (event :: events, result)

/-- Every command is allowed after the one that was issued directly before it, whatever the answers. -/
def Obeys (allowed : Option (κ × ρ) → κ → Prop) :
    Program κ ρ α → Option (κ × ρ) → Prop
  | .done _, _ => True
  | .call command next, last =>
    allowed last command ∧ ∀ answer, (next answer).Obeys allowed (some (command, answer))

theorem Obeys.bind {allowed : Option (κ × ρ) → κ → Prop} {program : Program κ ρ α}
    {last : Option (κ × ρ)} (h : program.Obeys allowed last) {f : α → Program κ ρ β}
    (hf : ∀ result last, (f result).Obeys allowed last) : (program >>= f).Obeys allowed last := by
  induction program generalizing last with
  | done result => exact hf result last
  | call command next ih => exact ⟨h.1, fun answer => ih answer (h.2 answer)⟩

/-- In every run, a command is allowed after the last one before it. -/
theorem Obeys.run {allowed : Option (κ × ρ) → κ → Prop} {program : Program κ ρ α}
    {last : Option (κ × ρ)} (h : program.Obeys allowed last) (oracle : List (κ × ρ) → κ → ρ)
    (history : List (κ × ρ)) {before after : List (κ × ρ)} {command : κ} {answer : ρ}
    (hevents : (program.run oracle history).1 = before ++ (command, answer) :: after) :
    allowed (before.getLast?.or last) command := by
  induction program generalizing last history before with
  | done result =>
    cases before with
    | nil => cases hevents
    | cons event before => cases hevents
  | call first next ih =>
    cases before with
    | nil =>
      rw [List.nil_append] at hevents
      cases hevents
      exact h.1
    | cons event before =>
      rw [List.cons_append] at hevents
      obtain ⟨rfl, hrest⟩ := List.cons.inj hevents
      have hnext := ih _ (h.2 _) _ hrest
      rw [Option.or_some] at hnext
      rw [List.getLast?_cons, Option.some_or]
      exact hnext

/-! ## Programs that come to an end -/

/-- The program issues at most so many commands, whatever the answers. -/
def Within : ℕ → Program κ ρ α → Prop
  | _, .done _ => True
  | 0, .call _ _ => False
  | n + 1, .call _ next => ∀ answer, (next answer).Within n

theorem Within.mono {m n : ℕ} {program : Program κ ρ α} (h : program.Within m) (hle : m ≤ n) :
    program.Within n := by
  induction program generalizing m n with
  | done result => cases n <;> trivial
  | call command next ih =>
    cases m with
    | zero => exact h.elim
    | succ m =>
      obtain ⟨n, rfl⟩ := Nat.exists_eq_add_of_lt hle
      exact fun answer => ih answer (h answer) (Nat.le_add_right _ _)

theorem Within.bind {m n : ℕ} {program : Program κ ρ α} (h : program.Within m)
    {f : α → Program κ ρ β} (hf : ∀ result, (f result).Within n) : (program >>= f).Within (m + n) := by
  induction program generalizing m with
  | done result => exact (hf result).mono (Nat.le_add_left _ _)
  | call command next ih =>
    cases m with
    | zero => exact h.elim
    | succ m =>
      rw [call_bind, Nat.add_right_comm]
      exact fun answer => ih answer (h answer)

end Program

/-- Programs `ι` over a shared system with states `σ`. -/
structure Pool (σ ι κ ρ α : Type) where
  shared : σ
  programs : ι → Program κ ρ α

namespace Pool

variable {σ ι χ κ ρ α : Type} [DecidableEq ι]

/-- The pool as a machine.  An input names a program and what the system chooses when it executes the
program's next command. -/
def machine (exec : σ → χ → κ → ρ × σ) :
    Machine (Pool σ ι κ ρ α) (ι × χ) (Option (κ × ρ)) where
  step pool input :=
    match pool.programs input.1 with
    | .done _ => (none, pool)
    | .call command next =>
      let (answer, shared) := exec pool.shared input.2 command
      (some (command, answer), ⟨shared, Function.update pool.programs input.1 (next answer)⟩)

variable {exec : σ → χ → κ → ρ × σ}

theorem step_done {pool : Pool σ ι κ ρ α} {input : ι × χ} {result : α}
    (h : pool.programs input.1 = .done result) : ((machine exec).step pool input).2 = pool := by
  unfold machine
  simp only [h]

theorem step_call {pool : Pool σ ι κ ρ α} {input : ι × χ} {command : κ}
    {next : ρ → Program κ ρ α} (h : pool.programs input.1 = .call command next) :
    ((machine exec).step pool input).2 =
      ⟨(exec pool.shared input.2 command).2, Function.update pool.programs input.1
        (next (exec pool.shared input.2 command).1)⟩ := by
  unfold machine
  simp only [h]

theorem final_call {pool : Pool σ ι κ ρ α} {i : ι} {command : κ} {next : ρ → Program κ ρ α}
    (h : pool.programs i = .call command next) (choice : χ) (inputs : List (ι × χ)) :
    (machine exec).final pool ((i, choice) :: inputs) =
      (machine exec).final ⟨(exec pool.shared choice command).2,
        Function.update pool.programs i (next (exec pool.shared choice command).1)⟩ inputs := by
  rw [Machine.final_cons, step_call h]

theorem final_update_call (shared : σ) (programs : ι → Program κ ρ α) (i : ι) (command : κ)
    (next : ρ → Program κ ρ α) (choice : χ) (inputs : List (ι × χ)) :
    (machine exec).final ⟨shared, Function.update programs i (.call command next)⟩
        ((i, choice) :: inputs) =
      (machine exec).final ⟨(exec shared choice command).2,
        Function.update programs i (next (exec shared choice command).1)⟩ inputs := by
  rw [final_call (Function.update_self _ _ _), Function.update_idem]

/-- The rule for invariants.  `P` is about the system and `Q` about one program and the system; a
command of a program keeps both for the program itself and `Q` for the others.  `allowed` restricts
the steps of the run. -/
theorem invariant_run {P : σ → Prop} {Q : σ → ι → Program κ ρ α → Prop}
    {allowed : Pool σ ι κ ρ α → ι × χ → Prop}
    (hstep : ∀ pool input command next, P pool.shared →
      Q pool.shared input.1 (.call command next) →
      pool.programs input.1 = .call command next → allowed pool input →
      P (exec pool.shared input.2 command).2 ∧
        Q (exec pool.shared input.2 command).2 input.1
          (next (exec pool.shared input.2 command).1) ∧
        ∀ i program, Q pool.shared i program → Q (exec pool.shared input.2 command).2 i program)
    {pool : Pool σ ι κ ρ α} (hshared : P pool.shared)
    (hprograms : ∀ i, Q pool.shared i (pool.programs i)) {inputs : List (ι × χ)}
    (hallowed : ∀ pre input post, inputs = pre ++ input :: post →
      allowed ((machine exec).final pool pre) input) :
    P ((machine exec).final pool inputs).shared ∧
      ∀ i, Q ((machine exec).final pool inputs).shared i
        (((machine exec).final pool inputs).programs i) := by
  induction inputs generalizing pool with
  | nil => exact ⟨hshared, hprograms⟩
  | cons input inputs ih =>
    rw [Machine.final_cons]
    have hrest : ∀ pre input' post, inputs = pre ++ input' :: post →
        allowed ((machine exec).final ((machine exec).step pool input).2 pre) input' :=
      fun pre input' post heq => hallowed (input :: pre) input' post (by rw [heq]; rfl)
    cases hprogram : pool.programs input.1 with
    | done result =>
      rw [step_done hprogram] at hrest ⊢
      exact ih hshared hprograms hrest
    | call command next =>
      obtain ⟨hshared', hself, hothers⟩ := hstep pool input command next hshared
        (hprogram ▸ hprograms input.1) hprogram (hallowed [] input inputs rfl)
      rw [step_call hprogram] at hrest ⊢
      refine ih hshared' (fun i => ?_) hrest
      change Q _ i (Function.update pool.programs input.1 _ i)
      by_cases hi : i = input.1
      · subst hi
        rw [Function.update_self]
        exact hself
      · rw [Function.update_of_ne hi]
        exact hothers i _ (hprograms i)

end Pool

end RustFactory.Lib
