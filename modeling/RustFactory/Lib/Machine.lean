import Mathlib

/-!
# Deterministic machines and their runs

A machine answers every input from its current state and moves on.  A run feeds it a list of
inputs; an interleaving of several callers is a run over the inputs in the order in which they
took effect.

`invariant_final` carries a property from the initial state to every state of a run, and
`outputs_eq_of_simulation` says that two machines related by a simulation answer every input
sequence alike.  `outputsOf_eq_outputs` is the rule for noninterference: inputs that leave a view of
the state alone can be taken out of a run.  `invariant_accepted` relates the state to the inputs that
were answered with success.
-/

namespace RustFactory.Lib

universe u v w

/-- A machine with states `σ`, inputs `ι` and answers `ο`. -/
structure Machine (σ : Type u) (ι : Type v) (ο : Type w) where
  step : σ → ι → ο × σ

namespace Machine

variable {σ τ : Type u} {ι : Type v} {ο : Type w}

/-- The state after a list of inputs. -/
def final (M : Machine σ ι ο) (s : σ) : List ι → σ
  | [] => s
  | i :: is => M.final (M.step s i).2 is

/-- The answers to a list of inputs. -/
def outputs (M : Machine σ ι ο) (s : σ) : List ι → List ο
  | [] => []
  | i :: is => (M.step s i).1 :: M.outputs (M.step s i).2 is

/-- The answer to `i` once the inputs `pre` have been processed. -/
def answer (M : Machine σ ι ο) (s : σ) (pre : List ι) (i : ι) : ο :=
  (M.step (M.final s pre) i).1

@[simp] theorem final_nil (M : Machine σ ι ο) (s : σ) : M.final s [] = s := rfl

@[simp] theorem final_cons (M : Machine σ ι ο) (s : σ) (i : ι) (is : List ι) :
    M.final s (i :: is) = M.final (M.step s i).2 is := rfl

theorem final_append (M : Machine σ ι ο) (s : σ) (is js : List ι) :
    M.final s (is ++ js) = M.final (M.final s is) js := by
  induction is generalizing s with
  | nil => rfl
  | cons i is ih => exact ih (M.step s i).2

theorem final_concat (M : Machine σ ι ο) (s : σ) (is : List ι) (i : ι) :
    M.final s (is ++ [i]) = (M.step (M.final s is) i).2 := by
  rw [final_append]; rfl

/-- What holds initially and is kept by every step holds after every run. -/
theorem invariant_final {M : Machine σ ι ο} {P : σ → Prop} (hstep : ∀ s i, P s → P (M.step s i).2)
    {s : σ} (h : P s) (is : List ι) : P (M.final s is) := by
  induction is generalizing s with
  | nil => exact h
  | cons i is ih => exact ih (hstep s i h)

/-- A machine shared by several clients: who calls does not matter. -/
def shared (γ : Type*) (M : Machine σ ι ο) : Machine σ (γ × ι) ο := ⟨fun s i => M.step s i.2⟩

theorem final_shared {γ : Type*} (M : Machine σ ι ο) (s : σ) (trace : List (γ × ι)) :
    (M.shared γ).final s trace = M.final s (trace.map Prod.snd) := by
  induction trace generalizing s with
  | nil => rfl
  | cons i trace ih => exact ih (M.step s i.2).2

theorem answer_shared {γ : Type*} (M : Machine σ ι ο) (s : σ) (trace : List (γ × ι)) (i : γ × ι) :
    (M.shared γ).answer s trace i = M.answer s (trace.map Prod.snd) i.2 := by
  unfold answer
  rw [final_shared]
  rfl

section Simulation

variable {M : Machine σ ι ο} {N : Machine τ ι ο} {R : σ → τ → Prop}
  (hsim : ∀ s t i, R s t → (M.step s i).1 = (N.step t i).1 ∧ R (M.step s i).2 (N.step t i).2)

include hsim

/-- A simulation is kept along every run. -/
theorem simulation_final {s : σ} {t : τ} (h : R s t) (is : List ι) :
    R (M.final s is) (N.final t is) := by
  induction is generalizing s t with
  | nil => exact h
  | cons i is ih => exact ih (hsim s t i h).2

/-- Machines related by a simulation give the same answer after the same inputs. -/
theorem answer_eq_of_simulation {s : σ} {t : τ} (h : R s t) (pre : List ι) (i : ι) :
    M.answer s pre i = N.answer t pre i :=
  (hsim _ _ i (simulation_final hsim h pre)).1

/-- Machines related by a simulation answer every input sequence alike. -/
theorem outputs_eq_of_simulation {s : σ} {t : τ} (h : R s t) (is : List ι) :
    M.outputs s is = N.outputs t is := by
  induction is generalizing s t with
  | nil => rfl
  | cons i is ih =>
    have hi := hsim s t i h
    unfold outputs
    rw [hi.1, ih hi.2]

end Simulation

section Selection

variable {M : Machine σ ι ο} {p : ι → Bool}

/-- The answers to the inputs with `p`, the other inputs being processed as well. -/
def outputsOf (M : Machine σ ι ο) (p : ι → Bool) (s : σ) : List ι → List ο
  | [] => []
  | i :: is =>
    if p i then (M.step s i).1 :: M.outputsOf p (M.step s i).2 is
    else M.outputsOf p (M.step s i).2 is

/-- Inputs without `p` that leave a view of the state alone do not show in the answers to the
others. -/
theorem outputsOf_eq_outputs {R : σ → σ → Prop}
    (hsame : ∀ s t i, R s t → p i → (M.step s i).1 = (M.step t i).1 ∧ R (M.step s i).2 (M.step t i).2)
    (hother : ∀ s t i, R s t → ¬p i → R (M.step s i).2 t) {s t : σ} (h : R s t) (is : List ι) :
    M.outputsOf p s is = M.outputs t (is.filter p) := by
  induction is generalizing s t with
  | nil => rfl
  | cons i is ih =>
    unfold outputsOf
    by_cases hi : p i
    · obtain ⟨hanswer, hnext⟩ := hsame s t i h hi
      rw [if_pos hi, List.filter_cons_of_pos hi, hanswer, ih hnext]
      rfl
    · rw [if_neg hi, List.filter_cons_of_neg hi, ih (hother s t i h hi)]

end Selection

section Accepted

variable {M : Machine σ ι ο} {p : ο → Bool}

/-- The inputs of a run whose answers have `p`. -/
def accepted (M : Machine σ ι ο) (p : ο → Bool) (s : σ) : List ι → List ι
  | [] => []
  | i :: is =>
    if p (M.step s i).1 then i :: M.accepted p (M.step s i).2 is
    else M.accepted p (M.step s i).2 is

/-- Where refused inputs leave the state alone, a run ends as if they had never been made. -/
theorem final_accepted (hrefused : ∀ s i, ¬p (M.step s i).1 → (M.step s i).2 = s) (s : σ)
    (is : List ι) : M.final s (M.accepted p s is) = M.final s is := by
  induction is generalizing s with
  | nil => rfl
  | cons i is ih =>
    rw [accepted, final_cons]
    by_cases hi : p (M.step s i).1
    · rw [if_pos hi, final_cons, ih]
    · rw [if_neg hi, hrefused s i hi, ih]

/-- What holds of the accepted inputs and the state, and is kept by every step, holds after every
run. -/
theorem invariant_accepted {P : List ι → σ → Prop} (hok : ∀ is s i, P is s → p (M.step s i).1 →
      P (is ++ [i]) (M.step s i).2)
    (hrefused : ∀ is s i, P is s → ¬p (M.step s i).1 → P is (M.step s i).2) {s : σ} (h : P [] s)
    (is : List ι) : P (M.accepted p s is) (M.final s is) := by
  have hfrom : ∀ (js : List ι) (s : σ) (before : List ι), P before s →
      P (before ++ M.accepted p s js) (M.final s js) := by
    intro js
    induction js with
    | nil =>
      intro s before h
      rw [accepted, List.append_nil]
      exact h
    | cons i js ih =>
      intro s before h
      rw [accepted, final_cons]
      by_cases hi : p (M.step s i).1
      · rw [if_pos hi]
        have hnext := ih _ _ (hok before s i h hi)
        rwa [List.append_assoc] at hnext
      · rw [if_neg hi]
        exact ih _ _ (hrefused before s i h hi)
  exact hfrom is s [] h

end Accepted

end Machine

end RustFactory.Lib
