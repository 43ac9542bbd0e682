import Mathlib

/-!
# Fallible computations

Equations for peeling an `Except` computation apart step by step, and `okOr`, the conversion of
an absent value into an error.
-/

namespace RustFactory.Lib

universe u v

variable {ε : Type u} {α β : Type v}

instance instDecidableEqExcept [DecidableEq ε] [DecidableEq α] : DecidableEq (Except ε α)
  | .ok a, .ok b => if h : a = b then isTrue (by rw [h]) else isFalse fun e => h (Except.ok.inj e)
  | .error a, .error b =>
    if h : a = b then isTrue (by rw [h]) else isFalse fun e => h (Except.error.inj e)
  | .ok _, .error _ => isFalse nofun
  | .error _, .ok _ => isFalse nofun

@[simp] theorem ok_bind (a : α) (f : α → Except ε β) : (Except.ok a >>= f) = f a := rfl

@[simp] theorem error_bind (e : ε) (f : α → Except ε β) :
    (Except.error e >>= f) = Except.error e := rfl

theorem bind_eq_ok {x : Except ε α} {f : α → Except ε β} {b : β} :
    (x >>= f) = .ok b ↔ ∃ a, x = .ok a ∧ f a = .ok b := by
  cases x with
  | error e => simp
  | ok a => simp

theorem bind_eq_error {x : Except ε α} {f : α → Except ε β} {e : ε} :
    (x >>= f) = .error e ↔ x = .error e ∨ ∃ a, x = .ok a ∧ f a = .error e := by
  cases x with
  | error e' => simp
  | ok a => simp

/-- An absent value becomes the given error. -/
def okOr (e : ε) : Option α → Except ε α
  | some a => .ok a
  | none => .error e

@[simp] theorem okOr_some (e : ε) (a : α) : okOr e (some a) = .ok a := rfl

@[simp] theorem okOr_none (e : ε) : okOr e (none : Option α) = .error e := rfl

@[simp] theorem okOr_eq_ok {e : ε} {x : Option α} {a : α} : okOr e x = .ok a ↔ x = some a := by
  cases x <;> simp

@[simp] theorem okOr_eq_error {e e' : ε} {x : Option α} :
    okOr e x = .error e' ↔ x = none ∧ e = e' := by
  cases x <;> simp

/-- A value built from the success of its check. -/
def ifOk {γ : Type*} : (check : Except ε γ) → (mk : check.isOk → α) → Except ε α
  | .ok _, mk => .ok (mk rfl)
  | .error e, _ => .error e

theorem ifOk_eq_ok {γ : Type*} {check : Except ε γ} {mk : check.isOk → α} {a : α} :
    ifOk check mk = .ok a ↔ ∃ h, mk h = a := by
  cases check with
  | ok c => simp [ifOk, Except.isOk, Except.toBool]
  | error e => simp [ifOk, Except.isOk, Except.toBool]

theorem ifOk_isOk {γ : Type*} {check : Except ε γ} {mk : check.isOk → α} :
    (ifOk check mk).isOk = check.isOk := by
  cases check with
  | ok c => rfl
  | error e => rfl

/-! ## Errors and lists -/

theorem isOk_iff {x : Except ε α} : x.isOk ↔ ∃ a, x = .ok a := by
  cases x with
  | ok a => simp [Except.isOk, Except.toBool]
  | error e => simp [Except.isOk, Except.toBool]

theorem not_isOk_iff {x : Except ε α} : ¬x.isOk ↔ ∃ e, x = .error e := by
  cases x with
  | ok a => simp [Except.isOk, Except.toBool]
  | error e => simp [Except.isOk, Except.toBool]

@[simp] theorem mapError_eq_ok {δ : Type*} {f : ε → δ} {x : Except ε α} {a : α} :
    x.mapError f = .ok a ↔ x = .ok a := by
  cases x with
  | ok b => simp [Except.mapError]
  | error e => simp [Except.mapError]

theorem eq_of_mapError_const {δ : Type*} {e e' : ε} {x : Except δ α}
    (h : x.mapError (fun _ => e) = .error e') : e' = e := by
  cases x with
  | ok a => cases h
  | error d =>
    cases h
    rfl

@[simp] theorem isOk_mapError {δ : Type*} {f : ε → δ} {x : Except ε α} :
    (x.mapError f).isOk = x.isOk := by
  cases x with
  | ok b => rfl
  | error e => rfl

/-- The success of a step whose continuation succeeds or fails whatever the step returns. -/
theorem isOk_bind {x : Except ε α} {f : α → Except ε β} {P : Prop} (h : ∀ a, (f a).isOk ↔ P) :
    (x >>= f).isOk ↔ x.isOk ∧ P := by
  cases x with
  | ok a => rw [ok_bind, h a]; exact (and_iff_right rfl).symm
  | error e => exact iff_of_false (by rw [error_bind]; exact nofun) fun hx => nomatch hx.1

/-- A check of every member passes exactly where each member passes. -/
theorem forM_eq_ok {γ : Type*} {f : γ → Except ε PUnit} {xs : List γ} :
    xs.forM f = .ok ⟨⟩ ↔ ∀ x ∈ xs, f x = .ok ⟨⟩ := by
  induction xs with
  | nil => exact iff_of_true rfl nofun
  | cons x xs ih =>
    have hcons : (x :: xs).forM f = (f x >>= fun _ => xs.forM f) := rfl
    rw [hcons, bind_eq_ok, List.forall_mem_cons]
    constructor
    · rintro ⟨⟨⟩, hx, hxs⟩
      exact ⟨hx, ih.mp hxs⟩
    · rintro ⟨hx, hxs⟩
      exact ⟨⟨⟩, hx, ih.mpr hxs⟩

theorem mapM_eq_ok {γ : Type*} {f : γ → Except ε α} {xs : List γ} {ys : List α} :
    xs.mapM f = .ok ys ↔ List.Forall₂ (fun x y => f x = .ok y) xs ys := by
  induction xs generalizing ys with
  | nil =>
    rw [List.mapM_nil, List.forall₂_nil_left_iff]
    exact ⟨fun h => (Except.ok.inj h).symm, fun h => h ▸ rfl⟩
  | cons x xs ih =>
    rw [List.mapM_cons, bind_eq_ok, List.forall₂_cons_left_iff]
    constructor
    · rintro ⟨y, hy, h⟩
      obtain ⟨ys', hys, h⟩ := bind_eq_ok.mp h
      cases h
      exact ⟨y, ys', hy, ih.mp hys, rfl⟩
    · rintro ⟨y, ys', hy, hys, rfl⟩
      exact ⟨y, hy, bind_eq_ok.mpr ⟨ys', ih.mpr hys, rfl⟩⟩

/-- What holds at the start of a fold and is kept by every step holds at its end; the list of the
members that are done grows with it. -/
theorem foldlM_invariant {γ : Type*} {P : List γ → α → Prop} {f : α → γ → Except ε α}
    {xs : List γ} {a b : α} (h : xs.foldlM f a = .ok b) (hstart : P [] a)
    (hstep : ∀ done x c d, P done c → f c x = .ok d → P (done ++ [x]) d) : P xs b := by
  have hfrom : ∀ (xs done : List γ) (c : α), P done c → xs.foldlM f c = .ok b →
      P (done ++ xs) b := by
    intro xs
    induction xs with
    | nil =>
      intro done c hc h
      cases h
      rw [List.append_nil]
      exact hc
    | cons x xs ih =>
      intro done c hc h
      rw [List.foldlM_cons] at h
      obtain ⟨next, hnext, h⟩ := bind_eq_ok.mp h
      have hrest := ih (done ++ [x]) next (hstep done x c next hc hnext) h
      rwa [List.append_assoc, List.singleton_append] at hrest
  exact hfrom xs [] a hstart h

theorem exists_left_of_forall₂ {α β : Type*} {R : α → β → Prop} {xs : List α} {ys : List β}
    (h : List.Forall₂ R xs ys) {y : β} (hy : y ∈ ys) : ∃ x ∈ xs, R x y := by
  obtain ⟨n, hn, rfl⟩ := List.getElem_of_mem hy
  have hn' : n < xs.length := by rw [h.length_eq]; exact hn
  exact ⟨xs[n], List.getElem_mem hn', h.get hn' hn⟩

theorem exists_right_of_forall₂ {α β : Type*} {R : α → β → Prop} {xs : List α} {ys : List β}
    (h : List.Forall₂ R xs ys) {x : α} (hx : x ∈ xs) : ∃ y ∈ ys, R x y := by
  obtain ⟨n, hn, rfl⟩ := List.getElem_of_mem hx
  have hn' : n < ys.length := by rw [← h.length_eq]; exact hn
  exact ⟨ys[n], List.getElem_mem hn', h.get hn hn'⟩

theorem head?_of_forall₂ {α β : Type*} {R : α → β → Prop} {xs : List α} {ys : List β}
    (h : List.Forall₂ R xs ys) {x : α} (hx : xs.head? = some x) :
    ∃ y, ys.head? = some y ∧ R x y := by
  cases h with
  | nil => cases hx
  | cons hxy _ => cases hx; exact ⟨_, rfl, hxy⟩

theorem exists_forall₂ {α β : Type*} {R : α → β → Prop} {xs : List α}
    (h : ∀ x ∈ xs, ∃ y, R x y) : ∃ ys, List.Forall₂ R xs ys := by
  induction xs with
  | nil => exact ⟨[], .nil⟩
  | cons x xs ih =>
    obtain ⟨y, hy⟩ := h x List.mem_cons_self
    obtain ⟨ys, hys⟩ := ih fun x' hx' => h x' (List.mem_cons_of_mem _ hx')
    exact ⟨y :: ys, .cons hy hys⟩

end RustFactory.Lib
