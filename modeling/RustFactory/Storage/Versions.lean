import RustFactory.Storage.Refinement

/-!
# Storage: versions and conditional writes

Clients share one store and their calls take effect in some order.  In every such order the
versions returned by puts strictly increase, a write conditioned on a version succeeds only on the
object that the put with this version wrote, and at most one write conditioned on a version
succeeds.  What a put has written is what every get answers until the object is written again, so no
update is lost.  The laws speak of calls and answers only, so they carry over from the local adapter
to the redb adapter by their equivalence.
-/

namespace RustFactory.Storage

open RustFactory.Lib

/-! ## Calls and their answers -/

/-- The object a call writes or removes. -/
def Call.target : Call → Option Identity
  | .put scope key _ _ => some (Local.identity scope key)
  | .delete scope key _ => some (Local.identity scope key)
  | .get _ _ => none
  | .list _ _ => none

/-- The version a write is conditioned on. -/
def Call.expected : Call → Option ObjectVersion
  | .put _ _ _ (.ifVersion v) => some v
  | .delete _ _ (.ifVersion v) => some v
  | _ => none

/-- The version returned by a successful put. -/
def returned : Answer → Option ObjectVersion
  | .ok (.put (.created v)) => some v
  | .ok (.put (.replaced v)) => some v
  | _ => none

/-- A put or a delete took effect. -/
def succeeded (a : Answer) : Bool := (returned a).isSome || a = .ok (.deleted .deleted)

/-- After the calls `pre` none of the calls `mid` updates the object. -/
def Untouched {γ : Type} (answer : List (γ × Call) → γ × Call → Answer) (pre mid : List (γ × Call))
    (id : Identity) : Prop :=
  ∀ mid₁ u mid₂, mid = mid₁ ++ u :: mid₂ → u.2.target = some id → ¬ succeeded (answer (pre ++ mid₁) u)

theorem Untouched.concat {γ : Type} {answer : List (γ × Call) → γ × Call → Answer}
    {pre mid : List (γ × Call)} {id : Identity} (h : Untouched answer pre mid id) {c : γ × Call}
    (hc : c.2.target = some id → ¬ succeeded (answer (pre ++ mid) c)) :
    Untouched answer pre (mid ++ [c]) id := by
  intro mid₁ u mid₂ hsplit htarget
  rcases List.eq_nil_or_concat' mid₂ with rfl | ⟨mid₃, c', rfl⟩
  · obtain ⟨rfl, hu⟩ := List.append_inj' hsplit rfl
    obtain rfl : c = u := List.singleton_inj.mp hu
    exact hc htarget
  · rw [← List.cons_append, ← List.append_assoc] at hsplit
    obtain ⟨hsplit', -⟩ := List.append_inj' hsplit rfl
    exact h mid₁ u mid₃ hsplit' htarget

theorem Untouched.of_concat {γ : Type} {answer : List (γ × Call) → γ × Call → Answer}
    {pre mid : List (γ × Call)} {id : Identity} {c : γ × Call}
    (h : Untouched answer pre (mid ++ [c]) id) :
    Untouched answer pre mid id ∧ (c.2.target = some id → ¬ succeeded (answer (pre ++ mid) c)) :=
  ⟨fun mid₁ u mid₂ hsplit => h mid₁ u (mid₂ ++ [c]) (by rw [hsplit, List.append_assoc, List.cons_append]),
    h mid c [] rfl⟩

/-- What a store under concurrent use answers: `answer trace c` is the answer to the call `c` made
by some client after the calls in `trace` took effect. -/
structure VersionLaws {γ : Type} (answer : List (γ × Call) → γ × Call → Answer) : Prop where
  /-- Versions strictly increase along every interleaving. -/
  increasing : ∀ pre c₁ mid c₂ v₁ v₂, returned (answer pre c₁) = some v₁ →
    returned (answer (pre ++ c₁ :: mid) c₂) = some v₂ → v₁.revision < v₂.revision
  /-- A write conditioned on `v` succeeds only on the object written by the put that returned `v`,
  with no update of that object in between. -/
  current : ∀ pre c v, c.2.expected = some v → succeeded (answer pre c) →
    ∃ pre₁ client scope key value condition mid,
      pre = pre₁ ++ (client, .put scope key value condition) :: mid ∧
      c.2.target = some (Local.identity scope key) ∧
      returned (answer pre₁ (client, .put scope key value condition)) = some v ∧
      (∀ reader, answer pre (reader, .get scope key) = .ok (.got (some ⟨v, value⟩))) ∧
      Untouched answer (pre₁ ++ [(client, .put scope key value condition)]) mid
        (Local.identity scope key)
  /-- At most one write conditioned on `v` succeeds. -/
  once : ∀ pre c₁ mid c₂ v, c₁.2.expected = some v → c₂.2.expected = some v →
    succeeded (answer pre c₁) → ¬ succeeded (answer (pre ++ c₁ :: mid) c₂)
  /-- After a put that returned `v` every get answers `v` with the value that was put, until the
  object is updated again. -/
  stored : ∀ pre client scope key value condition v mid reader,
    returned (answer pre (client, .put scope key value condition)) = some v →
    Untouched answer (pre ++ [(client, .put scope key value condition)]) mid
      (Local.identity scope key) →
    answer (pre ++ (client, .put scope key value condition) :: mid) (reader, .get scope key) =
      .ok (.got (some ⟨v, value⟩))
  /-- After a delete every get answers nothing, until the object is put again. -/
  removed : ∀ pre client scope key condition mid reader,
    answer pre (client, .delete scope key condition) = .ok (.deleted .deleted) →
    Untouched answer (pre ++ [(client, .delete scope key condition)]) mid
      (Local.identity scope key) →
    answer (pre ++ (client, .delete scope key condition) :: mid) (reader, .get scope key) =
      .ok (.got none)
  /-- Before the first update every get answers nothing. -/
  absent : ∀ pre scope key reader, Untouched answer [] pre (Local.identity scope key) →
    answer pre (reader, .get scope key) = .ok (.got none)

/-! ## What a call does to the local state -/

namespace Local

section Effects

variable {limits : StorageLimits} {s : State} {c : Call}

theorem identity_inj {scope scope' : StorageScope} {key key' : ObjectKey} :
    identity scope key = identity scope' key' ↔ scope = scope' ∧ key = key' := by
  cases scope; cases scope'
  unfold identity
  simp only [Identity.mk.injEq, StorageScope.mk.injEq, and_assoc]

/-- Everything a call can do to the objects and the revision. -/
inductive Effect (s : State) (c : Call) (a : Answer) (s' : State) : Prop
  | none (h : succeeded a = false) (hs : s' = s)
  | put (scope : StorageScope) (key : ObjectKey) (value : ObjectValue) (condition : PutCondition)
      (version : ObjectVersion) (hc : c = .put scope key value condition)
      (ha : returned a = some version) (hcond : condition.holds (versionAt s scope key) = true)
      (hrev : version.revision.toNat = s.revision.toNat + 1)
      (hobjects : s'.objects = s.objects.insert (identity scope key) ⟨version, value⟩)
      (hrevision : s'.revision = version.revision)
  | delete (scope : StorageScope) (key : ObjectKey) (condition : DeleteCondition) (current : Entry)
      (hc : c = .delete scope key condition) (ha : a = .ok (.deleted .deleted))
      (hcur : s.objects[identity scope key]? = some current)
      (hcond : condition.holds current.version = true)
      (hobjects : s'.objects = s.objects.erase (identity scope key))
      (hrevision : s'.revision = s.revision)

theorem step_effect (limits : StorageLimits) (s : State) (c : Call) :
    Effect s c ((store limits).step s c).1 ((store limits).step s c).2 := by
  cases c with
  | get scope key => exact .none rfl rfl
  | list scope request =>
    refine .none ?_ rfl
    show succeeded ((list s scope request).map Reply.listed) = false
    cases list s scope request <;> rfl
  | put scope key value condition =>
    show Effect s _ (settle s .put (put limits s scope key value condition)).1
      (settle s .put (put limits s scope key value condition)).2
    cases h : put limits s scope key value condition with
    | error e => exact .none rfl rfl
    | ok r =>
      obtain ⟨o, s'⟩ := r
      rcases put_ok h with ⟨-, rfl, rfl⟩ | ⟨version, tenant, global, hcond, hver, -, rfl, rfl⟩
      · exact .none rfl rfl
      · refine .put scope key value condition version rfl ?_ hcond hver rfl rfl
        show returned (.ok (.put (if (versionAt s scope key).isNone then .created version
          else .replaced version))) = some version
        split_ifs <;> rfl
  | delete scope key condition =>
    show Effect s _ (settle s .deleted (delete s scope key condition)).1
      (settle s .deleted (delete s scope key condition)).2
    cases h : delete s scope key condition with
    | error e => exact .none rfl rfl
    | ok r =>
      obtain ⟨o, s'⟩ := r
      rcases delete_ok h with ⟨-, rfl, rfl⟩ | ⟨_, -, -, rfl, rfl⟩ |
        ⟨current, row, tenant, global, hcur, hcond, -, -, -, rfl, rfl⟩
      · exact .none rfl rfl
      · exact .none rfl rfl
      · exact .delete scope key condition current rfl rfl hcur hcond rfl rfl

theorem returned_ne_of_not_succeeded {a : Answer} {v : ObjectVersion}
    (h : succeeded a = false) : returned a ≠ some v := by
  intro hv
  unfold succeeded at h
  rw [hv] at h
  cases h

/-- A returned version is the next revision, which becomes the current one. -/
theorem returned_revision {a : Answer} {s' : State} (heff : Effect s c a s') {v : ObjectVersion}
    (hv : returned a = some v) :
    v.revision.toNat = s.revision.toNat + 1 ∧ s'.revision = v.revision := by
  cases heff with
  | none h hs => exact absurd hv (returned_ne_of_not_succeeded h)
  | put scope key value condition version hc ha hcond hrev hobjects hrevision =>
    obtain rfl : version = v := Option.some.inj (ha.symm.trans hv)
    exact ⟨hrev, hrevision⟩
  | delete scope key condition current hc ha hcur hcond hobjects hrevision =>
    rw [ha] at hv
    cases hv

theorem revision_le_of_effect {a : Answer} {s' : State} (heff : Effect s c a s') :
    s.revision.toNat ≤ s'.revision.toNat := by
  cases heff with
  | none h hs => rw [hs]
  | put scope key value condition version hc ha hcond hrev hobjects hrevision =>
    rw [hrevision]
    omega
  | delete scope key condition current hc ha hcur hcond hobjects hrevision => rw [hrevision]

/-- A conditional write that succeeds finds the version it expects. -/
theorem expected_present {a : Answer} {s' : State} (heff : Effect s c a s') {v : ObjectVersion}
    (hexp : c.expected = some v) (hsucc : succeeded a = true) :
    ∃ scope key e, c.target = some (identity scope key) ∧
      s.objects[identity scope key]? = some e ∧ e.version = v ∧
      (s'.objects = s.objects.erase (identity scope key) ∨
        ∃ e', s'.objects = s.objects.insert (identity scope key) e' ∧
          e'.version.revision.toNat = s.revision.toNat + 1) := by
  cases heff with
  | none h hs => rw [h] at hsucc; cases hsucc
  | put scope key value condition version hc ha hcond hrev hobjects hrevision =>
    subst hc
    have hcond' : condition = .ifVersion v := by
      cases condition with
      | any => cases hexp
      | ifAbsent => cases hexp
      | ifVersion w => cases hexp; rfl
    subst hcond'
    unfold versionAt at hcond
    cases hcur : s.objects[identity scope key]? with
    | none => rw [hcur] at hcond; cases hcond
    | some e =>
      rw [hcur] at hcond
      have he : v = e.version := by simpa [PutCondition.holds] using hcond
      exact ⟨scope, key, e, rfl, hcur, he.symm, Or.inr ⟨⟨version, value⟩, hobjects, hrev⟩⟩
  | delete scope key condition current hc ha hcur hcond hobjects hrevision =>
    subst hc
    have hcond' : condition = .ifVersion v := by
      cases condition with
      | any => cases hexp
      | ifVersion w => cases hexp; rfl
    subst hcond'
    have he : v = current.version := by simpa [DeleteCondition.holds] using hcond
    exact ⟨scope, key, current, rfl, hcur, he.symm, Or.inl hobjects⟩

/-! ## Spent versions -/

/-- The version has been given out and no stored object carries it any more. -/
def Spent (v : ObjectVersion) (s : State) : Prop :=
  v.revision.toNat ≤ s.revision.toNat ∧
    ∀ (id : Identity) (e : Entry), s.objects[id]? = some e → e.version ≠ v

theorem spent_step {v : ObjectVersion} {a : Answer} {s' : State} (heff : Effect s c a s')
    (h : Spent v s) : Spent v s' := by
  refine ⟨h.1.trans (revision_le_of_effect heff), ?_⟩
  intro id e he
  cases heff with
  | none hn hs =>
    rw [hs] at he
    exact h.2 id e he
  | put scope key value condition version hc ha hcond hrev hobjects hrevision =>
    rw [hobjects, Std.ExtTreeMap.getElem?_insert] at he
    split_ifs at he
    · cases he
      have hle := h.1
      show version ≠ v
      rintro rfl
      omega
    · exact h.2 id e he
  | delete scope key condition current hc ha hcur hcond hobjects hrevision =>
    rw [hobjects, Std.ExtTreeMap.getElem?_erase] at he
    split_ifs at he
    exact h.2 id e he

/-- A successful write conditioned on a version spends it. -/
theorem spent_of_expected (hacc : Accounted limits s) {a : Answer} {s' : State}
    (heff : Effect s c a s') {v : ObjectVersion} (hexp : c.expected = some v)
    (hsucc : succeeded a = true) : Spent v s' := by
  obtain ⟨scope, key, e, -, he, rfl, hobjects⟩ := expected_present heff hexp hsucc
  have hle := hacc.version_le _ e he
  refine ⟨hle.trans (revision_le_of_effect heff), ?_⟩
  intro id e₂ he₂ hv
  rcases hobjects with hobjects | ⟨e', hobjects, hrev⟩
  · rw [hobjects, Std.ExtTreeMap.getElem?_erase] at he₂
    split_ifs at he₂ with hid
    have := hacc.version_inj _ _ e₂ e he₂ he hv
    rw [compare_eq_iff_eq] at hid
    exact hid this.symm
  · rw [hobjects, Std.ExtTreeMap.getElem?_insert] at he₂
    split_ifs at he₂ with hid
    · cases he₂
      rw [hv] at hrev
      omega
    · have := hacc.version_inj _ _ e₂ e he₂ he hv
      rw [compare_eq_iff_eq] at hid
      exact hid this.symm

end Effects

/-! ## Interleavings -/

section Interleaving

variable {γ : Type} {limits : StorageLimits}

/-- The local store under concurrent use. -/
def sharedAnswer (limits : StorageLimits) (trace : List (γ × Call)) (c : γ × Call) : Answer :=
  ((store limits).shared γ).answer State.new trace c

/-- The state after an interleaving. -/
def after (limits : StorageLimits) (trace : List (γ × Call)) : State :=
  ((store limits).shared γ).final State.new trace

theorem effect_after (limits : StorageLimits) (trace : List (γ × Call)) (c : γ × Call) :
    Effect (after limits trace) c.2 (sharedAnswer limits trace c) (after limits (trace ++ [c])) := by
  unfold after sharedAnswer
  rw [Machine.final_concat]
  exact step_effect limits _ c.2

theorem accounted_after (trace : List (γ × Call)) : Accounted limits (after limits trace) := by
  unfold after
  rw [Machine.final_shared]
  exact accounted_final limits _

theorem after_append (trace more : List (γ × Call)) :
    after limits (trace ++ more) = ((store limits).shared γ).final (after limits trace) more :=
  Machine.final_append _ _ _ _

/-- What one step keeps holds after every continuation of an interleaving. -/
theorem invariant_after {P : State → Prop}
    (hstep : ∀ s c a s', Effect s c a s' → P s → P s') {trace : List (γ × Call)}
    (h : P (after limits trace)) (more : List (γ × Call)) : P (after limits (trace ++ more)) := by
  rw [after_append]
  exact Machine.invariant_final (P := P)
    (fun s c hs => hstep s c.2 _ _ (step_effect limits s c.2) hs) h more

theorem increasing_after {pre mid : List (γ × Call)} {c₁ c₂ : γ × Call} {v₁ v₂ : ObjectVersion}
    (h₁ : returned (sharedAnswer limits pre c₁) = some v₁)
    (h₂ : returned (sharedAnswer limits (pre ++ c₁ :: mid) c₂) = some v₂) :
    v₁.revision < v₂.revision := by
  have e₁ := (returned_revision (effect_after limits pre c₁) h₁).2
  have e₂ := (returned_revision (effect_after limits (pre ++ c₁ :: mid) c₂) h₂).1
  have hstart : v₁.revision.toNat ≤ (after limits (pre ++ [c₁])).revision.toNat := by rw [e₁]
  have hmono := invariant_after (P := fun s => v₁.revision.toNat ≤ s.revision.toNat)
    (fun _ _ _ _ heff h => h.trans (revision_le_of_effect heff)) hstart mid
  rw [List.append_assoc, List.singleton_append] at hmono
  rw [UInt64.lt_iff_toNat_lt]
  omega

theorem getElem?_of_untouched {trace mid : List (γ × Call)} {id : Identity}
    (h : Untouched (sharedAnswer limits) trace mid id) :
    (after limits (trace ++ mid)).objects[id]? = (after limits trace).objects[id]? := by
  induction mid using List.reverseRecOn with
  | nil => rw [List.append_nil]
  | append_singleton mid c ih =>
    obtain ⟨hmid, hc⟩ := h.of_concat
    rw [← ih hmid, ← List.append_assoc]
    cases effect_after limits (trace ++ mid) c with
    | none hn hs => rw [hs]
    | put scope key value condition version hcall ha hcond hrev hobjects hrevision =>
      have hid : identity scope key ≠ id := by
        rintro rfl
        refine hc (by rw [hcall]; rfl) ?_
        unfold succeeded
        rw [ha]
        rfl
      rw [hobjects, BTreeMap.getElem?_insert_of_ne hid]
    | delete scope key condition current hcall ha hcur hcond hobjects hrevision =>
      have hid : identity scope key ≠ id := by
        rintro rfl
        refine hc (by rw [hcall]; rfl) ?_
        rw [ha]
        rfl
      rw [hobjects, Std.ExtTreeMap.getElem?_erase, if_neg (by rwa [compare_eq_iff_eq])]

theorem sharedAnswer_get (trace : List (γ × Call)) (reader : γ) (scope : StorageScope)
    (key : ObjectKey) : sharedAnswer limits trace (reader, .get scope key) =
      .ok (.got ((after limits trace).objects[identity scope key]?.map
        fun entry => ⟨entry.version, entry.value⟩)) := rfl

/-- The put that wrote the entry present under an identity, with no update after it. -/
def Origin (limits : StorageLimits) (trace : List (γ × Call)) (scope : StorageScope)
    (key : ObjectKey) (e : Entry) : Prop :=
  ∃ pre client condition mid,
    trace = pre ++ (client, .put scope key e.value condition) :: mid ∧
    returned (sharedAnswer limits pre (client, .put scope key e.value condition)) =
      some e.version ∧
    Untouched (sharedAnswer limits) (pre ++ [(client, .put scope key e.value condition)]) mid
      (identity scope key)

theorem Origin.concat {trace : List (γ × Call)} {scope : StorageScope} {key : ObjectKey} {e : Entry}
    (h : Origin limits trace scope key e) {c : γ × Call}
    (hc : c.2.target = some (identity scope key) → ¬ succeeded (sharedAnswer limits trace c)) :
    Origin limits (trace ++ [c]) scope key e := by
  obtain ⟨pre, client, condition, mid, rfl, hret, hmid⟩ := h
  refine ⟨pre, client, condition, mid ++ [c], ?_, hret, hmid.concat ?_⟩
  · rw [List.append_assoc, List.cons_append]
  · rwa [List.append_assoc, List.singleton_append]

/-- Every object present was written by a put of the interleaving and not updated since. -/
theorem origin_of_present (trace : List (γ × Call)) {scope : StorageScope} {key : ObjectKey}
    {e : Entry} (he : (after limits trace).objects[identity scope key]? = some e) :
    Origin limits trace scope key e := by
  induction trace using List.reverseRecOn with
  | nil => cases he
  | append_singleton trace c ih =>
    have heff := effect_after limits trace c
    cases heff with
    | none h hs =>
      rw [hs] at he
      exact (ih he).concat fun _ => by rw [h]; exact Bool.false_ne_true
    | put scope' key' value condition version hc ha hcond hrev hobjects hrevision =>
      rw [hobjects, Std.ExtTreeMap.getElem?_insert] at he
      split_ifs at he with hid
      · cases he
        rw [compare_eq_iff_eq, identity_inj] at hid
        obtain ⟨rfl, rfl⟩ := hid
        obtain ⟨client, call⟩ := c
        obtain rfl : call = .put scope' key' value condition := hc
        refine ⟨trace, client, condition, [], rfl, ha, ?_⟩
        intro mid₁ u mid₂ hsplit
        exact absurd hsplit.symm (by simp)
      · refine (ih he).concat fun htarget => ?_
        rw [hc] at htarget
        exact absurd (Option.some.inj htarget) (by simpa [compare_eq_iff_eq] using hid)
    | delete scope' key' condition current hc ha hcur hcond hobjects hrevision =>
      rw [hobjects, Std.ExtTreeMap.getElem?_erase] at he
      split_ifs at he with hid
      refine (ih he).concat fun htarget => ?_
      rw [hc] at htarget
      exact absurd (Option.some.inj htarget) (by simpa [compare_eq_iff_eq] using hid)

theorem getElem?_of_put {pre : List (γ × Call)} {client : γ} {scope : StorageScope} {key : ObjectKey}
    {value : ObjectValue} {condition : PutCondition} {v : ObjectVersion}
    (h : returned (sharedAnswer limits pre (client, .put scope key value condition)) = some v) :
    (after limits (pre ++ [(client, .put scope key value condition)])).objects[identity scope key]? =
      some ⟨v, value⟩ := by
  cases effect_after limits pre (client, .put scope key value condition) with
  | none hn hs => exact absurd h (returned_ne_of_not_succeeded hn)
  | put scope' key' value' condition' version hc ha hcond hrev hobjects hrevision =>
    cases hc
    obtain rfl : version = v := Option.some.inj (ha.symm.trans h)
    rw [hobjects, Std.ExtTreeMap.getElem?_insert_self]
  | delete scope' key' condition' current hc ha hcur hcond hobjects hrevision => cases hc

theorem getElem?_of_delete {pre : List (γ × Call)} {client : γ} {scope : StorageScope}
    {key : ObjectKey} {condition : DeleteCondition}
    (h : sharedAnswer limits pre (client, .delete scope key condition) = .ok (.deleted .deleted)) :
    (after limits (pre ++ [(client, .delete scope key condition)])).objects[identity scope key]? =
      none := by
  cases effect_after limits pre (client, .delete scope key condition) with
  | none hn hs =>
    rw [h] at hn
    cases hn
  | put scope' key' value' condition' version hc ha hcond hrev hobjects hrevision => cases hc
  | delete scope' key' condition' current hc ha hcur hcond hobjects hrevision =>
    cases hc
    rw [hobjects, Std.ExtTreeMap.getElem?_erase_self]

/-- **Versions and conditional writes of the local adapter.** -/
theorem versionLaws : VersionLaws (sharedAnswer (γ := γ) limits) where
  increasing pre c₁ mid c₂ v₁ v₂ h₁ h₂ := increasing_after h₁ h₂
  current pre c v hexp hsucc := by
    obtain ⟨scope, key, e, htarget, he, rfl, -⟩ :=
      expected_present (effect_after limits pre c) hexp hsucc
    obtain ⟨pre₁, client, condition, mid, hpre, hret, hmid⟩ := origin_of_present pre he
    refine ⟨pre₁, client, scope, key, e.value, condition, mid, hpre, htarget, hret, ?_, hmid⟩
    intro reader
    rw [sharedAnswer_get, he]
    rfl
  once pre c₁ mid c₂ v hexp₁ hexp₂ hsucc₁ hsucc₂ := by
    have hspent := spent_of_expected (accounted_after pre) (effect_after limits pre c₁) hexp₁ hsucc₁
    have hspent' := invariant_after (P := Spent v) (fun _ _ _ _ heff h => spent_step heff h)
      hspent mid
    rw [List.append_assoc, List.singleton_append] at hspent'
    obtain ⟨scope, key, e, -, he, hv, -⟩ :=
      expected_present (effect_after limits (pre ++ c₁ :: mid) c₂) hexp₂ hsucc₂
    exact hspent'.2 _ e he hv
  stored pre client scope key value condition v mid reader hput hmid := by
    have hentry := getElem?_of_untouched hmid
    rw [getElem?_of_put hput, List.append_assoc, List.singleton_append] at hentry
    rw [sharedAnswer_get, hentry]
    rfl
  removed pre client scope key condition mid reader hdelete hmid := by
    have hentry := getElem?_of_untouched hmid
    rw [getElem?_of_delete hdelete, List.append_assoc, List.singleton_append] at hentry
    rw [sharedAnswer_get, hentry]
    rfl
  absent pre scope key reader hpre := by
    have hentry := getElem?_of_untouched hpre
    rw [List.nil_append] at hentry
    rw [sharedAnswer_get, hentry]
    rfl

end Interleaving

end Local

/-- The redb store under concurrent use. -/
def Redb.sharedAnswer {γ : Type} (limits : StorageLimits) (trace : List (γ × Call))
    (c : γ × Call) : Answer :=
  ((Redb.store limits).shared γ).answer Redb.initializeTables trace c

theorem Redb.sharedAnswer_eq {γ : Type} (limits : StorageLimits) :
    Redb.sharedAnswer (γ := γ) limits = Local.sharedAnswer limits := by
  funext trace c
  unfold Redb.sharedAnswer Local.sharedAnswer
  rw [Machine.answer_shared, Machine.answer_shared, Redb.answer_eq]

/-- **Versions and conditional writes.** Over every interleaving of any clients' calls, both
adapters give out strictly increasing versions and apply at most one write conditioned on each,
on exactly the object it names; and every get answers the last update of its object. -/
theorem versionLaws_of_both_adapters (γ : Type) (limits : StorageLimits) :
    VersionLaws (Local.sharedAnswer (γ := γ) limits) ∧
      VersionLaws (Redb.sharedAnswer (γ := γ) limits) := by
  rw [Redb.sharedAnswer_eq]
  exact ⟨Local.versionLaws, Local.versionLaws⟩

end RustFactory.Storage
