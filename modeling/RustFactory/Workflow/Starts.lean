import RustFactory.Workflow.Interleaving

/-!
# Workflows: one run for each start key

However concurrent starts interleave, a start key gets at most one run and the invoker is called
for it at most once.  A start that comes later gets the summary of the run that is there, or a
conflict if its input differs, and changes nothing.
-/

namespace RustFactory.Workflow

open RustFactory.Lib RustFactory.Agent

section

variable {γ : Type} {p : Platform} {calls : γ → Call} {s : Sys γ}

theorem Inv.eq_of_key_eq (h : Inv p calls s) {id id' : LogicalId} {run run' : Run}
    (hrun : s.shared.store.runs[id]? = some run) (hrun' : s.shared.store.runs[id']? = some run')
    (hkey : run.identity.key = run'.identity.key) : id = id' := by
  have h1 := h.indexed.byKey _ _ (h.indexed.found _ _ hrun)
  have h2 := h.indexed.byKey _ _ (h.indexed.found _ _ hrun')
  rw [hkey, h2] at h1
  have h3 := h.indexed.found _ _ hrun
  rw [← Option.some.inj h1, h.indexed.found _ _ hrun'] at h3
  exact (Option.some.inj h3).symm

/-- An identity that shares its key with an indexed one, but is another, is not indexed. -/
theorem Inv.not_indexed (h : Inv p calls s) {identity other : StartIdentity} {id : LogicalId}
    (hid : s.shared.store.identities[identity]? = some id) (hkey : other.key = identity.key)
    (hne : other ≠ identity) : s.shared.store.identities[other]? = none := by
  cases hother : s.shared.store.identities[other]? with
  | none => rfl
  | some id' =>
    have h1 := h.indexed.byKey _ _ hid
    rw [← hkey, h.indexed.byKey _ _ hother] at h1
    exact absurd (Option.some.inj h1) hne

variable [DecidableEq γ]

/-- The system after a schedule. -/
def reached (p : Platform) (calls : γ → Call) (schedule : List γ) : Sys γ :=
  (runner p calls).final (Sys.new γ) schedule

theorem reached_concat (schedule : List γ) (t : γ) : reached p calls (schedule ++ [t]) =
    ((runner p calls).step (reached p calls schedule) t).2 := Machine.final_concat ..

theorem step_pc_self (t : γ) : ((runner p calls).step s t).2.pc t =
    (advance p (calls t) s.shared (s.pc t)).1 := Function.update_self ..

theorem step_pc_of_ne {t u : γ} (h : u ≠ t) : ((runner p calls).step s t).2.pc u = s.pc u :=
  Function.update_of_ne h ..

/-- The system in which the call `t` has returned and nothing else has changed. -/
def Sys.answered (s : Sys γ) (t : γ) (result : Except WorkflowError RunSummary) : Sys γ :=
  { s with pc := Function.update s.pc t (.returned result) }

theorem step_of_existing {t : γ} {call : StartCall} {prepared : Prepared} {id : LogicalId}
    {stored : Run} (hcall : calls t = .start call) (hprepare : prepare p call = .ok prepared)
    (hready : s.pc t = .ready) (hid : s.shared.store.identities[prepared.identity]? = some id)
    (hstored : s.shared.store.runs[id]? = some stored) :
    ((runner p calls).step s t).2 = s.answered t (.ok (.ofRun stored)) := by
  have hcreate : Store.createOrReturn s.shared.store prepared.identity prepared.run =
      (.ok (.existing stored), s.shared.store) := by
    unfold Store.createOrReturn
    simp only [hid, hstored]
    rfl
  have hadvance : advance p (calls t) s.shared (s.pc t) =
      (.returned (.ok (.ofRun stored)), s.shared, []) := by
    rw [hcall, hready]
    simp only [advance, advanceStart, hprepare, hcreate]
  show Sys.mk _ _ _ = _
  rw [hadvance]
  show Sys.mk _ _ (s.log ++ []) = _
  rw [List.append_nil]
  rfl

/-- The answer to a start whose key is taken by another identity. -/
theorem step_of_conflict {t : γ} {call : StartCall} {prepared : Prepared}
    (hcall : calls t = .start call) (hprepare : prepare p call = .ok prepared)
    (hready : s.pc t = .ready) (hid : s.shared.store.identities[prepared.identity]? = none)
    (hkey : s.shared.store.keys.contains prepared.identity.key = true) :
    ((runner p calls).step s t).2 = s.answered t (.error .runKeyConflict) := by
  have hcreate : Store.createOrReturn s.shared.store prepared.identity prepared.run =
      (.ok .conflict, s.shared.store) := by
    unfold Store.createOrReturn
    simp only [hid, hkey, if_true]
  have hadvance : advance p (calls t) s.shared (s.pc t) =
      (.returned (.error .runKeyConflict), s.shared, []) := by
    rw [hcall, hready]
    simp only [advance, advanceStart, hprepare, hcreate]
  show Sys.mk _ _ _ = _
  rw [hadvance]
  show Sys.mk _ _ (s.log ++ []) = _
  rw [List.append_nil]
  rfl

/-- In every interleaving of any number of starts (and cancellations), each start key has at most
one creation, one stored run and one invocation.  A start that reaches the store after the run
was created returns the summary of that run, if it has the same identity, or a conflict, if its
digest differs; in both cases nothing else changes. -/
theorem one_run_for_each_start_key (p : Platform) (calls : γ → Call)
    (hcollision : NoCollision p calls) (schedule : List γ) :
    (∀ key, (createdKeys (reached p calls schedule).log).count key ≤ 1 ∧
      (invokedKeys (reached p calls schedule).log).count key ≤ 1) ∧
    (∀ (id id' : LogicalId) (run run' : Run),
      (reached p calls schedule).shared.store.runs[id]? = some run →
      (reached p calls schedule).shared.store.runs[id']? = some run' →
      run.identity.key = run'.identity.key → id = id') ∧
    ∀ t call prepared, calls t = .start call → prepare p call = .ok prepared →
      (reached p calls schedule).pc t = .ready →
      ∀ u identity run, (u, Event.created identity run) ∈ (reached p calls schedule).log →
        (prepared.identity = identity →
          ∃ stored : Run, (reached p calls schedule).shared.store.runs[run.id]? = some stored ∧
            stored.identity = identity ∧ stored.id = run.id ∧ prepared.run.id = run.id ∧
            ((runner p calls).step (reached p calls schedule) t).2 =
              (reached p calls schedule).answered t (.ok (.ofRun stored))) ∧
        (prepared.identity.key = identity.key → prepared.identity ≠ identity →
          ((runner p calls).step (reached p calls schedule) t).2 =
            (reached p calls schedule).answered t (.error .runKeyConflict)) := by
  have hinv : Inv p calls (reached p calls schedule) := inv_final hcollision schedule
  refine ⟨fun key => ⟨List.nodup_iff_count_le_one.mp hinv.created key,
    List.nodup_iff_count_le_one.mp hinv.invoked key⟩,
    fun id id' run run' hrun hrun' hkey => hinv.eq_of_key_eq hrun hrun' hkey, ?_⟩
  intro t call prepared hcall hprepare hready u identity run hmem
  have hid := hinv.logged u identity run hmem
  refine ⟨?_, fun hkey hne => ?_⟩
  · rintro rfl
    obtain ⟨stored, hstored, hidentity⟩ := hinv.indexed.stored _ _ hid
    obtain ⟨t', call', prepared', -, hprepare', hid', hidentity'⟩ := hinv.indexed.origin _ _ hstored
    refine ⟨stored, hstored, hidentity, hinv.indexed.keyed _ _ hstored, ?_,
      step_of_existing hcall hprepare hready hid hstored⟩
    rw [id_eq_of_identity_eq hprepare hprepare' (hidentity'.trans hidentity).symm, hid']
  · refine step_of_conflict hcall hprepare hready (hinv.not_indexed hid hkey hne) ?_
    rw [hkey, Std.ExtTreeMap.contains_eq_isSome_getElem?, hinv.indexed.byKey _ _ hid]
    rfl

/-- What a call prepares, if it is a start that gets so far. -/
def Call.prepared? (p : Platform) : Call → Option Prepared
  | .start call => (prepare p call).toOption
  | .cancel .. => none

omit [DecidableEq γ] in
theorem noCollision_of_prepared
    (h : ∀ t t', ((calls t).prepared? p).map (fun prepared => prepared.run.id) =
        ((calls t').prepared? p).map (fun prepared => prepared.run.id) →
      ((calls t).prepared? p).map Prepared.identity =
        ((calls t').prepared? p).map Prepared.identity) :
    NoCollision p calls := by
  intro t t' call call' prepared prepared' hcall hcall' hprepare hprepare' hid
  have h1 : (calls t).prepared? p = some prepared := by
    rw [hcall]
    show (prepare p call).toOption = _
    rw [hprepare]
    rfl
  have h2 : (calls t').prepared? p = some prepared' := by
    rw [hcall']
    show (prepare p call').toOption = _
    rw [hprepare']
    rfl
  have := h t t' (by rw [h1, h2]; exact congrArg some hid)
  rw [h1, h2] at this
  exact Option.some.inj this

end

/-- Two starts of one key with different inputs. -/
def sampleStarts : Bool → Call
  | true => .start (sampleStart "\x7b\x7d" 65536 [⟨"result", "done"⟩] (.ok ⟨"scope"⟩))
  | false => .start (sampleStart "[]" 65536 [] (.error .adapterFailure))

theorem noCollision_sampleStarts : NoCollision samplePlatform sampleStarts :=
  noCollision_of_prepared (by decide +kernel)

theorem one_run_for_each_start_key_sampleStarts :
    NoCollision samplePlatform sampleStarts ∧
    (invokedKeys (reached samplePlatform sampleStarts
      [true, true, true, true, false, true, true, true]).log).length = 1 ∧
    ∀ key, (invokedKeys (reached samplePlatform sampleStarts
      [true, true, true, true, false, true, true, true]).log).count key ≤ 1 :=
  ⟨noCollision_sampleStarts, by decide +kernel, fun key =>
    ((one_run_for_each_start_key samplePlatform sampleStarts noCollision_sampleStarts
      [true, true, true, true, false, true, true, true]).1 key).2⟩

end RustFactory.Workflow
