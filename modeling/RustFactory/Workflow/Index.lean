import RustFactory.Workflow.Interleaving

/-!
# Workflows: the indexes of the store

`create_or_return` guards the identity and the start key of a new run, but not its id.  A caller
that brings an id in use replaces the run stored under it, and the identity of that run then points
to the new one.  `creationsKeepRuns_iff` says that this is the only way to break the indexes.
-/

namespace RustFactory.Workflow

open RustFactory.Lib

theorem identity_of_creatable {identity : StartIdentity} {run : Run}
    (h : Store.creatable identity run = true) : run.identity = identity := by
  simp only [Store.creatable, Bool.and_eq_true] at h
  obtain ⟨⟨⟨⟨⟨⟨⟨⟨⟨⟨⟨htenant, hworkflow⟩, hversion⟩, hkey⟩, hdigest⟩, -⟩, -⟩, -⟩, -⟩, -⟩, -⟩, -⟩ := h
  unfold Run.identity
  rw [eq_of_beq htenant, eq_of_beq hworkflow, eq_of_beq hversion, eq_of_beq hkey,
    eq_of_beq hdigest]

namespace Store

/-- Every indexed identity belongs to the run it points to. -/
def State.IndexSound (s : State) : Prop :=
  ∀ (identity : StartIdentity) (id : LogicalId), s.identities[identity]? = some id →
    ∃ run, s.runs[id]? = some run ∧ run.identity = identity

/-- The start key of every stored run is taken. -/
def State.Keyed (s : State) : Prop :=
  ∀ (id : LogicalId) (run : Run), s.runs[id]? = some run → s.keys.contains run.identity.key = true

/-- A call that creates a run brings an id that is not in use. -/
def FreshCreation (s : State) : Call → Prop
  | .createOrReturn identity run =>
    s.identities[identity]? = none → s.keys.contains identity.key = false →
      creatable identity run = true → s.runs[run.id]? = none
  | _ => True

/-- No creation in the sequence alters a run stored before it. -/
def CreationsKeepRuns (calls : List Call) : Prop :=
  ∀ pre identity run post, calls = pre ++ .createOrReturn identity run :: post →
    ∀ (id : LogicalId) (stored : Run), (store.final .new pre).runs[id]? = some stored →
      (store.final .new (pre ++ [.createOrReturn identity run])).runs[id]? = some stored

/-! ## One call -/

theorem State.Keyed.step {s : State} (h : s.Keyed) (call : Call) : (store.step s call).2.Keyed := by
  intro id stored
  generalize hs' : (store.step s call).2 = s'
  cases step_effect hs' with
  | unchanged => exact h id stored
  | created identity run _ _ hcreatable =>
    rw [Std.ExtTreeMap.getElem?_insert, Std.ExtTreeMap.contains_insert]
    split_ifs with hid
    · rintro ⟨⟩
      rw [identity_of_creatable hcreatable]
      simp
    · intro hstored
      rw [h id stored hstored, Bool.or_true]
  | applied tenant runId status change current hfound =>
    rw [Std.ExtTreeMap.getElem?_insert]
    split_ifs with hid
    · rintro ⟨⟩
      exact h runId current hfound
    · exact h id stored

theorem State.IndexSound.step {s : State} {call : Call} (h : s.IndexSound)
    (hfresh : FreshCreation s call) : (store.step s call).2.IndexSound := by
  intro indexed id
  generalize hs' : (store.step s call).2 = s'
  cases step_effect hs' with
  | unchanged => exact h indexed id
  | created identity run hidentity hkey hcreatable =>
    have hunused := hfresh hidentity hkey hcreatable
    rw [Std.ExtTreeMap.getElem?_insert]
    split_ifs with heq
    · rintro ⟨⟩
      rw [compare_eq_iff_eq] at heq
      refine ⟨run, ?_, (identity_of_creatable hcreatable).trans heq⟩
      simp
    · intro hindexed
      obtain ⟨stored, hstored, hsame⟩ := h indexed id hindexed
      refine ⟨stored, ?_, hsame⟩
      rw [Std.ExtTreeMap.getElem?_insert, if_neg]
      · exact hstored
      · rw [compare_eq_iff_eq]
        rintro rfl
        rw [hunused] at hstored
        cases hstored
  | applied tenant runId status change current hfound =>
    intro hindexed
    obtain ⟨stored, hstored, hsame⟩ := h indexed id hindexed
    rw [Std.ExtTreeMap.getElem?_insert]
    split_ifs with hid
    · rw [compare_eq_iff_eq] at hid
      rw [← hid, hfound] at hstored
      cases hstored
      exact ⟨apply current change, rfl, hsame⟩
    · exact ⟨stored, hstored, hsame⟩

/-- A creation keeps all stored runs exactly where its id is not in use: a run that it would leave
as it is has the start key of the new run, and that key was free. -/
theorem keeps_runs_iff_freshCreation {s : State} (h : s.Keyed) {identity : StartIdentity}
    {run : Run} :
    (∀ (id : LogicalId) (stored : Run), s.runs[id]? = some stored →
      (store.step s (.createOrReturn identity run)).2.runs[id]? = some stored) ↔
      FreshCreation s (.createOrReturn identity run) := by
  constructor
  · intro hkeeps hidentity hkey hcreatable
    by_contra hused
    obtain ⟨stored, hstored⟩ := Option.ne_none_iff_exists'.mp hused
    have hkept := hkeeps run.id stored hstored
    have hstep : (store.step s (.createOrReturn identity run)).2.runs = s.runs.insert run.id run := by
      show (createOrReturn s identity run).2.runs = _
      simp only [createOrReturn, hidentity, hkey, hcreatable, Bool.false_eq_true, if_false,
        Bool.not_true]
    rw [hstep, Std.ExtTreeMap.getElem?_insert_self] at hkept
    cases hkept
    have htaken := h run.id run hstored
    rw [identity_of_creatable hcreatable, hkey] at htaken
    cases htaken
  · intro hfresh id stored hstored
    generalize hs' : (store.step s (.createOrReturn identity run)).2 = s'
    cases step_effect hs' with
    | unchanged => exact hstored
    | created _ _ hidentity hkey hcreatable =>
      rw [Std.ExtTreeMap.getElem?_insert, if_neg]
      · exact hstored
      · rw [compare_eq_iff_eq]
        rintro rfl
        rw [hfresh hidentity hkey hcreatable] at hstored
        cases hstored

/-! ## Whole runs -/

theorem keyed_final (calls : List Call) : (store.final .new calls).Keyed :=
  Machine.invariant_final (fun _ call h => h.step call) (fun _ _ h => nomatch h) calls

/-- If every creation so far brought an unused id, the identity index is sound. -/
theorem indexSound_final {calls : List Call}
    (h : ∀ pre call post, calls = pre ++ call :: post →
      FreshCreation (store.final .new pre) call) : (store.final .new calls).IndexSound := by
  induction calls using List.reverseRecOn with
  | nil => exact fun _ _ h => nomatch h
  | append_singleton calls call ih =>
    rw [Machine.final_concat]
    refine (ih fun pre other post heq => ?_).step (h calls call [] rfl)
    exact h pre other (post ++ [call]) (by rw [heq, List.append_assoc, List.cons_append])

/-- Over every sequence of calls, creations keep all stored runs and the identity index stays sound
exactly where every call that creates a run brings an id that is not in use. -/
theorem creationsKeepRuns_iff (calls : List Call) :
    (CreationsKeepRuns calls ∧
      ∀ pre post, calls = pre ++ post → (store.final .new pre).IndexSound) ↔
    ∀ pre call post, calls = pre ++ call :: post → FreshCreation (store.final .new pre) call := by
  constructor
  · rintro ⟨hkeeps, -⟩ pre call post heq
    cases call with
    | createOrReturn identity run =>
      refine (keeps_runs_iff_freshCreation (keyed_final pre)).mp fun id stored hstored => ?_
      rw [← Machine.final_concat]
      exact hkeeps pre identity run post heq id stored hstored
    | get tenant runId => trivial
    | list tenant => trivial
    | transition tenant runId revision status change => trivial
  · intro hfresh
    constructor
    · intro pre identity run post heq id stored hstored
      rw [Machine.final_concat]
      exact (keeps_runs_iff_freshCreation (keyed_final pre)).mpr (hfresh pre _ post heq) id stored
        hstored
    · rintro pre post rfl
      refine indexSound_final fun before call after heq => hfresh before call (after ++ post) ?_
      rw [heq, List.append_assoc, List.cons_append]

/-- A pending run of the given tenant. -/
def sampleRun (tenant : LogicalId) : Run where
  id := ⟨"run", .refl true⟩
  context := ⟨tenant, tenant, tenant, tenant⟩
  workflowId := ⟨"workflow", .refl true⟩
  workflowVersion := .v1
  runKey := "key"
  inputDigest := "digest"
  maxEvidenceBytes := 64
  status := .pending
  revision := 0
  terminalReason := none
  attempt := none
  events := []

/-- Two tenants create a run each, under one run id. -/
def sampleReuse : List Call :=
  [.createOrReturn (sampleRun ⟨"a", .refl true⟩).identity (sampleRun ⟨"a", .refl true⟩),
    .createOrReturn (sampleRun ⟨"b", .refl true⟩).identity (sampleRun ⟨"b", .refl true⟩)]

/-- The second creation replaces the run of the first tenant, whose identity then points to the run
of the second. -/
theorem run_replaced_by_other_tenant :
    ¬CreationsKeepRuns sampleReuse ∧ ¬(store.final .new sampleReuse).IndexSound := by
  constructor
  · intro h
    have hkept := h [.createOrReturn (sampleRun ⟨"a", by decide⟩).identity
      (sampleRun ⟨"a", by decide⟩)] _ _ [] rfl ⟨"run", by decide⟩ (sampleRun ⟨"a", by decide⟩)
      (by decide +kernel)
    exact absurd hkept (by decide +kernel)
  · intro h
    obtain ⟨run, hrun, hidentity⟩ := h (sampleRun ⟨"a", by decide⟩).identity ⟨"run", by decide⟩
      (by decide +kernel)
    have hstored : (store.final .new sampleReuse).runs[(⟨"run", by decide⟩ : LogicalId)]? =
        some (sampleRun ⟨"b", by decide⟩) := by decide +kernel
    rw [hstored] at hrun
    cases hrun
    exact absurd hidentity (by decide)

end Store

end RustFactory.Workflow
