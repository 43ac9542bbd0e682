import RustFactory.Sandbox.Starts

/-!
# Sandboxes: no container of another owner is touched

The docker command line may answer anything.  Whatever it answers, and however the calls of all
tenants follow one another, a command that removes a container or runs something in it names a
container that the command directly before it, of the same call, has reported as the caller's own.
-/

namespace RustFactory.Sandbox

open Lib

/-! ## Calls -/

/-- A call of the adapter. -/
inductive Call where
  | start (request : StartRequest)
  | execute (request : ExecuteRequest)
  | status (request : TargetRequest)
  | stop (request : TargetRequest)

/-- What a call returns. -/
inductive Reply where
  | start (result : Except SandboxError StartResult)
  | execute (result : Except SandboxError ExecuteResult)
  | status (result : Except SandboxError StatusResult)
  | stop (result : Except SandboxError StopResult)

/-- A command and its answer. -/
abbrev Event := CliCommand × Except SandboxError CliOutput

section Calls

variable (sandbox : DockerSandbox) (sha256 : Sha256)

def Call.program : Call → Cli Reply
  | .start request => do return .start (← Sandbox.start sandbox sha256 request)
  | .execute request => do return .execute (← Sandbox.execute sandbox request)
  | .status request => do return .status (← Sandbox.status sandbox request)
  | .stop request => do return .stop (← Sandbox.stop sandbox request)

/-- Whose sandbox the call is about. -/
def Call.target : Call → Except SandboxError TargetRequest
  | .start request => do return ⟨request.context, ← derivedId sandbox sha256 request⟩
  | .execute request => .ok ⟨request.context, request.sandboxId⟩
  | .status request => .ok request
  | .stop request => .ok request

/-- The events of a sequence of calls, call by call.  The command line answers from all that went
before. -/
def session (oracle : List Event → CliCommand → Except SandboxError CliOutput)
    (history : List Event) : List Call → List (Call × List Event)
  | [] => []
  | call :: calls =>
    let events := ((call.program sandbox sha256).run oracle history).1
    (call, events) :: session oracle (history ++ events) calls

end Calls

/-- The container that a command removes or runs something in. -/
def CliCommand.subject : CliCommand → Option String
  | .inspect _ => none
  | .run _ => none
  | .rm dockerId => some dockerId
  | .exec options => some options.dockerId

/-- The output of an inspection reports the container with exactly the labels of the adapter and the
request: they are its fields, however it is read as a line of five fields. -/
structure Reported (sandbox : DockerSandbox) (request : TargetRequest) (output : CliOutput)
    (dockerId : String) : Prop where
  succeeded : output.code = 0
  labels : ∃ running, trim output.stdout = (String.singleton '|').intercalate
    [dockerId, sandbox.owner, request.context.tenantId.asStr, request.sandboxId.asStr, running]
  exact : ∀ dockerId' owner tenant sandboxId running,
    trim output.stdout = (String.singleton '|').intercalate
      [dockerId', owner, tenant, sandboxId, running] →
    dockerId' = dockerId ∧ owner = sandbox.owner ∧ tenant = request.context.tenantId.asStr ∧
      sandboxId = request.sandboxId.asStr

/-- A command that touches a container comes directly after an inspection that reported it. -/
def Touches (sandbox : DockerSandbox) (target : Except SandboxError TargetRequest)
    (last : Option Event) (command : CliCommand) : Prop :=
  ∀ dockerId ∈ command.subject, ∃ request output, target = .ok request ∧
    last = some (.inspect (containerName request.sandboxId), .ok output) ∧
    Reported sandbox request output dockerId

/-! ## Calls obey it -/

section Obeys

variable {sandbox : DockerSandbox} {sha256 : Sha256}

/-- What the adapter takes for its own container has five fields, four of them known. -/
theorem readOwned_eq_some {request : TargetRequest} {output : CliOutput} {owned : OwnedContainer}
    (h : readOwned sandbox request output = .ok (some owned)) :
    output.code = 0 ∧ ∃ running, split '|' (trim output.stdout) =
      [owned.dockerId, sandbox.owner, request.context.tenantId.asStr, request.sandboxId.asStr,
        running] := by
  unfold readOwned at h
  by_cases hcode : output.code = 0
  · refine ⟨hcode, ?_⟩
    rw [if_neg (not_not.mpr hcode)] at h
    split at h
    next dockerId owner tenant sandboxId running hfields =>
      by_cases hlabels : !canonicalDockerId dockerId || owner ≠ sandbox.owner ||
          tenant ≠ request.context.tenantId.asStr || sandboxId ≠ request.sandboxId.asStr
      · rw [if_pos hlabels] at h
        cases h
      · rw [if_neg hlabels] at h
        simp only [Bool.or_eq_true, decide_eq_true_eq, not_or, ne_eq, not_not] at hlabels
        obtain ⟨⟨⟨-, rfl⟩, rfl⟩, rfl⟩ := hlabels
        refine ⟨running, ?_⟩
        rw [hfields]
        split_ifs at h with htrue hfalse
        · cases h
          rfl
        · cases h
          rfl
    next => cases h
  · rw [if_pos hcode] at h
    split_ifs at h
    cases h

theorem reported_of_readOwned {request : TargetRequest} {output : CliOutput}
    {owned : OwnedContainer} (h : readOwned sandbox request output = .ok (some owned)) :
    Reported sandbox request output owned.dockerId := by
  obtain ⟨hcode, running, hfields⟩ := readOwned_eq_some h
  refine ⟨hcode, ⟨running, ?_⟩, ?_⟩
  · rw [← hfields, intercalate_split]
  · intro dockerId' owner tenant sandboxId running' hline
    rw [hline, split_intercalate_eq_flatMap (List.cons_ne_nil _ _)] at hfields
    rw [flatMap_split_eq (by rw [hfields]; exact le_rfl)] at hfields
    simp only [List.cons.injEq] at hfields
    exact ⟨hfields.1, hfields.2.1, hfields.2.2.1, hfields.2.2.2.1⟩

theorem touches_of_subject_none {target : Except SandboxError TargetRequest} {last : Option Event}
    {command : CliCommand} (h : command.subject = none) : Touches sandbox target last command := by
  intro dockerId hid
  rw [h] at hid
  cases hid

theorem touches_of_inspect {request : TargetRequest} {answer : Except SandboxError CliOutput}
    {owned : OwnedContainer} (h : answer >>= readOwned sandbox request = .ok (some owned))
    {command : CliCommand} (hsubject : command.subject = some owned.dockerId) :
    Touches sandbox (.ok request)
      (some (.inspect (containerName request.sandboxId), answer)) command := by
  obtain ⟨output, rfl, hread⟩ := bind_eq_ok.mp h
  intro dockerId hid
  rw [hsubject] at hid
  cases hid
  exact ⟨request, output, rfl, rfl, reported_of_readOwned hread⟩

theorem removeOwned_obeys (request : TargetRequest) (last : Option Event) :
    (removeOwned sandbox request).Obeys (Touches sandbox (.ok request)) last := by
  refine ⟨touches_of_subject_none rfl, fun answer => ?_⟩
  show Program.Obeys _ ((Program.done (answer >>= readOwned sandbox request)) >>= _) _
  rw [Program.done_bind]
  cases hread : answer >>= readOwned sandbox request with
  | error e => trivial
  | ok found =>
    cases found with
    | none => trivial
    | some owned =>
      refine ⟨touches_of_inspect hread rfl, fun answer => ?_⟩
      cases answer with
      | error e => trivial
      | ok output => trivial

theorem status_obeys (request : TargetRequest) (last : Option Event) :
    (status sandbox request).Obeys (Touches sandbox (.ok request)) last := by
  refine ⟨touches_of_subject_none rfl, fun answer => ?_⟩
  show Program.Obeys _ ((Program.done (answer >>= readOwned sandbox request)) >>= _) _
  rw [Program.done_bind]
  cases answer >>= readOwned sandbox request with
  | error e => trivial
  | ok found =>
    cases found with
    | none => trivial
    | some owned => trivial

theorem stop_obeys (request : TargetRequest) (last : Option Event) :
    (stop sandbox request).Obeys (Touches sandbox (.ok request)) last := by
  refine (removeOwned_obeys request last).bind fun result last => ?_
  cases result with
  | error e => trivial
  | ok removed => trivial

/-- The removal after a failed `docker exec` starts with an inspection of its own. -/
theorem afterExec_obeys (request : ExecuteRequest) (answer : Except SandboxError CliOutput)
    (last : Option Event) :
    (afterExec sandbox request answer).Obeys
      (Touches sandbox (.ok ⟨request.context, request.sandboxId⟩)) last := by
  unfold afterExec
  cases answer with
  | ok output => trivial
  | error e =>
    dsimp only
    split_ifs
    · refine (removeOwned_obeys _ last).bind fun result last => ?_
      cases result with
      | error e => trivial
      | ok removed => trivial
    · trivial

theorem execute_obeys (request : ExecuteRequest) (last : Option Event) :
    (execute sandbox request).Obeys
      (Touches sandbox (.ok ⟨request.context, request.sandboxId⟩)) last := by
  refine ⟨touches_of_subject_none rfl, fun answer => ?_⟩
  show Program.Obeys _ ((Program.done (answer >>= readOwned sandbox _)) >>= _) _
  rw [Program.done_bind]
  cases hread : answer >>= readOwned sandbox ⟨request.context, request.sandboxId⟩ with
  | error e => trivial
  | ok found =>
    cases found with
    | none => trivial
    | some owned =>
      dsimp only
      split_ifs
      · trivial
      · exact ⟨touches_of_inspect hread rfl, fun answer => afterExec_obeys request answer _⟩

theorem compensation_obeys (target : TargetRequest) (last : Option Event) :
    (compensation sandbox target).Obeys (Touches sandbox (.ok target)) last := by
  have hcompensate : (compensateStart sandbox target).Obeys (Touches sandbox (.ok target)) last :=
    (removeOwned_obeys target last).bind fun _ _ => trivial
  refine hcompensate.bind fun result last => ?_
  cases result with
  | error e => trivial
  | ok _ => trivial

theorem afterFailedRun_obeys (target : TargetRequest) (last : Option Event) :
    (afterFailedRun sandbox target).Obeys (Touches sandbox (.ok target)) last := by
  refine ⟨touches_of_subject_none rfl, fun answer => ?_⟩
  show Program.Obeys _ ((Program.done (answer >>= readOwned sandbox target)) >>= _) _
  rw [Program.done_bind]
  cases answer >>= readOwned sandbox target with
  | error e => trivial
  | ok found =>
    cases found with
    | none => exact compensation_obeys target _
    | some owned => trivial

theorem start_obeys (request : StartRequest) (last : Option Event) :
    (start sandbox sha256 request).Obeys
      (Touches sandbox ((Call.start request).target sandbox sha256)) last := by
  unfold start
  cases sandbox.profiles[request.profileId]? with
  | none => trivial
  | some profile =>
    cases hid : derivedId sandbox sha256 request with
    | error e => trivial
    | ok id =>
      have htarget : (Call.start request).target sandbox sha256 = .ok ⟨request.context, id⟩ := by
        unfold Call.target
        dsimp only
        rw [hid]
        rfl
      rw [htarget]
      refine ⟨touches_of_subject_none rfl, fun answer => ?_⟩
      show Program.Obeys _ ((Program.done (answer >>= readOwned sandbox _)) >>= _) _
      rw [Program.done_bind]
      cases answer >>= readOwned sandbox ⟨request.context, id⟩ with
      | error e => trivial
      | ok found =>
        cases found with
        | some owned => trivial
        | none =>
          refine ⟨touches_of_subject_none rfl, fun answer => ?_⟩
          show Program.Obeys _ ((Program.done answer) >>= _) _
          rw [Program.done_bind]
          split_ifs
          · trivial
          · exact afterFailedRun_obeys _ _

theorem Call.program_obeys (call : Call) :
    (call.program sandbox sha256).Obeys (Touches sandbox (call.target sandbox sha256)) none := by
  cases call with
  | start request => exact (start_obeys request none).bind fun _ _ => trivial
  | execute request => exact (execute_obeys request none).bind fun _ _ => trivial
  | status request => exact (status_obeys request none).bind fun _ _ => trivial
  | stop request => exact (stop_obeys request none).bind fun _ _ => trivial

end Obeys

/-! ## Sessions -/

/-- The events of a call of a session are those of a run of its program. -/
theorem exists_run_of_mem_session {sandbox : DockerSandbox} {sha256 : Sha256}
    {oracle : List Event → CliCommand → Except SandboxError CliOutput} {history : List Event}
    {calls : List Call} {entry : Call × List Event}
    (h : entry ∈ session sandbox sha256 oracle history calls) :
    ∃ history', entry.2 = ((entry.1.program sandbox sha256).run oracle history').1 := by
  induction calls generalizing history with
  | nil => cases h
  | cons call calls ih =>
    rcases List.mem_cons.mp h with rfl | h
    · exact ⟨history, rfl⟩
    · exact ih h

/-- **Ownership.**  In every session, whatever the command line answers, a command that removes a
container or runs something in it comes directly after an inspection, of the same call, that has
reported this container with exactly the labels of the adapter and the request.  So the removal after
a failed `docker exec` follows an inspection of its own. -/
theorem session_touches_own (sandbox : DockerSandbox) (sha256 : Sha256)
    (oracle : List Event → CliCommand → Except SandboxError CliOutput) (calls : List Call) :
    ∀ entry ∈ session sandbox sha256 oracle [] calls, ∀ before event after,
      entry.2 = before ++ event :: after → ∀ dockerId ∈ event.1.subject,
        ∃ request output, entry.1.target sandbox sha256 = .ok request ∧
          before.getLast? = some (.inspect (containerName request.sandboxId), .ok output) ∧
          Reported sandbox request output dockerId := by
  intro entry hentry before event after hevents
  obtain ⟨history, hrun⟩ := exists_run_of_mem_session hentry
  rw [hevents] at hrun
  have htouches := entry.1.program_obeys.run oracle history hrun.symm
  rwa [Option.or_none] at htouches

def sampleTarget : TargetRequest where
  context := (sampleIdentity.request sampleCaller).context
  sandboxId := sampleIdentity.sandboxId sampleSandbox sampleSha256

def sampleContainer : Container where
  dockerId := sampleDockerId
  name := containerName sampleTarget.sandboxId
  owner := sampleSandbox.owner
  tenant := sampleTarget.context.tenantId.asStr
  sandbox := sampleTarget.sandboxId.asStr
  running := true
  canonical := canonicalDockerId_sample

/-- Every inspection reports the container, and every other command succeeds. -/
def sampleOracle (_ : List Event) : CliCommand → Except SandboxError CliOutput
  | .inspect _ => .ok ⟨0, sampleContainer.report, ""⟩
  | _ => .ok ⟨0, "", ""⟩

def sampleInspection : Event :=
  (.inspect (containerName sampleTarget.sandboxId), .ok ⟨0, sampleContainer.report, ""⟩)

theorem session_sample :
    session sampleSandbox sampleSha256 sampleOracle [] [.stop sampleTarget] =
      [(.stop sampleTarget, [sampleInspection] ++ (.rm sampleDockerId, .ok ⟨0, "", ""⟩) :: [])] := by
  have hread := readOwned_report (⟨rfl, rfl, rfl⟩ : sampleContainer.Owned sampleSandbox sampleTarget)
  unfold session Call.program stop removeOwned inspectOwned
  simp only [Program.call_bind, Program.done_bind, Program.run, sampleOracle, ok_bind, hread]
  rfl

theorem session_touches_own_sample :
    ∃ request output, (Call.stop sampleTarget).target sampleSandbox sampleSha256 = .ok request ∧
      [sampleInspection].getLast? =
        some (.inspect (containerName request.sandboxId), .ok output) ∧
      Reported sampleSandbox request output sampleDockerId := by
  have hmem : (Call.stop sampleTarget,
      [sampleInspection] ++ (CliCommand.rm sampleDockerId, .ok ⟨0, "", ""⟩) :: []) ∈
        session sampleSandbox sampleSha256 sampleOracle [] [.stop sampleTarget] := by
    rw [session_sample]
    exact List.mem_cons_self
  exact session_touches_own sampleSandbox sampleSha256 sampleOracle [.stop sampleTarget] _ hmem
    [sampleInspection] (.rm sampleDockerId, .ok ⟨0, "", ""⟩) [] rfl sampleDockerId rfl

end RustFactory.Sandbox
