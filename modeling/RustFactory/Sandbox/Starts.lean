import RustFactory.Sandbox.Daemon

/-!
# Sandboxes: concurrent starts

Any number of `start` calls with one identity run against one daemon, a command at a time.  The
daemon registers names atomically, so that there is never more than one container of the identity.
But a start whose `docker run` failed inspects twice: once to adopt a container that another start
may have created, and once more to remove what it may have left behind.  A container created between
the two inspections is removed although its start has succeeded.
-/

namespace RustFactory.Sandbox

open Lib

/-! ## Requests of one identity -/

/-- What the requests have in common. -/
structure Identity where
  tenantId : TenantId
  requestId : RequestId
  correlationId : CorrelationId

/-- What they may differ in. -/
structure Caller where
  principalId : PrincipalId
  profileId : ProfileId

def Identity.request (identity : Identity) (caller : Caller) : StartRequest :=
  ⟨⟨identity.tenantId, caller.principalId, identity.requestId, identity.correlationId⟩,
    caller.profileId⟩

section Identity

variable (sandbox : DockerSandbox) (sha256 : Sha256) (identity : Identity)

/-- The text that the identity is hashed to. -/
def Identity.derivedText : String :=
  "sbx-" ++ String.ofList ((sha256.hexDigest
    (utf8 "rust-factory:sandbox:v1" ++ 0 :: (utf8 sandbox.owner ++
      0 :: (utf8 identity.tenantId.asStr ++ 0 :: (utf8 identity.requestId.asStr ++
        0 :: utf8 identity.correlationId.asStr))))).toList.take 32)

theorem Identity.sandboxId_derivedText :
    Sandbox.sandboxId (identity.derivedText sandbox sha256) = true := by
  unfold Identity.derivedText
  generalize hinput : utf8 "rust-factory:sandbox:v1" ++ _ = input
  have hhex : ∀ c ∈ (sha256.hexDigest input).toList, isHexChar c := by
    unfold Sha256.hexDigest
    rw [String.toList_ofList]
    exact fun c hc => isHexChar_of_mem_hexChars hc
  have hbytes : utf8 ("sbx-" ++ String.ofList ((sha256.hexDigest input).toList.take 32)) =
      utf8 "sbx-" ++ (utf8 (sha256.hexDigest input)).take 32 := by
    have hall := utf8_ofList_hex hhex
    rw [String.ofList_toList] at hall
    rw [utf8_append, utf8_ofList_hex fun c hc => hhex c (List.mem_of_mem_take hc), List.map_take,
      hall]
  have hlen := byteLen_hexDigest sha256 input
  unfold Sandbox.sandboxId byteLen
  unfold byteLen at hlen
  rw [hbytes, List.length_append, List.length_take, hlen, Bool.and_eq_true, Bool.and_eq_true]
  refine ⟨⟨rfl, List.isPrefixOf_iff_prefix.mpr (List.prefix_append _ _)⟩, ?_⟩
  rw [List.all_eq_true]
  intro byte hbyte
  exact lowercaseHex_of_mem_hexDigest (List.mem_of_mem_take hbyte)

/-- The identifier that all requests of the identity derive. -/
def Identity.sandboxId : SandboxId :=
  ⟨identity.derivedText sandbox sha256, identity.sandboxId_derivedText sandbox sha256⟩

theorem Identity.derivedId_request (caller : Caller) :
    derivedId sandbox sha256 (identity.request caller) =
      .ok (identity.sandboxId sandbox sha256) :=
  dif_pos (identity.sandboxId_derivedText sandbox sha256)

/-- The name of their container. -/
def Identity.name : String := containerName (identity.sandboxId sandbox sha256)

def Identity.target (caller : Caller) : TargetRequest :=
  ⟨(identity.request caller).context, identity.sandboxId sandbox sha256⟩

end Identity

/-! ## Phases of a start -/

section Phases

variable {sandbox : DockerSandbox} {sha256 : Sha256} {identity : Identity} {caller : Caller}

/-- Where a start stands before its next command, as long as it issues no `rm`. -/
inductive Phase (sandbox : DockerSandbox) (sha256 : Sha256) (identity : Identity) (caller : Caller)
    (program : Cli (Except SandboxError StartResult)) : Prop
  | inspecting : program = start sandbox sha256 (identity.request caller) →
      Phase sandbox sha256 identity caller program
  | running (profile : DockerProfile) :
      program = runContainer sandbox (identity.target sandbox sha256 caller)
        (runOptions sandbox (identity.request caller) (identity.sandboxId sandbox sha256) profile) →
      Phase sandbox sha256 identity caller program
  | reinspecting : program = afterFailedRun sandbox (identity.target sandbox sha256 caller) →
      Phase sandbox sha256 identity caller program
  | compensating : program = compensation sandbox (identity.target sandbox sha256 caller) →
      Phase sandbox sha256 identity caller program
  | returned (result : Except SandboxError StartResult) : program = .done result →
      Phase sandbox sha256 identity caller program

/-- What a start does with the answer to its first inspection. -/
def afterInspection (sandbox : DockerSandbox) (sha256 : Sha256) (identity : Identity)
    (caller : Caller) (profile : DockerProfile) (answer : Except SandboxError CliOutput) :
    Cli (Except SandboxError StartResult) :=
  match answer >>= readOwned sandbox (identity.target sandbox sha256 caller) with
  | .error e => .done (.error e)
  | .ok (some owned) => .done (.ok ⟨identity.sandboxId sandbox sha256, owned.status⟩)
  | .ok none => runContainer sandbox (identity.target sandbox sha256 caller)
      (runOptions sandbox (identity.request caller) (identity.sandboxId sandbox sha256) profile)

theorem start_eq : start sandbox sha256 (identity.request caller) =
    match sandbox.profiles[caller.profileId]? with
    | none => .done (.error .invalidRequest)
    | some profile => .call (.inspect (identity.name sandbox sha256))
        (afterInspection sandbox sha256 identity caller profile) := by
  unfold start
  rw [identity.derivedId_request, show (identity.request caller).profileId = caller.profileId from rfl]
  cases sandbox.profiles[caller.profileId]? with
  | none => rfl
  | some profile => rfl

/-- What a start does with the answer to its second inspection. -/
def afterReinspection (sandbox : DockerSandbox) (target : TargetRequest)
    (answer : Except SandboxError CliOutput) : Cli (Except SandboxError StartResult) :=
  match answer >>= readOwned sandbox target with
  | .ok (some owned) => .done (.ok ⟨target.sandboxId, owned.status⟩)
  | .ok none => compensation sandbox target
  | .error e => .done (.error e)

theorem afterFailedRun_eq :
    afterFailedRun sandbox (identity.target sandbox sha256 caller) =
      .call (.inspect (identity.name sandbox sha256))
        (afterReinspection sandbox (identity.target sandbox sha256 caller)) := rfl

theorem runContainer_eq (target : TargetRequest) (options : RunOptions) :
    runContainer sandbox target options = .call (.run options) fun answer =>
      if runSucceeded answer then .done (.ok ⟨target.sandboxId, .running⟩)
      else afterFailedRun sandbox target := rfl

/-- A compensation that finds no container ends without a command. -/
theorem compensation_eq :
    ∃ next, compensation sandbox (identity.target sandbox sha256 caller) =
        .call (.inspect (identity.name sandbox sha256)) next ∧
      ∀ answer, (∀ owned, answer >>= readOwned sandbox (identity.target sandbox sha256 caller) ≠
          .ok (some owned)) →
        ∃ e, next answer = .done (.error e) := by
  refine ⟨_, rfl, fun answer h => ?_⟩
  cases hread : answer >>= readOwned sandbox (identity.target sandbox sha256 caller) with
  | error e =>
    refine ⟨.outcomeUnknown, ?_⟩
    simp only [hread]
    rfl
  | ok found =>
    cases found with
    | some owned => exact absurd hread (h owned)
    | none =>
      refine ⟨.operationFailed, ?_⟩
      simp only [hread]
      rfl

theorem compensation_eq_rm :
    ∃ next, compensation sandbox (identity.target sandbox sha256 caller) =
        .call (.inspect (identity.name sandbox sha256)) next ∧
      ∀ answer owned,
        answer >>= readOwned sandbox (identity.target sandbox sha256 caller) = .ok (some owned) →
        ∃ after, next answer = .call (.rm owned.dockerId) after := by
  refine ⟨_, rfl, fun answer owned h => ?_⟩
  simp only [h]
  exact ⟨_, rfl⟩

/-! ## Commands -/

variable {δ χ : Type} {exec : δ → χ → CliCommand → Except SandboxError CliOutput × δ}
  {containers : δ → List Container}

/-- What holds of a start and the containers: the start stands in one of the phases, and if it has
returned `Ok` there is a container. -/
structure Sound (sandbox : DockerSandbox) (sha256 : Sha256) (identity : Identity) (caller : Caller)
    (containers : List Container) (program : Cli (Except SandboxError StartResult)) : Prop where
  phase : Phase sandbox sha256 identity caller program
  has : ∀ result, program = .done (.ok result) → Has containers (identity.name sandbox sha256)

theorem Sound.grown {before after : List Container}
    {program : Cli (Except SandboxError StartResult)}
    (h : Sound sandbox sha256 identity caller before program)
    (hgrown : Grown (identity.name sandbox sha256) before after) :
    Sound sandbox sha256 identity caller after program :=
  ⟨h.phase, fun result heq => hgrown.has (h.has result heq)⟩

theorem sound_failed {present : List Container} (e : SandboxError) :
    Sound sandbox sha256 identity caller present (.done (.error e)) :=
  ⟨.returned _ rfl, nofun⟩

theorem sound_succeeded {present : List Container} (result : StartResult)
    (h : Has present (identity.name sandbox sha256)) :
    Sound sandbox sha256 identity caller present (.done (.ok result)) :=
  ⟨.returned _ rfl, fun _ _ => h⟩

theorem sound_start (present : List Container) :
    Sound sandbox sha256 identity caller present
      (start sandbox sha256 (identity.request caller)) := by
  refine ⟨.inspecting rfl, fun result heq => ?_⟩
  rw [start_eq] at heq
  cases hprofile : sandbox.profiles[caller.profileId]? with
  | none => rw [hprofile] at heq; cases heq
  | some profile => rw [hprofile] at heq; cases heq

theorem has_of_inspect (hdaemon : TruthfulDaemon exec containers) {daemon : δ} {choice : χ}
    {name : String} {request : TargetRequest} {owned : OwnedContainer}
    (h : (exec daemon choice (.inspect name)).1 >>= readOwned sandbox request = .ok (some owned)) :
    Has (containers daemon) name := by
  by_contra habsent
  exact hdaemon.inspect_none habsent choice sandbox request owned h

/-- One command of a start.  A compensating inspection must find no container. -/
theorem phase_step (hdaemon : TruthfulDaemon exec containers) {daemon : δ} (choice : χ)
    {command : CliCommand}
    {next : Except SandboxError CliOutput → Cli (Except SandboxError StartResult)}
    (hphase : Phase sandbox sha256 identity caller (.call command next))
    (hundisturbed : Program.call command next =
        compensation sandbox (identity.target sandbox sha256 caller) →
      ¬Has (containers daemon) (identity.name sandbox sha256)) :
    Grown (identity.name sandbox sha256) (containers daemon)
        (containers (exec daemon choice command).2) ∧
      Sound sandbox sha256 identity caller (containers (exec daemon choice command).2)
        (next (exec daemon choice command).1) := by
  cases hphase with
  | inspecting heq =>
    rw [start_eq] at heq
    cases hprofile : sandbox.profiles[caller.profileId]? with
    | none => rw [hprofile] at heq; cases heq
    | some profile =>
      rw [hprofile] at heq
      cases heq
      rw [hdaemon.inspect_keeps]
      refine ⟨Grown.refl _ _, ?_⟩
      unfold afterInspection
      cases hread : (exec daemon choice (.inspect (identity.name sandbox sha256))).1 >>=
        readOwned sandbox (identity.target sandbox sha256 caller) with
      | error e => exact sound_failed e
      | ok found =>
        cases found with
        | some owned => exact sound_succeeded _ (has_of_inspect hdaemon hread)
        | none => exact ⟨.running profile rfl, nofun⟩
  | running profile heq =>
    rw [runContainer_eq] at heq
    cases heq
    have hgrown := (hdaemon.run_registers daemon choice (runOptions sandbox
      (identity.request caller) (identity.sandboxId sandbox sha256) profile)).grown
    refine ⟨hgrown, ?_⟩
    dsimp only
    split_ifs with hsucceeded
    · exact sound_succeeded _ (hdaemon.run_succeeded hsucceeded)
    · exact ⟨.reinspecting rfl, nofun⟩
  | reinspecting heq =>
    rw [afterFailedRun_eq] at heq
    cases heq
    rw [hdaemon.inspect_keeps]
    refine ⟨Grown.refl _ _, ?_⟩
    unfold afterReinspection
    cases hread : (exec daemon choice (.inspect (identity.name sandbox sha256))).1 >>=
      readOwned sandbox (identity.target sandbox sha256 caller) with
    | error e => exact sound_failed e
    | ok found =>
      cases found with
      | some owned => exact sound_succeeded _ (has_of_inspect hdaemon hread)
      | none =>
        obtain ⟨next, hnext, -⟩ := @compensation_eq sandbox sha256 identity caller
        exact ⟨.compensating rfl, fun result heq => by rw [hnext] at heq; cases heq⟩
  | compensating heq =>
    have habsent := hundisturbed heq
    obtain ⟨next', hnext, hfailed⟩ := @compensation_eq sandbox sha256 identity caller
    rw [hnext] at heq
    cases heq
    obtain ⟨e, he⟩ := hfailed _ (hdaemon.inspect_none habsent choice sandbox _)
    rw [hdaemon.inspect_keeps, he]
    exact ⟨Grown.refl _ _, sound_failed e⟩
  | returned result heq => cases heq

end Phases

/-! ## Interleavings -/

section Pool

variable {δ χ ι : Type} [DecidableEq ι]

/-- The starts of one identity over a daemon with states `δ`. -/
abbrev Starts (δ ι : Type) :=
  Pool δ ι CliCommand (Except SandboxError CliOutput) (Except SandboxError StartResult)

def startPool (sandbox : DockerSandbox) (sha256 : Sha256) (identity : Identity)
    (callers : ι → Caller) (daemon : δ) : Starts δ ι :=
  ⟨daemon, fun i => start sandbox sha256 (identity.request (callers i))⟩

/-- The starts after some commands. -/
def startRun (exec : δ → χ → CliCommand → Except SandboxError CliOutput × δ)
    (sandbox : DockerSandbox) (sha256 : Sha256) (identity : Identity) (callers : ι → Caller)
    (daemon : δ) (inputs : List (ι × χ)) : Starts δ ι :=
  (Pool.machine exec).final (startPool sandbox sha256 identity callers daemon) inputs

/-- If the next command of the start is the inspection of its compensation, there is no container
of the identity. -/
def Undisturbed (containers : δ → List Container) (sandbox : DockerSandbox) (sha256 : Sha256)
    (identity : Identity) (callers : ι → Caller) (pool : Starts δ ι) (input : ι × χ) : Prop :=
  pool.programs input.1 =
      compensation sandbox (identity.target sandbox sha256 (callers input.1)) →
    ¬Has (containers pool.shared) (identity.name sandbox sha256)

variable {exec : δ → χ → CliCommand → Except SandboxError CliOutput × δ}
  {containers : δ → List Container} {sandbox : DockerSandbox} {sha256 : Sha256}
  {identity : Identity} {callers : ι → Caller}

theorem registered_run (hdaemon : TruthfulDaemon exec containers) {pool : Starts δ ι}
    (hregistered : Registered (containers pool.shared)) (inputs : List (ι × χ)) :
    Registered (containers ((Pool.machine exec).final pool inputs).shared) := by
  refine Machine.invariant_final (P := fun pool : Starts δ ι => Registered (containers pool.shared))
    (fun pool input hpool => ?_) hregistered inputs
  cases hprogram : pool.programs input.1 with
  | done result =>
    rw [Pool.step_done hprogram]
    exact hpool
  | call command next =>
    rw [Pool.step_call hprogram]
    exact hdaemon.exec_registered hpool input.2 command

/-- Along an undisturbed run the containers only grow. -/
theorem undisturbed_run (hdaemon : TruthfulDaemon exec containers) {pool : Starts δ ι}
    (hsound : ∀ i, Sound sandbox sha256 identity (callers i) (containers pool.shared)
      (pool.programs i))
    {inputs : List (ι × χ)}
    (h : ∀ pre input post, inputs = pre ++ input :: post →
      Undisturbed containers sandbox sha256 identity callers
        ((Pool.machine exec).final pool pre) input) :
    Grown (identity.name sandbox sha256) (containers pool.shared)
        (containers ((Pool.machine exec).final pool inputs).shared) ∧
      ∀ i, Sound sandbox sha256 identity (callers i)
        (containers ((Pool.machine exec).final pool inputs).shared)
        (((Pool.machine exec).final pool inputs).programs i) := by
  refine Pool.invariant_run
    (P := fun daemon => Grown (identity.name sandbox sha256) (containers pool.shared)
      (containers daemon))
    (Q := fun daemon i program => Sound sandbox sha256 identity (callers i) (containers daemon)
      program)
    ?_ (Grown.refl _ _) hsound h
  intro pool input command next hgrown hprogram heq hundisturbed
  obtain ⟨hgrown', hself⟩ := phase_step hdaemon input.2 hprogram.phase
    fun hcompensation => hundisturbed (heq.trans hcompensation)
  exact ⟨hgrown.trans hgrown', hself, fun i program hother => hother.grown hgrown'⟩

/-- **Undisturbed starts.**  There is at most one container of the identity in every state of every
run.  In a run in which no compensating inspection finds a container, the starts have created no
container of another name, and the container of a start that has returned `Ok` stays. -/
theorem starts_keep_container (hdaemon : TruthfulDaemon exec containers) (sandbox : DockerSandbox)
    (sha256 : Sha256) (identity : Identity) (callers : ι → Caller) (daemon : δ)
    (hregistered : Registered (containers daemon)) (inputs : List (ι × χ)) :
    ((containers (startRun exec sandbox sha256 identity callers daemon inputs).shared).filter
      fun container => container.name = identity.name sandbox sha256).length ≤ 1 ∧
    ((∀ pre input post, inputs = pre ++ input :: post →
        Undisturbed containers sandbox sha256 identity callers
          (startRun exec sandbox sha256 identity callers daemon pre) input) →
      (∀ container ∈ containers
          (startRun exec sandbox sha256 identity callers daemon inputs).shared,
        container ∈ containers daemon ∨ container.name = identity.name sandbox sha256) ∧
      ∀ pre post, inputs = pre ++ post → ∀ i result,
        (startRun exec sandbox sha256 identity callers daemon pre).programs i =
          .done (.ok result) →
        ∃ container ∈ containers
            (startRun exec sandbox sha256 identity callers daemon pre).shared,
          container.name = identity.name sandbox sha256 ∧
          container ∈ containers
            (startRun exec sandbox sha256 identity callers daemon inputs).shared) := by
  refine ⟨(registered_run hdaemon hregistered inputs).length_filter_le _, fun h => ?_⟩
  have hstart : ∀ i, Sound sandbox sha256 identity (callers i)
      (containers (startPool sandbox sha256 identity callers daemon).shared)
      ((startPool sandbox sha256 identity callers daemon).programs i) := fun i => sound_start _
  refine ⟨(undisturbed_run hdaemon hstart h).1.created, ?_⟩
  intro pre post heq i result hresult
  have hpre : ∀ front input back, pre = front ++ input :: back →
      Undisturbed containers sandbox sha256 identity callers
        (startRun exec sandbox sha256 identity callers daemon front) input :=
    fun front input back hfront => h front input (back ++ post) (by
      rw [heq, hfront, List.append_assoc, List.cons_append])
  obtain ⟨-, hsound⟩ := undisturbed_run hdaemon hstart hpre
  obtain ⟨container, hmem, hname⟩ := (hsound i).has result hresult
  have hpost : ∀ front input back, post = front ++ input :: back →
      Undisturbed containers sandbox sha256 identity callers
        ((Pool.machine exec).final (startRun exec sandbox sha256 identity callers daemon pre) front)
        input := by
    intro front input back hfront
    have hall := h (pre ++ front) input back (by rw [heq, hfront, List.append_assoc])
    unfold startRun at hall
    rwa [Machine.final_append] at hall
  refine ⟨container, hmem, hname, ?_⟩
  have hkept := (undisturbed_run hdaemon hsound hpost).1.kept container hmem
  unfold startRun at hkept ⊢
  rwa [heq, Machine.final_append]

/-! ## A disturbed run -/

/-- A start whose `docker run` fails comes to its compensation, and nothing else has changed. -/
theorem final_failed_run {pool : Starts Daemon ι} {i : ι} {profile : DockerProfile}
    (hprofile : sandbox.profiles[(callers i).profileId]? = some profile)
    (hprogram : pool.programs i = start sandbox sha256 (identity.request (callers i)))
    (hfind : pool.shared.find (identity.name sandbox sha256) = none)
    (first last : Choice) (answer : Except SandboxError String) :
    (Pool.machine Daemon.exec).final pool [(i, first), (i, .fail answer), (i, last)] =
      ⟨pool.shared, Function.update pool.programs i
        (compensation sandbox (identity.target sandbox sha256 (callers i)))⟩ := by
  rw [start_eq, hprofile] at hprogram
  rw [Pool.final_call hprogram, exec_inspect]
  unfold afterInspection
  rw [exec_inspect_none hfind]
  dsimp only
  obtain ⟨hsame, hfailed⟩ := exec_run_fail pool.shared answer
    (runOptions sandbox (identity.request (callers i)) (identity.sandboxId sandbox sha256) profile)
  rw [runContainer_eq, Pool.final_update_call, hsame, if_neg hfailed, afterFailedRun_eq,
    Pool.final_update_call, exec_inspect]
  unfold afterReinspection
  rw [exec_inspect_none hfind]
  rfl

/-- A start that creates the container returns `Ok`. -/
theorem final_created {pool : Starts Daemon ι} {j : ι} {profile : DockerProfile}
    (hprofile : sandbox.profiles[(callers j).profileId]? = some profile)
    (hprogram : pool.programs j = start sandbox sha256 (identity.request (callers j)))
    (hfind : pool.shared.find (identity.name sandbox sha256) = none)
    {dockerId : String} (hid : canonicalDockerId dockerId) (first : Choice) :
    ∃ daemon container, (Pool.machine Daemon.exec).final pool [(j, first), (j, .create dockerId)] =
        ⟨daemon, Function.update pool.programs j
          (.done (.ok ⟨identity.sandboxId sandbox sha256, .running⟩))⟩ ∧
      daemon.find (identity.name sandbox sha256) = some container ∧
      ∀ caller, container.Owned sandbox (identity.target sandbox sha256 caller) := by
  rw [start_eq, hprofile] at hprogram
  rw [Pool.final_call hprogram, exec_inspect]
  unfold afterInspection
  rw [exec_inspect_none hfind]
  dsimp only
  have hoptions : pool.shared.find (runOptions sandbox (identity.request (callers j))
      (identity.sandboxId sandbox sha256) profile).name = none := hfind
  obtain ⟨hsucceeded, container, hcontainer, howner, htenant, hsandbox⟩ :=
    exec_run_create hoptions hid
  rw [runContainer_eq, Pool.final_update_call, if_pos hsucceeded]
  exact ⟨_, container, rfl, hcontainer, fun caller => ⟨howner, htenant, hsandbox⟩⟩

/-- A compensation that finds the container of the identity removes it. -/
theorem final_compensation {pool : Starts Daemon ι} {i : ι}
    (hprogram : pool.programs i =
      compensation sandbox (identity.target sandbox sha256 (callers i)))
    {container : Container}
    (hfind : pool.shared.find (identity.name sandbox sha256) = some container)
    (howned : container.Owned sandbox (identity.target sandbox sha256 (callers i)))
    (first last : Choice) :
    ((Pool.machine Daemon.exec).final pool [(i, first), (i, last)]).shared.find
      (identity.name sandbox sha256) = none := by
  obtain ⟨next, hnext, hrm⟩ := @compensation_eq_rm sandbox sha256 identity (callers i)
  have hread : (pool.shared.exec first (.inspect (identity.name sandbox sha256))).1 >>=
      readOwned sandbox (identity.target sandbox sha256 (callers i)) =
        .ok (some ⟨container.dockerId, container.running⟩) := by
    unfold Daemon.exec
    simp only [hfind, ok_bind]
    exact readOwned_report howned
  obtain ⟨after, hafter⟩ := hrm _ _ hread
  rw [hnext] at hprogram
  rw [Pool.final_call hprogram, exec_inspect, hafter, Pool.final_update_call, Machine.final_nil]
  exact exec_rm hfind last

/-- A container created between the two inspections of a failed start is removed by it, although the
start that created it has returned `Ok`. -/
theorem disturbed_start_removes {daemon : Daemon}
    (hfind : daemon.find (identity.name sandbox sha256) = none) {i j : ι} (hij : i ≠ j)
    {profile profile' : DockerProfile}
    (hi : sandbox.profiles[(callers i).profileId]? = some profile)
    (hj : sandbox.profiles[(callers j).profileId]? = some profile') {dockerId : String}
    (hid : canonicalDockerId dockerId) (idle : Choice) (answer : Except SandboxError String) :
    let pre := [(i, idle), (i, .fail answer), (i, idle), (j, idle), (j, .create dockerId)]
    (startRun Daemon.exec sandbox sha256 identity callers daemon pre).programs j =
        .done (.ok ⟨identity.sandboxId sandbox sha256, .running⟩) ∧
      Has (startRun Daemon.exec sandbox sha256 identity callers daemon pre).shared.containers
        (identity.name sandbox sha256) ∧
      (startRun Daemon.exec sandbox sha256 identity callers daemon
        (pre ++ [(i, idle), (i, idle)])).shared.find (identity.name sandbox sha256) = none := by
  have hfailed := final_failed_run hi
    (show (startPool sandbox sha256 identity callers daemon).programs i = _ from rfl)
    hfind idle idle answer
  let waiting : Starts Daemon ι :=
    ⟨daemon, Function.update (startPool sandbox sha256 identity callers daemon).programs i
      (compensation sandbox (identity.target sandbox sha256 (callers i)))⟩
  have hstarting : waiting.programs j = start sandbox sha256 (identity.request (callers j)) :=
    Function.update_of_ne hij.symm _ _
  obtain ⟨daemon', container, hcreated, hcontainer, howned⟩ :=
    final_created hj hstarting hfind hid idle
  have hpre : startRun Daemon.exec sandbox sha256 identity callers daemon
      ([(i, idle), (i, .fail answer), (i, idle)] ++ [(j, idle), (j, .create dockerId)]) =
        ⟨daemon', Function.update waiting.programs j
          (.done (.ok ⟨identity.sandboxId sandbox sha256, .running⟩))⟩ := by
    unfold startRun
    rw [Machine.final_append, hfailed]
    exact hcreated
  rw [List.cons_append, List.cons_append, List.cons_append, List.nil_append] at hpre
  dsimp only
  refine ⟨?_, ?_, ?_⟩
  · rw [hpre]
    exact Function.update_self _ _ _
  · rw [hpre]
    exact ⟨container, List.mem_of_find?_eq_some hcontainer,
      by simpa using List.find?_some hcontainer⟩
  · unfold startRun at hpre ⊢
    rw [Machine.final_append, hpre]
    refine final_compensation ?_ hcontainer (howned (callers i)) idle idle
    exact (Function.update_of_ne hij _ _).trans (Function.update_self _ _ _)

theorem exec_fail_empty {daemon : Daemon} (h : daemon.containers = [])
    (answer : Except SandboxError String) (command : CliCommand) :
    (daemon.exec (.fail answer) command).2.containers = [] := by
  cases command with
  | inspect name => rw [exec_inspect, h]
  | run options => rw [(exec_run_fail daemon answer options).1, h]
  | rm dockerId =>
    have hany : ¬daemon.containers.any fun container => container.dockerId = dockerId := by
      rw [h]
      exact Bool.false_ne_true
    unfold Daemon.exec
    dsimp only
    rw [if_neg hany]
    exact h
  | exec options =>
    unfold Daemon.exec
    dsimp only
    split_ifs
    · exact h
    · exact h

theorem containers_of_all_fail {pool : Starts Daemon ι} (hempty : pool.shared.containers = [])
    {inputs : List (ι × Choice)} (h : ∀ input ∈ inputs, ∃ answer, input.2 = .fail answer) :
    ((Pool.machine Daemon.exec).final pool inputs).shared.containers = [] := by
  induction inputs generalizing pool with
  | nil => exact hempty
  | cons input inputs ih =>
    obtain ⟨⟨answer, hinput⟩, hrest⟩ := List.forall_mem_cons.mp h
    rw [Machine.final_cons]
    refine ih ?_ hrest
    cases hprogram : pool.programs input.1 with
    | done result => rwa [Pool.step_done hprogram]
    | call command next =>
      rw [Pool.step_call hprogram, hinput]
      exact exec_fail_empty hempty answer command

end Pool

def sampleSandbox : DockerSandbox where
  owner := String.ofList (List.replicate 64 'a')
  profiles := (∅ : BTreeMap ProfileId DockerProfile).insert ⟨"rust", by decide +kernel⟩
    ⟨"rust", "1000", 67108864, 100, 16⟩
  valid := by decide +kernel
  served := fun h => Std.ExtTreeMap.insert_ne_empty (Std.ExtTreeMap.isEmpty_iff.mp h)

def sampleIdentity : Identity :=
  ⟨⟨"tenant", by decide +kernel⟩, ⟨"request", by decide +kernel⟩, ⟨"correlation", by decide +kernel⟩⟩

def sampleCaller : Caller := ⟨⟨"principal", by decide +kernel⟩, ⟨"rust", by decide +kernel⟩⟩

def sampleDockerId : String := String.ofList (List.replicate 64 '0')

theorem canonicalDockerId_sample : canonicalDockerId sampleDockerId = true := by decide +kernel

theorem sampleSandbox_profile :
    sampleSandbox.profiles[sampleCaller.profileId]? = some ⟨"rust", "1000", 67108864, 100, 16⟩ :=
  Std.ExtTreeMap.getElem?_insert_self

/-- SHA-256 at the text of the identity. -/
def sampleSha256 : Sha256 := .ofTable [(utf8 "rust-factory:sandbox:v1" ++
    0 :: (List.replicate 64 97 ++ 0 :: (utf8 "tenant" ++ 0 :: (utf8 "request" ++
      0 :: utf8 "correlation"))),
  [0x51, 0x13, 0x62, 0x82, 0x11, 0x4c, 0xd4, 0xf2, 0x56, 0x32, 0xd6, 0x8e, 0x20, 0xdc, 0x2a, 0xeb,
    0x24, 0x32, 0xbe, 0xfd, 0x76, 0xfb, 0x14, 0xd5, 0x70, 0x5d, 0x11, 0xd9, 0xcc, 0x7b, 0xc3, 0x6b])]
  (by decide)

example : sampleIdentity.derivedText sampleSandbox sampleSha256 =
    "sbx-51136282114cd4f25632d68e20dc2aeb" := by
  decide +kernel

def noContainers : Daemon := ⟨[], List.nodup_nil⟩

/-- A failed `docker run`; the choice is idle for the other commands. -/
def noSpaceLeft : Choice := .fail (.ok "no space left on device")

/-- One start fails and finds no container; then another one creates it. -/
def undisturbedInputs : List (Bool × Choice) :=
  [(false, noSpaceLeft), (false, noSpaceLeft), (false, noSpaceLeft), (true, noSpaceLeft),
    (true, .create sampleDockerId)]

/-- The failed start goes on to its compensation. -/
def disturbedInputs : List (Bool × Choice) :=
  undisturbedInputs ++ [(false, noSpaceLeft), (false, noSpaceLeft)]

theorem disturbed_sample :
    (startRun Daemon.exec sampleSandbox sampleSha256 sampleIdentity (fun _ => sampleCaller)
        noContainers undisturbedInputs).programs true =
        .done (.ok ⟨sampleIdentity.sandboxId sampleSandbox sampleSha256, .running⟩) ∧
      Has (startRun Daemon.exec sampleSandbox sampleSha256 sampleIdentity (fun _ => sampleCaller)
          noContainers undisturbedInputs).shared.containers
        (sampleIdentity.name sampleSandbox sampleSha256) ∧
      (startRun Daemon.exec sampleSandbox sampleSha256 sampleIdentity (fun _ => sampleCaller)
        noContainers disturbedInputs).shared.find
        (sampleIdentity.name sampleSandbox sampleSha256) = none :=
  disturbed_start_removes rfl Bool.false_ne_true sampleSandbox_profile sampleSandbox_profile
    canonicalDockerId_sample noSpaceLeft (.ok "no space left on device")

theorem undisturbed_sample (pre : List (Bool × Choice)) (input : Bool × Choice)
    (post : List (Bool × Choice)) (h : undisturbedInputs = pre ++ input :: post) :
    Undisturbed Daemon.containers sampleSandbox sampleSha256 sampleIdentity (fun _ => sampleCaller)
      (startRun Daemon.exec sampleSandbox sampleSha256 sampleIdentity (fun _ => sampleCaller)
        noContainers pre) input := by
  have hpre : ∀ input ∈ pre, ∃ answer, input.2 = Choice.fail answer := by
    have hlen : pre.length ≤ 4 := by
      have hlen := congrArg List.length h
      rw [List.length_append, List.length_cons] at hlen
      have hfive : undisturbedInputs.length = 5 := rfl
      omega
    have htake : pre <+: undisturbedInputs.take 4 :=
      List.prefix_take_iff.mpr ⟨⟨input :: post, h.symm⟩, hlen⟩
    have hall : ∀ input ∈ undisturbedInputs.take 4, input.2 = noSpaceLeft := by
      simp [undisturbedInputs]
    exact fun input hinput => ⟨_, hall input (htake.subset hinput)⟩
  intro _
  unfold startRun
  rw [containers_of_all_fail rfl hpre]
  rintro ⟨container, hmem, -⟩
  cases hmem

theorem starts_keep_container_sample :
    ∃ container ∈ (startRun Daemon.exec sampleSandbox sampleSha256 sampleIdentity
        (fun _ => sampleCaller) noContainers undisturbedInputs).shared.containers,
      container.name = sampleIdentity.name sampleSandbox sampleSha256 := by
  obtain ⟨container, hmem, hname, -⟩ :=
    ((starts_keep_container Daemon.truthful sampleSandbox sampleSha256 sampleIdentity
      (fun _ => sampleCaller) noContainers noContainers.names undisturbedInputs).2
        undisturbed_sample).2 undisturbedInputs [] (List.append_nil _).symm true _
          disturbed_sample.1
  exact ⟨container, hmem, hname⟩

/-- The container of a start that has returned `Ok` is removed by another start. -/
theorem starts_lose_container :
    ∃ result, (startRun Daemon.exec sampleSandbox sampleSha256 sampleIdentity
        (fun _ => sampleCaller) noContainers undisturbedInputs).programs true =
          .done (.ok result) ∧
      ¬∃ container ∈ (startRun Daemon.exec sampleSandbox sampleSha256 sampleIdentity
          (fun _ => sampleCaller) noContainers undisturbedInputs).shared.containers,
        container.name = sampleIdentity.name sampleSandbox sampleSha256 ∧
        container ∈ (startRun Daemon.exec sampleSandbox sampleSha256 sampleIdentity
          (fun _ => sampleCaller) noContainers disturbedInputs).shared.containers := by
  obtain ⟨hresult, -, hnone⟩ := disturbed_sample
  refine ⟨_, hresult, ?_⟩
  rintro ⟨container, -, hname, hmem⟩
  exact Daemon.find_eq_none.mp hnone ⟨container, hmem, hname⟩

end RustFactory.Sandbox
