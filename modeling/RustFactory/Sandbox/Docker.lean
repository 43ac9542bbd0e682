import RustFactory.Lib.BTreeMap
import RustFactory.Lib.Except
import RustFactory.Lib.Program
import RustFactory.Lib.Text

/-!
# Sandboxes: the Docker adapter

The adapter drives the `docker` command line.  Each of its operations is a program that issues
commands and reads their outputs; what it knows of a container it knows from the line an `inspect`
printed.  The name of a container is derived from the identity of the request that starts it.
-/

namespace RustFactory.Sandbox

open Lib

/-- What an operation of a sandbox can fail with. -/
inductive SandboxError where
  | invalidRequest
  | notFound
  | denied
  | limitExceeded
  | timeout
  | unavailable
  | outcomeUnknown
  | operationFailed
  deriving DecidableEq

/-! ## Requests -/

/-- A lowercase hexadecimal digit. -/
def isLowerHex (byte : UInt8) : Bool := isAsciiDigit byte || (97 ≤ byte && byte ≤ 102)

/-- The pattern `[a-z0-9][a-z0-9_-]{0,127}`. -/
def logicalId (value : String) : Bool :=
  byteLen value ≤ 128 && match utf8 value with
    | [] => false
    | first :: rest => (isAsciiLowercase first || isAsciiDigit first) &&
        rest.all fun byte => isAsciiLowercase byte || isAsciiDigit byte || byte == 45 || byte == 95

/-- An identifier of the sandbox crate. -/
structure LogicalId where
  asStr : String
  valid : logicalId asStr
  deriving DecidableEq

/-- Whose sandbox it is. -/
abbrev TenantId := LogicalId

/-- On whose behalf it is used. -/
abbrev PrincipalId := LogicalId

/-- The request itself. -/
abbrev RequestId := LogicalId

/-- The chain of requests that a request belongs to. -/
abbrev CorrelationId := LogicalId

/-- The name of a profile. -/
abbrev ProfileId := LogicalId

instance : LinearOrder LogicalId :=
  LinearOrder.lift' LogicalId.asStr fun a b h => by cases a; cases b; cases h; rfl

/-- The text `sbx-` and 32 hexadecimal digits. -/
def sandboxId (value : String) : Bool :=
  byteLen value == 36 && (utf8 "sbx-").isPrefixOf (utf8 value) &&
    ((utf8 value).drop 4).all isLowerHex

/-- The identifier of a sandbox. -/
structure SandboxId where
  asStr : String
  valid : sandboxId asStr
  deriving DecidableEq

/-- A checked identifier of a sandbox. -/
def SandboxId.new (value : String) : Except SandboxError SandboxId :=
  if h : sandboxId value then .ok ⟨value, h⟩ else .error .invalidRequest

/-- The identity of a request. -/
structure SandboxContext where
  tenantId : TenantId
  principalId : PrincipalId
  requestId : RequestId
  correlationId : CorrelationId
  deriving DecidableEq

/-- The longest name of a program, in bytes. -/
def maxProgramBytes : ℕ := 256

/-- The most arguments of a command. -/
def maxArguments : ℕ := 32

/-- The longest argument, in bytes. -/
def maxArgumentBytes : ℕ := 4096

/-- The length of all arguments together. -/
def maxArgumentsBytes : ℕ := 16 * 1024

/-- The longest path of a working directory, in bytes. -/
def maxWorkingDirectoryBytes : ℕ := 1024

/-- The longest time a command may take. -/
def maxTimeoutMillis : UInt64 := 5 * 60 * 1000

/-- A text within its bound and without NUL. -/
def boundedText (value : String) (maximum : ℕ) (allowEmpty : Bool) : Bool :=
  (allowEmpty || value ≠ "") && byteLen value ≤ maximum && !value.toList.contains (Char.ofNat 0)

/-- The components of the path are names: none is the root, the current or the parent directory.  The
current directory is a component at the front only. -/
def relativePath (value : String) : Bool :=
  boundedText value maxWorkingDirectoryBytes true &&
    (value = "" || ((split '/' value).head? ≠ some "" && (split '/' value).head? ≠ some "." &&
      !(split '/' value).contains ".."))

/-- A command within all bounds, with a program, a path below the workspace and some time. -/
def checkCommand (program : String) (arguments : List String) (workingDirectory : String)
    (timeoutMillis : UInt64) : Except SandboxError Unit :=
  if maxProgramBytes < byteLen program || maxArguments < arguments.length ||
      arguments.any (fun value => maxArgumentBytes < byteLen value) ||
      maxArgumentsBytes < (arguments.map byteLen).sum ||
      maxWorkingDirectoryBytes < byteLen workingDirectory || maxTimeoutMillis < timeoutMillis then
    .error .limitExceeded
  else if boundedText program maxProgramBytes false &&
      arguments.all (fun value => boundedText value maxArgumentBytes true) &&
      relativePath workingDirectory && 0 < timeoutMillis then .ok ()
  else .error .invalidRequest

/-- A command to execute in a sandbox. -/
structure Command where
  program : String
  arguments : List String
  workingDirectory : String
  timeoutMillis : UInt64
  valid : checkCommand program arguments workingDirectory timeoutMillis = .ok ()

/-- A checked command. -/
def Command.new (program : String) (arguments : List String) (workingDirectory : String)
    (timeoutMillis : UInt64) : Except SandboxError Command :=
  match h : checkCommand program arguments workingDirectory timeoutMillis with
  | .ok () => .ok ⟨program, arguments, workingDirectory, timeoutMillis, h⟩
  | .error e => .error e

/-- The request to start a sandbox with a profile. -/
structure StartRequest where
  context : SandboxContext
  profileId : ProfileId

/-- The request to execute a command in a sandbox. -/
structure ExecuteRequest where
  context : SandboxContext
  sandboxId : SandboxId
  command : Command

/-- A request about a sandbox. -/
structure TargetRequest where
  context : SandboxContext
  sandboxId : SandboxId

/-- Whether a sandbox runs. -/
inductive SandboxStatus where
  | running
  | stopped
  deriving DecidableEq

/-- The answer to a start. -/
structure StartResult where
  sandboxId : SandboxId
  status : SandboxStatus
  deriving DecidableEq

/-- What a command has left. -/
structure ExecuteResult where
  sandboxId : SandboxId
  exitCode : ℤ
  stdout : String
  stderr : String
  truncated : Bool
  deriving DecidableEq

/-- The answer to a question for the status. -/
structure StatusResult where
  sandboxId : SandboxId
  status : SandboxStatus
  deriving DecidableEq

/-- The answer to a stop: whether there was something to remove. -/
structure StopResult where
  sandboxId : SandboxId
  removed : Bool
  deriving DecidableEq

/-- The image of a container and the resources it gets. -/
structure DockerProfile where
  image : String
  user : String
  memoryBytes : UInt64
  cpuMillis : UInt32
  pids : UInt32

/-! ## The command line -/

/-- The options of `docker run` that depend on the request. -/
structure RunOptions where
  name : String
  owner : String
  tenant : String
  sandbox : String
  profile : DockerProfile

/-- The arguments of `docker exec`, and the time it may take. -/
structure ExecOptions where
  workdir : String
  dockerId : String
  program : String
  arguments : List String
  timeoutMillis : UInt64

/-- The commands of the adapter. -/
inductive CliCommand where
  | inspect (name : String)
  | run (options : RunOptions)
  | rm (dockerId : String)
  | exec (options : ExecOptions)

/-- What a command of the command line leaves. -/
structure CliOutput where
  code : ℤ
  stdout : String
  stderr : String

/-- An operation of the adapter. -/
abbrev Cli (α : Type) := Program CliCommand (Except SandboxError CliOutput) α

/-- The owner is a digest in lowercase hexadecimal. -/
def validOwner (owner : String) : Bool := byteLen owner == 64 && (utf8 owner).all isLowerHex

/-- The adapter: whose containers it handles, and its profiles. -/
structure DockerSandbox where
  owner : String
  profiles : BTreeMap ProfileId DockerProfile
  valid : validOwner owner
  served : ¬profiles.isEmpty

/-- An adapter with a proper owner and at least one profile. -/
def DockerSandbox.new (owner : String) (profiles : BTreeMap ProfileId DockerProfile) :
    Except SandboxError DockerSandbox :=
  if h : validOwner owner ∧ ¬profiles.isEmpty then .ok ⟨owner, profiles, h.1, h.2⟩
  else .error .invalidRequest

/-- What the adapter keeps of a container of its own. -/
structure OwnedContainer where
  dockerId : String
  running : Bool
  deriving DecidableEq

/-- The status of the container. -/
def OwnedContainer.status (owned : OwnedContainer) : SandboxStatus :=
  if owned.running then .running else .stopped

/-- The full identifier that the daemon gives a container. -/
def canonicalDockerId (value : String) : Bool :=
  byteLen value == 64 && (utf8 value).all isLowerHex

/-- The output says that there is no such container. -/
def confirmedNotFound (output : CliOutput) : Bool :=
  output.stderr.toList.tails.any fun rest => "No such container".toList.isPrefixOf rest

section Operations

variable (sandbox : DockerSandbox)

/-- The name of the container of a sandbox. -/
def containerName (id : SandboxId) : String := "rf-" ++ id.asStr

/-- What `inspect_owned` makes of the output of `docker inspect`. -/
def readOwned (request : TargetRequest) (output : CliOutput) :
    Except SandboxError (Option OwnedContainer) :=
  if output.code ≠ 0 then
    if confirmedNotFound output then .ok none else .error .unavailable
  else
    match split '|' (trim output.stdout) with
    | [dockerId, owner, tenant, sandboxId, running] =>
      if !canonicalDockerId dockerId || owner ≠ sandbox.owner ||
          tenant ≠ request.context.tenantId.asStr || sandboxId ≠ request.sandboxId.asStr then
        .error .denied
      else if running = "true" then .ok (some ⟨dockerId, true⟩)
      else if running = "false" then .ok (some ⟨dockerId, false⟩)
      else .error .operationFailed
    | _ => .error .denied

/-- Looks for the container of a sandbox, which must carry the labels of the adapter and the
request. -/
def inspectOwned (request : TargetRequest) : Cli (Except SandboxError (Option OwnedContainer)) :=
  .call (.inspect (containerName request.sandboxId)) fun answer =>
    .done (answer >>= readOwned sandbox request)

/-- Removes the container of a sandbox, if there is one. -/
def removeOwned (request : TargetRequest) : Cli (Except SandboxError Bool) := do
  match ← inspectOwned sandbox request with
  | .error _ => pure (.error .outcomeUnknown)
  | .ok none => pure (.ok false)
  | .ok (some owned) =>
    match ← Program.issue (.rm owned.dockerId) with
    | .error e => pure (.error e)
    | .ok output => pure (if output.code = 0 then .ok true else .error .outcomeUnknown)

/-- Removes what a failed start may have left behind. -/
def compensateStart (request : TargetRequest) : Cli (Except SandboxError Unit) := do
  let removed ← removeOwned sandbox request
  pure (removed.map fun _ => ())

/-- The identity of the request, hashed. -/
def derivedId (sha256 : Sha256) (request : StartRequest) : Except SandboxError SandboxId :=
  SandboxId.new ("sbx-" ++ String.ofList ((sha256.hexDigest
    (utf8 "rust-factory:sandbox:v1" ++ 0 :: (utf8 sandbox.owner ++
      0 :: (utf8 request.context.tenantId.asStr ++ 0 :: (utf8 request.context.requestId.asStr ++
        0 :: utf8 request.context.correlationId.asStr))))).toList.take 32))

/-- The options that start a container for a request. -/
def runOptions (request : StartRequest) (id : SandboxId) (profile : DockerProfile) : RunOptions where
  name := containerName id
  owner := sandbox.owner
  tenant := request.context.tenantId.asStr
  sandbox := id.asStr
  profile := profile

/-- What `start` does once `docker run` has failed and the second inspection found nothing. -/
def compensation (target : TargetRequest) : Cli (Except SandboxError StartResult) := do
  match ← compensateStart sandbox target with
  | .error _ => pure (.error .outcomeUnknown)
  | .ok () => pure (.error .operationFailed)

/-- What `start` does once `docker run` has failed. -/
def afterFailedRun (target : TargetRequest) : Cli (Except SandboxError StartResult) := do
  match ← inspectOwned sandbox target with
  | .ok (some owned) => pure (.ok ⟨target.sandboxId, owned.status⟩)
  | .ok none => compensation sandbox target
  | .error e => pure (.error e)

/-- The answer to a successful `docker run`. -/
def runSucceeded : Except SandboxError CliOutput → Bool
  | .ok output => output.code == 0 && canonicalDockerId (trim output.stdout)
  | .error _ => false

/-- What `start` does once the first inspection found nothing. -/
def runContainer (target : TargetRequest) (options : RunOptions) :
    Cli (Except SandboxError StartResult) := do
  let answer ← Program.issue (.run options)
  if runSucceeded answer then pure (.ok ⟨target.sandboxId, .running⟩)
  else afterFailedRun sandbox target

/-- Starts a sandbox, or finds the one that the same request has started. -/
def start (sha256 : Sha256) (request : StartRequest) : Cli (Except SandboxError StartResult) :=
  match sandbox.profiles[request.profileId]?, derivedId sandbox sha256 request with
  | none, _ => pure (.error .invalidRequest)
  | some _, .error e => pure (.error e)
  | some profile, .ok id => do
    let target : TargetRequest := ⟨request.context, id⟩
    match ← inspectOwned sandbox target with
    | .error e => pure (.error e)
    | .ok (some owned) => pure (.ok ⟨id, owned.status⟩)
    | .ok none => runContainer sandbox target (runOptions sandbox request id profile)

/-- The options that execute a command in a container. -/
def execOptions (request : ExecuteRequest) (owned : OwnedContainer) : ExecOptions where
  workdir := if request.command.workingDirectory = "" then "/workspace"
    else "/workspace/" ++ request.command.workingDirectory
  dockerId := owned.dockerId
  program := request.command.program
  arguments := request.command.arguments
  timeoutMillis := request.command.timeoutMillis

/-- What `execute` does once `docker exec` has been answered. -/
def afterExec (request : ExecuteRequest) (answer : Except SandboxError CliOutput) :
    Cli (Except SandboxError ExecuteResult) :=
  match answer with
  | .ok output => pure (.ok ⟨request.sandboxId, output.code, output.stdout, output.stderr, false⟩)
  | .error e =>
    if e = .timeout ∨ e = .limitExceeded then do
      match ← removeOwned sandbox ⟨request.context, request.sandboxId⟩ with
      | .error _ => pure (.error .outcomeUnknown)
      | .ok _ => pure (.error e)
    else pure (.error e)

/-- Executes a command in a running sandbox. -/
def execute (request : ExecuteRequest) : Cli (Except SandboxError ExecuteResult) := do
  match ← inspectOwned sandbox ⟨request.context, request.sandboxId⟩ with
  | .error e => pure (.error e)
  | .ok none => pure (.error .notFound)
  | .ok (some owned) =>
    if !owned.running then pure (.error .notFound)
    else do
      let answer ← Program.issue (.exec (execOptions request owned))
      afterExec sandbox request answer

/-- Whether a sandbox runs. -/
def status (request : TargetRequest) : Cli (Except SandboxError StatusResult) := do
  match ← inspectOwned sandbox request with
  | .error e => pure (.error e)
  | .ok none => pure (.error .notFound)
  | .ok (some owned) => pure (.ok ⟨request.sandboxId, owned.status⟩)

/-- Removes a sandbox. -/
def stop (request : TargetRequest) : Cli (Except SandboxError StopResult) := do
  match ← removeOwned sandbox request with
  | .error e => pure (.error e)
  | .ok removed => pure (.ok ⟨request.sandboxId, removed⟩)

end Operations

end RustFactory.Sandbox
