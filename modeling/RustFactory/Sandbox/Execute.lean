import RustFactory.Lib.Utf8Lossy
import RustFactory.Mcp.Gates
import RustFactory.Sandbox.Ownership

/-!
# Sandboxes: the output of a command

The bytes that a command leaves are bounded where they are read.  They become a text, in which every
ill-formed sequence is replaced, and the text stands in a JSON response with a bound of its own.  Both
steps may lengthen them, so a command that has run to its end may still be answered with an error.
-/

namespace RustFactory.Sandbox

open Lib Policy
open JsonText (object quoted array)

def maxOutputBytes : ℕ := 32 * 1024
def maxDtoBytes : ℕ := 16 * 1024
def maxResponseBytes : ℕ := 48 * 1024

/-- The code that a caller sees for an error. -/
def SandboxError.asStr : SandboxError → String
  | .invalidRequest => "invalid_request"
  | .notFound => "not_found"
  | .denied => "denied"
  | .limitExceeded => "limit_exceeded"
  | .timeout => "timeout"
  | .unavailable => "unavailable"
  | .outcomeUnknown => "outcome_unknown"
  | .operationFailed => "operation_failed"

/-! ## The process of the command line -/

/-- The end of a process, awaited once its output has been read. -/
inductive WaitOutcome where
  | failed
  | timedOut
  | exited (code : Option UInt32)

/-- What happens to a process of the command line. -/
inductive JobOutcome where
  | notStarted
  | noDeadline
  | noCommunication
  | readTimedOut
  | readFailed
  | read (stdout stderr : Bytes) (wait : WaitOutcome)

/-- The exit code; 128 stands for a process without one and for codes beyond the range. -/
def exitCode : Option UInt32 → ℤ
  | some code => if code.toNat < 2 ^ 31 then code.toNat else 128
  | none => 128

/-- What the adapter makes of a process. -/
def runCli : JobOutcome → Except SandboxError CliOutput
  | .notStarted => .error .unavailable
  | .noDeadline => .error .invalidRequest
  | .noCommunication => .error .operationFailed
  | .readTimedOut => .error .timeout
  | .readFailed => .error .operationFailed
  | .read stdout stderr wait =>
    if maxOutputBytes < stdout.length + stderr.length then .error .limitExceeded
    else
      match wait with
      | .failed => .error .operationFailed
      | .timedOut => .error .timeout
      | .exited code => .ok ⟨exitCode code, fromUtf8Lossy stdout, fromUtf8Lossy stderr⟩

/-- What becomes of the processes, which may depend on everything before. -/
abbrev Docker := List Event → CliCommand → JobOutcome

/-- The adapter's `execute` against the processes. -/
def executeWith (sandbox : DockerSandbox) (docker : Docker) (history : List Event)
    (request : ExecuteRequest) : Except SandboxError ExecuteResult :=
  ((execute sandbox request).run (fun history command => runCli (docker history command)) history).2

/-! ## The tool -/

/-- The input of the tool that executes a command. -/
structure ExecuteInput where
  sandboxId : String
  program : String
  arguments : List String
  workingDirectory : String
  timeoutMillis : UInt64

def ExecuteInput.text (input : ExecuteInput) : String :=
  object [("sandbox_id", quoted input.sandboxId), ("program", quoted input.program),
    ("arguments", array (input.arguments.map quoted)),
    ("working_directory", quoted input.workingDirectory),
    ("timeout_millis", decimal input.timeoutMillis.toNat)]

/-- The decimal text of an integer. -/
def integer : ℤ → String
  | .ofNat n => decimal n
  | .negSucc n => "-" ++ decimal (n + 1)

def ExecuteResult.text (result : ExecuteResult) : String :=
  object [("sandbox_id", quoted result.sandboxId.asStr), ("exit_code", integer result.exitCode),
    ("stdout", quoted result.stdout), ("stderr", quoted result.stderr),
    ("truncated", JsonText.boolean result.truncated)]

def checkSize (text : String) : Except String Unit :=
  if byteLen text ≤ maxDtoBytes then .ok () else .error "limit_exceeded"

def serialize (text : String) : Except String String :=
  if byteLen text ≤ maxResponseBytes then .ok text else .error "limit_exceeded"

/-- The surface over a sandbox, with the policy that guards it. -/
structure SandboxMcp where
  execute : ExecuteRequest → Except SandboxError ExecuteResult
  sha256 : Sha256
  source : Except SandboxError TrustedContextV1
  policy : PolicyResolver

namespace SandboxMcp

variable (mcp : SandboxMcp)

/-- The request that the tool makes of its input, once all checks have passed. -/
def executeRequest (input : ExecuteInput) : Except String ExecuteRequest := do
  checkSize input.text
  let sandboxId ← (SandboxId.new input.sandboxId).mapError (·.asStr)
  let command ← (Command.new input.program input.arguments input.workingDirectory
    input.timeoutMillis).mapError (·.asStr)
  let context ← (authorize mcp.sha256 mcp.source mcp.policy .sandboxExecute).mapError (·.asStr)
  .ok ⟨context, sandboxId, command⟩

/-- The tool that executes a command. -/
def executeJson (input : ExecuteInput) : Except String String := do
  let request ← mcp.executeRequest input
  let result ← (mcp.execute request).mapError (·.asStr)
  serialize result.text

end SandboxMcp

/-! ## A command that runs to its end -/

/-- The sandbox runs, and the process that executes the command has left these bytes and exited. -/
def Finishes (sandbox : DockerSandbox) (docker : Docker) (history : List Event)
    (request : ExecuteRequest) (stdout stderr : Bytes) (code : Option UInt32) : Prop :=
  ∃ owned : OwnedContainer, owned.running = true ∧
    let inspect : CliCommand := .inspect (containerName request.sandboxId)
    let answer := runCli (docker history inspect)
    (answer >>= readOwned sandbox ⟨request.context, request.sandboxId⟩) = .ok (some owned) ∧
      docker (history ++ [(inspect, answer)]) (.exec (execOptions request owned)) =
        .read stdout stderr (.exited code)

/-- What the adapter returns for a command that has run to its end. -/
def resultOf (request : ExecuteRequest) (stdout stderr : Bytes) (code : Option UInt32) :
    ExecuteResult where
  sandboxId := request.sandboxId
  exitCode := exitCode code
  stdout := fromUtf8Lossy stdout
  stderr := fromUtf8Lossy stderr
  truncated := false

section Finished

variable {sandbox : DockerSandbox} {docker : Docker} {history : List Event}
  {request : ExecuteRequest} {stdout stderr : Bytes} {code : Option UInt32}

theorem runCli_of_accepted (haccepted : stdout.length + stderr.length ≤ maxOutputBytes) :
    runCli (.read stdout stderr (.exited code)) =
      .ok ⟨exitCode code, fromUtf8Lossy stdout, fromUtf8Lossy stderr⟩ := by
  exact if_neg (Nat.not_lt.mpr haccepted)

theorem executeWith_of_finishes (h : Finishes sandbox docker history request stdout stderr code)
    (haccepted : stdout.length + stderr.length ≤ maxOutputBytes) :
    executeWith sandbox docker history request = .ok (resultOf request stdout stderr code) := by
  obtain ⟨owned, hrunning, hinspect, hexec⟩ := h
  unfold executeWith execute inspectOwned
  rw [Program.call_bind]
  unfold Program.run
  dsimp only
  rw [hinspect, Program.done_bind]
  dsimp only
  rw [hrunning]
  unfold Program.issue
  rw [if_neg (by decide), Program.call_bind]
  unfold Program.run
  dsimp only
  rw [hexec, runCli_of_accepted haccepted, Program.done_bind]
  rfl

/-- What the bytes of a command take in the response. -/
def responseLen (output : Bytes) : ℕ :=
  output.length + decodingGrowth output + (output.map JsonText.escapeGrowth).sum

theorem bodyLen_sandboxId (id : SandboxId) : JsonText.bodyLen id.asStr = 36 := by
  have hid := id.valid
  unfold sandboxId at hid
  simp only [Bool.and_eq_true, beq_iff_eq, List.isPrefixOf_iff_prefix, List.all_eq_true] at hid
  obtain ⟨⟨hlen, rest, hrest⟩, hhex⟩ := hid
  have hhead : ∀ b ∈ utf8 "sbx-", JsonText.escapeGrowth b = 0 := by decide +kernel
  have hdigit : ∀ b : UInt8, isLowerHex b → JsonText.escapeGrowth b = 0 := by decide +kernel
  rw [JsonText.bodyLen_of_bytes, hlen]
  rw [← hrest, List.drop_left' (by decide +kernel)] at hhex
  rw [← hrest, List.forall_mem_append]
  exact ⟨hhead, fun b hb => hdigit b (hhex b hb)⟩

theorem byteLen_text :
    byteLen (resultOf request stdout stderr code).text =
      108 + byteLen (integer (exitCode code)) + responseLen stdout + responseLen stderr := by
  have hnames : byteLen (quoted "sandbox_id") = 12 ∧ byteLen (quoted "exit_code") = 11 ∧
      byteLen (quoted "stdout") = 8 ∧ byteLen (quoted "stderr") = 8 ∧
      byteLen (quoted "truncated") = 11 ∧ byteLen (JsonText.boolean false) = 5 := by
    decide +kernel
  have hobject := additive_byteLen.object_eq [("sandbox_id", quoted request.sandboxId.asStr),
    ("exit_code", integer (exitCode code)), ("stdout", quoted (fromUtf8Lossy stdout)),
    ("stderr", quoted (fromUtf8Lossy stderr)), ("truncated", JsonText.boolean false)]
  simp only [List.map_cons, List.map_nil, List.sum_cons, List.sum_nil, reduceCtorEq, if_false,
    JsonText.byteLen_punctuation, hnames, JsonText.byteLen_quoted (fromUtf8Lossy _),
    JsonText.byteLen_quoted request.sandboxId.asStr, bodyLen_sandboxId, bodyLen_fromUtf8Lossy] at hobject
  unfold ExecuteResult.text resultOf responseLen
  dsimp only
  omega

theorem byteLen_stdout :
    byteLen (resultOf request stdout stderr code).stdout = stdout.length + decodingGrowth stdout :=
  byteLen_fromUtf8Lossy stdout

theorem byteLen_stderr :
    byteLen (resultOf request stdout stderr code).stderr = stderr.length + decodingGrowth stderr :=
  byteLen_fromUtf8Lossy stderr

end Finished

section Carried

variable {sandbox : DockerSandbox} {docker : Docker} {history : List Event} {mcp : SandboxMcp}
  {input : ExecuteInput} {request : ExecuteRequest} {stdout stderr : Bytes} {code : Option UInt32}

/-- The result is within the bound on outputs, and the response carries it. -/
def Carried (mcp : SandboxMcp) (input : ExecuteInput) (request : ExecuteRequest) : Prop :=
  ∃ result, mcp.execute request = .ok result ∧
    byteLen result.stdout + byteLen result.stderr ≤ maxOutputBytes ∧
    mcp.executeJson input = .ok result.text

theorem executeJson_of_finishes (hport : mcp.execute = executeWith sandbox docker history)
    (hrequest : mcp.executeRequest input = .ok request)
    (h : Finishes sandbox docker history request stdout stderr code)
    (haccepted : stdout.length + stderr.length ≤ maxOutputBytes) :
    mcp.executeJson input = serialize (resultOf request stdout stderr code).text := by
  unfold SandboxMcp.executeJson
  rw [hrequest, ok_bind, hport, executeWith_of_finishes h haccepted]
  exact ok_bind _ _

theorem serialize_eq_ok {text text' : String} :
    serialize text = .ok text' ↔ byteLen text ≤ maxResponseBytes ∧ text = text' := by
  unfold serialize
  split_ifs with h
  · rw [Except.ok.injEq, and_iff_right h]
  · exact ⟨nofun, fun hle => absurd hle.1 h⟩

/-- **A command that has run to its end is answered with its output exactly if the output does not
grow too much.**  Every ill-formed sequence grows to three bytes, and what is left must be within the
bound on outputs; every byte that a literal escapes grows once more, and with the 108 bytes around
the outputs and the exit code the response must be within its own bound. -/
theorem carried_iff (hport : mcp.execute = executeWith sandbox docker history)
    (hrequest : mcp.executeRequest input = .ok request)
    (h : Finishes sandbox docker history request stdout stderr code)
    (haccepted : stdout.length + stderr.length ≤ maxOutputBytes) :
    Carried mcp input request ↔
      stdout.length + decodingGrowth stdout + (stderr.length + decodingGrowth stderr) ≤
          maxOutputBytes ∧
        108 + byteLen (integer (exitCode code)) + responseLen stdout + responseLen stderr ≤
          maxResponseBytes := by
  unfold Carried
  rw [executeJson_of_finishes hport hrequest h haccepted, hport,
    executeWith_of_finishes h haccepted]
  constructor
  · rintro ⟨result, hresult, houtput, hresponse⟩
    obtain rfl := Except.ok.inj hresult
    rw [byteLen_stdout, byteLen_stderr] at houtput
    have hfits := (serialize_eq_ok.mp hresponse).1
    rw [byteLen_text] at hfits
    exact ⟨houtput, hfits⟩
  · rintro ⟨houtput, hfits⟩
    refine ⟨_, rfl, ?_, serialize_eq_ok.mpr ⟨?_, rfl⟩⟩
    · rwa [byteLen_stdout, byteLen_stderr]
    · rwa [byteLen_text]

end Carried

/-! ## Samples -/

def sampleInput : ExecuteInput where
  sandboxId := "sbx-00000000000000000000000000000000"
  program := "printf"
  arguments := []
  workingDirectory := ""
  timeoutMillis := 1000

/-- The sandbox that the input names. -/
def namedContainer : Container where
  dockerId := sampleDockerId
  name := ""
  owner := sampleSandbox.owner
  tenant := "tenant"
  sandbox := sampleInput.sandboxId
  running := true
  canonical := canonicalDockerId_sample

/-- The container runs, and every command in it prints the bytes. -/
def printing (output : Bytes) : Docker
  | _, .inspect _ => .read (utf8 namedContainer.report) [] (.exited (some 0))
  | _, _ => .read output [] (.exited (some 0))

/-- The text of the decision that allows the tests' subject to execute commands. -/
def sampleExecuteText : String :=
  "18:policy-decision-v1\n6:tenant\n9:principal\n7:request\n11:correlation\n" ++
    "15:sandbox_execute\n5:allow\n13:grant-present\n1:2\n6:tool-a\n6:tool-b\n" ++
    "4:true\n5:false\n4:true\n5:false\n"

/-- SHA-256 at this text. -/
def decisionSha256 : Sha256 := .ofTable [(utf8 sampleExecuteText,
  [0x3d, 0x16, 0x16, 0x6c, 0x5a, 0xa0, 0xed, 0xd7, 0xf6, 0x0a, 0x65, 0xb1, 0xbd, 0xc9, 0xb7, 0x7c,
    0x23, 0xf3, 0xff, 0xab, 0x87, 0x8e, 0xc2, 0xad, 0x75, 0x94, 0x4c, 0x54, 0x7b, 0x58, 0x53, 0x29])]
  (by decide)

/-- A surface over `printing`, whose policy allows the tests' subject to execute commands. -/
def printingMcp (output : Bytes) : SandboxMcp where
  execute := executeWith sampleSandbox (printing output) []
  sha256 := decisionSha256
  source := .ok sampleRequest.context
  policy := fun _ => .allow (sampleGrant ["tool-a", "tool-b"])
    "3d16166c5aa0edd7f60a65b1bdc9b77c23f3ffab878ec2ad75944c547b585329"

theorem execute_printingMcp (output : Bytes) :
    (printingMcp output).execute = executeWith sampleSandbox (printing output) [] := by
  unfold printingMcp
  dsimp only

theorem executeRequest_printingMcp (output : Bytes) :
    (printingMcp output).executeRequest sampleInput =
      (printingMcp []).executeRequest sampleInput := by
  unfold SandboxMcp.executeRequest printingMcp
  dsimp only

theorem executeRequest_sample (output : Bytes) :
    ∃ request, (printingMcp output).executeRequest sampleInput = .ok request ∧
      Finishes sampleSandbox (printing output) [] request output [] (some 0) := by
  have hfields : ((printingMcp output).executeRequest sampleInput).map
      (fun request => (request.context.tenantId.asStr, request.sandboxId.asStr)) =
        .ok ("tenant", sampleInput.sandboxId) := by
    rw [executeRequest_printingMcp]
    decide +kernel
  cases hrequest : (printingMcp output).executeRequest sampleInput with
  | error e =>
    rw [hrequest] at hfields
    cases hfields
  | ok request =>
    rw [hrequest] at hfields
    obtain ⟨htenant, hid⟩ := Prod.mk.inj (Except.ok.inj hfields)
    have howned : namedContainer.Owned sampleSandbox ⟨request.context, request.sandboxId⟩ :=
      ⟨rfl, htenant.symm, hid.symm⟩
    have hreport : (utf8 namedContainer.report).length + (utf8 "").length ≤ maxOutputBytes := by
      decide +kernel
    have hanswer : runCli (.read (utf8 namedContainer.report) (utf8 "") (.exited (some 0))) =
        .ok ⟨0, namedContainer.report, ""⟩ := by
      rw [runCli_of_accepted hreport, fromUtf8Lossy_utf8, fromUtf8Lossy_utf8]
      rfl
    refine ⟨request, rfl, ⟨namedContainer.dockerId, true⟩, rfl, ?_, rfl⟩
    show (runCli (.read (utf8 namedContainer.report) (utf8 "") (.exited (some 0))) >>= _) = _
    rw [hanswer, ok_bind]
    exact readOwned_report howned

/-- A command that prints a word is answered with it. -/
theorem carried_iff_printed : ∃ request, (printingMcp (utf8 "done")).executeRequest sampleInput =
    .ok request ∧ Carried (printingMcp (utf8 "done")) sampleInput request := by
  obtain ⟨request, hrequest, hfinishes⟩ := executeRequest_sample (utf8 "done")
  have haccepted : (utf8 "done").length + ([] : Bytes).length ≤ maxOutputBytes := by decide +kernel
  refine ⟨request, hrequest,
    (carried_iff (execute_printingMcp _) hrequest hfinishes haccepted).mpr ?_⟩
  have hempty : decodingGrowth [] = 0 := decodingGrowth_utf8 ""
  unfold responseLen
  rw [decodingGrowth_utf8, hempty]
  decide +kernel

theorem lt_byteLen_control (request : ExecuteRequest) (n : ℕ) :
    6 * n < byteLen (resultOf request (List.replicate n 1) [] (some 0)).text := by
  have hgrowth : JsonText.escapeGrowth 1 = 5 := rfl
  rw [byteLen_text]
  unfold responseLen
  rw [List.length_replicate, List.map_replicate, List.sum_replicate, hgrowth, smul_eq_mul]
  omega

/-- A quarter of the allowed output, in control characters, is answered with `limit_exceeded`. -/
theorem not_carried_control : ∃ request,
    (printingMcp (List.replicate 8192 1)).executeRequest sampleInput = .ok request ∧
      Finishes sampleSandbox (printing (List.replicate 8192 1)) [] request
        (List.replicate 8192 1) [] (some 0) ∧
      (List.replicate 8192 (1 : UInt8)).length + ([] : Bytes).length ≤ maxOutputBytes ∧
      (printingMcp (List.replicate 8192 1)).executeJson sampleInput = .error "limit_exceeded" ∧
      ¬Carried (printingMcp (List.replicate 8192 1)) sampleInput request := by
  obtain ⟨request, hrequest, hfinishes⟩ := executeRequest_sample (List.replicate 8192 1)
  have haccepted : (List.replicate 8192 (1 : UInt8)).length + ([] : Bytes).length ≤
      maxOutputBytes := by
    rw [List.length_replicate]
    decide
  have hlong : ¬byteLen (resultOf request (List.replicate 8192 1) [] (some 0)).text ≤
      maxResponseBytes :=
    Nat.not_le.mpr (lt_byteLen_control request 8192)
  have hresponse : (printingMcp (List.replicate 8192 1)).executeJson sampleInput =
      .error "limit_exceeded" := by
    rw [executeJson_of_finishes (execute_printingMcp _) hrequest hfinishes haccepted]
    exact if_neg hlong
  refine ⟨request, hrequest, hfinishes, haccepted, hresponse, ?_⟩
  rintro ⟨result, -, -, hcarried⟩
  rw [hresponse] at hcarried
  cases hcarried

end RustFactory.Sandbox
