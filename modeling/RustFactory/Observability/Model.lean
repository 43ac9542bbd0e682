import RustFactory.Lib.BTreeMap
import RustFactory.Lib.Except
import RustFactory.Lib.Text

/-!
# Trace contexts

The W3C trace context that telemetry carries between processes: trace and span identifiers, flags,
an opaque `tracestate` and bounded baggage.  The fields of a context are public in the source, so a
context is a plain record; `TraceContextV1.new` is the checked constructor.
-/

namespace RustFactory.Observability

open Lib

def maxIdentifierBytes : ℕ := 128
def maxTracestateBytes : ℕ := 512
def maxBaggageEntries : ℕ := 16
def maxBaggageValueBytes : ℕ := 256

/-- What an operation of the observability crate can fail with. -/
inductive ObservabilityError where
  | invalidId
  | invalidEvent
  | invalidQuery
  | invalidConfiguration
  | invalidTraceContext
  | invalidSpan
  | invalidMetric
  | limitExceeded
  | adapterFailure
  deriving DecidableEq, Repr

/-! ## Identifiers -/

/-- A W3C `trace-id`: 16 bytes, not all zero. -/
structure TraceId where
  asBytes : Vector UInt8 16
  nonzero : asBytes ≠ Vector.replicate 16 0
  deriving DecidableEq

/-- A trace identifier must not be zero. -/
def TraceId.new (bytes : Vector UInt8 16) : Except ObservabilityError TraceId :=
  if h : bytes ≠ Vector.replicate 16 0 then .ok ⟨bytes, h⟩ else .error .invalidTraceContext

/-- A W3C `parent-id`: 8 bytes, not all zero. -/
structure SpanId where
  asBytes : Vector UInt8 8
  nonzero : asBytes ≠ Vector.replicate 8 0
  deriving DecidableEq

/-- A span identifier must not be zero. -/
def SpanId.new (bytes : Vector UInt8 8) : Except ObservabilityError SpanId :=
  if h : bytes ≠ Vector.replicate 8 0 then .ok ⟨bytes, h⟩ else .error .invalidTraceContext

theorem TraceId.new_asBytes (id : TraceId) : TraceId.new id.asBytes = .ok id := dif_pos id.nonzero

theorem SpanId.new_asBytes (id : SpanId) : SpanId.new id.asBytes = .ok id := dif_pos id.nonzero

/-- The W3C `trace-flags` byte, forwarded unchanged. -/
structure TraceFlags where
  asRaw : UInt8
  deriving DecidableEq

/-! ## Contexts -/

/-- What is handed on from one service to the next. -/
structure TraceContextV1 where
  traceId : TraceId
  spanId : SpanId
  traceFlags : TraceFlags
  traceState : Option String
  baggage : BTreeMap String String

/-- A C0 control byte or DEL. -/
def isControlByte (byte : UInt8) : Bool := byte ≤ 0x1f || byte == 0x7f

def isLabelStart (byte : UInt8) : Bool := isAsciiLowercase byte || isAsciiDigit byte

/-- The bytes after the first of a label: also `_`, `-` and `.`. -/
def isLabelByte (byte : UInt8) : Bool :=
  isLabelStart byte || byte == 95 || byte == 45 || byte == 46

def validateLabel (value : String) : Option Unit :=
  match utf8 value with
  | first :: rest =>
    if byteLen value ≤ maxIdentifierBytes && isLabelStart first && rest.all isLabelByte then some ()
    else none
  | [] => none

/-- The bytes no baggage value may hold: control bytes and the delimiters `,`, `=` and `;`. -/
def isReservedByte (byte : UInt8) : Bool :=
  isControlByte byte || byte == 44 || byte == 61 || byte == 59

def validateBaggageEntry (key value : String) : Except ObservabilityError Unit := do
  okOr .invalidTraceContext (validateLabel key)
  if maxBaggageValueBytes < byteLen value then .error .limitExceeded
  else if (utf8 value).any isReservedByte then .error .invalidTraceContext
  else .ok ()

def validateTraceState : Option String → Except ObservabilityError Unit
  | none => .ok ()
  | some state =>
    if maxTracestateBytes < byteLen state then .error .limitExceeded
    else if (utf8 state).any isControlByte then .error .invalidTraceContext
    else .ok ()

def validateTraceContext (context : TraceContextV1) : Except ObservabilityError Unit := do
  validateTraceState context.traceState
  if maxBaggageEntries < context.baggage.size then .error .limitExceeded
  else context.baggage.toList.forM fun entry => validateBaggageEntry entry.1 entry.2

def TraceContextV1.new (traceId : TraceId) (spanId : SpanId) (traceFlags : TraceFlags)
    (traceState : Option String) (baggage : BTreeMap String String) :
    Except ObservabilityError TraceContextV1 := do
  let context : TraceContextV1 := ⟨traceId, spanId, traceFlags, traceState, baggage⟩
  validateTraceContext context
  .ok context

end RustFactory.Observability
