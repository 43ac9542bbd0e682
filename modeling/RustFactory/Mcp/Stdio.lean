import RustFactory.Lib.Bytes
import RustFactory.Lib.Except

/-!
# MCP: the bounded stdio transport

Messages arrive as lines.  The reader of the async library fills a buffer and lets a decoder take
messages off it; the decoder of this crate puts a bound on the payload of a line around the line
decoder of the protocol library, and skips lines that are not JSON.  The transport closes for good
at the first error and at the end of the input.  Both libraries are parameters: `FramedReader` says
what the reader is relied on for, and `LineDecoder` what the line decoder is.
-/

namespace RustFactory.Mcp

open Lib

def maxMcpStdioFrameBytes : ℕ := 64 * 1024

/-- The longest line, which may have a carriage return after its payload. -/
def maxMcpStdioCodecBytes : ℕ := maxMcpStdioFrameBytes + 1

/-! ## Decoders -/

/-- The categories of the errors of the JSON library. -/
inductive Category where
  | io
  | malformed
  | data
  | eof
  deriving DecidableEq

/-- What a decoder can fail with. -/
inductive CodecError where
  | maxLineLengthExceeded
  | serde (category : Category)
  | io
  deriving DecidableEq

/-- What a decoder answers, with its state and the bytes that it leaves in the buffer. -/
structure Decoded (σ μ : Type) where
  result : Except CodecError (Option μ)
  state : σ
  buf : Bytes

/-- A decoder with states `σ` and messages `μ`. -/
structure Decoder (σ μ : Type) where
  decode : σ → Bytes → Decoded σ μ
  decodeEof : σ → Bytes → Decoded σ μ

def stripCr (buf : Bytes) : Bytes := if buf.getLast? = some 13 then buf.dropLast else buf

def payloadIsOversized (buf : Bytes) : Bool := maxMcpStdioFrameBytes < (stripCr buf).length

/-- A line that is not JSON, or not all of it. -/
def Category.isSkipped : Category → Bool
  | .malformed | .eof => true
  | .io | .data => false

section Bounded

variable {σ μ : Type} (inner : Decoder σ μ)

/-- No line end has arrived yet, and the bytes cannot become a line within the limit. -/
def partialIsOversized (buf : Bytes) : Bool :=
  maxMcpStdioFrameBytes < buf.length &&
    !(buf.length == maxMcpStdioCodecBytes && buf.getLast? == some 13)

/-- `decode`; a line that is skipped costs a unit of fuel. -/
def boundedDecode : ℕ → σ → Bytes → Decoded σ μ
  | 0, state, buf => ⟨.ok none, state, buf⟩
  | fuel + 1, state, buf =>
    let oversized := match buf.findIdx? (· == 10) with
      | some newline => payloadIsOversized (buf.take newline)
      | none => partialIsOversized buf
    if oversized then ⟨.error .maxLineLengthExceeded, state, buf⟩
    else
      let decoded := inner.decode state buf
      match decoded.result with
      | .error (.serde category) =>
        if category.isSkipped then boundedDecode fuel decoded.state decoded.buf else decoded
      | _ => decoded

/-- The decoder of the transport around the one of the protocol library. -/
def bounded : Decoder σ μ where
  decode state buf := boundedDecode inner (buf.length + 1) state buf
  decodeEof state buf :=
    if payloadIsOversized buf then ⟨.error .maxLineLengthExceeded, state, buf⟩
    else
      let decoded := inner.decodeEof state buf
      match decoded.result with
      | .error (.serde category) =>
        if category.isSkipped then ⟨.ok none, decoded.state, decoded.buf⟩ else decoded
      | _ => decoded

end Bounded

/-! ## The reader -/

/-- The bytes of one read; a read of no bytes is the end of the input. -/
abbrev Read := {bytes : Bytes // bytes ≠ []}

/-- Where the reader of the async library stands, with the reads that its source has yet to give. -/
inductive Place (σ : Type) where
  /-- It needs more bytes before it decodes again. -/
  | reading (state : σ) (buffer : Bytes) (reads : List Read)
  /-- It decodes what is in the buffer. -/
  | framing (state : σ) (buffer : Bytes) (reads : List Read)
  /-- It decodes what is left at the end of the input. -/
  | pausing (state : σ) (buffer : Bytes)
  /-- It has yielded an error. -/
  | errored
  /-- It has yielded the end. -/
  | ended

/-- What the reader yields at a place, and where it then stands. -/
inductive Next {σ μ : Type} (codec : Decoder σ μ) :
    Place σ → Option (Except CodecError μ) → Place σ → Prop
  | read {state : σ} {buffer : Bytes} {read : Read} {reads : List Read}
      {frame : Option (Except CodecError μ)} {place : Place σ} :
      Next codec (.framing state (buffer ++ read.1) reads) frame place →
      Next codec (.reading state buffer (read :: reads)) frame place
  | eof {state : σ} {buffer : Bytes} {frame : Option (Except CodecError μ)} {place : Place σ} :
      Next codec (.pausing state buffer) frame place →
      Next codec (.reading state buffer []) frame place
  | message {state state' : σ} {buffer rest : Bytes} {reads : List Read} {message : μ} :
      codec.decode state buffer = ⟨.ok (some message), state', rest⟩ →
      Next codec (.framing state buffer reads) (some (.ok message)) (.framing state' rest reads)
  | pending {state state' : σ} {buffer rest : Bytes} {reads : List Read}
      {frame : Option (Except CodecError μ)} {place : Place σ} :
      codec.decode state buffer = ⟨.ok none, state', rest⟩ →
      Next codec (.reading state' rest reads) frame place →
      Next codec (.framing state buffer reads) frame place
  | failure {state state' : σ} {buffer rest : Bytes} {reads : List Read} {e : CodecError} :
      codec.decode state buffer = ⟨.error e, state', rest⟩ →
      Next codec (.framing state buffer reads) (some (.error e)) .errored
  | lastMessage {state state' : σ} {buffer rest : Bytes} {message : μ} :
      codec.decodeEof state buffer = ⟨.ok (some message), state', rest⟩ →
      Next codec (.pausing state buffer) (some (.ok message)) (.pausing state' rest)
  | lastDone {state state' : σ} {buffer rest : Bytes} :
      codec.decodeEof state buffer = ⟨.ok none, state', rest⟩ →
      Next codec (.pausing state buffer) none .ended
  | lastFailure {state state' : σ} {buffer rest : Bytes} {e : CodecError} :
      codec.decodeEof state buffer = ⟨.error e, state', rest⟩ →
      Next codec (.pausing state buffer) (some (.error e)) .errored
  | errored : Next codec .errored none .ended

/-- A reader with states `ρ` does what the async library documents: it decodes as long as the decoder
takes something off the buffer, reads when the decoder wants more bytes, decodes what is left at the
end of the input, and ends after an error.  `At` relates its states to the places; after the end
nothing is known of it. -/
structure FramedReader {ρ σ μ : Type} (codec : Decoder σ μ) (initial : σ) (source : List Read → ρ)
    (next : ρ → Option (Except CodecError μ) × ρ) (At : ρ → Place σ → Prop) : Prop where
  at_source (reads : List Read) : At (source reads) (.reading initial [] reads)
  at_next {reader : ρ} {place : Place σ} : At reader place → place ≠ .ended →
    ∃ place', Next codec place (next reader).1 place' ∧ At (next reader).2 place'

/-! ## The transport -/

/-- The writing side: whether it takes another message, and the messages sent. -/
structure Writer where
  accepts : Bool
  sent : List String

/-- The transport over a reader with states `ρ`. -/
structure Transport (ρ : Type) where
  reader : ρ
  writer : Option Writer
  closed : Bool

section Transport

variable {ρ μ : Type}

def Transport.new (reader : ρ) (writer : Writer) : Transport ρ := ⟨reader, some writer, false⟩

/-- Sends a message, if the writer takes it. -/
def Transport.send (transport : Transport ρ) (message : String) : Bool × Transport ρ :=
  match transport.writer with
  | none => (false, transport)
  | some writer =>
    if writer.accepts then
      (true, { transport with writer := some { writer with sent := writer.sent ++ [message] } })
    else (false, transport)

def Transport.close (transport : Transport ρ) : Transport ρ :=
  { transport with writer := none, closed := true }

variable (next : ρ → Option (Except CodecError μ) × ρ)

/-- The loop of `receive`.  An error is followed by an end, so that it is passed at most twice. -/
def Transport.receiveLoop : ℕ → Transport ρ → Option μ × Transport ρ
  | 0, transport => (none, transport)
  | fuel + 1, transport =>
    let (frame, reader) := next transport.reader
    let transport := { transport with reader := reader }
    match frame with
    | some (.ok message) => (some message, transport)
    | some (.error (.serde category)) =>
      if category.isSkipped then Transport.receiveLoop fuel transport
      else
        match transport.send "Invalid request" with
        | (true, transport) => Transport.receiveLoop fuel transport
        | (false, transport) => (none, transport.close)
    | some (.error _) => (none, transport.close)
    | none => (none, transport.close)

def Transport.receive (transport : Transport ρ) : Option μ × Transport ρ :=
  if transport.closed then (none, transport) else transport.receiveLoop next 2

/-- A number of calls of `receive`. -/
def Transport.receives : ℕ → Transport ρ → List (Option μ) × Transport ρ
  | 0, transport => ([], transport)
  | n + 1, transport =>
    let (message, transport) := transport.receive next
    let (messages, transport) := transport.receives n
    (message :: messages, transport)

end Transport

/-! ## The line decoder -/

/-- What a decoder answers for a line. -/
def lineResult {μ : Type} : Except Category μ → Except CodecError (Option μ)
  | .ok message => .ok (some message)
  | .error category => .error (.serde category)

/-- The decoder of the protocol library takes the lines off the buffer one by one, however the buffer
was filled.  `parse` is its result for the payload of a line.  Some notifications it takes without a
result; of these nothing is required.  `Ready` relates its state to the buffer. -/
structure LineDecoder {σ μ : Type} (inner : Decoder σ μ) (initial : σ)
    (parse : Bytes → Option (Except Category μ)) (Ready : σ → Bytes → Prop) : Prop where
  ready_initial : Ready initial []
  ready_append {state : σ} {buf : Bytes} (more : Bytes) :
    Ready state buf → Ready state (buf ++ more)
  decode_line {state : σ} {line rest : Bytes} {result : Except Category μ} : 10 ∉ line →
    line.length ≤ maxMcpStdioCodecBytes → parse (stripCr line) = some result →
    Ready state (line ++ 10 :: rest) →
      ∃ state', inner.decode state (line ++ 10 :: rest) = ⟨lineResult result, state', rest⟩ ∧
        Ready state' rest
  decode_incomplete {state : σ} {buf : Bytes} : 10 ∉ buf → buf.length ≤ maxMcpStdioCodecBytes →
    Ready state buf →
      ∃ state', inner.decode state buf = ⟨.ok none, state', buf⟩ ∧ Ready state' buf
  decodeEof_last {state : σ} {buf : Bytes} {result : Except Category μ} : 10 ∉ buf →
    buf.length ≤ maxMcpStdioCodecBytes → stripCr buf ≠ [] → parse (stripCr buf) = some result →
    Ready state buf →
      ∃ state', inner.decodeEof state buf = ⟨lineResult result, state', []⟩ ∧ Ready state' []
  decodeEof_blank {state : σ} {buf : Bytes} : stripCr buf = [] → Ready state buf →
    ∃ state', inner.decodeEof state buf = ⟨.ok none, state', buf⟩
  parse_nil : parse [] = some (.error .eof)

/-! ## The reference -/

/-- The lines of a whole stream, the last one perhaps without its end. -/
def streamLines (stream : Bytes) : List Bytes :=
  let pieces := stream.splitOn 10
  if pieces.getLast? = some [] then pieces.dropLast else pieces

/-- The messages of a list of lines, up to the first line that ends the stream. -/
def deliver {μ : Type} (parse : Bytes → Option (Except Category μ)) : List Bytes → List μ
  | [] => []
  | line :: lines =>
    if payloadIsOversized line then []
    else
      match parse (stripCr line) with
      | some (.ok message) => message :: deliver parse lines
      | some (.error category) => if category.isSkipped then deliver parse lines else []
      | none => deliver parse lines

/-- The messages of a whole stream. -/
def reference {μ : Type} (parse : Bytes → Option (Except Category μ)) (stream : Bytes) : List μ :=
  deliver parse (streamLines stream)

/-- Every line of the stream that is within the limit has a result. -/
def Answered {μ : Type} (parse : Bytes → Option (Except Category μ)) (stream : Bytes) : Prop :=
  ∀ line ∈ streamLines stream, ¬payloadIsOversized line → (parse (stripCr line)).isSome

end RustFactory.Mcp
