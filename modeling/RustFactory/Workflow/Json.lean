import RustFactory.Gateway.Sorting
import RustFactory.Workflow.Model

/-!
# Workflows: canonical input

The input of a run is identified by its canonical JSON text.  The text is parsed, scanned a second
time for repeated members, and printed with the members of every object in order.  Parser and
printer are those of the external library; the scanner is the crate's own and works on the bytes.
-/

namespace RustFactory.Workflow

open Lib Gateway

/-- The functions of the JSON library: texts and values, and the text of a string token. -/
structure JsonCodec extends Serde where
  parseString : Bytes → Option String

/-! ## The scanner -/

/-- Space, tab, line feed, form feed and carriage return. -/
def isAsciiWhitespace (byte : UInt8) : Bool :=
  byte == 32 || byte == 9 || byte == 10 || byte == 12 || byte == 13

def skipWs (input : Bytes) : Bytes := input.dropWhile isAsciiWhitespace

/-- The bytes up to and with the quote that closes a string, and the bytes after it. -/
def closeString (escaped : Bool) : Bytes → Option (Bytes × Bytes)
  | [] => none
  | byte :: rest =>
    if escaped then (closeString false rest).map fun split => (byte :: split.1, split.2)
    else if byte == 92 then (closeString true rest).map fun split => (byte :: split.1, split.2)
    else if byte == 34 then some ([byte], rest)
    else (closeString false rest).map fun split => (byte :: split.1, split.2)

/-- A string whose opening quote has been read. -/
def scanString (codec : JsonCodec) (input : Bytes) : Except WorkflowError (String × Bytes) :=
  match closeString false input with
  | none => .error .invalidRequest
  | some (token, rest) => do
    let text ← okOr .invalidRequest (codec.parseString (34 :: token))
    .ok (text, rest)

/-- The bytes that end a number or a literal: `,`, `]`, `}` and white space. -/
def endsScalar (byte : UInt8) : Bool :=
  byte == 44 || byte == 93 || byte == 125 || isAsciiWhitespace byte

def scanScalar (input : Bytes) : Except WorkflowError Bytes :=
  let rest := input.dropWhile fun byte => !endsScalar byte
  if rest.length = input.length then .error .invalidRequest else .ok rest

mutual

/-- The input after one value.  Every call of a function of this block uses up fuel, and `starved`
is the answer of one that has none left. -/
def scanValue (codec : JsonCodec) (starved : Except WorkflowError Bytes) :
    ℕ → Bytes → Except WorkflowError Bytes
  | 0, _ => starved
  | fuel + 1, input =>
    match skipWs input with
    | [] => .error .invalidRequest
    | byte :: rest =>
      if byte == 34 then (scanString codec rest).map Prod.snd
      else if byte == 123 then scanMembers codec starved fuel [] rest
      else if byte == 91 then
        match skipWs rest with
        | [] => scanElements codec starved fuel rest
        | next :: after => if next == 93 then .ok after else scanElements codec starved fuel rest
      else scanScalar (byte :: rest)

/-- The loop over the members of an object, with the names seen so far. -/
def scanMembers (codec : JsonCodec) (starved : Except WorkflowError Bytes) :
    ℕ → List String → Bytes → Except WorkflowError Bytes
  | 0, _, _ => starved
  | fuel + 1, keys, input =>
    match skipWs input with
    | [] => .error .invalidRequest
    | byte :: rest =>
      if byte == 125 then .ok rest
      else if byte != 34 then .error .invalidRequest
      else do
        let (key, rest) ← scanString codec rest
        if keys.contains key then .error .invalidRequest
        else
          match skipWs rest with
          | [] => .error .invalidRequest
          | colon :: rest =>
            if colon != 58 then .error .invalidRequest
            else do
              let rest ← scanValue codec starved fuel rest
              match skipWs rest with
              | [] => .error .invalidRequest
              | byte :: rest =>
                if byte == 44 then scanMembers codec starved fuel (key :: keys) rest
                else if byte == 125 then .ok rest
                else .error .invalidRequest

/-- The loop over the elements of an array. -/
def scanElements (codec : JsonCodec) (starved : Except WorkflowError Bytes) :
    ℕ → Bytes → Except WorkflowError Bytes
  | 0, _ => starved
  | fuel + 1, input => do
    let rest ← scanValue codec starved fuel input
    match skipWs rest with
    | [] => .error .invalidRequest
    | byte :: rest =>
      if byte == 44 then scanElements codec starved fuel rest
      else if byte == 93 then .ok rest
      else .error .invalidRequest

end

/-- The scanner for repeated names that stands before the parser. -/
def rejectDuplicateKeys (codec : JsonCodec) (input : String) : Except WorkflowError Unit := do
  let rest ← scanValue codec (.error .invalidRequest) (byteLen input + 1) (utf8 input)
  if skipWs rest = [] then .ok () else .error .invalidRequest

/-! ## Canonical text -/

/-- Each object is built again as an ordered map. -/
def canonicalValue (value : Json) : Json := value.sortValue

/-- The canonical text of an input within both bounds. -/
def canonicalJson (codec : JsonCodec) (input : String) (maxBytes : ℕ) :
    Except WorkflowError String :=
  if maxBytes < byteLen input ∨ maxJsonInputBytes < byteLen input then .error .limitExceeded
  else do
    let value ← okOr .invalidRequest (codec.fromStr input)
    rejectDuplicateKeys codec input
    .ok (codec.print (canonicalValue value))

/-! ## Texts -/

/-- The inside of a string: no quote but after a backslash, and no backslash at the end. -/
inductive StringBody : Bytes → Prop
  | nil : StringBody []
  | plain {byte : UInt8} {rest : Bytes} : byte ≠ 34 → byte ≠ 92 → StringBody rest →
      StringBody (byte :: rest)
  | escape (byte : UInt8) {rest : Bytes} : StringBody rest → StringBody (92 :: byte :: rest)

mutual

/-- A JSON value as it is spelled: tokens, and the white space around the parts of arrays and
objects. -/
inductive Tree where
  | scalar (token : Bytes) (value : Json)
  | string (body : Bytes) (text : String)
  | emptyArray (blank : Bytes)
  | array (elements : Elements)
  | emptyObject (blank : Bytes)
  | object (members : Members)

/-- The elements of an array as they are written. -/
inductive Elements where
  | last (before : Bytes) (tree : Tree) (after : Bytes)
  | cons (before : Bytes) (tree : Tree) (after : Bytes) (rest : Elements)

/-- The members of an object as they are written. -/
inductive Members where
  | last (before body : Bytes) (name : String) (colon before' : Bytes) (tree : Tree) (after : Bytes)
  | cons (before body : Bytes) (name : String) (colon before' : Bytes) (tree : Tree) (after : Bytes)
    (rest : Members)

end

mutual

/-- The bytes of the text. -/
def Tree.render : Tree → Bytes
  | .scalar token _ => token
  | .string body _ => 34 :: (body ++ [34])
  | .emptyArray blank => 91 :: (blank ++ [93])
  | .array elements => 91 :: elements.render
  | .emptyObject blank => 123 :: (blank ++ [125])
  | .object members => 123 :: members.render

def Elements.render : Elements → Bytes
  | .last before tree after => before ++ (tree.render ++ (after ++ [93]))
  | .cons before tree after rest => before ++ (tree.render ++ (after ++ 44 :: rest.render))

def Members.render : Members → Bytes
  | .last before body _ colon before' tree after =>
    before ++ 34 :: (body ++ 34 :: (colon ++ 58 :: (before' ++ (tree.render ++ (after ++ [125])))))
  | .cons before body _ colon before' tree after rest =>
    before ++ 34 :: (body ++ 34 :: (colon ++ 58 :: (before' ++ (tree.render ++
      (after ++ 44 :: rest.render)))))

end

mutual

/-- The value that is spelled, with the members in the order of the text. -/
def Tree.value : Tree → Json
  | .scalar _ value => value
  | .string _ text => .string text
  | .emptyArray _ => .array []
  | .array elements => .array elements.values
  | .emptyObject _ => .object []
  | .object members => .object members.pairs

def Elements.values : Elements → List Json
  | .last _ tree _ => [tree.value]
  | .cons _ tree _ rest => tree.value :: rest.values

def Members.pairs : Members → List (String × Json)
  | .last _ _ name _ _ tree _ => [(name, tree.value)]
  | .cons _ _ name _ _ tree _ rest => (name, tree.value) :: rest.pairs

end

/-- White space of JSON. -/
def Blank (bytes : Bytes) : Prop := ∀ byte ∈ bytes, byte = 32 ∨ byte = 9 ∨ byte = 10 ∨ byte = 13

/-- A number or a literal: not empty, without a byte that ends it, and not the start of another kind
of value. -/
structure ScalarToken (token : Bytes) : Prop where
  unbroken : ∀ byte ∈ token, ¬endsScalar byte
  start : ∃ byte rest, token = byte :: rest ∧ byte ≠ 34 ∧ byte ≠ 91 ∧ byte ≠ 123

/-- A value without parts that is not a string. -/
def isScalar : Json → Bool
  | .null | .bool _ | .number _ => true
  | _ => false

/-- A string token that the library reads as the text. -/
def StringToken (codec : JsonCodec) (body : Bytes) (text : String) : Prop :=
  StringBody body ∧ codec.parseString (34 :: (body ++ [34])) = some text

mutual

/-- The tokens are JSON tokens and the white space is JSON white space. -/
def Tree.WellFormed (codec : JsonCodec) : Tree → Prop
  | .scalar token value => ScalarToken token ∧ isScalar value
  | .string body text => StringToken codec body text
  | .emptyArray blank => Blank blank
  | .array elements => elements.WellFormed codec
  | .emptyObject blank => Blank blank
  | .object members => members.WellFormed codec

/-- The elements are written as the grammar asks. -/
def Elements.WellFormed (codec : JsonCodec) : Elements → Prop
  | .last before tree after => Blank before ∧ tree.WellFormed codec ∧ Blank after
  | .cons before tree after rest =>
    (Blank before ∧ tree.WellFormed codec ∧ Blank after) ∧ rest.WellFormed codec

/-- The members are written as the grammar asks. -/
def Members.WellFormed (codec : JsonCodec) : Members → Prop
  | .last before body name colon before' tree after =>
    (Blank before ∧ StringToken codec body name ∧ Blank colon) ∧
      Blank before' ∧ tree.WellFormed codec ∧ Blank after
  | .cons before body name colon before' tree after rest =>
    ((Blank before ∧ StringToken codec body name ∧ Blank colon) ∧
      Blank before' ∧ tree.WellFormed codec ∧ Blank after) ∧ rest.WellFormed codec

end

/-- The library reads the text as the value that the text spells. -/
structure JsonCodec.Reads (codec : JsonCodec) (text : String) (tree : Tree) : Prop where
  wellFormed : tree.WellFormed codec
  spelled : ∃ before after, Blank before ∧ Blank after ∧
    utf8 text = before ++ (tree.render ++ after)
  parse_eq : codec.parse text = some tree.value

/-- What the library prints for the value is a text that it reads as the value. -/
def JsonCodec.RoundTrips (codec : JsonCodec) (value : Json) : Prop :=
  ∃ tree : Tree, codec.Reads (codec.print value) tree ∧ tree.value = value

end RustFactory.Workflow
