import RustFactory.Lib.Framing
import RustFactory.Lib.Text

/-!
# Compact JSON text

The text that a JSON writer produces for strings, arrays and objects, without white space.  The parts
of an array or an object are texts already.
-/

namespace RustFactory.Lib.JsonText

/-- A character inside a string literal. -/
def escape (c : Char) : List Char :=
  if c = '"' then ['\\', '"']
  else if c = '\\' then ['\\', '\\']
  else if c = Char.ofNat 8 then ['\\', 'b']
  else if c = Char.ofNat 12 then ['\\', 'f']
  else if c = '\n' then ['\\', 'n']
  else if c = '\r' then ['\\', 'r']
  else if c = '\t' then ['\\', 't']
  else if c.toNat < 32 then
    ['\\', 'u', '0', '0', hexDigit (UInt8.ofNat (c.toNat / 16)), hexDigit (UInt8.ofNat (c.toNat % 16))]
  else [c]

/-- A string literal. -/
def quoted (s : String) : String := "\"" ++ String.ofList (s.toList.flatMap escape) ++ "\""

def boolean (value : Bool) : String := if value then "true" else "false"

/-- A value or `null`. -/
def nullable {α : Type} (text : α → String) : Option α → String
  | some value => text value
  | none => "null"

def array (items : List String) : String := "[" ++ ",".intercalate items ++ "]"

def object (members : List (String × String)) : String :=
  "\x7b" ++ ",".intercalate (members.map fun member => quoted member.1 ++ ":" ++ member.2) ++ "\x7d"

/-- An object value keeps its members in the order of their names. -/
def objectValue (members : List (String × String)) : String :=
  object (members.mergeSort fun a b => a.1 ≤ b.1)

end RustFactory.Lib.JsonText
