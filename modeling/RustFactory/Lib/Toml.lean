import RustFactory.Lib.Text

/-!
# TOML 1.0

A reader of documents with one expression a line: tables, dotted keys, basic strings, integers,
booleans, arrays and inline tables.  Floats, dates, literal and multi-line strings, arrays of tables,
and values over several lines are not read.  A document is consistent if it defines no table and no
key twice.
-/

namespace RustFactory.Lib.Toml

/-- The values that are read. -/
inductive Value where
  | string (value : String)
  | integer (value : ℤ)
  | boolean (value : Bool)
  | array (items : List Value)
  | table (members : List (List String × Value))

/-! ## Basic strings -/

/-- The characters that stand for themselves in a basic string, quotes and backslashes apart. -/
def isUnescaped (c : Char) : Bool := c = '\t' || (32 ≤ c.toNat && c.toNat ≠ 127)

/-- The character of an escape of one letter. -/
def simpleEscape (c : Char) : Option Char :=
  if c = 'b' then some (Char.ofNat 8)
  else if c = 't' then some '\t'
  else if c = 'n' then some '\n'
  else if c = 'f' then some (Char.ofNat 12)
  else if c = 'r' then some '\r'
  else if c = '"' then some '"'
  else if c = '\\' then some '\\'
  else none

/-- The value of a hexadecimal digit. -/
def hexValue (c : Char) : Option ℕ :=
  if '0' ≤ c ∧ c ≤ '9' then some (c.toNat - 48)
  else if 'a' ≤ c ∧ c ≤ 'f' then some (c.toNat - 87)
  else if 'A' ≤ c ∧ c ≤ 'F' then some (c.toNat - 55)
  else none

/-- Where the reader of a basic string stands: between characters, behind a backslash, or in an escape
by number with so many digits to come. -/
inductive StringState where
  | between
  | escape
  | unicode (digits value : ℕ)

/-- The characters up to the closing quote, and what follows it. -/
def basicString : StringState → List Char → Option (List Char × List Char)
  | _, [] => none
  | .between, c :: rest =>
    if c = '"' then some ([], rest)
    else if c = '\\' then basicString .escape rest
    else if isUnescaped c then
      (basicString .between rest).map fun (value, rest) => (c :: value, rest)
    else none
  | .escape, c :: rest =>
    match simpleEscape c with
    | some d => (basicString .between rest).map fun (value, rest) => (d :: value, rest)
    | none =>
      if c = 'u' then basicString (.unicode 4 0) rest
      else if c = 'U' then basicString (.unicode 8 0) rest
      else none
  | .unicode digits value, c :: rest =>
    match hexValue c with
    | none => none
    | some digit =>
      let value := value * 16 + digit
      if 1 < digits then basicString (.unicode (digits - 1) value) rest
      else if value.isValidChar then
        (basicString .between rest).map fun (read, rest) => (Char.ofNat value :: read, rest)
      else none

/-! ## Keys -/

def isBlank (c : Char) : Bool := c = ' ' || c = '\t'

def skipBlank (text : List Char) : List Char := text.dropWhile isBlank

/-- A character of a key without quotes. -/
def isBareKeyChar (c : Char) : Bool := c.isAlphanum || c = '_' || c = '-'

def simpleKey : List Char → Option (String × List Char)
  | [] => none
  | c :: rest =>
    if c = '"' then
      (basicString .between rest).map fun (name, rest) => (String.ofList name, rest)
    else if isBareKeyChar c then
      some (String.ofList (c :: rest.takeWhile isBareKeyChar), rest.dropWhile isBareKeyChar)
    else none

/-- A dotted key; the fuel bounds its parts. -/
def key : ℕ → List Char → Option (List String × List Char)
  | 0, _ => none
  | fuel + 1, text => do
    let (name, rest) ← simpleKey (skipBlank text)
    match skipBlank rest with
    | '.' :: rest =>
      let (names, rest) ← key fuel rest
      some (name :: names, rest)
    | rest => some ([name], rest)

/-! ## Values -/

/-- Items with commas between them, up to the closing character; the fuel bounds their number. -/
def separated {α : Type} (item : List Char → Option (α × List Char)) (close : Char) :
    ℕ → List Char → Option (List α × List Char)
  | 0, _ => none
  | fuel + 1, text => do
    let (first, rest) ← item (skipBlank text)
    match skipBlank rest with
    | [] => none
    | c :: rest =>
      if c = ',' then
        let (items, rest) ← separated item close fuel rest
        some (first :: items, rest)
      else if c = close then some ([first], rest)
      else none

/-- Nothing, or items with commas between them, up to the closing character. -/
def enclosed {α : Type} (item : List Char → Option (α × List Char)) (close : Char)
    (text : List Char) : Option (List α × List Char) :=
  match skipBlank text with
  | [] => none
  | c :: rest => if c = close then some ([], rest) else separated item close text.length (c :: rest)

/-- Decimal digits without a leading zero. -/
def natural (text : List Char) : Option (ℕ × List Char) :=
  let digits := text.takeWhile Char.isDigit
  if digits = [] ∨ (digits.head? = some '0' ∧ digits ≠ ['0']) then none
  else some (digits.foldl (fun n c => n * 10 + (c.toNat - 48)) 0, text.dropWhile Char.isDigit)

/-- An integer of 64 bits. -/
def integer (text : List Char) : Option (ℤ × List Char) := do
  let (value, rest) ← match text with
    | '-' :: rest => (natural rest).map fun (n, rest) => (-(n : ℤ), rest)
    | '+' :: rest => (natural rest).map fun (n, rest) => ((n : ℤ), rest)
    | text => (natural text).map fun (n, rest) => ((n : ℤ), rest)
  if -2 ^ 63 ≤ value ∧ value < 2 ^ 63 then some (value, rest) else none

/-- No key of an inline table is defined twice or goes through another one. -/
def distinctKeys (members : List (List String × Value)) : Bool :=
  (members.map Prod.fst).all fun path =>
    (members.map Prod.fst).countP (fun other => path.isPrefixOf other) = 1

/-- A key, an equals sign and a value. -/
def keyValue (value : List Char → Option (Value × List Char)) (text : List Char) :
    Option ((List String × Value) × List Char) := do
  let (path, rest) ← key text.length text
  match rest with
  | '=' :: rest =>
    let (v, rest) ← value (skipBlank rest)
    some ((path, v), rest)
  | _ => none

/-- A value; the fuel bounds its depth. -/
def value : ℕ → List Char → Option (Value × List Char)
  | 0, _ => none
  | fuel + 1, text =>
    match text with
    | [] => none
    | c :: rest =>
      if c = '"' then
        (basicString .between rest).map fun (s, rest) => (.string (String.ofList s), rest)
      else if c = '[' then
        (enclosed (value fuel) ']' rest).map fun (items, rest) => (.array items, rest)
      else if c = '\x7b' then
        (enclosed (keyValue (value fuel)) '\x7d' rest).bind fun (members, rest) =>
          if distinctKeys members then some (.table members, rest) else none
      else if "true".toList.isPrefixOf text then some (.boolean true, text.drop 4)
      else if "false".toList.isPrefixOf text then some (.boolean false, text.drop 5)
      else (integer text).map fun (n, rest) => (.integer n, rest)

/-! ## Documents -/

/-- A line of a document. -/
inductive Expression where
  | blank
  | header (path : List String)
  | pair (path : List String) (value : Value)

/-- White space and possibly a comment. -/
def isEnd (text : List Char) : Bool :=
  match skipBlank text with
  | [] => true
  | c :: rest => c = '#' && rest.all isUnescaped

/-- Reads the header of a table, after its bracket. -/
def header (text : List Char) : Option Expression := do
  let (path, rest) ← key text.length text
  match rest with
  | ']' :: rest => if isEnd rest then some (.header path) else none
  | _ => none

def pair (text : List Char) : Option Expression := do
  let ((path, v), rest) ← keyValue (value text.length) text
  if isEnd rest then some (.pair path v) else none

def expression (line : List Char) : Option Expression :=
  match skipBlank line with
  | [] => some .blank
  | c :: rest =>
    if c = '#' then if rest.all isUnescaped then some .blank else none
    else if c = '[' then header rest
    else pair (c :: rest)

def expressions (text : List Char) : Option (List Expression) :=
  (text.splitOn '\n').mapM expression

/-- What an expression defines, its value apart. -/
inductive Shape where
  | header (path : List String)
  | pair (path : List String)
  deriving DecidableEq

/-- What of an expression matters for definitions. -/
def Expression.shape : Expression → Option Shape
  | .blank => none
  | .header path => some (.header path)
  | .pair path _ => some (.pair path)

/-- What a document has defined so far: its tables, by header or by dotted key, and its pairs. -/
structure Defined where
  current : List String
  headers : List (List String)
  dotted : List (List String)
  pairs : List (List String)

/-- What is defined after an expression, unless it defines something twice. -/
def Defined.add (defined : Defined) : Shape → Option Defined
  | .header path =>
    if defined.headers.contains path || defined.dotted.contains path ||
        defined.pairs.any (·.isPrefixOf path) then none
    else some { defined with current := path, headers := path :: defined.headers }
  | .pair name =>
    let path := defined.current ++ name
    let tables := (name.inits.filter fun init => init ≠ [] ∧ init ≠ name).map (defined.current ++ ·)
    if defined.pairs.any (fun other => other.isPrefixOf path || path.isPrefixOf other) ||
        defined.headers.any (path.isPrefixOf ·) || tables.any defined.headers.contains then none
    else some { defined with dotted := tables ++ defined.dotted, pairs := path :: defined.pairs }

def consistent (shapes : List Shape) : Bool :=
  (shapes.foldlM Defined.add ⟨[], [], [], []⟩).isSome

/-- The values of a document, under their full names. -/
def entries : List String → List Expression → List (List String × Value)
  | _, [] => []
  | current, .blank :: rest => entries current rest
  | _, .header path :: rest => entries path rest
  | current, .pair name v :: rest => (current ++ name, v) :: entries current rest

def parse (text : String) : Option (List (List String × Value)) := do
  let expressions ← expressions text.toList
  if consistent (expressions.filterMap Expression.shape) then some (entries [] expressions)
  else none

theorem parse_eq {text : String} {read : List Expression} (h : expressions text.toList = some read)
    (hconsistent : consistent (read.filterMap Expression.shape)) :
    parse text = some (entries [] read) := by
  unfold parse
  rw [h]
  exact if_pos hconsistent

theorem parse_eq_none {text : String} (h : expressions text.toList = none) : parse text = none := by
  unfold parse
  rw [h]
  rfl

/-- A literal is read by its characters; decoding its bytes takes quadratic time. -/
theorem expressions_literal {text : List Char} {read : List Expression}
    (h : expressions text = some read) : expressions (String.ofList text).toList = some read := by
  rw [String.toList_ofList]
  exact h

/-! ## Reading step by step -/

theorem basicString_unescaped {c : Char} (hquote : c ≠ '"') (hslash : c ≠ '\\')
    (h : isUnescaped c) (rest : List Char) :
    basicString .between (c :: rest) =
      (basicString .between rest).map fun (value, rest) => (c :: value, rest) := by
  rw [basicString, if_neg hquote, if_neg hslash, if_pos h]

theorem basicString_escaped {c d : Char} (h : simpleEscape c = some d) (rest : List Char) :
    basicString .between ('\\' :: c :: rest) =
      (basicString .between rest).map fun (value, rest) => (d :: value, rest) := by
  show basicString .escape (c :: rest) = _
  rw [basicString, h]

theorem basicString_of_forall {text : List Char}
    (h : ∀ c ∈ text, c ≠ '"' ∧ c ≠ '\\' ∧ isUnescaped c) (rest : List Char) :
    basicString .between (text ++ '"' :: rest) = some (text, rest) := by
  induction text with
  | nil => rfl
  | cons c text ih =>
    rw [List.forall_mem_cons] at h
    obtain ⟨⟨hquote, hslash, hunescaped⟩, hrest⟩ := h
    rw [List.cons_append, basicString_unescaped hquote hslash hunescaped, ih hrest]
    rfl

/-- The name can be written without quotes. -/
def isBareKey (name : String) : Bool := !name.toList.isEmpty && name.toList.all isBareKeyChar

theorem ne_of_isBareKeyChar {c : Char} (h : isBareKeyChar c) :
    isBlank c = false ∧ c ≠ '#' ∧ c ≠ '[' ∧ c ≠ '"' := by
  refine ⟨?_, ?_, ?_, ?_⟩
  · unfold isBlank
    by_contra hblank
    rw [Bool.not_eq_false, Bool.or_eq_true, decide_eq_true_eq, decide_eq_true_eq] at hblank
    rcases hblank with rfl | rfl
    · cases h
    · cases h
  all_goals
    rintro rfl
    cases h

/-- A line with a bare key, an equals sign and a value. -/
def line (name : String) (text : List Char) : List Char :=
  name.toList ++ ' ' :: '=' :: ' ' :: text

theorem length_line (name : String) (text : List Char) :
    (line name text).length = name.length + text.length + 3 := by
  unfold line
  simp only [List.length_append, List.length_cons, String.length_toList]
  omega

theorem newline_notMem_line {name : String} (hname : isBareKey name) {text : List Char}
    (h : '\n' ∉ text) : '\n' ∉ line name text := by
  unfold isBareKey at hname
  rw [Bool.and_eq_true, List.all_eq_true] at hname
  unfold line
  rw [List.mem_append, List.mem_cons, List.mem_cons, List.mem_cons]
  rintro (hmem | hmem | hmem | hmem | hmem)
  · cases hname.2 _ hmem
  · cases hmem
  · cases hmem
  · cases hmem
  · exact h hmem

theorem expression_line {name : String} (hname : isBareKey name) (text : List Char) :
    expression (line name text) =
      (value (line name text).length (skipBlank text)).bind fun (v, rest) =>
        if isEnd rest then some (.pair [name] v) else none := by
  unfold isBareKey at hname
  rw [Bool.and_eq_true, List.all_eq_true, Bool.not_eq_true'] at hname
  obtain ⟨hne, h⟩ := hname
  conv_rhs => rw [← String.ofList_toList (s := name)]
  unfold line
  rw [String.toList_ofList]
  cases hlist : name.toList with
  | nil =>
    rw [hlist] at hne
    cases hne
  | cons c name =>
    rw [hlist, List.forall_mem_cons] at h
    obtain ⟨hblank, hcomment, hheader, hquote⟩ := ne_of_isBareKeyChar h.1
    have hskip : ∀ rest, skipBlank (c :: rest) = c :: rest :=
      fun rest => List.dropWhile_cons_of_neg (by rw [hblank]; exact Bool.false_ne_true)
    have htake : (name ++ ' ' :: '=' :: ' ' :: text).takeWhile isBareKeyChar = name := by
      rw [List.takeWhile_append_of_pos h.2]
      exact List.append_nil name
    have hdrop : (name ++ ' ' :: '=' :: ' ' :: text).dropWhile isBareKeyChar =
        ' ' :: '=' :: ' ' :: text := by
      rw [List.dropWhile_append_of_pos h.2]
      rfl
    have hkey : key ((c :: name) ++ ' ' :: '=' :: ' ' :: text).length
        (c :: (name ++ ' ' :: '=' :: ' ' :: text)) =
          some ([String.ofList (c :: name)], '=' :: ' ' :: text) := by
      rw [List.cons_append, List.length_cons]
      unfold key simpleKey
      rw [hskip]
      dsimp only
      rw [if_neg hquote, if_pos h.1, htake, hdrop]
      rfl
    unfold expression
    rw [List.cons_append, hskip]
    dsimp only
    rw [if_neg hcomment, if_neg hheader]
    unfold pair keyValue
    rw [List.cons_append] at hkey
    rw [hkey]
    show ((value _ (skipBlank text)).bind _).bind _ = _
    rw [Option.bind_assoc]
    rfl

theorem value_array_string {text s rest : List Char}
    (h : basicString .between text = some (s, ']' :: rest)) (fuel : ℕ) :
    value (fuel + 2) ('[' :: '"' :: text) = some (.array [.string (String.ofList s)], rest) := by
  show (Option.bind ((basicString .between text).map _) _).map _ = _
  rw [h]
  rfl

theorem expressions_append (front back : List Char) :
    expressions (front ++ '\n' :: back) =
      (expressions front).bind fun first => (expressions back).map (first ++ ·) := by
  unfold expressions
  rw [List.splitOn_append_cons_self, List.mapM_append]
  cases (front.splitOn '\n').mapM expression with
  | none => rfl
  | some first =>
    cases (back.splitOn '\n').mapM expression with
    | none => rfl
    | some second => rfl

theorem expressions_singleton {text : List Char} (h : '\n' ∉ text) :
    expressions text = (expression text).map ([·]) := by
  unfold expressions
  rw [List.splitOn_eq_singleton h]
  cases hline : expression text with
  | none => simp [hline]
  | some e => simp [hline]

theorem expressions_line {name : String} (hname : isBareKey name) {text : List Char}
    (h : '\n' ∉ text) :
    expressions (line name text) =
      ((value (line name text).length (skipBlank text)).bind fun (v, rest) =>
        if isEnd rest then some (.pair [name] v) else none).map ([·]) := by
  rw [expressions_singleton (newline_notMem_line hname h), expression_line hname]

/-- A line with a string that needs no escapes, alone in an array. -/
theorem expressions_array {name : String} (hname : isBareKey name) {text : List Char}
    (h : ∀ c ∈ text, c ≠ '"' ∧ c ≠ '\\' ∧ isUnescaped c) (hline : '\n' ∉ text) :
    expressions (line name ('[' :: '"' :: (text ++ '"' :: [']']))) =
      some [.pair [name] (.array [.string (String.ofList text)])] := by
  have hvalue := value_array_string (basicString_of_forall h [']'])
    (name.length + text.length + 5)
  have hskip : ∀ rest, skipBlank ('[' :: rest) = '[' :: rest := fun _ => rfl
  have hlength : (line name ('[' :: '"' :: (text ++ '"' :: [']']))).length =
      name.length + text.length + 5 + 2 := by
    rw [length_line]
    simp only [List.length_append, List.length_cons, List.length_nil]
    omega
  have hnewline : '\n' ∉ '[' :: '"' :: (text ++ '"' :: [']']) := by
    simp only [List.mem_cons, List.mem_append, List.not_mem_nil, or_false]
    rintro (hmem | hmem | hmem | hmem | hmem)
    · cases hmem
    · cases hmem
    · exact hline hmem
    · cases hmem
    · cases hmem
  rw [expressions_line hname hnewline, hlength, hskip, hvalue]
  rfl

end RustFactory.Lib.Toml
