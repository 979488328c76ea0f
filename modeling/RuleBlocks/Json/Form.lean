import RuleBlocks.Named
import RuleBlocks.Json.Numeral

/-!
# The form of a JSON text

A JSON text is read in two steps. The first finds its form: lists, objects with all their entries
in order and repetitions kept, and literals. The second gives the form a meaning, for which only
the parts that matter are looked at. A literal that is well formed but stands for no value, such as
a numeral out of range or a string with half a surrogate pair, is part of a form; it is an error
only where it is given a meaning.

Main definitions:

* `Form` — the form of a text;
* `Form.read?` — the form of a text, `none` if it is not JSON;
* `Form.json?` — the value of a form;
* `Json.parse?` — the value of a text.
-/

namespace RuleBlocks

inductive Form
  | null
  | bool (value : Bool)
  /-- `none` for a numeral that is out of range. -/
  | number (value : Option Number)
  /-- `none` for a string with an unpaired surrogate. -/
  | string (value : Option String)
  | array (items : List Form)
  | object (entries : List (Option String × Form))
deriving Repr, Inhabited

namespace Form

-- ---------------------------------------------------------------------------
-- Strings
-- ---------------------------------------------------------------------------

/-- One unit of a string: a character, or a code written in hexadecimal. -/
inductive StringUnit
  | char (c : Char)
  | code (n : Nat)
deriving DecidableEq, Repr

def hexValue? (c : Char) : Option Nat :=
  if c.isDigit then some (c.toNat - '0'.toNat)
  else if 'a' ≤ c ∧ c ≤ 'f' then some (c.toNat - 'a'.toNat + 10)
  else if 'A' ≤ c ∧ c ≤ 'F' then some (c.toNat - 'A'.toNat + 10)
  else none

def hexCode? (digits : List Char) : Option Nat :=
  digits.foldlM (fun n c => (hexValue? c).map fun d => 16 * n + d) 0

/-- The character of a one-letter escape. -/
def escaped? : Char → Option Char
  | '"' => some '"'
  | '\\' => some '\\'
  | '/' => some '/'
  | 'b' => some '\x08'
  | 'f' => some '\x0c'
  | 'n' => some '\n'
  | 'r' => some '\r'
  | 't' => some '\t'
  | _ => none

/-- The units of a string up to its closing quote, last unit first, and what follows the quote. -/
def readUnits (units : List StringUnit) : List Char → Option (List StringUnit × List Char)
  | [] => none
  | '"' :: r => some (units, r)
  | '\\' :: 'u' :: a :: b :: c :: d :: r =>
    match hexCode? [a, b, c, d] with
    | some n => readUnits (.code n :: units) r
    | none => none
  | '\\' :: c :: r =>
    match escaped? c with
    | some e => readUnits (.char e :: units) r
    | none => none
  | c :: r => if c.toNat < 0x20 then none else readUnits (.char c :: units) r

def isHighSurrogate (n : Nat) : Bool := 0xD800 ≤ n && n ≤ 0xDBFF

def isLowSurrogate (n : Nat) : Bool := 0xDC00 ≤ n && n ≤ 0xDFFF

/-- The characters of units that are given last first. Surrogates count only as a high one directly
followed by a low one. -/
def unitsText? (chars : List Char) : List StringUnit → Option (List Char)
  | [] => some chars
  | .char c :: r => unitsText? (c :: chars) r
  | .code low :: .code high :: r =>
    if isLowSurrogate low then
      if isHighSurrogate high then
        unitsText? (Char.ofNat (0x10000 + (high - 0xD800) * 0x400 + (low - 0xDC00)) :: chars) r
      else none
    else if isHighSurrogate low then none
    else unitsText? (Char.ofNat low :: chars) (.code high :: r)
  | .code n :: r =>
    if isLowSurrogate n || isHighSurrogate n then none
    else unitsText? (Char.ofNat n :: chars) r

/-- A string whose opening quote has been read, and what follows it. -/
def readString (s : List Char) : Option (Option String × List Char) :=
  (readUnits [] s).map fun (units, rest) => ((unitsText? [] units).map String.ofList, rest)

-- ---------------------------------------------------------------------------
-- Numerals
-- ---------------------------------------------------------------------------

/-- The digits at the front and what follows them. -/
def spanDigits (s : List Char) : List Char × List Char :=
  s.span Char.isDigit

/-- The point and the digits after it, if there is a point. -/
def readFraction (s : List Char) : Option (List Char × List Char) :=
  match s with
  | '.' :: r =>
    let (digits, rest) := spanDigits r
    if digits.isEmpty then none else some (digits, rest)
  | _ => some ([], s)

/-- The sign and digits of an exponent, if there is one. -/
def readExponent (s : List Char) : Option (Option (Bool × List Char) × List Char) :=
  match s with
  | [] => some (none, [])
  | c :: r =>
    if c = 'e' ∨ c = 'E' then
      let (isNegative, r) :=
        match r with
        | '-' :: r => (true, r)
        | '+' :: r => (false, r)
        | r => (false, r)
      let (digits, rest) := spanDigits r
      if digits.isEmpty then none else some (some (isNegative, digits), rest)
    else some (none, s)

/-- A numeral and what follows it. A zero in front stands alone. -/
def readNumeral (s : List Char) : Option (Numeral × List Char) := do
  let (negative, s) :=
    match s with
    | '-' :: r => (true, r)
    | s => (false, s)
  let (whole, s) := spanDigits s
  if whole.isEmpty then none
  if whole.head? = some '0' ∧ whole.length ≠ 1 then none
  let (fraction, s) ← readFraction s
  let (exponent, s) ← readExponent s
  return ({ negative, whole, fraction, exponent }, s)

-- ---------------------------------------------------------------------------
-- Values
-- ---------------------------------------------------------------------------

def isBlank (c : Char) : Bool :=
  c == ' ' || c == '\t' || c == '\n' || c == '\r'

def skipBlanks (s : List Char) : List Char :=
  s.dropWhile isBlank

/-- What follows the given word, if the text starts with it. -/
def afterWord? (word s : List Char) : Option (List Char) :=
  if word.isPrefixOf s then some (s.drop word.length) else none

mutual

/-- A value and what follows it. Each level of nesting uses up fuel. -/
def readValue : Nat → List Char → Option (Form × List Char)
  | 0, _ => none
  | fuel + 1, s =>
    match skipBlanks s with
    | '"' :: r => (readString r).map fun (value, rest) => (.string value, rest)
    | '[' :: r =>
      match skipBlanks r with
      | ']' :: rest => some (.array [], rest)
      | r => readItems fuel [] r
    | '{' :: r =>
      match skipBlanks r with
      | '}' :: rest => some (.object [], rest)
      | r => readEntries fuel [] r
    | 'n' :: r => (afterWord? ['u', 'l', 'l'] r).map fun rest => (.null, rest)
    | 't' :: r => (afterWord? ['r', 'u', 'e'] r).map fun rest => (.bool true, rest)
    | 'f' :: r => (afterWord? ['a', 'l', 's', 'e'] r).map fun rest => (.bool false, rest)
    | s => (readNumeral s).map fun (numeral, rest) => (.number numeral.value?, rest)

/-- The items of a list up to its end, after those that have been read, last first. -/
def readItems : Nat → List Form → List Char → Option (Form × List Char)
  | 0, _, _ => none
  | fuel + 1, items, s =>
    match readValue fuel s with
    | none => none
    | some (item, r) =>
      match skipBlanks r with
      | ',' :: r => readItems fuel (item :: items) r
      | ']' :: rest => some (.array (item :: items).reverse, rest)
      | _ => none

/-- The entries of an object up to its end, after those that have been read, last first. -/
def readEntries : Nat → List (Option String × Form) → List Char → Option (Form × List Char)
  | 0, _, _ => none
  | fuel + 1, entries, s =>
    match skipBlanks s with
    | '"' :: r =>
      match readString r with
      | none => none
      | some (key, r) =>
        match skipBlanks r with
        | ':' :: r =>
          match readValue fuel r with
          | none => none
          | some (value, r) =>
            match skipBlanks r with
            | ',' :: r => readEntries fuel ((key, value) :: entries) r
            | '}' :: rest => some (.object ((key, value) :: entries).reverse, rest)
            | _ => none
        | _ => none
    | _ => none

end

/-- The form of a text that holds one value and blanks around it. -/
def read? (text : String) : Option Form :=
  let s := text.toList
  match readValue (2 * s.length + 2) s with
  | some (form, rest) => if (skipBlanks rest).isEmpty then some form else none
  | none => none

-- ---------------------------------------------------------------------------
-- Meaning
-- ---------------------------------------------------------------------------

/-- How many lists and objects may enclose a value that is read. -/
def maxDepth : Nat := 127

mutual

/-- The value of a form that the given number of further levels may enclose. For a key that stands
twice the last value counts, at the place of the first. -/
def jsonWithin? : Nat → Form → Option Json
  | _, .null => some .null
  | _, .bool b => some (.bool b)
  | _, .number n => n.map .number
  | _, .string s => s.map .string
  | 0, .array _ => none
  | 0, .object _ => none
  | depth + 1, .array items => (jsonItems? depth items).map .array
  | depth + 1, .object entries => (jsonEntries? depth [] entries).map .object

def jsonItems? : Nat → List Form → Option (List Json)
  | _, [] => some []
  | depth, v :: rest => do
    let v ← jsonWithin? depth v
    let rest ← jsonItems? depth rest
    return v :: rest

def jsonEntries? : Nat → List (String × Json) → List (Option String × Form) →
    Option (List (String × Json))
  | _, done, [] => some done
  | depth, done, (key, v) :: rest => do
    let key ← key
    let v ← jsonWithin? depth v
    jsonEntries? depth (Named.insertEntry key v done) rest

end

def json? (form : Form) : Option Json :=
  jsonWithin? maxDepth form

mutual

/-- The form of a value. -/
def ofJson : Json → Form
  | .null => .null
  | .bool b => .bool b
  | .number n => .number (some n)
  | .string s => .string (some s)
  | .array items => .array (ofItems items)
  | .object entries => .object (ofEntries entries)

def ofItems : List Json → List Form
  | [] => []
  | v :: rest => ofJson v :: ofItems rest

def ofEntries : List (String × Json) → List (Option String × Form)
  | [] => []
  | (key, v) :: rest => (some key, ofJson v) :: ofEntries rest

end

end Form

/-- The value of a JSON text. -/
def Json.parse? (text : String) : Option Json :=
  (Form.read? text).bind Form.json?

end RuleBlocks
