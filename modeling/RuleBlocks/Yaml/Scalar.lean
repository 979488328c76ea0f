import RuleBlocks.Json.Form
import RuleBlocks.Yaml.Cursor

/-!
# YAML scalars

The five ways to write a text in YAML: plain, between single quotes, between double quotes, as
literal lines, and as folded lines. In the first three, blanks around a line break do not count,
one break is a space and further ones stay; the last two take their lines from the indentation.

Main definitions:

* `Gap` — what stands between two words;
* `readPlain`, `readQuoted`, `readBlock` — the text of a scalar and the cursor after it.
-/

namespace RuleBlocks.Yaml

-- ---------------------------------------------------------------------------
-- Between words
-- ---------------------------------------------------------------------------

/-- Blanks on one line, or line breaks: the first one, and those after it. -/
inductive Gap
  | blanks (text : List Char)
  | breaks (first more : List Char)
deriving Repr

namespace Gap

/-- A single line feed is a space, and with further breaks it is nothing. -/
def text : Gap → List Char
  | blanks text => text
  | breaks first more =>
    if first = ['\n'] then (if more.isEmpty then [' '] else more) else first ++ more

def isBreaks : Gap → Bool
  | blanks _ => false
  | breaks _ _ => true

/-- Pass blanks and breaks, adding to a gap. Where a line must be indented by some columns, a tab
may not stand in these. -/
def pass (indent : Nat) : Nat → Gap → Cursor → Option (Gap × Cursor)
  | 0, gap, c => some (gap, c)
  | fuel + 1, gap, c =>
    match c.rest with
    | [] => some (gap, c)
    | d :: _ =>
      if isBlank d then
        match gap with
        | blanks text => pass indent fuel (blanks (text ++ [d])) (c.advance 1)
        | breaks _ _ =>
          if d = '\t' ∧ c.column < indent then none else pass indent fuel gap (c.advance 1)
      else if isBreak d then
        let (br, c) := c.nextLine
        match gap with
        | blanks _ => pass indent fuel (breaks br []) c
        | breaks first more => pass indent fuel (breaks first (more ++ br)) c
      else some (gap, c)

/-- The gap at a cursor. -/
def read (indent : Nat) (c : Cursor) : Option (Gap × Cursor) :=
  pass indent (c.rest.length + 1) (blanks []) c

end Gap

-- ---------------------------------------------------------------------------
-- Plain scalars
-- ---------------------------------------------------------------------------

/-- The marks of collections that are written with brackets. -/
def isFlowMark (c : Char) : Bool :=
  c == ',' || c == '[' || c == ']' || c == '\x7b' || c == '\x7d'

/-- The length of the word at the front of a text: it ends before a blank, a colon with a blank
after it and, inside brackets, one of their marks. There a colon directly before a mark is an
error. -/
def wordLength (inFlow : Bool) : List Char → Option Nat
  | [] => some 0
  | c :: r =>
    if isBlank c || isBreak c then some 0
    else if inFlow && c == ':' && r.head?.any (fun d => isFlowMark d || d == '?') then none
    else if (c == ':' && startsBlank r) || (inFlow && isFlowMark c) then some 0
    else (wordLength inFlow r).map (· + 1)

/-- A scalar in words. -/
structure Plain where
  text : List Char
  cursor : Cursor
  /-- Whether line breaks follow the last word. -/
  brokenOff : Bool
deriving Repr

def readWords (inFlow : Bool) (indent : Nat) : Nat → List Char → Gap → Cursor → Option Plain
  | 0, _, _, _ => none
  | fuel + 1, text, gap, c =>
    let stop : Plain := { text, cursor := c, brokenOff := gap.isBreaks }
    if c.atMarker || c.rest.head? == some '#' then some stop
    else
      match wordLength inFlow c.rest with
      | none => none
      | some 0 => some stop
      | some (n + 1) =>
        let text := text ++ gap.text ++ c.rest.take (n + 1)
        let c := c.advance (n + 1)
        if !startsBlank c.rest || c.rest.isEmpty then
          some { text, cursor := c, brokenOff := false }
        else
          match Gap.read indent c with
          | none => none
          | some (gap, c) =>
            if !inFlow && c.column < indent then
              some { text, cursor := c, brokenOff := gap.isBreaks }
            else readWords inFlow indent fuel text gap c

/-- A plain scalar that goes on over lines which are indented by at least the given columns. -/
def readPlain (inFlow : Bool) (indent : Nat) (c : Cursor) : Option Plain :=
  readWords inFlow indent (c.rest.length + 1) [] (.blanks []) c

-- ---------------------------------------------------------------------------
-- Quoted scalars
-- ---------------------------------------------------------------------------

/-- What a character after a backslash stands for. -/
def escapedChar? : Char → Option Char
  | '0' => some '\x00'
  | 'a' => some '\x07'
  | 'b' => some '\x08'
  | 't' => some '\t'
  | '\t' => some '\t'
  | 'n' => some '\n'
  | 'v' => some '\x0b'
  | 'f' => some '\x0c'
  | 'r' => some '\r'
  | 'e' => some '\x1b'
  | ' ' => some ' '
  | '"' => some '"'
  | '/' => some '/'
  | '\\' => some '\\'
  | 'N' => some '\x85'
  | '_' => some '\xa0'
  | 'L' => some '\u2028'
  | 'P' => some '\u2029'
  | _ => none

/-- How many hexadecimal digits follow a letter after a backslash. -/
def codeLength? : Char → Option Nat
  | 'x' => some 2
  | 'u' => some 4
  | 'U' => some 8
  | _ => none

/-- The character of a code that is one. -/
def charOfCode? (n : Nat) : Option Char :=
  if n.isValidChar then some (Char.ofNat n) else none

/-- The character of an escape whose backslash has been passed, and its length. -/
def readEscape (s : List Char) : Option (Char × Nat) :=
  match s with
  | [] => none
  | c :: r =>
    match codeLength? c with
    | none => (escapedChar? c).map fun e => (e, 1)
    | some n =>
      let digits := r.take n
      if digits.length < n then none
      else ((Form.hexCode? digits).bind charOfCode?).map fun e => (e, n + 1)

/-- Read up to the closing quote, with what has been read in reverse. -/
def readUpTo (quote : Char) : Nat → List Char → Cursor → Option (List Char × Cursor)
  | 0, _, _ => none
  | fuel + 1, text, c =>
    if c.atMarker then none
    else
      match c.rest with
      | [] => none
      | d :: r =>
        if d = quote then
          if quote = '\'' ∧ r.head? = some '\'' then readUpTo quote fuel ('\'' :: text) (c.advance 2)
          else some (text.reverse, c.advance 1)
        else if isBlank d || isBreak d then
          match Gap.read 0 c with
          | none => none
          | some (gap, c) => readUpTo quote fuel (gap.text.reverse ++ text) c
        else if d = '\\' ∧ quote = '"' then
          if r.head?.any isBreak then
            -- an escaped line break, and the blanks and breaks after it
            let c := (c.advance 1).nextLine.2
            match Gap.pass 0 (c.rest.length + 1) (.breaks [] []) c with
            | none => none
            | some (gap, c) => readUpTo quote fuel (gap.text.reverse ++ text) c
          else
            match readEscape r with
            | none => none
            | some (e, n) => readUpTo quote fuel (e :: text) (c.advance (n + 1))
        else readUpTo quote fuel (d :: text) (c.advance 1)

/-- A scalar whose opening quote is the first character at the cursor. -/
def readQuoted (quote : Char) (c : Cursor) : Option (List Char × Cursor) :=
  readUpTo quote (c.rest.length + 1) [] (c.advance 1)

-- ---------------------------------------------------------------------------
-- Scalars in lines
-- ---------------------------------------------------------------------------

/-- What becomes of the breaks at the end of a scalar in lines. -/
inductive Chomping
  | strip
  | clip
  | keep
deriving DecidableEq, Repr

/-- The header of a scalar in lines: the chomping, and how far its lines are indented if that is
given. -/
structure BlockHeader where
  chomping : Chomping
  indent : Option Nat
deriving Repr

def chompingOf? : Char → Option Chomping
  | '-' => some .strip
  | '+' => some .keep
  | _ => none

def readDigit (s : List Char) : Option (Option Nat × List Char) :=
  match s with
  | [] => some (none, [])
  | d :: r =>
    if d = '0' then none
    else if d.isDigit then some (some (d.toNat - '0'.toNat), r)
    else some (none, s)

/-- The marks after `|` or `>`: chomping and indentation, in either order. -/
def readMarks (s : List Char) : Option (BlockHeader × List Char) :=
  match s with
  | [] => some ({ chomping := .clip, indent := none }, [])
  | d :: r =>
    match chompingOf? d with
    | some chomping => (readDigit r).map fun (indent, r) => ({ chomping, indent }, r)
    | none =>
      (readDigit s).map fun (indent, r) =>
        match indent, r.head?.bind chompingOf? with
        | some _, some chomping => ({ chomping, indent }, r.drop 1)
        | _, _ => ({ chomping := .clip, indent }, r)

/-- Pass empty lines and the indentation of the line after them. If the indentation is not known
it is the deepest that is met. Tabs may not be part of it. -/
def passEmptyLines (known : Option Nat) : Nat → Nat → List Char → Cursor →
    Option (Nat × List Char × Cursor)
  | 0, deepest, breaks, c => some (deepest, breaks, c)
  | fuel + 1, deepest, breaks, c =>
    let spaces := (c.rest.takeWhile (· == ' ')).length
    let c := c.advance (match known with
      | some indent => min spaces (indent - c.column)
      | none => spaces)
    let deepest := max deepest c.column
    let indenting := match known with
      | some indent => c.column < indent
      | none => true
    match c.rest with
    | [] => some (deepest, breaks, c)
    | d :: _ =>
      if indenting && d == '\t' then none
      else if isBreak d then
        let (br, c) := c.nextLine
        passEmptyLines known fuel deepest (breaks ++ br) c
      else some (deepest, breaks, c)

/-- The lines of a scalar, after the text so far, the break of the last line, whether that line
started with a blank, and the empty lines after it. -/
def readLines (isLiteral : Bool) (indent : Nat) : Nat → List Char → List Char → Bool → List Char →
    Cursor → Option (List Char × List Char × List Char × Cursor)
  | 0, _, _, _, _, _ => none
  | fuel + 1, text, lastBreak, wasBlank, breaks, c =>
    if c.column ≠ indent ∨ c.rest.isEmpty then some (text, lastBreak, breaks, c)
    else
      let isBlankLine := c.rest.head?.any isBlank
      let joint :=
        if !isLiteral && lastBreak == ['\n'] && !wasBlank && !isBlankLine then
          (if breaks.isEmpty then [' '] else breaks)
        else lastBreak ++ breaks
      let (line, c) := c.takeWhile fun d => !isBreak d
      let (br, c) := c.nextLine
      match passEmptyLines (some indent) (c.rest.length + 1) 0 [] c with
      | none => none
      | some (_, breaks, c) =>
        readLines isLiteral indent fuel (text ++ joint ++ line) br isBlankLine breaks c

/-- A scalar in lines whose mark is the first character at the cursor, where the enclosing block is
indented by the given columns, if there is one. -/
def readBlock (isLiteral : Bool) (outer : Option Nat) (c : Cursor) : Option (List Char × Cursor) := do
  let c := c.advance 1
  let (header, rest) ← readMarks c.rest
  let c := (c.advance (c.rest.length - rest.length)).skipWhile isBlank
  let c := if c.rest.head? = some '#' then c.skipToBreak else c
  if !(c.rest.isEmpty || c.rest.head?.any isBreak) then none
  let c := c.nextLine.2
  let known := header.indent.map fun n => outer.getD 0 + n
  let (deepest, breaks, c) ← passEmptyLines known (c.rest.length + 1) 0 [] c
  let least := match outer with
    | some n => n + 1
    | none => 1
  let indent := known.getD (max deepest least)
  let (text, lastBreak, breaks, c) ←
    readLines isLiteral indent (c.rest.length + 1) [] [] false breaks c
  let ending := match header.chomping with
    | .strip => []
    | .clip => lastBreak
    | .keep => lastBreak ++ breaks
  return (text ++ ending, c)

end RuleBlocks.Yaml
