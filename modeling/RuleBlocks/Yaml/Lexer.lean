import RuleBlocks.Yaml.Scalar
import RuleBlocks.Yaml.Token

/-!
# Tokens of a YAML text

Tokens are found one after the other. What makes this more than cutting is that a key is known to be
one only at the colon after it: where a key may start the position is remembered, and when its
colon is met the tokens for the key, and for a mapping that starts with it, are put in at that
position. Such a key must end on the line where it starts, within 1024 characters. Outside brackets
the columns at which collections start form a stack, and a token further left ends collections.

Main definitions:

* `KeyStart`, `Lexer` — where a key may have started, and the state;
* `Lexer.rollIndent`, `Lexer.unrollIndent` — start and end collections by their columns;
* `Lexer.next` — the next token or tokens;
* `tokens?` — all tokens of a text.
-/

namespace RuleBlocks.Yaml

/-- A place where a key may have started. -/
structure KeyStart where
  /-- How many tokens stand before it. -/
  position : Nat
  /-- Whether nothing else than a key can stand here. -/
  required : Bool
  line : Nat
  column : Nat
  index : Nat
deriving Repr

structure Lexer where
  cursor : Cursor
  tokens : Array Token
  /-- The columns of the open collections that are written by indentation, innermost first. -/
  indents : List Nat
  /-- Where a key may have started, for each level of brackets, innermost first; the last is that
  outside brackets. -/
  keys : List (Option KeyStart)
  /-- Whether a key may start here. -/
  keyAllowed : Bool
deriving Repr

namespace Lexer

def ofText (text : List Char) : Lexer :=
  { cursor := .ofText text, tokens := #[], indents := [], keys := [none], keyAllowed := true }

def inFlow (l : Lexer) : Bool :=
  1 < l.keys.length

/-- The least column of the lines that go on with a node. -/
def nodeIndent (l : Lexer) : Nat :=
  match l.indents with
  | column :: _ => column + 1
  | [] => 0

def push (l : Lexer) (t : Token) : Lexer :=
  { l with tokens := l.tokens.push t }

def allowKey (l : Lexer) (allowed : Bool) : Lexer :=
  { l with keyAllowed := allowed }

-- ---------------------------------------------------------------------------
-- Keys and columns
-- ---------------------------------------------------------------------------

/-- Forget where a key may have started on this level. A required key cannot be forgotten. -/
def dropKey (l : Lexer) : Option Lexer :=
  match l.keys with
  | some k :: outer => if k.required then none else some { l with keys := none :: outer }
  | _ => some l

/-- Remember that a key may start here. -/
def saveKey (l : Lexer) : Option Lexer :=
  if !l.keyAllowed then some l
  else do
    let c := l.cursor
    let required := !l.inFlow && l.indents.head? == some c.column
    let key : KeyStart :=
      { position := l.tokens.size, required, line := c.line, column := c.column, index := c.index }
    let l ← l.dropKey
    return { l with keys := some key :: l.keys.drop 1 }

/-- Whether a colon here can still belong to the key. -/
def isFresh (c : Cursor) (k : KeyStart) : Bool :=
  k.line == c.line && c.index ≤ k.index + 1024

/-- Forget the places that are too far back. -/
def dropStaleKeys (l : Lexer) : Option Lexer := do
  let keys ← l.keys.mapM fun key =>
    match key with
    | some k =>
      if isFresh l.cursor k then some (some k) else if k.required then none else some none
    | none => some none
  return { l with keys }

/-- Start a collection at a column that is further right than the innermost one, with its token at
the given position. -/
def rollIndent (l : Lexer) (column position : Nat) (t : Token) : Lexer :=
  if l.inFlow then l
  else if l.indents.head?.all (· < column) then
    { l with indents := column :: l.indents, tokens := l.tokens.insertIdxIfInBounds position t }
  else l

/-- End the collections that are further right than the given column; all of them without one. -/
def unrollIndent (l : Lexer) (column : Option Nat) : Lexer :=
  if l.inFlow then l
  else
    let ending := l.indents.takeWhile fun indent => column.all (· < indent)
    { l with
      indents := l.indents.drop ending.length
      tokens := l.tokens ++ Array.replicate ending.length .blockEnd }

-- ---------------------------------------------------------------------------
-- Directives
-- ---------------------------------------------------------------------------

/-- A number of at most nine digits. -/
def readNumber (c : Cursor) : Option (Nat × Cursor) :=
  let (digits, c) := c.takeWhile Char.isDigit
  if digits.isEmpty || 9 < digits.length then none else some (digitsValue digits, c)

/-- The handle of a tag: `!`, `!!` or a word between the two. -/
def readHandle (isDirective : Bool) (c : Cursor) : Option (String × Cursor) :=
  match c.rest with
  | '!' :: _ =>
    let (word, after) := (c.advance 1).takeWhile isWordChar
    match after.rest with
    | '!' :: _ => some (String.ofList ('!' :: (word ++ ['!'])), after.advance 1)
    | _ =>
      if isDirective && !word.isEmpty then none
      else some (String.ofList ('!' :: word), after)
  | _ => none

/-- The characters of tags; marks of collections only where the tag is written out in full. -/
def isTagChar (isFull : Bool) (c : Char) : Bool :=
  isWordChar c || ";/?:@&=+$.!~*'()%".toList.contains c ||
    (isFull && (c == ',' || c == '[' || c == ']'))

/-- The byte after a percent sign. -/
def percentByte? (s : List Char) : Option UInt8 :=
  match s with
  | a :: b :: _ => (Form.hexCode? [a, b]).map (·.toUInt8)
  | _ => none

/-- The bytes of the text of a tag, in which bytes may be written after percent signs. -/
def tagBytes : List Char → ByteArray → Option ByteArray
  | [], bytes => some bytes
  | '%' :: a :: b :: r, bytes =>
    match percentByte? [a, b] with
    | some byte => tagBytes r (bytes.push byte)
    | none => none
  | c :: r, bytes => if c = '%' then none else tagBytes r (bytes ++ (String.singleton c).toUTF8)

/-- The text of a tag from characters that were passed before and those at the cursor. -/
def readTagText (isFull : Bool) (before : List Char) (c : Cursor) : Option (String × Cursor) := do
  let (text, c) := c.takeWhile (isTagChar isFull)
  let bytes ← tagBytes (before ++ text) .empty
  return (← String.fromUTF8? bytes, c)

/-- What may follow a directive on its line. -/
def endDirective (c : Cursor) : Option Cursor :=
  let c := c.skipWhile isBlank
  let c := if c.rest.head? = some '#' then c.skipToBreak else c
  if c.rest.isEmpty || c.rest.head?.any isBreak then some c.nextLine.2 else none

/-- A directive whose percent sign is at the cursor. -/
def readDirective (c : Cursor) : Option (Token × Cursor) := do
  let (name, c) := (c.advance 1).takeWhile isWordChar
  if !startsBlank c.rest then none
  if name = "YAML".toList then
    let (major, c) ← readNumber (c.skipWhile isBlank)
    if c.rest.head? ≠ some '.' then none
    let (minor, c) ← readNumber (c.advance 1)
    return (.versionDirective major minor, ← endDirective c)
  else if name = "TAG".toList then
    let (handle, c) ← readHandle true (c.skipWhile isBlank)
    if !(c.rest.head?.any isBlank) then none
    let (start, c) ← readTagText true [] (c.skipWhile isBlank)
    if start.isEmpty || !startsBlank c.rest then none
    return (.tagDirective handle start, ← endDirective c)
  else none

-- ---------------------------------------------------------------------------
-- Properties of nodes
-- ---------------------------------------------------------------------------

/-- The name after the mark of an anchor or an alias. -/
def readName (c : Cursor) : Option (String × Cursor) :=
  let (name, c) := (c.advance 1).takeWhile isWordChar
  let isEnd := startsBlank c.rest || c.rest.head?.any fun d => "?:,]\x7d%@`".toList.contains d
  if name.isEmpty || !isEnd then none else some (String.ofList name, c)

/-- A tag whose exclamation mark is at the cursor. -/
def readTag (inFlow : Bool) (c : Cursor) : Option (Token × Cursor) := do
  let (token, c) ←
    match c.rest with
    | '!' :: '<' :: _ => do
      let (text, c) ← readTagText true [] (c.advance 2)
      if text.isEmpty || c.rest.head? ≠ some '>' then none
      pure (Token.tag "" text, c.advance 1)
    | _ => do
      let (handle, after) ← readHandle false c
      if 1 < handle.length && handle.endsWith "!" then
        let (suffix, c) ← readTagText false [] after
        if suffix.isEmpty then none
        pure (Token.tag handle suffix, c)
      else
        let (suffix, c) ← readTagText false (handle.toList.drop 1) after
        pure (if suffix.isEmpty then Token.tag "" "!" else Token.tag "!" suffix, c)
  if startsBlank c.rest || (inFlow && c.rest.head? = some ',') then return (token, c) else none

-- ---------------------------------------------------------------------------
-- Tokens
-- ---------------------------------------------------------------------------

/-- Pass blanks, comments and line breaks. Outside brackets a tab may not stand where a key may
start; a new line lets a key start. -/
def skipToToken : Nat → Lexer → Lexer
  | 0, l => l
  | fuel + 1, l =>
    let c := l.cursor
    let c := if c.column == 0 && c.rest.head? == some '\uFEFF' then c.advance 1 else c
    let c := c.skipWhile fun d => d == ' ' || (d == '\t' && (l.inFlow || !l.keyAllowed))
    let c := if c.rest.head? = some '#' then c.skipToBreak else c
    if c.rest.head?.any isBreak then
      skipToToken fuel { l with cursor := c.nextLine.2, keyAllowed := l.keyAllowed || !l.inFlow }
    else { l with cursor := c }

/-- A token of the given length that is nothing but a mark. -/
def mark (l : Lexer) (t : Token) (length : Nat) : Lexer :=
  { l with cursor := l.cursor.advance length }.push t

/-- The start or end of a document. -/
def documentMark (l : Lexer) (t : Token) : Option Lexer := do
  let l ← (l.unrollIndent none).dropKey
  return (l.allowKey false).mark t 3

def flowStart (l : Lexer) (t : Token) : Option Lexer := do
  let l ← l.saveKey
  return ({ l with keys := none :: l.keys }.allowKey true).mark t 1

/-- A closing bracket goes back one level, if there is one. -/
def flowEnd (l : Lexer) (t : Token) : Option Lexer := do
  let l ← l.dropKey
  let keys := if l.inFlow then l.keys.drop 1 else l.keys
  return ({ l with keys }.allowKey false).mark t 1

def flowEntry (l : Lexer) : Option Lexer := do
  let l ← l.dropKey
  return (l.allowKey true).mark .flowEntry 1

def blockEntry (l : Lexer) : Option Lexer := do
  if !l.inFlow && !l.keyAllowed then none
  let l := l.rollIndent l.cursor.column l.tokens.size .blockSequenceStart
  let l ← l.dropKey
  return (l.allowKey true).mark .blockEntry 1

/-- A key that is marked as one. -/
def markedKey (l : Lexer) : Option Lexer := do
  if !l.inFlow && !l.keyAllowed then none
  let l := l.rollIndent l.cursor.column l.tokens.size .blockMappingStart
  let l ← l.dropKey
  return (l.allowKey !l.inFlow).mark .key 1

/-- The colon of a value. If a key may have started before it, that is where the key was. -/
def value (l : Lexer) : Option Lexer :=
  match l.keys with
  | some k :: outer =>
    let l := { l with
      tokens := l.tokens.insertIdxIfInBounds k.position .key
      keys := none :: outer }
    let l := l.rollIndent k.column k.position .blockMappingStart
    some ((l.allowKey false).mark .value 1)
  | _ =>
    if !l.inFlow && !l.keyAllowed then none
    else
      let l := l.rollIndent l.cursor.column l.tokens.size .blockMappingStart
      some ((l.allowKey !l.inFlow).mark .value 1)

/-- A token that may be the start of a key. -/
def keyable (l : Lexer) (read : Cursor → Option (Token × Cursor)) : Option Lexer := do
  let l ← l.saveKey
  let (t, cursor) ← read l.cursor
  return ({ l with cursor }.push t).allowKey false

def quoted (style : ScalarStyle) (quote : Char) (c : Cursor) : Option (Token × Cursor) :=
  (readQuoted quote c).map fun (text, c) => (.scalar (String.ofList text) style, c)

def block (l : Lexer) (style : ScalarStyle) : Option Lexer := do
  let l ← l.dropKey
  let (text, cursor) ← readBlock (style == .literal) l.indents.head? l.cursor
  return ({ l with cursor }.push (.scalar (String.ofList text) style)).allowKey true

def plain (l : Lexer) : Option Lexer := do
  let l ← l.saveKey
  let p ← readPlain l.inFlow l.nodeIndent l.cursor
  return ({ l with cursor := p.cursor }.push (.scalar (String.ofList p.text) .plain)).allowKey
    p.brokenOff

/-- Whether a plain scalar can start with the given character, before the given text. -/
def startsPlain (inFlow : Bool) (c : Char) (r : List Char) : Bool :=
  !(isBlank c || isBreak c || "-?:,[]\x7b\x7d#&*!|>'\"%@`".toList.contains c) ||
    (c == '-' && !(r.head?.any isBlank)) ||
    (!inFlow && (c == '?' || c == ':') && !startsBlank r)

/-- The next token, and the tokens that come with it. -/
def token (l : Lexer) : Option Lexer :=
  let c := l.cursor
  match c.rest with
  | [] => some l
  | d :: r =>
    if c.column = 0 ∧ d = '%' then do
      let l ← (l.unrollIndent none).dropKey
      let (t, cursor) ← readDirective c
      return ({ l with cursor }.push t).allowKey false
    else if c.atMark '-' then l.documentMark .documentStart
    else if c.atMark '.' then l.documentMark .documentEnd
    else if d = '[' then l.flowStart .flowSequenceStart
    else if d = '\x7b' then l.flowStart .flowMappingStart
    else if d = ']' then l.flowEnd .flowSequenceEnd
    else if d = '\x7d' then l.flowEnd .flowMappingEnd
    else if d = ',' then l.flowEntry
    else if d = '-' ∧ startsBlank r then l.blockEntry
    else if d = '?' ∧ (l.inFlow ∨ startsBlank r) then l.markedKey
    else if d = ':' ∧ (l.inFlow ∨ startsBlank r) then l.value
    else if d = '*' then l.keyable fun c => (readName c).map fun (name, c) => (.alias name, c)
    else if d = '&' then l.keyable fun c => (readName c).map fun (name, c) => (.anchor name, c)
    else if d = '!' then l.keyable (readTag l.inFlow)
    else if d = '|' ∧ !l.inFlow then l.block .literal
    else if d = '>' ∧ !l.inFlow then l.block .folded
    else if d = '\'' then l.keyable (quoted .singleQuoted '\'')
    else if d = '"' then l.keyable (quoted .doubleQuoted '"')
    else if startsPlain l.inFlow d r then l.plain
    else none

/-- The next token after blanks and comments, with the ends of the collections that it ends; nothing
but those at the end of the text. -/
def next (l : Lexer) : Option Lexer := do
  let l := l.skipToToken (l.cursor.rest.length + 1)
  let l ← l.dropStaleKeys
  if l.cursor.rest.isEmpty then (l.unrollIndent none).dropKey
  else (l.unrollIndent (some l.cursor.column)).token

def run : Nat → Lexer → Option Lexer
  | 0, l => some l
  | fuel + 1, l => do
    let l ← l.next
    if l.cursor.rest.isEmpty then l.next else run fuel l

end Lexer

/-- The text after a byte order mark. -/
def withoutMark : List Char → List Char
  | '\uFEFF' :: r => r
  | s => s

/-- All tokens of a text. Every token takes at least one character. -/
def tokens? (text : String) : Option (List Token) :=
  let s := withoutMark text.toList
  if s.all isPrintable then
    ((Lexer.ofText s).run (s.length + 1)).map fun l => l.tokens.toList
  else none

end RuleBlocks.Yaml
