/-!
# Position in a YAML text

Indentation carries meaning in YAML, so whoever reads it knows the column of each character. A
cursor is what is left of a text, with the line and column of its first character.

Main definitions:

* `isBlank`, `isBreak`, `isPrintable` — classes of characters;
* `Cursor` — the position, with `Cursor.advance` and `Cursor.nextLine` to move it;
* `Cursor.atMarker` — whether a line starts with a document marker.
-/

namespace RuleBlocks.Yaml

-- ---------------------------------------------------------------------------
-- Characters
-- ---------------------------------------------------------------------------

def isBlank (c : Char) : Bool :=
  c == ' ' || c == '\t'

/-- Line feed, carriage return, next line, line separator and paragraph separator. -/
def isBreak (c : Char) : Bool :=
  c == '\n' || c == '\r' || c == '\x85' || c == '\u2028' || c == '\u2029'

/-- The characters that a text may hold. -/
def isPrintable (c : Char) : Bool :=
  c == '\t' || c == '\n' || c == '\r' || c == '\x85' ||
    (0x20 ≤ c.toNat && c.toNat ≤ 0x7E) || (0xA0 ≤ c.toNat && c.toNat ≤ 0xFFFD) ||
    0x10000 ≤ c.toNat

/-- The characters of names of anchors and of tag handles. -/
def isWordChar (c : Char) : Bool :=
  c.isAlphanum || c == '-' || c == '_'

/-- Whether the text ends or goes on with a blank or a break. -/
def startsBlank : List Char → Bool
  | [] => true
  | c :: _ => isBlank c || isBreak c

-- ---------------------------------------------------------------------------
-- Cursors
-- ---------------------------------------------------------------------------

structure Cursor where
  rest : List Char
  line : Nat
  column : Nat
  /-- How many characters have been passed. -/
  index : Nat
deriving Repr

namespace Cursor

def ofText (text : List Char) : Cursor :=
  { rest := text, line := 0, column := 0, index := 0 }

/-- Pass characters that are not line breaks. -/
def advance (c : Cursor) (n : Nat) : Cursor :=
  { c with rest := c.rest.drop n, column := c.column + n, index := c.index + n }

/-- Pass the characters of a class that holds no line break. -/
def skipWhile (c : Cursor) (p : Char → Bool) : Cursor :=
  c.advance (c.rest.takeWhile p).length

/-- The characters of a class that holds no line break, and the cursor after them. -/
def takeWhile (c : Cursor) (p : Char → Bool) : List Char × Cursor :=
  (c.rest.takeWhile p, c.skipWhile p)

/-- Pass to the end of the line. -/
def skipToBreak (c : Cursor) : Cursor :=
  c.skipWhile fun d => !isBreak d

def nextLineAt (c : Cursor) (rest : List Char) (passed : Nat) : Cursor :=
  { rest, line := c.line + 1, column := 0, index := c.index + passed }

/-- Pass a line break: what it stands for, and the start of the next line. A carriage return with a
line feed is one break. Separators of lines and paragraphs stand for themselves. -/
def nextLine (c : Cursor) : List Char × Cursor :=
  match c.rest with
  | '\r' :: '\n' :: r => (['\n'], c.nextLineAt r 2)
  | '\u2028' :: r => (['\u2028'], c.nextLineAt r 1)
  | '\u2029' :: r => (['\u2029'], c.nextLineAt r 1)
  | d :: r => if isBreak d then (['\n'], c.nextLineAt r 1) else ([], c)
  | [] => ([], c)

/-- Whether a line starts with the given character three times and then a blank. -/
def atMark (c : Cursor) (mark : Char) : Bool :=
  c.column == 0 &&
    match c.rest with
    | x :: y :: z :: r => x == mark && y == mark && z == mark && startsBlank r
    | _ => false

/-- Whether a document starts or ends here. -/
def atMarker (c : Cursor) : Bool :=
  c.atMark '-' || c.atMark '.'

end Cursor

end RuleBlocks.Yaml
