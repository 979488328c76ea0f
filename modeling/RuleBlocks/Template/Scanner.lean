import RuleBlocks.Text.Slice
import RuleBlocks.Template.Draft

/-!
# Scanning by offsets

The same reader once more, as one that stores a source once and holds offsets into it. Whatever it
looks at it has to slice out first: the rest of the source, the inside of a construct, the sides of
a mark, the text between quotes, and the beginning of the source where the line of an error is
counted. A slice that does not exist stops the scanner without an answer.

A scanner goes on turn by turn. A turn ends the scan with an answer, or leaves the scanner behind
the construct or character that it has read.

Main definitions:

* `Sliced` — steps that may ask for slices that do not exist;
* `Sliced.readInterpolation`, `Sliced.readCondition`, `Sliced.openTag` — the inside of a construct;
* `Scanner`, `Scanner.construct`, `Scanner.advance` — the state between turns, and the step over
  what stands there;
* `Turn`, `Scanner.turn?` — one turn;
* `Scanner.Reached` — the states that come about.
-/

namespace RuleBlocks.Template

open Text

/-- A step that may be refused, and that has no outcome at all if it asks for a slice that does not
exist. -/
abbrev Sliced (α : Type) : Type :=
  ExceptT Refusal Option α

/-- The line on which the text at an offset stands, from the slice in front of it. -/
def lineAt? (source : String) (offset : Nat) : Option Nat :=
  (slice? source 0 offset).map fun before => before.toList.count '\n' + 1

namespace Sliced

/-- A step without slices. -/
def ofExcept {α : Type} (answer : Except Refusal α) : Sliced α :=
  ExceptT.mk (some answer)

-- ---------------------------------------------------------------------------
-- Inside a construct
-- ---------------------------------------------------------------------------

def trimmed (s : String) : String :=
  String.ofList (trim s.toList)

def refuseBuiltins (expression : String) : Sliced Unit := do
  match ← splitUnquoted? '?' expression with
  | some (_, after) => throw (.builtin (builtinName after.toList))
  | none => return ()

/-- At least two bytes, of which the first and the last are the same quote mark. -/
def isQuoted (s : String) : Bool :=
  2 ≤ s.utf8ByteSize && ['"', '\''].any fun mark =>
    s.toList.head? == some mark && s.toList.getLast? == some mark

def readFallback (default : String) : Sliced Fallback := do
  let default := trimmed default
  if default.isEmpty then return .empty
  else if isQuoted default then
    let content ← slice? default 1 (default.utf8ByteSize - 1)
    return .literal (String.ofList (unescape content.toList))
  else throw (.fault (.notALiteral default))

def readInterpolation (inner : String) : Sliced Interpolation := do
  let inner := trimmed inner
  refuseBuiltins inner
  match ← splitUnquoted? '!' inner with
  | some (path, default) =>
    let fallback ← readFallback default
    return { path := ← ofExcept (readPath path.toList), fallback }
  | none => return { path := ← ofExcept (readPath inner.toList), fallback := .required }

def addInterpolation (d : Draft) (inner : String) : Sliced Draft := do
  return d.add (.interpolation (← readInterpolation inner))

def readCondition (arguments : String) : Sliced Condition := do
  let expression := trim arguments.toList
  if expression.isEmpty then throw (.fault .missingCondition)
  let (negated, expression) := cutNegation expression
  let (existsOnly, expression) := cutPresenceTest expression
  refuseBuiltins (String.ofList expression)
  return { path := ← ofExcept (readPath expression), negated, existsOnly }

/-- A conditional is noted with the offset where it starts, in the place of its line. -/
def openConditional (d : Draft) (offset : Nat) (arguments : String) : Sliced Draft := do
  if maxNesting ≤ d.opened.length then throw (.fault .nestedTooDeeply)
  let condition ← readCondition arguments
  return { d with
    opened := { condition, line := offset, thenNodes := [], elseNodes := none } :: d.opened }

/-- For an else tag the line is counted whether or not it is refused. -/
def openTag (source : String) (d : Draft) (offset : Nat) (inner : String) : Sliced Draft := do
  let body := trim inner.toList
  let (directive, arguments) :=
    match splitFirst isWhiteSpace body with
    | some (directive, arguments) => (directive, trim arguments)
    | none => (body, [])
  if directive = ['i', 'f'] then openConditional d offset (String.ofList arguments)
  else if directive = ['e', 'l', 's', 'e'] then
    let _line ← lineAt? source offset
    ofExcept (d.startElse arguments)
  else throw (.directive (String.ofList directive))

/-- The offset in the rest of a source of the mark that ends the construct there, which starts with
so many bytes of its opener. -/
def closing (rest : String) (skip : Nat) (close : Char) (missing : SyntaxFault) : Sliced Nat := do
  let inner ← slice? rest skip rest.utf8ByteSize
  match findFrom close .outside 0 inner.toList with
  | some offset => return skip + offset
  | none => throw (.fault missing)

end Sliced

-- ---------------------------------------------------------------------------
-- Turns
-- ---------------------------------------------------------------------------

/-- The offset of what is read next, and the tree so far. -/
structure Scanner where
  pos : Nat
  draft : Draft

/-- How a turn ends. -/
inductive Turn
  | ended (answer : Except TemplateError (List Node))
  | again (next : Scanner)

/-- The error for what is refused at an offset. A line is counted only where it is reported. -/
def Refusal.at? (name source : String) (offset : Nat) : Refusal → Option TemplateError
  | .fault what => (lineAt? source offset).map fun line => .malformed name line what
  | .directive word => some (.forbiddenDirective name word)
  | .builtin word => some (.forbiddenBuiltin name word)

/-- The answer at the end of the source. -/
def Draft.finish? (name source : String) (d : Draft) : Option (Except TemplateError (List Node)) :=
  match d.opened with
  | c :: _ => ((Refusal.fault .neverClosed).at? name source c.line).map .error
  | [] => some (.ok d.flush.root)

namespace Scanner

def start : Scanner :=
  { pos := 0, draft := .blank }

/-- Read a construct that starts with so many bytes of its opener, up to the mark that ends it. -/
def construct (s : Scanner) (rest : String) (skip : Nat) (close : Char) (missing : SyntaxFault)
    (read : String → Sliced Draft) : Sliced Scanner := do
  let stop ← Sliced.closing rest skip close missing
  let inner ← slice? rest skip stop
  let draft ← read inner
  return { pos := s.pos + stop + 1, draft }

/-- Read what stands at the start of the rest of the source, which has the given first character. A
comment ends at the first end mark from its opener on. -/
def advance (source : String) (s : Scanner) (first : Char) (rest : String) : Sliced Scanner := do
  if ['$', '{'].isPrefixOf rest.toList then
    s.construct rest 2 '}' .unterminatedInterpolation (Sliced.addInterpolation s.draft.flush)
  else if ['<', '#', '-', '-'].isPrefixOf rest.toList then
    match findText ['-', '-', '>'] 0 rest.toList with
    | some stop => return { s with pos := s.pos + stop + 3 }
    | none => throw (.fault .unterminatedComment)
  else if ['<', '/', '#'].isPrefixOf rest.toList then
    s.construct rest 3 '>' .unterminatedClosing fun inner =>
      Sliced.ofExcept (s.draft.flush.closeTag inner.toList)
  else if ['<', '#'].isPrefixOf rest.toList then
    s.construct rest 2 '>' .unterminatedDirective (Sliced.openTag source s.draft.flush s.pos)
  else
    let draft := { s.draft with text := s.draft.text.push first }
    return { pos := s.pos + first.utf8Size, draft }

/-- One turn of the scan of a named source; `none` if a slice does not exist. -/
def turn? (name source : String) (s : Scanner) : Option Turn := do
  let rest ← slice? source s.pos source.utf8ByteSize
  match rest.toList with
  | [] => return .ended (← s.draft.finish? name source)
  | first :: _ =>
    match ← (s.advance source first rest).run with
    | .ok next => return .again next
    | .error refusal => return .ended (.error (← refusal.at? name source s.pos))

/-- The scanner comes about in the scan of the named source. -/
inductive Reached (name source : String) : Scanner → Prop
  | start : Reached name source .start
  | turn {s next : Scanner} (hReached : Reached name source s)
      (hTurn : s.turn? name source = some (.again next)) : Reached name source next

end Scanner

end RuleBlocks.Template
