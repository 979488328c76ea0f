import RuleBlocks.Template.Expression
import RuleBlocks.Template.Lexeme

/-!
# The tree under construction

While a source is read, the nodes seen so far hang in a draft: the finished nodes at top level, the
conditionals that are still open, and text that has not become a node yet because more text, or a
comment and then more text, may follow. Each lexeme changes the draft or is refused.

Main definitions:

* `OpenConditional`, `Draft` — the state of the reader;
* `Draft.add`, `Draft.flush` — hang a node, or the pending text, into the innermost open branch;
* `Draft.feed` — what one lexeme does;
* `Draft.finish` — the tree, once the source has ended.
-/

namespace RuleBlocks.Template

open Text

/-- A conditional whose end has not been read. Nodes go to its else branch once there is one. -/
structure OpenConditional where
  condition : Condition
  line : Nat
  thenNodes : List Node
  elseNodes : Option (List Node)

namespace OpenConditional

def add (c : OpenConditional) (n : Node) : OpenConditional :=
  match c.elseNodes with
  | some nodes => { c with elseNodes := some (nodes ++ [n]) }
  | none => { c with thenNodes := c.thenNodes ++ [n] }

/-- The finished conditional; without an else branch nothing stands for it. -/
def node (c : OpenConditional) : Node :=
  .conditional c.condition c.thenNodes (c.elseNodes.getD [])

end OpenConditional

/-- The innermost open conditional comes first. -/
structure Draft where
  root : List Node
  opened : List OpenConditional
  text : String

namespace Draft

def blank : Draft :=
  { root := [], opened := [], text := "" }

def add (d : Draft) (n : Node) : Draft :=
  match d.opened with
  | [] => { d with root := d.root ++ [n] }
  | c :: outer => { d with opened := c.add n :: outer }

/-- Pending text becomes a node; no node is made of empty text. -/
def flush (d : Draft) : Draft :=
  if d.text.isEmpty then d else { d.add (.text d.text) with text := "" }

/-- A finished node does not touch the text that is still growing. -/
theorem text_add (d : Draft) (n : Node) : (d.add n).text = d.text := by
  rw [add]
  split <;> rfl

/-- When the text is finished, a new one begins. -/
theorem text_flush (d : Draft) : d.flush.text = "" := by
  rw [flush]
  split
  case isTrue hEmpty => exact String.isEmpty_iff.mp hEmpty
  case isFalse => rfl

/-- Where there is no text, there is none to finish. -/
theorem flush_of_text {d : Draft} (hText : d.text = "") : d.flush = d := by
  simp [flush, hText]

/-- A finished node opens and closes no conditional. -/
theorem length_opened_add (d : Draft) (n : Node) :
    (d.add n).opened.length = d.opened.length := by
  rw [add]
  split <;> simp_all

/-- Nor does a text that is finished. -/
theorem length_opened_flush (d : Draft) : d.flush.opened.length = d.opened.length := by
  rw [flush]
  split
  case isTrue => rfl
  case isFalse => exact length_opened_add d _

/-- Start a conditional. Too many open ones are refused before its condition is read. -/
def openConditional (d : Draft) (line : Nat) (arguments : List Char) : Except Refusal Draft := do
  if maxNesting ≤ d.opened.length then throw (.fault .nestedTooDeeply)
  let condition ← readCondition arguments
  return { d with opened := { condition, line, thenNodes := [], elseNodes := none } :: d.opened }

/-- Turn to the else branch of the innermost conditional. -/
def startElse (d : Draft) (arguments : List Char) : Except Refusal Draft :=
  if !arguments.isEmpty then .error (.fault .elseWithArguments)
  else
    match d.opened with
    | [] => .error (.fault .elseOutside)
    | c :: outer =>
      match c.elseNodes with
      | some _ => .error (.fault .duplicateElse)
      | none => .ok { d with opened := { c with elseNodes := some [] } :: outer }

/-- A tag without a slash: its directive is what stands before the first blank. -/
def openTag (d : Draft) (line : Nat) (inner : List Char) : Except Refusal Draft :=
  let body := trim inner
  let (directive, arguments) :=
    match splitFirst isWhiteSpace body with
    | some (directive, arguments) => (directive, trim arguments)
    | none => (body, [])
  if directive = ['i', 'f'] then d.openConditional line arguments
  else if directive = ['e', 'l', 's', 'e'] then d.startElse arguments
  else .error (.directive (String.ofList directive))

/-- A tag with a slash ends the innermost conditional. -/
def closeTag (d : Draft) (inner : List Char) : Except Refusal Draft :=
  let directive := trim inner
  if directive ≠ ['i', 'f'] then .error (.directive (String.ofList directive))
  else
    match d.opened with
    | [] => .error (.fault .unmatchedClosing)
    | c :: outer => .ok ({ d with opened := outer }.add c.node)

/-- What a lexeme that starts on the given line does. A comment leaves pending text pending, so
text on its two sides becomes one node. -/
def feed (d : Draft) (line : Nat) : Lexeme → Except Refusal Draft
  | .char c => .ok { d with text := d.text.push c }
  | .comment _ => .ok d
  | .interpolation inner => (readInterpolation inner).map fun i => d.flush.add (.interpolation i)
  | .closing inner => d.flush.closeTag inner
  | .opening inner => d.flush.openTag line inner

/-- The tree of a source that has been read to its end. If a conditional is open the innermost one
is at fault, on the line where it starts. -/
def finish (d : Draft) : Except (Nat × Refusal) (List Node) :=
  match d.opened with
  | c :: _ => .error (c.line, .fault .neverClosed)
  | [] => .ok d.flush.root

end Draft

end RuleBlocks.Template
