import RuleBlocks.Json.Printer
import RuleBlocks.Json.Numeral
import RuleBlocks.Template.Node
import RuleBlocks.Template.Fault

/-!
# Rendering

The text of a tree for a given context. Paths are looked up in the context; a string is written as
it is, any other value as compact JSON. Rendering stops at the first required variable that is
missing or null on the branches that are taken.

Main definitions:

* `lookUp` — the value at a path;
* `isTruthy`, `Condition.holds` — which branch is taken;
* `renderNodes` — the text of a list of nodes;
* `renderNodes_cons`, `renderNodes_append` — nodes are rendered one after the other.
-/

namespace RuleBlocks.Template

-- ---------------------------------------------------------------------------
-- Looking up paths
-- ---------------------------------------------------------------------------

/-- The index that a segment stands for: decimal digits, of a value that fits into 64 bits. -/
def index? (segment : String) : Option Nat :=
  let digits := segment.toList
  if !digits.isEmpty && digits.all Char.isDigit && digitsValue digits < UInt64.size then
    some (digitsValue digits)
  else none

/-- One step down: a key of an object, an index of a list; nothing else has parts. -/
def child? (value : Json) (segment : String) : Option Json :=
  match value with
  | .object _ => value.field? segment
  | .array _ => (index? segment).bind value.item?
  | _ => none

def lookUp (context : Json) (path : Path) : Option Json :=
  path.foldlM child? context

/-- The value at a path, unless it is missing or null. -/
def present? (context : Json) (path : Path) : Option Json :=
  (lookUp context path).filter fun v => !v.isNull

-- ---------------------------------------------------------------------------
-- Conditions
-- ---------------------------------------------------------------------------

/-- Null, false, zero, and the empty string and list do not count as true; objects always do. -/
def isTruthy : Json → Bool
  | .null => false
  | .bool b => b
  | .number n => n.isNonzero
  | .string s => !s.isEmpty
  | .array items => !items.isEmpty
  | .object _ => true

def Condition.holds (c : Condition) (context : Json) : Bool :=
  let result :=
    if c.existsOnly then (present? context c.path).isSome
    else (lookUp context c.path).any isTruthy
  result != c.negated

-- ---------------------------------------------------------------------------
-- Text
-- ---------------------------------------------------------------------------

/-- A string is written without quotes. -/
def valueText : Json → String
  | .string s => s
  | v => v.compact

/-- The text of an interpolation, or the variable that it misses. -/
def Interpolation.render (i : Interpolation) (context : Json) : Except Path String :=
  match present? context i.path with
  | some v => .ok (valueText v)
  | none =>
    match i.fallback with
    | .required => .error i.path
    | .empty => .ok ""
    | .literal text => .ok text

mutual

/-- The text of a node, or the first required variable that it misses. -/
def renderNode (context : Json) : Node → Except Path String
  | .text content => .ok content
  | .interpolation i => i.render context
  | .conditional c thenNodes elseNodes =>
    if c.holds context then renderNodes context thenNodes else renderNodes context elseNodes

def renderNodes (context : Json) : List Node → Except Path String
  | [] => .ok ""
  | n :: rest =>
    match renderNode context n with
    | .error path => .error path
    | .ok text =>
      match renderNodes context rest with
      | .error path => .error path
      | .ok tail => .ok (text ++ tail)

end

-- ---------------------------------------------------------------------------
-- Lists of nodes
-- ---------------------------------------------------------------------------

/-- No nodes give no text. -/
theorem renderNodes_nil (context : Json) : renderNodes context [] = pure "" := by
  rw [renderNodes]
  rfl

/-- A node is rendered before those that follow it, and stops them if it fails. -/
theorem renderNodes_cons (context : Json) (n : Node) (rest : List Node) :
    renderNodes context (n :: rest) = (do
      let before ← renderNode context n
      let after ← renderNodes context rest
      return before ++ after) := by
  rw [renderNodes]
  cases renderNode context n with
  | error path => rfl
  | ok before => cases renderNodes context rest <;> rfl

/-- **Nodes are rendered one after the other**: the text of the first ones comes first. -/
theorem renderNodes_append (context : Json) (first second : List Node) :
    renderNodes context (first ++ second) = (do
      let before ← renderNodes context first
      let after ← renderNodes context second
      return before ++ after) := by
  induction first with
  | nil => simp only [List.nil_append, renderNodes_nil, pure_bind, String.empty_append, bind_pure]
  | cons n rest ih =>
    simp only [List.cons_append, renderNodes_cons, ih, bind_assoc, pure_bind, String.append_assoc]

theorem renderNodes_singleton (context : Json) (n : Node) :
    renderNodes context [n] = renderNode context n := by
  simp only [renderNodes_cons, renderNodes_nil, pure_bind, String.append_empty, bind_pure]

end RuleBlocks.Template
