import RuleBlocks.Text.WhiteSpace
import RuleBlocks.Text.Quoted
import RuleBlocks.Template.Node
import RuleBlocks.Template.Fault

/-!
# Expressions

What stands inside `${…}` and after `<#if`: a dotted path, with a default in the one case, and with
a negation and a presence test in the other. Anything that looks like a call of a built-in, that
is a `?` outside quotes, is refused before the rest is looked at.

Main definitions:

* `readPath` — a dotted path with blanks around its segments;
* `readInterpolation` — `path`, `path!`, `path!"default"`;
* `readCondition` — `path`, `!path`, `path??`, `!path??`.
-/

namespace RuleBlocks.Template

open Text

/-- A dotted path; the fault quotes the expression without the blanks around it. -/
def readPath (expression : List Char) : Except Refusal Path :=
  let expression := trim expression
  if expression.isEmpty then .error (.fault .emptyExpression)
  else
    let segments := (expression.splitOn '.').map trim
    if isPath segments then .ok (segments.map String.ofList)
    else .error (.fault (.invalidReference (String.ofList expression)))

/-- The name of the built-in that is called where the given text follows a `?`. -/
def builtinName (afterMark : List Char) : String :=
  String.ofList <|
    (afterMark.dropWhile (· == '?')).takeWhile fun c => c.isAlphanum || c == '_'

/-- An expression may not call a built-in. -/
def refuseBuiltins (expression : List Char) : Except Refusal Unit :=
  match cutUnquoted '?' expression with
  | some (_, after) => .error (.builtin (builtinName after))
  | none => .ok ()

/-- Where no question mark stands outside quotes, no built-in is used. -/
theorem refuseBuiltins_of_crosses {s : List Char} (hs : Crosses '?' s) :
    refuseBuiltins s = .ok () := by
  simp [refuseBuiltins, hs.cutUnquoted_eq_none]

/-- The text after the `!` of an interpolation: nothing, or a literal between quotes. -/
def readFallback (default : List Char) : Except Refusal Fallback :=
  let default := trim default
  if default.isEmpty then .ok .empty
  else
    match enclosed? default with
    | some content => .ok (.literal (String.ofList (unescape content)))
    | none => .error (.fault (.notALiteral (String.ofList default)))

/-- The text between `${` and its `}`. A bad default is reported before a bad path. -/
def readInterpolation (inner : List Char) : Except Refusal Interpolation := do
  let inner := trim inner
  refuseBuiltins inner
  match cutUnquoted '!' inner with
  | some (path, default) =>
    let fallback ← readFallback default
    return { path := ← readPath path, fallback }
  | none => return { path := ← readPath inner, fallback := .required }

/-- Take off the mark of negation in front, if it is there. -/
def cutNegation (expression : List Char) : Bool × List Char :=
  match expression with
  | '!' :: rest => (true, trimStart rest)
  | _ => (false, expression)

/-- Take off the presence test at the end, if it is there. -/
def cutPresenceTest (expression : List Char) : Bool × List Char :=
  match dropEnding? ['?', '?'] expression with
  | some rest => (true, trimEnd rest)
  | none => (false, expression)

/-- The text after `<#if`. -/
def readCondition (arguments : List Char) : Except Refusal Condition := do
  let expression := trim arguments
  if expression.isEmpty then throw (.fault .missingCondition)
  let (negated, expression) := cutNegation expression
  let (existsOnly, expression) := cutPresenceTest expression
  refuseBuiltins expression
  return { path := ← readPath expression, negated, existsOnly }

/-- Blanks around a condition do not matter. -/
theorem readCondition_trim (s : List Char) : readCondition (trim s) = readCondition s := by
  rw [readCondition, readCondition, trim_trim]

end RuleBlocks.Template
