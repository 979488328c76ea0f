/-!
# What can go wrong with a template

A source is refused for a fault in its syntax, which is reported with the line where the construct
starts, or because it uses a directive or a built-in that templates may not use. Rendering fails
only when a required variable is missing, or when there is no such template.

Main definitions:

* `SyntaxFault` — the causes of a syntax error, with their wording in `SyntaxFault.message`;
* `Refusal` — what is wrong with one construct, before its place is known;
* `TemplateError` — an error as it is reported, with its wording in `TemplateError.message`.
-/

namespace RuleBlocks

namespace Template

inductive SyntaxFault
  | unterminatedInterpolation
  | unterminatedComment
  | unterminatedClosing
  | unterminatedDirective
  | unmatchedClosing
  | nestedTooDeeply
  | missingCondition
  | elseWithArguments
  | elseOutside
  | duplicateElse
  | neverClosed
  | emptyExpression
  | invalidReference (expression : String)
  | notALiteral (default : String)
deriving DecidableEq, Repr

def SyntaxFault.message : SyntaxFault → String
  | unterminatedInterpolation => "unterminated interpolation"
  | unterminatedComment => "unterminated comment"
  | unterminatedClosing => "unterminated closing directive"
  | unterminatedDirective => "unterminated directive"
  | unmatchedClosing => "</#if> without matching <#if>"
  | nestedTooDeeply => "<#if> nested too deeply"
  | missingCondition => "<#if> requires a condition"
  | elseWithArguments => "<#else> takes no arguments"
  | elseOutside => "<#else> outside of <#if>"
  | duplicateElse => "duplicate <#else>"
  | neverClosed => "<#if> is never closed"
  | emptyExpression => "empty expression"
  | invalidReference expression => "invalid variable reference '" ++ expression ++ "'"
  | notALiteral default => "default value must be a string literal, got '" ++ default ++ "'"

/-- What is wrong with one construct of a source. -/
inductive Refusal
  | fault (what : SyntaxFault)
  | directive (name : String)
  | builtin (name : String)
deriving DecidableEq, Repr

end Template

open Template in
/-- Every error carries the name of the template that it is about. -/
inductive TemplateError
  | malformed (template : String) (line : Nat) (fault : SyntaxFault)
  | forbiddenDirective (template directive : String)
  | forbiddenBuiltin (template builtin : String)
  | missingVariable (template variableName : String)
  | notFound (name : String)
deriving DecidableEq, Repr

namespace TemplateError

def template : TemplateError → String
  | malformed template _ _ => template
  | forbiddenDirective template _ => template
  | forbiddenBuiltin template _ => template
  | missingVariable template _ => template
  | notFound name => name

def message : TemplateError → String
  | malformed template line fault =>
    "syntax error in template '" ++ template ++ "' at line " ++ toString line ++ ": "
      ++ fault.message
  | forbiddenDirective template directive =>
    "directive '<#" ++ directive ++ ">' is not allowed in template '" ++ template ++ "'"
  | forbiddenBuiltin template builtin =>
    "built-in '?" ++ builtin ++ "' is not allowed in template '" ++ template ++ "'"
  | missingVariable template variableName =>
    "template '" ++ template ++ "' references missing variable '" ++ variableName ++ "'"
  | notFound name => "template '" ++ name ++ "' not found"

end TemplateError

/-- The refusal of a construct that starts on the given line of the named template. -/
def Template.Refusal.toError (template : String) (line : Nat) : Refusal → TemplateError
  | .fault what => .malformed template line what
  | .directive name => .forbiddenDirective template name
  | .builtin name => .forbiddenBuiltin template name

end RuleBlocks
