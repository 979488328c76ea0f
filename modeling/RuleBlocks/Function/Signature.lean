import RuleBlocks.Function.Descriptor

/-!
# Signatures

The parameters of a function in one line: `name:type` for each, separated by commas, with a `?`
after the type of an optional one. Parts that hold only blanks are skipped, and blanks around names
and types do not matter.

Main definitions:

* `Parameter.ofPart` — one parameter;
* `parseSignature` — a whole signature.
-/

namespace RuleBlocks

open Text

/-- One part of the signature of the named function. The name ends at the first colon. A blank
between the type and its `?` is not taken off. -/
def Parameter.ofPart (function : String) (part : List Char) : Except CatalogError Parameter :=
  match splitFirst (· == ':') part with
  | none => .error (.invalidDescriptor function (.malformedParameter (String.ofList part)))
  | some (name, type) =>
    let type := trim type
    let name := String.ofList (trim name)
    match dropEnding? ['?'] type with
    | some type => (ReturnType.ofSpelling (String.ofList type)).map (Parameter.optional name)
    | none => (ReturnType.ofSpelling (String.ofList type)).map (Parameter.required name)

/-- The parts of a signature that are not blank, without the blanks around them. -/
def signatureParts (signature : String) : List (List Char) :=
  ((signature.toList.splitOn ',').map trim).filter fun part => !part.isEmpty

/-- The parameters of the named function; the leftmost part at fault decides the error. -/
def parseSignature (function signature : String) : Except CatalogError (List Parameter) :=
  (signatureParts signature).mapM (Parameter.ofPart function)

end RuleBlocks
