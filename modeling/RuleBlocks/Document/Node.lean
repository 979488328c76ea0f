/-!
# Reading documents

Descriptors, fragments and configurations are written as JSON or as YAML. What a document may hold
is said once, over any notation that can show a node of it as a text, a flag, a list, a record and
so on. A notation decides what counts as which; whether a field may be missing is the document's
own rule.

Main definitions:

* `DocumentNode` — what a notation must be able to say about a node;
* `Fields`, `Fields.required`, `Fields.defaulted`, `Fields.optional` — the three kinds of field.
-/

namespace RuleBlocks

/-- A notation for documents whose nodes have the type `ν`. A view that a node does not offer is
`none`. -/
class DocumentNode (ν : Type) where
  /-- Whether the node stands for an absent value, where one may be absent. -/
  isNull? : ν → Option Bool
  text? : ν → Option String
  flag? : ν → Option Bool
  /-- A number from `0` to `2 ^ 64 - 1`. -/
  natural? : ν → Option Nat
  items? : ν → Option (List ν)
  /-- The node as a record with the given fields: those of them that are there. Fields of other
  names do not matter; one of the given fields may not be there twice. -/
  fields? : List String → ν → Option (List (String × ν))
  /-- The name that the node gives, where one of several names is asked for. -/
  choice? : ν → Option String

/-- The fields of a record that are there. -/
abbrev Fields (ν : Type) := List (String × ν)

namespace Fields

variable {ν α : Type}

/-- A field that must be there. -/
def required (fields : Fields ν) (name : String) (read : ν → Option α) : Option α :=
  (List.lookup name fields).bind read

/-- A field with a default. Where it is there it must be readable. -/
def defaulted (fields : Fields ν) (name : String) (default : α) (read : ν → Option α) : Option α :=
  match List.lookup name fields with
  | some node => read node
  | none => some default

/-- A field that may be absent, or there and null. -/
def optional [DocumentNode ν] (fields : Fields ν) (name : String) (read : ν → Option α) :
    Option (Option α) :=
  match List.lookup name fields with
  | some node => do
    if ← DocumentNode.isNull? node then some none else (read node).map some
  | none => some none

end Fields

namespace DocumentNode

variable {ν α : Type} [DocumentNode ν]

/-- A list all of whose items can be read. -/
def list? (read : ν → Option α) (node : ν) : Option (List α) :=
  (items? node).bind fun items => items.mapM read

/-- One of several named values. -/
def named? (names : List (String × α)) (node : ν) : Option α :=
  (choice? node).bind fun name => names.lookup name

end DocumentNode

/-- Whether no name of a list is there twice. -/
def noRepeats (names : List String) : Bool :=
  decide names.Nodup

end RuleBlocks
