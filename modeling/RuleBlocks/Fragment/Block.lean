import RuleBlocks.Function.Descriptor

/-!
# Building blocks

What rule authors choose from: a function of the catalog, or a fragment that somebody wrote. Both
are described in the same way. A function counts as a condition if it gives back a truth value; a
fragment says itself what it counts as, and carries the source of its template. Visibility is a
matter of functions only: a fragment is always listed, whatever its descriptor says.

Main definitions:

* `BuildingBlock` — the block, with `read?` and `json` for documents;
* `BuildingBlock.ofFunction`, `BuildingBlock.condition`, `BuildingBlock.action` — where blocks come
  from.
-/

namespace RuleBlocks

open DocumentNode

structure BuildingBlock where
  descriptor : FunctionDescriptor
  isCondition : Bool
  /-- The source of the template, for a fragment that has one. -/
  source : Option String
deriving DecidableEq, Repr

namespace BuildingBlock

def ofFunction (d : FunctionDescriptor) : BuildingBlock :=
  { descriptor := d, isCondition := d.returnType.isBoolean, source := none }

def condition (d : FunctionDescriptor) (source : String) : BuildingBlock :=
  { descriptor := d, isCondition := true, source := some source }

def action (d : FunctionDescriptor) (source : String) : BuildingBlock :=
  { descriptor := d, isCondition := false, source := some source }

def name (b : BuildingBlock) : String :=
  b.descriptor.name

def isFragment (b : BuildingBlock) : Bool :=
  b.source.isSome

def enabled (b : BuildingBlock) : Bool :=
  b.descriptor.enabled

def fieldNames : List String :=
  ["descriptor", "isCondition", "fragment"]

def read? {ν : Type} [DocumentNode ν] (node : ν) : Option BuildingBlock := do
  let fields : Fields ν ← fields? fieldNames node
  return {
    descriptor := ← fields.required "descriptor" FunctionDescriptor.read?
    isCondition := ← fields.defaulted "isCondition" false flag?
    source := ← fields.optional "fragment" text? }

def json (b : BuildingBlock) : Json :=
  .object <|
    [("descriptor", b.descriptor.json), ("isCondition", .bool b.isCondition)]
      ++ optionalEntry "fragment" b.source

end BuildingBlock

end RuleBlocks
