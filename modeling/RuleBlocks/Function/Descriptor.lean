import RuleBlocks.Text.WhiteSpace
import RuleBlocks.Json.Basic
import RuleBlocks.Document.Node
import RuleBlocks.Function.ReturnType

/-!
# Function descriptors

What is known about a function: its name and type, its parameters, whether rule authors are offered
it, and whether it is shown to users at all. A descriptor is a document; before a function enters
a catalog its descriptor is checked.

Main definitions:

* `Parameter`, `FunctionDescriptor` — the descriptors, with `read?` and `json` for documents;
* `DescriptorFault`, `CatalogError` — what makes a descriptor unfit;
* `FunctionDescriptor.check` — the check.
-/

namespace RuleBlocks

open DocumentNode

-- ---------------------------------------------------------------------------
-- Descriptors
-- ---------------------------------------------------------------------------

inductive Visibility
  | isPublic
  /-- Usable by the system itself, never listed to users. -/
  | isInternal
deriving DecidableEq, Repr

def Visibility.name : Visibility → String
  | isPublic => "public"
  | isInternal => "internal"

def Visibility.names : List (String × Visibility) :=
  [("public", isPublic), ("internal", isInternal)]

structure Parameter where
  name : String
  type : ReturnType
  isOptional : Bool
  description : Option String
deriving DecidableEq, Repr

namespace Parameter

def required (name : String) (type : ReturnType) : Parameter :=
  { name, type, isOptional := false, description := none }

def optional (name : String) (type : ReturnType) : Parameter :=
  { name, type, isOptional := true, description := none }

end Parameter

structure FunctionDescriptor where
  name : String
  returnType : ReturnType
  /-- Whether rule authors may be offered the function. -/
  enabled : Bool
  visibility : Visibility
  params : List Parameter
  description : Option String
  /-- The name that is shown to rule authors. -/
  label : Option String
  /-- The title that is shown to rule authors. -/
  title : Option String
deriving DecidableEq, Repr

namespace FunctionDescriptor

/-- A public function without parameters that is not offered. -/
def ofType (name : String) (returnType : ReturnType) : FunctionDescriptor :=
  { name, returnType, enabled := false, visibility := .isPublic, params := [],
    description := none, label := none, title := none }

def enable (d : FunctionDescriptor) : FunctionDescriptor :=
  { d with enabled := true }

def makeInternal (d : FunctionDescriptor) : FunctionDescriptor :=
  { d with visibility := .isInternal }

def withParam (d : FunctionDescriptor) (p : Parameter) : FunctionDescriptor :=
  { d with params := d.params ++ [p] }

def withDescription (d : FunctionDescriptor) (text : String) : FunctionDescriptor :=
  { d with description := some text }

def withLabel (d : FunctionDescriptor) (text : String) : FunctionDescriptor :=
  { d with label := some text }

def isInternal (d : FunctionDescriptor) : Bool :=
  d.visibility == .isInternal

/-- The name that is shown: the label if there is one. -/
def displayName (d : FunctionDescriptor) : String :=
  d.label.getD d.name

end FunctionDescriptor

-- ---------------------------------------------------------------------------
-- Documents
-- ---------------------------------------------------------------------------

/-- An entry for a text that is left out if it is absent. -/
def optionalEntry (name : String) : Option String → List (String × Json)
  | some text => [(name, .string text)]
  | none => []

namespace Parameter

def fieldNames : List String :=
  ["name", "type", "optional", "description"]

def read? {ν : Type} [DocumentNode ν] (node : ν) : Option Parameter := do
  let fields : Fields ν ← fields? fieldNames node
  return {
    name := ← fields.required "name" text?
    type := ← fields.required "type" (named? ReturnType.names)
    isOptional := ← fields.defaulted "optional" false flag?
    description := ← fields.optional "description" text? }

def json (p : Parameter) : Json :=
  .object <|
    [("name", .string p.name), ("type", .string p.type.name), ("optional", .bool p.isOptional)]
      ++ optionalEntry "description" p.description

end Parameter

namespace FunctionDescriptor

def fieldNames : List String :=
  ["name", "returnType", "ruleBuilderEnabled", "visibility", "params", "description",
    "ruleBuilderName", "ruleBuilderTitle"]

def read? {ν : Type} [DocumentNode ν] (node : ν) : Option FunctionDescriptor := do
  let fields : Fields ν ← fields? fieldNames node
  return {
    name := ← fields.required "name" text?
    returnType := ← fields.required "returnType" (named? ReturnType.names)
    enabled := ← fields.defaulted "ruleBuilderEnabled" false flag?
    visibility := ← fields.defaulted "visibility" .isPublic (named? Visibility.names)
    params := ← fields.defaulted "params" [] (list? Parameter.read?)
    description := ← fields.optional "description" text?
    label := ← fields.optional "ruleBuilderName" text?
    title := ← fields.optional "ruleBuilderTitle" text? }

def json (d : FunctionDescriptor) : Json :=
  .object <|
    [("name", .string d.name), ("returnType", .string d.returnType.name),
      ("ruleBuilderEnabled", .bool d.enabled), ("visibility", .string d.visibility.name),
      ("params", .array (d.params.map Parameter.json))]
      ++ optionalEntry "description" d.description
      ++ optionalEntry "ruleBuilderName" d.label
      ++ optionalEntry "ruleBuilderTitle" d.title

end FunctionDescriptor

-- ---------------------------------------------------------------------------
-- Fitness
-- ---------------------------------------------------------------------------

inductive DescriptorFault
  | blankName
  | blankInName
  | repeatedParameter (name : String)
  | malformedParameter (part : String)
  | unknownType (spelling : String)
deriving DecidableEq, Repr

def DescriptorFault.message : DescriptorFault → String
  | blankName => "function name must not be empty"
  | blankInName => "function name must not contain whitespace"
  | repeatedParameter name => "duplicate parameter '" ++ name ++ "'"
  | malformedParameter part => "malformed parameter '" ++ part ++ "'"
  | unknownType spelling => "unknown type '" ++ spelling ++ "'"

/-- Why a set of functions cannot be made a catalog. -/
inductive CatalogError
  | repeatedName (name : String)
  /-- The name is that of the function, or the spelling of an unknown type. -/
  | invalidDescriptor (name : String) (fault : DescriptorFault)
deriving DecidableEq, Repr

def CatalogError.message : CatalogError → String
  | repeatedName name => "duplicate function name: '" ++ name ++ "'"
  | invalidDescriptor name fault =>
    "invalid function descriptor '" ++ name ++ "': " ++ fault.message

/-- The type of a spelling in a signature. -/
def ReturnType.ofSpelling (spelling : String) : Except CatalogError ReturnType :=
  match ofSpelling? spelling with
  | some t => .ok t
  | none => .error (.invalidDescriptor spelling (.unknownType spelling))

/-- The first name that also stands before. -/
def firstRepeat? (before : List String) : List String → Option String
  | [] => none
  | name :: rest => if name ∈ before then some name else firstRepeat? (name :: before) rest

namespace FunctionDescriptor

/-- What makes the descriptor unfit for a catalog, if anything does. -/
def fault? (d : FunctionDescriptor) : Option DescriptorFault :=
  if Text.isBlank d.name.toList then some .blankName
  else if d.name.toList.any Text.isWhiteSpace then some .blankInName
  else (firstRepeat? [] (d.params.map (·.name))).map .repeatedParameter

def check (d : FunctionDescriptor) : Except CatalogError Unit :=
  match d.fault? with
  | some fault => .error (.invalidDescriptor d.name fault)
  | none => .ok ()

end FunctionDescriptor

end RuleBlocks
