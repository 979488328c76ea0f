import RuleBlocks.Template.Engine
import RuleBlocks.Fragment.Store
import RuleBlocks.Registry.Views

/-!
# Snapshots

Everything that is offered at one moment, made from the catalog and one read of the fragments: the
views for users, the views that hold internal functions too, and the compiled templates. A fragment
whose template does not compile stays listed; only its template is missing, and the error is kept.

Main definitions:

* `Snapshot`, `Snapshot.build` — the snapshot and how it is made;
* `Snapshot.block`, `Snapshot.render` — look up a block, render its template;
* `RegistryError` — what can be answered instead.
-/

namespace RuleBlocks

inductive RegistryError
  | notInitialized
  | unknownBlock (name : String)
  | template (error : TemplateError)
  | store (error : StoreError)
  /-- The directory of a file cannot be watched. -/
  | watch
deriving DecidableEq, Repr

/-- The wording, where it does not depend on the system or on a notation. -/
def RegistryError.message? : RegistryError → Option String
  | notInitialized => some "rule builder registry is not initialized"
  | unknownBlock name => some ("unknown building block: '" ++ name ++ "'")
  | template error => some ("template error: " ++ error.message)
  | store error => error.message?.map ("fragment store error: " ++ ·)
  | watch => none

/-- A fragment whose template does not compile. -/
structure FragmentError where
  name : String
  error : TemplateError
deriving DecidableEq, Repr

/-- Compiled templates, and the fragments that have none. -/
structure Compilation where
  templates : TemplateEngine
  errors : List FragmentError
deriving Repr

namespace Compilation

def empty : Compilation :=
  { templates := .empty, errors := [] }

/-- Compile the template of a block under a name. A block without a source adds nothing. -/
def add (c : Compilation) (name : String) (b : BuildingBlock) : Compilation :=
  match b.source with
  | none => c
  | some source =>
    match c.templates.add name source with
    | .ok templates => { c with templates }
    | .error error => { c with errors := c.errors ++ [{ name, error }] }

def ofBlocks (blocks : BuildingBlocks) : Compilation :=
  blocks.entries.foldl (fun c e => c.add e.1 e.2) empty

end Compilation

structure Snapshot where
  generation : Nat
  /-- What users are shown. -/
  offered : Views
  /-- The same with internal functions. -/
  complete : Views
  templates : TemplateEngine
  fragmentErrors : List FragmentError
deriving Repr

namespace Snapshot

def build (catalog : FunctionCatalog) (fragments : List BuildingBlock) (generation : Nat) :
    Snapshot :=
  let complete := Views.classify catalog.allWithInternal fragments
  let compilation := Compilation.ofBlocks complete.merged
  { generation
    offered := Views.classify catalog.all fragments
    complete
    templates := compilation.templates
    fragmentErrors := compilation.errors }

def conditions (s : Snapshot) : BuildingBlocks :=
  s.offered.conditions

def actions (s : Snapshot) : BuildingBlocks :=
  s.offered.actions

/-- The block of a name, an internal function too. -/
def block (s : Snapshot) (name : String) : Except RegistryError BuildingBlock :=
  match s.complete.find? name with
  | some b => .ok b
  | none => .error (.unknownBlock name)

/-- The text of the template of a name. A block that has no compiled template is known, and is told
apart from a name that is not. -/
def render (s : Snapshot) (name : String) (context : Json) : Except RegistryError String :=
  match s.templates.find? name with
  | some t => (t.render context).mapError .template
  | none => do
    let _ ← s.block name
    throw (.template (.notFound name))

end Snapshot

end RuleBlocks
