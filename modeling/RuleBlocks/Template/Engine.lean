import RuleBlocks.Named
import RuleBlocks.Template.Basic

/-!
# Template engine

A set of compiled templates by name. Adding a source that does not compile changes nothing; a later
source of the same name takes the place of the earlier one.

Main definitions:

* `TemplateEngine.add` — compile a source and keep it;
* `TemplateEngine.render` — the text of a named template.
-/

namespace RuleBlocks

structure TemplateEngine where
  templates : Named Template
deriving Repr

namespace TemplateEngine

def empty : TemplateEngine :=
  { templates := .empty }

def add (e : TemplateEngine) (name source : String) : Except TemplateError TemplateEngine :=
  (Template.compile name source).map fun t => { templates := e.templates.insert name t }

def find? (e : TemplateEngine) (name : String) : Option Template :=
  e.templates.find? name

def contains (e : TemplateEngine) (name : String) : Bool :=
  e.templates.contains name

def names (e : TemplateEngine) : List String :=
  e.templates.names

def size (e : TemplateEngine) : Nat :=
  e.templates.size

def isEmpty (e : TemplateEngine) : Bool :=
  e.templates.isEmpty

def render (e : TemplateEngine) (name : String) (context : Json) : Except TemplateError String :=
  match e.find? name with
  | some t => t.render context
  | none => .error (.notFound name)

end TemplateEngine

end RuleBlocks
