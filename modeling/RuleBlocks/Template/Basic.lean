import RuleBlocks.Template.Parser
import RuleBlocks.Template.Render

/-!
# Templates

A template is a source that has been compiled under a name. Forbidden constructs are refused when
it is compiled, so rendering can only fail for want of a variable.

Main definitions:

* `Template`, `Template.compile` — a compiled template, and how one comes about;
* `Template.render` — its text for a context.
-/

namespace RuleBlocks

structure Template where
  name : String
  source : String
  nodes : List Template.Node
deriving Repr

namespace Template

def compile (name source : String) : Except TemplateError Template :=
  (parse name source).map fun nodes => { name, source, nodes }

/-- A compiled template keeps its name and its source beside the tree. -/
theorem compile_eq_ok_iff {name source : String} {t : Template} :
    compile name source = .ok t ↔
      parse name source = .ok t.nodes ∧ t.name = name ∧ t.source = source := by
  obtain ⟨name', source', nodes'⟩ := t
  rw [compile]
  cases parse name source with
  | error e => simp [Except.map]
  | ok nodes => simp [Except.map, eq_comm, and_comm, and_assoc]

def render (t : Template) (context : Json) : Except TemplateError String :=
  (renderNodes context t.nodes).mapError fun path => .missingVariable t.name (Path.dotted path)

end Template

end RuleBlocks
