import RuleBlocks.Named
import RuleBlocks.Function.Catalog
import RuleBlocks.Fragment.Block

/-!
# Views

What rule authors are offered: conditions on one side, actions on the other. Blocks are placed one
after the other, functions first and fragments after them, so a fragment takes the place of a
function of the same name. The last block of a name decides on which side the name stands; blocks
that are not enabled are left out before.

Main definitions:

* `Views` — the two sides;
* `Views.place` — put one block on its side;
* `Views.ofBlocks`, `Views.classify` — the sides of a sequence of blocks;
* `Views.merged` — both sides in one collection.
-/

namespace RuleBlocks

/-- Building blocks by name. -/
abbrev BuildingBlocks := Named BuildingBlock

structure Views where
  conditions : BuildingBlocks
  actions : BuildingBlocks
deriving Repr

namespace Views

def empty : Views :=
  { conditions := .empty, actions := .empty }

/-- Put a block on its side and take its name off the other, so no name stands on both. -/
def place (v : Views) (b : BuildingBlock) : Views :=
  if b.isCondition then
    { conditions := v.conditions.insert b.name b, actions := v.actions.erase b.name }
  else
    { conditions := v.conditions.erase b.name, actions := v.actions.insert b.name b }

def ofBlocks (blocks : List BuildingBlock) : Views :=
  (blocks.filter (·.enabled)).foldl place empty

/-- The sides of functions and the fragments that follow them. -/
def classify (functions : List FunctionDescriptor) (fragments : List BuildingBlock) : Views :=
  ofBlocks (functions.map .ofFunction ++ fragments)

def find? (v : Views) (name : String) : Option BuildingBlock :=
  (v.conditions.find? name).or (v.actions.find? name)

/-- Both sides in one collection, conditions first. -/
def merged (v : Views) : BuildingBlocks :=
  v.actions.entries.foldl (fun c e => c.insert e.1 e.2) v.conditions

end Views

end RuleBlocks
