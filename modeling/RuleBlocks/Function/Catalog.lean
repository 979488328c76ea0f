import RuleBlocks.Named
import RuleBlocks.Function.Descriptor

/-!
# Function catalog

All functions by name, public and internal ones apart. A catalog is built once from a list of
descriptors, each of which must be fit and must have a name of its own, whatever its visibility.

Main definitions:

* `FunctionCatalog` — the catalog and its look-up;
* `FunctionCatalog.insert` — admit one descriptor;
* `FunctionCatalog.build` — a catalog of a list of descriptors;
* `Contribution`, `FunctionCatalog.collect` — where descriptors come from, and the catalog of what
  was contributed.
-/

namespace RuleBlocks

structure FunctionCatalog where
  shown : Named FunctionDescriptor
  hidden : Named FunctionDescriptor
deriving Repr

namespace FunctionCatalog

def empty : FunctionCatalog :=
  { shown := .empty, hidden := .empty }

/-- The public functions. -/
def all (c : FunctionCatalog) : List FunctionDescriptor :=
  c.shown.values

/-- The public functions followed by the internal ones. Nothing that users see may be made of
these. -/
def allWithInternal (c : FunctionCatalog) : List FunctionDescriptor :=
  c.shown.values ++ c.hidden.values

def find? (c : FunctionCatalog) (name : String) : Option FunctionDescriptor :=
  (c.shown.find? name).or (c.hidden.find? name)

def contains (c : FunctionCatalog) (name : String) : Bool :=
  c.shown.contains name || c.hidden.contains name

def size (c : FunctionCatalog) : Nat :=
  c.shown.size + c.hidden.size

def isEmpty (c : FunctionCatalog) : Bool :=
  c.shown.isEmpty && c.hidden.isEmpty

def internalSize (c : FunctionCatalog) : Nat :=
  c.hidden.size

/-- Admit a descriptor. It must be fit before its name is compared with the others. -/
def insert (c : FunctionCatalog) (d : FunctionDescriptor) : Except CatalogError FunctionCatalog := do
  d.check
  if c.contains d.name then throw (.repeatedName d.name)
  match d.visibility with
  | .isPublic => return { c with shown := c.shown.insert d.name d }
  | .isInternal => return { c with hidden := c.hidden.insert d.name d }

/-- The catalog of a list of descriptors; the first one at fault decides the error. -/
def build (descriptors : List FunctionDescriptor) : Except CatalogError FunctionCatalog :=
  descriptors.foldlM insert empty

end FunctionCatalog

/-- What is contributed to a catalog before it is built. -/
inductive Contribution
  /-- A function with the visibility that it declares. -/
  | declared (descriptor : FunctionDescriptor)
  /-- A function that is internal whatever it declares. -/
  | hidden (descriptor : FunctionDescriptor)
  /-- The functions of a plugin, as they are. -/
  | plugin (descriptors : List FunctionDescriptor)
deriving Repr

def Contribution.descriptors : Contribution → List FunctionDescriptor
  | declared d => [d]
  | hidden d => [d.makeInternal]
  | plugin ds => ds

/-- The catalog of what was contributed, in that order. -/
def FunctionCatalog.collect (contributions : List Contribution) :
    Except CatalogError FunctionCatalog :=
  build (contributions.flatMap Contribution.descriptors)

end RuleBlocks
