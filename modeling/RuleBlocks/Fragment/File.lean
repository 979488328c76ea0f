import RuleBlocks.Document.Yaml
import RuleBlocks.Document.Path
import RuleBlocks.Fragment.Block

/-!
# Fragment files

The document that holds all fragments. Its name decides its notation: `yaml` and `yml`, in lower
case, stand for YAML, anything else for JSON.

Main definitions:

* `FragmentFile` — the document, with `read?` and `json`;
* `FragmentFile.parse?` — read it from the text of a named file.
-/

namespace RuleBlocks

open DocumentNode

structure FragmentFile where
  fragments : List BuildingBlock
deriving DecidableEq, Repr

namespace FragmentFile

def fieldNames : List String :=
  ["fragments"]

def read? {ν : Type} [DocumentNode ν] (node : ν) : Option FragmentFile := do
  let fields : Fields ν ← fields? fieldNames node
  return { fragments := ← fields.defaulted "fragments" [] (list? BuildingBlock.read?) }

def json (f : FragmentFile) : Json :=
  .object [("fragments", .array (f.fragments.map BuildingBlock.json))]

def isYaml (path : String) : Bool :=
  extension? path == some "yaml" || extension? path == some "yml"

def parse? (path text : String) : Option FragmentFile :=
  if isYaml path then readYaml? read? text else readJson? read? text

end FragmentFile

end RuleBlocks
