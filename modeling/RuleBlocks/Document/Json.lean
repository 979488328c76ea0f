import RuleBlocks.Document.Node
import RuleBlocks.Json.Form

/-!
# Documents in JSON

A record is an object, or a list of its fields in their order, of which the last may be left out.
A named value is a string, or an object that maps the name to null. Parts of a document that are
not looked at may hold any literal that is well formed.

Main definitions:

* the instance `DocumentNode Form`;
* `Form.fields?` — both spellings of a record;
* `readJson?`, `ofJson?` — read a document from a text and from a value.
-/

namespace RuleBlocks

namespace Form

/-- The keys of an object, all of which must be proper strings. -/
def keyed? (entries : List (Option String × Form)) : Option (List (String × Form)) :=
  entries.mapM fun (key, value) => key.map fun key => (key, value)

def fields? (names : List String) : Form → Option (List (String × Form))
  | array items => if items.length ≤ names.length then some (names.zip items) else none
  | object entries => do
    let entries ← keyed? entries
    let fields := entries.filter fun e => names.contains e.1
    if noRepeats (fields.map (·.1)) then some fields else none
  | _ => none

def choice? : Form → Option String
  | string s => s
  | object [(key, null)] => key
  | _ => none

end Form

instance : DocumentNode Form where
  isNull?
    | .null => some true
    | _ => some false
  text?
    | .string s => s
    | _ => none
  flag?
    | .bool b => some b
    | _ => none
  natural?
    | .number (some (.integer n)) => if 0 ≤ n then some n.toNat else none
    | _ => none
  items?
    | .array items => some items
    | _ => none
  fields? := Form.fields?
  choice? := Form.choice?

/-- Read a document from a JSON text. -/
def readJson? {α : Type} (read : Form → Option α) (text : String) : Option α :=
  (Form.read? text).bind read

/-- Read a document from a JSON value. -/
def ofJson? {α : Type} (read : Form → Option α) (value : Json) : Option α :=
  read (.ofJson value)

end RuleBlocks
