import RuleBlocks.Document.Json
import RuleBlocks.Yaml.Node

/-!
# Documents in YAML

Any scalar is a text, whatever it looks like. Flags and numbers must be plain. Where nothing is
written a list or a record is empty, and an optional value is absent; a written null stands for an
absent value only.

Main definitions:

* the instance `DocumentNode Yaml.Node`;
* `Yaml.Node.natural?` — the notations of numbers;
* `readYaml?` — read a document from a text.
-/

namespace RuleBlocks

namespace Yaml.Node

/-- A scalar that is looked at for what it means: a plain one, or a literal one with the given
tag. -/
def meant? (tag : String) : Node → Option String
  | scalar _ text .plain => some text
  | scalar t text .literal => if t = some tag then some text else none
  | _ => none

def isNullText (text : String) : Bool :=
  text == "null" || text == "Null" || text == "NULL" || text == "~"

def isNull : Node → Bool
  | scalar none text .plain => text.isEmpty || isNullText text
  | _ => false

/-- A plain scalar with the tag of null must be a written null. -/
def isNull? : Node → Option Bool
  | scalar (some tag) text .plain =>
    if tag = "tag:yaml.org,2002:null" then (if isNullText text then some true else none)
    else some false
  | n => some n.isNull

def text? : Node → Option String
  | scalar _ text _ => some text
  | _ => none

def flag? (n : Node) : Option Bool :=
  (n.meant? "tag:yaml.org,2002:bool").bind fun text =>
    if ["true", "True", "TRUE"].contains text then some true
    else if ["false", "False", "FALSE"].contains text then some false
    else none

/-- The value of digits in a base, if there are any. -/
def digitsIn? (base : Nat) (digits : List Char) : Option Nat :=
  if digits.isEmpty then none
  else
    digits.foldlM (fun n c => (Form.hexValue? c).bind fun d =>
      if d < base then some (base * n + d) else none) 0

/-- A number without a minus sign: in decimal without leading zeros, or after `0x`, `0o` or `0b` in
base 16, 8 or 2. -/
def readNatural (s : List Char) : Option Nat :=
  let s := match s with
    | '+' :: r => r
    | s => s
  match s with
  | '0' :: 'x' :: r => digitsIn? 16 r
  | '0' :: 'o' :: r => digitsIn? 8 r
  | '0' :: 'b' :: r => digitsIn? 2 r
  | ['0'] => some 0
  | '0' :: _ => none
  | s => digitsIn? 10 s

def natural? (n : Node) : Option Nat :=
  ((n.meant? "tag:yaml.org,2002:int").bind fun text => readNatural text.toList).filter
    (· < UInt64.size)

def isNothing : Node → Bool
  | scalar _ text .plain => text.isEmpty
  | _ => false

def items? : Node → Option (List Node)
  | sequence _ items => some items
  | n => if n.isNothing then some [] else none

/-- The entries of a mapping, all of whose keys must be scalars. -/
def entries? : Node → Option (List (String × Node))
  | mapping _ entries => entries.mapM fun (key, value) => key.text?.map fun key => (key, value)
  | n => if n.isNothing then some [] else none

def fields? (names : List String) (n : Node) : Option (List (String × Node)) := do
  let fields := (← n.entries?).filter fun e => names.contains e.1
  if noRepeats (fields.map (·.1)) then some fields else none

/-- The name that a local tag gives. -/
def tagName? (tag : String) : Option String :=
  match tag.toList with
  | ['!'] => some "!"
  | '!' :: name => some (String.ofList name)
  | _ => none

/-- A scalar, or nothing with a tag that is the name. -/
def choice? : Node → Option String
  | scalar (some tag) text style =>
    match tagName? tag with
    | some name => if (scalar none text style).isNull then some name else none
    | none => some text
  | scalar none text _ => some text
  | _ => none

end Yaml.Node

instance : DocumentNode Yaml.Node where
  isNull? := Yaml.Node.isNull?
  text? := Yaml.Node.text?
  flag? := Yaml.Node.flag?
  natural? := Yaml.Node.natural?
  items? := Yaml.Node.items?
  fields? := Yaml.Node.fields?
  choice? := Yaml.Node.choice?

/-- Read a document from a YAML text. -/
def readYaml? {α : Type} (read : Yaml.Node → Option α) (text : String) : Option α :=
  (Yaml.Node.read? text).bind read

end RuleBlocks
