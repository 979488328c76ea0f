import RuleBlocks.Decimal.Layout

/-!
# JSON values

The values that templates read and that searches carry. Numbers keep apart what was written as an
integer and what was not, since the two are written back differently. The entries of an object
keep their order, and no key stands twice.

Main definitions:

* `Number`, `Json` — the values;
* `Json.field?`, `Json.item?` — look-up by key and by index.
-/

namespace RuleBlocks

inductive Number
  /-- Between `-2 ^ 63` and `2 ^ 64 - 1`. -/
  | integer (value : Int)
  | float (value : Float)
deriving BEq, Repr

/-- Neither zero nor a negative zero. -/
def Number.isNonzero : Number → Bool
  | integer n => n != 0
  | float x => x != 0.0

def Number.text : Number → String
  | integer n => toString n
  | float x => Layout.numbers.write x

inductive Json
  | null
  | bool (value : Bool)
  | number (value : Number)
  | string (value : String)
  | array (items : List Json)
  | object (entries : List (String × Json))
deriving BEq, Repr, Inhabited

namespace Json

/-- An object without entries. -/
def emptyObject : Json := object []

def isNull : Json → Bool
  | null => true
  | _ => false

def nat (n : Nat) : Json := number (.integer n)

/-- The value of a key. -/
def field? (key : String) : Json → Option Json
  | object entries => entries.lookup key
  | _ => none

/-- The value at an index, counted from zero. -/
def item? (index : Nat) : Json → Option Json
  | array items => items[index]?
  | _ => none

def string? : Json → Option String
  | string value => some value
  | _ => none

end Json

end RuleBlocks
