import RuleBlocks.Document.Node

/-!
# Types of values

The declared type of what a function gives back or takes. It is a plain tag: nothing is inferred
from it but whether a function counts as a condition. In documents a type has one name; in
signatures some types may also be written in a shorter way.

Main definitions:

* `ReturnType`, `ReturnType.name` — the types and their names;
* `ReturnType.ofSpelling?` — the type of a name or a shorter spelling.
-/

namespace RuleBlocks

inductive ReturnType
  | boolean | string | long | double | number | object | list | map
  | dateTime | duration | ipAddress | url | message | void
deriving DecidableEq, Repr

namespace ReturnType

def all : List ReturnType :=
  [boolean, string, long, double, number, object, list, map, dateTime, duration, ipAddress, url,
    message, void]

def name : ReturnType → String
  | boolean => "boolean"
  | string => "string"
  | long => "long"
  | double => "double"
  | number => "number"
  | object => "object"
  | list => "list"
  | map => "map"
  | dateTime => "date_time"
  | duration => "duration"
  | ipAddress => "ip_address"
  | url => "url"
  | message => "message"
  | void => "void"

/-- Every type under its name. -/
def names : List (String × ReturnType) :=
  all.map fun t => (t.name, t)

/-- The shorter spellings that signatures may use. -/
def aliases : List (String × ReturnType) :=
  [("bool", boolean), ("date", dateTime), ("period", duration), ("ip", ipAddress)]

/-- The type of a spelling. Upper and lower case are different. -/
def ofSpelling? (spelling : String) : Option ReturnType :=
  (names ++ aliases).lookup spelling

/-- A function that gives back a truth value is a condition, any other an action. -/
def isBoolean (t : ReturnType) : Bool :=
  t == boolean

theorem mem_all (t : ReturnType) : t ∈ all := by
  cases t <;> decide

theorem ofSpelling?_name (t : ReturnType) : ofSpelling? t.name = some t := by
  cases t <;> decide

end ReturnType

end RuleBlocks
