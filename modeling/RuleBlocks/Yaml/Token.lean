/-!
# YAML tokens

What the parts of a YAML text are, before they are put together: marks of documents, the start and
end of collections, entries, keys and values, and what belongs to a node. A collection that is
written by indentation has tokens for its start and end as well.

Main definitions:

* `ScalarStyle` — how a scalar was written;
* `Token` — the tokens.
-/

namespace RuleBlocks.Yaml

inductive ScalarStyle
  | plain
  | singleQuoted
  | doubleQuoted
  | literal
  | folded
deriving DecidableEq, Repr

inductive Token
  | versionDirective (major minor : Nat)
  | tagDirective (handle start : String)
  | documentStart
  | documentEnd
  | blockSequenceStart
  | blockMappingStart
  | blockEnd
  | flowSequenceStart
  | flowSequenceEnd
  | flowMappingStart
  | flowMappingEnd
  | blockEntry
  | flowEntry
  | key
  | value
  | alias (name : String)
  | anchor (name : String)
  /-- A tag by its handle and the rest; without a handle it is written out in full. -/
  | tag (handle suffix : String)
  | scalar (text : String) (style : ScalarStyle)
deriving DecidableEq, Repr

end RuleBlocks.Yaml
