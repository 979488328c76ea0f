/-!
# Files

What is found where a file should be, and when it can be taken as text. Reading from a disk is not
part of this: the library is told what was found.

Main definitions:

* `FileState` — what stands at a path;
* `FileState.text` — its text.
-/

namespace RuleBlocks

inductive FileState
  | missing
  | directory
  /-- Something is there that cannot be read. -/
  | unreadable
  | content (bytes : ByteArray)
deriving BEq

/-- Why there is no text. -/
inductive FileFault
  | missing
  | unreadable
deriving DecidableEq, Repr

/-- The text of a file, which must be proper UTF-8. -/
def FileState.text : FileState → Except FileFault String
  | missing => .error .missing
  | directory => .error .unreadable
  | unreadable => .error .unreadable
  | content bytes =>
    match String.fromUTF8? bytes with
    | some text => .ok text
    | none => .error .unreadable

end RuleBlocks
