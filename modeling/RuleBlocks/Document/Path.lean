/-!
# File paths

What the name of a file says about its notation. The extension is what follows the last dot of the
last part of a path; a name that only starts with a dot has none. Empty parts and parts that are a
single dot do not count.

Main definitions:

* `pathParts` — the parts of a path;
* `fileName?`, `extension?` — its last part and that part's extension;
* `parent?` — the directory that it stands in;
* `samePath` — whether two paths lead to one place.
-/

namespace RuleBlocks

/-- The parts of a path between slashes. -/
def pathParts (path : String) : List (List Char) :=
  (path.toList.splitOn '/').filter fun part => !part.isEmpty && part != ['.']

/-- The last part of a path, unless it leads upwards. -/
def fileName? (path : String) : Option (List Char) :=
  ((pathParts path).getLast?).filter fun part => part != ['.', '.']

/-- What follows the last dot of the file name, if something stands before that dot. -/
def extension? (path : String) : Option String := do
  let name ← fileName? path
  let reversed := name.reverse
  let before := (reversed.dropWhile (· != '.')).drop 1
  if before.isEmpty then none
  else some (String.ofList (reversed.takeWhile (· != '.')).reverse)

example : extension? "dir/a.b.yaml" = some "yaml" := by decide +kernel
example : extension? ".json" = none := by decide +kernel
example : extension? "dir.json/conf" = none := by decide +kernel

/-- The directory in which the last part of a path stands. The empty path and the root stand
nowhere. -/
def parent? (path : String) : Option String :=
  let above := (pathParts path).dropLast.map String.ofList
  match path.toList with
  | [] => none
  | '/' :: _ => if (pathParts path).isEmpty then none else some ("/" ++ "/".intercalate above)
  | _ => some ("./" ++ "/".intercalate above)

example : parent? "/a//b/./c" = some "/a/b" := by decide +kernel
example : parent? "/." = none := by decide +kernel
example : parent? "c" = some "./" := by decide +kernel

/-- The parts of a path after every way up was taken. -/
def resolvedParts (path : String) : List (List Char) :=
  (pathParts path).foldl
    (fun above part => if part == ['.', '.'] then above.dropLast else above ++ [part]) []

/-- Whether two paths lead to one place. -/
def samePath (p q : String) : Bool :=
  resolvedParts p == resolvedParts q

example : samePath "/a/b/../c" "/a//c/" = true := by decide +kernel

end RuleBlocks
