import RuleBlocks.Yaml.Lexer

/-!
# YAML nodes

The tree of a YAML document: scalars with the way they were written, sequences and mappings, each
with its tag if it has one. An alias is the node that bears its anchor; the anchor must come before
it. An alias within the very node that bears its anchor is a cycle, which has no value.

Main definitions:

* `Node` — the tree;
* `Reader` — the tokens that are left and the anchors so far;
* `readNode`, `readDocument` — the node at the front of the tokens, and the whole document;
* `Node.read?` — the document of a text.
-/

namespace RuleBlocks.Yaml

inductive Node
  | scalar (tag : Option String) (text : String) (style : ScalarStyle)
  | sequence (tag : Option String) (items : List Node)
  | mapping (tag : Option String) (entries : List (Node × Node))
  | cycle
deriving Repr, Inhabited

/-- The scalar that stands where nothing is written. -/
def Node.nothing (tag : Option String) : Node :=
  .scalar tag "" .plain

structure Reader where
  tokens : List Token
  /-- Anchors, the latest first; without a node as long as that is being read. -/
  anchors : List (String × Option Node)
  /-- What the handles of tags stand for. -/
  handles : List (String × String)
deriving Repr

namespace Reader

def peek (r : Reader) : Option Token :=
  r.tokens.head?

/-- Pass a token. -/
def skip (r : Reader) : Reader :=
  { r with tokens := r.tokens.drop 1 }

def bindAnchor (r : Reader) (name : String) : Reader :=
  { r with anchors := (name, none) :: r.anchors }

/-- The node of the anchor that was bound when there were so many others. -/
def setAnchor (r : Reader) (before : Nat) (node : Node) : Reader :=
  { r with
    anchors := r.anchors.mapIdx fun i (name, old) =>
      if i + before + 1 = r.anchors.length then (name, some node) else (name, old) }

def resolveAlias (r : Reader) (name : String) : Option Node :=
  (r.anchors.lookup name).map fun node => node.getD .cycle

/-- The tag that a handle and a suffix stand for. -/
def resolveTag (r : Reader) (handle suffix : String) : Option String :=
  if handle.isEmpty then some suffix else (r.handles.lookup handle).map (· ++ suffix)

end Reader

/-- What stands before a node. -/
structure Properties where
  anchor : Option String
  tag : Option String

/-- An anchor and a tag, in either order, each at most once. -/
def readProperties (r : Reader) : Option (Properties × Reader) :=
  match r.tokens with
  | .anchor name :: .tag handle suffix :: rest =>
    (r.resolveTag handle suffix).map fun tag =>
      ({ anchor := some name, tag := some tag }, { r with tokens := rest })
  | .tag handle suffix :: .anchor name :: rest =>
    (r.resolveTag handle suffix).map fun tag =>
      ({ anchor := some name, tag := some tag }, { r with tokens := rest })
  | .anchor name :: rest => some ({ anchor := some name, tag := none }, { r with tokens := rest })
  | .tag handle suffix :: rest =>
    (r.resolveTag handle suffix).map fun tag =>
      ({ anchor := none, tag := some tag }, { r with tokens := rest })
  | _ => some ({ anchor := none, tag := none }, r)

-- ---------------------------------------------------------------------------
-- Nodes
-- ---------------------------------------------------------------------------

/-- Where a node stands: it may start a collection that is written by indentation, and also one
whose entries are not indented. -/
inductive Place
  | block
  | mappingPart
  | flow
deriving DecidableEq, Repr

mutual

/-- The node at the front of the tokens. -/
def readNode : Nat → Place → Reader → Option (Node × Reader)
  | 0, _, _ => none
  | fuel + 1, place, r =>
    match r.peek with
    | some (.alias name) => (r.resolveAlias name).map fun node => (node, r.skip)
    | _ => do
      let (props, r) ← readProperties r
      match props.anchor with
      | none => readContent fuel place props r
      | some name =>
        let before := r.anchors.length
        let (node, r) ← readContent fuel place props (r.bindAnchor name)
        return (node, r.setAnchor before node)

/-- The node after its properties. A scalar that is written has the tag `!` as if it had none. -/
def readContent : Nat → Place → Properties → Reader → Option (Node × Reader)
  | 0, _, _, _ => none
  | fuel + 1, place, props, r =>
    let sequence (result : Option (List Node × Reader)) : Option (Node × Reader) :=
      result.map fun (items, r) => (.sequence props.tag items, r)
    let mapping (result : Option (List (Node × Node) × Reader)) : Option (Node × Reader) :=
      result.map fun (entries, r) => (.mapping props.tag entries, r)
    match r.peek, place with
    | some .blockEntry, .mappingPart => sequence (readUnindented fuel [] r)
    | some (.scalar text style), _ =>
      some (.scalar (props.tag.filter (· != "!")) text style, r.skip)
    | some .flowSequenceStart, _ => sequence (readFlowSequence fuel [] r.skip)
    | some .flowMappingStart, _ => mapping (readFlowMapping fuel [] r.skip)
    | some .blockSequenceStart, .block => sequence (readBlockSequence fuel [] r.skip)
    | some .blockSequenceStart, .mappingPart => sequence (readBlockSequence fuel [] r.skip)
    | some .blockMappingStart, .block => mapping (readBlockMapping fuel [] r.skip)
    | some .blockMappingStart, .mappingPart => mapping (readBlockMapping fuel [] r.skip)
    | _, _ =>
      if props.anchor.isSome || props.tag.isSome then some (.nothing props.tag, r) else none

/-- A node, or nothing if one of the given tokens comes first. -/
def readUnless : Nat → Place → (Token → Bool) → Reader → Option (Node × Reader)
  | 0, _, _, _ => none
  | fuel + 1, place, ends, r =>
    if r.peek.any ends then some (.nothing none, r) else readNode fuel place r

/-- The entries of a sequence by indentation, after those that have been read, last first. -/
def readBlockSequence : Nat → List Node → Reader → Option (List Node × Reader)
  | 0, _, _ => none
  | fuel + 1, items, r =>
    match r.peek with
    | some .blockEntry => do
      let (item, r) ← readUnless fuel .block (fun t => t == .blockEntry || t == .blockEnd) r.skip
      readBlockSequence fuel (item :: items) r
    | some .blockEnd => some (items.reverse, r.skip)
    | _ => none

/-- The entries of a sequence that is not indented further than the mapping that it stands in. -/
def readUnindented : Nat → List Node → Reader → Option (List Node × Reader)
  | 0, _, _ => none
  | fuel + 1, items, r =>
    match r.peek with
    | some .blockEntry => do
      let ends (t : Token) := t == .blockEntry || t == .key || t == .value || t == .blockEnd
      let (item, r) ← readUnless fuel .block ends r.skip
      readUnindented fuel (item :: items) r
    | _ => some (items.reverse, r)

/-- The entries of a mapping by indentation. A key or a value may be missing. -/
def readBlockMapping : Nat → List (Node × Node) → Reader → Option (List (Node × Node) × Reader)
  | 0, _, _ => none
  | fuel + 1, entries, r =>
    let ends (t : Token) := t == .key || t == .value || t == .blockEnd
    match r.peek with
    | some .key => do
      let (key, r) ← readUnless fuel .mappingPart ends r.skip
      match r.peek with
      | some .value => do
        let (value, r) ← readUnless fuel .mappingPart ends r.skip
        readBlockMapping fuel ((key, value) :: entries) r
      | _ => readBlockMapping fuel ((key, .nothing none) :: entries) r
    | some .blockEnd => some (entries.reverse, r.skip)
    | _ => none

/-- The items of a sequence in brackets. An item with a colon is a mapping of one entry. -/
def readFlowSequence : Nat → List Node → Reader → Option (List Node × Reader)
  | 0, _, _ => none
  | fuel + 1, items, r =>
    match r.peek with
    | some .flowSequenceEnd => some (items.reverse, r.skip)
    | some t => do
      let r ← if items.isEmpty then some r else if t = .flowEntry then some r.skip else none
      match r.peek with
      | some .flowSequenceEnd => return (items.reverse, r.skip)
      | some .key => do
        let (entry, r) ← readFlowPair fuel r.skip
        readFlowSequence fuel (.mapping none [entry] :: items) r
      | _ => do
        let (item, r) ← readNode fuel .flow r
        readFlowSequence fuel (item :: items) r
    | none => none

/-- The single entry of a mapping in a sequence in brackets. Where no key is written the mark after
it is passed. -/
def readFlowPair : Nat → Reader → Option ((Node × Node) × Reader)
  | 0, _ => none
  | fuel + 1, r => do
    let endsKey (t : Token) := t == .value || t == .flowEntry || t == .flowSequenceEnd
    let endsValue (t : Token) := t == .flowEntry || t == .flowSequenceEnd
    let (key, r) ←
      if r.peek.any endsKey then some (.nothing none, r.skip) else readNode fuel .flow r
    match r.peek with
    | some .value => do
      let (value, r) ← readUnless fuel .flow endsValue r.skip
      return ((key, value), r)
    | _ => return ((key, .nothing none), r)

/-- The entries of a mapping in braces. -/
def readFlowMapping : Nat → List (Node × Node) → Reader → Option (List (Node × Node) × Reader)
  | 0, _, _ => none
  | fuel + 1, entries, r =>
    let ends (t : Token) := t == .flowEntry || t == .flowMappingEnd
    match r.peek with
    | some .flowMappingEnd => some (entries.reverse, r.skip)
    | some t => do
      let r ← if entries.isEmpty then some r else if t = .flowEntry then some r.skip else none
      match r.peek with
      | some .flowMappingEnd => return (entries.reverse, r.skip)
      | some .key => do
        let (key, r) ← readUnless fuel .flow (fun t => t == .value || ends t) r.skip
        match r.peek with
        | some .value => do
          let (value, r) ← readUnless fuel .flow ends r.skip
          readFlowMapping fuel ((key, value) :: entries) r
        | _ => readFlowMapping fuel ((key, .nothing none) :: entries) r
      | _ => do
        let (key, r) ← readNode fuel .flow r
        readFlowMapping fuel ((key, .nothing none) :: entries) r
    | none => none

end

-- ---------------------------------------------------------------------------
-- Documents
-- ---------------------------------------------------------------------------

/-- The handles that need no directive. -/
def standardHandles : List (String × String) :=
  [("!", "!"), ("!!", "tag:yaml.org,2002:")]

def isDirective : Token → Bool
  | .versionDirective _ _ => true
  | .tagDirective _ _ => true
  | _ => false

/-- The handles of the directives in front of a document. There may be one version, which must be
1.1 or 1.2, and one directive for each handle. -/
def readDirectives (directives : List Token) : Option (List (String × String)) := do
  let versions := directives.filterMap fun t =>
    match t with
    | .versionDirective major minor => some (major, minor)
    | _ => none
  let handles := directives.filterMap fun t =>
    match t with
    | .tagDirective handle start => some (handle, start)
    | _ => none
  if 1 < versions.length || !(versions.all fun v => v == (1, 1) || v == (1, 2)) then none
  if (handles.map (·.1)).Nodup then some (handles ++ standardHandles) else none

/-- Whether a document has no node. -/
def endsDocument (t : Token) : Bool :=
  isDirective t || t == .documentStart || t == .documentEnd

/-- The node of the only document of a stream of tokens; nothing stands for an empty one. After the
document only marks of its end may follow. -/
def readDocument (tokens : List Token) : Option Node := do
  let fuel := 4 * tokens.length + 4
  let (node, rest) ←
    match tokens with
    | [] => some (.nothing none, [])
    | first :: _ =>
      if isDirective first || first = .documentStart then do
        let directives := tokens.takeWhile isDirective
        let handles ← readDirectives directives
        match tokens.drop directives.length with
        | .documentStart :: content =>
          let r : Reader := { tokens := content, anchors := [], handles }
          if content.isEmpty || content.head?.any endsDocument then some (.nothing none, content)
          else (readNode fuel .block r).map fun (node, r) => (node, r.tokens)
        | _ => none
      else
        let r : Reader := { tokens, anchors := [], handles := standardHandles }
        (readNode fuel .block r).map fun (node, r) => (node, r.tokens)
  if rest.all (· == .documentEnd) then some node else none

/-- The document of a text. -/
def Node.read? (text : String) : Option Node :=
  (tokens? text).bind readDocument

end RuleBlocks.Yaml
