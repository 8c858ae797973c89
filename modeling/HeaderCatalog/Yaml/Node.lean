import HeaderCatalog.Yaml.Layout
import HeaderCatalog.Yaml.Scalar

/-!
# HeaderCatalog.Yaml.Node — tokens into a document

A document is a tree of scalars, sequences and mappings, in which an alias stands for the node
with its anchor. An anchor is known from the start of its node on, so a node may hold an alias of
itself; `Document.target` follows an alias, and never leads to another one.
-/

namespace HeaderCatalog.Yaml

/-- The tag of a node: a name of the format's own, or some other text. -/
inductive Tag where
  | core (name : Text)
  | other (text : Text)
deriving DecidableEq, Repr, Inhabited

namespace Tag

/-- What the tags of the format's own names start with. -/
def coreStart : String := "tag:yaml.org,2002:"

/-- A tag as it is written in full. -/
def ofText (text : Text) : Tag :=
  if coreStart.toList.isPrefixOf text then .core (text.drop coreStart.length) else .other text

/-- A name of the format's own. -/
def named (name : String) : Tag := .core name.toList

/-- The tag of a scalar whose kind is told by its form. -/
def ofKind : ScalarKind → Tag
  | .null => named "null"
  | .bool => named "bool"
  | .int => named "int"
  | .real => named "float"
  | .moment => named "timestamp"
  | .text => named "str"
  | .bytes => named "binary"
  | .merge => named "merge"
  | .default => named "value"
  | .indicator => named "yaml"

/-- What the nodes with a tag stand for. -/
inductive Shape where
  | scalar (kind : ScalarKind)
  | list
  /-- A list of keys with values, each a mapping of its own. -/
  | pairs
  | map
  | set
deriving DecidableEq, Repr, Inhabited

/-- The tags with a meaning. -/
def shapes : List (Tag × Shape) :=
  [(named "seq", .list), (named "omap", .pairs), (named "pairs", .pairs), (named "map", .map),
    (named "set", .set)] ++
  [ScalarKind.null, .bool, .int, .real, .moment, .text, .bytes].map fun k => (ofKind k, .scalar k)

end Tag

/-- A node of a document. -/
inductive Node where
  | scalar (tag : Tag) (text : Text)
  | sequence (tag : Tag) (items : List Node)
  | mapping (tag : Tag) (entries : List (Node × Node))
  | reference (name : Text)
deriving Inhabited

/-- A document with the nodes that have anchors. It has no more nodes than `size`, and none is
nested deeper. -/
structure Document where
  root : Node
  anchors : List (Text × Node)
  size : Nat
deriving Inhabited

/-! ## Reading tokens -/

/-- What is known when tokens have been read up to a place: the meanings of tag handles, the
anchors whose nodes have started, and those whose nodes have ended. -/
structure Composition where
  tokens : List Token
  handles : List (Text × Text)
  started : List Text
  anchors : List (Text × Node)
deriving Inhabited

/-- A reader of tokens that may fail. -/
abbrev Composer := StateT Composition Option

namespace Composer

/-- Succeed only if the condition holds. -/
def require (condition : Bool) : Composer Unit :=
  if condition then pure () else failure

/-- The next token. -/
def peek : Composer (Option Token) := do
  return (← get).tokens.head?

/-- Take the next token. -/
def advance : Composer Unit :=
  modify fun c => { c with tokens := c.tokens.tail }

/-- Take the next token if it is this one, and say whether it was. -/
def take (t : Token) : Composer Bool := do
  if (← peek) == some t then
    advance
    return true
  else return false

/-- Take the next token, which has to be this one. -/
def expect (t : Token) : Composer Unit := do
  require (← take t)

/-- Is the next token one of these, or is there none? -/
def stops (ts : List Token) : Composer Bool := do
  return (← peek).all (ts.contains ·)

/-- An anchor, if one is next. No two nodes have the same. -/
def anchor? : Composer (Option Text) := do
  match ← peek with
  | some (.anchor name) =>
    advance
    require (!(← get).started.contains name)
    modify fun c => { c with started := name :: c.started }
    return some name
  | _ => return none

/-- A tag in full, if one is next. Its handle has to have a meaning. -/
def tag? : Composer (Option Text) := do
  match ← peek with
  | some (.tag t) =>
    advance
    match t.handle with
    | none => return some t.suffix
    | some handle =>
      match (← get).handles.lookup handle with
      | none => failure
      | some meaning => return some (meaning ++ t.suffix)
  | _ => return none

/-- An anchor and a tag, in either order. -/
def properties : Composer (Option Text × Option Text) := do
  match ← anchor? with
  | some name => return (some name, ← tag?)
  | none =>
    let tag ← tag?
    return (← anchor?, tag)

/-- The tag `!` leaves the kind of a node to its form. -/
def explicit (tag : Option Text) : Option Text := tag.filter (· != ['!'])

/-- A scalar with the tag that is written or follows from its form. A text in quotes has no form,
unless the tag `!` asks for it. -/
def scalarNode (tag : Option Text) (text : Text) (plain : Bool) : Node :=
  match explicit tag with
  | some t => .scalar (.ofText t) text
  | none => .scalar (.ofKind (if plain || tag.isSome then kindOf text else .text)) text

/-- What stands for a node that is left out. -/
def absent : Node := scalarNode none [] true

/-- The tag of a collection. -/
def collectionTag (tag : Option Text) (usual : String) : Tag :=
  match explicit tag with
  | some t => .ofText t
  | none => .named usual

/-- Where a node stands decides what it may be: only in a block it may be one itself, and only as
the value of a key its entries may stand as far to the left as the key. -/
inductive Position where
  | flow
  | block
  | keyed
deriving DecidableEq, Repr, Inhabited

mutual

/-- A node. -/
def node (position : Position) : (fuel : Nat) → Composer Node
  | 0 => failure
  | fuel + 1 => do
    match ← peek with
    | some (.reference name) =>
      advance
      require ((← get).started.contains name)
      return .reference name
    | _ =>
      let (anchor, tag) ← properties
      let n ← content position anchor tag fuel
      match anchor with
      | some name => modify fun c => { c with anchors := (name, n) :: c.anchors }
      | none => pure ()
      return n

/-- A node behind its anchor and tag. With one of them, it may be left out. -/
def content (position : Position) (anchor tag : Option Text) : (fuel : Nat) → Composer Node
  | 0 => failure
  | fuel + 1 => do
    match position, ← peek with
    | .keyed, some .blockEntry =>
      return .sequence (collectionTag tag "seq") (← bareItems fuel)
    | _, some (.scalar text plain) =>
      advance
      return scalarNode tag text plain
    | _, some .flowSequenceStart =>
      advance
      return .sequence (collectionTag tag "seq") (← flowItems true fuel)
    | _, some .flowMappingStart =>
      advance
      return .mapping (collectionTag tag "map") (← flowEntries true fuel)
    | position, next =>
      if position ≠ .flow && next == some .blockSequenceStart then
        advance
        return .sequence (collectionTag tag "seq") (← blockItems fuel)
      else if position ≠ .flow && next == some .blockMappingStart then
        advance
        return .mapping (collectionTag tag "map") (← blockEntries fuel)
      else
        require (anchor.isSome || tag.isSome)
        return scalarNode tag [] (tag.isNone || tag == some ['!'])

/-- A node, unless one of these tokens comes next. -/
def nodeUnless (position : Position) (ts : List Token) : (fuel : Nat) → Composer Node
  | 0 => failure
  | fuel + 1 => do
    if ← stops ts then return absent else node position fuel

/-- The items of a block sequence, up to its end. -/
def blockItems : (fuel : Nat) → Composer (List Node)
  | 0 => failure
  | fuel + 1 => do
    if ← take .blockEntry then
      let item ← nodeUnless .block [.blockEntry, .blockEnd] fuel
      return item :: (← blockItems fuel)
    else
      expect .blockEnd
      return []

/-- The items of a sequence that stands as far to the left as its key. -/
def bareItems : (fuel : Nat) → Composer (List Node)
  | 0 => failure
  | fuel + 1 => do
    if ← take .blockEntry then
      let item ← nodeUnless .block [.blockEntry, .key, .value, .blockEnd] fuel
      return item :: (← bareItems fuel)
    else return []

/-- The entries of a block mapping, up to its end. -/
def blockEntries : (fuel : Nat) → Composer (List (Node × Node))
  | 0 => failure
  | fuel + 1 => do
    if ← take .key then
      let stop := [Token.key, .value, .blockEnd]
      let k ← nodeUnless .keyed stop fuel
      let v ← if ← take .value then nodeUnless .keyed stop fuel else pure absent
      return (k, v) :: (← blockEntries fuel)
    else
      expect .blockEnd
      return []

/-- The comma in front of an item in brackets; the first item has none. -/
def separator (first : Bool) : (fuel : Nat) → Composer Unit
  | 0 => failure
  | _ + 1 => if first then pure () else expect .flowEntry

/-- The items of a sequence in brackets, up to its end. A pair of a key and a value is a mapping of
its own. -/
def flowItems (first : Bool) : (fuel : Nat) → Composer (List Node)
  | 0 => failure
  | fuel + 1 => do
    if ← take .flowSequenceEnd then return []
    else
      separator first fuel
      if ← take .key then
        let k ← nodeUnless .flow [.value, .flowEntry, .flowSequenceEnd] fuel
        let v ← if ← take .value then nodeUnless .flow [.flowEntry, .flowSequenceEnd] fuel
          else pure absent
        return .mapping (.named "map") [(k, v)] :: (← flowItems false fuel)
      else if ← take .flowSequenceEnd then return []
      else
        let item ← node .flow fuel
        return item :: (← flowItems false fuel)

/-- The entries of a mapping in braces, up to its end. -/
def flowEntries (first : Bool) : (fuel : Nat) → Composer (List (Node × Node))
  | 0 => failure
  | fuel + 1 => do
    if ← take .flowMappingEnd then return []
    else
      separator first fuel
      if ← take .key then
        let k ← nodeUnless .flow [.value, .flowEntry, .flowMappingEnd] fuel
        let v ← if ← take .value then nodeUnless .flow [.flowEntry, .flowMappingEnd] fuel
          else pure absent
        return (k, v) :: (← flowEntries false fuel)
      else if ← take .flowMappingEnd then return []
      else
        let k ← node .flow fuel
        return (k, absent) :: (← flowEntries false fuel)

end

/-! ## Documents -/

/-- The meanings of tag handles that need no directive. -/
def usualHandles : List (Text × Text) :=
  [(['!'], ['!']), ("!!".toList, Tag.coreStart.toList)]

/-- The directives in front of a document. A version is given at most once, and each handle too. -/
def directives (versioned : Bool) :
    (fuel : Nat) → List (Text × Text) → Composer (List (Text × Text))
  | 0, handles => pure handles
  | fuel + 1, handles => do
    match ← peek with
    | some (.directive d) =>
      advance
      match d with
      | .version major =>
        require (!versioned && Number.natural? 10 major == some 1)
        directives true fuel handles
      | .handle name meaning =>
        require ((handles.lookup name).isNone)
        directives versioned fuel ((name, meaning) :: handles)
      | .other => directives versioned fuel handles
    | _ => return handles

/-- Skip the marks behind a document. -/
def documentEnds : (fuel : Nat) → Composer Unit
  | 0 => pure ()
  | fuel + 1 => do
    if ← take .documentEnd then documentEnds fuel

/-- The start of a document. A document with directives has to have a mark. -/
def documentStart : Composer Bool := do
  let fuel := (← get).tokens.length
  match ← peek with
  | some (.directive _) | some .documentStart =>
    let handles ← directives false fuel []
    modify fun c => { c with handles := handles ++ usualHandles }
    expect .documentStart
    return true
  | _ =>
    modify fun c => { c with handles := usualHandles }
    return false

/-- The one document of a text. Behind a mark its node may be left out. -/
def document : Composer Node := do
  let fuel := 4 * (← get).tokens.length + 4
  let marked ← documentStart
  let leftOut ← match ← peek with
    | none => pure marked
    | some .documentStart | some .documentEnd | some (.directive _) => pure marked
    | _ => pure false
  let root ← if leftOut then pure absent else node .block fuel
  documentEnds fuel
  require ((← peek).isNone)
  return root

end Composer

/-- The document of a text. -/
def Document.ofText? (text : Text) : Option Document := do
  let ts ← tokens? text
  let (root, c) ← Composer.document.run ⟨ts, [], [], []⟩
  return ⟨root, c.anchors, 4 * ts.length + 4⟩

end HeaderCatalog.Yaml
