import HeaderCatalog.Yaml.Node

/-!
# HeaderCatalog.Yaml.Document — the values of a document

A document has a value if all its nodes have one: scalars that fit their kinds, keys that are no
collections, and tags that are known. `Document.check` finds the first node that has none, level
by level. `Document.entries` gives the entries of a mapping with those that it takes over from
others in front, so that the last entry with a key is the one that counts. `load` puts it together.
-/

namespace HeaderCatalog.Yaml

/-- The tag of a node; an alias has none of its own. -/
def Node.tag? : Node → Option Tag
  | scalar t _ => some t
  | sequence t _ => some t
  | mapping t _ => some t
  | reference _ => none

/-- An entry of a mapping, and whether it stands under an alias rather than in the mapping. -/
structure Entry where
  key : Node
  value : Node
  borrowed : Bool
deriving Inhabited

/-- What a node stands for, as far as that can be said without looking below it. -/
inductive Content where
  | scalar (s : Scalar)
  | mapping (entries : List Entry)
  | collection (isEmpty : Bool)
deriving Inhabited

namespace Document

/-! ## Aliases and tags -/

/-- The node that an alias stands for, or the node itself. -/
def target (d : Document) : Node → Node
  | .reference name => (d.anchors.lookup name).getD Composer.absent
  | n => n

/-- The document without one of its anchors. -/
def without (d : Document) (name : Text) : Document :=
  { d with anchors := d.anchors.filter (·.1 != name) }

/-- Does a node have this tag of the format's own? -/
def isTagged (d : Document) (n : Node) (name : String) : Bool :=
  (d.target n).tag? == some (.named name)

/-- What the tag of a node says that it stands for. -/
def shape? (d : Document) (n : Node) : Option Tag.Shape :=
  (d.target n).tag?.bind fun t => Tag.shapes.lookup t

/-! ## Entries of mappings -/

/-- Entries that are taken over through an alias. -/
def borrow (entries : List Entry) : List Entry :=
  entries.map fun e => { e with borrowed := true }

mutual

/-- The entries of a mapping: those that it takes over, then its own. Following an alias leaves its
anchor out, so that a mapping that takes over itself adds nothing. -/
def entriesFrom (d : Document) : (fuel : Nat) → Node → Except Refusal (List Entry)
  | 0, _ => .ok []
  | fuel + 1, .mapping _ entries => do
    let (merges, own) := entries.partition fun (k, _) => d.isTagged k "merge"
    let taken ← merges.mapM fun (_, v) => takenOver d fuel v
    return taken.flatten ++ own.map fun (k, v) => ⟨k, v, false⟩
  | fuel + 1, .reference name =>
    match d.anchors.lookup name with
    | some n => return borrow (← entriesFrom (d.without name) fuel n)
    | none => .ok []
  | _ + 1, _ => .error .malformed

/-- The entries that the value of a merge key takes over: those of a mapping, or those of the
mappings in a sequence, of which the first counts most. -/
def takenOver (d : Document) : (fuel : Nat) → Node → Except Refusal (List Entry)
  | 0, _ => .ok []
  | fuel + 1, n =>
    match d.target n with
    | .sequence _ items => do
      let taken ← items.mapM (entriesFrom d fuel)
      return (match n with
        | .reference _ => borrow
        | _ => id) taken.reverse.flatten
    | _ => entriesFrom d fuel n

end

/-- The entries of a mapping. -/
def entries (d : Document) (n : Node) : Except Refusal (List Entry) :=
  entriesFrom d d.size (d.target n)

/-! ## Scalars -/

/-- The text of a scalar. A mapping has one if it has an entry for it. -/
def textFrom (d : Document) : (fuel : Nat) → Node → Except Refusal Text
  | 0, _ => .error .malformed
  | fuel + 1, n =>
    match d.target n with
    | .scalar _ text => .ok text
    | .mapping _ entries =>
      match entries.find? fun (k, _) => d.isTagged k "value" with
      | some (_, v) => textFrom d fuel v
      | none => .error .malformed
    | _ => .error .malformed

/-- The value of a node that is said to be a scalar of a kind. A moment cannot be the entry of a
mapping. -/
def scalar (d : Document) (kind : ScalarKind) (n : Node) : Except Refusal Scalar := do
  let text ← textFrom d d.size n
  match kind, d.target n with
  | .moment, .mapping _ _ => .error .malformed
  | _, _ => Scalar.ofKind kind text

/-! ## Values -/

/-- The content of a node. -/
def content (d : Document) (n : Node) : Except Refusal Content := do
  match d.shape? n with
  | none => .error .malformed
  | some (.scalar kind) => return .scalar (← d.scalar kind n)
  | some .map => return .mapping (← d.entries n)
  | some .set => return .collection (← d.entries n).isEmpty
  | some _ =>
    match d.target n with
    | .sequence _ items => return .collection items.isEmpty
    | _ => .error .malformed

/-- The value of a key, which is no collection. The key for the scalar of a mapping is a text like
others. -/
def keyOf (d : Document) (k : Node) : Except Refusal Scalar := do
  match d.shape? k with
  | some (.scalar kind) => d.scalar kind k
  | _ => if d.isTagged k "value" then return .text (← textFrom d d.size k) else .error .malformed

/-- The value of a node, with the mappings that stand `depth` levels below it not looked into. A
mapping may hold itself, so they are not all looked into. Of the entries with one key the last one
comes first. -/
def valueTo (d : Document) : (depth : Nat) → Node → Except Refusal Value
  | depth, n => do
    match ← d.content n with
    | .scalar s => return .scalar s
    | .collection isEmpty => return .collection isEmpty
    | .mapping entries =>
      match depth with
      | 0 => return .collection entries.isEmpty
      | depth + 1 =>
        let pairs ← entries.mapM fun e => do
          return (← d.keyOf e.key, ← d.valueTo depth e.value)
        return .mapping pairs.reverse

/-! ## Checking -/

/-- Check a node as far as that goes without looking below it, and say what has to be looked at
later. What an alias stands for is looked at in its own place. -/
def checkNode (d : Document) (n : Node) : Except Refusal (List Node) :=
  match d.shape? n with
  | none => .error .malformed
  | some (.scalar kind) => do
    let _ ← d.scalar kind n
    return []
  | some _ =>
    match n with
    | .reference _ => .ok []
    | n => .ok [n]

/-- Check an entry, and say what has to be looked at later. A borrowed value is looked at in its
own place. -/
def checkEntry (d : Document) (e : Entry) : Except Refusal (List Node) := do
  let _ ← d.keyOf e.key
  let below ← d.checkNode e.value
  return if e.borrowed then [] else below

/-- Check an item of a list of pairs: a mapping with one entry. -/
def checkPair (d : Document) (n : Node) : Except Refusal (List Node) := do
  match d.target n with
  | .mapping _ [(k, v)] => return (← d.checkNode k) ++ (← d.checkNode v)
  | _ => .error .malformed

/-- Check what stands right below a collection. -/
def checkBelow (d : Document) (n : Node) : Except Refusal (List Node) := do
  match d.shape? n, n with
  | some .list, .sequence _ items => return (← items.mapM d.checkNode).flatten
  | some .pairs, .sequence _ items => return (← items.mapM d.checkPair).flatten
  | some .map, .mapping _ _ => return (← (← d.entries n).mapM d.checkEntry).flatten
  | some .set, .mapping _ _ => return (← (← d.entries n).mapM d.checkEntry).flatten
  | _, _ => .error .malformed

/-- Check collections, level by level. -/
def checkLevels (d : Document) : (depth : Nat) → List Node → Except Refusal Unit
  | 0, _ => .ok ()
  | depth + 1, level =>
    if level.isEmpty then .ok ()
    else do checkLevels d depth (← level.mapM d.checkBelow).flatten

/-- Check that all nodes of a document have a value. -/
def check (d : Document) : Except Refusal Unit := do
  d.checkLevels d.size (← d.checkNode d.root)

end Document

/-- The value of a text. Settings are not looked for below the mappings in its mapping. -/
def load : Loader := fun text =>
  match Document.ofText? text with
  | none => .error .malformed
  | some d => do
    d.check
    d.valueTo 2 d.root

end HeaderCatalog.Yaml
