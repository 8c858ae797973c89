import HeaderCatalog.Tree.Slots

/-!
# HeaderCatalog.Tree.Walk — children by slots, and the walk over a tree

`Node.items` lists the children of a node by the slots of its kind. A slot that is not filled
gives a null marker; a node whose kind is not in the table gives a marker that keeps the node.

* `walk` is the pre-order of a tree by these children. It works off a stack, and ends because
  the weight of the stack falls by one with every item taken off it.
* `gapReport` counts the kinds that the table does not cover.
-/

namespace HeaderCatalog

/-- What stands in the place of a child that is not there or cannot be listed. -/
inductive Marker where
  | null
  | unknown
  | invalid
deriving DecidableEq, Repr, Inhabited

/-- The name of a marker where kinds are printed. -/
def Marker.label : Marker → String
  | .null => "Null"
  | .unknown => "Unknown"
  | .invalid => "Invalid"

/-- A child as the enumeration gives it: a node, or a marker with the node it speaks of. -/
inductive Item where
  | node (n : Node)
  | marker (m : Marker) (body : Option Node)
deriving Inhabited

namespace Item

/-- An item for a child that may be absent. -/
def ofOption : Option Node → Item
  | some n => .node n
  | none => .marker .null none

/-- The key of a node; markers have none. -/
def key? : Item → Option (String × Nat × Nat)
  | .node n => some n.key
  | .marker _ _ => none

end Item

/-! ## Children by slots -/

namespace Node

/-- The children that fill one slot of a node. -/
def fill (n : Node) : Slot → List Item
  | .named => n.namedChildren.map .node
  | .field name => [.ofOption (n.fieldChild? name)]
  | .firstOf names => [.ofOption (names.findSome? n.fieldChild?)]
  | .allOf name => (n.fieldChildren name).map .node
  | .ofKind kind => [.ofOption (n.namedChildren.find? (·.kind == kind))]

/-- Keep the first item of each key, and every marker. -/
def distinct (seen : List (String × Nat × Nat)) : List Item → List Item
  | [] => []
  | i :: rest =>
    match i.key? with
    | none => i :: distinct seen rest
    | some k => if seen.contains k then distinct seen rest else i :: distinct (k :: seen) rest

/-- The children of a node whose kind has these slots. Where named children stand next to fields,
the children in the fields would come twice, so only the first of each is kept. -/
def fillAll (n : Node) (slots : List Slot) : List Item :=
  let items := slots.flatMap n.fill
  if slots.contains .named && 1 < slots.length then distinct [] items else items

/-- The children of a node. -/
def items (n : Node) : List Item :=
  if n.kind.isEmpty then [.marker .invalid (some n)]
  else if leafKinds.contains n.kind then []
  else
    match slots? n.kind with
    | none => [.marker .unknown (some n)]
    | some slots => n.fillAll slots

end Node

/-- The markers that stand for the children of something of which only the kind is known. A kind
with slots would have to be asked for its children. -/
def childrenOfKind (kind : String) : Except Fault (List Marker) :=
  if kind.isEmpty then .ok [.invalid]
  else if leafKinds.contains kind then .ok []
  else
    match slots? kind with
    | none => .ok [.unknown]
    | some _ => .error .absentNode

/-- The children of an item. Of a marker only its name is known, which counts as its kind. -/
def Item.children : Item → List Item
  | .node n => n.items
  | .marker m _ =>
    match childrenOfKind m.label with
    | .ok markers => markers.map (.marker · none)
    | .error _ => []

/-- The name of a marker is the kind of a leaf. -/
theorem childrenOfKind_label (m : Marker) : childrenOfKind m.label = .ok [] := by
  cases m with
  | null => rfl
  | unknown => rfl
  | invalid => rfl

/-- So markers have no children. -/
@[simp] theorem Item.children_marker (m : Marker) (body : Option Node) :
    (Item.marker m body).children = [] := by
  rw [children, childrenOfKind_label]
  rfl

/-! ## The measure of the walk -/

/-- The size of what an item holds; children are smaller than their parent. -/
noncomputable def Item.size : Item → Nat
  | .node n => sizeOf n
  | .marker _ _ => 0

theorem Node.sizeOf_pos (n : Node) : 0 < sizeOf n := by
  cases n
  simp only [Node.mk.sizeOf_spec]
  omega

theorem Item.size_ofOption_lt {n : Node} {c : Option Node}
    (h : ∀ m, c = some m → m ∈ n.children) : (Item.ofOption c).size < sizeOf n := by
  cases c with
  | none => exact n.sizeOf_pos
  | some m => exact Node.sizeOf_lt_of_mem_children (h m rfl)

theorem Node.size_lt_of_mem_fill {n : Node} {slot : Slot} {i : Item} (h : i ∈ n.fill slot) :
    i.size < sizeOf n := by
  cases slot with
  | named =>
    obtain ⟨c, hc, rfl⟩ := List.mem_map.1 h
    exact sizeOf_lt_of_mem_children (mem_children_of_mem_namedChildren hc)
  | field name =>
    rw [List.mem_singleton.1 h]
    exact Item.size_ofOption_lt fun m hm => mem_children_of_fieldChild? hm
  | firstOf names =>
    rw [List.mem_singleton.1 h]
    refine Item.size_ofOption_lt fun m hm => ?_
    obtain ⟨name, _, hf⟩ := List.exists_of_findSome?_eq_some hm
    exact mem_children_of_fieldChild? hf
  | allOf name =>
    obtain ⟨c, hc, rfl⟩ := List.mem_map.1 h
    exact sizeOf_lt_of_mem_children (mem_children_of_mem_fieldChildren hc)
  | ofKind kind =>
    rw [List.mem_singleton.1 h]
    exact Item.size_ofOption_lt fun m hm =>
      mem_children_of_mem_namedChildren (List.mem_of_find?_eq_some hm)

theorem Node.mem_of_mem_distinct {seen : List (String × Nat × Nat)} {items : List Item} {i : Item}
    (h : i ∈ distinct seen items) : i ∈ items := by
  induction items generalizing seen with
  | nil => simp [distinct] at h
  | cons j rest ih =>
    unfold distinct at h
    split at h
    · rcases List.mem_cons.1 h with rfl | h
      · exact List.mem_cons_self
      · exact List.mem_cons_of_mem _ (ih h)
    · split at h
      · exact List.mem_cons_of_mem _ (ih h)
      · rcases List.mem_cons.1 h with rfl | h
        · exact List.mem_cons_self
        · exact List.mem_cons_of_mem _ (ih h)

theorem Node.mem_of_mem_fillAll {n : Node} {slots : List Slot} {i : Item}
    (h : i ∈ n.fillAll slots) : i ∈ slots.flatMap n.fill := by
  unfold fillAll at h
  split at h
  · exact mem_of_mem_distinct h
  · exact h

theorem Item.size_lt_of_mem_children {i c : Item} (h : c ∈ i.children) : c.size < i.size := by
  cases i with
  | marker m body =>
    rw [children_marker] at h
    cases h
  | node n =>
    simp only [children, Node.items] at h
    split at h
    · rw [List.mem_singleton.1 h]
      exact n.sizeOf_pos
    · split at h
      · simp at h
      · split at h
        · rw [List.mem_singleton.1 h]
          exact n.sizeOf_pos
        · obtain ⟨slot, _, hs⟩ := List.mem_flatMap.1 (Node.mem_of_mem_fillAll h)
          exact Node.size_lt_of_mem_fill hs

/-- The number of items that the walk from an item takes up. -/
def Item.weight (i : Item) : Nat :=
  1 + i.children.attach.foldr (fun c n => weight c.1 + n) 0
termination_by i.size
decreasing_by exact size_lt_of_mem_children c.2

/-- The number of items that the walk from a stack of items takes up. -/
def stackWeight (stack : List Item) : Nat :=
  stack.foldr (fun i n => i.weight + n) 0

theorem Item.weight_eq (i : Item) : i.weight = 1 + stackWeight i.children := by
  rw [weight, List.foldr_attach (f := fun (c : Item) (n : Nat) => c.weight + n)]
  rfl

theorem stackWeight_cons (i : Item) (stack : List Item) :
    stackWeight (i :: stack) = i.weight + stackWeight stack := rfl

theorem stackWeight_append (a b : List Item) :
    stackWeight (a ++ b) = stackWeight a + stackWeight b := by
  induction a with
  | nil => simp [stackWeight]
  | cons i a ih => rw [List.cons_append, stackWeight_cons, stackWeight_cons, ih, Nat.add_assoc]

/-! ## The walk -/

/-- Take items off a stack in turn, putting the children of each in its place. -/
def walkStack : List Item → List Item
  | [] => []
  | i :: stack => i :: walkStack (i.children ++ stack)
termination_by stack => stackWeight stack
decreasing_by
  rw [stackWeight_append, stackWeight_cons, Item.weight_eq i]
  omega

/-- A node and all that is under it, parents before children, in the order of the slots. -/
def walk (root : Node) : List Item :=
  walkStack [.node root]

/-! ## Kinds that the table does not cover -/

/-- Count one more of a kind; a kind that is new goes to the end. -/
def countKind (kind : String) : List (String × Nat) → List (String × Nat)
  | [] => [(kind, 1)]
  | (k, n) :: rest => if k == kind then (k, n + 1) :: rest else (k, n) :: countKind kind rest

/-- The kinds under a node that the table does not cover, each with its number, in the order in
which they are first met. -/
def gapReport (root : Node) : List (String × Nat) :=
  (walk root).foldl (fun counts i =>
    match i with
    | .marker .unknown (some body) => countKind body.kind counts
    | _ => counts) []

/-- The same kinds, the most frequent ones first. -/
def gapReportByCount (root : Node) : List (String × Nat) :=
  (gapReport root).mergeSort fun a b => b.2 ≤ a.2

/-! ## Errors in a tree -/

theorem sizeOf_append_nodes (a b : List Node) : sizeOf (a ++ b) + 1 = sizeOf a + sizeOf b := by
  induction a with
  | nil => simp only [List.nil_append, List.nil.sizeOf_spec]; omega
  | cons x xs ih => simp only [List.cons_append, List.cons.sizeOf_spec]; omega

/-- The first error on a stack of nodes. Only nodes that say that they hold an error are
searched. -/
def firstErrorIn : List Node → Option Node
  | [] => none
  | n :: stack =>
    if n.isError || n.isMissing then some n
    else if n.hasError then firstErrorIn (n.children ++ stack)
    else firstErrorIn stack
termination_by stack => sizeOf stack
decreasing_by
  · have h := sizeOf_append_nodes n.children stack
    have h' := n.sizeOf_children_lt
    simp only [List.cons.sizeOf_spec]
    omega
  · simp only [List.cons.sizeOf_spec]
    omega

/-- The first node in source order that is an error or was missing in the source. -/
def firstError (root : Node) : Option Node :=
  firstErrorIn [root]

end HeaderCatalog
