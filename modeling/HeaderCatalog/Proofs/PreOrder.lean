import HeaderCatalog.Tree.Walk
import Mathlib.Data.List.Basic
import Mathlib.Logic.Function.Iterate

/-!
# HeaderCatalog.Proofs.PreOrder — the walk as a recursion over the tree

The walk over a tree works off a stack. `Item.preorder` says what it has to visit without one: an
item, and then what is under its children, one child after another.

* `Walk` is the walk between two rounds: the items that wait, and those taken up so far.
* `Walk.round_of_coming`: a round takes up the first of the items that are still to come, and all
  others are still to come after it. This is the invariant of the stack.
* `length_walkStack`: a walk has as many rounds as its stack weighs. The weight counts a child once
  for each slot that lists it, and a marker has no children, also where it keeps a node.
* `walk_eq_preorder`: so the walk from every item ends, and it is the recursion.
-/

namespace HeaderCatalog

/-! ## The recursion -/

/-- An item and all that is listed under it, parents before children. -/
def Item.preorder (i : Item) : List Item :=
  i :: i.children.attach.flatMap fun c => preorder c.1
termination_by i.size
decreasing_by exact size_lt_of_mem_children c.2

/-- The pre-order, its children taken without the proofs that they are smaller. -/
theorem Item.preorder_eq (i : Item) : i.preorder = i :: i.children.flatMap Item.preorder := by
  rw [preorder, List.flatMap_subtype (g := Item.preorder) fun c hc => rfl, List.unattach_attach]

/-! ## Round by round -/

/-- The walk between two rounds: the items that wait, the next one first, and the items that were
taken up so far. -/
structure Walk where
  stack : List Item
  taken : List Item

namespace Walk

/-- The beginning of the walk from an item. -/
def start (i : Item) : Walk := ⟨[i], []⟩

/-- One round takes up the next item and puts its children in its place. -/
def round (w : Walk) : Walk :=
  match w.stack with
  | [] => w
  | i :: stack => ⟨i.children ++ stack, w.taken ++ [i]⟩

/-- The items that are still to come: those that wait, each with all that is under it. -/
def coming (w : Walk) : List Item :=
  w.stack.flatMap Item.preorder

/-- The invariant of the stack: a round moves the first item that is still to come to the items that
were taken up. -/
theorem round_of_coming (w : Walk) :
    w.round.taken = w.taken ++ w.coming.take 1 ∧ w.round.coming = w.coming.drop 1 := by
  rcases w with ⟨stack, taken⟩
  cases stack with
  | nil => exact ⟨(List.append_nil taken).symm, rfl⟩
  | cons i stack =>
    have hcoming : coming ⟨i :: stack, taken⟩ =
        i :: (i.children.flatMap Item.preorder ++ stack.flatMap Item.preorder) := by
      rw [coming, List.flatMap_cons, Item.preorder_eq, List.cons_append]
    rw [hcoming]
    -- The children take the place of the item, and all that is under the others stays behind them.
    exact ⟨rfl, List.flatMap_append⟩

/-- After so many rounds, so many of the items that were to come are taken up. -/
theorem rounds_of_coming (n : Nat) (w : Walk) :
    (round^[n] w).taken = w.taken ++ w.coming.take n ∧ (round^[n] w).coming = w.coming.drop n := by
  induction n generalizing w with
  | zero => exact ⟨(List.append_nil w.taken).symm, rfl⟩
  | succ n ih =>
    obtain ⟨htaken, hcoming⟩ := w.round_of_coming
    obtain ⟨htaken', hcoming'⟩ := ih w.round
    -- The first round takes one item, the others take theirs from what it leaves to come.
    rw [Function.iterate_succ_apply]
    constructor
    · rw [htaken', htaken, hcoming, List.append_assoc, Nat.add_comm n 1, List.take_add]
    · rw [hcoming', hcoming, List.drop_drop, Nat.add_comm 1 n]

/-- Every item that waits is still to come. -/
theorem coming_eq_nil_iff {w : Walk} : w.coming = [] ↔ w.stack = [] := by
  rcases w with ⟨stack, taken⟩
  cases stack with
  | nil => exact iff_of_true rfl rfl
  | cons i stack =>
    rw [coming, List.flatMap_cons, Item.preorder_eq]
    exact iff_of_false (List.cons_ne_nil _ _) (List.cons_ne_nil _ _)

theorem coming_start (i : Item) : (start i).coming = i.preorder :=
  List.flatMap_singleton Item.preorder i

end Walk

/-! ## The whole walk -/

/-- Working off a stack visits what is under its items, one item after another. -/
theorem walkStack_eq_flatMap (stack : List Item) :
    walkStack stack = stack.flatMap Item.preorder := by
  induction stack using walkStack.induct with
  | case1 =>
    rw [walkStack]
    rfl
  | case2 i stack ih =>
    rw [walkStack, ih, List.flatMap_append, List.flatMap_cons, Item.preorder_eq, List.cons_append]

/-- The weight of a stack is the number of items that the walk visits. -/
theorem length_walkStack (stack : List Item) : (walkStack stack).length = stackWeight stack := by
  induction stack using walkStack.induct with
  | case1 =>
    rw [walkStack]
    rfl
  | case2 i stack ih =>
    rw [walkStack, List.length_cons, ih, stackWeight_append, stackWeight_cons, Item.weight_eq]
    omega

/-- What it is for the walk from an item to be its pre-order. -/
structure Item.WalkedInPreOrder (i : Item) : Prop where
  /-- The pre-order of an item is the item, and then the pre-orders of its children in turn. -/
  recursion : ∀ j : Item, j.preorder = j :: j.children.flatMap Item.preorder
  walked : walkStack [i] = i.preorder
  root : ∀ root, walk root = (Item.node root).preorder
  /-- A marker is a leaf, by its name. -/
  leaf : ∀ m : Marker, childrenOfKind m.label = .ok []
  /-- Round by round the pre-order is taken up from the front. -/
  taken : ∀ n, (Walk.round^[n] (.start i)).taken = i.preorder.take n
  /-- The walk is at its end after as many rounds as the item weighs, and not before. -/
  ended : ∀ n, (Walk.round^[n] (.start i)).stack = [] ↔ i.weight ≤ n

/-- The walk from every item, a node or a marker, is its pre-order, and it ends. -/
theorem walk_eq_preorder (i : Item) : i.WalkedInPreOrder := by
  have hwalk : ∀ j : Item, walkStack [j] = j.preorder := by
    intro j
    rw [walkStack_eq_flatMap, List.flatMap_singleton]
  have hlength : i.preorder.length = i.weight := by
    rw [← hwalk i, length_walkStack]
    rfl
  have hrounds : ∀ n, (Walk.round^[n] (.start i)).taken = i.preorder.take n ∧
      (Walk.round^[n] (.start i)).coming = i.preorder.drop n := by
    intro n
    rw [← Walk.coming_start]
    exact Walk.rounds_of_coming n (.start i)
  constructor
  case recursion => exact Item.preorder_eq
  case walked => exact hwalk i
  case root => exact fun root => hwalk (.node root)
  case leaf => exact childrenOfKind_label
  case taken => exact fun n => (hrounds n).1
  case ended =>
    -- The stack is empty exactly if nothing is to come, which is so once all was taken up.
    intro n
    rw [← Walk.coming_eq_nil_iff, (hrounds n).2, List.drop_eq_nil_iff, hlength]

end HeaderCatalog
