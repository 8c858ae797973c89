import HeaderCatalog.Scan
import HeaderCatalog.Proofs.SourceTrees

/-!
# HeaderCatalog.Proofs.ErrorSearch — the first error of a tree

The search for an error works off a stack and passes over every node that says that it holds none.
If all nodes of a tree are right about that (`Node.FlagsErrors`), nothing is lost by it.

* `firstErrorIn_eq_find?` is the invariant of the stack: what is left to find is the first broken
  node of the trees on the stack, in pre-order and over all children.
* `clean_reports_first_error`: so a tree is refused exactly if it has a broken node, and the place
  that is reported is that of the first one. The root never stands in for it.
-/

namespace HeaderCatalog

namespace Node

/-- The node is an error, or was missing in the source. -/
def isBroken (n : Node) : Bool := n.isError || n.isMissing

/-- Every node of the tree says that it holds an error exactly if it, or a node under it, is
broken. -/
def FlagsErrors (root : Node) : Prop :=
  ∀ n ∈ root.subtree, (n.hasError = true ↔ ∃ m ∈ n.subtree, m.isBroken = true)

instance (root : Node) : Decidable root.FlagsErrors :=
  inferInstanceAs (Decidable
    (∀ n ∈ root.subtree, (n.hasError = true ↔ ∃ m ∈ n.subtree, m.isBroken = true)))

/-- The nodes under a child are nodes under its parent. -/
theorem mem_subtree_of_mem_child {n c m : Node} (hc : c ∈ n.children) (hm : m ∈ c.subtree) :
    m ∈ n.subtree := by
  rw [subtree_eq]
  exact List.mem_cons_of_mem _ (List.mem_flatMap.2 ⟨c, hc, hm⟩)

theorem FlagsErrors.child {n c : Node} (h : n.FlagsErrors) (hc : c ∈ n.children) :
    c.FlagsErrors :=
  fun m hm => h m (mem_subtree_of_mem_child hc hm)

theorem FlagsErrors.root_iff {root : Node} (h : root.FlagsErrors) :
    root.hasError = true ↔ ∃ n ∈ root.subtree, n.isBroken = true :=
  h root root.mem_subtree_self

end Node

/-- The search over a stack of trees finds the first broken node of these trees. A node whose flag
is not set is passed over with all that is under it, and none of that is broken. -/
theorem firstErrorIn_eq_find? {stack : List Node} (h : ∀ n ∈ stack, n.FlagsErrors) :
    firstErrorIn stack = (stack.flatMap Node.subtree).find? Node.isBroken := by
  induction stack using firstErrorIn.induct with
  | case1 =>
    rw [firstErrorIn]
    rfl
  | case2 n stack hbroken =>
    rw [firstErrorIn, if_pos hbroken, List.flatMap_cons, Node.subtree_eq, List.cons_append]
    exact (List.find?_cons_of_pos (p := Node.isBroken) hbroken).symm
  | case3 n stack hbroken herror ih =>
    -- The flag is set on a sound node: the search goes on with its children.
    obtain ⟨hn, hrest⟩ := List.forall_mem_cons.1 h
    have hnext : ∀ m ∈ n.children ++ stack, m.FlagsErrors := by
      intro m hm
      rcases List.mem_append.1 hm with hm | hm
      · exact hn.child hm
      · exact hrest m hm
    rw [firstErrorIn, if_neg hbroken, if_pos herror, ih hnext, List.flatMap_append,
      List.flatMap_cons, Node.subtree_eq n, List.cons_append]
    exact (List.find?_cons_of_neg (p := Node.isBroken) hbroken).symm
  | case4 n stack hbroken herror ih =>
    -- The flag is not set, so the whole tree of the node may be left out of the list.
    obtain ⟨hn, hrest⟩ := List.forall_mem_cons.1 h
    have hclear : n.subtree.find? Node.isBroken = none := by
      refine List.find?_eq_none.2 fun m hm hbad => herror ?_
      exact hn.root_iff.2 ⟨m, hm, hbad⟩
    rw [firstErrorIn, if_neg hbroken, if_neg herror, ih hrest, List.flatMap_cons,
      List.find?_append, hclear]
    rfl

theorem firstError_eq_find? {root : Node} (h : root.FlagsErrors) :
    firstError root = root.subtree.find? Node.isBroken := by
  have hroot : ∀ n ∈ [root], n.FlagsErrors := by
    intro n hn
    rw [List.mem_singleton.1 hn]
    exact h
  rw [firstError, firstErrorIn_eq_find? hroot, List.flatMap_singleton]

/-- What the search for errors finds in a tree, and what is reported of it. -/
structure Node.ErrorsFound (root : Node) : Prop where
  /-- The search finds the first broken node of the whole tree. -/
  first : firstError root = root.subtree.find? Node.isBroken
  none_iff : firstError root = none ↔ root.hasError = false
  /-- The tree is refused exactly if it has a broken node. -/
  refused_iff : (∃ e, root.clean = .error e) ↔ ∃ n ∈ root.subtree, n.isBroken = true
  /-- What is reported is the place of the first one. -/
  reported : ∀ e, root.clean = .error e → ∃ n, root.subtree.find? Node.isBroken = some n ∧
    e = .ofNode n ∧ e.line = n.point.row + 1 ∧ e.column = n.point.column
  passed : (∀ n ∈ root.subtree, n.isBroken = false) → root.clean = .ok root

/-- In a tree whose nodes are right about the errors under them, the search finds the first broken
node of the whole tree, and finds none exactly if the root says so. The tree is refused exactly if
it has a broken node, with the place of the first one; otherwise it is passed on as it is. -/
theorem clean_reports_first_error (root : Node) (h : root.FlagsErrors) : root.ErrorsFound := by
  have hfirst := firstError_eq_find? h
  have hflag := h.root_iff
  have hnone : firstError root = none ↔ root.hasError = false := by
    rw [hfirst, List.find?_eq_none, ← Bool.not_eq_true, hflag]
    simp only [not_exists, not_and]
  have hrefused : (∃ e, root.clean = .error e) ↔ root.hasError = true := by
    unfold Node.clean
    cases root.hasError with
    | false => exact iff_of_false (fun ⟨e, he⟩ => by cases he) (by decide)
    | true => exact iff_of_true ⟨_, rfl⟩ rfl
  refine ⟨hfirst, hnone, hrefused.trans hflag, ?_, ?_⟩
  · intro e he
    have herror : root.hasError = true := hrefused.1 ⟨e, he⟩
    -- The flag of the root is set, so there is a first error and the root does not stand in for it.
    cases hfound : firstError root with
    | none =>
      rw [hnone.1 hfound] at herror
      cases herror
    | some n =>
      rw [Node.clean, if_pos herror, hfound] at he
      cases he
      exact ⟨n, hfirst.symm.trans hfound, rfl, rfl, rfl⟩
  · intro hwhole
    have herror : ¬ root.hasError = true := by
      rw [hflag]
      rintro ⟨n, hn, hbroken⟩
      rw [hwhole n hn] at hbroken
      cases hbroken
    exact if_neg herror

/-- A name in the first line, and in the second a call that is not closed. -/
def unclosed : Text := "a\nf(".toList

/-- The node, with the flag that says that it holds an error. -/
def Node.holdsError (n : Node) : Node := { n with hasError := true }

/-- The call of `unclosed`. The parenthesis that is missing is no named node. -/
def unclosedCall : Node :=
  (Node.spanning unclosed "call_expression" 2 4
    [(Node.spanning unclosed "identifier" 2 3 []).fills "function",
      ((Node.spanning unclosed "arguments" 3 4
        [.mark unclosed "(" 3 4,
          { (Node.mark unclosed ")" 4 4).holdsError with
            isMissing := true, point := ⟨1, 2⟩ }]).fills "arguments").holdsError]).holdsError

/-- The tree of `unclosed`. -/
def unclosedTree : Node :=
  (Node.spanning unclosed "program" 0 4
    [.spanning unclosed "expression_statement" 0 1 [.spanning unclosed "identifier" 0 1 []],
      (Node.spanning unclosed "expression_statement" 2 4 [unclosedCall]).holdsError]).holdsError

/-- The first statement of `unclosed` is passed over, and the parenthesis that is missing in the
second one is reported. -/
theorem unclosed_reported :
    unclosedTree.FlagsErrors ∧
      unclosedTree.clean.map (·.kind) = .error ⟨"missing ')'", 2, 2⟩ ∧
      unclosedTree.ErrorsFound := by
  have hflags : unclosedTree.FlagsErrors := by decide +kernel
  exact ⟨hflags, by decide +kernel, clean_reports_first_error unclosedTree hflags⟩

end HeaderCatalog
