import HeaderCatalog.Proofs.Discovery

/-!
# HeaderCatalog.Proofs.Exports.Flags — the declarations under export statements

`Node.flaggedEntities` lists the declarations of a tree as discovery with exports does, and flags
those that stand under an export statement. `discover_of_flagged` says what the setting does to
discovery: with exports all of them are listed, without exports those that are not flagged, in
the same order.
-/

namespace HeaderCatalog

/-! ## Flags -/

/-- The entries that are not flagged. -/
def remaining {α : Type} (xs : List (α × Bool)) : List α :=
  (xs.filter (!·.2)).map (·.1)

section Remaining

variable {α : Type}

@[simp] theorem remaining_nil : remaining ([] : List (α × Bool)) = [] := rfl

@[simp] theorem remaining_cons_true (a : α) (xs : List (α × Bool)) :
    remaining ((a, true) :: xs) = remaining xs := rfl

@[simp] theorem remaining_cons_false (a : α) (xs : List (α × Bool)) :
    remaining ((a, false) :: xs) = a :: remaining xs := rfl

theorem remaining_append (xs ys : List (α × Bool)) :
    remaining (xs ++ ys) = remaining xs ++ remaining ys := by
  simp [remaining]

theorem remaining_map_true (as : List α) : remaining (as.map (·, true)) = [] := by
  induction as with
  | nil => rfl
  | cons a as ih => exact ih

theorem remaining_map_false (as : List α) : remaining (as.map (·, false)) = as := by
  induction as with
  | nil => rfl
  | cons a as ih => exact congrArg (a :: ·) ih

theorem mem_remaining {a : α} {xs : List (α × Bool)} : a ∈ remaining xs ↔ (a, false) ∈ xs := by
  simp [remaining]

end Remaining

/-! ## Discovery with flags -/

/-- The item is an export statement. -/
def Frame.isExport (f : Frame) : Bool :=
  match f.item with
  | .node n => n.kind == "export_statement"
  | .marker _ _ => false

/-- Discovery with exports. Each frame carries a flag, which says whether it stands under an export
statement and goes to the entities that it lists. -/
def discoverFlagged : List (Frame × Bool) → Except Fault (List (Entity × Bool))
  | [] => .ok []
  | (f, exported) :: stack => do
    let c ← f.contribution true
    let rest ← discoverFlagged ((f.opened c).map (·, exported || f.isExport) ++ stack)
    return c.entities.map (·, exported) ++ rest
termination_by stack => stackWeight (stack.map (·.1.item))
decreasing_by
  have hlt := f.weight_opened c
  rw [List.map_append, stackWeight_append, List.map_cons, stackWeight_cons, List.map_map]
  exact Nat.add_lt_add_right hlt _

/-- The declarations of a tree, those under an export statement flagged. -/
def Node.flaggedEntities (root : Node) : Except Fault (List (Entity × Bool)) :=
  discoverFlagged [(⟨.node root, none⟩, false)]

/-! ## What the setting leaves out -/

/-- Without exports, an export statement is passed over. -/
theorem Frame.contribution_of_isExport {f : Frame} (h : f.isExport = true) :
    f.contribution false = .ok ⟨[], none⟩ ∧ f.contribution true = .ok ⟨[], some f.enclosing⟩ := by
  rcases f with ⟨item, enclosing⟩
  cases item with
  | marker m body => cases h
  | node n =>
    have hkind : n.kind = "export_statement" := beq_iff_eq.1 h
    simp [Frame.contribution, Node.contribution, hkind]

/-- All other items contribute the same with and without exports. -/
theorem Frame.contribution_of_not_isExport {f : Frame} (h : f.isExport = false) :
    f.contribution false = f.contribution true := by
  rcases f with ⟨item, enclosing⟩
  cases item with
  | marker m body => rfl
  | node n =>
    have hkind : n.kind ≠ "export_statement" := beq_eq_false_iff_ne.1 h
    simp only [Frame.contribution, Node.contribution, if_neg hkind]

theorem discoverFlagged_cons {f : Frame} {c : Contribution} (hc : f.contribution true = .ok c)
    (exported : Bool) (stack : List (Frame × Bool)) :
    discoverFlagged ((f, exported) :: stack) =
      (discoverFlagged ((f.opened c).map (·, exported || f.isExport) ++ stack)).map
        (c.entities.map (·, exported) ++ ·) := by
  rw [discoverFlagged, hc]
  simp only [Bind.bind, Except.bind]
  cases discoverFlagged ((f.opened c).map (·, exported || f.isExport) ++ stack) with
  | error fault => rfl
  | ok rest => rfl

/-- With exports, discovery lists the entities that have flags. -/
theorem discoverStack_true (stack : List (Frame × Bool)) :
    discoverStack true (stack.map (·.1)) = (discoverFlagged stack).map (·.map (·.1)) := by
  induction stack using discoverFlagged.induct with
  | case1 =>
    rw [discoverFlagged, List.map_nil, discoverStack]
    rfl
  | case2 f exported stack ih =>
    cases hc : f.contribution true with
    | error fault =>
      rw [List.map_cons, discoverStack, discoverFlagged, hc]
      rfl
    | ok c =>
      have hopened : ((f.opened c).map (·, exported || f.isExport)).map (·.1) = f.opened c := by
        rw [List.map_map]
        exact List.map_id _
      have hlisted : (c.entities.map (·, exported)).map (·.1) = c.entities := by
        rw [List.map_map]
        exact List.map_id _
      have hrest := ih c
      rw [List.map_append, hopened] at hrest
      rw [List.map_cons, discoverStack_cons hc, discoverFlagged_cons hc, hrest]
      cases discoverFlagged ((f.opened c).map (·, exported || f.isExport) ++ stack) with
      | error fault => rfl
      | ok rest => simp only [Except.map, List.map_append, hlisted]

/-- Without exports, discovery lists the entities that are not flagged. -/
theorem discoverStack_false {stack : List (Frame × Bool)} {flagged : List (Entity × Bool)}
    (h : discoverFlagged stack = .ok flagged) :
    discoverStack false (remaining stack) = .ok (remaining flagged) := by
  induction stack using discoverFlagged.induct generalizing flagged with
  | case1 =>
    rw [discoverFlagged] at h
    cases h
    rw [remaining_nil, discoverStack]
    rfl
  | case2 f exported stack ih =>
    cases hc : f.contribution true with
    | error fault =>
      rw [discoverFlagged, hc] at h
      cases h
    | ok c =>
      rw [discoverFlagged_cons hc] at h
      cases hrest : discoverFlagged ((f.opened c).map (·, exported || f.isExport) ++ stack) with
      | error fault =>
        rw [hrest] at h
        cases h
      | ok rest =>
        rw [hrest] at h
        cases h
        have hnext := ih c hrest
        rw [remaining_append] at hnext
        rw [remaining_append]
        cases exported with
        | true =>
          rw [Bool.true_or, remaining_map_true, List.nil_append] at hnext
          rw [remaining_map_true, List.nil_append, remaining_cons_true]
          exact hnext
        | false =>
          rw [Bool.false_or] at hnext
          rw [remaining_map_false, remaining_cons_false]
          cases hexport : f.isExport with
          | true =>
            -- All that the statement opens is flagged.
            rcases Frame.contribution_of_isExport hexport with ⟨hoff, hon⟩
            rw [hc] at hon
            cases hon
            rw [hexport, remaining_map_true, List.nil_append] at hnext
            rw [discoverStack_cons hoff]
            exact congrArg (Except.map _) hnext
          | false =>
            have hoff := (Frame.contribution_of_not_isExport hexport).trans hc
            rw [hexport, remaining_map_false] at hnext
            rw [discoverStack_cons hoff, hnext]
            rfl

/-- Exports off leaves out the entities under export statements and nothing else. -/
theorem discover_of_flagged {root : Node} {entities : List Entity}
    (h : discover root true = .ok entities) :
    ∃ flagged, root.flaggedEntities = .ok flagged ∧ flagged.map (·.1) = entities ∧
      discover root false = .ok (remaining flagged) := by
  have hall := discoverStack_true [(⟨.node root, none⟩, false)]
  have hlisted : (discoverFlagged [(⟨.node root, none⟩, false)]).map (·.map (·.1)) =
      .ok entities := hall.symm.trans h
  cases hflagged : discoverFlagged [(⟨.node root, none⟩, false)] with
  | error fault =>
    rw [hflagged] at hlisted
    cases hlisted
  | ok flagged =>
    rw [hflagged] at hlisted
    cases hlisted
    exact ⟨flagged, hflagged, rfl, discoverStack_false hflagged⟩

end HeaderCatalog
