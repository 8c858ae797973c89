import HeaderCatalog.Proofs.Exports.Flags
import HeaderCatalog.Proofs.RecursiveDiscovery
import HeaderCatalog.Proofs.SourceTrees
import Mathlib.Data.List.Chain

/-!
# HeaderCatalog.Proofs.Exports.Routes — the way to a declaration

`Node.routed` lists the declarations of a tree by recursion, each with its route: the nodes that
discovery goes through on the way from the root. Every route is a path of the tree
(`Routed.LeadsFrom`), and a tree that holds a node twice has a route to each occurrence.

* `flagged_eq_routed`: the flag of a declaration says whether an export statement stands on its
  route. The induction is on the stack, whose frames carry the route that leads to them.
* `discover_without_exports`: so discovery without exports lists exactly the declarations whose
  route goes through no export statement, and nothing else about them changes.
-/

namespace HeaderCatalog

/-- The node is an export statement. -/
def Node.isExport (n : Node) : Bool := n.kind == "export_statement"

/-- A declaration, and the nodes on the way to it from the root. The last of them is the declaration
or lists it. -/
structure Routed where
  entity : Entity
  route : List Node

namespace Routed

/-- An export statement stands on the route. -/
def isExported (x : Routed) : Bool := x.route.any Node.isExport

/-- The declaration with the flag that its route gives it. -/
def flagged (x : Routed) : Entity × Bool := (x.entity, x.isExported)

/-- The route is a path of the tree: it starts at the root, each node of it lists the next one among
its children, and the last one is the declaration or lists it. -/
structure LeadsFrom (x : Routed) (root : Node) : Prop where
  starts : x.route.head? = some root
  linked : x.route.IsChain fun n c => .node c ∈ n.items
  lists : ∃ n, x.route.getLast? = some n ∧ (x.entity.node = n ∨ .node x.entity.node ∈ n.items)

end Routed

/-- The declarations under a frame to which `route` leads. There are none under a frame with a
fault. -/
def Frame.routed (f : Frame) (route : List Node) : List Routed :=
  match f.contribution true with
  | .error _ => []
  | .ok c =>
    let through := route ++ f.item.node?.toList
    c.entities.map (⟨·, through⟩) ++ (f.opened c).attach.flatMap fun g => g.1.routed through
termination_by f.item.size
decreasing_by exact Item.size_lt_of_mem_children (Frame.item_of_mem_opened g.2)

/-- The declarations of a tree with their routes. -/
def Node.routed (root : Node) : List Routed :=
  Frame.routed ⟨.node root, none⟩ []

theorem Frame.routed_of_contribution {f : Frame} {c : Contribution}
    (hc : f.contribution true = .ok c) (route : List Node) :
    f.routed route = c.entities.map (⟨·, route ++ f.item.node?.toList⟩) ++
      (f.opened c).flatMap (·.routed (route ++ f.item.node?.toList)) := by
  rw [Frame.routed, hc]
  simp only
  rw [List.flatMap_subtype (g := fun g => g.routed (route ++ f.item.node?.toList)) fun g hg => rfl,
    List.unattach_attach]

/-! ## Flags and routes -/

theorem Frame.isExport_eq (f : Frame) : f.isExport = f.item.node?.toList.any Node.isExport := by
  rcases f with ⟨item, enclosing⟩
  cases item with
  | marker m body => rfl
  | node n => exact (Bool.or_false _).symm

/-- An export statement is no declaration, so a declaration is flagged by the nodes in front of the
one that contributes it. -/
theorem Frame.map_flagged {f : Frame} {c : Contribution} (hc : f.contribution true = .ok c)
    (route : List Node) :
    (c.entities.map (⟨·, route ++ f.item.node?.toList⟩)).map Routed.flagged =
      c.entities.map (·, route.any Node.isExport) := by
  cases hexport : f.isExport with
  | true =>
    have hnone := (Frame.contribution_of_isExport hexport).2
    rw [hc] at hnone
    cases hnone
    rfl
  | false =>
    have hroute : (route ++ f.item.node?.toList).any Node.isExport = route.any Node.isExport := by
      rw [List.any_append, ← f.isExport_eq, hexport, Bool.or_false]
    rw [List.map_map]
    refine List.map_congr_left fun e _ => ?_
    exact congrArg (e, ·) hroute

/-- The declarations under the frames of a stack are flagged by their routes. -/
theorem discoverFlagged_eq_routed (stack : List (Frame × List Node))
    {flagged : List (Entity × Bool)}
    (h : discoverFlagged (stack.map fun x => (x.1, x.2.any Node.isExport)) = .ok flagged) :
    flagged = (stack.flatMap fun x => x.1.routed x.2).map Routed.flagged := by
  match stack with
  | [] =>
    rw [List.map_nil, discoverFlagged] at h
    cases h
    rfl
  | (f, route) :: stack =>
    cases hc : f.contribution true with
    | error fault =>
      rw [List.map_cons, discoverFlagged, hc] at h
      cases h
    | ok c =>
      -- The measure is the weight of the stack, on which the children replace their parent.
      have hlighter : stackWeight ((((f.opened c).map (·, route ++ f.item.node?.toList)) ++
          stack).map (·.1.item)) < stackWeight (((f, route) :: stack).map (·.1.item)) := by
        rw [List.map_append, stackWeight_append, List.map_cons, stackWeight_cons, List.map_map]
        exact Nat.add_lt_add_right (f.weight_opened c) _
      -- To extend the route by the node of the frame is to raise the flag if it is an export.
      have hnext : ((f.opened c).map (·, route ++ f.item.node?.toList) ++ stack).map
          (fun x => (x.1, x.2.any Node.isExport)) =
          (f.opened c).map (·, route.any Node.isExport || f.isExport) ++
            stack.map (fun x => (x.1, x.2.any Node.isExport)) := by
        rw [List.map_append, List.map_map, f.isExport_eq, ← List.any_append]
        rfl
      rw [List.map_cons, discoverFlagged_cons hc, ← hnext] at h
      cases hrest : discoverFlagged (((f.opened c).map (·, route ++ f.item.node?.toList) ++
          stack).map fun x => (x.1, x.2.any Node.isExport)) with
      | error fault =>
        rw [hrest] at h
        cases h
      | ok rest =>
        rw [hrest] at h
        cases h
        have hbelow := discoverFlagged_eq_routed _ hrest
        rw [List.flatMap_append, List.flatMap_map] at hbelow
        show c.entities.map (·, route.any Node.isExport) ++ rest =
          (f.routed route ++ stack.flatMap fun x => x.1.routed x.2).map Routed.flagged
        rw [Frame.routed_of_contribution hc, List.append_assoc, List.map_append,
          Frame.map_flagged hc, hbelow]
termination_by stackWeight (stack.map (·.1.item))
decreasing_by exact hlighter

theorem flagged_eq_routed {root : Node} {flagged : List (Entity × Bool)}
    (h : root.flaggedEntities = .ok flagged) : flagged = root.routed.map Routed.flagged := by
  have hrouted := discoverFlagged_eq_routed [(⟨.node root, none⟩, [])] h
  rwa [List.flatMap_singleton] at hrouted

/-- What remains are the declarations whose route goes through no export statement. -/
theorem remaining_map_flagged (xs : List Routed) :
    remaining (xs.map Routed.flagged) = (xs.filter (!·.isExported)).map (·.entity) := by
  rw [remaining, List.filter_map, List.map_map]
  rfl

/-! ## Routes as paths -/

/-- A route goes on from where it was, through the node of the frame, down to the declaration. -/
theorem Frame.routed_leads (f : Frame) (route : List Node) (x : Routed) (hx : x ∈ f.routed route) :
    ∃ n down, f.item = .node n ∧ x.route = route ++ n :: down ∧
      (n :: down).IsChain (fun m c => .node c ∈ m.items) ∧
      ∃ m, (n :: down).getLast? = some m ∧
        (x.entity.node = m ∨ .node x.entity.node ∈ m.items) := by
  match f with
  | ⟨.marker m body, enclosing⟩ =>
    -- A marker contributes nothing and opens nothing.
    have hc : Frame.contribution true ⟨.marker m body, enclosing⟩ = .ok ⟨[], none⟩ := rfl
    rw [Frame.routed_of_contribution hc] at hx
    cases hx
  | ⟨.node n, enclosing⟩ =>
    cases hc : Frame.contribution true ⟨.node n, enclosing⟩ with
    | error fault =>
      rw [Frame.routed, hc] at hx
      cases hx
    | ok c =>
      rw [Frame.routed_of_contribution hc] at hx
      rcases List.mem_append.1 hx with hx | hx
      · -- What the node itself contributes: the route ends here.
        obtain ⟨e, he, rfl⟩ := List.mem_map.1 hx
        exact ⟨n, [], rfl, rfl, .singleton n, n, rfl, Node.contribution_nodes hc e he⟩
      · -- What stands under one of its children: the route goes on through the child.
        obtain ⟨g, hg, hxg⟩ := List.mem_flatMap.1 hx
        have hchild := Frame.item_of_mem_opened hg
        have hsmaller := Item.size_lt_of_mem_children hchild
        obtain ⟨m, down, hm, hroute, hchain, hlast⟩ := Frame.routed_leads g _ x hxg
        refine ⟨n, m :: down, rfl, ?_, ?_, ?_⟩
        · rw [hroute, List.append_assoc]
          rfl
        · rw [hm] at hchild
          exact List.isChain_cons_cons.2 ⟨hchild, hchain⟩
        · rw [List.getLast?_cons_cons]
          exact hlast
termination_by f.item.size
decreasing_by exact hsmaller

theorem Node.leadsFrom_of_mem_routed {root : Node} {x : Routed} (hx : x ∈ root.routed) :
    x.LeadsFrom root := by
  obtain ⟨n, down, hn, hroute, hchain, hlast⟩ := Frame.routed_leads _ _ x hx
  cases hn
  rw [List.nil_append] at hroute
  exact ⟨by rw [hroute]; rfl, by rw [hroute]; exact hchain, by rw [hroute]; exact hlast⟩

/-! ## Discovery without exports -/

/-- Where discovery with exports returns, discovery without exports returns too. It lists the same
declarations in the same order, less exactly those that a route through an export statement leads
to. -/
theorem discover_without_exports (root : Node) (entities : List Entity)
    (h : discover root true = .ok entities) :
    root.routed.map (·.entity) = entities ∧
      (∀ x ∈ root.routed, x.LeadsFrom root) ∧
      discover root false = .ok ((root.routed.filter (!·.isExported)).map (·.entity)) := by
  obtain ⟨flagged, hflagged, hlisted, hoff⟩ := discover_of_flagged h
  have hrouted := flagged_eq_routed hflagged
  refine ⟨?_, fun x hx => Node.leadsFrom_of_mem_routed hx, ?_⟩
  · rw [← hlisted, hrouted, List.map_map]
    rfl
  · rw [hoff, hrouted, remaining_map_flagged]

/-- The class of `assorted` and its methods are exported, the function and the variable are not. -/
theorem assorted_without_exports :
    assortedTree.routed.map (fun x => (x.entity.kind, x.route.map (·.kind))) =
      [(.classDecl, ["program", "export_statement", "class_declaration"]),
        (.method, ["program", "export_statement", "class_declaration", "class_body"]),
        (.method, ["program", "export_statement", "class_declaration", "class_body"]),
        (.function, ["program", "function_declaration"]),
        (.variable, ["program", "lexical_declaration"])] ∧
    ∃ entities, discover assortedTree true = .ok entities ∧
      assortedTree.routed.map (·.entity) = entities ∧
      (∀ x ∈ assortedTree.routed, x.LeadsFrom assortedTree) ∧
      discover assortedTree false =
        .ok ((assortedTree.routed.filter (!·.isExported)).map (·.entity)) := by
  have hroutes : assortedTree.routed.map (fun x => (x.entity.kind, x.route.map (·.kind))) =
      [(.classDecl, ["program", "export_statement", "class_declaration"]),
        (.method, ["program", "export_statement", "class_declaration", "class_body"]),
        (.method, ["program", "export_statement", "class_declaration", "class_body"]),
        (.function, ["program", "function_declaration"]),
        (.variable, ["program", "lexical_declaration"])] := by
    decide +kernel
  have hreturns : (discover assortedTree true).toOption.isSome = true := by decide +kernel
  cases hfound : discover assortedTree true with
  | error fault =>
    rw [hfound] at hreturns
    cases hreturns
  | ok entities =>
    exact ⟨hroutes, entities, rfl, discover_without_exports assortedTree entities hfound⟩

end HeaderCatalog
