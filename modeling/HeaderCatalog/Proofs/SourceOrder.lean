import HeaderCatalog.Proofs.Discovery
import HeaderCatalog.Proofs.SourceTrees

/-!
# HeaderCatalog.Proofs.SourceOrder — discovery in source order, methods behind their class

Discovery takes frames off a stack on which the children of a node replace it. In a tree whose
nodes lie in source order (`Node.Outlined`) the stack is always in source order too, but for frames
that contribute nothing, and the body of a class waits behind nothing but such frames
(`Waiting`). This is an invariant of the stack; each frame keeps it and lists entities that
continue the list (`Waiting.step`), so the whole list is in source order and each method
stands behind its class (`Listing`).
-/

namespace HeaderCatalog

/-! ## Trees in source order -/

/-- The nodes lie one after another between two bytes. -/
def InOrder (lo hi : Nat) : List Node → Prop
  | [] => lo ≤ hi
  | n :: rest => lo ≤ n.start ∧ n.start ≤ n.stop ∧ InOrder n.stop hi rest

instance decidableInOrder (lo hi : Nat) : (nodes : List Node) → Decidable (InOrder lo hi nodes)
  | [] => inferInstanceAs (Decidable (lo ≤ hi))
  | n :: rest =>
    have := decidableInOrder n.stop hi rest
    inferInstanceAs (Decidable (lo ≤ n.start ∧ n.start ≤ n.stop ∧ InOrder n.stop hi rest))

namespace InOrder

variable {lo lo' hi : Nat} {nodes : List Node}

theorem mono (hlo : lo ≤ lo') (h : InOrder lo' hi nodes) : InOrder lo hi nodes := by
  cases nodes with
  | nil => exact Nat.le_trans hlo h
  | cons n rest => exact ⟨Nat.le_trans hlo h.1, h.2⟩

theorem le (h : InOrder lo hi nodes) : lo ≤ hi := by
  induction nodes generalizing lo with
  | nil => exact h
  | cons n rest ih =>
    have hrest := ih h.2.2
    have hstart := h.1
    have hstop := h.2.1
    omega

theorem of_mem (h : InOrder lo hi nodes) {n : Node} (hn : n ∈ nodes) :
    lo ≤ n.start ∧ n.start ≤ n.stop ∧ n.stop ≤ hi := by
  induction nodes generalizing lo with
  | nil => cases hn
  | cons m rest ih =>
    rcases List.mem_cons.1 hn with rfl | hn
    · exact ⟨h.1, h.2.1, h.2.2.le⟩
    · have hin := ih h.2.2 hn
      have hstart := h.1
      have hstop := h.2.1
      omega

theorem sublist {kept : List Node} (hkept : kept.Sublist nodes) (h : InOrder lo hi nodes) :
    InOrder lo hi kept := by
  induction hkept generalizing lo with
  | slnil => exact h
  | cons n hkept ih =>
    have hle : lo ≤ n.stop := Nat.le_trans h.1 h.2.1
    exact (ih h.2.2).mono hle
  | cons_cons n hkept ih => exact ⟨h.1, h.2.1, ih h.2.2⟩

end InOrder

/-- The children of the node lie in source order inside its span, and those in the fields that
matter to discovery are of the kinds that belong there. -/
@[mk_iff]
structure Node.Outlined (n : Node) : Prop where
  inOrder : InOrder n.start n.stop n.children
  decorator : ∀ c ∈ n.children, c.field = some "decorator" → c.kind = "decorator"
  className : n.kind = "class_declaration" → ∀ c ∈ n.fieldChild? "name", c.kind = "identifier"
  classBody : n.kind = "class_declaration" → ∀ c ∈ n.fieldChild? "body", c.kind = "class_body"
  onlyBody : ∀ c ∈ n.children, c.kind = "class_body" →
    n.kind = "class_declaration" ∧ c.field = some "body"

instance (n : Node) : Decidable n.Outlined :=
  decidable_of_iff _ n.outlined_iff.symm

namespace Node

variable {n : Node}

theorem items_of_slots? {kind : String} {slots : List Slot} (hkind : n.kind = kind)
    (h : kind.isEmpty = false ∧ leafKinds.contains kind = false ∧ slots? kind = some slots) :
    n.items = n.fillAll slots := by
  rcases h with ⟨hempty, hleaf, hslots⟩
  rw [items, hkind, hempty, hleaf, hslots]
  rfl

theorem distinct_sublist (seen : List (String × Nat × Nat)) (items : List Item) :
    (distinct seen items).Sublist items := by
  induction items generalizing seen with
  | nil => exact .slnil
  | cons i rest ih =>
    unfold distinct
    split
    · exact (ih seen).cons_cons i
    · split
      · exact (ih seen).cons i
      · exact (ih _).cons_cons i

theorem items_of_named {kind : String} (hkind : n.kind = kind)
    (h : kind.isEmpty = false ∧ leafKinds.contains kind = false ∧ slots? kind = some [.named]) :
    n.items = n.namedChildren.map .node := by
  rw [items_of_slots? hkind h]
  exact List.append_nil _

theorem items_of_variables (hkind : Entity.variableKinds.contains n.kind = true) :
    n.items = n.namedChildren.map .node := by
  have hkinds : n.kind = "variable_declaration" ∨ n.kind = "lexical_declaration" := by
    simpa [Entity.variableKinds] using hkind
  rcases hkinds with hkind | hkind
  · exact items_of_named hkind (by decide)
  · exact items_of_named hkind (by decide)

/-- An export lists its decorators first. Whatever else it lists comes in source order. -/
theorem items_of_export (hkind : n.kind = "export_statement") :
    ∃ decorators kept : List Node, n.items = decorators.map .node ++ kept.map .node ∧
      decorators.Sublist (n.fieldChildren "decorator") ∧ kept.Sublist n.children := by
  have hitems : n.items = n.fillAll [.allOf "decorator", .named] :=
    items_of_slots? hkind (by decide)
  rw [hitems]
  have hsub : (n.fillAll [.allOf "decorator", .named]).Sublist
      ((n.fieldChildren "decorator").map .node ++ (n.namedChildren.map .node ++ [])) :=
    distinct_sublist [] _
  rw [List.append_nil] at hsub
  rcases List.sublist_append_iff.1 hsub with ⟨front, back, heq, hfront, hback⟩
  rcases List.sublist_map_iff.1 hfront with ⟨decorators, hdecorators, rfl⟩
  rcases List.sublist_map_iff.1 hback with ⟨kept, hkept, rfl⟩
  exact ⟨decorators, kept, heq, hdecorators, hkept.trans List.filter_sublist⟩

theorem items_of_class (hkind : n.kind = "class_declaration") :
    n.items = (n.fieldChildren "decorator").map .node ++
      [.ofOption (n.fieldChild? "name"),
        .ofOption (n.namedChildren.find? (·.kind == "class_heritage")),
        .ofOption (n.fieldChild? "body")] := by
  have hitems : n.items = n.fillAll
      [.allOf "decorator", .field "name", .ofKind "class_heritage", .field "body"] :=
    items_of_slots? hkind (by decide)
  rw [hitems]
  rfl

end Node

/-! ## Lists in source order -/

/-- The class whose methods may stand behind the entity, if `cls` is the one before it. -/
def Entity.classAfter (e : Entity) (cls : Option Text) : Option Text :=
  match e.kind with
  | .method => cls
  | .classDecl => (textOf (e.node.fieldChild? "name")).toOption
  | _ => none

/-- A method stands in the given class, anything else in none. -/
def Entity.BelongsTo (e : Entity) (cls : Option Text) : Prop :=
  if e.kind = .method then ∃ name, cls = some name ∧ e.enclosing = some name
  else e.enclosing = none

/-- The entities start one after another from a byte on, and methods stand behind the class that
they belong to, with nothing but methods between; `cls` is the class before the first entity. -/
def Listing : Nat → Option Text → List Entity → Prop
  | _, _, [] => True
  | lo, cls, e :: rest =>
    lo ≤ e.node.start ∧ e.BelongsTo cls ∧ Listing e.node.start (e.classAfter cls) rest

namespace Listing

variable {lo lo' hi : Nat} {cls : Option Text} {entities rest : List Entity}

theorem mono (hlo : lo ≤ lo') (h : Listing lo' cls entities) : Listing lo cls entities := by
  cases entities with
  | nil => trivial
  | cons e rest => exact ⟨Nat.le_trans hlo h.1, h.2⟩

/-- A list that needs no class before it may stand behind any. -/
theorem of_none (h : Listing lo none entities) : Listing lo cls entities := by
  cases entities with
  | nil => trivial
  | cons e rest =>
    rcases h with ⟨hlo, hbelongs, hrest⟩
    unfold Entity.BelongsTo at hbelongs
    split at hbelongs
    · rcases hbelongs with ⟨name, hnone, -⟩
      cases hnone
    · rename_i hkind
      refine ⟨hlo, ?_, ?_⟩
      · unfold Entity.BelongsTo
        rw [if_neg hkind]
        exact hbelongs
      · have hafter : e.classAfter cls = e.classAfter none := by
          unfold Entity.classAfter
          split
          · contradiction
          · rfl
          · rfl
        rw [hafter]
        exact hrest

/-- Entities of nodes in order, all of the class `cls`, may stand before a list. -/
theorem filterMap {ofItem? : Item → Option Entity}
    (hof : ∀ n e, ofItem? (.node n) = some e →
      e.node = n ∧ e.BelongsTo cls ∧ e.classAfter cls = cls)
    {nodes : List Node} (hin : InOrder lo hi nodes) (hrest : Listing hi cls rest) :
    Listing lo cls ((nodes.map .node).filterMap ofItem? ++ rest) := by
  induction nodes generalizing lo with
  | nil => exact hrest.mono hin
  | cons n nodes ih =>
    rw [List.map_cons, List.filterMap_cons]
    have hnext := ih hin.2.2
    cases he : ofItem? (.node n) with
    | none => exact hnext.mono (Nat.le_trans hin.1 hin.2.1)
    | some e =>
      rcases hof n e he with ⟨rfl, hbelongs, hafter⟩
      refine ⟨hin.1, hbelongs, ?_⟩
      rw [hafter]
      exact hnext.mono hin.2.1

theorem start_le (h : Listing lo cls entities) : ∀ e ∈ entities, lo ≤ e.node.start := by
  induction entities generalizing lo cls with
  | nil => simp
  | cons e rest ih =>
    intro e' he'
    rcases List.mem_cons.1 he' with rfl | he'
    · exact h.1
    · exact Nat.le_trans h.1 (ih h.2.2 e' he')

theorem pairwise (h : Listing lo cls entities) :
    entities.Pairwise fun a b => a.node.start ≤ b.node.start := by
  induction entities generalizing lo cls with
  | nil => exact .nil
  | cons e rest ih => exact .cons h.2.2.start_le (ih h.2.2)

theorem enclosing_none (h : Listing lo cls entities) :
    ∀ e ∈ entities, e.kind ≠ .method → e.enclosing = none := by
  induction entities generalizing lo cls with
  | nil => simp
  | cons e rest ih =>
    intro e' he' hkind
    rcases List.mem_cons.1 he' with rfl | he'
    · have hbelongs := h.2.1
      unfold Entity.BelongsTo at hbelongs
      rw [if_neg hkind] at hbelongs
      exact hbelongs
    · exact ih h.2.2 e' he' hkind

/-- A method of the list has its class before it: in the list, or the one before the list. -/
theorem class_before {front back : List Entity} {m : Entity}
    (h : Listing lo cls (front ++ m :: back)) (hm : m.kind = .method) :
    (∃ front' c methods name, front = front' ++ c :: methods ∧ c.kind = .classDecl ∧
        textOf (c.node.fieldChild? "name") = .ok name ∧ (∀ e ∈ methods, e.kind = .method) ∧
        m.enclosing = some name) ∨
      ((∀ e ∈ front, e.kind = .method) ∧ ∃ name, cls = some name ∧ m.enclosing = some name) := by
  induction front generalizing lo cls with
  | nil =>
    have hbelongs := h.2.1
    unfold Entity.BelongsTo at hbelongs
    rw [if_pos hm] at hbelongs
    exact Or.inr ⟨by simp, hbelongs⟩
  | cons e front ih =>
    rcases ih h.2.2 with ⟨front', c, methods, name, rfl, hclass⟩ | ⟨hmethods, name, hafter, hname⟩
    · exact Or.inl ⟨e :: front', c, methods, name, rfl, hclass⟩
    · -- Nothing but methods stands between `e` and `m`, so what `e` leaves is the class of `m`.
      unfold Entity.classAfter at hafter
      split at hafter
      · rename_i hkind
        refine Or.inr ⟨?_, name, hafter, hname⟩
        intro e' he'
        rcases List.mem_cons.1 he' with rfl | he'
        · exact hkind
        · exact hmethods e' he'
      · rename_i hkind
        refine Or.inl ⟨[], e, front, name, rfl, hkind, ?_, hmethods, hname⟩
        cases htext : textOf (e.node.fieldChild? "name") with
        | error fault =>
          rw [htext] at hafter
          cases hafter
        | ok text =>
          rw [htext] at hafter
          cases hafter
          rfl
      · cases hafter

end Listing

theorem Entity.belongsTo_of_declarator {keyword : String} {n : Node} {e : Entity}
    (h : Entity.ofDeclarator? none keyword (.node n) = some e) :
    e.node = n ∧ e.BelongsTo none ∧ e.classAfter none = none := by
  simp only [Entity.ofDeclarator?] at h
  split at h
  · split at h
    · split at h
      · cases h
        exact ⟨rfl, rfl, rfl⟩
      · cases h
    · cases h
  · cases h

theorem Entity.belongsTo_of_member {name : Text} {n : Node} {e : Entity}
    (h : Entity.ofMember? (some name) (.node n) = some e) :
    e.node = n ∧ e.BelongsTo (some name) ∧ e.classAfter (some name) = some name := by
  simp only [Entity.ofMember?] at h
  split at h
  · cases h
    exact ⟨rfl, ⟨name, rfl, rfl⟩, rfl⟩
  · cases h

/-! ## The stack -/

/-- The frame lists nothing and opens nothing. -/
def Frame.Inert (f : Frame) : Prop :=
  ∀ includeExports, f.contribution includeExports = .ok ⟨[], none⟩

theorem Frame.inert_of_kind {i : Item} {enclosing : Option Text}
    (h : ∀ n, i = .node n → n.kind ∈ ["decorator", "identifier", "class_heritage"]) :
    Frame.Inert ⟨i, enclosing⟩ := by
  intro includeExports
  cases i with
  | marker m body => rfl
  | node n =>
    have hkind := h n rfl
    simp only [List.mem_cons, List.not_mem_nil, or_false] at hkind
    rcases hkind with hkind | hkind | hkind
    all_goals
      simp [Frame.contribution, Node.contribution, hkind, Entity.functionKinds,
        Entity.variableKinds]

/-- The stack lies in source order from a byte on, but for frames that contribute nothing. A class
body waits only as the first of the other frames, and stands in the class `cls`; nothing else
stands in a class. -/
inductive Waiting (root : Node) : Nat → Option Text → List Frame → Prop where
  | nil (lo : Nat) (cls : Option Text) : Waiting root lo cls []
  | inert {f : Frame} {lo : Nat} {cls : Option Text} {stack : List Frame} :
      f.Inert → Waiting root lo cls stack → Waiting root lo cls (f :: stack)
  | body {n : Node} {lo : Nat} {name : Text} {stack : List Frame} :
      n ∈ root.subtree → n.kind = "class_body" → lo ≤ n.start → Waiting root n.stop none stack →
      Waiting root lo (some name) (⟨.node n, some name⟩ :: stack)
  | statement {n : Node} {lo : Nat} {cls : Option Text} {stack : List Frame} :
      n ∈ root.subtree → n.kind ≠ "class_body" → lo ≤ n.start → Waiting root n.stop none stack →
      Waiting root lo cls (⟨.node n, none⟩ :: stack)

namespace Waiting

variable {root : Node} {lo lo' hi : Nat} {cls : Option Text} {stack : List Frame}

theorem mono (h : Waiting root lo' cls stack) (hlo : lo ≤ lo') : Waiting root lo cls stack := by
  induction h with
  | nil => exact .nil lo _
  | inert hf _ ih => exact .inert hf (ih hlo)
  | body hn hkind hstart hrest => exact .body hn hkind (Nat.le_trans hlo hstart) hrest
  | statement hn hkind hstart hrest => exact .statement hn hkind (Nat.le_trans hlo hstart) hrest

/-- A stack that needs no class may wait behind any. -/
theorem of_none (h : Waiting root lo none stack) : Waiting root lo cls stack := by
  generalize hnone : (none : Option Text) = before at h
  induction h with
  | nil => exact .nil _ cls
  | inert hf _ ih => exact .inert hf (ih hnone)
  | body => cases hnone
  | statement hn hkind hstart hrest => exact .statement hn hkind hstart hrest

theorem inerts {frames : List Frame} (hframes : ∀ f ∈ frames, f.Inert)
    (h : Waiting root lo cls stack) : Waiting root lo cls (frames ++ stack) := by
  induction frames with
  | nil => exact h
  | cons f frames ih =>
    have hrest : ∀ g ∈ frames, g.Inert := fun g hg => hframes g (List.mem_cons_of_mem _ hg)
    exact .inert (hframes f List.mem_cons_self) (ih hrest)

theorem statements {nodes : List Node} (hnodes : ∀ n ∈ nodes, n ∈ root.subtree)
    (hkinds : ∀ n ∈ nodes, n.kind ≠ "class_body") (hin : InOrder lo hi nodes)
    (h : Waiting root hi none stack) :
    Waiting root lo none ((nodes.map .node).map (⟨·, none⟩) ++ stack) := by
  induction nodes generalizing lo with
  | nil => exact h.mono hin
  | cons n nodes ih =>
    refine .statement (hnodes n List.mem_cons_self) (hkinds n List.mem_cons_self) hin.1 ?_
    exact ih (fun m hm => hnodes m (List.mem_cons_of_mem _ hm))
      (fun m hm => hkinds m (List.mem_cons_of_mem _ hm)) hin.2.2

theorem inert_decorators {n : Node} (h : n.Outlined) {decorators : List Node}
    (hdecorators : decorators.Sublist (n.fieldChildren "decorator")) (enclosing : Option Text) :
    ∀ f ∈ (decorators.map .node).map (Frame.mk · enclosing), f.Inert := by
  intro f hf
  rw [List.map_map] at hf
  rcases List.mem_map.1 hf with ⟨d, hd, rfl⟩
  rcases List.mem_filter.1 (hdecorators.mem hd) with ⟨hchild, hfield⟩
  apply Frame.inert_of_kind
  rintro _ ⟨⟩
  rw [h.decorator d hchild (beq_iff_eq.1 hfield)]
  decide

section Step

variable (hroot : ∀ n ∈ root.subtree, n.Outlined)
include hroot

/-- The children of a node that is no class, decorators before the others. -/
theorem children {n : Node} (hn : n ∈ root.subtree) (hkind : n.kind ≠ "class_declaration")
    {decorators kept : List Node} (hitems : n.items = decorators.map .node ++ kept.map .node)
    (hdecorators : decorators.Sublist (n.fieldChildren "decorator"))
    (hkept : kept.Sublist n.children) (h : Waiting root n.stop none stack) :
    Waiting root n.start none ((Item.node n).frames none ++ stack) := by
  have houtlined := hroot n hn
  have hframes : (Item.node n).frames none =
      (decorators.map .node).map (⟨·, none⟩) ++ (kept.map .node).map (⟨·, none⟩) := by
    rw [Item.frames, Item.children, hitems, List.map_append]
  rw [hframes, List.append_assoc]
  apply inerts
  · exact inert_decorators houtlined hdecorators none
  · refine statements ?_ ?_ (houtlined.inOrder.sublist hkept) h
    · intro c hc
      exact Node.mem_subtree_of_mem_children hn (hkept.mem hc)
    · intro c hc hbody
      exact hkind (houtlined.onlyBody c (hkept.mem hc) hbody).1

/-- The children of a class: its body waits in the class, the others contribute nothing. -/
theorem class_children {n : Node} (hn : n ∈ root.subtree) (hkind : n.kind = "class_declaration")
    (name : Text) (h : Waiting root n.stop none stack) :
    Waiting root n.start (some name) ((Item.node n).frames (some name) ++ stack) := by
  have houtlined := hroot n hn
  rw [Item.frames, Item.children, Node.items_of_class hkind, List.map_append, List.append_assoc]
  apply inerts
  · exact inert_decorators houtlined (List.Sublist.refl _) (some name)
  · -- Behind the decorators come the name, what the class extends, and the body.
    refine .inert (Frame.inert_of_kind ?_) (.inert (Frame.inert_of_kind ?_) ?_)
    · intro c hc
      rw [houtlined.className hkind c (Item.ofOption_eq_node hc)]
      decide
    · intro c hc
      have hheritage := List.find?_some (Item.ofOption_eq_node hc)
      rw [beq_iff_eq.1 hheritage]
      decide
    · cases hbody : n.fieldChild? "body" with
      | none =>
        have hstack : Waiting root n.start none stack := h.mono houtlined.inOrder.le
        refine .inert (Frame.inert_of_kind ?_) hstack.of_none
        intro c hc
        cases hc
      | some b =>
        have hchild := Node.mem_children_of_fieldChild? hbody
        have hspan := houtlined.inOrder.of_mem hchild
        refine .body (Node.mem_subtree_of_mem_children hn hchild) ?_ hspan.1 (h.mono hspan.2.2)
        exact houtlined.classBody hkind b hbody

/-- One node that stands in no class. -/
theorem statement_step {n : Node} (hn : n ∈ root.subtree) (hbody : n.kind ≠ "class_body")
    (h : Waiting root n.stop none stack) {includeExports : Bool} {c : Contribution}
    (hc : n.contribution includeExports none = .ok c) :
    ∃ lo' cls', Waiting root lo' cls' (Frame.opened ⟨.node n, none⟩ c ++ stack) ∧
      ∀ rest, Listing lo' cls' rest → Listing n.start cls (c.entities ++ rest) := by
  have hspan := (hroot n hn).inOrder
  have hnothing : ∀ rest, Listing n.stop none rest → Listing n.start cls ([] ++ rest) :=
    fun rest hrest => (hrest.mono hspan.le).of_none
  cases Node.contributes_of_eq_ok hc with
  | program hkind =>
    have hitems : n.items = ([] : List Node).map .node ++ n.namedChildren.map .node :=
      Node.items_of_named hkind (by decide)
    have hchildren := children hroot hn (by rw [hkind]; decide) hitems (List.nil_sublist _)
      List.filter_sublist h
    exact ⟨n.start, none, hchildren, fun rest hrest => hrest.of_none⟩
  | exported hkind =>
    cases includeExports with
    | false => exact ⟨n.stop, none, h, hnothing⟩
    | true =>
      rcases Node.items_of_export hkind with ⟨decorators, kept, hitems, hdecorators, hkept⟩
      have hchildren := children hroot hn (by rw [hkind]; decide) hitems hdecorators hkept h
      exact ⟨n.start, none, hchildren, fun rest hrest => hrest.of_none⟩
  | @classDecl name hkind hname =>
    -- The class is the one that the methods behind it belong to.
    refine ⟨n.start, some name, class_children hroot hn hkind name h, ?_⟩
    intro rest hrest
    refine ⟨Nat.le_refl _, rfl, ?_⟩
    have hafter : Entity.classAfter ⟨.classDecl, n, none, none⟩ cls = some name := by
      rw [Entity.classAfter, hname]
      rfl
    rw [hafter]
    exact hrest
  | function =>
    refine ⟨n.stop, none, h, ?_⟩
    intro rest hrest
    exact ⟨Nat.le_refl _, rfl, hrest.mono hspan.le⟩
  | declarators hkind =>
    refine ⟨n.stop, none, h, ?_⟩
    intro rest hrest
    rw [Node.items_of_variables hkind]
    exact (Listing.filterMap (fun m e he => Entity.belongsTo_of_declarator he)
      (hspan.sublist List.filter_sublist) hrest).of_none
  | classBody hkind => exact absurd hkind hbody
  | other => exact ⟨n.stop, none, h, hnothing⟩

/-- One frame: what it lists continues the list, and the stack that it leaves waits again. -/
theorem step {f : Frame} (h : Waiting root lo cls (f :: stack)) {includeExports : Bool}
    {c : Contribution} (hc : f.contribution includeExports = .ok c) :
    ∃ lo' cls', Waiting root lo' cls' (f.opened c ++ stack) ∧
      ∀ rest, Listing lo' cls' rest → Listing lo cls (c.entities ++ rest) := by
  cases h with
  | inert hf hstack =>
    rw [hf includeExports] at hc
    cases hc
    exact ⟨lo, cls, hstack, fun rest hrest => hrest⟩
  | @body n _ name _ hn hkind hstart hstack =>
    have hspan := (hroot n hn).inOrder
    have hitems : n.items = n.namedChildren.map .node := Node.items_of_named hkind (by decide)
    have hmembers : n.contribution includeExports (some name) =
        .ok ⟨n.items.filterMap (Entity.ofMember? (some name)), none⟩ := by
      simp [Node.contribution, hkind, Entity.functionKinds, Entity.variableKinds]
    rw [hitems] at hmembers
    cases hmembers.symm.trans hc
    refine ⟨n.stop, none, hstack, ?_⟩
    intro rest hrest
    exact (Listing.filterMap (fun m e he => Entity.belongsTo_of_member he)
      (hspan.sublist List.filter_sublist) hrest.of_none).mono hstart
  | @statement n _ _ _ hn hkind hstart hstack =>
    rcases statement_step hroot hn hkind hstack hc with ⟨lo', cls', hopened, hlists⟩
    exact ⟨lo', cls', hopened, fun rest hrest => (hlists rest hrest).mono hstart⟩

end Step

end Waiting

/-! ## The whole tree -/

/-- What is discovered from a stack that waits is in source order, methods behind their class. -/
theorem Waiting.listing {root : Node} (hroot : ∀ n ∈ root.subtree, n.Outlined) {lo : Nat}
    {cls : Option Text} {stack : List Frame} (h : Waiting root lo cls stack) {includeExports : Bool}
    {entities : List Entity} (hfound : discoverStack includeExports stack = .ok entities) :
    Listing lo cls entities := by
  refine discoverStack_induction
    (motive := fun stack entities => ∀ lo cls, Waiting root lo cls stack → Listing lo cls entities)
    ?_ ?_ hfound lo cls h
  · intro lo cls _
    trivial
  · intro f stack c rest hc ih lo cls h
    rcases h.step hroot hc with ⟨lo', cls', hopened, hlists⟩
    exact hlists rest (ih lo' cls' hopened)

/-- The entities are listed in the order of their nodes, and methods behind their class. -/
structure InSourceOrder (entities : List Entity) : Prop where
  starts : entities.Pairwise fun a b => a.node.start ≤ b.node.start
  /-- Every method stands behind its class, with nothing but methods between. -/
  methods : ∀ front m back, entities = front ++ m :: back → m.kind = .method →
    ∃ front' c methods name, front = front' ++ c :: methods ∧ c.kind = .classDecl ∧
      textOf (c.node.fieldChild? "name") = .ok name ∧ (∀ e ∈ methods, e.kind = .method) ∧
      m.enclosing = some name
  /-- Nothing else stands in a class. -/
  others : ∀ e ∈ entities, e.kind ≠ .method → e.enclosing = none

/-- In a program whose nodes lie in source order, discovery lists the entities in source order.
Every method stands behind its class, with nothing but methods between, and nothing else stands in
a class. -/
theorem discover_in_source_order (root : Node) (hprogram : root.kind = "program")
    (hroot : ∀ n ∈ root.subtree, n.Outlined) (includeExports : Bool) (entities : List Entity)
    (hfound : discover root includeExports = .ok entities) : InSourceOrder entities := by
  have hbody : root.kind ≠ "class_body" := by
    rw [hprogram]
    decide
  have hstack : Waiting root root.start none [⟨.node root, none⟩] :=
    .statement root.mem_subtree_self hbody (Nat.le_refl _) (.nil _ _)
  have hlisting := hstack.listing hroot hfound
  refine ⟨hlisting.pairwise, ?_, hlisting.enclosing_none⟩
  rintro front m back rfl hm
  rcases hlisting.class_before hm with hclass | ⟨-, name, hnone, -⟩
  · exact hclass
  · cases hnone

theorem assorted_in_source_order :
    assortedTree.kind = "program" ∧ (∀ n ∈ assortedTree.subtree, n.Outlined) ∧
      ∃ entities, discover assortedTree true = .ok entities ∧
        entities.map (fun e => (e.kind, e.node.start, e.enclosing)) =
          [(.classDecl, 10, none), (.method, 20, some ['A']), (.method, 27, some ['A']),
            (.function, 35, none), (.variable, 61, none)] ∧
        InSourceOrder entities := by
  have houtlined : ∀ n ∈ assortedTree.subtree, n.Outlined := by decide +kernel
  have hlisted : (discover assortedTree true).map
      (·.map fun e => (e.kind, e.node.start, e.enclosing)) =
        .ok [(.classDecl, 10, none), (.method, 20, some ['A']), (.method, 27, some ['A']),
          (.function, 35, none), (.variable, 61, none)] := by
    decide +kernel
  cases hfound : discover assortedTree true with
  | error fault =>
    rw [hfound] at hlisted
    cases hlisted
  | ok entities =>
    rw [hfound] at hlisted
    refine ⟨rfl, houtlined, entities, rfl, Except.ok.inj hlisted, ?_⟩
    exact discover_in_source_order assortedTree rfl houtlined true entities hfound

end HeaderCatalog
