import HeaderCatalog.Catalog
import HeaderCatalog.Proofs.Matching
import Mathlib.Data.List.Basic

/-!
# HeaderCatalog.Proofs.Discovery — classes are discovered before their methods

Discovery enters a class only after it has listed it. So in what it lists, no method stands before
the first class of the name that the method carries (`methodsFollow_of_discover`).
-/

namespace HeaderCatalog

/-- The entity is a class of this name. -/
def Entity.DeclaresClass (e : Entity) (name : Text) : Prop :=
  e.kind = .classDecl ∧ e.name = .ok name

instance (e : Entity) (name : Text) : Decidable (e.DeclaresClass name) :=
  inferInstanceAs (Decidable (e.kind = .classDecl ∧ e.name = .ok name))

/-- The entity is a method of a class of this name. -/
def Entity.MethodOf (e : Entity) (name : Text) : Prop :=
  e.kind = .method ∧ e.enclosing = some name

/-- No method of a class of this name stands before the first such class. -/
def MethodsFollow (name : Text) : List Entity → Prop
  | [] => True
  | e :: rest => e.DeclaresClass name ∨ (¬ e.MethodOf name ∧ MethodsFollow name rest)

/-- Entities that are no such methods may stand in front; if there is such a class among them,
any entities may follow. -/
theorem MethodsFollow.append {name : Text} {xs ys : List Entity}
    (hxs : ∀ e ∈ xs, ¬ e.MethodOf name)
    (hys : (∃ e ∈ xs, e.DeclaresClass name) ∨ MethodsFollow name ys) :
    MethodsFollow name (xs ++ ys) := by
  induction xs with
  | nil =>
    rcases hys with ⟨e, he, -⟩ | hys
    · cases he
    · exact hys
  | cons x xs ih =>
    by_cases hx : x.DeclaresClass name
    · exact Or.inl hx
    · have hrest : ∀ e ∈ xs, ¬ e.MethodOf name := fun e he => hxs e (List.mem_cons_of_mem _ he)
      refine Or.inr ⟨hxs x List.mem_cons_self, ih hrest ?_⟩
      rcases hys with ⟨e, he, hclass⟩ | hys
      · rcases List.mem_cons.1 he with rfl | he
        · exact absurd hclass hx
        · exact Or.inl ⟨e, he, hclass⟩
      · exact Or.inr hys

/-! ## One node -/

/-- A name that is given where a node must have one is the name of the entity. -/
theorem Entity.name_of_textOf {e : Entity} {name : Text}
    (h : textOf (e.node.fieldChild? "name") = .ok name) : e.name = .ok name := by
  unfold textOf at h
  unfold Entity.name
  cases hfield : e.node.fieldChild? "name" with
  | none => simp [hfield] at h
  | some n => simpa [hfield] using h

theorem Entity.ofDeclarator?_kind {enclosing : Option Text} {keyword : String} {i : Item}
    {e : Entity} (h : Entity.ofDeclarator? enclosing keyword i = some e) : e.kind = .variable := by
  unfold Entity.ofDeclarator? at h
  grind

theorem Entity.ofMember?_enclosing {enclosing : Option Text} {i : Item} {e : Entity}
    (h : Entity.ofMember? enclosing i = some e) : e.enclosing = enclosing := by
  unfold Entity.ofMember? at h
  grind

theorem Entity.ofDeclarator?_node {enclosing : Option Text} {keyword : String} {i : Item}
    {e : Entity} (h : Entity.ofDeclarator? enclosing keyword i = some e) : i = .node e.node := by
  unfold Entity.ofDeclarator? at h
  grind

theorem Entity.ofMember?_node {enclosing : Option Text} {i : Item} {e : Entity}
    (h : Entity.ofMember? enclosing i = some e) : i = .node e.node := by
  unfold Entity.ofMember? at h
  grind

/-- What a node that stands in `enclosing` can contribute, by its kind. -/
inductive Node.Contributes (includeExports : Bool) (enclosing : Option Text) (n : Node) :
    Contribution → Prop where
  | program : n.kind = "program" → Contributes includeExports enclosing n ⟨[], some none⟩
  | exported : n.kind = "export_statement" →
      Contributes includeExports enclosing n ⟨[], if includeExports then some enclosing else none⟩
  | classDecl {name : Text} : n.kind = "class_declaration" →
      textOf (n.fieldChild? "name") = .ok name →
      Contributes includeExports enclosing n ⟨[⟨.classDecl, n, none, none⟩], some (some name)⟩
  | function : Entity.functionKinds.contains n.kind = true →
      Contributes includeExports enclosing n ⟨[⟨.function, n, enclosing, none⟩], none⟩
  | declarators {keyword : Node} : Entity.variableKinds.contains n.kind = true →
      n.children.head? = some keyword →
      Contributes includeExports enclosing n
        ⟨n.items.filterMap (Entity.ofDeclarator? enclosing keyword.kind), none⟩
  | classBody : n.kind = "class_body" →
      Contributes includeExports enclosing n
        ⟨n.items.filterMap (Entity.ofMember? enclosing), none⟩
  | other : Contributes includeExports enclosing n ⟨[], none⟩

theorem Node.contributes_of_eq_ok {includeExports : Bool} {enclosing : Option Text} {n : Node}
    {c : Contribution} (h : n.contribution includeExports enclosing = .ok c) :
    n.Contributes includeExports enclosing c := by
  unfold Node.contribution at h
  split at h
  · cases h
    exact .program ‹_›
  · split at h
    · cases h
      exact .exported ‹_›
    · split at h
      · obtain ⟨name, hname, h⟩ := bind_eq_ok_iff.1 h
        cases h
        exact .classDecl ‹_› hname
      · split at h
        · cases h
          exact .function ‹_›
        · split at h
          · split at h
            · cases h
            · cases h
              exact .declarators ‹_› ‹_›
          · split at h
            · cases h
              exact .classBody ‹_›
            · cases h
              exact .other

/-- A node lists methods of the class it stands in only, and has its children looked at in a
class only if it stands in that class or lists it. -/
theorem Node.contribution_spec {includeExports : Bool} {enclosing : Option Text} {n : Node}
    {c : Contribution} (h : n.contribution includeExports enclosing = .ok c) :
    (∀ e ∈ c.entities, e.kind = .method → e.enclosing = enclosing) ∧
      ∀ name, c.inside = some (some name) →
        enclosing = some name ∨ ∃ e ∈ c.entities, e.DeclaresClass name := by
  cases contributes_of_eq_ok h with
  | program => simp
  | exported => simp
  | classDecl _ hname =>
    -- A class lists itself, and its children are looked at under its name.
    refine ⟨by simp, ?_⟩
    rintro _ ⟨⟩
    exact Or.inr ⟨_, List.mem_singleton.2 rfl, rfl, Entity.name_of_textOf hname⟩
  | function => simp
  | declarators =>
    refine ⟨fun e he hkind => ?_, by simp⟩
    obtain ⟨i, -, hi⟩ := List.mem_filterMap.1 he
    rw [Entity.ofDeclarator?_kind hi] at hkind
    cases hkind
  | classBody =>
    refine ⟨fun e he _ => ?_, by simp⟩
    obtain ⟨i, -, hi⟩ := List.mem_filterMap.1 he
    exact Entity.ofMember?_enclosing hi
  | other => simp

/-- A node lists itself or items of its own. -/
theorem Node.contribution_nodes {includeExports : Bool} {enclosing : Option Text} {n : Node}
    {c : Contribution} (h : n.contribution includeExports enclosing = .ok c) :
    ∀ e ∈ c.entities, e.node = n ∨ .node e.node ∈ n.items := by
  intro e he
  cases contributes_of_eq_ok h with
  | program => cases he
  | exported => cases he
  | classDecl =>
    rw [List.mem_singleton.1 he]
    exact Or.inl rfl
  | function =>
    rw [List.mem_singleton.1 he]
    exact Or.inl rfl
  | declarators =>
    obtain ⟨i, hi, hof⟩ := List.mem_filterMap.1 he
    exact Or.inr (Entity.ofDeclarator?_node hof ▸ hi)
  | classBody =>
    obtain ⟨i, hi, hof⟩ := List.mem_filterMap.1 he
    exact Or.inr (Entity.ofMember?_node hof ▸ hi)
  | other => cases he

theorem Frame.contribution_spec {includeExports : Bool} {f : Frame} {c : Contribution}
    (h : f.contribution includeExports = .ok c) :
    (∀ e ∈ c.entities, e.kind = .method → e.enclosing = f.enclosing) ∧
      ∀ name, c.inside = some (some name) →
        f.enclosing = some name ∨ ∃ e ∈ c.entities, e.DeclaresClass name := by
  unfold Frame.contribution at h
  split at h
  · exact Node.contribution_spec h
  · cases h
    simp

/-! ## The whole tree -/

/-- The frames that a frame leaves on the stack: those of its children, if they are looked at. -/
def Frame.opened (f : Frame) (c : Contribution) : List Frame :=
  match c.inside with
  | some enclosing => f.item.frames enclosing
  | none => []

theorem Frame.item_of_mem_opened {f g : Frame} {c : Contribution} (h : g ∈ f.opened c) :
    g.item ∈ f.item.children := by
  unfold Frame.opened at h
  split at h
  · obtain ⟨i, hi, rfl⟩ := List.mem_map.1 h
    exact hi
  · cases h

/-- The frames that a frame opens weigh less than it. -/
theorem Frame.weight_opened (f : Frame) (c : Contribution) :
    stackWeight ((f.opened c).map (·.item)) < f.item.weight := by
  unfold Frame.opened
  rw [Item.weight_eq f.item]
  cases c.inside with
  | none => exact Nat.lt_add_right _ Nat.one_pos
  | some enclosing =>
    have hitems : (f.item.frames enclosing).map (·.item) = f.item.children := by
      rw [Item.frames, List.map_map]
      exact List.map_id f.item.children
    rw [hitems]
    omega

/-- One frame of the stack. -/
theorem discoverStack_cons {includeExports : Bool} {f : Frame} {c : Contribution}
    (hc : f.contribution includeExports = .ok c) (stack : List Frame) :
    discoverStack includeExports (f :: stack) =
      (discoverStack includeExports (f.opened c ++ stack)).map (c.entities ++ ·) := by
  rw [discoverStack, hc, Frame.opened]
  cases hinside : c.inside with
  | none =>
    simp only [Bind.bind, Except.bind, hinside, List.nil_append]
    cases discoverStack includeExports stack with
    | error fault => rfl
    | ok rest => rfl
  | some enclosing =>
    simp only [Bind.bind, Except.bind, hinside]
    cases discoverStack includeExports (f.item.frames enclosing ++ stack) with
    | error fault => rfl
    | ok rest => rfl

theorem discoverStack_cons_eq_ok {includeExports : Bool} {f : Frame} {stack : List Frame}
    {entities : List Entity} (h : discoverStack includeExports (f :: stack) = .ok entities) :
    ∃ c rest, f.contribution includeExports = .ok c ∧ entities = c.entities ++ rest ∧
      ((∃ enclosing, c.inside = some enclosing ∧
          discoverStack includeExports (f.item.frames enclosing ++ stack) = .ok rest) ∨
        discoverStack includeExports stack = .ok rest) := by
  rw [discoverStack] at h
  obtain ⟨c, hc, h⟩ := bind_eq_ok_iff.1 h
  split at h
  · rename_i enclosing hinside
    obtain ⟨rest, hrest, h⟩ := bind_eq_ok_iff.1 h
    cases h
    exact ⟨c, rest, hc, rfl, Or.inl ⟨enclosing, hinside, hrest⟩⟩
  · obtain ⟨rest, hrest, h⟩ := bind_eq_ok_iff.1 h
    cases h
    exact ⟨c, rest, hc, rfl, Or.inr hrest⟩

/-- What a search that returns has in common with its stack, by what each frame contributes to it
and leaves on the stack. -/
theorem discoverStack_induction {includeExports : Bool} {motive : List Frame → List Entity → Prop}
    (nil : motive [] [])
    (cons : ∀ f stack c rest, f.contribution includeExports = .ok c →
      motive (f.opened c ++ stack) rest → motive (f :: stack) (c.entities ++ rest))
    {stack : List Frame} {entities : List Entity}
    (h : discoverStack includeExports stack = .ok entities) : motive stack entities := by
  induction stack using discoverStack.induct generalizing entities with
  | case1 =>
    rw [discoverStack] at h
    cases h
    exact nil
  | case2 f stack ihInside ihNext =>
    cases hc : f.contribution includeExports with
    | error fault =>
      rw [discoverStack, hc] at h
      cases h
    | ok c =>
      rw [discoverStack_cons hc] at h
      cases hrest : discoverStack includeExports (f.opened c ++ stack) with
      | error fault =>
        rw [hrest] at h
        cases h
      | ok rest =>
        rw [hrest] at h
        cases h
        refine cons f stack c rest hc ?_
        unfold Frame.opened at hrest ⊢
        cases hinside : c.inside with
        | none =>
          rw [hinside] at hrest
          exact ihNext hrest
        | some enclosing =>
          rw [hinside] at hrest
          exact ihInside enclosing hrest

/-- As long as no frame stands in a class of this name, its methods are still to come behind it. -/
theorem methodsFollow_of_discoverStack {includeExports : Bool} {stack : List Frame}
    {entities : List Entity} {name : Text} (hstack : ∀ f ∈ stack, f.enclosing ≠ some name)
    (h : discoverStack includeExports stack = .ok entities) : MethodsFollow name entities := by
  induction stack using discoverStack.induct generalizing entities with
  | case1 =>
    rw [discoverStack] at h
    cases h
    trivial
  | case2 f stack ihInside ihNext =>
    obtain ⟨c, rest, hc, rfl, hrest⟩ := discoverStack_cons_eq_ok h
    obtain ⟨hmethods, hinside⟩ := Frame.contribution_spec hc
    have hf := hstack f List.mem_cons_self
    have htail : ∀ g ∈ stack, g.enclosing ≠ some name :=
      fun g hg => hstack g (List.mem_cons_of_mem _ hg)
    refine MethodsFollow.append ?_ ?_
    · rintro e he ⟨hkind, henclosing⟩
      rw [hmethods e he hkind] at henclosing
      exact hf henclosing
    · by_cases hclass : ∃ e ∈ c.entities, e.DeclaresClass name
      · exact Or.inl hclass
      · refine Or.inr ?_
        rcases hrest with ⟨enclosing, hc', hrest⟩ | hrest
        · refine ihInside enclosing ?_ hrest
          intro g hg
          rcases List.mem_append.1 hg with hg | hg
          · -- Its children stand in the class only if the frame does or lists the class.
            obtain ⟨i, -, rfl⟩ := List.mem_map.1 hg
            rintro rfl
            rcases hinside name hc' with hsame | hdeclared
            · exact hf hsame
            · exact hclass hdeclared
          · exact htail g hg
        · exact ihNext htail hrest

/-- A class is discovered before its methods are. -/
theorem methodsFollow_of_discover {root : Node} {includeExports : Bool} {entities : List Entity}
    (h : discover root includeExports = .ok entities) (name : Text) :
    MethodsFollow name entities := by
  refine methodsFollow_of_discoverStack ?_ h
  intro f hf
  rw [List.mem_singleton.1 hf]
  simp

end HeaderCatalog
