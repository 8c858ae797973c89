import HeaderCatalog.Proofs.Discovery
import HeaderCatalog.Proofs.SourceTrees
import HeaderCatalog.Proofs.Totality

/-!
# HeaderCatalog.Proofs.WellFormedTrees — no failure on well-formed trees

A tree is well-formed if its declarations have names and keywords, class bodies stand in classes,
arrow functions have parameters in one of the two ways, and kinds and texts have characters
(`Node.WellFormed`). Trees of a parser are such trees. On them the assembly of a catalogue never
fails, whatever text it is given, as long as the text and the literals of the headers do not grow
too long when their tabs are expanded; it only leaves entities out:

* discovery returns, and what it lists stands in the tree (`discoverStack_ok`);
* the header of a listed entity fails exactly as its parameters do, and only for a parameter that
  is no plain name (`Entity.ListedIn.header_cases`);
* all literals of its header have characters (`Entity.ListedIn.legible_of_quotes`), so the run
  cannot fail at it (`Entity.ListedIn.workable`).
-/

namespace HeaderCatalog

/-! ## Texts that normalizing does not empty -/

/-- The text has a character that is no carriage return. -/
def Text.Legible (text : Text) : Prop :=
  text.filter (· != '\r') ≠ []

instance (text : Text) : Decidable text.Legible :=
  inferInstanceAs (Decidable (text.filter (· != '\r') ≠ []))

theorem Text.Legible.ne_nil {text : Text} (h : text.Legible) : text ≠ [] := by
  rintro rfl
  exact h rfl

theorem Text.Legible.normalize_ne_nil {text : Text} (h : text.Legible) (tabSize : Nat) :
    text.normalize tabSize ≠ [] := by
  intro hnil
  rcases List.exists_cons_of_ne_nil h with ⟨c, cs, hcs⟩
  rw [normalize, hcs, List.flatMap_cons, List.append_eq_nil_iff] at hnil
  have hc := hnil.1
  unfold expandTab at hc
  split at hc
  · rename_i htab
    rw [List.replicate_eq_nil_iff] at hc
    omega
  · cases hc

/-! ## Well-formed trees -/

namespace Node

/-- The kinds of declarations that have names. -/
def declarationKinds : List String :=
  "class_declaration" :: "method_definition" :: "variable_declarator" :: Entity.functionKinds

/-- What a node of a well-formed tree is like. -/
@[mk_iff]
structure WellFormed (n : Node) : Prop where
  kind : Text.Legible n.kind.toList
  text : ∃ t, n.text = .ok t ∧ t.Legible
  named : declarationKinds.contains n.kind = true → (n.fieldChild? "name").isSome = true
  keyword : Entity.variableKinds.contains n.kind = true → n.children ≠ []
  classBody : ∀ c ∈ n.children, c.kind = "class_body" →
    n.kind = "class_declaration" ∧ c.field = some "body"
  arrow : n.kind = "arrow_function" →
    (n.fieldChild? "parameters").isSome = ! (n.fieldChild? "parameter").isSome
  bare : n.kind = "arrow_function" →
    ∀ single ∈ n.fieldChild? "parameter", single.kind = "identifier"

/-- A program all of whose nodes are well-formed. -/
@[mk_iff]
structure WellFormedTree (root : Node) : Prop where
  program : root.kind = "program"
  nodes : ∀ n ∈ root.subtree, n.WellFormed

instance (n : Node) : Decidable (∃ t, n.text = .ok t ∧ t.Legible) :=
  match h : n.text with
  | .ok t => decidable_of_iff t.Legible (by simp)
  | .error _ => .isFalse (by simp)

instance (n : Node) : Decidable n.WellFormed :=
  decidable_of_iff _ n.wellFormed_iff.symm

instance (root : Node) : Decidable root.WellFormedTree :=
  decidable_of_iff _ root.wellFormedTree_iff.symm

/-- An item that is a node is a child of the node whose items are listed. -/
theorem mem_children_of_mem_items {n c : Node} (h : Item.node c ∈ n.items) : c ∈ n.children := by
  unfold items at h
  split at h
  · simp at h
  · split at h
    · simp at h
    · split at h
      · simp at h
      · rcases List.mem_flatMap.1 (mem_of_mem_fillAll h) with ⟨slot, -, hslot⟩
        cases slot with
        | named =>
          rcases List.mem_map.1 hslot with ⟨d, hd, ⟨⟩⟩
          exact mem_children_of_mem_namedChildren hd
        | field name =>
          have hfirst := Item.ofOption_eq_node (List.mem_singleton.1 hslot).symm
          exact mem_children_of_fieldChild? hfirst
        | firstOf names =>
          have hfirst := Item.ofOption_eq_node (List.mem_singleton.1 hslot).symm
          rcases List.exists_of_findSome?_eq_some hfirst with ⟨name, -, hname⟩
          exact mem_children_of_fieldChild? hname
        | allOf name =>
          rcases List.mem_map.1 hslot with ⟨d, hd, ⟨⟩⟩
          exact mem_children_of_mem_fieldChildren hd
        | ofKind kind =>
          have hfirst := Item.ofOption_eq_node (List.mem_singleton.1 hslot).symm
          exact mem_children_of_mem_namedChildren (List.mem_of_find?_eq_some hfirst)

namespace WellFormedTree

variable {root n : Node} (hroot : root.WellFormedTree) (hn : n ∈ root.subtree)
include hroot hn

/-- The texts of a well-formed tree can be read, and have characters. -/
theorem text_ok : ∃ t, n.text = .ok t := by
  rcases (hroot.nodes n hn).text with ⟨t, ht, -⟩
  exact ⟨t, ht⟩

theorem legible {t : Text} (ht : n.text = .ok t) : t.Legible := by
  rcases (hroot.nodes n hn).text with ⟨t', ht', hlegible⟩
  rw [ht] at ht'
  cases ht'
  exact hlegible

theorem name_ok (hkind : declarationKinds.contains n.kind = true) :
    ∃ name, textOf (n.fieldChild? "name") = .ok name := by
  have hsome := (hroot.nodes n hn).named hkind
  rcases Option.isSome_iff_exists.1 hsome with ⟨c, hc⟩
  rw [hc]
  exact hroot.text_ok (mem_subtree_of_mem_children hn (mem_children_of_fieldChild? hc))

theorem legible_name {name : Text} (hname : textOf (n.fieldChild? "name") = .ok name) :
    name.Legible := by
  cases hc : n.fieldChild? "name" with
  | none =>
    rw [hc] at hname
    cases hname
  | some c =>
    rw [hc] at hname
    exact hroot.legible (mem_subtree_of_mem_children hn (mem_children_of_fieldChild? hc)) hname

end WellFormedTree
end Node

/-! ## What discovery lists -/

/-- The entity stands in the tree: its node is of its kind, and the classes it may stand in have
names with characters. A method stands in a class. -/
structure Entity.ListedIn (e : Entity) (root : Node) : Prop where
  node : e.node ∈ root.subtree
  enclosing : ∀ name, e.enclosing = some name → name.Legible
  ofClass : e.kind = .classDecl → e.node.kind = "class_declaration"
  ofFunction : e.kind = .function → Entity.functionKinds.contains e.node.kind = true
  ofVariable : e.kind = .variable → e.node.kind = "variable_declarator" ∧
    (e.node.fieldChild? "value").isSome = true
  ofMethod : e.kind = .method → e.node.kind = "method_definition" ∧ e.enclosing ≠ none

/-- The frame stands in the tree. The body of a class waits under the name of its class. -/
structure Frame.StandsIn (f : Frame) (root : Node) : Prop where
  node : ∀ n, f.item = .node n → n ∈ root.subtree
  enclosing : ∀ name, f.enclosing = some name → name.Legible
  classBody : ∀ n, f.item = .node n → n.kind = "class_body" → f.enclosing ≠ none

theorem Entity.listedIn_of_declarator {root n : Node} (hn : n ∈ root.subtree)
    {enclosing : Option Text} (hlegible : ∀ name, enclosing = some name → name.Legible)
    {keyword : String} {e : Entity}
    (h : e ∈ n.items.filterMap (Entity.ofDeclarator? enclosing keyword)) : e.ListedIn root := by
  rcases List.mem_filterMap.1 h with ⟨i, hi, he⟩
  unfold Entity.ofDeclarator? at he
  split at he
  · cases he
  · rename_i c
    have hc := Node.mem_subtree_of_mem_children hn (Node.mem_children_of_mem_items hi)
    split at he
    · rename_i hkind
      split at he
      · rename_i value hvalue
        split at he
        · cases he
          refine ⟨hc, hlegible, ?_, ?_, fun _ => ⟨hkind, by simp [hvalue]⟩, ?_⟩
          · intro hother
            cases hother
          · intro hother
            cases hother
          · intro hother
            cases hother
        · cases he
      · cases he
    · cases he

theorem Entity.listedIn_of_member {root n : Node} (hn : n ∈ root.subtree) {enclosing : Option Text}
    (hlegible : ∀ name, enclosing = some name → name.Legible) (hclass : enclosing ≠ none)
    {e : Entity} (h : e ∈ n.items.filterMap (Entity.ofMember? enclosing)) : e.ListedIn root := by
  rcases List.mem_filterMap.1 h with ⟨i, hi, he⟩
  unfold Entity.ofMember? at he
  split at he
  · cases he
  · rename_i c
    have hc := Node.mem_subtree_of_mem_children hn (Node.mem_children_of_mem_items hi)
    split at he
    · rename_i hkind
      cases he
      refine ⟨hc, hlegible, ?_, ?_, ?_, fun _ => ⟨hkind, hclass⟩⟩
      · intro hother
        cases hother
      · intro hother
        cases hother
      · intro hother
        cases hother
    · cases he

section Discovery

variable {root : Node} (hroot : root.WellFormedTree)
include hroot

/-- The children of a node wait in the tree. Only the children of a class include a class body, so
only these need a class to wait in. -/
theorem Frame.standsIn_frames {n : Node} (hn : n ∈ root.subtree) {enclosing : Option Text}
    (hlegible : ∀ name, enclosing = some name → name.Legible)
    (hclass : n.kind = "class_declaration" → enclosing ≠ none) :
    ∀ g ∈ (Item.node n).frames enclosing, g.StandsIn root := by
  intro g hg
  rcases List.mem_map.1 hg with ⟨i, hi, rfl⟩
  have hchild : ∀ c, i = .node c → c ∈ n.children := by
    rintro c rfl
    exact Node.mem_children_of_mem_items hi
  constructor
  · intro c hc
    exact Node.mem_subtree_of_mem_children hn (hchild c hc)
  · exact hlegible
  · intro c hc hbody
    exact hclass ((hroot.nodes n hn).classBody c (hchild c hc) hbody).1

/-- One frame: it contributes, and what it lists and puts on the stack stands in the tree. -/
theorem Frame.StandsIn.contribution_ok {f : Frame} (hf : f.StandsIn root) (includeExports : Bool) :
    ∃ c, f.contribution includeExports = .ok c ∧ (∀ e ∈ c.entities, e.ListedIn root) ∧
      ∀ enclosing, c.inside = some enclosing → ∀ g ∈ f.item.frames enclosing, g.StandsIn root := by
  rcases f with ⟨i, enclosing⟩
  cases i with
  | marker m body => exact ⟨_, rfl, by simp, by simp⟩
  | node n =>
    have hn := hf.node n rfl
    have hlegible := hf.enclosing
    have hwf := hroot.nodes n hn
    simp only [Frame.contribution, Node.contribution]
    split
    · -- a program: nothing that stands in it stands in a class
      rename_i hkind
      refine ⟨_, rfl, by simp, ?_⟩
      rintro _ ⟨⟩
      refine Frame.standsIn_frames hroot hn nofun fun hclass => ?_
      rw [hkind] at hclass
      exact absurd hclass (by decide)
    · split
      · -- an export: what stands in it stands where the export does
        rename_i hkind
        refine ⟨_, rfl, by simp, ?_⟩
        intro inside hinside
        have hsame : inside = enclosing := by
          simp only at hinside
          split at hinside
          · exact (Option.some.inj hinside).symm
          · cases hinside
        rw [hsame]
        refine Frame.standsIn_frames hroot hn hlegible fun hclass => ?_
        rw [hkind] at hclass
        exact absurd hclass (by decide)
      · split
        · -- a class: its name can be read, and what stands in it stands in that class
          rename_i hkind
          rcases hroot.name_ok hn (by rw [hkind]; decide) with ⟨name, hname⟩
          have hlegible' := hroot.legible_name hn hname
          refine ⟨_, bind_eq_ok_iff.2 ⟨name, hname, rfl⟩, ?_, ?_⟩
          · intro e he
            rw [List.mem_singleton.1 he]
            exact ⟨hn, nofun, fun _ => hkind, nofun, nofun, nofun⟩
          · rintro _ ⟨⟩
            refine Frame.standsIn_frames hroot hn ?_ (fun _ => by simp)
            rintro _ ⟨⟩
            exact hlegible'
        · split
          · rename_i hkind
            refine ⟨_, rfl, ?_, by simp⟩
            intro e he
            rw [List.mem_singleton.1 he]
            exact ⟨hn, hlegible, nofun, fun _ => hkind, nofun, nofun⟩
          · split
            · rename_i hkind
              rcases List.exists_cons_of_ne_nil (hwf.keyword hkind) with ⟨keyword, rest, hchildren⟩
              rw [hchildren]
              exact ⟨_, rfl, fun e he => Entity.listedIn_of_declarator hn hlegible he, by simp⟩
            · split
              · rename_i hkind
                have hclass := hf.classBody n rfl hkind
                exact ⟨_, rfl, fun e he => Entity.listedIn_of_member hn hlegible hclass he,
                  by simp⟩
              · exact ⟨_, rfl, by simp, by simp⟩

/-- The whole stack, frame by frame. -/
theorem discoverStack_ok (includeExports : Bool) {stack : List Frame}
    (hstack : ∀ f ∈ stack, f.StandsIn root) :
    ∃ entities, discoverStack includeExports stack = .ok entities ∧
      ∀ e ∈ entities, e.ListedIn root := by
  induction stack using discoverStack.induct with
  | case1 =>
    rw [discoverStack]
    exact ⟨[], rfl, by simp⟩
  | case2 f stack ihInside ihNext =>
    rcases (hstack f List.mem_cons_self).contribution_ok hroot includeExports with
      ⟨c, hc, hlisted, hframes⟩
    have htail : ∀ g ∈ stack, g.StandsIn root := fun g hg => hstack g (List.mem_cons_of_mem _ hg)
    have hrest : ∃ rest, discoverStack includeExports (f.opened c ++ stack) = .ok rest ∧
        ∀ e ∈ rest, e.ListedIn root := by
      unfold Frame.opened
      cases hinside : c.inside with
      | none => exact ihNext htail
      | some enclosing =>
        refine ihInside enclosing fun g hg => ?_
        rcases List.mem_append.1 hg with hg | hg
        · exact hframes enclosing hinside g hg
        · exact htail g hg
    rcases hrest with ⟨rest, hrest, hmore⟩
    refine ⟨c.entities ++ rest, ?_, ?_⟩
    · rw [discoverStack_cons hc, hrest]
      rfl
    · intro e he
      rcases List.mem_append.1 he with he | he
      · exact hlisted e he
      · exact hmore e he

theorem discover_ok (includeExports : Bool) :
    ∃ entities, discover root includeExports = .ok entities ∧ ∀ e ∈ entities, e.ListedIn root := by
  refine discoverStack_ok hroot includeExports ?_
  intro f hf
  rw [List.mem_singleton.1 hf]
  refine ⟨?_, nofun, ?_⟩
  · rintro n ⟨⟩
    exact root.mem_subtree_self
  · rintro n ⟨⟩ hbody
    rw [hroot.program] at hbody
    exact absurd hbody (by decide)

end Discovery

/-! ## Parameters -/

/-- The names could be read and have characters, or one of them is no plain name. -/
def Readable (names : Except Fault (List Text)) : Prop :=
  (∃ ps, names = .ok ps ∧ ∀ t ∈ ps, t.Legible) ∨ ∃ t, names = .error (.unsupportedParameter t)

theorem Readable.legible {names : Except Fault (List Text)} (h : Readable names) {ps : List Text}
    (hps : names = .ok ps) : ∀ t ∈ ps, t.Legible := by
  rcases h with ⟨ps', hps', hlegible⟩ | ⟨t, ht⟩
  · rw [hps] at hps'
    cases hps'
    exact hlegible
  · rw [hps] at ht
    cases ht

theorem plainNames_readable {nodes : List Node}
    (h : ∀ n ∈ nodes, ∃ t, n.text = .ok t ∧ t.Legible) : Readable (plainNames nodes) := by
  induction nodes with
  | nil => exact Or.inl ⟨[], rfl, by simp⟩
  | cons n rest ih =>
    rcases h n List.mem_cons_self with ⟨t, ht, hlegible⟩
    have hrest := ih fun m hm => h m (List.mem_cons_of_mem _ hm)
    unfold plainNames
    split
    · exact hrest
    · split
      · rw [ht]
        rcases hrest with ⟨ps, hps, hall⟩ | ⟨t', ht'⟩
        · rw [hps]
          exact Or.inl ⟨t :: ps, rfl, List.forall_mem_cons.2 ⟨hlegible, hall⟩⟩
        · rw [ht']
          exact Or.inr ⟨t', rfl⟩
      · rw [ht]
        exact Or.inr ⟨t, rfl⟩

section Headers

variable {root : Node} (hroot : root.WellFormedTree)
include hroot

theorem parameterNames_readable {list : Option Node} (h : ∀ n, list = some n → n ∈ root.subtree) :
    Readable (parameterNames list) := by
  cases list with
  | none => exact Or.inl ⟨[], rfl, by simp⟩
  | some n =>
    have hn := h n rfl
    unfold parameterNames
    split
    · rename_i m hm
      cases hm
    · rename_i m hm
      cases hm
      split
      · rcases (hroot.nodes n hn).text with ⟨t, ht, hlegible⟩
        rw [ht]
        exact Or.inl ⟨[t], rfl, by simpa using hlegible⟩
      · refine plainNames_readable fun c hc => ?_
        have hchild := Node.mem_children_of_mem_namedChildren hc
        exact (hroot.nodes c (Node.mem_subtree_of_mem_children hn hchild)).text

theorem Node.parameters_readable {n : Node} (hn : n ∈ root.subtree) : Readable n.parameters := by
  unfold Node.parameters
  split
  · rename_i params hparams
    refine parameterNames_readable hroot ?_
    rintro c ⟨⟩
    exact Node.mem_subtree_of_mem_children hn (Node.mem_children_of_fieldChild? hparams)
  · refine parameterNames_readable hroot fun c hc => ?_
    exact Node.mem_subtree_of_mem_children hn (Node.mem_children_of_fieldChild? hc)

/-- A getter has no parameters to read, and a setter only the first. -/
theorem Node.methodParameters_readable {n : Node} (hn : n ∈ root.subtree) :
    Readable n.methodParameters := by
  unfold Node.methodParameters
  split
  · exact Or.inl ⟨[], rfl, by simp⟩
  · rcases Node.parameters_readable hroot hn with ⟨ps, hps, hall⟩ | ⟨t, ht⟩
    · rw [hps]
      refine Or.inl ⟨_, rfl, ?_⟩
      split
      · exact fun t ht => hall t (List.mem_of_mem_take ht)
      · exact hall
    · rw [ht]
      exact Or.inr ⟨t, rfl⟩

/-! ## Headers fail as parameters do -/

/-- Header and parameters are both there, or both fail for the same parameter. -/
def Entity.Agrees (e : Entity) : Prop :=
  (∃ p params, e.header = .ok p ∧ e.parameters = .ok params) ∨
    ∃ t, e.header = .error (.unsupportedParameter t) ∧
      e.parameters = .error (.unsupportedParameter t)

namespace Entity.ListedIn

variable {e : Entity} (he : e.ListedIn root)
include he

theorem name_ok : ∃ name, textOf (e.node.fieldChild? "name") = .ok name := by
  refine hroot.name_ok he.node ?_
  cases hkind : e.kind with
  | classDecl =>
    rw [he.ofClass hkind]
    decide
  | function =>
    have hfunction := he.ofFunction hkind
    simp only [Node.declarationKinds, List.contains_cons, hfunction, Bool.or_true]
  | «variable» =>
    rw [(he.ofVariable hkind).1]
    decide
  | method =>
    rw [(he.ofMethod hkind).1]
    decide

theorem agrees_function (hkind : e.kind = .function) : e.Agrees := by
  rcases he.name_ok hroot with ⟨name, hname⟩
  unfold Entity.Agrees
  simp only [Entity.header, Entity.parameters, hkind, Node.functionPattern, hname]
  rcases Node.parameters_readable hroot he.node with ⟨ps, hps, -⟩ | ⟨t, ht⟩
  · rw [hps]
    exact Or.inl ⟨_, _, rfl, rfl⟩
  · rw [ht]
    exact Or.inr ⟨t, rfl, rfl⟩

theorem agrees_method (hkind : e.kind = .method) : e.Agrees := by
  rcases he.name_ok hroot with ⟨name, hname⟩
  unfold Entity.Agrees
  simp only [Entity.header, Entity.parameters, hkind, Node.methodPattern, hname]
  rcases Node.methodParameters_readable hroot he.node with ⟨ps, hps, -⟩ | ⟨t, ht⟩
  · rw [hps]
    exact Or.inl ⟨_, _, rfl, rfl⟩
  · rw [ht]
    exact Or.inr ⟨t, rfl, rfl⟩

theorem agrees_class (hkind : e.kind = .classDecl) : e.Agrees := by
  rcases he.name_ok hroot with ⟨name, hname⟩
  unfold Entity.Agrees
  simp only [Entity.header, Entity.parameters, hkind, Node.classPattern, hname]
  cases hbase : (e.node.namedChildren.find? (·.kind == "class_heritage")).bind
      (·.namedChildren.head?) with
  | none => exact Or.inl ⟨_, _, rfl, rfl⟩
  | some base =>
    rcases Option.bind_eq_some_iff.1 hbase with ⟨heritage, hheritage, hhead⟩
    have hclass := Node.mem_children_of_mem_namedChildren (List.mem_of_find?_eq_some hheritage)
    have hchild := Node.mem_children_of_mem_namedChildren (List.mem_of_head? hhead)
    have hmem := Node.mem_subtree_of_mem_children
      (Node.mem_subtree_of_mem_children he.node hclass) hchild
    rcases hroot.text_ok hmem with ⟨t, ht⟩
    simp only [ht]
    exact Or.inl ⟨_, _, rfl, rfl⟩

omit hroot in
theorem value_mem {value : Node} (hvalue : e.node.fieldChild? "value" = some value) :
    value ∈ root.subtree :=
  Node.mem_subtree_of_mem_children he.node (Node.mem_children_of_fieldChild? hvalue)

/-- An arrow function has its parameters in one of two ways; the one that its header asks for is
also the one that its parameters are read from. -/
theorem agrees_variable (hkind : e.kind = .variable) : e.Agrees := by
  rcases he.name_ok hroot with ⟨name, hname⟩
  rcases Option.isSome_iff_exists.1 (he.ofVariable hkind).2 with ⟨value, hvalue⟩
  have hmem := he.value_mem hvalue
  have hwf := hroot.nodes value hmem
  have hparams := Node.parameters_readable hroot hmem
  unfold Entity.Agrees
  simp only [Entity.header, Entity.parameters, hkind, Node.variablePattern, hname, hvalue]
  by_cases harrow : value.kind = "arrow_function"
  · cases hsingle : value.fieldChild? "parameter" with
    | some single =>
      have hnone : value.fieldChild? "parameters" = none := by
        have hone := hwf.arrow harrow
        simpa [hsingle] using hone
      have hchild := Node.mem_children_of_fieldChild? hsingle
      rcases hroot.text_ok (Node.mem_subtree_of_mem_children hmem hchild) with ⟨t, ht⟩
      have hidentifier := hwf.bare harrow single hsingle
      have hread : value.parameters = .ok [t] := by
        simp only [Node.parameters, hnone, hsingle, parameterNames, hidentifier, if_true, ht]
        rfl
      simp only [harrow, if_true, Node.arrowPattern, hsingle, ht, hread]
      exact Or.inl ⟨_, _, rfl, rfl⟩
    | none =>
      simp only [harrow, if_true, Node.arrowPattern, hsingle]
      rcases hparams with ⟨ps, hps, -⟩ | ⟨t, ht⟩
      · rw [hps]
        exact Or.inl ⟨_, _, rfl, rfl⟩
      · rw [ht]
        exact Or.inr ⟨t, rfl, rfl⟩
  · simp only [harrow, if_false, Node.functionValuePattern]
    cases hfield : value.fieldChild? "name" with
    | some n =>
      have hchild := Node.mem_children_of_fieldChild? hfield
      rcases hroot.text_ok (Node.mem_subtree_of_mem_children hmem hchild) with ⟨t, ht⟩
      simp only [ht]
      rcases hparams with ⟨ps, hps, -⟩ | ⟨t', ht'⟩
      · rw [hps]
        exact Or.inl ⟨_, _, rfl, rfl⟩
      · rw [ht']
        exact Or.inr ⟨t', rfl, rfl⟩
    | none =>
      rcases hparams with ⟨ps, hps, -⟩ | ⟨t, ht⟩
      · rw [hps]
        exact Or.inl ⟨_, _, rfl, rfl⟩
      · rw [ht]
        exact Or.inr ⟨t, rfl, rfl⟩

theorem agrees : e.Agrees := by
  cases hkind : e.kind with
  | classDecl => exact he.agrees_class hroot hkind
  | function => exact he.agrees_function hroot hkind
  | «variable» => exact he.agrees_variable hroot hkind
  | method => exact he.agrees_method hroot hkind

/-! ## Literals -/

theorem legible_of_parameters {params : List Text} (h : e.parameters = .ok (some params)) :
    ∀ t ∈ params, t.Legible := by
  unfold Entity.parameters at h
  split at h
  · cases h
  · split at h
    · rename_i value hvalue
      rcases bind_eq_ok_iff.1 h with ⟨ps, hps, ⟨⟩⟩
      exact (Node.parameters_readable hroot (he.value_mem hvalue)).legible hps
    · cases h
  · rcases bind_eq_ok_iff.1 h with ⟨ps, hps, ⟨⟩⟩
    exact (Node.methodParameters_readable hroot he.node).legible hps
  · rcases bind_eq_ok_iff.1 h with ⟨ps, hps, ⟨⟩⟩
    exact (Node.parameters_readable hroot he.node).legible hps

/-- Every text that the header quotes has characters. -/
theorem legible_of_quotes {t : Text} (h : e.Quotes t) : t.Legible := by
  cases h with
  | name hname => exact hroot.legible_name he.node hname
  | parameter hparams ht => exact he.legible_of_parameters hroot hparams t ht
  | bare _ hvalue hsingle ht =>
    have hmem := Node.mem_subtree_of_mem_children (he.value_mem hvalue)
      (Node.mem_children_of_fieldChild? hsingle)
    exact hroot.legible hmem ht
  | valueName _ hvalue hname ht =>
    have hmem := Node.mem_subtree_of_mem_children (he.value_mem hvalue)
      (Node.mem_children_of_fieldChild? hname)
    exact hroot.legible hmem ht
  | heritage _ hbase ht =>
    rcases Option.bind_eq_some_iff.1 hbase with ⟨heritage, hheritage, hhead⟩
    have hclass := Node.mem_children_of_mem_namedChildren (List.mem_of_find?_eq_some hheritage)
    have hchild := Node.mem_children_of_mem_namedChildren (List.mem_of_head? hhead)
    have hmem := Node.mem_subtree_of_mem_children
      (Node.mem_subtree_of_mem_children he.node hclass) hchild
    exact hroot.legible hmem ht
  | modifier _ hm =>
    rcases List.mem_map.1 hm with ⟨c, hc, rfl⟩
    have hbefore := (List.mem_filter.1 hc).1
    have hchild : c ∈ e.node.children := by
      split at hbefore
      · exact List.takeWhile_prefix _ |>.subset hbefore
      · exact hbefore
    exact (hroot.nodes c (Node.mem_subtree_of_mem_children he.node hchild)).kind

theorem literal_ne_nil {tabSize : Nat} {p : Pattern} (hp : e.pattern tabSize = .ok (.ok p)) :
    ∀ t ∈ p.tokens, t.literal ≠ [] := by
  have hmarks : ∀ t ∈ Pattern.marks, Text.Legible t := by decide
  rcases Entity.header_of_pattern hp with ⟨q, hq, rfl⟩
  have hquotes : ∀ t, e.Quotes t → t.Legible := fun t ht => he.legible_of_quotes hroot ht
  have hgrown : q.Grown Text.Legible := by
    rcases Entity.header_grown hmarks hquotes hq with ⟨r, hr, rfl | rfl⟩
    · exact hr.lit (by decide)
    · exact hr.lit (by decide)
  intro t ht
  rcases List.mem_map.1 ht with ⟨u, hu, rfl⟩
  exact (hgrown.ok_literal hmarks u hu).normalize_ne_nil tabSize

/-- A run cannot fail at an entity of a well-formed tree whose header can be normalized. -/
theorem workable {tabSize : Nat} (hheader : ∀ p, e.header = .ok p → p.Expands tabSize) :
    e.Workable tabSize := by
  rcases he.name_ok hroot with ⟨name, hname⟩
  have hagrees := he.agrees hroot
  constructor
  · exact ⟨name, Entity.name_of_textOf hname⟩
  · rcases hagrees with ⟨p, params, hp, -⟩ | ⟨t, ht, -⟩
    · exact ⟨_, Entity.pattern_eq_ok_iff.2 ⟨p, hp, hheader p hp, rfl⟩⟩
    · unfold Entity.pattern
      rw [ht]
      exact ⟨_, rfl⟩
  · intro p hp
    exact he.literal_ne_nil hroot hp
  · intro p hp
    rcases Entity.header_of_pattern hp with ⟨q, hq, -⟩
    rcases hagrees with ⟨-, params, -, hparams⟩ | ⟨t, ht, -⟩
    · exact ⟨params, hparams⟩
    · rw [hq] at ht
      cases ht
  · intro hkind
    rcases Option.ne_none_iff_exists'.1 (he.ofMethod hkind).2 with ⟨className, hclass⟩
    exact ⟨className, hclass, (he.enclosing className hclass).ne_nil⟩

/-- There is no pattern exactly if the parameters cannot be read, and for the same reason. -/
theorem pattern_eq_error_iff (tabSize : Nat) (parameter : Text) :
    e.pattern tabSize = .ok (.error parameter) ↔
      e.parameters = .error (.unsupportedParameter parameter) := by
  unfold Entity.pattern
  rcases he.agrees hroot with ⟨p, params, hp, hparams⟩ | ⟨t, ht, hparams⟩
  · rw [hp, hparams]
    constructor
    · intro h
      rcases bind_eq_ok_iff.1 h with ⟨q, -, h⟩
      cases h
    · intro h
      cases h
  · rw [ht, hparams]
    simp

end Entity.ListedIn
end Headers

/-- What can happen to the entities of a well-formed tree in a catalogue, whatever the text. -/
structure OnlyLeftOut (entities : List Entity) : Prop where
  /-- The catalogue is made, unless something that has to be normalized for it cannot be. -/
  returns : ∀ text settings, (∃ ds events, catalog entities text settings = .ok (ds, events)) ↔
    Normalizable entities text settings.tabSize
  /-- An entity has no pattern exactly if one of its parameters is no plain name. -/
  unmodelled : ∀ e ∈ entities, ∀ tabSize parameter,
    e.pattern tabSize = .ok (.error parameter) ↔
      e.parameters = .error (.unsupportedParameter parameter)

end HeaderCatalog
