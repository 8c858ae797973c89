import HeaderCatalog.Proofs.Discovery

/-!
# HeaderCatalog.Proofs.RecursiveDiscovery — discovery as a recursion over the tree

Discovery works off a stack. `Item.declarations` says what it has to find without one: the
declarations of an item are those of its children in order, with a case for each kind of node.

* `Search` is discovery between two rounds: the frames that still wait, and what was found so far.
* `Search.outcome_round`: a round does not change what was found followed by the declarations of the
  frames that wait, nor the fault that ends it. This is the invariant of the stack.
* `Search.weight_round`: a round makes the stack lighter. The weight of an item counts what is
  listed under it with repetitions, so it falls also where a slot lists a child a second time.
* `discover_eq_declarations`: so discovery ends, and it is the recursion over the tree.
-/

namespace HeaderCatalog

/-! ## Declarations by recursion -/

/-- What `f` gives for each element, one after another. The first fault ends it. -/
def gather {α : Type} (f : α → Except Fault (List Entity)) : List α → Except Fault (List Entity)
  | [] => .ok []
  | x :: xs => do
    let here ← f x
    let rest ← gather f xs
    return here ++ rest

/-- The node of an item; a marker is none. -/
def Item.node? : Item → Option Node
  | .node n => some n
  | .marker _ _ => none

namespace Node

/-- The listed children of one kind, in order. -/
def itemsOfKind (n : Node) (kind : String) : List Node :=
  (n.items.filterMap Item.node?).filter (·.kind == kind)

/-- The declarator makes its variable a function. -/
def hasFunctionValue (declarator : Node) : Bool :=
  (declarator.fieldChild? "value").any fun value => Entity.functionValueKinds.contains value.kind

/-- The function-valued variables of a declaration, with its first child as their keyword. -/
def functionVariables (n : Node) (enclosing : Option Text) : Except Fault (List Entity) :=
  match n.children.head? with
  | none => .error .childless
  | some keyword =>
    .ok (((n.itemsOfKind "variable_declarator").filter hasFunctionValue).map
      (⟨.variable, ·, enclosing, some keyword.kind⟩))

/-- The methods of the body of a class. -/
def methods (n : Node) (enclosing : Option Text) : List Entity :=
  (n.itemsOfKind "method_definition").map (⟨.method, ·, enclosing, none⟩)

end Node

/-- The declarations under an item that stands in `enclosing`. -/
def Item.declarations (includeExports : Bool) (i : Item) (enclosing : Option Text) :
    Except Fault (List Entity) :=
  match i with
  | .marker _ _ => .ok []
  | .node n =>
    let inside (scope : Option Text) : Except Fault (List Entity) :=
      gather (fun child => declarations includeExports child.1 scope) (Item.node n).children.attach
    if n.kind = "program" then inside none
    else if n.kind = "export_statement" then
      if includeExports then inside enclosing else .ok []
    else if n.kind = "class_declaration" then do
      let name ← textOf (n.fieldChild? "name")
      let members ← inside (some name)
      return ⟨.classDecl, n, none, none⟩ :: members
    else if Entity.functionKinds.contains n.kind then .ok [⟨.function, n, enclosing, none⟩]
    else if Entity.variableKinds.contains n.kind then n.functionVariables enclosing
    else if n.kind = "class_body" then .ok (n.methods enclosing)
    else .ok []
termination_by i.size
decreasing_by all_goals exact Item.size_lt_of_mem_children child.2

/-- Nothing in front of what was found. -/
theorem map_nil_append (found : Except Fault (List Entity)) : found.map ([] ++ ·) = found := by
  cases found with
  | error fault => rfl
  | ok entities => rfl

section Gather

variable {α β : Type} {f : α → Except Fault (List Entity)}

theorem gather_cons (x : α) (xs : List α) :
    gather f (x :: xs) = f x >>= fun here => (gather f xs).map (here ++ ·) :=
  bind_congr fun here => bind_pure_comp (here ++ ·) (gather f xs)

theorem gather_append (xs ys : List α) :
    gather f (xs ++ ys) = gather f xs >>= fun here => (gather f ys).map (here ++ ·) := by
  induction xs with
  | nil => exact (map_nil_append (gather f ys)).symm
  | cons x xs ih =>
    rw [List.cons_append, gather_cons, gather_cons, ih]
    cases f x with
    | error fault => rfl
    | ok here =>
      cases gather f xs with
      | error fault => rfl
      | ok more =>
        cases gather f ys with
        | error fault => rfl
        | ok rest => exact congrArg Except.ok (List.append_assoc here more rest).symm

theorem gather_singleton (x : α) : gather f [x] = f x := by
  rw [gather_cons]
  cases f x with
  | error fault => rfl
  | ok here => exact congrArg Except.ok (List.append_nil here)

theorem gather_map (g : β → α) (xs : List β) :
    gather f (xs.map g) = gather (fun x => f (g x)) xs := by
  induction xs with
  | nil => rfl
  | cons x xs ih => simp only [List.map_cons, gather, ih]

theorem gather_attach (xs : List α) : gather (fun x => f x.1) xs.attach = gather f xs := by
  rw [← gather_map (fun x : { x // x ∈ xs } => x.1), List.attach_map_subtype_val]

end Gather

/-! ## One frame -/

/-- The declarations under the item of a frame. -/
def Frame.declarations (includeExports : Bool) (f : Frame) : Except Fault (List Entity) :=
  f.item.declarations includeExports f.enclosing

/-- The declarations under a node, its children taken without the proofs that they are smaller. -/
theorem Item.declarations_node (includeExports : Bool) (n : Node) (enclosing : Option Text) :
    (Item.node n).declarations includeExports enclosing =
      if n.kind = "program" then gather (·.declarations includeExports none) n.items
      else if n.kind = "export_statement" then
        if includeExports then gather (·.declarations includeExports enclosing) n.items else .ok []
      else if n.kind = "class_declaration" then do
        let name ← textOf (n.fieldChild? "name")
        let members ← gather (·.declarations includeExports (some name)) n.items
        return ⟨.classDecl, n, none, none⟩ :: members
      else if Entity.functionKinds.contains n.kind then .ok [⟨.function, n, enclosing, none⟩]
      else if Entity.variableKinds.contains n.kind then n.functionVariables enclosing
      else if n.kind = "class_body" then .ok (n.methods enclosing)
      else .ok [] := by
  have hinside : ∀ scope, gather (fun child => Item.declarations includeExports child.1 scope)
      (Item.node n).children.attach = gather (·.declarations includeExports scope) n.items := by
    intro scope
    exact gather_attach (f := fun child => child.declarations includeExports scope) n.items
  rw [Item.declarations]
  simp only [hinside]

theorem Item.gather_frames (includeExports : Bool) (i : Item) (enclosing : Option Text) :
    gather (Frame.declarations includeExports) (i.frames enclosing) =
      gather (·.declarations includeExports enclosing) i.children :=
  gather_map (f := Frame.declarations includeExports) (⟨·, enclosing⟩) i.children

/-- The declarators that discovery picks out one by one are the function-valued variables. -/
theorem Node.filterMap_ofDeclarator? (n : Node) (enclosing : Option Text) (keyword : String) :
    n.items.filterMap (Entity.ofDeclarator? enclosing keyword) =
      ((n.itemsOfKind "variable_declarator").filter hasFunctionValue).map
        (⟨.variable, ·, enclosing, some keyword⟩) := by
  unfold Node.itemsOfKind
  induction n.items with
  | nil => rfl
  | cons i items ih =>
    cases i with
    | marker m body => exact ih
    | node d =>
      by_cases hkind : d.kind = "variable_declarator"
      · cases hvalue : d.fieldChild? "value" with
        | none => simpa [Entity.ofDeclarator?, Item.node?, hasFunctionValue, hkind, hvalue] using ih
        | some value =>
          by_cases hfunction : value.kind ∈ Entity.functionValueKinds
          · simpa [Entity.ofDeclarator?, Item.node?, hasFunctionValue, hkind, hvalue, hfunction]
              using ih
          · simpa [Entity.ofDeclarator?, Item.node?, hasFunctionValue, hkind, hvalue, hfunction]
              using ih
      · simpa [Entity.ofDeclarator?, Item.node?, hkind] using ih

theorem Node.filterMap_ofMember? (n : Node) (enclosing : Option Text) :
    n.items.filterMap (Entity.ofMember? enclosing) = n.methods enclosing := by
  unfold Node.methods Node.itemsOfKind
  induction n.items with
  | nil => rfl
  | cons i items ih =>
    cases i with
    | marker m body => exact ih
    | node d =>
      by_cases hkind : d.kind = "method_definition"
      · simpa [Entity.ofMember?, Item.node?, hkind] using ih
      · simpa [Entity.ofMember?, Item.node?, hkind] using ih

/-- The declarations under a frame: what it contributes, and then those under the frames that it
opens. -/
def Frame.unfolded (includeExports : Bool) (f : Frame) (c : Contribution) :
    Except Fault (List Entity) :=
  (gather (Frame.declarations includeExports) (f.opened c)).map (c.entities ++ ·)

theorem Frame.unfolded_closed (includeExports : Bool) (f : Frame) (entities : List Entity) :
    f.unfolded includeExports ⟨entities, none⟩ = .ok entities := by
  show Except.ok (entities ++ []) = .ok entities
  rw [List.append_nil]

theorem Frame.unfolded_open (includeExports : Bool) (n : Node) (enclosing scope : Option Text)
    (entities : List Entity) :
    Frame.unfolded includeExports ⟨.node n, enclosing⟩ ⟨entities, some scope⟩ =
      (gather (·.declarations includeExports scope) n.items).map (entities ++ ·) := by
  show (gather (Frame.declarations includeExports) ((Item.node n).frames scope)).map _ = _
  rw [Item.gather_frames]
  rfl

/-- What a frame has to find follows from what it contributes: one case for each kind of node. -/
theorem Frame.declarations_eq (includeExports : Bool) (f : Frame) :
    f.declarations includeExports =
      f.contribution includeExports >>= f.unfolded includeExports := by
  rcases f with ⟨item, enclosing⟩
  cases item with
  | marker m body =>
    rw [Frame.declarations, Item.declarations]
    exact (unfolded_closed includeExports ⟨.marker m body, enclosing⟩ []).symm
  | node n =>
    have hclosed := unfolded_closed includeExports ⟨.node n, enclosing⟩
    have hopen := unfolded_open includeExports n enclosing
    rw [Frame.declarations, Item.declarations_node]
    show _ = n.contribution includeExports enclosing >>= _
    unfold Node.contribution
    split
    · exact (map_nil_append _).symm.trans (hopen none []).symm
    · split
      · cases includeExports with
        | true => exact (map_nil_append _).symm.trans (hopen enclosing []).symm
        | false => exact (hclosed []).symm
      · split
        · -- The name is asked for before any child is looked at.
          cases textOf (n.fieldChild? "name") with
          | error fault => rfl
          | ok name =>
            refine Eq.trans ?_ (hopen (some name) [⟨.classDecl, n, none, none⟩]).symm
            exact bind_pure_comp _ (gather (·.declarations includeExports (some name)) n.items)
        · split
          · exact (hclosed _).symm
          · split
            · unfold Node.functionVariables
              cases n.children.head? with
              | none => rfl
              | some keyword =>
                refine Eq.trans ?_ (hclosed _).symm
                rw [Node.filterMap_ofDeclarator?]
            · split
              · refine Eq.trans ?_ (hclosed _).symm
                rw [Node.filterMap_ofMember?]
              · exact (hclosed []).symm

/-- The declarations under the frames of a stack, with the next frame taken off it. -/
theorem gather_declarations_cons (includeExports : Bool) (f : Frame) (stack : List Frame) :
    gather (Frame.declarations includeExports) (f :: stack) =
      f.contribution includeExports >>= fun c =>
        (gather (Frame.declarations includeExports) (f.opened c ++ stack)).map
          (c.entities ++ ·) := by
  rw [gather_cons, Frame.declarations_eq, bind_assoc]
  refine bind_congr fun c => ?_
  rw [gather_append, Frame.unfolded]
  cases gather (Frame.declarations includeExports) (f.opened c) with
  | error fault => rfl
  | ok inside =>
    cases gather (Frame.declarations includeExports) stack with
    | error fault => rfl
    | ok rest => exact congrArg Except.ok (List.append_assoc c.entities inside rest)

/-- Working off a stack finds the declarations under its frames. -/
theorem discoverStack_eq_gather (includeExports : Bool) (stack : List Frame) :
    discoverStack includeExports stack = gather (Frame.declarations includeExports) stack := by
  induction stack using discoverStack.induct with
  | case1 =>
    rw [discoverStack]
    rfl
  | case2 f stack ihInside ihNext =>
    rw [gather_declarations_cons]
    cases hc : f.contribution includeExports with
    | error fault =>
      rw [discoverStack, hc]
      rfl
    | ok c =>
      have hrest : discoverStack includeExports (f.opened c ++ stack) =
          gather (Frame.declarations includeExports) (f.opened c ++ stack) := by
        unfold Frame.opened
        cases c.inside with
        | none => exact ihNext
        | some enclosing => exact ihInside enclosing
      rw [discoverStack_cons hc, hrest]
      rfl

/-! ## Round by round -/

/-- Discovery between two rounds: the frames that wait, the next one first, and what was found so
far. -/
structure Search where
  stack : List Frame
  found : List Entity

namespace Search

/-- The beginning of the search under a node. -/
def start (root : Node) : Search :=
  ⟨[⟨.node root, none⟩], []⟩

/-- One round takes the next frame off the stack, adds what it contributes to what was found, and
puts the frames that it opens in its place. -/
def round (includeExports : Bool) (s : Search) : Except Fault Search :=
  match s.stack with
  | [] => .ok s
  | f :: stack => do
    let c ← f.contribution includeExports
    return ⟨f.opened c ++ stack, s.found ++ c.entities⟩

/-- So many rounds. A search that is at its end stays there. -/
def rounds (includeExports : Bool) : Nat → Search → Except Fault Search
  | 0, s => .ok s
  | n + 1, s => do rounds includeExports n (← s.round includeExports)

/-- What a search has to come to: what it has found, and then the declarations under the frames
that wait. -/
def outcome (includeExports : Bool) (s : Search) : Except Fault (List Entity) :=
  (gather (Frame.declarations includeExports) s.stack).map (s.found ++ ·)

/-- The number of rounds that are left. -/
def weight (s : Search) : Nat :=
  stackWeight (s.stack.map (·.item))

variable {includeExports : Bool} {s s' : Search}

/-- The invariant of the stack: a round leaves the outcome as it is, and fails only with the fault
that the outcome is. -/
theorem outcome_round (includeExports : Bool) (s : Search) :
    s.round includeExports >>= outcome includeExports = s.outcome includeExports := by
  rcases s with ⟨stack, found⟩
  cases stack with
  | nil => rfl
  | cons f stack =>
    show (f.contribution includeExports >>= _) >>= _ = (gather _ (f :: stack)).map _
    rw [gather_declarations_cons]
    cases f.contribution includeExports with
    | error fault => rfl
    | ok c =>
      show (gather (Frame.declarations includeExports) (f.opened c ++ stack)).map _ =
        ((gather (Frame.declarations includeExports) (f.opened c ++ stack)).map _).map _
      cases gather (Frame.declarations includeExports) (f.opened c ++ stack) with
      | error fault => rfl
      | ok rest => exact congrArg Except.ok (List.append_assoc found c.entities rest)

/-- A round makes the stack lighter. -/
theorem weight_round (h : s.round includeExports = .ok s') (hne : s.stack ≠ []) :
    s'.weight < s.weight := by
  rcases s with ⟨stack, found⟩
  cases stack with
  | nil => exact absurd rfl hne
  | cons f stack =>
    obtain ⟨c, -, h⟩ := bind_eq_ok_iff.1 h
    cases h
    show stackWeight ((f.opened c ++ stack).map (·.item)) < stackWeight ((f :: stack).map (·.item))
    rw [List.map_append, stackWeight_append, List.map_cons, stackWeight_cons]
    exact Nat.add_lt_add_right (f.weight_opened c) _

/-- A search with nothing left to weigh is at its end. -/
theorem stack_of_weight_eq_zero (h : s.weight = 0) : s.stack = [] := by
  rcases s with ⟨stack, found⟩
  cases stack with
  | nil => rfl
  | cons f stack =>
    exfalso
    have hweight : f.item.weight + stackWeight (stack.map (·.item)) = 0 := h
    have hpos := Item.weight_eq f.item
    omega

theorem outcome_of_stack_eq_nil (h : s.stack = []) : s.outcome includeExports = .ok s.found := by
  unfold outcome
  rw [h]
  show Except.ok (s.found ++ []) = .ok s.found
  rw [List.append_nil]

/-- After as many rounds as the stack weighs, a search is at its end and has come to its outcome. -/
theorem rounds_eq_outcome (includeExports : Bool) (n : Nat) (s : Search) (hn : s.weight ≤ n) :
    rounds includeExports n s = (s.outcome includeExports).map (⟨[], ·⟩) := by
  induction n generalizing s with
  | zero =>
    have hend : s.stack = [] := stack_of_weight_eq_zero (Nat.le_zero.1 hn)
    rw [outcome_of_stack_eq_nil hend]
    show Except.ok s = .ok ⟨[], s.found⟩
    rw [← hend]
  | succ n ih =>
    rw [← outcome_round]
    show s.round includeExports >>= rounds includeExports n = _
    cases hround : s.round includeExports with
    | error fault => rfl
    | ok s' =>
      apply ih
      by_cases hend : s.stack = []
      · -- The last frame is gone, and the rounds that are left change nothing.
        have hsame : s' = s := by
          simp only [round, hend] at hround
          exact (Except.ok.inj hround).symm
        rw [hsame, weight, hend]
        exact Nat.zero_le n
      · have hlighter := weight_round hround hend
        omega

end Search

/-- Discovery is the recursion over the tree, faults included, for every tree and setting. The
rounds of the search come to an end with it, and there are no more of them than the root weighs. -/
theorem discover_eq_declarations (root : Node) (includeExports : Bool) :
    discover root includeExports = (Item.node root).declarations includeExports none ∧
      ∀ n, (Item.node root).weight ≤ n →
        Search.rounds includeExports n (.start root) =
          ((Item.node root).declarations includeExports none).map (⟨[], ·⟩) := by
  have hroot : gather (Frame.declarations includeExports) [⟨.node root, none⟩] =
      (Item.node root).declarations includeExports none := gather_singleton _
  constructor
  · rw [discover, discoverStack_eq_gather, hroot]
  · intro n hn
    have houtcome : (Search.start root).outcome includeExports =
        (Item.node root).declarations includeExports none :=
      (map_nil_append _).trans hroot
    rw [← houtcome]
    exact Search.rounds_eq_outcome includeExports n (.start root) hn

end HeaderCatalog
