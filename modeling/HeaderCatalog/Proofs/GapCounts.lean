import HeaderCatalog.Proofs.PreOrder
import Mathlib.Data.List.Basic
import Mathlib.Data.List.Induction

/-!
# HeaderCatalog.Proofs.GapCounts — what the gap report counts

The report counts the unknown markers that the walk meets, not the nodes that the table does not
cover.

* `Item.preorder_gaps`: under a node the two are the same list of kinds, in the same order. A node
  whose kind is a gap has one unknown marker under it and nothing else, and no other node has one.
* `Tallied` says what a list of counts knows about the kinds that were counted. Counting one more
  kind keeps it (`Tallied.countKind`), so it holds of the whole report (`tallied_gapReport`).
* `gapReport_counts_nodes`: so the report gives every gap the number of its nodes, and lists the
  gaps in the order in which their first nodes are visited.
-/

namespace HeaderCatalog

/-! ## Gaps of the table -/

/-- A kind that the table does not cover: it is neither a leaf nor has it slots. Of a node without
a kind nothing can be said. -/
def IsGap (kind : String) : Prop :=
  kind ≠ "" ∧ kind ∉ leafKinds ∧ kind ∉ slotTable.map Prod.fst

instance (kind : String) : Decidable (IsGap kind) :=
  inferInstanceAs (Decidable (_ ∧ _ ∧ _))

theorem slots?_eq_none_iff {kind : String} :
    slots? kind = none ↔ kind ∉ slotTable.map Prod.fst := by
  rw [slots?, List.lookup_eq_none_iff, List.mem_map]
  constructor
  · rintro h ⟨entry, hentry, rfl⟩
    simpa using h entry hentry
  · intro h entry hentry
    rw [bne_iff_ne]
    rintro rfl
    exact h ⟨entry, hentry, rfl⟩

namespace Item

/-- Is it a node of this kind? -/
def isNodeOf (kind : String) : Item → Bool
  | .node n => n.kind == kind
  | .marker _ _ => false

/-- The gap that a node shows by its own kind. -/
def nodeGap? : Item → Option String
  | .node n => if IsGap n.kind then some n.kind else none
  | .marker _ _ => none

/-- The kind that the report counts at an item: that of the node which an unknown marker keeps. -/
def markedGap? : Item → Option String
  | .marker .unknown (some body) => some body.kind
  | _ => none

/-- An item that fills a slot: a node, or the marker of a slot that is not filled. -/
inductive FillsSlot : Item → Prop where
  | node (n : Node) : FillsSlot (.node n)
  | absent : FillsSlot (.marker .null none)

theorem fillsSlot_ofOption (n : Option Node) : FillsSlot (.ofOption n) := by
  cases n with
  | none => exact .absent
  | some n => exact .node n

end Item

namespace Node

theorem fillsSlot_of_mem_fill {n : Node} {slot : Slot} {i : Item} (h : i ∈ n.fill slot) :
    i.FillsSlot := by
  cases slot with
  | named =>
    obtain ⟨c, -, rfl⟩ := List.mem_map.1 h
    exact .node c
  | field name =>
    rw [List.mem_singleton.1 h]
    exact Item.fillsSlot_ofOption _
  | firstOf names =>
    rw [List.mem_singleton.1 h]
    exact Item.fillsSlot_ofOption _
  | allOf name =>
    obtain ⟨c, -, rfl⟩ := List.mem_map.1 h
    exact .node c
  | ofKind kind =>
    rw [List.mem_singleton.1 h]
    exact Item.fillsSlot_ofOption _

/-- All that can stand under a node: one unknown marker that keeps the node if its kind is a gap,
and otherwise an invalid marker or what fills slots. -/
theorem items_cases (n : Node) :
    (IsGap n.kind ∧ n.items = [.marker .unknown (some n)]) ∨
      (¬ IsGap n.kind ∧ (n.items = [.marker .invalid (some n)] ∨ ∀ i ∈ n.items, i.FillsSlot)) := by
  unfold items
  split
  · -- A node without a kind.
    rename_i hempty
    have hkind : n.kind = "" := by simpa using hempty
    exact .inr ⟨fun hgap => hgap.1 hkind, .inl rfl⟩
  · rename_i hempty
    split
    · -- A leaf lists nothing.
      rename_i hleaf
      exact .inr ⟨fun hgap => hgap.2.1 (by simpa using hleaf), .inr (by simp)⟩
    · rename_i hleaf
      split
      · rename_i hslots
        exact .inl ⟨⟨by simpa using hempty, by simpa using hleaf, slots?_eq_none_iff.1 hslots⟩, rfl⟩
      · -- Whatever the slots are, thinning them out adds no marker.
        rename_i slots hslots
        refine .inr ⟨fun hgap => ?_, .inr ?_⟩
        · rw [slots?_eq_none_iff.2 hgap.2.2] at hslots
          cases hslots
        · intro i hi
          obtain ⟨slot, -, hfill⟩ := List.mem_flatMap.1 (mem_of_mem_fillAll hi)
          exact fillsSlot_of_mem_fill hfill

end Node

/-! ## Markers and nodes -/

/-- Under what fills a slot, the unknown markers keep the nodes whose kinds are gaps, each once and
in the order of the nodes. -/
theorem Item.preorder_gaps (i : Item) (h : i.FillsSlot) :
    i.preorder.filterMap markedGap? = i.preorder.filterMap nodeGap? := by
  induction i using Item.preorder.induct with
  | case1 i ih =>
    rw [preorder_eq, List.filterMap_cons, List.filterMap_cons]
    cases h with
    | absent => rfl
    | node n =>
      simp only [markedGap?, nodeGap?, children]
      rcases n.items_cases with ⟨hgap, hitems⟩ | ⟨hgap, hitems | hitems⟩
      · -- The marker stands right behind its node, and nothing is under the marker.
        rw [if_pos hgap, hitems, List.flatMap_singleton, preorder_eq]
        rfl
      · rw [if_neg hgap, hitems, List.flatMap_singleton, preorder_eq]
        rfl
      · -- Neither list has an entry for the node, and what is below fills slots again.
        rw [if_neg hgap, List.filterMap_flatMap, List.filterMap_flatMap]
        exact List.flatMap_congr fun c hc => ih ⟨c, hc⟩ (hitems c hc)

/-! ## Counting -/

/-- What counts know about the kinds that were counted, in this order: the number of each, and which
ones were met first. -/
structure Tallied (met : List String) (counts : List (String × Nat)) : Prop where
  number : ∀ kind, (counts.lookup kind).getD 0 = met.count kind
  mem_iff : ∀ kind, kind ∈ counts.map Prod.fst ↔ kind ∈ met
  ordered : (counts.map Prod.fst).Pairwise fun a b => met.idxOf a < met.idxOf b

theorem lookup_countKind (kind k : String) (counts : List (String × Nat)) :
    ((countKind kind counts).lookup k).getD 0 =
      (counts.lookup k).getD 0 + if kind = k then 1 else 0 := by
  induction counts with
  | nil =>
    rw [countKind, List.lookup_cons]
    by_cases h : kind = k
    · simp [h]
    · simp [h, beq_false_of_ne (Ne.symm h)]
  | cons entry rest ih =>
    obtain ⟨known, number⟩ := entry
    rw [countKind]
    by_cases hknown : known = kind
    · subst hknown
      rw [if_pos (beq_self_eq_true known), List.lookup_cons, List.lookup_cons]
      by_cases h : known = k
      · simp [h]
      · simp [h, beq_false_of_ne (Ne.symm h)]
    · rw [if_neg (by simpa using hknown), List.lookup_cons, List.lookup_cons]
      by_cases h : known = k
      · subst h
        simp [Ne.symm hknown]
      · rw [beq_false_of_ne (Ne.symm h)]
        exact ih

theorem keys_countKind (kind : String) (counts : List (String × Nat)) :
    (countKind kind counts).map Prod.fst =
      if kind ∈ counts.map Prod.fst then counts.map Prod.fst
      else counts.map Prod.fst ++ [kind] := by
  induction counts with
  | nil => rfl
  | cons entry rest ih =>
    obtain ⟨known, number⟩ := entry
    rw [countKind]
    by_cases hknown : known = kind
    · simp [hknown]
    · rw [if_neg (by simpa using hknown), List.map_cons, List.map_cons, ih]
      by_cases hmem : kind ∈ rest.map Prod.fst
      · rw [if_pos hmem, if_pos (List.mem_cons_of_mem _ hmem)]
      · have hnew : kind ∉ known :: rest.map Prod.fst :=
          List.not_mem_cons_of_ne_of_not_mem (Ne.symm hknown) hmem
        rw [if_neg hmem, if_neg hnew, List.cons_append]

namespace Tallied

theorem nil : Tallied [] [] where
  number := fun _ => rfl
  mem_iff := fun _ => Iff.rfl
  ordered := .nil

/-- Counting one more kind. A kind that is new was met after all others. -/
theorem countKind {met : List String} {counts : List (String × Nat)} (h : Tallied met counts)
    (kind : String) : Tallied (met ++ [kind]) (HeaderCatalog.countKind kind counts) := by
  have hkept : (counts.map Prod.fst).Pairwise fun a b =>
      (met ++ [kind]).idxOf a < (met ++ [kind]).idxOf b := by
    refine h.ordered.imp_of_mem fun {a b} ha hb hlt => ?_
    rw [List.idxOf_append_of_mem ((h.mem_iff a).1 ha),
      List.idxOf_append_of_mem ((h.mem_iff b).1 hb)]
    exact hlt
  constructor
  · intro k
    rw [lookup_countKind, h.number, List.count_append, List.count_singleton]
    simp
  · intro k
    rw [keys_countKind, List.mem_append, List.mem_singleton, ← h.mem_iff]
    split
    · rename_i hmem
      exact ⟨.inl, fun hk => hk.elim id fun hk => hk ▸ hmem⟩
    · rw [List.mem_append, List.mem_singleton]
  · rw [keys_countKind]
    split
    · exact hkept
    · -- The new kind stands at the end of both lists.
      rename_i hnew
      rw [h.mem_iff] at hnew
      refine List.pairwise_append.2 ⟨hkept, List.pairwise_singleton _ _, ?_⟩
      intro a ha b hb
      rw [List.mem_singleton.1 hb, List.idxOf_append_of_notMem hnew]
      have ha' : a ∈ met := (h.mem_iff a).1 ha
      rw [List.idxOf_append_of_mem ha']
      exact Nat.lt_add_right _ (List.idxOf_lt_length_of_mem ha')

/-- Going through items counts the kinds at their unknown markers. -/
theorem foldl (items : List Item) :
    Tallied (items.filterMap Item.markedGap?) (items.foldl (fun counts i =>
      match i with
      | .marker .unknown (some body) => HeaderCatalog.countKind body.kind counts
      | _ => counts) []) := by
  -- Items are added at the end, so that what was counted before them stays in front.
  induction items using List.reverseRecOn with
  | nil => exact .nil
  | append_singleton items i ih =>
    rw [List.foldl_append, List.filterMap_append]
    match i with
    | .marker .unknown (some body) => exact ih.countKind body.kind
    | .marker .unknown none => simpa [List.filterMap_cons, Item.markedGap?] using ih
    | .marker .null _ => simpa [List.filterMap_cons, Item.markedGap?] using ih
    | .marker .invalid _ => simpa [List.filterMap_cons, Item.markedGap?] using ih
    | .node _ => simpa [List.filterMap_cons, Item.markedGap?] using ih

end Tallied

/-- The report has counted the gaps that the nodes of the walk show. -/
theorem tallied_gapReport (root : Node) :
    Tallied ((walk root).filterMap Item.nodeGap?) (gapReport root) := by
  have hgaps : (walk root).filterMap Item.markedGap? = (walk root).filterMap Item.nodeGap? := by
    rw [walk, walkStack_eq_flatMap, List.flatMap_singleton]
    exact Item.preorder_gaps _ (.node root)
  rw [← hgaps]
  exact Tallied.foldl (walk root)

/-! ## The report -/

theorem Item.nodeGap?_eq_some_iff {i : Item} {kind : String} :
    i.nodeGap? = some kind ↔ IsGap kind ∧ i.isNodeOf kind = true := by
  cases i with
  | marker m body => simp [nodeGap?, isNodeOf]
  | node n =>
    simp only [nodeGap?, isNodeOf, beq_iff_eq]
    constructor
    · intro h
      split at h
      · rename_i hgap
        cases h
        exact ⟨hgap, rfl⟩
      · cases h
    · rintro ⟨hgap, rfl⟩
      exact if_pos hgap

/-- At a gap, the nodes that show it are the nodes of this kind. -/
theorem Item.nodeGap?_beq {kind : String} (h : IsGap kind) (i : Item) :
    (i.nodeGap? == some kind) = i.isNodeOf kind := by
  rw [Bool.eq_iff_iff, beq_iff_eq, nodeGap?_eq_some_iff]
  exact and_iff_right h

/-- What comes first among the images comes first among the items. -/
theorem findIdx_lt_of_idxOf_filterMap_lt {α β : Type} [BEq β] [LawfulBEq β] (f : α → Option β)
    {a b : β} {items : List α} (h : (items.filterMap f).idxOf a < (items.filterMap f).idxOf b) :
    items.findIdx (f · == some a) < items.findIdx (f · == some b) := by
  induction items with
  | nil => exact absurd h (Nat.lt_irrefl _)
  | cons i rest ih =>
    rw [List.findIdx_cons, List.findIdx_cons]
    cases hi : f i with
    | none =>
      rw [List.filterMap_cons_none hi] at h
      exact Nat.succ_lt_succ (ih h)
    | some c =>
      -- The item counts for at most one of the two, and not for the later one.
      rw [List.filterMap_cons_some hi, List.idxOf_cons, List.idxOf_cons] at h
      rw [Option.some_beq_some, Option.some_beq_some]
      cases hca : c == a with
      | true =>
        cases hcb : c == b with
        | true => simp [hca, hcb] at h
        | false => exact Nat.succ_pos _
      | false =>
        cases hcb : c == b with
        | true => simp [hcb] at h
        | false =>
          simp only [hca, hcb, cond_false] at h ⊢
          exact Nat.succ_lt_succ (ih (by simpa using h))

/-- The report lists the gaps that were visited. -/
theorem mem_keys_gapReport_iff {root : Node} {kind : String} :
    kind ∈ (gapReport root).map Prod.fst ↔
      IsGap kind ∧ ∃ n, .node n ∈ walk root ∧ n.kind = kind := by
  rw [(tallied_gapReport root).mem_iff, List.mem_filterMap]
  constructor
  · rintro ⟨i, hi, hgap⟩
    obtain ⟨hkind, hnode⟩ := Item.nodeGap?_eq_some_iff.1 hgap
    cases i with
    | marker m body => cases hnode
    | node n => exact ⟨hkind, n, hi, by simpa [Item.isNodeOf] using hnode⟩
  · rintro ⟨hkind, n, hn, rfl⟩
    exact ⟨.node n, hn, Item.nodeGap?_eq_some_iff.2 ⟨hkind, beq_self_eq_true n.kind⟩⟩

/-- The number of a gap is that of its nodes, however often a node is visited. -/
theorem lookup_gapReport (root : Node) (kind : String) :
    ((gapReport root).lookup kind).getD 0 =
      if IsGap kind then (walk root).countP (Item.isNodeOf kind) else 0 := by
  rw [(tallied_gapReport root).number, List.count_filterMap]
  split
  · rename_i hkind
    exact List.countP_congr fun i _ => by rw [Item.nodeGap?_beq hkind]
  · rename_i hkind
    refine List.countP_eq_zero.2 fun i _ hi => hkind ?_
    exact (Item.nodeGap?_eq_some_iff.1 (beq_iff_eq.1 hi)).1

/-- The report counts exactly the visited nodes of each kind that the table does not cover, lists
these kinds in the order of their first nodes, and is empty exactly if no visited node has such a
kind. -/
theorem gapReport_counts_nodes (root : Node) :
    (∀ kind, ((gapReport root).lookup kind).getD 0 =
      if IsGap kind then (walk root).countP (Item.isNodeOf kind) else 0) ∧
    (∀ kind, kind ∈ (gapReport root).map Prod.fst ↔
      IsGap kind ∧ ∃ n, .node n ∈ walk root ∧ n.kind = kind) ∧
    ((gapReport root).map Prod.fst).Pairwise (fun a b =>
      (walk root).findIdx (Item.isNodeOf a) < (walk root).findIdx (Item.isNodeOf b)) ∧
    (gapReport root = [] ↔ ∀ n, .node n ∈ walk root →
      n.kind = "" ∨ n.kind ∈ leafKinds ∨ n.kind ∈ slotTable.map Prod.fst) := by
  refine ⟨lookup_gapReport root, fun _ => mem_keys_gapReport_iff, ?_, ?_⟩
  · refine (tallied_gapReport root).ordered.imp_of_mem fun {a b} ha hb hlt => ?_
    have hbefore := findIdx_lt_of_idxOf_filterMap_lt Item.nodeGap? hlt
    simpa only [Item.nodeGap?_beq (mem_keys_gapReport_iff.1 ha).1,
      Item.nodeGap?_beq (mem_keys_gapReport_iff.1 hb).1] using hbefore
  · -- A report that lists no kind is empty.
    rw [← List.map_eq_nil_iff (f := Prod.fst), List.eq_nil_iff_forall_not_mem]
    constructor
    · intro h n hn
      by_contra hcovered
      rw [not_or, not_or] at hcovered
      exact h n.kind (mem_keys_gapReport_iff.2 ⟨hcovered, n, hn, rfl⟩)
    · intro h kind hkind
      obtain ⟨⟨hempty, hleaf, hslots⟩, n, hn, rfl⟩ := mem_keys_gapReport_iff.1 hkind
      rcases h n hn with hn | hn | hn
      · exact hempty hn
      · exact hleaf hn
      · exact hslots hn

end HeaderCatalog
