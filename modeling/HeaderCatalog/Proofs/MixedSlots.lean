import HeaderCatalog.Proofs.GapCounts
import HeaderCatalog.Proofs.SourceOrder
import Mathlib.Data.List.Basic

/-!
# HeaderCatalog.Proofs.MixedSlots — named children next to fields

Where a kind lists all its named children and some of its fields besides, the children in these
fields would come twice. They are told apart by kind and span, and the first one of each is kept.

* `Thins` says what is left of items that are gone through in this way: every marker, one node for
  each key, the first one that has it, all in their order. `Node.thins_distinct` proves it of
  `Node.distinct`, and `Node.distinct_append` cuts a list of items at the end of a slot.
* `mixed_cases`: two kinds of the table are mixed so.
* `Node.items_of_mixed`: a node of such a kind lists every named child and every child in its fields
  by one entry, and every field without a child by one marker. The children of the leading field
  come first, and the other named ones follow in source order.
-/

namespace HeaderCatalog

/-! ## Keys and markers -/

namespace Item

/-- The keys of the nodes among items. -/
def keys (items : List Item) : List (String × Nat × Nat) :=
  items.filterMap key?

/-- Is it a marker? -/
def isMarker (i : Item) : Bool := i.key?.isNone

/-- Is it the marker of a slot that is not filled? -/
def isNull : Item → Bool
  | .marker .null none => true
  | _ => false

theorem isMarker_of_isNull {i : Item} (h : i.isNull = true) : i.isMarker = true := by
  cases i with
  | node n => cases h
  | marker m body => rfl

theorem mem_keys {items : List Item} {k : String × Nat × Nat} :
    k ∈ keys items ↔ ∃ n, .node n ∈ items ∧ n.key = k := by
  rw [keys, List.mem_filterMap]
  constructor
  · rintro ⟨i, hi, hk⟩
    cases i with
    | marker m body => cases hk
    | node n => exact ⟨n, hi, Option.some.inj hk⟩
  · rintro ⟨n, hn, rfl⟩
    exact ⟨.node n, hn, rfl⟩

theorem keys_append (a b : List Item) : keys (a ++ b) = keys a ++ keys b :=
  List.filterMap_append

theorem keys_cons_of_none {i : Item} (h : i.key? = none) (items : List Item) :
    keys (i :: items) = keys items :=
  List.filterMap_cons_none h

theorem keys_cons_of_some {i : Item} {k : String × Nat × Nat} (h : i.key? = some k)
    (items : List Item) : keys (i :: items) = k :: keys items :=
  List.filterMap_cons_some h

end Item

/-! ## Keeping the first of each key -/

/-- What is left of `items` once the keys in `seen` are taken: every marker, and for each other key
the first node that has it, in the order of the items. -/
structure Thins (seen : List (String × Nat × Nat)) (items kept : List Item) : Prop where
  sublist : kept.Sublist items
  markers : kept.filter Item.isMarker = items.filter Item.isMarker
  mem_keys : ∀ k, k ∈ Item.keys kept ↔ k ∈ Item.keys items ∧ k ∉ seen
  nodup : (Item.keys kept).Nodup
  first : ∀ n, .node n ∈ kept → items.find? (·.key? == some n.key) = some (.node n)

namespace Node

/-- A marker, a node whose key is taken, and a node whose key is new. -/
theorem distinct_cons (seen : List (String × Nat × Nat)) (i : Item) (rest : List Item) :
    (i.key? = none ∧ distinct seen (i :: rest) = i :: distinct seen rest) ∨
      ∃ n, i = .node n ∧
        ((n.key ∈ seen ∧ distinct seen (i :: rest) = distinct seen rest) ∨
          (n.key ∉ seen ∧ distinct seen (i :: rest) = i :: distinct (n.key :: seen) rest)) := by
  cases i with
  | marker m body => exact .inl ⟨rfl, rfl⟩
  | node n =>
    refine .inr ⟨n, rfl, ?_⟩
    simp only [distinct, Item.key?]
    by_cases hseen : n.key ∈ seen
    · exact .inl ⟨hseen, if_pos (by simpa using hseen)⟩
    · exact .inr ⟨hseen, if_neg (by simpa using hseen)⟩

theorem mem_keys_distinct (seen : List (String × Nat × Nat)) (items : List Item)
    (k : String × Nat × Nat) :
    k ∈ Item.keys (distinct seen items) ↔ k ∈ Item.keys items ∧ k ∉ seen := by
  induction items generalizing seen with
  | nil => simp [distinct, Item.keys]
  | cons i rest ih =>
    rcases distinct_cons seen i rest with ⟨hkey, h⟩ | ⟨n, rfl, ⟨hseen, h⟩ | ⟨hnew, h⟩⟩
    · rw [h, Item.keys_cons_of_none hkey, Item.keys_cons_of_none hkey, ih]
    · -- A key that is taken is neither kept nor asked for.
      rw [h, ih, Item.keys_cons_of_some (i := .node n) rfl, List.mem_cons]
      constructor
      · rintro ⟨hk, hnot⟩
        exact ⟨.inr hk, hnot⟩
      · rintro ⟨rfl | hk, hnot⟩
        · exact absurd hseen hnot
        · exact ⟨hk, hnot⟩
    · rw [h, Item.keys_cons_of_some (i := .node n) rfl, Item.keys_cons_of_some (i := .node n) rfl,
        List.mem_cons, List.mem_cons, ih, List.mem_cons, not_or]
      constructor
      · rintro (rfl | ⟨hk, -, hnot⟩)
        · exact ⟨.inl rfl, hnew⟩
        · exact ⟨.inr hk, hnot⟩
      · rintro ⟨hk, hnot⟩
        by_cases heq : k = n.key
        · exact .inl heq
        · exact .inr ⟨hk.resolve_left heq, heq, hnot⟩

theorem nodup_keys_distinct (seen : List (String × Nat × Nat)) (items : List Item) :
    (Item.keys (distinct seen items)).Nodup := by
  induction items generalizing seen with
  | nil => exact .nil
  | cons i rest ih =>
    rcases distinct_cons seen i rest with ⟨hkey, h⟩ | ⟨n, rfl, ⟨-, h⟩ | ⟨-, h⟩⟩
    · rw [h, Item.keys_cons_of_none hkey]
      exact ih seen
    · rw [h]
      exact ih seen
    · rw [h, Item.keys_cons_of_some (i := .node n) rfl, List.nodup_cons]
      refine ⟨fun hmem => ?_, ih _⟩
      exact ((mem_keys_distinct _ rest _).1 hmem).2 List.mem_cons_self

theorem filter_isMarker_distinct (seen : List (String × Nat × Nat)) (items : List Item) :
    (distinct seen items).filter Item.isMarker = items.filter Item.isMarker := by
  induction items generalizing seen with
  | nil => rfl
  | cons i rest ih =>
    rcases distinct_cons seen i rest with ⟨hkey, h⟩ | ⟨n, rfl, ⟨-, h⟩ | ⟨-, h⟩⟩
    · have hmarker : i.isMarker = true := by rw [Item.isMarker, hkey]; rfl
      rw [h, List.filter_cons_of_pos hmarker, List.filter_cons_of_pos hmarker, ih]
    · rw [h, ih]
      rfl
    · rw [h]
      exact ih _

/-- A node that is kept is the first one with its key. -/
theorem find?_of_mem_distinct {seen : List (String × Nat × Nat)} {items : List Item} {n : Node}
    (hn : .node n ∈ distinct seen items) :
    items.find? (·.key? == some n.key) = some (.node n) := by
  induction items generalizing seen with
  | nil => cases hn
  | cons i rest ih =>
    have hkept : ∀ seen', .node n ∈ distinct seen' rest → n.key ∉ seen' := fun seen' h =>
      ((mem_keys_distinct seen' rest n.key).1 (Item.mem_keys.2 ⟨n, h, rfl⟩)).2
    rcases distinct_cons seen i rest with ⟨hkey, h⟩ | ⟨m, rfl, ⟨hseen, h⟩ | ⟨-, h⟩⟩
    · rw [h] at hn
      rcases List.mem_cons.1 hn with rfl | hn
      · cases hkey
      · rw [List.find?_cons_of_neg (by simp [hkey])]
        exact ih hn
    · -- The key in front is taken, and that of a node which is kept is not.
      rw [h] at hn
      have hne : m.key ≠ n.key := fun heq => hkept seen hn (heq ▸ hseen)
      rw [List.find?_cons_of_neg (by simpa [Item.key?] using hne)]
      exact ih hn
    · rw [h] at hn
      rcases List.mem_cons.1 hn with heq | hn
      · cases heq
        exact List.find?_cons_of_pos (by simp [Item.key?])
      · have hne : m.key ≠ n.key := fun heq => hkept _ hn (heq ▸ List.mem_cons_self)
        rw [List.find?_cons_of_neg (by simpa [Item.key?] using hne)]
        exact ih hn

theorem thins_distinct (seen : List (String × Nat × Nat)) (items : List Item) :
    Thins seen items (distinct seen items) where
  sublist := distinct_sublist seen items
  markers := filter_isMarker_distinct seen items
  mem_keys := mem_keys_distinct seen items
  nodup := nodup_keys_distinct seen items
  first := fun _ => find?_of_mem_distinct

/-- Only which keys are taken matters, not in which order they were. -/
theorem distinct_congr {seen seen' : List (String × Nat × Nat)} (h : ∀ k, k ∈ seen ↔ k ∈ seen')
    (items : List Item) : distinct seen items = distinct seen' items := by
  induction items generalizing seen seen' with
  | nil => rfl
  | cons i rest ih =>
    cases i with
    | marker m body => exact congrArg _ (ih h)
    | node n =>
      simp only [distinct, Item.key?, List.contains_eq_mem, h n.key]
      split
      · exact ih h
      · refine congrArg _ (ih fun k => ?_)
        rw [List.mem_cons, List.mem_cons, h k]

/-- Once the items in front are gone through, their keys are taken. -/
theorem distinct_append (seen : List (String × Nat × Nat)) (a b : List Item) :
    distinct seen (a ++ b) = distinct seen a ++ distinct (Item.keys a ++ seen) b := by
  induction a generalizing seen with
  | nil => rfl
  | cons i rest ih =>
    rw [List.cons_append]
    cases i with
    | marker m body => exact congrArg _ (ih seen)
    | node n =>
      rw [Item.keys_cons_of_some (i := .node n) rfl]
      simp only [distinct, Item.key?, List.contains_eq_mem, decide_eq_true_eq]
      split
      · -- The key was taken before, so it does not matter that it comes again.
        rename_i hseen
        rw [ih]
        refine congrArg _ (distinct_congr (fun k => ?_) b)
        simp only [List.mem_append, List.mem_cons]
        constructor
        · exact fun hk => hk.imp_left .inr
        · rintro ((rfl | hk) | hk)
          · exact .inr hseen
          · exact .inl hk
          · exact .inr hk
      · rw [ih, List.cons_append]
        refine congrArg _ (congrArg _ (distinct_congr (fun k => ?_) b))
        simp only [List.mem_append, List.mem_cons]
        exact or_left_comm.trans or_assoc.symm

end Node

/-! ## Slots without a child -/

namespace Node

/-- Is it a slot for a single child, and is there none? -/
def lacks (n : Node) : Slot → Bool
  | .field name => (n.fieldChild? name).isNone
  | .firstOf names => (names.findSome? n.fieldChild?).isNone
  | .ofKind kind => (n.namedChildren.find? (·.kind == kind)).isNone
  | .named | .allOf _ => false

theorem countP_isNull_nodes (nodes : List Node) : (nodes.map Item.node).countP Item.isNull = 0 := by
  rw [List.countP_eq_zero]
  intro i hi
  obtain ⟨c, -, rfl⟩ := List.mem_map.1 hi
  exact Bool.false_ne_true

theorem countP_isNull_ofOption (c : Option Node) :
    [Item.ofOption c].countP Item.isNull = c.isNone.toNat := by
  cases c with
  | none => rfl
  | some c => rfl

/-- A slot gives one null marker if it lacks its child, and none otherwise. -/
theorem countP_isNull_fill (n : Node) (slot : Slot) :
    (n.fill slot).countP Item.isNull = (n.lacks slot).toNat := by
  cases slot with
  | named => exact countP_isNull_nodes n.namedChildren
  | allOf name => exact countP_isNull_nodes (n.fieldChildren name)
  | field name => exact countP_isNull_ofOption _
  | firstOf names => exact countP_isNull_ofOption _
  | ofKind kind => exact countP_isNull_ofOption _

theorem countP_isNull_flatMap (n : Node) (slots : List Slot) :
    (slots.flatMap n.fill).countP Item.isNull = slots.countP n.lacks := by
  induction slots with
  | nil => rfl
  | cons slot slots ih =>
    rw [List.flatMap_cons, List.countP_append, ih, countP_isNull_fill, List.countP_cons,
      Nat.add_comm]
    cases n.lacks slot with
    | false => rfl
    | true => rfl

end Node

/-- Thinning leaves the null markers. -/
theorem Thins.countP_isNull {seen : List (String × Nat × Nat)} {items kept : List Item}
    (h : Thins seen items kept) : kept.countP Item.isNull = items.countP Item.isNull := by
  have hmarkers : ∀ l : List Item, (l.filter Item.isMarker).countP Item.isNull =
      l.countP Item.isNull := by
    intro l
    rw [List.countP_filter]
    refine List.countP_congr fun i _ => ?_
    rw [Bool.and_eq_true]
    exact and_iff_left_of_imp Item.isMarker_of_isNull
  rw [← hmarkers kept, h.markers, hmarkers items]

/-! ## Mixed kinds -/

/-- All named children are listed, and some fields besides. -/
def Slot.Mixed (slots : List Slot) : Prop :=
  .named ∈ slots ∧ ∃ slot ∈ slots, slot ≠ .named

instance (slots : List Slot) : Decidable (Slot.Mixed slots) :=
  inferInstanceAs (Decidable (_ ∧ _))

/-- The mixed kinds of the table: exports, and elements of markup. -/
theorem mixed_cases {kind : String} {slots : List Slot} (h : slots? kind = some slots)
    (hmixed : Slot.Mixed slots) :
    (kind = "export_statement" ∧ slots = [.allOf "decorator", .named]) ∨
      (kind = "jsx_element" ∧ slots = [.field "open_tag", .named, .field "close_tag"]) := by
  have htable : ∀ entry ∈ slotTable, Slot.Mixed entry.2 →
      entry = ("export_statement", [.allOf "decorator", .named]) ∨
        entry = ("jsx_element", [.field "open_tag", .named, .field "close_tag"]) := by
    decide
  obtain ⟨front, back, heq, -⟩ := List.lookup_eq_some_iff.1 h
  have hmem : (kind, slots) ∈ slotTable := heq ▸ List.mem_append_right front List.mem_cons_self
  rcases htable _ hmem hmixed with hentry | hentry
  · exact .inl (Prod.ext_iff.1 hentry)
  · exact .inr (Prod.ext_iff.1 hentry)

namespace Node

/-- The items of a mixed kind are thinned out. -/
theorem items_eq_distinct {n : Node} {slots : List Slot} (h : slots? n.kind = some slots)
    (hmixed : Slot.Mixed slots) : n.items = distinct [] (slots.flatMap n.fill) := by
  rcases mixed_cases h hmixed with ⟨hkind, rfl⟩ | ⟨hkind, rfl⟩
  · have hslots : n.items = n.fillAll [.allOf "decorator", .named] :=
      items_of_slots? hkind (by decide)
    exact hslots
  · have hslots : n.items = n.fillAll [.field "open_tag", .named, .field "close_tag"] :=
      items_of_slots? hkind (by decide)
    exact hslots

theorem lead_of_mixed {kind : String} {slots : List Slot} (h : slots? kind = some slots)
    (hmixed : Slot.Mixed slots) :
    ∃ lead after, slots = lead :: .named :: after ∧ lead ≠ .named := by
  rcases mixed_cases h hmixed with ⟨-, rfl⟩ | ⟨-, rfl⟩
  · exact ⟨_, _, rfl, by decide⟩
  · exact ⟨_, _, rfl, by decide⟩

theorem keys_map_node (nodes : List Node) : Item.keys (nodes.map .node) = nodes.map key := by
  rw [Item.keys, List.filterMap_map]
  exact congrFun List.filterMap_eq_map nodes

/-- A key of the items that fill slots is that of a named child, or comes from another slot. -/
theorem mem_keys_flatMap_fill {n : Node} {slots : List Slot} (hnamed : .named ∈ slots)
    {k : String × Nat × Nat} :
    k ∈ Item.keys (slots.flatMap n.fill) ↔
      (∃ c ∈ n.namedChildren, c.key = k) ∨
        ∃ slot ∈ slots, slot ≠ .named ∧ k ∈ Item.keys (n.fill slot) := by
  have hfill : k ∈ Item.keys (n.fill .named) ↔ ∃ c ∈ n.namedChildren, c.key = k := by
    rw [fill, keys_map_node, List.mem_map]
  rw [← hfill, Item.keys, List.filterMap_flatMap, List.mem_flatMap]
  constructor
  · rintro ⟨slot, hslot, hk⟩
    by_cases heq : slot = .named
    · exact .inl (heq ▸ hk)
    · exact .inr ⟨slot, hslot, heq, hk⟩
  · rintro (hk | ⟨slot, hslot, -, hk⟩)
    · exact ⟨.named, hnamed, hk⟩
    · exact ⟨slot, hslot, hk⟩

/-- The entries in three parts: what the leading slot selects, the named children that it does not,
and what the slots behind them add. -/
def LeadsWith (n : Node) (slots : List Slot) : Prop :=
  ∃ (lead : Slot) (after : List Slot) (first : List Item) (rest : List Node) (last : List Item),
    slots = lead :: .named :: after ∧ lead ≠ .named ∧
    n.items = first ++ rest.map .node ++ last ∧
    Thins [] (n.fill lead) first ∧
    rest.Sublist n.namedChildren ∧
    Thins (Item.keys (n.fill lead)) (n.namedChildren.map .node) (rest.map .node) ∧
    Thins (Item.keys (n.fill lead) ++ n.namedChildren.map key) (after.flatMap n.fill) last

/-- How a node whose slots are the given ones lists its children without losing or repeating one. -/
structure ListsOnce (n : Node) (slots : List Slot) : Prop where
  /-- No two entries have the same key. -/
  nodup : (Item.keys n.items).Nodup
  /-- The keys are those of the named children and of the children in the fields. -/
  keys : ∀ k, k ∈ Item.keys n.items ↔
    (∃ c ∈ n.namedChildren, c.key = k) ∨
      ∃ slot ∈ slots, slot ≠ .named ∧ k ∈ Item.keys (n.fill slot)
  /-- Each field without its child gives one null marker, and there are no other markers. -/
  nulls : n.items.countP Item.isNull = slots.countP n.lacks
  fills : ∀ i ∈ n.items, i.FillsSlot
  /-- What the leading field selects comes first; of the named children, the others follow in source
  order. -/
  leads : n.LeadsWith slots

/-- Of a kind whose slots combine the named children with fields, nothing is lost and nothing comes
twice. -/
theorem items_of_mixed (n : Node) (slots : List Slot) (h : slots? n.kind = some slots)
    (hmixed : Slot.Mixed slots) : n.ListsOnce slots := by
  have hitems := items_eq_distinct h hmixed
  have hthins := thins_distinct [] (slots.flatMap n.fill)
  rw [← hitems] at hthins
  refine ⟨hthins.nodup, ?_, ?_, ?_, ?_⟩
  · intro k
    rw [hthins.mem_keys, mem_keys_flatMap_fill hmixed.1]
    exact and_iff_left List.not_mem_nil
  · rw [hthins.countP_isNull, countP_isNull_flatMap]
  · intro i hi
    obtain ⟨slot, -, hfill⟩ := List.mem_flatMap.1 (hthins.sublist.subset hi)
    exact fillsSlot_of_mem_fill hfill
  · obtain ⟨lead, after, rfl, hlead⟩ := lead_of_mixed h hmixed
    have hnamed := thins_distinct (Item.keys (n.fill lead)) (n.namedChildren.map .node)
    obtain ⟨rest, hrest, heq⟩ := List.sublist_map_iff.1 hnamed.sublist
    rw [heq] at hnamed
    refine ⟨lead, after, distinct [] (n.fill lead), rest, _, rfl, hlead, ?_,
      thins_distinct [] _, hrest, hnamed, thins_distinct _ _⟩
    -- The list is cut behind the leading slot and behind the named children.
    rw [hitems, List.flatMap_cons, List.flatMap_cons, ← List.append_assoc, distinct_append,
      distinct_append, Item.keys_append, List.append_nil, List.append_nil, fill, keys_map_node, heq]

end Node

/-- An element whose end is missing. -/
def unended : Text := "<a>x".toList

/-- A tree of `unended` in which the text of the element stands twice, and in front of its tag. -/
def unendedTree : Node :=
  .spanning unended "jsx_element" 0 4
    [.spanning unended "jsx_text" 3 4 [],
      (Node.spanning unended "jsx_opening_element" 0 3 []).fills "open_tag",
      .spanning unended "jsx_text" 3 4 []]

theorem unended_items :
    slots? unendedTree.kind = some [.field "open_tag", .named, .field "close_tag"] ∧
      Slot.Mixed [.field "open_tag", .named, .field "close_tag"] ∧
      Item.keys unendedTree.items = [("jsx_opening_element", 0, 3), ("jsx_text", 3, 4)] ∧
      (Item.keys unendedTree.items).Nodup ∧
      unendedTree.items.countP Item.isNull = 1 := by
  have hslots : slots? unendedTree.kind = some [.field "open_tag", .named, .field "close_tag"] := by
    decide
  have hmixed : Slot.Mixed [.field "open_tag", .named, .field "close_tag"] := by decide
  have hlists := unendedTree.items_of_mixed _ hslots hmixed
  exact ⟨hslots, hmixed, by decide +kernel, hlists.nodup, hlists.nulls.trans (by decide +kernel)⟩

end HeaderCatalog
