import HeaderCatalog.Proofs.Blocks
import HeaderCatalog.Proofs.Matching
import Mathlib.Order.Bounds.Basic

/-!
# HeaderCatalog.Proofs.BraceMatching — blocks are matched braces, and they nest

The search for the end of a block counts braces. `Text.level` is the count at each place of a text,
taken from its beginning: up by one behind an opening brace, down by one behind a closing one. In
these terms a block goes from a brace to the first place that is back on the level of the brace, and
everything in between lies higher (`blockEnd_cases`). Levels do not depend on where a block begins,
so the runs of the search from two braces of one text can be compared.

`blockEnd_isLeast_balanced`: a block is the shortest part of the text from its brace on that opens
as many braces as it closes, and a block that begins in another one ends in it.
-/

namespace HeaderCatalog

namespace Text

/-- The text opens as many braces as it closes. -/
def Balanced (text : Text) : Prop := text.count openBrace = text.count closeBrace

instance (text : Text) : Decidable text.Balanced :=
  inferInstanceAs (Decidable (text.count openBrace = text.count closeBrace))

/-- What a character adds to the number of open braces. -/
def braceStep (c : Char) : Int :=
  if c = openBrace then 1 else if c = closeBrace then -1 else 0

/-- How many more braces a text opens than it closes. -/
def depth (text : Text) : Int := text.count openBrace - text.count closeBrace

/-- The number of open braces at a place of a text. -/
def level (text : Text) (i : Nat) : Int := depth (text.take i)

@[simp] theorem depth_nil : depth [] = 0 := rfl

@[simp] theorem depth_cons (c : Char) (text : Text) :
    depth (c :: text) = braceStep c + depth text := by
  have hne : openBrace ≠ closeBrace := by decide
  unfold depth braceStep
  by_cases hopen : c = openBrace
  · rw [if_pos hopen, hopen, List.count_cons_self, List.count_cons_of_ne hne]
    omega
  · rw [if_neg hopen, List.count_cons_of_ne hopen]
    by_cases hclose : c = closeBrace
    · rw [if_pos hclose, hclose, List.count_cons_self]
      omega
    · rw [if_neg hclose, List.count_cons_of_ne hclose, Int.zero_add]

theorem depth_append (front back : Text) : depth (front ++ back) = depth front + depth back := by
  simp only [depth, List.count_append]
  omega

theorem balanced_iff_depth (text : Text) : text.Balanced ↔ depth text = 0 := by
  unfold Balanced depth
  omega

/-! ## Levels -/

/-- Behind a place the level goes on with what stands there. -/
theorem level_add (text : Text) (i n : Nat) :
    level text (i + n) = level text i + depth ((text.drop i).take n) := by
  rw [level, List.take_add, depth_append, level]

/-- What a part of a text adds to the level. -/
theorem depth_slice (text : Text) {i j : Nat} (h : i ≤ j) :
    depth (text.slice i j) = level text j - level text i := by
  obtain ⟨n, rfl⟩ := Nat.exists_eq_add_of_le h
  rw [level_add, slice_add]
  omega

theorem balanced_slice_iff (text : Text) {i j : Nat} (h : i ≤ j) :
    (text.slice i j).Balanced ↔ level text j = level text i := by
  rw [balanced_iff_depth, depth_slice text h]
  omega

end Text

/-! ## The search for the end of a block -/

/-- One step of the search while a brace is open: it ends where none is left. -/
theorem closing?_cons {depth : Int} (hdepth : 0 < depth) (c : Char) (rest : Text) :
    closing? depth (c :: rest) =
      if depth + Text.braceStep c = 0 then some 1
      else (closing? (depth + Text.braceStep c) rest).map (· + 1) := by
  rw [closing?, Text.braceStep]
  by_cases hopen : c = Text.openBrace
  · rw [if_pos hopen, if_pos hopen, if_neg (by omega)]
  · rw [if_neg hopen, if_neg hopen]
    by_cases hclose : c = Text.closeBrace
    · rw [if_pos hclose, if_pos hclose, show depth + -1 = depth - 1 by omega]
      by_cases hone : depth = 1
      · rw [if_pos hone, if_pos (by omega)]
      · rw [if_neg hone, if_neg (by omega)]
    · rw [if_neg hclose, if_neg hclose, Int.add_zero, if_neg (by omega)]

theorem Text.neg_one_le_braceStep (c : Char) : -1 ≤ Text.braceStep c := by
  unfold Text.braceStep
  split
  · omega
  · split <;> omega

/-- The search ends at the first place where no brace is open. -/
theorem depth_of_closing? {depth : Int} (hdepth : 0 < depth) {text : Text} {n : Nat}
    (h : closing? depth text = some n) :
    depth + Text.depth (text.take n) = 0 ∧ ∀ k < n, 0 < depth + Text.depth (text.take k) := by
  induction text generalizing depth n with
  | nil => simp [closing?] at h
  | cons c rest ih =>
    have hstep := Text.neg_one_le_braceStep c
    rw [closing?_cons hdepth] at h
    split at h
    · rename_i hzero
      cases h
      refine ⟨by simpa using hzero, fun k hk => ?_⟩
      obtain rfl : k = 0 := by omega
      simpa using hdepth
    · obtain ⟨j, hj, rfl⟩ := Option.map_eq_some_iff.1 h
      obtain ⟨hzero, hpos⟩ := ih (by omega) hj
      rw [List.take_succ_cons, Text.depth_cons]
      refine ⟨by omega, fun k hk => ?_⟩
      cases k with
      | zero => simpa using hdepth
      | succ k =>
        have hk := hpos k (by omega)
        rw [List.take_succ_cons, Text.depth_cons]
        omega

/-- If the search ends nowhere, a brace is open everywhere. -/
theorem depth_of_closing?_eq_none {depth : Int} (hdepth : 0 < depth) {text : Text}
    (h : closing? depth text = none) (k : Nat) : 0 < depth + Text.depth (text.take k) := by
  induction text generalizing depth k with
  | nil => simpa using hdepth
  | cons c rest ih =>
    have hstep := Text.neg_one_le_braceStep c
    rw [closing?_cons hdepth] at h
    split at h
    · cases h
    · have hrest := Option.map_eq_none_iff.1 h
      cases k with
      | zero => simpa using hdepth
      | succ k =>
        have hk := ih (by omega) hrest k
        rw [List.take_succ_cons, Text.depth_cons]
        omega

/-! ## Blocks -/

namespace Text

/-- From the brace at `b` the text comes back to the level of the brace at `e`, with a closing
brace, and lies higher in between. -/
structure Closes (text : Text) (b e : Nat) : Prop where
  lt : b < e
  level_eq : level text e = level text b
  above : ∀ i, b < i → i < e → level text b < level text i
  last : text[e - 1]? = some closeBrace

/-- From the brace at `b` on the text never comes back to the level of the brace. -/
def StaysAbove (text : Text) (b : Nat) : Prop := ∀ i, b < i → level text b < level text i

end Text

/-- A block is closed at its end, or it is never closed and runs to the end of the text. -/
theorem blockEnd_cases {text : Text} {b : Nat} (hb : text[b]? = some Text.openBrace) :
    text.Closes b (blockEnd text b) ∨ (blockEnd text b = text.length ∧ text.StaysAbove b) := by
  obtain ⟨hlt, hget⟩ := List.getElem?_eq_some_iff.1 hb
  have hdrop : text.drop b = Text.openBrace :: text.drop (b + 1) := by
    rw [List.drop_eq_getElem_cons hlt, hget]
  have hclosing : closing? 0 (text.drop b) = (closing? 1 (text.drop (b + 1))).map (· + 1) := by
    rw [hdrop, closing?, if_pos rfl, Int.zero_add]
  -- Behind the brace one brace is open, and the search goes on from there.
  have hlevel : ∀ k, text.level (b + (k + 1)) =
      text.level b + (1 + Text.depth ((text.drop (b + 1)).take k)) := by
    intro k
    rw [Text.level_add, hdrop, List.take_succ_cons, Text.depth_cons]
    rfl
  have hbehind : ∀ i, b < i → ∃ k, i = b + (k + 1) := by
    intro i hi
    exact ⟨i - b - 1, by omega⟩
  unfold blockEnd
  rw [hclosing]
  cases hsearch : closing? 1 (text.drop (b + 1)) with
  | none =>
    right
    refine ⟨rfl, fun i hi => ?_⟩
    obtain ⟨k, rfl⟩ := hbehind i hi
    have hpos := depth_of_closing?_eq_none (by omega) hsearch k
    rw [hlevel]
    omega
  | some n =>
    left
    obtain ⟨hzero, hpos⟩ := depth_of_closing? (by omega) hsearch
    obtain ⟨hn, -, hlast⟩ := closing?_eq_some hsearch
    simp only [Option.map_some]
    constructor
    · omega
    · rw [hlevel]
      omega
    · intro i hi hend
      obtain ⟨k, rfl⟩ := hbehind i hi
      have hk := hpos k (by omega)
      rw [hlevel]
      omega
    · rw [List.getElem?_drop] at hlast
      rw [← hlast]
      congr 1
      omega

namespace Text

/-- Where a text stays above the level of a brace, no part from the brace on is balanced. -/
theorem StaysAbove.not_balanced {text : Text} {b : Nat} (h : text.StaysAbove b) {e : Nat}
    (he : b < e) : ¬ (text.slice b e).Balanced := by
  rw [balanced_slice_iff text (Nat.le_of_lt he)]
  have habove := h e he
  omega

theorem Closes.isLeast {text : Text} {b e : Nat} (h : text.Closes b e) :
    IsLeast {e | b < e ∧ (text.slice b e).Balanced} e := by
  constructor
  · exact ⟨h.lt, (balanced_slice_iff text (Nat.le_of_lt h.lt)).2 h.level_eq⟩
  · rintro e' ⟨hlt, hbalanced⟩
    rw [balanced_slice_iff text (Nat.le_of_lt hlt)] at hbalanced
    by_contra hge
    have habove := h.above e' hlt (by omega)
    omega

/-- Every beginning of a closed block leaves a brace open. -/
theorem Closes.count_lt {text : Text} {b e : Nat} (h : text.Closes b e) {front : Text}
    (hfront : front <+: text.slice b e) (hne : front ≠ []) (hproper : front ≠ text.slice b e) :
    front.count closeBrace < front.count openBrace := by
  have hpos := List.length_pos_iff.2 hne
  have hlt : front.length < (text.slice b e).length := by
    refine Nat.lt_of_le_of_ne hfront.length_le fun heq => hproper ?_
    exact hfront.eq_of_length heq
  have hlength : (text.slice b e).length ≤ e - b := by
    rw [slice, List.length_drop, List.length_take]
    omega
  have habove := h.above (b + front.length) (by omega) (by omega)
  -- The beginning is the part of the text up to a place inside of the block.
  have hslice : front = (text.drop b).take front.length := by
    have htake := List.prefix_iff_eq_take.1 hfront
    rw [slice, List.drop_take, List.take_take, Nat.min_eq_left (by omega)] at htake
    exact htake
  rw [level_add, ← hslice] at habove
  unfold depth at habove
  omega

/-- A block that begins inside of a closed one is closed before it. -/
theorem Closes.nested {text : Text} {b e b' : Nat} (h : text.Closes b e) (hb : b < b')
    (he : b' < e) (hopen : text[b']? = some openBrace) : blockEnd text b' < e := by
  have hhigher := h.above b' hb he
  have hlevel := h.level_eq
  rcases blockEnd_cases hopen with hinner | ⟨-, hstays⟩
  · by_contra hge
    have hinnerLevel := hinner.level_eq
    -- The end of the outer block lies below everything up to the end of the inner one.
    rcases Nat.lt_or_eq_of_le (Nat.le_of_not_lt hge) with hlt | heq
    · have habove := hinner.above e he hlt
      omega
    · rw [← heq] at hinnerLevel
      omega
  · have habove := hstays e he
    omega

end Text

/-! ## Matched braces -/

/-- The end of the block at a brace is the first place up to which as many braces are closed as
opened; if there is none, it is the end of the text. In the first case the block ends with a closing
brace, and each of its beginnings opens more braces than it closes. A block that begins inside of
another one does not end behind it, and ends before it if the other one is closed. -/
theorem blockEnd_isLeast_balanced (text : Text) (b : Nat) (hb : text[b]? = some Text.openBrace) :
    ((∃ e, b < e ∧ (text.slice b e).Balanced) →
      IsLeast {e | b < e ∧ (text.slice b e).Balanced} (blockEnd text b) ∧
      text[blockEnd text b - 1]? = some Text.closeBrace ∧
      ∀ front, front <+: text.slice b (blockEnd text b) → front ≠ [] →
        front ≠ text.slice b (blockEnd text b) →
        front.count Text.closeBrace < front.count Text.openBrace) ∧
    ((¬ ∃ e, b < e ∧ (text.slice b e).Balanced) → blockEnd text b = text.length) ∧
    ∀ b', b < b' → b' < blockEnd text b → text[b']? = some Text.openBrace →
      blockEnd text b' ≤ blockEnd text b ∧
      ((∃ e, b < e ∧ (text.slice b e).Balanced) → blockEnd text b' < blockEnd text b) := by
  rcases blockEnd_cases hb with hcloses | ⟨hlength, hstays⟩
  · refine ⟨fun _ => ?_, ?_, ?_⟩
    · refine ⟨hcloses.isLeast, hcloses.last, ?_⟩
      intro front hfront hne hproper
      exact hcloses.count_lt hfront hne hproper
    · intro hnone
      exact absurd ⟨_, hcloses.isLeast.1⟩ hnone
    · intro b' hlt hend hopen
      have hnested := hcloses.nested hlt hend hopen
      exact ⟨Nat.le_of_lt hnested, fun _ => hnested⟩
  · have hnone : ¬ ∃ e, b < e ∧ (text.slice b e).Balanced := by
      rintro ⟨e, he, hbalanced⟩
      exact hstays.not_balanced he hbalanced
    refine ⟨fun hsome => absurd hsome hnone, fun _ => hlength, ?_⟩
    intro b' _ _ _
    refine ⟨?_, fun hsome => absurd hsome hnone⟩
    rw [hlength]
    exact blockEnd_le_length text b'

/-- A block in a block, and behind them a block that is not closed. -/
def threeBlocks : Text := "\x7b a \x7b b \x7d c \x7d d \x7b".toList

/-- The two closed blocks of `threeBlocks` nest, and the last one runs to the end. -/
theorem threeBlocks_matched :
    threeBlocks[0]? = some Text.openBrace ∧ threeBlocks[4]? = some Text.openBrace ∧
    threeBlocks[16]? = some Text.openBrace ∧
    IsLeast {e | 0 < e ∧ (threeBlocks.slice 0 e).Balanced} (blockEnd threeBlocks 0) ∧
    blockEnd threeBlocks 0 = 13 ∧ threeBlocks[12]? = some Text.closeBrace ∧
    blockEnd threeBlocks 4 < blockEnd threeBlocks 0 ∧
    (¬ ∃ e, 16 < e ∧ (threeBlocks.slice 16 e).Balanced) ∧
    blockEnd threeBlocks 16 = threeBlocks.length := by
  have houter : threeBlocks[0]? = some Text.openBrace := by decide
  have hinner : threeBlocks[4]? = some Text.openBrace := by decide
  have hlast : threeBlocks[16]? = some Text.openBrace := by decide
  have hend : blockEnd threeBlocks 0 = 13 := by decide +kernel
  have hclosed : ∃ e, 0 < e ∧ (threeBlocks.slice 0 e).Balanced := ⟨13, by decide, by decide +kernel⟩
  have hopen : ¬ ∃ e, 16 < e ∧ (threeBlocks.slice 16 e).Balanced := by
    rintro ⟨e, he, hbalanced⟩
    rw [Text.slice, List.take_of_length_le he] at hbalanced
    exact absurd hbalanced (by decide)
  obtain ⟨hfound, -, hnested⟩ := blockEnd_isLeast_balanced threeBlocks 0 houter
  obtain ⟨hleast, hbrace, -⟩ := hfound hclosed
  have hwithin := (hnested 4 (by decide) (by rw [hend]; decide) hinner).2 hclosed
  have hrest := (blockEnd_isLeast_balanced threeBlocks 16 hlast).2.1 hopen
  rw [hend] at hbrace
  exact ⟨houter, hinner, hlast, hleast, hend, hbrace, hwithin, hopen, hrest⟩

end HeaderCatalog
