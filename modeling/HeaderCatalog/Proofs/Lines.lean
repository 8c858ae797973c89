import HeaderCatalog.Location
import HeaderCatalog.Proofs.Matching

/-!
# HeaderCatalog.Proofs.Lines — offsets and their lines

`lineStart` is the way back from a line to its first offset. For every offset of a text, its end
included, `Location.ofIndex_lines` gives a line and a column of the text, and the start of that
line and the column add up to the offset. So no offset is lost (`Location.found_ofIndex`), and
locations are ordered as their offsets are (`Location.Valid.lt_of_offset_lt`).
-/

namespace HeaderCatalog

/-- The offset of the first character of the line with `k` lines in front of it. Each of them is
followed by its newline. -/
def lineStart : List Text → Nat → Nat
  | line :: lines, k + 1 => line.length + 1 + lineStart lines k
  | _, _ => 0

@[simp] theorem lineStart_zero (lines : List Text) : lineStart lines 0 = 0 := by
  cases lines with
  | nil => rfl
  | cons line lines => rfl

@[simp] theorem lineStart_cons_succ (line : Text) (lines : List Text) (k : Nat) :
    lineStart (line :: lines) (k + 1) = line.length + 1 + lineStart lines k := rfl

/-- The start of the next line. -/
theorem lineStart_succ (lines : List Text) (k : Nat) (hk : k < lines.length) :
    lineStart lines (k + 1) = lineStart lines k + (lines[k].length + 1) := by
  induction lines generalizing k with
  | nil => cases hk
  | cons line lines ih =>
    cases k with
    | zero => simp
    | succ k =>
      have hnext := ih k (Nat.lt_of_succ_lt_succ hk)
      simp only [lineStart_cons_succ, List.getElem_cons_succ] at hnext ⊢
      omega

theorem lineStart_mono (lines : List Text) {j k : Nat} (h : j ≤ k) :
    lineStart lines j ≤ lineStart lines k := by
  induction lines generalizing j k with
  | nil => simp [lineStart]
  | cons line lines ih =>
    cases j with
    | zero => exact Nat.zero_le _
    | succ j =>
      cases k with
      | zero => omega
      | succ k =>
        have hjk := ih (Nat.le_of_succ_le_succ h)
        simp only [lineStart_cons_succ]
        omega

/-- Every place before the end of the last line, its newline included, is a column of a line. -/
theorem exists_column_of_lt {lines : List Text} {index : Nat}
    (h : index < lineStart lines lines.length) :
    ∃ k line column, lines[k]? = some line ∧ column ≤ line.length ∧
      lineStart lines k + column = index := by
  induction lines generalizing index with
  | nil => simp [lineStart] at h
  | cons line lines ih =>
    by_cases hin : index ≤ line.length
    · exact ⟨0, line, index, rfl, hin, by simp⟩
    · rw [List.length_cons, lineStart_cons_succ] at h
      obtain ⟨k, l, column, hl, hcolumn, hsum⟩ :=
        ih (show index - (line.length + 1) < lineStart lines lines.length by omega)
      refine ⟨k + 1, l, column, hl, hcolumn, ?_⟩
      rw [lineStart_cons_succ]
      omega

/-! ## The lines of a text -/

namespace Text

theorem lines_ne_nil (text : Text) : text.lines ≠ [] := by
  cases text with
  | nil => simp [lines]
  | cons c rest =>
    unfold lines
    split
    · simp
    · unfold consLine
      split <;> simp

/-- The lines of a text, each with a newline, are one character longer than the text. -/
theorem lineStart_lines (text : Text) :
    lineStart text.lines text.lines.length = text.length + 1 := by
  induction text with
  | nil => rfl
  | cons c rest ih =>
    obtain ⟨line, more, hmore⟩ := List.exists_cons_of_ne_nil (lines_ne_nil rest)
    rw [hmore, List.length_cons, lineStart_cons_succ] at ih
    unfold lines
    split
    · rw [hmore]
      simp only [List.length_cons, lineStart_cons_succ, List.length_nil]
      omega
    · rw [hmore]
      simp only [consLine, List.length_cons, lineStart_cons_succ]
      omega

end Text

/-! ## Locations -/

namespace Location

/-- A location that names a line of the list and a column of that line, the place behind its
last character included. -/
structure Valid (l : Location) (lines : List Text) : Prop where
  one_le : 1 ≤ l.line
  le_length : l.line ≤ lines.length
  indent_nonneg : 0 ≤ l.indent
  indent_le : ∀ line, lines[(l.line - 1).toNat]? = some line → l.indent ≤ line.length

/-- The offset of a location. -/
def offset (l : Location) (lines : List Text) : Nat :=
  lineStart lines (l.line - 1).toNat + l.indent.toNat

theorem Valid.found {l : Location} {lines : List Text} (h : l.Valid lines) : l.found = true := by
  simp [Location.found, h.one_le, h.indent_nonneg]

/-- The location of a column of the `j`-th line. -/
theorem inLines_lineStart (first : Int) {lines : List Text} {j : Nat} {line : Text}
    (hline : lines[j]? = some line) {column : Nat} (hcolumn : column ≤ line.length) :
    inLines first (lineStart lines j + column) lines = ⟨first + j, column⟩ := by
  induction lines generalizing first j with
  | nil => simp at hline
  | cons l lines ih =>
    cases j with
    | zero =>
      cases hline
      simp [inLines, hcolumn]
    | succ j =>
      have hbehind : ¬ l.length + 1 + lineStart lines j + column ≤ l.length := by omega
      have hsub : l.length + 1 + lineStart lines j + column - (l.length + 1) =
          lineStart lines j + column := by omega
      rw [lineStart_cons_succ, inLines, if_neg hbehind, hsub, ih (first + 1) (by simpa using hline)]
      simp only [Location.mk.injEq, and_true, Int.natCast_add]
      omega

theorem ofIndex_lineStart {lines : List Text} {j : Nat} {line : Text}
    (hline : lines[j]? = some line) {column : Nat} (hcolumn : column ≤ line.length) :
    ofIndex (lineStart lines j + column : Nat) lines = ⟨1 + j, column⟩ := by
  rw [ofIndex, if_neg (by omega), Int.toNat_natCast, inLines_lineStart 1 hline hcolumn]

/-- Every offset of a text is a column of one of its lines. -/
theorem ofIndex_spec (text : Text) {i : Nat} (hi : i ≤ text.length) :
    ∃ (k : Nat) (line : Text) (column : Nat), text.lines[k]? = some line ∧
      column ≤ line.length ∧ lineStart text.lines k + column = i ∧
      ofIndex i text.lines = ⟨1 + k, column⟩ := by
  have hlt : i < lineStart text.lines text.lines.length := by
    rw [text.lineStart_lines]
    omega
  obtain ⟨k, line, column, hline, hcolumn, rfl⟩ := exists_column_of_lt hlt
  exact ⟨k, line, column, hline, hcolumn, rfl, ofIndex_lineStart hline hcolumn⟩

/-- Every offset of a text has a location, and the location gives the offset back. -/
theorem ofIndex_lines (text : Text) (i : Nat) (hi : i ≤ text.length) :
    (ofIndex i text.lines).Valid text.lines ∧ (ofIndex i text.lines).offset text.lines = i := by
  obtain ⟨k, line, column, hline, hcolumn, hsum, hof⟩ := ofIndex_spec text hi
  have hk : ((1 : Int) + k - 1).toNat = k := by omega
  have hlen := (List.getElem?_eq_some_iff.1 hline).1
  rw [hof]
  refine ⟨⟨by simp only; omega, by simp only; omega, by simp, ?_⟩, ?_⟩
  · intro l hl
    simp only [hk] at hl
    rw [hline] at hl
    cases hl
    exact Int.ofNat_le.2 hcolumn
  · simp only [offset, hk, Int.toNat_natCast, hsum]

theorem found_ofIndex (text : Text) (i : Nat) (hi : i ≤ text.length) :
    (ofIndex i text.lines).found = true :=
  (ofIndex_lines text i hi).1.found

/-- An offset of a valid location stands before the next line. -/
theorem Valid.offset_lt {l : Location} {lines : List Text} (h : l.Valid lines) :
    l.offset lines < lineStart lines ((l.line - 1).toNat + 1) := by
  have hk : (l.line - 1).toNat < lines.length := by
    have hle := h.le_length
    have hone := h.one_le
    omega
  have hindent := h.indent_le _ (List.getElem?_eq_getElem hk)
  have hnonneg := h.indent_nonneg
  rw [lineStart_succ lines _ hk, offset]
  omega

/-- Valid locations are ordered, by line and then by column, as their offsets are. -/
theorem Valid.lt_of_offset_lt {l l' : Location} {lines : List Text} (h : l.Valid lines)
    (h' : l'.Valid lines) (hlt : l.offset lines < l'.offset lines) :
    l.line < l'.line ∨ l.line = l'.line ∧ l.indent < l'.indent := by
  have hone := h.one_le
  have hone' := h'.one_le
  have hnonneg := h.indent_nonneg
  have hnonneg' := h'.indent_nonneg
  rcases Int.lt_trichotomy l.line l'.line with hline | hline | hline
  · exact Or.inl hline
  · refine Or.inr ⟨hline, ?_⟩
    unfold offset at hlt
    rw [hline] at hlt
    omega
  · -- A later line starts behind every offset of an earlier one.
    have hstep := lineStart_mono lines
      (show (l'.line - 1).toNat + 1 ≤ (l.line - 1).toNat by omega)
    have hend := h'.offset_lt
    have hstart : lineStart lines (l.line - 1).toNat ≤ l.offset lines := Nat.le_add_right _ _
    omega

end Location

end HeaderCatalog
