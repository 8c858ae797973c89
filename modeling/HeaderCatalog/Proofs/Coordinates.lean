import HeaderCatalog.Proofs.Lines
import Mathlib.Algebra.GroupWithZero.Nat
import Mathlib.Data.Int.ConditionallyCompleteOrder
import Mathlib.Data.Prod.Lex
import Mathlib.Data.Set.Function
import Mathlib.Order.ConditionallyCompleteLattice.Basic

/-!
# HeaderCatalog.Proofs.Coordinates — offsets and locations correspond

A text is its lines, each followed by a newline, without the last newline
(`Text.joinLines_lines`). So what stands in front of a column of a line is known: all earlier lines
with their newlines, and the line up to the column (`Text.take_lineStart`). From this the two
coordinates of an offset can be read off the text, without its lines: the number of newlines in
front of it, and the distance from the last one of them.

`Location.ofIndex_bijOn`: these coordinates, and that offsets and the locations of a text correspond
one to one, in order.
-/

namespace HeaderCatalog

/-! ## A text and its lines -/

/-- The lines one after another, each with its newline. -/
def joinLines (lines : List Text) : Text := lines.flatMap (· ++ ['\n'])

@[simp] theorem joinLines_nil : joinLines [] = [] := rfl

@[simp] theorem joinLines_cons (line : Text) (lines : List Text) :
    joinLines (line :: lines) = line ++ '\n' :: joinLines lines := by
  simp [joinLines]

theorem joinLines_append (lines more : List Text) :
    joinLines (lines ++ more) = joinLines lines ++ joinLines more := by
  simp [joinLines]

/-- A line starts behind the earlier lines. -/
theorem length_joinLines_take (lines : List Text) (k : Nat) :
    (joinLines (lines.take k)).length = lineStart lines k := by
  induction lines generalizing k with
  | nil => cases k <;> rfl
  | cons line lines ih =>
    cases k with
    | zero => rfl
    | succ k =>
      rw [List.take_succ_cons, joinLines_cons, List.length_append, List.length_cons, ih,
        lineStart_cons_succ]
      omega

/-- The start of a line as a sum over the lines in front of it. -/
theorem lineStart_eq_sum (lines : List Text) (k : Nat) :
    lineStart lines k = ((lines.take k).map fun line => line.length + 1).sum := by
  rw [← length_joinLines_take, joinLines, List.length_flatMap]
  simp

/-- Lines without newlines in them have as many newlines as there are lines. -/
theorem count_joinLines {lines : List Text} (h : ∀ line ∈ lines, '\n' ∉ line) :
    (joinLines lines).count '\n' = lines.length := by
  induction lines with
  | nil => rfl
  | cons line lines ih =>
    obtain ⟨hline, hlines⟩ := List.forall_mem_cons.1 h
    rw [joinLines_cons, List.count_append, List.count_eq_zero_of_not_mem hline,
      List.count_cons_self, ih hlines, List.length_cons]
    omega

namespace Text

/-- The lines of a text, each with its newline, are the text with one more newline. -/
theorem joinLines_lines (text : Text) : joinLines text.lines = text ++ ['\n'] := by
  induction text with
  | nil => rfl
  | cons c rest ih =>
    unfold lines
    split
    · rename_i hc
      rw [joinLines_cons, ih, hc]
      rfl
    · obtain ⟨line, more, hmore⟩ := List.exists_cons_of_ne_nil (lines_ne_nil rest)
      rw [hmore] at ih ⊢
      rw [consLine, joinLines_cons, List.cons_append, List.cons_append, ← ih, joinLines_cons]

theorem notMem_of_mem_lines {text line : Text} (h : line ∈ text.lines) : '\n' ∉ line := by
  induction text generalizing line with
  | nil =>
    rw [lines, List.mem_singleton] at h
    rw [h]
    exact List.not_mem_nil
  | cons c rest ih =>
    unfold lines at h
    split at h
    · rcases List.mem_cons.1 h with rfl | h
      · exact List.not_mem_nil
      · exact ih h
    · rename_i hc
      obtain ⟨first, more, hmore⟩ := List.exists_cons_of_ne_nil (lines_ne_nil rest)
      rw [hmore, consLine] at h
      rw [hmore] at ih
      rcases List.mem_cons.1 h with rfl | h
      · rw [List.mem_cons, not_or]
        exact ⟨Ne.symm hc, ih List.mem_cons_self⟩
      · exact ih (List.mem_cons_of_mem first h)

/-- What stands in front of a column of a line: the earlier lines, and the line up to the column. -/
theorem take_lineStart {text line : Text} {k column : Nat} (hline : text.lines[k]? = some line)
    (hcolumn : column ≤ line.length) :
    text.take (lineStart text.lines k + column) =
      joinLines (text.lines.take k) ++ line.take column := by
  obtain ⟨hk, hget⟩ := List.getElem?_eq_some_iff.1 hline
  have hin : lineStart text.lines k + column ≤ text.length := by
    have hnext := lineStart_succ text.lines k hk
    have hall := lineStart_mono text.lines (show k + 1 ≤ text.lines.length from hk)
    rw [hget] at hnext
    rw [lineStart_lines] at hall
    omega
  have hsplit : text ++ ['\n'] =
      joinLines (text.lines.take k) ++ (line ++ '\n' :: joinLines (text.lines.drop (k + 1))) := by
    rw [← joinLines_lines, ← joinLines_cons, ← hget, ← List.drop_eq_getElem_cons hk,
      ← joinLines_append, List.take_append_drop]
  rw [← List.take_append_of_le_length hin, hsplit, ← length_joinLines_take,
    List.take_length_add_append, List.take_append_of_le_length hcolumn]

/-! ## The coordinates of an offset -/

/-- The line of the place `i` begins at `start`: at the start of the text or just behind a newline,
with no newline from there to the place. -/
structure LineBegins (text : Text) (i start : Nat) : Prop where
  le : start ≤ i
  first : start = 0 ∨ text[start - 1]? = some '\n'
  plain : '\n' ∉ text.slice start i

/-- As many newlines stand in front of a place as there are earlier lines. -/
theorem count_take_lineStart {text line : Text} {k column : Nat}
    (hline : text.lines[k]? = some line) (hcolumn : column ≤ line.length) :
    (text.take (lineStart text.lines k + column)).count '\n' = k := by
  have hplain := notMem_of_mem_lines (List.mem_of_getElem? hline)
  have hk := (List.getElem?_eq_some_iff.1 hline).1
  rw [take_lineStart hline hcolumn, List.count_append,
    count_joinLines fun l hl => notMem_of_mem_lines (List.mem_of_mem_take hl),
    List.count_eq_zero_of_not_mem fun hmem => hplain (List.mem_of_mem_take hmem),
    List.length_take]
  omega

/-- A line that is not the first one starts just behind a newline. -/
theorem getElem?_lineStart {text : Text} {k : Nat} (hk : k + 1 < text.lines.length) :
    text[lineStart text.lines (k + 1) - 1]? = some '\n' := by
  have hnext := lineStart_succ text.lines k (by omega)
  have hin : lineStart text.lines (k + 1) ≤ text.length := by
    have hall := lineStart_mono text.lines (show k + 1 + 1 ≤ text.lines.length from hk)
    have hbehind := lineStart_succ text.lines (k + 1) hk
    rw [lineStart_lines] at hall
    omega
  -- The last character in front of the start is the newline of the line before.
  have htake := take_lineStart (List.getElem?_eq_getElem hk) (Nat.zero_le _)
  rw [Nat.add_zero, List.take_zero, List.append_nil, List.take_add_one,
    List.getElem?_eq_getElem (by omega), Option.toList_some, joinLines_append, joinLines_cons,
    joinLines_nil, ← List.append_assoc] at htake
  have hlast := before_of_take_eq hin htake (by simp)
  rw [hnext, ← Nat.add_assoc, before_succ] at hlast
  rw [hnext, ← Nat.add_assoc, Nat.add_sub_cancel, hlast]
  rfl

theorem lineBegins_lineStart {text line : Text} {k column : Nat}
    (hline : text.lines[k]? = some line) (hcolumn : column ≤ line.length) :
    text.LineBegins (lineStart text.lines k + column) (lineStart text.lines k) := by
  have hk := (List.getElem?_eq_some_iff.1 hline).1
  refine ⟨Nat.le_add_right _ _, ?_, ?_⟩
  · cases k with
    | zero => exact Or.inl (lineStart_zero _)
    | succ k => exact Or.inr (getElem?_lineStart hk)
  · have hplain := notMem_of_mem_lines (List.mem_of_getElem? hline)
    rw [slice, take_lineStart hline hcolumn, ← length_joinLines_take, List.drop_left]
    exact fun hmem => hplain (List.mem_of_mem_take hmem)

end Text

/-! ## Offsets and locations -/

namespace Location

/-- Locations are ordered by line and then by column. -/
def key (l : Location) : Int ×ₗ Int := toLex (l.line, l.indent)

/-- Behind the last line there is no location. -/
theorem inLines_eq_notFound {lines : List Text} (first : Int) {index : Nat}
    (h : lineStart lines lines.length ≤ index) : inLines first index lines = notFound := by
  induction lines generalizing first index with
  | nil => rfl
  | cons line lines ih =>
    rw [List.length_cons, lineStart_cons_succ] at h
    rw [inLines, if_neg (by omega)]
    exact ih (first + 1) (by omega)

/-- No location is found exactly for what is no offset of the text. -/
theorem ofIndex_eq_notFound_iff (text : Text) (index : Int) :
    ofIndex index text.lines = notFound ↔ index < 0 ∨ text.length < index := by
  constructor
  · intro h
    by_contra hin
    obtain ⟨i, rfl⟩ := Int.eq_ofNat_of_zero_le (show 0 ≤ index by omega)
    have hvalid := (ofIndex_lines text i (by omega)).1.one_le
    rw [h] at hvalid
    exact absurd hvalid (by decide)
  · rintro (hneg | hbeyond)
    · rw [ofIndex, if_pos hneg]
    · rw [ofIndex, if_neg (by omega)]
      apply inLines_eq_notFound
      rw [text.lineStart_lines]
      omega

/-- The offset of a location of the text is an offset of the text. -/
theorem Valid.offset_le {l : Location} {text : Text} (h : l.Valid text.lines) :
    l.offset text.lines ≤ text.length := by
  have hlt := h.offset_lt
  have hone := h.one_le
  have hle := h.le_length
  have hmono := lineStart_mono text.lines
    (show (l.line - 1).toNat + 1 ≤ text.lines.length by omega)
  rw [text.lineStart_lines] at hmono
  omega

/-- The offset of a location gives the location back. -/
theorem Valid.ofIndex_offset {l : Location} {lines : List Text} (h : l.Valid lines) :
    ofIndex (l.offset lines) lines = l := by
  have hone := h.one_le
  have hle := h.le_length
  have hindent := h.indent_nonneg
  have hk : (l.line - 1).toNat < lines.length := by omega
  have hline := List.getElem?_eq_getElem hk
  have hcolumn := h.indent_le _ hline
  rw [offset, ofIndex_lineStart hline (by omega)]
  cases l with
  | mk line indent =>
    simp only [Location.mk.injEq] at hone hindent ⊢
    omega

/-- The offset of a location as a sum. -/
theorem Valid.offset_eq {l : Location} {lines : List Text} (h : l.Valid lines) :
    (l.offset lines : Int) =
      (((lines.take (l.line - 1).toNat).map fun line => line.length + 1).sum : Nat) + l.indent := by
  have hindent := h.indent_nonneg
  rw [offset, lineStart_eq_sum]
  omega

/-- The coordinates of an offset, read off the text in front of it. -/
theorem ofIndex_coordinates (text : Text) {i : Nat} (hi : i ≤ text.length) :
    (ofIndex i text.lines).line = 1 + (text.take i).count '\n' ∧
      ∃ start, text.LineBegins i start ∧ (ofIndex i text.lines).indent = i - start := by
  obtain ⟨k, line, column, hline, hcolumn, rfl, hof⟩ := ofIndex_spec text hi
  rw [hof, Text.count_take_lineStart hline hcolumn]
  refine ⟨rfl, lineStart text.lines k, Text.lineBegins_lineStart hline hcolumn, ?_⟩
  simp only [Int.natCast_add]
  omega

theorem mapsTo_ofIndex (text : Text) :
    Set.MapsTo (fun index : Int => ofIndex index text.lines) (Set.Icc 0 text.length)
      {l | l.Valid text.lines} := by
  rintro index ⟨hnonneg, hle⟩
  obtain ⟨i, rfl⟩ := Int.eq_ofNat_of_zero_le hnonneg
  exact (ofIndex_lines text i (by omega)).1

theorem mapsTo_offset (text : Text) :
    Set.MapsTo (fun l : Location => (l.offset text.lines : Int)) {l | l.Valid text.lines}
      (Set.Icc 0 text.length) := by
  intro l hvalid
  have hle := Valid.offset_le hvalid
  exact ⟨Int.natCast_nonneg _, Int.ofNat_le.2 hle⟩

/-- Finding the location of an offset and going back to the offset undo each other. -/
theorem invOn_offset (text : Text) :
    Set.InvOn (fun l : Location => (l.offset text.lines : Int))
      (fun index : Int => ofIndex index text.lines) (Set.Icc 0 text.length)
      {l | l.Valid text.lines} := by
  constructor
  · rintro index ⟨hnonneg, hle⟩
    obtain ⟨i, rfl⟩ := Int.eq_ofNat_of_zero_le hnonneg
    exact congrArg _ (ofIndex_lines text i (by omega)).2
  · intro l hvalid
    exact Valid.ofIndex_offset hvalid

theorem strictMonoOn_key (text : Text) :
    StrictMonoOn (fun index : Int => (ofIndex index text.lines).key) (Set.Icc 0 text.length) := by
  rintro index ⟨hnonneg, hle⟩ index' ⟨hnonneg', hle'⟩ hlt
  obtain ⟨i, rfl⟩ := Int.eq_ofNat_of_zero_le hnonneg
  obtain ⟨i', rfl⟩ := Int.eq_ofNat_of_zero_le hnonneg'
  obtain ⟨hvalid, hoffset⟩ := ofIndex_lines text i (by omega)
  obtain ⟨hvalid', hoffset'⟩ := ofIndex_lines text i' (by omega)
  exact Prod.Lex.toLex_lt_toLex.2 (hvalid.lt_of_offset_lt hvalid' (by omega))

/-- No location is found exactly for what is no offset of the text. For an offset, the line is one
more than the number of newlines in front of it, and the column is its distance from behind the last
one of them, or from the start of the text. This is a bijection, in order, between the offsets of
the text, its end included, and the columns of its lines; the way back adds up the lines in front,
each with its newline, and the column. -/
theorem ofIndex_bijOn (text : Text) :
    (∀ index : Int, ofIndex index text.lines = notFound ↔ index < 0 ∨ text.length < index) ∧
    (∀ i : Nat, i ≤ text.length →
      (ofIndex i text.lines).line = 1 + (text.take i).count '\n' ∧
      ∃ start, text.LineBegins i start ∧ (ofIndex i text.lines).indent = i - start) ∧
    StrictMonoOn (fun index : Int => (ofIndex index text.lines).key) (Set.Icc 0 text.length) ∧
    Set.BijOn (fun index : Int => ofIndex index text.lines) (Set.Icc 0 text.length)
      {l | l.Valid text.lines} ∧
    Set.InvOn
      (fun l : Location => (((text.lines.take (l.line - 1).toNat).map fun line =>
        line.length + 1).sum : Nat) + l.indent)
      (fun index : Int => ofIndex index text.lines) (Set.Icc 0 text.length)
      {l | l.Valid text.lines} := by
  have hinv := invOn_offset text
  have hmaps := mapsTo_ofIndex text
  refine ⟨ofIndex_eq_notFound_iff text, fun i hi => ofIndex_coordinates text hi,
    strictMonoOn_key text, hinv.bijOn hmaps (mapsTo_offset text), ?_, ?_⟩
  · exact hinv.1.congr_left hmaps fun l hvalid => Valid.offset_eq hvalid
  · exact hinv.2.congr_left fun l hvalid => Valid.offset_eq hvalid

/-- A text with an empty line, and with a newline at its end. -/
def gappedLines : Text := "ab\n\nc\n".toList

/-- The offsets of `gappedLines`, its end included, are the columns of its four lines. -/
theorem gappedLines_bijOn :
    ((List.range 7).map fun i : Nat => ofIndex i gappedLines.lines) =
      [⟨1, 0⟩, ⟨1, 1⟩, ⟨1, 2⟩, ⟨2, 0⟩, ⟨3, 0⟩, ⟨3, 1⟩, ⟨4, 0⟩] ∧
    ofIndex 7 gappedLines.lines = notFound ∧
    (ofIndex (5 : Nat) gappedLines.lines).line = 1 + (gappedLines.take 5).count '\n' ∧
    Set.BijOn (fun index : Int => ofIndex index gappedLines.lines) (Set.Icc 0 6)
      {l | l.Valid gappedLines.lines} := by
  obtain ⟨hnone, hcoordinates, -, hbij, -⟩ := ofIndex_bijOn gappedLines
  exact ⟨by decide +kernel, (hnone 7).2 (by decide), (hcoordinates 5 (by decide)).1, hbij⟩

end Location

end HeaderCatalog
