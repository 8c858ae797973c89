import HeaderCatalog.Proofs.ClassTexts
import HeaderCatalog.Proofs.Resumption
import HeaderCatalog.Proofs.Widening.Search

/-!
# HeaderCatalog.Proofs.Widening.Places — blocks, lines and cursors in texts with expanded tabs

Braces and newlines are neither spaces nor tabs, so the places that are found by counting them
are shifted like all others:

* `blockEnd_widen` and `ClassText.isolate_widen`: blocks and class texts are expanded as a whole;
* `Location.ofIndex_widen`: a place stays on its line, and its column becomes the length of what
  stands in front of it on that line with the tabs expanded;
* `Cursor.resolve_widen`: a cursor over a part of the expanded text chooses the image of the
  occurrence that it chooses in the part, and moves to the image of where it moves there.
-/

namespace HeaderCatalog

variable {k : Nat}

/-! ## Blocks -/

theorem Text.shift_cons (c : Char) (text : Text) (n : Nat) :
    Text.shift k (c :: text) (n + 1) = (Text.expandTab k c).length + text.shift k n := by
  rw [Text.shift, List.take_succ_cons, Text.widen_cons, List.length_append, Text.shift]

/-- Characters that are no braces do not change the depth. -/
theorem closing?_append {front : Text}
    (h : ∀ c ∈ front, c ≠ Text.openBrace ∧ c ≠ Text.closeBrace) (depth : Int) (rest : Text) :
    closing? depth (front ++ rest) = (closing? depth rest).map (front.length + ·) := by
  induction front with
  | nil => simp
  | cons c front ih =>
    rcases List.forall_mem_cons.1 h with ⟨⟨hopen, hclose⟩, hfront⟩
    rw [List.cons_append, closing?, if_neg hopen, if_neg hclose, ih hfront, Option.map_map]
    congr 1
    funext n
    simp only [Function.comp_apply, List.length_cons]
    omega

theorem closing?_widen (depth : Int) (text : Text) :
    closing? depth (text.widen k) = (closing? depth text).map (text.shift k) := by
  have hopenTab : Text.openBrace ≠ '\t' := by decide
  have hcloseTab : Text.closeBrace ≠ '\t' := by decide
  have hnext : ∀ {c : Char} {text : Text} (found : Option Nat), c ≠ '\t' →
      (found.map (text.shift k)).map (· + 1) =
        (found.map (· + 1)).map (Text.shift k (c :: text)) := by
    intro c text found hc
    rw [Option.map_map, Option.map_map]
    congr 1
    funext n
    simp only [Function.comp_apply, Text.shift_cons, Text.expandTab_of_ne hc, List.length_singleton]
    omega
  induction text generalizing depth with
  | nil => rfl
  | cons c text ih =>
    by_cases hopen : c = Text.openBrace
    · subst hopen
      rw [Text.widen_cons, Text.expandTab_of_ne hopenTab, List.cons_append, List.nil_append,
        closing?, if_pos rfl, closing?, if_pos rfl, ih, hnext _ hopenTab]
    · by_cases hclose : c = Text.closeBrace
      · subst hclose
        rw [Text.widen_cons, Text.expandTab_of_ne hcloseTab, List.cons_append, List.nil_append,
          closing?, if_neg hopen, if_pos rfl, closing?, if_neg hopen, if_pos rfl, ih]
        split
        · rw [Option.map_some, Text.shift_cons, Text.expandTab_of_ne hcloseTab]
          rfl
        · exact hnext _ hcloseTab
      · -- No brace is among the characters that any other character is written as.
        have hplain : ∀ d ∈ Text.expandTab k c, d ≠ Text.openBrace ∧ d ≠ Text.closeBrace := by
          intro d hd
          rcases Text.eq_or_space_of_mem_expandTab hd with rfl | ⟨-, rfl⟩
          · exact ⟨hopen, hclose⟩
          · decide
        rw [Text.widen_cons, closing?_append hplain, ih, closing?, if_neg hopen, if_neg hclose,
          Option.map_map, Option.map_map]
        congr 1
        funext n
        simp only [Function.comp_apply, Text.shift_cons]

/-- A block ends at the image of its end. -/
theorem blockEnd_widen (text : Text) (brace : Nat) :
    blockEnd (text.widen k) (text.shift k brace) = text.shift k (blockEnd text brace) := by
  unfold blockEnd
  rw [Text.drop_shift, closing?_widen]
  cases closing? 0 (text.drop brace) with
  | none => exact Text.length_widen text
  | some n => exact (Text.shift_add text brace n).symm

/-! ## Class texts -/

/-- The place of the brace in which a match ends. -/
theorem Match.Lies.shift_brace {m : Match} {text : Text} (h : m.Lies text)
    (hends : m.text.endsWith Text.openBrace = true) :
    text.shift k m.stop - 1 = text.shift k (m.stop - 1) := by
  have hlast : m.text.getLast? = some Text.openBrace := by
    simpa [Text.endsWith] using hends
  have hlt : m.index < m.stop := by
    rcases Nat.lt_or_eq_of_le h.le with hlt | heq
    · exact hlt
    · rw [h.text_eq, heq, Text.slice, List.drop_eq_nil_iff.2 (List.length_take_le _ _)] at hlast
      cases hlast
  rw [h.text_eq, Text.getLast?_slice text hlt h.stop_le] at hlast
  have hsucc := Text.shift_succ (k := k) text hlast (by decide)
  have hstop : m.stop - 1 + 1 = m.stop := by omega
  rw [hstop] at hsucc
  omega

theorem Text.findIdx?_widen (text : Text) {c : Char} (hc : c ≠ '\t') (hs : c ≠ ' ') :
    (text.widen k).findIdx? (· == c) = (text.findIdx? (· == c)).map (text.shift k) := by
  induction text with
  | nil => rfl
  | cons d text ih =>
    by_cases hd : d = c
    · subst hd
      rw [Text.widen_cons, Text.expandTab_of_ne hc]
      simp [List.findIdx?_cons]
    · have hnone : ∀ x ∈ Text.expandTab k d, (x == c) = false := by
        intro x hx
        rcases Text.eq_or_space_of_mem_expandTab hx with rfl | ⟨-, rfl⟩
        · exact beq_eq_false_iff_ne.2 hd
        · exact beq_eq_false_iff_ne.2 hs.symm
      rw [Text.widen_cons, List.findIdx?_append, List.findIdx?_eq_none_iff.2 hnone, ih,
        List.findIdx?_cons, beq_eq_false_iff_ne.2 hd]
      simp only [Option.none_or, Bool.false_eq_true, if_false, Option.map_map]
      congr 1
      funext n
      simp only [Function.comp_apply, Text.shift_cons]
      omega

theorem Text.find?_widen (text : Text) {c : Char} (hc : c ≠ '\t') (hs : c ≠ ' ') (start : Nat) :
    (text.widen k).find? c (text.shift k start) = (text.find? c start).map (text.shift k) := by
  unfold Text.find?
  rw [Text.drop_shift, Text.findIdx?_widen _ hc hs, Option.map_map, Option.map_map]
  congr 1
  funext n
  simp only [Function.comp_apply, Text.shift_add]

/-- A class text of the text as a class text of the expanded text. -/
def ClassText.widen (k : Nat) (text : Text) (body : ClassText) : ClassText :=
  ⟨text.shift k body.start, body.text.widen k⟩

namespace ClassText

theorem ofMatch_widen {text : Text} {m : Match} (hm : m.Lies text) :
    ofMatch (text.widen k) (m.widen k text) = (ofMatch text m).widen k text := by
  have hbrace : brace? (text.widen k) (m.widen k text) = (brace? text m).map (text.shift k) := by
    unfold brace?
    simp only [Match.widen,
      Text.endsWith_widen m.text (c := Text.openBrace) (by decide) (by decide)]
    split
    · rename_i hends
      rw [hm.shift_brace hends]
      rfl
    · exact Text.find?_widen text (by decide) (by decide) m.stop
  have hstop : stopOf (text.widen k) (m.widen k text) = text.shift k (stopOf text m) := by
    unfold stopOf
    rw [hbrace]
    cases brace? text m with
    | none => exact Text.length_widen text
    | some b => exact blockEnd_widen text b
  rw [ofMatch_eq, ofMatch_eq, hstop, ClassText.widen]
  exact congrArg _ (Text.slice_shift text m.index (stopOf text m))

theorem isolate_widen {text : Text} {header : Pattern} (hplain : header.Plain)
    (hheader : header.Anchored) {start : Nat} (hstart : start ≤ text.length) :
    isolate (text.widen k) header (text.shift k start) =
      (isolate text header start).map (Option.map (ClassText.widen k text)) := by
  unfold isolate
  rw [Pattern.search_widen hplain hstart]
  cases hsearch : header.search text start with
  | error fault => rfl
  | ok found =>
    cases found with
    | none => rfl
    | some m =>
      have hlies := (Pattern.search_eq_some hheader hsearch).lies
      simp only [Except.map, Option.map_some, Bind.bind, Except.bind, pure, Except.pure,
        ofMatch_widen hlies]

theorem plain_opening {name : Text} (h : name.Plain) : (opening name).Plain := by
  intro t ht
  rcases Pattern.literal_mem_add ht with ht | ht
  · rw [List.mem_singleton.1 ht]
    exact ⟨by decide, by decide⟩
  · rwa [ht]

theorem isolateNameless_widen (text : Text) {start : Nat} (hstart : start ≤ text.length) :
    isolateNameless (text.widen k) (text.shift k start) =
      (isolateNameless text start).map (Option.map (ClassText.widen k text)) := by
  unfold isolateNameless
  rw [Pattern.search_widen (plain_opening ⟨by decide, by decide⟩) hstart]
  cases (opening []).search text start with
  | error fault => rfl
  | ok found => rfl

end ClassText

/-! ## Lines and locations -/

/-- Characters without a newline go to the front of the first line. -/
theorem Text.lines_append {front : Text} (h : '\n' ∉ front) {rest line : Text} {more : List Text}
    (hrest : rest.lines = line :: more) : Text.lines (front ++ rest) = (front ++ line) :: more := by
  induction front with
  | nil => exact hrest
  | cons c front ih =>
    simp only [List.mem_cons, not_or] at h
    rw [List.cons_append, Text.lines, if_neg (Ne.symm h.1), ih h.2]
    rfl

theorem Text.lines_widen (text : Text) : (text.widen k).lines = text.lines.map (Text.widen k) := by
  induction text with
  | nil => rfl
  | cons c text ih =>
    rcases List.exists_cons_of_ne_nil (Text.lines_ne_nil text) with ⟨line, more, hmore⟩
    rw [hmore, List.map_cons] at ih
    by_cases hc : c = '\n'
    · subst hc
      rw [Text.widen_cons, Text.expandTab_of_ne (by decide), List.cons_append, List.nil_append,
        Text.lines, if_pos rfl, Text.lines, if_pos rfl, ih, hmore]
      rfl
    · have hnone : '\n' ∉ Text.expandTab k c := by
        intro hmem
        rcases Text.eq_or_space_of_mem_expandTab hmem with rfl | ⟨-, hspace⟩
        · exact hc rfl
        · exact absurd hspace (by decide)
      rw [Text.widen_cons, Text.lines_append hnone ih, Text.lines, if_neg hc, hmore]
      rfl

/-- Places counted from the start of their line are shifted line by line. -/
theorem Text.shift_lineStart (text : Text) {j : Nat} {line : Text}
    (hline : text.lines[j]? = some line) {column : Nat} (hcolumn : column ≤ line.length) :
    text.shift k (lineStart text.lines j + column) =
      lineStart (text.lines.map (Text.widen k)) j + line.shift k column := by
  -- The induction is on the text: a newline starts a line, other characters lengthen the first.
  induction text generalizing j line column with
  | nil =>
    cases j with
    | zero =>
      cases hline
      cases Nat.le_zero.1 hcolumn
      rfl
    | succ j => simp [Text.lines] at hline
  | cons c text ih =>
    rcases List.exists_cons_of_ne_nil (Text.lines_ne_nil text) with ⟨first, more, hmore⟩
    by_cases hc : c = '\n'
    · subst hc
      rw [Text.lines, if_pos rfl] at hline ⊢
      cases j with
      | zero =>
        cases hline
        cases Nat.le_zero.1 hcolumn
        simp
      | succ j =>
        have hnext := ih (j := j) (by simpa using hline) hcolumn
        rw [List.map_cons, lineStart_cons_succ, lineStart_cons_succ, Text.widen_nil,
          List.length_nil]
        have hsum : 0 + 1 + lineStart (Text.lines text) j + column =
            lineStart (Text.lines text) j + column + 1 := by omega
        rw [hsum, Text.shift_cons, hnext, Text.expandTab_of_ne (by decide), List.length_singleton]
        omega
    · rw [Text.lines, if_neg hc, hmore, Text.consLine] at hline ⊢
      rw [hmore] at ih
      cases j with
      | zero =>
        cases hline
        cases column with
        | zero => simp
        | succ column =>
          have hcolumn' : column ≤ first.length := by simpa using hcolumn
          have hnext := ih (j := 0) rfl hcolumn'
          simp only [lineStart_zero, Nat.zero_add] at hnext ⊢
          rw [Text.shift_cons, Text.shift_cons, hnext]
      | succ j =>
        have hnext := ih (j := j + 1) (by simpa using hline) hcolumn
        rw [List.map_cons, lineStart_cons_succ] at hnext ⊢
        rw [lineStart_cons_succ] at hnext ⊢
        have hsum : (c :: first).length + 1 + lineStart more j + column =
            first.length + 1 + lineStart more j + column + 1 := by
          simp only [List.length_cons]
          omega
        rw [hsum, Text.shift_cons, hnext, Text.widen_cons, List.length_append]
        omega

namespace Location

/-- The location with the column that it has in the expanded line. -/
def widen (k : Nat) (lines : List Text) (l : Location) : Location :=
  ⟨l.line, Text.shift k (lines.getD (l.line - 1).toNat []) l.indent.toNat⟩

/-- Expanding tabs leaves the line of a place as it is, and counts what stands in front of it on
its line with the tabs expanded. -/
theorem ofIndex_widen (text : Text) {i : Nat} (hi : i ≤ text.length) :
    ofIndex (text.shift k i) (text.widen k).lines = (ofIndex i text.lines).widen k text.lines := by
  rcases ofIndex_spec text hi with ⟨j, line, column, hline, hcolumn, rfl, hloc⟩
  have hwide : (text.lines.map (Text.widen k))[j]? = some (line.widen k) := by
    rw [List.getElem?_map, hline]
    rfl
  have hat := ofIndex_lineStart hwide (Text.shift_le line column)
  have hline' : ((1 : Int) + j - 1).toNat = j := by omega
  rw [hloc, Text.lines_widen, Text.shift_lineStart text hline hcolumn, hat]
  simp only [widen, hline', List.getD, hline, Option.getD_some, Int.toNat_natCast]

theorem found_widen {lines : List Text} {l : Location} (h : l.found = true) :
    (l.widen k lines).found = true := by
  simp only [found, Bool.and_eq_true, decide_eq_true_eq] at h ⊢
  exact ⟨h.1, Int.natCast_nonneg _⟩

end Location

/-! ## Cursors -/

namespace Cursor

/-- The cursor stands over a part of the text, and its resume points lie in that part. -/
structure Over (c : Cursor) (whole : Text) : Prop where
  part : ∃ front after, whole = front ++ c.text ++ after ∧ c.offset = front.length
  afterHeader_le : c.afterHeader ≤ c.text.length
  afterBody_le : c.afterBody ≤ c.text.length

theorem Over.within {c : Cursor} {whole : Text} (h : c.Over whole) : c.Within whole := by
  rcases h.part with ⟨front, after, hwhole, hoffset⟩
  constructor
  · rw [hoffset]
    exact Int.natCast_nonneg _
  · rw [hoffset, hwhole, Int.toNat_natCast, List.length_append, List.length_append]
    exact Nat.le_add_right _ _

/-- The places of the part are shifted as those of the whole text are. -/
theorem Over.shift_add {c : Cursor} {whole : Text} (h : c.Over whole) {i : Nat}
    (hi : i ≤ c.text.length) :
    whole.shift k (c.offset.toNat + i) = whole.shift k c.offset.toNat + c.text.shift k i := by
  rcases h.part with ⟨front, after, hwhole, hoffset⟩
  have hdrop : whole.drop c.offset.toNat = c.text ++ after := by
    rw [hoffset, hwhole, Int.toNat_natCast, List.append_assoc, List.drop_left]
  have hshift : Text.shift k (c.text ++ after) i = c.text.shift k i := by
    rw [Text.shift, List.take_append_of_le_length hi, Text.shift]
  rw [Text.shift_add, hdrop, hshift]

/-- The cursor over the expanded text. -/
def widen (k : Nat) (whole : Text) (c : Cursor) : Cursor :=
  ⟨c.text.widen k, whole.shift k c.offset.toNat, c.text.shift k c.afterHeader,
    c.text.shift k c.afterBody⟩

theorem bodyEnd_widen {text : Text} {m : Match} (hm : m.Lies text) :
    bodyEnd (text.widen k) (m.widen k text) = text.shift k (bodyEnd text m) := by
  have hends : (m.widen k text).text.endsWith Text.openBrace = m.text.endsWith Text.openBrace :=
    Text.endsWith_widen m.text (by decide) (by decide)
  have hnext : (m.widen k text).stop + Text.blanks ((text.widen k).drop (m.widen k text).stop) =
      text.shift k (m.stop + Text.blanks (text.drop m.stop)) := by
    rw [Text.shift_add, ← Text.blanks_widen, ← Text.drop_shift]
    rfl
  unfold bodyEnd
  rw [hends]
  split
  · rename_i hbrace
    rw [← blockEnd_widen, ← hm.shift_brace hbrace]
    rfl
  · simp only [hnext, Text.getElem?_shift_eq_some_iff text _ (show Text.openBrace ≠ '\t' by decide)
      (show Text.openBrace ≠ ' ' by decide), blockEnd_widen]
    split
    · rfl
    · rfl

theorem bodyEnd_le_length {text : Text} {m : Match} (hm : m.Lies text) :
    bodyEnd text m ≤ text.length := by
  unfold bodyEnd
  split
  · exact blockEnd_le_length _ _
  · simp only
    split
    · exact blockEnd_le_length _ _
    · exact hm.stop_le

/-- What a search gives, in the expanded text. -/
def widenFound (k : Nat) (whole text : Text) (found : Location × Match) : Location × Match :=
  (found.1.widen k whole.lines, found.2.widen k text)

variable {c : Cursor} {whole : Text} {p : Pattern}

theorem resolve_widen_from (hc : c.Over whole) (hplain : p.Plain) (hp : p.Anchored) {start : Nat}
    (hstart : start ≤ c.text.length) :
    HeaderCatalog.resolve p (c.text.widen k) (whole.widen k).lines (whole.shift k c.offset.toNat)
        (c.text.shift k start) =
      (HeaderCatalog.resolve p c.text whole.lines c.offset start).map
        (Option.map (widenFound k whole c.text)) := by
  unfold HeaderCatalog.resolve
  rw [Pattern.search_widen hplain hstart]
  cases hsearch : p.search c.text start with
  | error fault => rfl
  | ok found =>
    cases found with
    | none => rfl
    | some m =>
      have hlies := (Pattern.search_eq_some hp hsearch).lies
      have hle := hc.within.le_length
      have hindex : m.index ≤ c.text.length := Nat.le_trans hlies.le hlies.stop_le
      have hplace : (m.index : Int) + c.offset = ((c.offset.toNat + m.index : Nat) : Int) := by
        have hnonneg := hc.within.offset_nonneg
        omega
      have hfound := Location.found_ofIndex whole (c.offset.toNat + m.index) (by omega)
      have hwide :
          Location.ofIndex ((Match.widen k c.text m).index + whole.shift k c.offset.toNat)
            (whole.widen k).lines =
          (Location.ofIndex (m.index + c.offset) whole.lines).widen k whole.lines := by
        rw [hplace, ← Location.ofIndex_widen whole (by omega), hc.shift_add hindex, Match.widen,
          Int.natCast_add, Int.add_comm]
      simp only [Except.map, Option.map_some, Bind.bind, Except.bind, pure, Except.pure, hwide]
      rw [hplace, hfound, Location.found_widen hfound]
      rfl

theorem firstFrom_widen (hc : c.Over whole) (hplain : p.Plain) (hp : p.Anchored) {starts : List Nat}
    (hstarts : ∀ start ∈ starts, start ≤ c.text.length) :
    (c.widen k whole).firstFrom p (whole.widen k).lines (starts.map (c.text.shift k)) =
      (c.firstFrom p whole.lines starts).map (Option.map (widenFound k whole c.text)) := by
  induction starts with
  | nil => rfl
  | cons start rest ih =>
    rcases List.forall_mem_cons.1 hstarts with ⟨hstart, hrest⟩
    have hone := resolve_widen_from (k := k) hc hplain hp hstart
    rw [List.map_cons, firstFrom, firstFrom]
    simp only [Cursor.widen] at hone ih ⊢
    rw [hone]
    cases HeaderCatalog.resolve p c.text whole.lines c.offset start with
    | error fault => rfl
    | ok found =>
      cases found with
      | some lm => rfl
      | none => exact ih hrest

/-- The occurrence that a cursor chooses lies in its text. -/
theorem Chooses.lies {m : Match} (h : c.Chooses p m) : m.Lies c.text := by
  rcases Pattern.le_of_matchAt h.matches_at with ⟨hle, hstop⟩
  exact ⟨hle, hstop, h.text_eq⟩

theorem advance_widen {m : Match} (hm : m.Lies c.text) :
    (c.widen k whole).advance (m.widen k c.text) = (c.advance m).widen k whole := by
  have hbody := bodyEnd_widen (k := k) hm
  simp only [advance, widen, hbody]
  rfl

/-- A search with a cursor, in the text and in the expanded text. -/
theorem resolve_widen (hc : c.Over whole) (hplain : p.Plain) (hp : p.Anchored) :
    (c.widen k whole).resolve p (whole.widen k).lines =
      (c.resolve p whole.lines).map fun result =>
        (result.1.map (widenFound k whole c.text), result.2.widen k whole) := by
  have hstarts : ∀ start ∈ [c.afterBody, c.afterHeader, 0], start ≤ c.text.length := by
    simp [hc.afterBody_le, hc.afterHeader_le]
  have hfirst := firstFrom_widen (k := k) hc hplain hp hstarts
  have hresolve : ∀ found c', c.resolve p whole.lines = .ok (found, c') → ∀ l m,
      found = some (l, m) → m.Lies c.text := by
    intro found c' h l m hlm
    exact ((resolve_spec hc.within hp h).1 l m hlm).1.lies
  unfold resolve at hresolve ⊢
  rw [starts, firstFrom_eraseDups] at hresolve ⊢
  rw [starts, firstFrom_eraseDups]
  have hsame : [(c.widen k whole).afterBody, (c.widen k whole).afterHeader, 0] =
      [c.afterBody, c.afterHeader, 0].map (c.text.shift k) := rfl
  rw [hsame, hfirst]
  cases hfound : c.firstFrom p whole.lines [c.afterBody, c.afterHeader, 0] with
  | error fault => rfl
  | ok found =>
    cases found with
    | none => rfl
    | some lm =>
      -- The match lies in the text, so moving past it commutes with the expansion.
      have hlies : lm.2.Lies c.text := by
        rw [hfound] at hresolve
        exact hresolve _ _ rfl lm.1 lm.2 rfl
      simp only [Except.map, Option.map_some, Bind.bind, Except.bind, pure, Except.pure]
      rw [← advance_widen hlies]
      rfl

/-- A search leaves the cursor over its part of the text. -/
theorem Over.resolve (hc : c.Over whole) (hp : p.Anchored) {found : Option (Location × Match)}
    {c' : Cursor} (h : c.resolve p whole.lines = .ok (found, c')) : c'.Over whole := by
  rcases resolve_spec hc.within hp h with ⟨hsome, hnone⟩
  cases found with
  | none =>
    rw [(hnone rfl).1]
    exact hc
  | some lm =>
    rcases hsome lm.1 lm.2 rfl with ⟨hchooses, rfl, -⟩
    exact ⟨hc.part, hchooses.lies.stop_le, bodyEnd_le_length hchooses.lies⟩

theorem over_ofText (text : Text) : (ofText text 0).Over text :=
  ⟨⟨[], [], by simp [ofText], rfl⟩, Nat.zero_le _, Nat.zero_le _⟩

theorem over_ofClassText {body : ClassText} {text : Text} (h : body.CutFrom text) :
    (ofText body.text body.start).Over text := by
  rcases h with ⟨front, after, htext, hstart, -, -⟩
  exact ⟨⟨front, after, htext, by rw [← hstart]; rfl⟩, Nat.zero_le _, Nat.zero_le _⟩

end Cursor
end HeaderCatalog
