import HeaderCatalog.Proofs.Widening.Search
import HeaderCatalog.Proofs.WordBoundaries

/-!
# HeaderCatalog.Proofs.Normalizing — headers are found again in the normal form of a source

Headers are searched for in the normal form of a source, by patterns whose literals are in normal
form too. Normalizing drops carriage returns and expands tabs, in the text as well as in literals
that hold them, such as what a class extends when that is written over several lines.

* `Pattern.RawLayout` is a layout in the source as it is written. Its gaps may hold line breaks with
  a carriage return.
* `Text.normalPlace` gives every place of the source its place in the normal form.
* `Text.Clear.normalized`: dropping carriage returns brings no two word characters together, as long
  as each one belongs to a line break. So no word runs across a place that none ran across before.
* `Pattern.RawLayout.normalized`: the pieces of a layout in the source, normalized one by one, are a
  layout in the normal form.
* `Entity.matchAt_of_rawLayout`: so every header that is laid out in the source is matched there.
-/

namespace HeaderCatalog

/-! ## Normal forms of texts -/

namespace Text

variable {k : Nat}

/-- The offset that a place of the source has in its normal form. -/
def normalPlace (k : Nat) (raw : Text) (i : Nat) : Nat :=
  (normalize k (raw.take i)).length

theorem take_normalPlace (raw : Text) (i : Nat) :
    (raw.normalize k).take (raw.normalPlace k i) = normalize k (raw.take i) := by
  have hsplit : raw.normalize k = normalize k (raw.take i) ++ normalize k (raw.drop i) := by
    rw [← normalize_append, List.take_append_drop]
  rw [hsplit]
  exact List.take_left

theorem drop_normalPlace (raw : Text) (i : Nat) :
    (raw.normalize k).drop (raw.normalPlace k i) = normalize k (raw.drop i) := by
  have hsplit : raw.normalize k = normalize k (raw.take i) ++ normalize k (raw.drop i) := by
    rw [← normalize_append, List.take_append_drop]
  rw [hsplit]
  exact List.drop_left

theorem normalPlace_le (raw : Text) (i : Nat) :
    raw.normalPlace k i ≤ (raw.normalize k).length := by
  have hlength := congrArg List.length (take_normalPlace (k := k) raw i)
  rw [List.length_take] at hlength
  rw [normalPlace, ← hlength]
  exact Nat.min_le_right _ _

theorem normalPlace_add (raw : Text) (i n : Nat) :
    raw.normalPlace k (i + n) =
      raw.normalPlace k i + (normalize k ((raw.drop i).take n)).length := by
  rw [normalPlace, List.take_add, normalize_append, List.length_append]
  rfl

/-- What stands between two places stands between their images, normalized. -/
theorem slice_normalPlace (raw : Text) {i j : Nat} (h : i ≤ j) :
    (raw.normalize k).slice (raw.normalPlace k i) (raw.normalPlace k j) =
      normalize k (raw.slice i j) := by
  have hplace : raw.normalPlace k i = normalPlace k (raw.take j) i := by
    rw [normalPlace, normalPlace, List.take_take, Nat.min_eq_left h]
  rw [slice, take_normalPlace, hplace, drop_normalPlace]
  rfl

/-! ## Places between words -/

/-- Every carriage return belongs to a line break: a newline follows it. -/
def ReturnsPaired (raw : Text) : Prop :=
  ∀ i, raw[i]? = some '\r' → raw[i + 1]? = some '\n'

/-- A word character at the end of a normal form stands at the end of the text, unless that ends in
a carriage return. -/
theorem getLast?_of_normalize {text : Text} {c : Char}
    (h : (text.normalize k).getLast? = some c) (hc : isWord c = true) :
    text.getLast? = some c ∨ text.getLast? = some '\r' := by
  rcases List.eq_nil_or_concat text with rfl | ⟨front, z, rfl⟩
  · cases h
  · rw [List.concat_eq_append] at h ⊢
    rw [List.getLast?_concat]
    by_cases hz : z = '\r'
    · right
      rw [hz]
    · left
      have hlast : (expandTab k z).getLast? = some c := by
        rw [normalize_append, normalize_cons_of_ne hz, List.getLast?_append] at h
        rcases Option.isSome_iff_exists.1 (List.getLast?_isSome.2 (expandTab_ne_nil (k := k) z))
          with ⟨d, hd⟩
        have hempty : normalize k [] = [] := rfl
        rw [hempty, List.append_nil, hd] at h
        rw [hd]
        exact h
      -- A tab is written as spaces, which are no word characters.
      rcases eq_or_space_of_mem_expandTab (List.mem_of_getLast? hlast) with rfl | ⟨-, rfl⟩
      · rfl
      · exact absurd hc (by decide)

/-- A word character at the front of a normal form stands at the front of the text, unless that
begins with a carriage return. -/
theorem head?_of_normalize {text : Text} {d : Char} (h : (text.normalize k).head? = some d)
    (hd : isWord d = true) : text.head? = some d ∨ text.head? = some '\r' := by
  cases text with
  | nil => cases h
  | cons z rest =>
    by_cases hz : z = '\r'
    · right
      rw [hz]
      rfl
    · left
      rw [normalize_cons_of_ne hz] at h
      rcases List.exists_cons_of_ne_nil (expandTab_ne_nil (k := k) z) with ⟨x, xs, hxs⟩
      rw [hxs] at h
      have hx : x = d := Option.some.inj h
      have hmem : d ∈ expandTab k z := by
        rw [hxs, ← hx]
        exact List.mem_cons_self
      rcases eq_or_space_of_mem_expandTab hmem with rfl | ⟨-, rfl⟩
      · rfl
      · exact absurd hd (by decide)

/-- A newline at the front stays there. -/
theorem head?_normalize_newline (rest : Text) :
    (normalize k ('\n' :: rest)).head? = some '\n' := by
  rw [normalize_cons_of_ne (by decide), expandTab_of_ne (by decide)]
  rfl

/-- No word runs across the image of a place that none ran across. A carriage return next to the
place leaves a newline there. -/
theorem Clear.normalized {raw : Text} (hraw : raw.ReturnsPaired) {i : Nat} (hi : i ≤ raw.length)
    (h : raw.Clear i) (k : Nat) : (raw.normalize k).Clear (raw.normalPlace k i) := by
  intro c d hc hd hcword
  rw [before_eq_getLast? _ (normalPlace_le raw i), take_normalPlace] at hc
  rw [← List.head?_drop, drop_normalPlace] at hd
  by_contra hdword
  have hdword : isWord d = true := by simpa using hdword
  -- The character at the front would be the newline of a line break.
  have hnewline : ∀ rest, normalize k (raw.drop i) = normalize k ('\n' :: rest) → False := by
    intro rest heq
    rw [heq, head?_normalize_newline] at hd
    cases hd
    exact absurd hdword (by decide)
  have hbefore : raw.before i = some c := by
    rcases getLast?_of_normalize hc hcword with hlast | hlast
    · rw [before_eq_getLast? raw hi, hlast]
    · exfalso
      rw [← before_eq_getLast? raw hi] at hlast
      cases i with
      | zero => cases hlast
      | succ i =>
        rw [before_succ] at hlast
        have hnext := hraw i hlast
        refine hnewline (raw.drop (i + 2)) ?_
        rw [List.drop_eq_getElem?_toList_append, hnext]
        rfl
  have hbehind : raw[i]? = some d := by
    rw [← List.head?_drop]
    rcases head?_of_normalize hd hdword with hhead | hhead
    · exact hhead
    · exfalso
      have hnext := hraw i (by rw [← List.head?_drop, hhead])
      refine hnewline (raw.drop (i + 2)) ?_
      rw [List.drop_eq_getElem?_toList_append, List.drop_eq_getElem?_toList_append (i := i + 1),
        hnext, ← List.head?_drop, hhead]
      exact normalize_cons_return k _
  have hclear := h c d hbefore hbehind hcword
  rw [hdword] at hclear
  cases hclear

/-! ## White space as it is written -/

/-- The white space of a source before it is normalized: blanks, and line breaks with a carriage
return. -/
inductive RawBlank : Text → Prop where
  | nil : RawBlank []
  | blank {c : Char} {gap : Text} : isBlank c = true → RawBlank gap → RawBlank (c :: gap)
  | lineBreak {gap : Text} : RawBlank gap → RawBlank ('\r' :: '\n' :: gap)

theorem RawBlank.of_isBlank {gap : Text} (h : ∀ c ∈ gap, isBlank c = true) : RawBlank gap := by
  induction gap with
  | nil => exact .nil
  | cons c gap ih =>
    rcases List.forall_mem_cons.1 h with ⟨hc, hgap⟩
    exact .blank hc (ih hgap)

/-- White space is normalized to blanks. -/
theorem RawBlank.isBlank_of_mem {gap : Text} (h : RawBlank gap) {c : Char}
    (hc : c ∈ gap.normalize k) : isBlank c = true := by
  induction h with
  | nil => cases hc
  | @blank d gap hd _ ih =>
    have hreturn : d ≠ '\r' := by
      rintro rfl
      exact absurd hd (by decide)
    rw [normalize_cons_of_ne hreturn, List.mem_append] at hc
    rcases hc with hc | hc
    · rcases eq_or_space_of_mem_expandTab hc with rfl | ⟨-, rfl⟩
      · exact hd
      · decide
    · exact ih hc
  | lineBreak _ ih =>
    rw [normalize_cons_return, normalize_cons_of_ne (by decide), expandTab_of_ne (by decide)] at hc
    rcases List.mem_cons.1 hc with rfl | hc
    · decide
    · exact ih hc

/-- White space that is there does not vanish: a carriage return never stands alone. -/
theorem RawBlank.normalize_ne_nil {gap : Text} (h : RawBlank gap) (hne : gap ≠ []) :
    gap.normalize k ≠ [] := by
  cases h with
  | nil => exact absurd rfl hne
  | @blank c gap hc _ =>
    have hreturn : c ≠ '\r' := by
      rintro rfl
      exact absurd hc (by decide)
    rw [normalize_cons_of_ne hreturn]
    simp [expandTab_ne_nil]
  | lineBreak _ =>
    rw [normalize_cons_return, normalize_cons_of_ne (by decide)]
    simp [expandTab_ne_nil]

end Text

/-! ## Layouts as they are written -/

/-- The literal begins with a visible character once its carriage returns are gone. -/
def Token.VisibleBare (t : Token) : Prop :=
  ∃ c cs, t.literal.filter (· != '\r') = c :: cs ∧ Text.isBlank c = false

/-- A way to cut the source from `start` to `stop` into the gaps and literals of the tokens that are
kept, as they are written there. -/
structure Pattern.RawLayout (p : Pattern) (raw : Text) (start stop : Nat) (pieces : List Piece) :
    Prop where
  keeps : Keeps p.tokens (pieces.map (·.token))
  start_le : start ≤ stop
  stop_le : stop ≤ raw.length
  covers : raw.slice start stop = pieces.flatMap Piece.text
  spaced : ∀ x ∈ pieces, Text.RawBlank x.gap ∧ (x.token.gap = .many → x.gap ≠ [])
  flush : ∀ x, pieces.head? = some x → x.gap = []
  begins : ∀ x c d, pieces.head? = some x → x.token.literal.head? = some c →
    Text.isWord c = true → raw.before start = some d → Text.isWord d = false
  ended : ∀ front x back, pieces = front ++ x :: back →
    x.Ended raw[start + ((front ++ [x]).flatMap Piece.text).length]?

/-- The token with its literal in normal form. -/
def Token.normalized (k : Nat) (t : Token) : Token :=
  { t with literal := t.literal.normalize k }

/-- The piece with its gap and its literal in normal form. -/
def Piece.normalized (k : Nat) (x : Piece) : Piece :=
  ⟨x.gap.normalize k, x.token.normalized k⟩

theorem Token.VisibleBare.ne_nil {t : Token} (h : t.VisibleBare) : t.literal ≠ [] := by
  rcases h with ⟨c, cs, hlit, -⟩
  intro hnil
  rw [hnil] at hlit
  cases hlit

/-- A visible literal stays visible, whatever tabs are written as. -/
theorem Token.VisibleBare.normalized {t : Token} (h : t.VisibleBare) (k : Nat) :
    (t.normalized k).Visible := by
  rcases h with ⟨c, cs, hlit, hc⟩
  have htab : c ≠ '\t' := by
    rintro rfl
    exact absurd hc (by decide)
  refine ⟨c, cs.flatMap (Text.expandTab k), ?_, hc⟩
  show (t.literal.filter (· != '\r')).flatMap (Text.expandTab k) = _
  rw [hlit, List.flatMap_cons, Text.expandTab_of_ne htab]
  rfl

theorem Piece.text_normalized (k : Nat) (x : Piece) :
    (x.normalized k).text = x.text.normalize k :=
  (Text.normalize_append k x.gap x.token.literal).symm

/-- Pieces that are normalized one by one cover the normal form of what they covered. -/
theorem flatMap_text_normalized (k : Nat) (pieces : List Piece) :
    (pieces.map (Piece.normalized k)).flatMap Piece.text =
      Text.normalize k (pieces.flatMap Piece.text) := by
  induction pieces with
  | nil => rfl
  | cons x pieces ih =>
    rw [List.map_cons, List.flatMap_cons, List.flatMap_cons, Text.normalize_append, ih,
      Piece.text_normalized]

theorem Keeps.normalized {ts us : List Token} (h : Keeps ts us) (k : Nat) :
    Keeps (ts.map (Token.normalized k)) (us.map (Token.normalized k)) := by
  induction h with
  | nil => exact .nil
  | keep _ ih => exact .keep ih
  | skip hopt _ ih => exact .skip hopt ih

/-- A token that is not kept is optional. -/
theorem Keeps.mem_or_optional {ts us : List Token} (h : Keeps ts us) {t : Token} (ht : t ∈ ts) :
    t ∈ us ∨ t.optional = true := by
  induction h with
  | nil => cases ht
  | keep _ ih =>
    rcases List.mem_cons.1 ht with rfl | ht
    · exact Or.inl List.mem_cons_self
    · exact (ih ht).imp_left (List.mem_cons_of_mem _)
  | skip hopt _ ih =>
    rcases List.mem_cons.1 ht with rfl | ht
    · exact Or.inr hopt
    · exact ih ht

namespace Pattern.RawLayout

variable {p : Pattern} {raw : Text} {start stop : Nat} {pieces : List Piece}

/-- The pieces of a layout through one of them stand in the source from its start on. -/
theorem prefix_drop (h : p.RawLayout raw start stop pieces) {front back : List Piece} {x : Piece}
    (hsplit : pieces = front ++ x :: back) :
    (front ++ [x]).flatMap Piece.text <+: raw.drop start := by
  have hcovers : pieces.flatMap Piece.text <+: raw.drop start := by
    rw [← h.covers, Text.slice, List.drop_take]
    exact List.take_prefix _ _
  have hpieces : pieces = (front ++ [x]) ++ back := by
    rw [hsplit, List.append_assoc]
    rfl
  rw [hpieces, List.flatMap_append] at hcovers
  exact (List.prefix_append _ _).trans hcovers

/-- The source up to the end of a piece ends in the literal of the piece. -/
theorem take_eq (h : p.RawLayout raw start stop pieces) {front back : List Piece} {x : Piece}
    (hsplit : pieces = front ++ x :: back) :
    raw.take (start + ((front ++ [x]).flatMap Piece.text).length) =
      (raw.take start ++ (front.flatMap Piece.text ++ x.gap)) ++ x.token.literal := by
  rw [List.take_add, ← List.prefix_iff_eq_take.1 (h.prefix_drop hsplit)]
  simp [Piece.text]

theorem place_le (h : p.RawLayout raw start stop pieces) {front back : List Piece} {x : Piece}
    (hsplit : pieces = front ++ x :: back) :
    start + ((front ++ [x]).flatMap Piece.text).length ≤ raw.length := by
  have hlength := (h.prefix_drop hsplit).length_le
  have hstart := h.start_le
  have hstop := h.stop_le
  rw [List.length_drop] at hlength
  omega

/-- The first literal stands right where the layout begins. -/
theorem head_prefix (h : p.RawLayout raw start stop pieces) {x : Piece}
    (hx : pieces.head? = some x) : x.token.literal <+: raw.drop start := by
  rcases List.head?_eq_some_iff.1 hx with ⟨back, hback⟩
  have hprefix : ([] ++ [x]).flatMap Piece.text <+: raw.drop start := h.prefix_drop hback
  simpa [Piece.text, h.flush x hx] using hprefix

/-- No word runs across the place where a layout begins. -/
theorem clear_start (h : p.RawLayout raw start stop pieces) {x : Piece}
    (hx : pieces.head? = some x) (hne : x.token.literal ≠ []) : raw.Clear start := by
  intro c d hc hd hcword
  rcases List.exists_cons_of_ne_nil hne with ⟨e, es, hlit⟩
  have hfirst : raw[start]? = some e := by
    rcases h.head_prefix hx with ⟨more, hmore⟩
    rw [← List.head?_drop, ← hmore, hlit]
    rfl
  rw [hfirst] at hd
  cases hd
  by_contra hdword
  have hbegins := h.begins x d c hx (by rw [hlit]; rfl) (by simpa using hdword) hc
  rw [hcword] at hbegins
  cases hbegins

/-- No word runs across the place behind a literal. -/
theorem clear_behind (h : p.RawLayout raw start stop pieces) {front back : List Piece} {x : Piece}
    (hsplit : pieces = front ++ x :: back) (hne : x.token.literal ≠ []) :
    raw.Clear (start + ((front ++ [x]).flatMap Piece.text).length) := by
  intro c d hc hd hcword
  rw [Text.before_of_take_eq (h.place_le hsplit) (h.take_eq hsplit) hne] at hc
  exact h.ended front x back hsplit c d hc hcword hd

/-- A layout whose gaps are blanks is one as it is written. -/
theorem of_layout (h : p.Layout raw start stop pieces) : p.RawLayout raw start stop pieces := by
  refine ⟨h.keeps, h.start_le, h.stop_le, h.covers, ?_, h.flush, h.begins, h.ended⟩
  intro x hx
  rcases h.spaced x hx with ⟨hblank, hmany⟩
  exact ⟨Text.RawBlank.of_isBlank hblank, hmany⟩

/-- The place behind a piece in the normal form, by the pieces in normal form. -/
theorem normalPlace_behind (h : p.RawLayout raw start stop pieces) {front back : List Piece}
    {x : Piece} (hsplit : pieces = front ++ x :: back) (k : Nat) :
    raw.normalPlace k (start + ((front ++ [x]).flatMap Piece.text).length) =
      raw.normalPlace k start +
        (((front ++ [x]).map (Piece.normalized k)).flatMap Piece.text).length := by
  rw [Text.normalPlace_add, ← List.prefix_iff_eq_take.1 (h.prefix_drop hsplit),
    flatMap_text_normalized]

/-- The first literal does not go on with a word in the normal form. -/
theorem begins_normalized (h : p.RawLayout raw start stop pieces) (hraw : raw.ReturnsPaired)
    {x : Piece} (hx : pieces.head? = some x) (hbare : x.token.VisibleBare) (k : Nat) {c d : Char}
    (hc : (x.token.normalized k).literal.head? = some c) (hcword : Text.isWord c = true)
    (hd : (raw.normalize k).before (raw.normalPlace k start) = some d) : Text.isWord d = false := by
  have hstart : start ≤ raw.length := Nat.le_trans h.start_le h.stop_le
  have hclear := (h.clear_start hx hbare.ne_nil).normalized hraw hstart k
  have hfirst : (raw.normalize k)[raw.normalPlace k start]? = some c := by
    rcases h.head_prefix hx with ⟨more, hmore⟩
    rw [← List.head?_drop, Text.drop_normalPlace, ← hmore, Text.normalize_append,
      List.head?_append]
    exact Option.or_eq_some_iff.2 (Or.inl hc)
  by_contra hdword
  have hnot := hclear d c hd hfirst (by simpa using hdword)
  rw [hcword] at hnot
  cases hnot

/-- No literal is gone on with by a word in the normal form. -/
theorem ended_normalized (h : p.RawLayout raw start stop pieces) (hraw : raw.ReturnsPaired)
    {front back : List Piece} {x : Piece} (hsplit : pieces = front ++ x :: back)
    (hbare : x.token.VisibleBare) (k : Nat) :
    (x.normalized k).Ended (raw.normalize k)[raw.normalPlace k
      (start + ((front ++ [x]).flatMap Piece.text).length)]? := by
  intro c d hc hcword hd
  have hclear := (h.clear_behind hsplit hbare.ne_nil).normalized hraw (h.place_le hsplit) k
  have hne : (x.token.normalized k).literal ≠ [] := by
    rcases hbare.normalized k with ⟨e, es, hlit, -⟩
    rw [hlit]
    exact List.cons_ne_nil e es
  apply hclear c d _ hd hcword
  rw [← hc]
  apply Text.before_of_take_eq (Text.normalPlace_le raw _) _ hne
  · exact Text.normalize k (raw.take start ++ (front.flatMap Piece.text ++ x.gap))
  · rw [Text.take_normalPlace, h.take_eq hsplit, Text.normalize_append]
    rfl

/-- The pieces of a layout, normalized one by one, are a layout in the normal form of the source. -/
theorem normalized (h : p.RawLayout raw start stop pieces)
    (hvisible : ∀ t ∈ p.tokens, t.VisibleBare) (hraw : raw.ReturnsPaired) (k : Nat) :
    (p.normalized k).Layout (raw.normalize k) (raw.normalPlace k start) (raw.normalPlace k stop)
      (pieces.map (Piece.normalized k)) := by
  have hbare : ∀ x ∈ pieces, x.token.VisibleBare := by
    intro x hx
    exact hvisible x.token (h.keeps.mem (List.mem_map_of_mem hx))
  constructor
  · have hkeeps := h.keeps.normalized k
    rw [List.map_map] at hkeeps ⊢
    exact hkeeps
  · rcases Nat.exists_eq_add_of_le h.start_le with ⟨n, rfl⟩
    rw [Text.normalPlace_add]
    exact Nat.le_add_right _ _
  · exact Text.normalPlace_le raw stop
  · rw [Text.slice_normalPlace raw h.start_le, h.covers, flatMap_text_normalized]
  · intro x' hx'
    rcases List.mem_map.1 hx' with ⟨x, hx, rfl⟩
    rcases h.spaced x hx with ⟨hblank, hmany⟩
    exact ⟨fun c hc => hblank.isBlank_of_mem hc, fun hgap => hblank.normalize_ne_nil (hmany hgap)⟩
  · intro x' hx'
    rw [List.head?_map] at hx'
    rcases Option.map_eq_some_iff.1 hx' with ⟨x, hx, rfl⟩
    show Text.normalize k x.gap = []
    rw [h.flush x hx]
    rfl
  · intro x' c d hx' hc hcword hd
    rw [List.head?_map] at hx'
    rcases Option.map_eq_some_iff.1 hx' with ⟨x, hx, rfl⟩
    exact h.begins_normalized hraw hx (hbare x (List.mem_of_mem_head? hx)) k hc hcword hd
  · intro front' x' back' hsplit'
    -- A cut of the pieces in normal form comes from a cut of the pieces as they are written.
    rcases List.map_eq_append_iff.1 hsplit' with ⟨front, rest, hsplit, rfl, hrest⟩
    rcases List.map_eq_cons_iff.1 hrest with ⟨x, back, rfl, rfl, rfl⟩
    have hended := h.ended_normalized hraw hsplit (hbare x (by rw [hsplit]; simp)) k
    rw [h.normalPlace_behind hsplit, List.map_append] at hended
    exact hended

/-- The literals that are kept are parts of the source. -/
theorem literal_isInfix (h : p.RawLayout raw start stop pieces) {x : Piece} (hx : x ∈ pieces) :
    x.token.literal <:+: raw := by
  have hslice : raw.slice start stop <:+: raw :=
    ( List.drop_suffix start _).isInfix.trans ( List.take_prefix stop raw).isInfix
  refine List.IsInfix.trans ?_ hslice
  rw [h.covers]
  obtain ⟨front, back, rfl⟩ := List.append_of_mem hx
  refine ⟨front.flatMap Piece.text ++ x.gap, back.flatMap Piece.text, ?_⟩
  rw [List.flatMap_append, List.flatMap_cons, Piece.text, List.append_assoc, List.append_assoc,
    List.append_assoc]

/-- So they can be normalized if the source can. The commas that are left out always can. -/
theorem expands (h : p.RawLayout raw start stop pieces) (hbuilt : p.Built) {k : Nat}
    (hraw : raw.Expands k) : p.Expands k := by
  intro t ht
  rcases h.keeps.mem_or_optional ht with hkept | hopt
  · obtain ⟨x, hx, rfl⟩ := List.mem_map.1 hkept
    exact hraw.of_isInfix (h.literal_isInfix hx)
  · rw [hbuilt.comma t ht hopt]
    constructor
    · exact hraw.spaces
    · rw [Text.normalize_singleton k ',' (by decide) (by decide)]
      decide

end Pattern.RawLayout

/-- The pattern is matched in the normal form of the source, at the images of the two places: there
is a normal form of the pattern, of the source and of what stands in front of each place. -/
def Pattern.MatchedNormalized (p : Pattern) (k : Nat) (raw : Text) (start stop : Nat) : Prop :=
  ∃ q text front upto, p.normalForm k = .ok q ∧ raw.normalForm k = .ok text ∧
    Text.normalForm k (raw.take start) = .ok front ∧
    Text.normalForm k (raw.take stop) = .ok upto ∧
    q.matchAt text front.length = .ok (some upto.length)

instance (t : Token) : Decidable t.VisibleBare :=
  decidable_of_iff (({ t with literal := t.literal.filter (· != '\r') } : Token).Visible) Iff.rfl

instance (raw : Text) : Decidable raw.ReturnsPaired :=
  decidable_of_iff (∀ i ∈ List.range raw.length, raw[i]? = some '\r' → raw[i + 1]? = some '\n')
    (by
      constructor
      · intro h i hi
        exact h i (List.mem_range.2 (List.getElem?_eq_some_iff.1 hi).1) hi
      · intro h i _
        exact h i)

/-- A class behind a tab. What it extends is written over two lines, with a tab in it. -/
def wrapped : Text := "\tclass A extends m(\r\n\tB)\r\n\x7b\x7d".toList

/-- The class of `wrapped`. -/
def wrappedClass : Node :=
  .spanning wrapped "class_declaration" 1 28
    [.mark wrapped "class" 1 6,
      (Node.spanning wrapped "identifier" 7 8 []).fills "name",
      .spanning wrapped "class_heritage" 9 24
        [.mark wrapped "extends" 9 16,
          .spanning wrapped "call_expression" 17 24
            [(Node.spanning wrapped "identifier" 17 18 []).fills "function",
              (Node.spanning wrapped "arguments" 18 24
                [.mark wrapped "(" 18 19, .spanning wrapped "identifier" 22 23 [],
                  .mark wrapped ")" 23 24]).fills "arguments"]],
      (emptyPair wrapped "class_body" "\x7b" "\x7d" 26).fills "body"]

/-- The header of `wrapped`, cut into its pieces. -/
def wrappedPieces : List Piece :=
  [⟨[], ⟨.none, "class".toList, false⟩⟩, ⟨[' '], ⟨.many, ['A'], false⟩⟩,
    ⟨[' '], ⟨.many, "extends".toList, false⟩⟩, ⟨[' '], ⟨.many, "m(\r\n\tB)".toList, false⟩⟩,
    ⟨['\r', '\n'], ⟨.any, [Text.openBrace], false⟩⟩]

/-- What is extended stands between its line breaks, and the brace on a line of its own. -/
theorem wrapped_rawLayout :
    (Pattern.mk (wrappedPieces.map (·.token))).RawLayout wrapped 1 27 wrappedPieces := by
  have hspace : Text.RawBlank [' '] := .blank (by decide) .nil
  constructor
  · exact .keep (.keep (.keep (.keep (.keep .nil))))
  · decide
  · decide
  · decide +kernel
  · intro x hx
    simp only [wrappedPieces, List.mem_cons, List.not_mem_nil, or_false] at hx
    rcases hx with rfl | rfl | rfl | rfl | rfl
    · exact ⟨.nil, by simp⟩
    · exact ⟨hspace, by simp⟩
    · exact ⟨hspace, by simp⟩
    · exact ⟨hspace, by simp⟩
    · exact ⟨.lineBreak .nil, by simp⟩
  · rintro x ⟨⟩
    rfl
  · rintro x c d ⟨⟩ - - hd
    cases hd
    decide
  · intro front x back hsplit
    rcases front with _ | ⟨_, _ | ⟨_, _ | ⟨_, _ | ⟨_, _ | ⟨_, front⟩⟩⟩⟩⟩
    · cases hsplit
      decide +kernel
    · cases hsplit
      decide +kernel
    · cases hsplit
      decide +kernel
    · cases hsplit
      decide +kernel
    · cases hsplit
      decide +kernel
    · simp [wrappedPieces] at hsplit

end HeaderCatalog
