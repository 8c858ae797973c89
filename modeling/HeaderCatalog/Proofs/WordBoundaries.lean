import HeaderCatalog.Proofs.Layouts
import HeaderCatalog.Proofs.Searching

/-!
# HeaderCatalog.Proofs.WordBoundaries — a match never cuts a word

The matcher looks at the character in front of a token for the first token only, and at the
character behind it for every token. No word is cut all the same, on neither side of any token.

* `Text.Clear` says of a place that no word runs across it.
* `spansFrom` goes through the tokens as the matcher does and writes down where their literals
  stand.
* `Token.Stands.clear_start` and `Token.Stands.clear_stop` are the step: from a clear place on, a
  token that is read stands between two clear places. Where its gap is empty, the place in front of
  it is the one behind the token before it, which was checked there.
* `Pattern.consumed_on_boundaries` says so of all tokens of a match.
-/

namespace HeaderCatalog

/-! ## Places that no word runs across -/

/-- No word runs across the place: the characters on its two sides are not both word characters. -/
def Text.Clear (text : Text) (i : Nat) : Prop :=
  ∀ c d, text.before i = some c → text[i]? = some d → Text.isWord c = true → Text.isWord d = false

theorem Text.not_isWord_of_isBlank {c : Char} (h : Text.isBlank c = true) :
    Text.isWord c = false := by
  simp only [isBlank, Bool.or_eq_true, beq_iff_eq] at h
  rcases h with (rfl | rfl) | rfl
  · decide
  · decide
  · decide

namespace Token.Stands

variable {t : Token} {text : Text} {i n : Nat}

/-- Where the literal of a token that is read stands in the text. -/
theorem slice_eq (h : t.Stands (text.drop i) n) :
    text.slice (i + n - t.literal.length) (i + n) = t.literal := by
  have hlength := h.length
  have hstart : i + n - t.literal.length = i + t.gapLength (text.drop i) := by omega
  have hstop : i + n = i + t.gapLength (text.drop i) + t.literal.length := by omega
  rw [hstart, hstop, Text.slice_add, ← List.drop_drop]
  exact (List.prefix_iff_eq_take.1 h.literal).symm

/-- The place in front of the literal is clear: a blank of the gap stands there, or it is the place
where the reading began. -/
theorem clear_start (h : t.Stands (text.drop i) n) (hi : text.Clear i) :
    text.Clear (i + n - t.literal.length) := by
  have hlength := h.length
  by_cases hgap : t.gapLength (text.drop i) = 0
  · have hstart : i + n - t.literal.length = i := by omega
    rw [hstart]
    exact hi
  · intro c d hc _ hword
    exfalso
    -- The last character of the gap stands in front of the literal.
    have hplace : text.before (i + n - t.literal.length) =
        (text.drop i)[t.gapLength (text.drop i) - 1]? := by
      rw [Text.before, if_neg (by omega), List.getElem?_drop]
      congr 1
      omega
    have hmem : c ∈ (text.drop i).take (t.gapLength (text.drop i)) := by
      rw [hplace] at hc
      exact List.mem_of_getElem? (i := t.gapLength (text.drop i) - 1)
        ((List.getElem?_take_of_lt (by omega)).trans hc)
    have hblank := Text.not_isWord_of_isBlank (Token.isBlank_of_mem_gap hmem)
    rw [hword] at hblank
    cases hblank

/-- The character in front of the place behind a literal is its last one. -/
theorem before_stop (h : t.Stands (text.drop i) n) (hi : i ≤ text.length) :
    text.before (i + n) = t.literal.getLast? := by
  have hin := h.le_length
  rw [List.length_drop] at hin
  apply Text.before_of_take_eq (by omega) _ h.nonempty
  · exact text.take i ++ (text.drop i).take (t.gapLength (text.drop i))
  · rw [List.take_add, h.take_eq, List.append_assoc]

/-- The place behind the literal is clear, as the token itself asks. -/
theorem clear_stop (h : t.Stands (text.drop i) n) (hi : i ≤ text.length) :
    text.Clear (i + n) := by
  intro c d hc hd hword
  rw [h.before_stop hi] at hc
  apply h.ended c d hc hword
  rw [List.getElem?_drop]
  exact hd

end Token.Stands

/-! ## The tokens of a match -/

/-- A token that was read, and where its literal stands in the text. -/
structure Span where
  token : Token
  start : Nat
  stop : Nat
deriving DecidableEq, Repr

/-- The tokens that are read from the place `i` of a text on, as the matcher goes through them. -/
def spansFrom (text : Text) : Nat → List Token → Except Fault (Option (List Span))
  | _, [] => .ok (some [])
  | i, t :: ts => do
    match ← t.take? (text.drop i) with
    | some n =>
      return (← spansFrom text (i + n) ts).map (⟨t, i + n - t.literal.length, i + n⟩ :: ·)
    | none => if t.optional then spansFrom text i ts else return none

/-- The tokens that the match at a place consumes; there are none to give where the pattern does not
match. -/
def Pattern.consumed (p : Pattern) (text : Text) (start : Nat) :
    Except Fault (Option (List Span)) := do
  match ← p.matchAt text start with
  | some _ => spansFrom text start p.tokens
  | none => return none

namespace Span

/-- The literal of the token stands in the span, and no word runs across an end of the span. -/
structure Stands (s : Span) (text : Text) : Prop where
  start_lt : s.start < s.stop
  stop_le : s.stop ≤ text.length
  literal : text.slice s.start s.stop = s.token.literal
  clear_start : text.Clear s.start
  clear_stop : text.Clear s.stop

/-- A literal that begins with a word character has none in front of it, and one that ends in a word
character has none behind it. -/
structure OnBoundaries (s : Span) (text : Text) : Prop where
  begins : ∀ c, s.token.literal.head? = some c → Text.isWord c = true →
    s.start = 0 ∨ ∃ d, text[s.start - 1]? = some d ∧ Text.isWord d = false
  ends : ∀ c, s.token.literal.getLast? = some c → Text.isWord c = true →
    s.stop = text.length ∨ ∃ d, text[s.stop]? = some d ∧ Text.isWord d = false

end Span

/-- The first character of a literal stands at the start of its span. -/
theorem Span.Stands.getElem?_start {s : Span} {text : Text} (h : s.Stands text) :
    text[s.start]? = s.token.literal.head? := by
  rw [← h.literal, Text.slice, List.head?_drop, List.getElem?_take_of_lt h.start_lt]

/-- The last character of a literal stands in front of the end of its span. -/
theorem Span.Stands.before_stop {s : Span} {text : Text} (h : s.Stands text) :
    text.before s.stop = s.token.literal.getLast? := by
  have hlength : ¬ (text.take s.stop).length ≤ s.start := by
    rw [List.length_take, Nat.min_eq_left h.stop_le]
    exact Nat.not_le.2 h.start_lt
  rw [← h.literal, Text.slice, List.getLast?_drop, if_neg hlength,
    Text.before_eq_getLast? text h.stop_le]

/-- A span between clear places is on the boundaries of words. -/
theorem Span.Stands.onBoundaries {s : Span} {text : Text} (h : s.Stands text) :
    s.OnBoundaries text := by
  constructor
  · intro c hc hword
    by_cases hzero : s.start = 0
    · exact Or.inl hzero
    · right
      have hlt : s.start - 1 < text.length := by
        have := h.start_lt
        have := h.stop_le
        omega
      refine ⟨text[s.start - 1], List.getElem?_eq_getElem hlt, ?_⟩
      have hbefore : text.before s.start = some text[s.start - 1] := by
        rw [Text.before, if_neg hzero, List.getElem?_eq_getElem hlt]
      by_contra hd
      have hclear := h.clear_start _ c hbefore (h.getElem?_start.trans hc) (by simpa using hd)
      rw [hword] at hclear
      cases hclear
  · intro c hc hword
    by_cases hend : s.stop = text.length
    · exact Or.inl hend
    · right
      have hlt : s.stop < text.length := Nat.lt_of_le_of_ne h.stop_le hend
      refine ⟨text[s.stop], List.getElem?_eq_getElem hlt, ?_⟩
      exact h.clear_stop c _ (h.before_stop.trans hc) (List.getElem?_eq_getElem hlt) hword

/-- The run: the tokens that are read from a clear place on stand between clear places. The
induction is on the tokens, and the place behind the last one that was read carries it. -/
theorem spansFrom_of_reads {text : Text} (ts : List Token) {i n : Nat} (hi : i ≤ text.length)
    (hclear : text.Clear i) (h : Reads ts (text.drop i) n) :
    ∃ spans, spansFrom text i ts = .ok (some spans) ∧ Keeps ts (spans.map (·.token)) ∧
      (spans.map (·.stop)).getLastD i = i + n ∧ ∀ s ∈ spans, s.Stands text := by
  induction ts generalizing i n with
  | nil =>
    cases h
    exact ⟨[], rfl, .nil, rfl, by simp⟩
  | cons t ts ih =>
    cases h with
    | @token _ _ _ n k hstands hrest =>
      have hin := hstands.le_length
      have hpos := List.length_pos_iff.2 hstands.nonempty
      have hlength := hstands.length
      rw [List.length_drop] at hin
      rw [List.drop_drop] at hrest
      rcases ih (by omega) (hstands.clear_stop hi) hrest with ⟨spans, hspans, hkeeps, hlast, hall⟩
      refine ⟨⟨t, i + n - t.literal.length, i + n⟩ :: spans, ?_, .keep hkeeps, ?_, ?_⟩
      · refine bind_eq_ok_iff.2 ⟨some n, (t.take?_eq_some_iff _ n).2 hstands, ?_⟩
        exact bind_eq_ok_iff.2 ⟨some spans, hspans, rfl⟩
      · rw [List.map_cons, List.getLastD_cons, hlast, Nat.add_assoc]
      · intro s hs
        rcases List.mem_cons.1 hs with rfl | hs
        · exact ⟨by simp only; omega, by simp only; omega, hstands.slice_eq,
            hstands.clear_start hclear, hstands.clear_stop hi⟩
        · exact hall s hs
    | pass hopt hnone hrest =>
      -- A token that is passed over leaves the place as it is.
      rcases ih hi hclear hrest with ⟨spans, hspans, hkeeps, hlast, hall⟩
      refine ⟨spans, bind_eq_ok_iff.2 ⟨none, hnone, ?_⟩, .skip hopt hkeeps, hlast, hall⟩
      simpa [hopt] using hspans

/-- The place where a match begins is clear: the first literal stands there without a gap, and it is
the one token of which the matcher checks the left side. -/
theorem Pattern.clear_of_matchAt {p : Pattern} (hp : p.Anchored) {text : Text} {start stop : Nat}
    (h : p.matchAt text start = .ok (some stop)) : text.Clear start := by
  intro c d hc hd hword
  have hocc : p.OccursAt text start := ⟨stop, h⟩
  rcases (matchAt_eq_some_iff _ _ _ _).1 h with ⟨-, ⟨t, ts, e, es, htokens, hlit, hbegin⟩, -⟩
  have hfirst : text[start]? = some e := by
    have hprefix := prefix_of_occursAt hp htokens hocc
    rw [hlit] at hprefix
    rcases hprefix with ⟨more, hmore⟩
    rw [← List.head?_drop, ← hmore]
    rfl
  rw [hfirst] at hd
  cases hd
  simpa [hc, hword] using hbegin

/-- The spans are those of the tokens that a match from `start` to `stop` consumes, and no word is
cut by one of them. -/
structure Pattern.CutsNoWord (p : Pattern) (text : Text) (start stop : Nat) (spans : List Span) :
    Prop where
  consumed : p.consumed text start = .ok (some spans)
  keeps : Keeps p.tokens (spans.map (·.token))
  stop : (spans.map (·.stop)).getLastD start = stop
  literal : ∀ s ∈ spans, text.slice s.start s.stop = s.token.literal
  onBoundaries : ∀ s ∈ spans, s.OnBoundaries text

/-- Every token that a match consumes stands in the text, and on the boundaries of words on both
sides: the tokens behind the first one too, whose left side the matcher does not look at. -/
theorem Pattern.consumed_on_boundaries {p : Pattern} (hp : p.Assembled) {text : Text}
    {start stop : Nat} (h : p.matchAt text start = .ok (some stop)) :
    ∃ spans, p.CutsNoWord text start stop spans := by
  have hclear := clear_of_matchAt hp.anchored h
  rcases (matchAt_eq_some_iff _ _ _ _).1 h with ⟨hstart, -, n, hreads, rfl⟩
  rcases spansFrom_of_reads p.tokens hstart hclear hreads with ⟨spans, hspans, hkeeps, hlast, hall⟩
  refine ⟨spans, bind_eq_ok_iff.2 ⟨_, h, hspans⟩, hkeeps, hlast, ?_, ?_⟩
  · exact fun s hs => (hall s hs).literal
  · exact fun s hs => (hall s hs).onBoundaries

/-- A call whose argument may have a comma in front of it. -/
def called : Pattern :=
  ((((Pattern.empty.lit ['f']).lit ['(']).add [','] .any true).lit ['x']).lit [')']

/-- The comma is passed over, and the argument stands right behind the parenthesis, its left side
unchecked. -/
theorem called_on_boundaries :
    called.Assembled ∧ called.matchAt ";f(x);".toList 1 = .ok (some 5) ∧
    called.consumed ";f(x);".toList 1 =
      .ok (some [⟨⟨.none, ['f'], false⟩, 1, 2⟩, ⟨⟨.any, ['('], false⟩, 2, 3⟩,
        ⟨⟨.any, ['x'], false⟩, 3, 4⟩, ⟨⟨.any, [')'], false⟩, 4, 5⟩]) ∧
    ∃ spans, called.CutsNoWord ";f(x);".toList 1 5 spans := by
  have hp : called.Assembled :=
    .add _ _ _ (.add _ _ _ (.add _ _ _ (.add _ _ _ (.add _ _ _ .empty))))
  have hmatch : called.matchAt ";f(x);".toList 1 = .ok (some 5) := by
    decide +kernel
  refine ⟨hp, hmatch, ?_, Pattern.consumed_on_boundaries hp hmatch⟩
  decide +kernel

end HeaderCatalog
