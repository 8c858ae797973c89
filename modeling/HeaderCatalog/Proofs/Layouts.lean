import HeaderCatalog.Proofs.HeaderShape
import HeaderCatalog.Proofs.SourceTrees

/-!
# HeaderCatalog.Proofs.Layouts — greedy matching loses nothing

The matcher takes all the white space it sees and every optional token that stands there, and
never goes back. A layout says what a match is without an order of work: some of the tokens are
kept, and the matched text is cut into their gaps and literals.

* `Pattern.Layout` is a cut of a text into pieces. Which optional tokens are kept and where one
  gap ends are left open.
* `Pattern.Settled.matchAt_iff`: for patterns of the shape of headers whose literals begin with
  a visible character, the matcher finds exactly the layouts.
* `Entity.matchAt_iff_layout` says so of the pattern of every entity, with the answer that the
  matcher always gives and with the one end that all layouts from a place have.

Both halves of the shape are needed. A gap ends at the first visible character, so the literal
behind it fixes it. An optional comma stands right before a closing parenthesis, so no layout
skips a comma that the matcher takes.
-/

namespace HeaderCatalog

/-! ## Layouts -/

/-- A token that is kept, with the white space that stands in front of it. -/
structure Piece where
  gap : Text
  token : Token
deriving DecidableEq, Repr, Inhabited

namespace Piece

/-- The text that a piece covers. -/
def text (x : Piece) : Text :=
  x.gap ++ x.token.literal

/-- The gap consists of blanks, and is not empty where the token asks for one. -/
def Spaced (x : Piece) : Prop :=
  (∀ c ∈ x.gap, Text.isBlank c = true) ∧ (x.token.gap = .many → x.gap ≠ [])

/-- A literal that ends in a word character does not go on with the character behind it. -/
def Ended (x : Piece) (behind : Option Char) : Prop :=
  ∀ c d, x.token.literal.getLast? = some c → Text.isWord c = true → behind = some d →
    Text.isWord d = false

/-- A literal is ended unless it and what follows are words that run together. -/
theorem ended_iff (x : Piece) (behind : Option Char) :
    x.Ended behind ↔
      ¬ (x.token.literal.getLast?.any Text.isWord = true ∧ behind.any Text.isWord = true) := by
  unfold Ended
  cases x.token.literal.getLast? with
  | none => simp
  | some c =>
    cases behind with
    | none => simp
    | some d => simp

instance (x : Piece) (behind : Option Char) : Decidable (x.Ended behind) :=
  decidable_of_iff _ (x.ended_iff behind).symm

end Piece

/-- The second list keeps all required tokens of the first one, and of the optional ones some. -/
inductive Keeps : List Token → List Token → Prop where
  | nil : Keeps [] []
  | keep {t : Token} {ts us : List Token} : Keeps ts us → Keeps (t :: ts) (t :: us)
  | skip {t : Token} {ts us : List Token} : t.optional = true → Keeps ts us → Keeps (t :: ts) us

/-- A way to cut the text from `start` to `stop` into the gaps and literals of the tokens that are
kept. Nothing stands in front of the first literal, and no word is cut. -/
structure Pattern.Layout (p : Pattern) (text : Text) (start stop : Nat) (pieces : List Piece) :
    Prop where
  keeps : Keeps p.tokens (pieces.map (·.token))
  start_le : start ≤ stop
  stop_le : stop ≤ text.length
  covers : text.slice start stop = pieces.flatMap Piece.text
  spaced : ∀ x ∈ pieces, x.Spaced
  flush : ∀ x, pieces.head? = some x → x.gap = []
  begins : ∀ x c d, pieces.head? = some x → x.token.literal.head? = some c →
    Text.isWord c = true → text.before start = some d → Text.isWord d = false
  ended : ∀ front x back, pieces = front ++ x :: back →
    x.Ended text[start + ((front ++ [x]).flatMap Piece.text).length]?

/-! ## Pieces one after another -/

/-- The piece stands at the front of `rest`. -/
structure Piece.Lies (x : Piece) (rest : Text) : Prop where
  front : x.text <+: rest
  spaced : x.Spaced
  ended : x.Ended rest[x.text.length]?

/-- The pieces stand one after another at the front of `rest`. -/
def Lie : List Piece → Text → Prop
  | [], _ => True
  | x :: xs, rest => x.Lies rest ∧ Lie xs (rest.drop x.text.length)

/-- Where pieces stand one after another, put together from what holds of each one. -/
theorem lie_iff (xs : List Piece) (rest : Text) :
    Lie xs rest ↔ xs.flatMap Piece.text <+: rest ∧ (∀ x ∈ xs, x.Spaced) ∧
      ∀ front x back, xs = front ++ x :: back →
        x.Ended rest[((front ++ [x]).flatMap Piece.text).length]? := by
  induction xs generalizing rest with
  | nil => simp [Lie]
  | cons x xs ih =>
    constructor
    · rintro ⟨⟨⟨more, rfl⟩, hspaced, hended⟩, hxs⟩
      rw [List.drop_left] at hxs
      obtain ⟨hfront, hall, hends⟩ := (ih more).1 hxs
      refine ⟨?_, List.forall_mem_cons.2 ⟨hspaced, hall⟩, ?_⟩
      · rw [List.flatMap_cons]
        exact (List.prefix_append_right_inj _).2 hfront
      · intro front y back hsplit
        cases front with
        | nil =>
          cases hsplit
          simpa using hended
        | cons z front =>
          cases hsplit
          have hend := hends front y back rfl
          rw [List.cons_append, List.flatMap_cons, List.length_append, List.getElem?_append_right
            (Nat.le_add_right _ _), Nat.add_sub_cancel_left]
          exact hend
    · rintro ⟨⟨more, rfl⟩, hall, hends⟩
      rw [List.flatMap_cons, List.append_assoc] at hends ⊢
      refine ⟨⟨List.prefix_append _ _, hall x List.mem_cons_self, ?_⟩, ?_⟩
      · simpa using hends [] x xs rfl
      · rw [List.drop_left]
        refine (ih _).2 ⟨List.prefix_append _ _, fun y hy => hall y (List.mem_cons_of_mem _ hy), ?_⟩
        intro front y back hsplit
        have hend := hends (x :: front) y back (by rw [hsplit, List.cons_append])
        rwa [List.cons_append, List.flatMap_cons, List.length_append, List.getElem?_append_right
          (Nat.le_add_right _ _), Nat.add_sub_cancel_left] at hend

/-! ## Pieces and the tokens that the matcher takes -/

/-- The literal begins with a character that is no white space. -/
def Token.Visible (t : Token) : Prop :=
  ∃ c cs, t.literal = c :: cs ∧ Text.isBlank c = false

namespace Token

theorem visible_iff (t : Token) :
    t.Visible ↔ (t.literal.head?.any fun c => ! Text.isBlank c) = true := by
  unfold Visible
  cases t.literal with
  | nil => simp
  | cons c cs => simp

instance (t : Token) : Decidable t.Visible :=
  decidable_of_iff _ t.visible_iff.symm

/-- All white space in front of a visible literal belongs to its gap. -/
theorem gapLength_of_visible {t : Token} (ht : t.Visible) {gap : Text} (more : Text)
    (hblank : ∀ c ∈ gap, Text.isBlank c = true) (hnone : t.gap = .none → gap = []) :
    t.gapLength (gap ++ (t.literal ++ more)) = gap.length := by
  obtain ⟨c, cs, hlit, hc⟩ := ht
  unfold gapLength
  split
  · rename_i hgap
    rw [hnone hgap]
    rfl
  · have hstop : (t.literal ++ more).takeWhile Text.isBlank = [] := by
      rw [hlit, List.cons_append, List.takeWhile_cons_of_neg (by simp [hc])]
    rw [Text.blanks, List.takeWhile_append_of_pos hblank, hstop, List.append_nil]

/-- A piece that stands at the front of a text is what the matcher takes there. -/
theorem stands_of_lies {x : Piece} {rest : Text} (h : x.Lies rest) (hx : x.token.Visible)
    (hnone : x.token.gap = .none → x.gap = []) : x.token.Stands rest x.text.length := by
  obtain ⟨⟨more, hrest⟩, ⟨hblank, hmany⟩, hended⟩ := h
  rw [Piece.text, List.append_assoc] at hrest
  subst hrest
  have hgap := gapLength_of_visible hx more hblank hnone
  refine ⟨?_, ?_, ?_, ?_, hended⟩
  · intro hg hzero
    rw [hgap, List.length_eq_zero_iff] at hzero
    exact hmany hg hzero
  · obtain ⟨c, cs, hlit, -⟩ := hx
    simp [hlit]
  · rw [hgap, List.drop_left]
    exact List.prefix_append _ _
  · rw [hgap, Piece.text, List.length_append]

/-- What the matcher takes is a piece that stands there. -/
theorem lies_of_stands {t : Token} {rest : Text} {n : Nat} (h : t.Stands rest n) :
    (⟨rest.take (t.gapLength rest), t⟩ : Piece).Lies rest ∧
      (⟨rest.take (t.gapLength rest), t⟩ : Piece).text.length = n := by
  have htake : (⟨rest.take (t.gapLength rest), t⟩ : Piece).text = rest.take n := h.take_eq.symm
  have hlength : (⟨rest.take (t.gapLength rest), t⟩ : Piece).text.length = n := by
    rw [htake, List.length_take, Nat.min_eq_left h.le_length]
  refine ⟨⟨?_, ⟨fun c hc => isBlank_of_mem_gap hc, ?_⟩, ?_⟩, hlength⟩
  · rw [htake]
    exact List.take_prefix _ _
  · intro hmany hnil
    have hzero := congrArg List.length hnil
    rw [List.length_take, Nat.min_eq_left (t.gapLength_le rest)] at hzero
    exact h.spaced hmany hzero
  · rw [hlength]
    exact h.ended

/-- A literal that stands behind a gap is visible, because the gap takes all white space. -/
theorem Stands.visible {t : Token} (hgap : t.gap ≠ .none) {rest : Text} {n : Nat}
    (h : t.Stands rest n) : t.Visible := by
  obtain ⟨c, cs, hlit⟩ := List.exists_cons_of_ne_nil h.nonempty
  refine ⟨c, cs, hlit, ?_⟩
  have hprefix := h.literal
  rw [gapLength, if_neg hgap, Text.drop_blanks, hlit] at hprefix
  have hhead := List.head?_dropWhile_not Text.isBlank rest
  obtain ⟨more, hmore⟩ := hprefix
  rwa [← hmore] at hhead

/-- Two tokens with different first characters do not stand behind the same white space. -/
theorem not_stands_of_stands {t u : Token} (ht : t.gap ≠ .none) (hu : u.gap ≠ .none)
    (htlit : t.literal = [',']) (hulit : u.literal = [')']) {rest : Text} {n : Nat}
    (h : u.Stands rest n) (m : Nat) : ¬ t.Stands rest m := by
  intro hstands
  have htu : t.gapLength rest = u.gapLength rest := by simp [gapLength, ht, hu]
  have hcomma := hstands.literal
  have hparen := h.literal
  rw [htu, htlit] at hcomma
  rw [hulit] at hparen
  have hsame := List.prefix_of_prefix_length_le hcomma hparen (Nat.le_refl _)
  exact absurd hsame (by decide)

end Token

/-! ## Layouts and readings -/

/-- What the matcher reads is laid out in pieces. -/
theorem lie_of_reads {ts : List Token} {rest : Text} {n : Nat} (h : Reads ts rest n) :
    ∃ pieces : List Piece, Keeps ts (pieces.map (·.token)) ∧ Lie pieces rest ∧
      (pieces.flatMap Piece.text).length = n := by
  induction h with
  | done rest => exact ⟨[], .nil, trivial, rfl⟩
  | @token t ts rest n k hstands _ ih =>
    obtain ⟨pieces, hkeeps, hlie, hlength⟩ := ih
    obtain ⟨hx, hn⟩ := Token.lies_of_stands hstands
    refine ⟨⟨rest.take (t.gapLength rest), t⟩ :: pieces, .keep hkeeps, ⟨hx, ?_⟩, ?_⟩
    · rw [hn]
      exact hlie
    · rw [List.flatMap_cons, List.length_append, hn, hlength]
  | pass hopt _ _ ih =>
    obtain ⟨pieces, hkeeps, hlie, hlength⟩ := ih
    exact ⟨pieces, .skip hopt hkeeps, hlie, hlength⟩

namespace Keeps

variable {ts us : List Token}

theorem mem (h : Keeps ts us) {t : Token} (ht : t ∈ us) : t ∈ ts := by
  induction h with
  | nil => exact ht
  | keep _ ih =>
    rcases List.mem_cons.1 ht with rfl | ht
    · exact List.mem_cons_self
    · exact List.mem_cons_of_mem _ (ih ht)
  | skip _ _ ih => exact List.mem_cons_of_mem _ (ih ht)

/-- If the last token is required, it is the last one that is kept. -/
theorem getLast? (h : Keeps ts us) {t : Token} (ht : ts.getLast? = some t)
    (hreq : t.optional = false) : us.getLast? = some t := by
  induction h with
  | nil => exact ht
  | @keep u ts us hkeeps ih =>
    cases ts with
    | nil =>
      cases hkeeps
      exact ht
    | cons v vs =>
      rw [List.getLast?_cons_cons] at ht
      rw [List.getLast?_cons, ih ht]
      rfl
  | @skip u ts us hopt _ ih =>
    cases ts with
    | nil =>
      rw [List.getLast?_singleton] at ht
      cases ht
      simp [hreq] at hopt
    | cons v vs =>
      rw [List.getLast?_cons_cons] at ht
      exact ih ht

/-- A required token is kept. -/
theorem required {t : Token} {pieces : List Piece}
    (h : Keeps (t :: ts) (pieces.map (·.token))) (hreq : t.optional = false) :
    ∃ x xs, pieces = x :: xs ∧ x.token = t ∧ Keeps ts (xs.map (·.token)) := by
  cases pieces with
  | nil =>
    cases h with
    | skip hopt _ => simp [hreq] at hopt
  | cons x xs =>
    generalize hmap : (x :: xs).map (·.token) = us at h
    cases h with
    | keep hts =>
      cases hmap
      exact ⟨x, xs, rfl, rfl, hts⟩
    | skip hopt _ => simp [hreq] at hopt

end Keeps

/-- Pieces that are laid out behind the first token are what the matcher reads. The induction is on
the shape of the tokens: a required token has to be kept, and a comma is skipped only where the
parenthesis behind it stands, so the matcher passes over it too. -/
theorem SettledTail.reads_of_lie {ts : List Token} (hts : SettledTail ts)
    (hvisible : ∀ t ∈ ts, t.Visible) {pieces : List Piece} {rest : Text}
    (hkeeps : Keeps ts (pieces.map (·.token))) (hlie : Lie pieces rest) :
    Reads ts rest (pieces.flatMap Piece.text).length := by
  induction hts generalizing pieces rest with
  | nil =>
    generalize hmap : pieces.map (·.token) = us at hkeeps
    cases hkeeps
    rw [List.map_eq_nil_iff.1 hmap]
    exact .done rest
  | required hgap hreq _ ih =>
    obtain ⟨ht, hts⟩ := List.forall_mem_cons.1 hvisible
    obtain ⟨x, xs, rfl, rfl, hkept⟩ := hkeeps.required hreq
    have hstands := Token.stands_of_lies hlie.1 ht (fun hnone => absurd hnone hgap)
    rw [List.flatMap_cons, List.length_append]
    exact .token hstands (ih hts hkept hlie.2)
  | @comma t u ts hgap hlit hgap' hlit' hreq _ ih =>
    obtain ⟨ht, huts⟩ := List.forall_mem_cons.1 hvisible
    obtain ⟨hu, hts⟩ := List.forall_mem_cons.1 huts
    -- the parenthesis is read wherever it lies, behind the comma or in its place
    have hparen : ∀ {pieces : List Piece} {rest : Text},
        Keeps (u :: ts) (pieces.map (·.token)) → Lie pieces rest →
          (∃ n, u.Stands rest n) ∧ Reads (u :: ts) rest (pieces.flatMap Piece.text).length := by
      intro pieces rest hkeeps hlie
      obtain ⟨x, xs, rfl, hx, hkept⟩ := hkeeps.required hreq
      have hstands := Token.stands_of_lies hlie.1 (hx ▸ hu) (fun hnone => absurd hnone (hx ▸ hgap'))
      rw [hx] at hstands
      rw [List.flatMap_cons, List.length_append]
      exact ⟨⟨_, hstands⟩, .token hstands (ih hts hkept hlie.2)⟩
    generalize hmap : pieces.map (·.token) = us at hkeeps
    cases hkeeps with
    | keep hkept =>
      obtain ⟨x, xs, rfl, rfl, rfl⟩ := List.map_eq_cons_iff.1 hmap
      have hstands := Token.stands_of_lies hlie.1 ht (fun hnone => absurd hnone hgap)
      rw [List.flatMap_cons, List.length_append]
      exact .token hstands (hparen hkept hlie.2).2
    | skip hopt hkept =>
      subst hmap
      obtain ⟨⟨n, hstands⟩, hreads⟩ := hparen hkept hlie
      have hne : t.literal ≠ [] := by simp [hlit]
      have hnot := Token.not_stands_of_stands hgap hgap' hlit hlit' hstands
      exact .pass hopt ((t.take?_eq_none_iff rest hne).2 hnot) hreads

/-- The literals of tokens that are read are visible. -/
theorem SettledTail.visible_of_reads {ts : List Token} (hts : SettledTail ts) {rest : Text}
    {n : Nat} (h : Reads ts rest n) : ∀ t ∈ ts, t.Visible := by
  induction hts generalizing rest n with
  | nil => simp
  | required hgap hreq _ ih =>
    cases h with
    | token hstands hreads =>
      exact List.forall_mem_cons.2 ⟨hstands.visible hgap, ih hreads⟩
    | pass hopt _ _ => simp [hreq] at hopt
  | @comma t u ts hgap hlit hgap' hlit' hreq _ ih =>
    have hparen : ∀ {rest : Text} {n : Nat}, Reads (u :: ts) rest n → ∀ v ∈ ts, v.Visible := by
      intro rest n h
      cases h with
      | token _ hreads => exact ih hreads
      | pass hopt _ _ => simp [hreq] at hopt
    refine List.forall_mem_cons.2 ⟨⟨_, _, hlit, by decide⟩, ?_⟩
    refine List.forall_mem_cons.2 ⟨⟨_, _, hlit', by decide⟩, ?_⟩
    cases h with
    | token _ hreads => exact hparen hreads
    | pass _ _ hreads => exact hparen hreads

namespace Pattern

/-- A layout of a pattern, seen from the place where it begins. -/
theorem layout_iff (p : Pattern) (text : Text) (start stop : Nat) (pieces : List Piece)
    (hstart : start ≤ text.length) :
    p.Layout text start stop pieces ↔
      Keeps p.tokens (pieces.map (·.token)) ∧ Lie pieces (text.drop start) ∧
        stop = start + (pieces.flatMap Piece.text).length ∧
        ∀ x, pieces.head? = some x → x.gap = [] ∧ ∀ c d, x.token.literal.head? = some c →
          Text.isWord c = true → text.before start = some d → Text.isWord d = false := by
  constructor
  · rintro ⟨hkeeps, hle, hstop, hcovers, hspaced, hflush, hbegins, hended⟩
    have hlength := Text.length_slice text start stop hstop
    rw [hcovers] at hlength
    refine ⟨hkeeps, (lie_iff _ _).2 ⟨?_, hspaced, ?_⟩, by omega, ?_⟩
    · rw [← hcovers, Text.slice, List.drop_take]
      exact List.take_prefix _ _
    · intro front x back hsplit
      rw [List.getElem?_drop]
      exact hended front x back hsplit
    · intro x hx
      exact ⟨hflush x hx, fun c d => hbegins x c d hx⟩
  · rintro ⟨hkeeps, hlie, rfl, hfirst⟩
    obtain ⟨hfront, hspaced, hended⟩ := (lie_iff _ _).1 hlie
    have hlength := hfront.length_le
    rw [List.length_drop] at hlength
    refine ⟨hkeeps, Nat.le_add_right _ _, by omega, ?_, hspaced, fun x hx => (hfirst x hx).1,
      fun x c d hx => (hfirst x hx).2 c d, ?_⟩
    · rw [Text.slice_add]
      exact (List.prefix_iff_eq_take.1 hfront).symm
    · intro front x back hsplit
      have hend := hended front x back hsplit
      rwa [List.getElem?_drop] at hend

/-- Where a settled pattern matches it has a layout: what the matcher takes. -/
theorem Settled.layout_of_matchAt {p : Pattern} (hp : p.Settled) {text : Text} {start stop : Nat}
    (h : p.matchAt text start = .ok (some stop)) : ∃ pieces, p.Layout text start stop pieces := by
  obtain ⟨t, ts, htokens, hgap, hreq, -⟩ := hp
  have hlength : ∀ rest : Text, t.gapLength rest = 0 := by simp [Token.gapLength, hgap]
  obtain ⟨hstart, ⟨t', ts', c, cs, htokens', hlit, hword⟩, n, hreads, rfl⟩ :=
    (matchAt_eq_some_iff _ _ _ _).1 h
  rw [htokens] at hreads htokens'
  cases htokens'
  cases hreads with
  | pass hopt _ _ => simp [hreq] at hopt
  | @token _ _ _ n k hstands hreads =>
    obtain ⟨pieces, hkeeps, hlie, hk⟩ := lie_of_reads hreads
    obtain ⟨hx, hn⟩ := Token.lies_of_stands hstands
    rw [hlength, List.take_zero] at hx hn
    refine ⟨⟨[], t⟩ :: pieces, (layout_iff _ _ _ _ _ hstart).2 ⟨?_, ⟨hx, ?_⟩, ?_, ?_⟩⟩
    · rw [htokens]
      exact .keep hkeeps
    · rw [hn]
      exact hlie
    · rw [List.flatMap_cons, List.length_append, hn, hk]
    · rintro x ⟨⟩
      refine ⟨rfl, fun c' d hc' hcw hd => ?_⟩
      rw [hlit, List.head?_cons] at hc'
      cases hc'
      simpa [hcw, hd] using hword

/-- A settled pattern with visible literals matches exactly where it has a layout. -/
theorem Settled.matchAt_iff {p : Pattern} (hp : p.Settled) (hvisible : ∀ t ∈ p.tokens, t.Visible)
    {text : Text} {start : Nat} (hstart : start ≤ text.length) (stop : Nat) :
    p.matchAt text start = .ok (some stop) ↔ ∃ pieces, p.Layout text start stop pieces := by
  refine ⟨hp.layout_of_matchAt, ?_⟩
  obtain ⟨t, ts, htokens, hgap, hreq, htail⟩ := hp
  rw [htokens] at hvisible
  obtain ⟨⟨c, cs, hlit, hc⟩, hrest⟩ := List.forall_mem_cons.1 hvisible
  rw [matchAt_eq_some_iff]
  rintro ⟨pieces, hlayout⟩
  obtain ⟨hkeeps, hlie, hstop, hfirst⟩ := (layout_iff _ _ _ _ _ hstart).1 hlayout
  rw [htokens] at hkeeps ⊢
  obtain ⟨x, xs, rfl, rfl, hkept⟩ := hkeeps.required hreq
  obtain ⟨hflush, hbegins⟩ := hfirst x rfl
  have hstands := Token.stands_of_lies hlie.1 ⟨c, cs, hlit, hc⟩ fun _ => hflush
  have hreads := htail.reads_of_lie hrest hkept hlie.2
  refine ⟨hstart, ⟨x.token, ts, c, cs, htokens, hlit, ?_⟩, _, .token hstands hreads, ?_⟩
  · cases hcw : Text.isWord c with
    | false => rfl
    | true =>
      cases hd : text.before start with
      | none => rfl
      | some d => simpa using hbegins c d (by rw [hlit]; rfl) hcw hd
  · rw [hstop, List.flatMap_cons, List.length_append]

end Pattern

/-- Greedy matching loses nothing: the matcher answers at every place of a text, it matches up to
an end exactly if there is a layout up to that end, and all layouts from one place end together. -/
theorem Entity.matchAt_iff_layout {e : Entity} {tabSize : Nat} {p : Pattern}
    (hp : e.pattern tabSize = .ok (.ok p)) (hvisible : ∀ t ∈ p.tokens, t.Visible) {text : Text}
    {start : Nat} (hstart : start ≤ text.length) :
    (∃ found, p.matchAt text start = .ok found) ∧
      (∀ stop, p.matchAt text start = .ok (some stop) ↔
        ∃ pieces, p.Layout text start stop pieces) ∧
      ∀ stop stop' pieces pieces', p.Layout text start stop pieces →
        p.Layout text start stop' pieces' → stop = stop' := by
  have hsettled := Entity.pattern_settled hp
  have hiff := hsettled.matchAt_iff hvisible hstart
  refine ⟨Pattern.matchAt_ok ?_ hstart, hiff, ?_⟩
  · rintro t ht hnil
    obtain ⟨c, cs, hlit, -⟩ := hvisible t ht
    simp [hnil] at hlit
  · intro stop stop' pieces pieces' hpieces hpieces'
    have hstop := (hiff stop).2 ⟨pieces, hpieces⟩
    have hstop' := (hiff stop').2 ⟨pieces', hpieces'⟩
    rw [hstop] at hstop'
    cases hstop'
    rfl

/-- The header of `tabbed`, its comma kept and tabs and a line break in its gaps. -/
theorem tabbed_layout :
    ∃ p, (⟨.function, tabbedFunction, none, none⟩ : Entity).pattern 0 = .ok (.ok p) ∧
      (∀ t ∈ p.tokens, t.Visible) ∧ 1 ≤ tabbed.length ∧
      p.matchAt tabbed 1 = .ok (some 19) ∧ ∃ pieces, p.Layout tabbed 1 19 pieces := by
  have hp : (⟨.function, tabbedFunction, none, none⟩ : Entity).pattern 0 =
      .ok (.ok
        (((Pattern.empty.lit "function".toList).word ['f']).parameterList [['x']]).body) := by
    decide +kernel
  have hvisible : ∀ t ∈ (((Pattern.empty.lit "function".toList).word ['f']).parameterList
      [['x']]).body.tokens, t.Visible := by
    decide +kernel
  have hmatch : (((Pattern.empty.lit "function".toList).word ['f']).parameterList
      [['x']]).body.matchAt tabbed 1 = .ok (some 19) := by
    decide +kernel
  have hstart : 1 ≤ tabbed.length := by decide
  exact ⟨_, hp, hvisible, hstart, hmatch,
    ((Entity.matchAt_iff_layout hp hvisible hstart).2.1 19).1 hmatch⟩

end HeaderCatalog
