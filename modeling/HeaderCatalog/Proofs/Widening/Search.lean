import HeaderCatalog.Proofs.Matching

/-!
# HeaderCatalog.Proofs.Widening.Search — searches in texts with expanded tabs

`Text.widen` writes every tab of a text as spaces, and `Text.shift` gives every place of the text
its place in the expanded text. Both runs of white space and literals without spaces and tabs are
found again there, so matching and searching commute with the expansion:

* `Text.take_shift`, `Text.drop_shift` and `Text.shift_add`: the expansion of a text is put
  together from the expansions of its parts;
* `Token.take?_widen`, `takeTokens?_widen` and `Pattern.take?_widen`: a pattern that is plain, that
  is without spaces and tabs, takes the same tokens;
* `Pattern.search_widen`: a search finds the image of what it finds in the text, and fails if it
  fails there. No match begins inside an expanded tab.
-/

namespace HeaderCatalog

namespace Text

/-! ## Expanding tabs -/

/-- The text with every tab written as `k` spaces. -/
def widen (k : Nat) (text : Text) : Text :=
  text.flatMap (expandTab k)

/-- The offset that a place of the text has when its tabs are expanded. -/
def shift (k : Nat) (text : Text) (i : Nat) : Nat :=
  (widen k (text.take i)).length

variable {k : Nat}

theorem expandTab_of_ne {c : Char} (hc : c ≠ '\t') : expandTab k c = [c] := by
  simp [expandTab, hc]

/-- A character is written as itself, or as spaces if it is a tab. -/
theorem eq_or_space_of_mem_expandTab {c d : Char} (h : d ∈ expandTab k c) :
    d = c ∨ c = '\t' ∧ d = ' ' := by
  unfold expandTab at h
  split at h
  · rename_i htab
    exact Or.inr ⟨htab.1, (List.mem_replicate.1 h).2⟩
  · exact Or.inl (List.mem_singleton.1 h)

theorem expandTab_ne_nil (c : Char) : expandTab k c ≠ [] := by
  unfold expandTab
  split
  · rename_i htab
    rw [ne_eq, List.replicate_eq_nil_iff]
    omega
  · simp

@[simp] theorem widen_nil : widen k [] = [] := rfl

theorem widen_cons (c : Char) (text : Text) :
    widen k (c :: text) = expandTab k c ++ widen k text := rfl

theorem widen_append (a b : Text) : widen k (a ++ b) = widen k a ++ widen k b :=
  List.flatMap_append

theorem widen_eq_self {text : Text} (h : '\t' ∉ text) : widen k text = text := by
  induction text with
  | nil => rfl
  | cons c text ih =>
    simp only [List.mem_cons, not_or] at h
    rw [widen_cons, expandTab_of_ne (Ne.symm h.1), ih h.2]
    rfl

theorem widen_eq_nil_iff {text : Text} : widen k text = [] ↔ text = [] := by
  cases text with
  | nil => simp
  | cons c text => simp [widen_cons, expandTab_ne_nil]

theorem normalize_zero (source : Text) : source.normalize 0 = source.filter (· != '\r') := by
  have hone : expandTab 0 = fun c => [c] := by
    funext c
    simp [expandTab]
  rw [normalize, hone, List.flatMap_singleton']

/-- Normalizing drops carriage returns first and expands tabs then. -/
theorem normalize_eq_widen (k : Nat) (source : Text) :
    source.normalize k = widen k (source.normalize 0) := by
  rw [normalize_zero]
  rfl

/-! ## Places -/

@[simp] theorem shift_zero (text : Text) : text.shift k 0 = 0 := rfl

theorem length_widen (text : Text) : (widen k text).length = text.shift k text.length := by
  rw [shift, List.take_length]

theorem widen_eq_append (text : Text) (i : Nat) :
    widen k text = widen k (text.take i) ++ widen k (text.drop i) := by
  rw [← widen_append, List.take_append_drop]

theorem take_shift (text : Text) (i : Nat) :
    (widen k text).take (text.shift k i) = widen k (text.take i) := by
  rw [widen_eq_append text i]
  exact List.take_left

theorem drop_shift (text : Text) (i : Nat) :
    (widen k text).drop (text.shift k i) = widen k (text.drop i) := by
  rw [widen_eq_append text i]
  exact List.drop_left

theorem shift_add (text : Text) (i n : Nat) :
    text.shift k (i + n) = text.shift k i + shift k (text.drop i) n := by
  rw [shift, List.take_add, widen_append, List.length_append]
  rfl

theorem shift_mono (text : Text) {i j : Nat} (h : i ≤ j) : text.shift k i ≤ text.shift k j := by
  rcases Nat.exists_eq_add_of_le h with ⟨n, rfl⟩
  rw [shift_add]
  exact Nat.le_add_right _ _

theorem shift_le (text : Text) (i : Nat) : text.shift k i ≤ (widen k text).length := by
  have hlength := congrArg List.length (take_shift (k := k) text i)
  rw [List.length_take] at hlength
  rw [shift, ← hlength]
  exact Nat.min_le_right _ _

theorem shift_take (text : Text) {i j : Nat} (h : i ≤ j) :
    shift k (text.take j) i = text.shift k i := by
  rw [shift, List.take_take, Nat.min_eq_left h, shift]

/-- What stands between two places stands between their images, expanded. -/
theorem slice_shift (text : Text) (i j : Nat) :
    (widen k text).slice (text.shift k i) (text.shift k j) = widen k (text.slice i j) := by
  rcases Nat.le_total i j with h | h
  · rw [slice, take_shift, ← shift_take text h, drop_shift, slice]
  · have hempty : text.slice i j = [] := by
      rw [slice, List.drop_eq_nil_iff, List.length_take]
      omega
    rw [hempty, slice, List.drop_eq_nil_iff.2, widen_nil]
    rw [take_shift]
    exact shift_mono text h

theorem shift_eq_zero_iff (text : Text) {i : Nat} (hi : i ≤ text.length) :
    text.shift k i = 0 ↔ i = 0 := by
  rw [shift, List.length_eq_zero_iff, widen_eq_nil_iff, List.take_eq_nil_iff]
  constructor
  · rintro (h | rfl)
    · exact h
    · simpa using hi
  · exact Or.inl

/-! ## Characters at places -/

/-- A question about characters that spaces and tabs answer alike. -/
def Evenhanded (f : Char → Bool) : Prop :=
  f ' ' = f '\t'

theorem evenhanded_beq {c : Char} (hc : c ≠ '\t') (hs : c ≠ ' ') : Evenhanded (· == c) := by
  simp [Evenhanded, beq_eq_false_iff_ne.2 hc.symm, beq_eq_false_iff_ne.2 hs.symm]

theorem any_head?_widen {f : Char → Bool} (hf : Evenhanded f) (text : Text) :
    (widen k text).head?.any f = text.head?.any f := by
  cases text with
  | nil => rfl
  | cons c text =>
    rcases List.exists_cons_of_ne_nil (expandTab_ne_nil (k := k) c) with ⟨d, ds, hds⟩
    have hd : d ∈ expandTab k c := by simp [hds]
    rw [widen_cons, hds]
    rcases eq_or_space_of_mem_expandTab hd with rfl | ⟨rfl, rfl⟩
    · rfl
    · exact hf

/-- The question has the same answer at a place and at its image. -/
theorem any_getElem?_shift {f : Char → Bool} (hf : Evenhanded f) (text : Text) (i : Nat) :
    ((widen k text)[text.shift k i]?).any f = (text[i]?).any f := by
  rw [← List.head?_drop, ← List.head?_drop, drop_shift]
  exact any_head?_widen hf _

theorem any_getLast?_widen {f : Char → Bool} (hf : Evenhanded f) (text : Text) :
    (widen k text).getLast?.any f = text.getLast?.any f := by
  rcases List.eq_nil_or_concat text with rfl | ⟨front, c, rfl⟩
  · rfl
  · rcases List.eq_nil_or_concat (expandTab k c) with hnil | ⟨ds, d, hds⟩
    · exact absurd hnil (expandTab_ne_nil c)
    · have hd : d ∈ expandTab k c := by simp [hds]
      rw [List.concat_eq_append, widen_append, widen_cons, widen_nil, List.append_nil, hds]
      simp only [List.concat_eq_append, ← List.append_assoc, List.getLast?_concat,
        Option.any_some]
      rcases eq_or_space_of_mem_expandTab hd with rfl | ⟨rfl, rfl⟩
      · rfl
      · exact hf

theorem any_before_shift {f : Char → Bool} (hf : Evenhanded f) (text : Text) {i : Nat}
    (hi : i ≤ text.length) :
    ((widen k text).before (text.shift k i)).any f = (text.before i).any f := by
  rw [before_eq_getLast? _ (shift_le text i), take_shift, any_getLast?_widen hf,
    before_eq_getLast? text hi]

theorem endsWith_widen (text : Text) {c : Char} (hc : c ≠ '\t') (hs : c ≠ ' ') :
    (widen k text).endsWith c = text.endsWith c := by
  have hany := any_getLast?_widen (k := k) (evenhanded_beq hc hs) text
  have hends : ∀ t : Text, t.endsWith c = t.getLast?.any (· == c) := by
    intro t
    unfold endsWith
    cases t.getLast? with
    | none => rfl
    | some d => rfl
  rw [hends, hends, hany]

theorem getElem?_shift_eq_some_iff (text : Text) (i : Nat) {c : Char} (hc : c ≠ '\t')
    (hs : c ≠ ' ') : (widen k text)[text.shift k i]? = some c ↔ text[i]? = some c := by
  have hany := any_getElem?_shift (k := k) (evenhanded_beq hc hs) text i
  have hiff : ∀ o : Option Char, o.any (· == c) = true ↔ o = some c := by
    intro o
    cases o with
    | none => simp
    | some d => simp
  rw [← hiff, ← hiff, hany]

/-- A place behind a character that is no tab. -/
theorem shift_succ (text : Text) {i : Nat} {c : Char} (h : text[i]? = some c) (hc : c ≠ '\t') :
    text.shift k (i + 1) = text.shift k i + 1 := by
  have htake : (text.drop i).take 1 = [c] := by
    rw [List.take_one, List.head?_drop, h]
    rfl
  have hone : shift k (text.drop i) 1 = 1 := by
    rw [shift, htake, widen_cons, expandTab_of_ne hc]
    rfl
  rw [shift_add, hone]

/-! ## Blanks and literals -/

theorem takeWhile_isBlank_widen (text : Text) :
    (widen k text).takeWhile isBlank = widen k (text.takeWhile isBlank) := by
  induction text with
  | nil => rfl
  | cons c text ih =>
    by_cases hc : isBlank c = true
    · have hall : ∀ d ∈ expandTab k c, isBlank d = true := by
        intro d hd
        rcases eq_or_space_of_mem_expandTab hd with rfl | ⟨-, rfl⟩
        · exact hc
        · decide
      rw [widen_cons, List.takeWhile_append_of_pos hall, ih, List.takeWhile_cons_of_pos hc,
        widen_cons]
    · have htab : c ≠ '\t' := by
        rintro rfl
        exact hc (by decide)
      rw [widen_cons, expandTab_of_ne htab, List.takeWhile_cons_of_neg hc]
      exact List.takeWhile_cons_of_neg hc

theorem blanks_widen (text : Text) : (widen k text).blanks = text.shift k text.blanks := by
  rw [blanks, takeWhile_isBlank_widen, ← take_blanks]
  rfl

/-- The text has neither spaces nor tabs. -/
def Plain (text : Text) : Prop :=
  ' ' ∉ text ∧ '\t' ∉ text

instance (text : Text) : Decidable text.Plain :=
  inferInstanceAs (Decidable (' ' ∉ text ∧ '\t' ∉ text))

/-- A literal without spaces and tabs stands at the front of a text exactly if it does so once the
tabs are expanded. -/
theorem isPrefixOf_widen {literal : Text} (h : literal.Plain) (text : Text) :
    literal.isPrefixOf (widen k text) = literal.isPrefixOf text := by
  induction literal generalizing text with
  | nil => simp
  | cons c literal ih =>
    have hplain : Plain literal :=
      ⟨fun hmem => h.1 (List.mem_cons_of_mem _ hmem),
        fun hmem => h.2 (List.mem_cons_of_mem _ hmem)⟩
    have hspace : c ≠ ' ' := fun hc => h.1 (by simp [hc])
    have htab : c ≠ '\t' := fun hc => h.2 (by simp [hc])
    cases text with
    | nil => rfl
    | cons d text =>
      by_cases hd : d = '\t'
      · -- Neither the tab nor a space is the first character of the literal.
        rcases List.exists_cons_of_ne_nil (expandTab_ne_nil (k := k) d) with ⟨x, xs, hxs⟩
        have hx : x = ' ' ∨ x = '\t' := by
          have hmem : x ∈ expandTab k d := by simp [hxs]
          rcases eq_or_space_of_mem_expandTab hmem with rfl | ⟨-, rfl⟩
          · exact Or.inr hd
          · exact Or.inl rfl
        have hcx : (c == x) = false := by
          rcases hx with rfl | rfl
          · exact beq_eq_false_iff_ne.2 hspace
          · exact beq_eq_false_iff_ne.2 htab
        have hcd : (c == d) = false := by
          rw [hd]
          exact beq_eq_false_iff_ne.2 htab
        rw [widen_cons, hxs]
        simp [List.isPrefixOf, hcx, hcd]
      · rw [widen_cons, expandTab_of_ne hd]
        simp only [List.cons_append, List.nil_append, List.isPrefixOf, ih hplain]

theorem shift_of_prefix {literal text : Text} (h : literal.Plain) (hfront : literal <+: text) :
    text.shift k literal.length = literal.length := by
  rw [shift, ← List.prefix_iff_eq_take.1 hfront, widen_eq_self h.2]

end Text

/-! ## Tokens and patterns -/

theorem evenhanded_isWord : Text.Evenhanded Text.isWord := by
  unfold Text.Evenhanded
  decide

namespace Token

theorem gapLength_widen {k : Nat} (t : Token) (rest : Text) :
    t.gapLength (rest.widen k) = rest.shift k (t.gapLength rest) := by
  unfold gapLength
  split
  · rfl
  · exact Text.blanks_widen rest

/-- A token takes the same white space and the same literal once tabs are expanded. -/
theorem take?_widen {k : Nat} {t : Token} (ht : t.literal.Plain) (rest : Text) :
    t.take? (rest.widen k) = (t.take? rest).map (Option.map (rest.shift k)) := by
  have hzero : rest.shift k (t.gapLength rest) = 0 ↔ t.gapLength rest = 0 :=
    Text.shift_eq_zero_iff rest (t.gapLength_le rest)
  simp only [take?, gapLength_widen, Text.drop_shift, Text.isPrefixOf_widen ht, hzero]
  split
  · rfl
  · split
    · rename_i hfront
      have hstop : rest.shift k (t.gapLength rest) + t.literal.length =
          rest.shift k (t.gapLength rest + t.literal.length) := by
        rw [Text.shift_add, Text.shift_of_prefix ht (List.isPrefixOf_iff_prefix.1 hfront)]
      rw [hstop, Text.any_getElem?_shift evenhanded_isWord]
      split
      · rfl
      · split
        · rfl
        · rfl
    · rfl

end Token

theorem takeTokens?_widen {k : Nat} {ts : List Token} (hts : ∀ t ∈ ts, t.literal.Plain)
    (rest : Text) :
    takeTokens? ts (rest.widen k) = (takeTokens? ts rest).map (Option.map (rest.shift k)) := by
  induction ts generalizing rest with
  | nil => rfl
  | cons t ts ih =>
    rcases List.forall_mem_cons.1 hts with ⟨ht, hrest⟩
    simp only [takeTokens?, Token.take?_widen ht]
    cases t.take? rest with
    | error fault => rfl
    | ok found =>
      cases found with
      | none =>
        simp only [Except.map, Option.map_none, Bind.bind, Except.bind]
        split
        · exact ih hrest rest
        · rfl
      | some n =>
        have hmore := ih hrest (rest.drop n)
        simp only [Except.map, Option.map_some, Bind.bind, Except.bind,
          Text.drop_shift] at hmore ⊢
        rw [hmore]
        cases takeTokens? ts (rest.drop n) with
        | error fault => rfl
        | ok more =>
          cases more with
          | none => rfl
          | some m => simp [pure, Except.pure, Text.shift_add]

namespace Pattern

/-- All literals are without spaces and tabs. -/
def Plain (p : Pattern) : Prop :=
  ∀ t ∈ p.tokens, t.literal.Plain

variable {k : Nat} {p : Pattern}

/-- A match, given by its length. Only whether a word character stands in front of it matters. -/
theorem take?_widen (hp : p.Plain) {before before' : Option Char}
    (hbefore : before'.any Text.isWord = before.any Text.isWord) (rest : Text) :
    p.take? before' (rest.widen k) = (p.take? before rest).map (Option.map (rest.shift k)) := by
  unfold take?
  split
  · rfl
  · split
    · rfl
    · rw [hbefore]
      split
      · rfl
      · exact takeTokens?_widen hp rest

theorem takeFrom?_widen (hp : p.Plain) {first : Text} (hfirst : first.Plain)
    {before before' : Option Char} (hbefore : before'.any Text.isWord = before.any Text.isWord)
    (rest : Text) :
    p.takeFrom? first before' (rest.widen k) =
      (p.takeFrom? first before rest).map (Option.map (rest.shift k)) := by
  unfold takeFrom?
  rw [Text.isPrefixOf_widen hfirst]
  split
  · exact take?_widen hp hbefore rest
  · rfl

end Pattern

/-! ## Searches -/

/-- A match of the text as a match of the expanded text. -/
def Match.widen (k : Nat) (text : Text) (m : Match) : Match :=
  ⟨text.shift k m.index, text.shift k m.stop, m.text.widen k⟩

namespace Pattern

variable {k : Nat} {p : Pattern}

/-- No match begins at a space, so spaces are passed over. -/
theorem searchFrom_replicate {c : Char} {first : Text} (hc : c ≠ ' ') (before : Option Char)
    (index n : Nat) (rest : Text) :
    p.searchFrom (c :: first) before index (List.replicate n ' ' ++ rest) =
      p.searchFrom (c :: first) (if n = 0 then before else some ' ') (index + n) rest := by
  induction n generalizing before index with
  | zero => rfl
  | succ n ih =>
    have hnone : p.takeFrom? (c :: first) before (' ' :: (List.replicate n ' ' ++ rest)) =
        .ok none := by
      simp [takeFrom?, List.isPrefixOf, beq_eq_false_iff_ne.2 hc]
    have hbefore : (if n = 0 then some ' ' else some ' ') = some ' ' := ite_self _
    rw [List.replicate_succ, List.cons_append, searchFrom_cons_of_none hnone, ih, hbefore,
      if_neg (Nat.succ_ne_zero n), Nat.add_assoc, Nat.add_comm 1 n]

/-- A place where a pattern with characters does not match is left behind. -/
theorem ne_nil_of_takeFrom? {t : Token} {ts : List Token} (ht : p.tokens = t :: ts)
    {before : Option Char} {rest : Text}
    (h : p.takeFrom? t.literal before rest = .ok none) : t.literal ≠ [] := by
  intro hnil
  simp [takeFrom?, take?, ht, hnil] at h

/-- The scan from a place on. Where a tab stands, the spaces that it is written as are passed
over, since no literal begins with a space. -/
theorem searchFrom_widen (hp : p.Plain) {t : Token} {ts : List Token} (ht : p.tokens = t :: ts)
    (text : Text) (rest : Text) {i : Nat} (hrest : text.drop i = rest)
    {before before' : Option Char} (hbefore : before'.any Text.isWord = before.any Text.isWord) :
    p.searchFrom t.literal before' (text.shift k i) (rest.widen k) =
      (p.searchFrom t.literal before i rest).map (Option.map (Match.widen k text)) := by
  have hfirst : t.literal.Plain := hp t (by simp [ht])
  have hsome : ∀ {i : Nat} {rest : Text} (n : Nat), text.drop i = rest →
      (⟨text.shift k i, text.shift k i + rest.shift k n, (rest.widen k).take (rest.shift k n)⟩ :
        Match) = Match.widen k text ⟨i, i + n, rest.take n⟩ := by
    rintro i rest n rfl
    rw [Match.widen, Text.shift_add, Text.take_shift]
  induction rest generalizing i before before' with
  | nil =>
    have htake := takeFrom?_widen (k := k) hp hfirst hbefore []
    cases hhere : p.takeFrom? t.literal before [] with
    | error fault =>
      rw [hhere] at htake
      rw [searchFrom_of_error hhere, searchFrom_of_error htake]
      rfl
    | ok here =>
      rw [hhere] at htake
      cases here with
      | none =>
        rw [searchFrom_nil_of_none hhere]
        exact searchFrom_nil_of_none htake
      | some n =>
        rw [searchFrom_of_some hhere, searchFrom_of_some htake, hsome n hrest]
        rfl
  | cons c rest ih =>
    have htake := takeFrom?_widen (k := k) hp hfirst hbefore (c :: rest)
    cases hhere : p.takeFrom? t.literal before (c :: rest) with
    | error fault =>
      rw [hhere] at htake
      rw [searchFrom_of_error hhere, searchFrom_of_error htake]
      rfl
    | ok here =>
      rw [hhere] at htake
      cases here with
      | some n =>
        rw [searchFrom_of_some hhere, searchFrom_of_some htake, hsome n hrest]
        rfl
      | none =>
        have hnext : text.drop (i + 1) = rest := by
          rw [← List.drop_drop, hrest, List.drop_one, List.tail_cons]
        have hshift : text.shift k (i + 1) = text.shift k i + (Text.expandTab k c).length := by
          have hone : Text.shift k (c :: rest) 1 = (Text.expandTab k c).length := by
            simp [Text.shift, Text.widen_cons]
          rw [Text.shift_add, hrest, hone]
        rcases List.exists_cons_of_ne_nil (ne_nil_of_takeFrom? ht hhere) with ⟨f, fs, hfs⟩
        have hspace : f ≠ ' ' := by
          rintro rfl
          exact hfirst.1 (by simp [hfs])
        rw [searchFrom_cons_of_none hhere]
        by_cases htab : c = '\t' ∧ 0 < k
        · -- The pattern is tried at the first space of the tab only; the others are passed over.
          rcases htab with ⟨rfl, hk⟩
          obtain ⟨n, rfl⟩ : ∃ n, k = n + 1 := ⟨k - 1, by omega⟩
          have hspaces : Text.expandTab (n + 1) '\t' = ' ' :: List.replicate n ' ' := by
            simp [Text.expandTab, List.replicate_succ]
          have hgap : (if n = 0 then some ' ' else some ' ').any Text.isWord =
              (some '\t').any Text.isWord := by
            rw [ite_self]
            decide
          have hlength : text.shift (n + 1) (i + 1) = text.shift (n + 1) i + 1 + n := by
            rw [hshift, hspaces, List.length_cons, List.length_replicate]
            omega
          rw [Text.widen_cons, hspaces, List.cons_append] at htake ⊢
          rw [searchFrom_cons_of_none htake, hfs, searchFrom_replicate hspace, ← hlength, ← hfs]
          exact ih hnext hgap
        · have hkeep : Text.expandTab k c = [c] := by rw [Text.expandTab, if_neg htab]
          rw [Text.widen_cons, hkeep, List.cons_append, List.nil_append] at htake ⊢
          rw [searchFrom_cons_of_none htake]
          rw [hkeep, List.length_singleton] at hshift
          rw [← hshift]
          exact ih hnext rfl

/-- A search in the expanded text finds the image of what it finds in the text. -/
theorem search_widen (hp : p.Plain) {text : Text} {start : Nat} (hstart : start ≤ text.length) :
    p.search (text.widen k) (text.shift k start) =
      (p.search text start).map (Option.map (Match.widen k text)) := by
  unfold search
  split
  · rfl
  · rename_i t ts ht
    have hin : ¬ (text.widen k).length < text.shift k start :=
      Nat.not_lt.2 (Text.shift_le text start)
    have hin' : ¬ text.length < start := Nat.not_lt.2 hstart
    rw [if_neg hin, if_neg hin', Text.drop_shift]
    exact searchFrom_widen hp ht text _ rfl (Text.any_before_shift evenhanded_isWord text hstart)

end Pattern
end HeaderCatalog
