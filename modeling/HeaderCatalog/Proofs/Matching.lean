import HeaderCatalog.Pattern

/-!
# HeaderCatalog.Proofs.Matching — what a match and a search mean

The matcher computes; this module says what it computes:

* `Token.Stands` says where a token stands, and `Token.take?_eq_some_iff` that a token is read
  exactly where it stands;
* `Reads` is the greedy reading of a list of tokens as a relation, one rule for a token that is
  read and one for an optional token that is passed over;
* `Pattern.matchAt_eq_some_iff` unfolds a match at a place into these two;
* `Pattern.search_eq_some` and `Pattern.search_eq_none`: a search gives the leftmost place from
  its start on at which the pattern matches, and nothing only if there is no such place;
* `Pattern.matchAt_ok` and `Pattern.search_ok`: both have an answer for every pattern whose
  literals have characters.
-/

namespace HeaderCatalog

/-- Peels one step off a computation that succeeds. -/
theorem bind_eq_ok_iff {ε α β : Type} {x : Except ε α} {f : α → Except ε β} {b : β} :
    x >>= f = .ok b ↔ ∃ a, x = .ok a ∧ f a = .ok b := by
  cases x with
  | error e => simp [Bind.bind, Except.bind]
  | ok a => simp [Bind.bind, Except.bind]

/-! ## Places of a text -/

/-- The character in front of a place; there is none in front of the first one. -/
def Text.before (text : Text) (i : Nat) : Option Char :=
  if i = 0 then none else text[i - 1]?

@[simp] theorem Text.before_zero (text : Text) : text.before 0 = none := rfl

@[simp] theorem Text.before_succ (text : Text) (i : Nat) : text.before (i + 1) = text[i]? := by
  simp [before]

theorem Text.before_eq_getLast? (text : Text) {i : Nat} (hi : i ≤ text.length) :
    text.before i = (text.take i).getLast? := by
  cases i with
  | zero => rfl
  | succ i =>
    rw [before_succ, List.getLast?_eq_getElem?, List.length_take, Nat.min_eq_left hi,
      List.getElem?_take_of_lt (by omega)]
    rfl

/-- The character in front of a place behind a literal is the last one of the literal. -/
theorem Text.before_of_take_eq {text front literal : Text} {i : Nat} (hi : i ≤ text.length)
    (h : text.take i = front ++ literal) (hne : literal ≠ []) :
    text.before i = literal.getLast? := by
  rcases Option.isSome_iff_exists.1 (List.getLast?_isSome.2 hne) with ⟨c, hc⟩
  rw [Text.before_eq_getLast? text hi, h, List.getLast?_append, hc]
  rfl

theorem Text.length_slice (text : Text) (start stop : Nat) (h : stop ≤ text.length) :
    (text.slice start stop).length = stop - start := by
  simp [slice, Nat.min_eq_left h]

theorem Text.slice_add (text : Text) (start n : Nat) :
    text.slice start (start + n) = (text.drop start).take n := by
  simp [slice, List.drop_take]

theorem Text.blanks_le (rest : Text) : rest.blanks ≤ rest.length :=
  (List.takeWhile_prefix _).length_le

theorem Text.take_blanks (rest : Text) : rest.take rest.blanks = rest.takeWhile isBlank :=
  (List.prefix_iff_eq_take.1 (List.takeWhile_prefix _)).symm

theorem Text.drop_blanks (rest : Text) : rest.drop rest.blanks = rest.dropWhile isBlank := by
  have hdrop : (rest.takeWhile isBlank ++ rest.dropWhile isBlank).drop rest.blanks =
      rest.dropWhile isBlank := List.drop_left
  rwa [List.takeWhile_append_dropWhile] at hdrop

/-! ## One token -/

/-- The token stands at the front of `rest` and takes `n` characters there: the blanks that its
gap takes, at least one if it asks for one, and its literal, which ends a word if it ends in a
word character. -/
structure Token.Stands (t : Token) (rest : Text) (n : Nat) : Prop where
  spaced : t.gap = .many → t.gapLength rest ≠ 0
  nonempty : t.literal ≠ []
  literal : t.literal <+: rest.drop (t.gapLength rest)
  length : n = t.gapLength rest + t.literal.length
  ended : ∀ c d, t.literal.getLast? = some c → Text.isWord c = true → rest[n]? = some d →
    Text.isWord d = false

namespace Token

theorem gapLength_le (t : Token) (rest : Text) : t.gapLength rest ≤ rest.length := by
  unfold gapLength
  split
  · exact Nat.zero_le _
  · exact rest.blanks_le

theorem Stands.le_length {t : Token} {rest : Text} {n : Nat} (h : t.Stands rest n) :
    n ≤ rest.length := by
  have hlit := h.literal.length_le
  have hgap := t.gapLength_le rest
  have hn := h.length
  simp only [List.length_drop] at hlit
  omega

theorem Stands.pos {t : Token} {rest : Text} {n : Nat} (h : t.Stands rest n) : 0 < n := by
  have hne := List.length_pos_iff.2 h.nonempty
  have hn := h.length
  omega

theorem isBlank_of_mem_gap {t : Token} {rest : Text} {c : Char}
    (hc : c ∈ rest.take (t.gapLength rest)) : Text.isBlank c = true := by
  unfold gapLength at hc
  split at hc
  · simp at hc
  · rw [rest.take_blanks] at hc
    exact List.all_eq_true.1 List.all_takeWhile c hc

/-- What a token takes is its gap and its literal. -/
theorem Stands.take_eq {t : Token} {rest : Text} {n : Nat} (h : t.Stands rest n) :
    rest.take n = rest.take (t.gapLength rest) ++ t.literal := by
  rw [h.length, List.take_add, ← List.prefix_iff_eq_take.1 h.literal]

/-- A token is read exactly where it stands. -/
theorem take?_eq_some_iff (t : Token) (rest : Text) (n : Nat) :
    t.take? rest = .ok (some n) ↔ t.Stands rest n := by
  constructor
  · intro h
    simp only [take?] at h
    split at h
    · cases h
    · rename_i hspaced
      split at h
      · rename_i hlit
        split at h
        · cases h
        · rename_i last hlast
          split at h
          · cases h
          · rename_i hword
            cases h
            refine ⟨fun hgap hzero => hspaced ⟨hgap, hzero⟩, ?_, List.isPrefixOf_iff_prefix.1 hlit,
              rfl, ?_⟩
            · intro hnil
              simp [hnil] at hlast
            · intro c d hc hcw hd
              rw [hlast] at hc
              cases hc
              simpa [hcw, hd] using hword
      · cases h
  · rintro ⟨hspaced, hne, hlit, hn, hended⟩
    subst hn
    obtain ⟨last, hlast⟩ := Option.isSome_iff_exists.1 (List.getLast?_isSome.2 hne)
    have hgap : ¬ (t.gap = .many ∧ t.gapLength rest = 0) := fun h => hspaced h.1 h.2
    have hword : (Text.isWord last &&
        (rest[t.gapLength rest + t.literal.length]?).any Text.isWord) = false := by
      cases hw : Text.isWord last with
      | false => rfl
      | true =>
        cases hd : rest[t.gapLength rest + t.literal.length]? with
        | none => rfl
        | some d => simpa using hended last d hlast hw hd
    simp [take?, hgap, List.isPrefixOf_iff_prefix.2 hlit, hlast, hword]

/-- Asking for a token that has characters always has an answer. -/
theorem take?_ok (t : Token) (rest : Text) (hne : t.literal ≠ []) :
    ∃ found, t.take? rest = .ok found := by
  obtain ⟨last, hlast⟩ := Option.isSome_iff_exists.1 (List.getLast?_isSome.2 hne)
  simp only [take?, hlast]
  split
  · exact ⟨_, rfl⟩
  · split
    · split
      · exact ⟨_, rfl⟩
      · exact ⟨_, rfl⟩
    · exact ⟨_, rfl⟩

/-- A token that has characters is passed over exactly where it does not stand. -/
theorem take?_eq_none_iff (t : Token) (rest : Text) (hne : t.literal ≠ []) :
    t.take? rest = .ok none ↔ ∀ n, ¬ t.Stands rest n := by
  constructor
  · intro h n hn
    rw [← take?_eq_some_iff, h] at hn
    cases hn
  · intro h
    obtain ⟨found, hfound⟩ := t.take?_ok rest hne
    cases found with
    | none => exact hfound
    | some n => exact absurd ((take?_eq_some_iff t rest n).1 hfound) (h n)

end Token

/-! ## Lists of tokens -/

/-- The greedy reading of tokens at the front of a text, with the number of characters taken. -/
inductive Reads : List Token → Text → Nat → Prop where
  | done (rest : Text) : Reads [] rest 0
  | token {t : Token} {ts : List Token} {rest : Text} {n k : Nat} :
      t.Stands rest n → Reads ts (rest.drop n) k → Reads (t :: ts) rest (n + k)
  | pass {t : Token} {ts : List Token} {rest : Text} {k : Nat} :
      t.optional = true → t.take? rest = .ok none → Reads ts rest k → Reads (t :: ts) rest k

/-- The matcher reads a list of tokens exactly as the relation says. -/
theorem takeTokens?_eq_some_iff (ts : List Token) (rest : Text) (n : Nat) :
    takeTokens? ts rest = .ok (some n) ↔ Reads ts rest n := by
  constructor
  · intro h
    induction ts generalizing rest n with
    | nil =>
      cases h
      exact .done rest
    | cons t ts ih =>
      obtain ⟨found, hfound, h⟩ := bind_eq_ok_iff.1 h
      cases found with
      | none =>
        simp only at h
        split at h
        · rename_i hopt
          exact .pass hopt hfound (ih rest n h)
        · cases h
      | some k =>
        obtain ⟨more, hmore, h⟩ := bind_eq_ok_iff.1 h
        cases more with
        | none => cases h
        | some j =>
          cases h
          exact .token ((t.take?_eq_some_iff rest k).1 hfound) (ih _ j hmore)
  · intro h
    induction h with
    | done rest => rfl
    | token hstands _ ih =>
      refine bind_eq_ok_iff.2 ⟨_, (Token.take?_eq_some_iff _ _ _).2 hstands, ?_⟩
      exact bind_eq_ok_iff.2 ⟨_, ih, rfl⟩
    | pass hopt hnone _ ih =>
      refine bind_eq_ok_iff.2 ⟨_, hnone, ?_⟩
      simpa [hopt] using ih

/-- Reading tokens that have characters always has an answer. -/
theorem takeTokens?_ok (ts : List Token) (rest : Text) (hne : ∀ t ∈ ts, t.literal ≠ []) :
    ∃ found, takeTokens? ts rest = .ok found := by
  induction ts generalizing rest with
  | nil => exact ⟨_, rfl⟩
  | cons t ts ih =>
    have hrest : ∀ u ∈ ts, u.literal ≠ [] := fun u hu => hne u (List.mem_cons_of_mem _ hu)
    obtain ⟨here, hhere⟩ := t.take?_ok rest (hne t List.mem_cons_self)
    cases here with
    | some n =>
      obtain ⟨more, hmore⟩ := ih (rest.drop n) hrest
      exact ⟨_, bind_eq_ok_iff.2 ⟨_, hhere, bind_eq_ok_iff.2 ⟨more, hmore, rfl⟩⟩⟩
    | none =>
      by_cases hopt : t.optional = true
      · obtain ⟨found, hfound⟩ := ih rest hrest
        exact ⟨found, bind_eq_ok_iff.2 ⟨_, hhere, by simpa [hopt] using hfound⟩⟩
      · exact ⟨none, bind_eq_ok_iff.2 ⟨_, hhere, by simp [hopt]; rfl⟩⟩

namespace Reads

theorem le_length {ts : List Token} {rest : Text} {n : Nat} (h : Reads ts rest n) :
    n ≤ rest.length := by
  induction h with
  | done rest => exact Nat.zero_le _
  | token hstands _ ih =>
    have hn := hstands.le_length
    simp only [List.length_drop] at ih
    omega
  | pass _ _ _ ih => exact ih

/-- Tokens in two parts are read one part after the other. -/
theorem append_iff (ts us : List Token) (rest : Text) (n : Nat) :
    Reads (ts ++ us) rest n ↔
      ∃ k j, Reads ts rest k ∧ Reads us (rest.drop k) j ∧ n = k + j := by
  constructor
  · intro h
    induction ts generalizing rest n with
    | nil => exact ⟨0, n, .done rest, by simpa using h, by omega⟩
    | cons t ts ih =>
      cases h with
      | token hstands hmore =>
        obtain ⟨k, j, hk, hj, rfl⟩ := ih _ _ hmore
        exact ⟨_, j, .token hstands hk, by simpa [List.drop_drop] using hj, by omega⟩
      | pass hopt hnone hmore =>
        obtain ⟨k, j, hk, hj, rfl⟩ := ih _ _ hmore
        exact ⟨k, j, .pass hopt hnone hk, hj, rfl⟩
  · rintro ⟨k, j, hk, hj, rfl⟩
    induction hk with
    | done rest => simpa using hj
    | token hstands _ ih =>
      rw [Nat.add_assoc]
      exact .token hstands (ih (by simpa [List.drop_drop] using hj))
    | pass hopt hnone _ ih => exact .pass hopt hnone (ih hj)

/-- What is read consists of blanks and of the characters of the literals. -/
theorem isBlank_or_mem_literal {ts : List Token} {rest : Text} {n : Nat} (h : Reads ts rest n)
    {c : Char} (hc : c ∈ rest.take n) : Text.isBlank c = true ∨ ∃ t ∈ ts, c ∈ t.literal := by
  induction h with
  | done rest => simp at hc
  | @token t ts rest n k hstands _ ih =>
    rw [List.take_add, List.mem_append] at hc
    rcases hc with hc | hc
    · rw [hstands.take_eq, List.mem_append] at hc
      rcases hc with hc | hc
      · exact Or.inl (Token.isBlank_of_mem_gap hc)
      · exact Or.inr ⟨t, List.mem_cons_self, hc⟩
    · rcases ih hc with hblank | ⟨u, hu, hcu⟩
      · exact Or.inl hblank
      · exact Or.inr ⟨u, List.mem_cons_of_mem _ hu, hcu⟩
  | pass _ _ _ ih =>
    rcases ih hc with hblank | ⟨u, hu, hcu⟩
    · exact Or.inl hblank
    · exact Or.inr ⟨u, List.mem_cons_of_mem _ hu, hcu⟩

/-- Tokens that are read have characters, if the optional ones are commas. -/
theorem literal_ne_nil {ts : List Token} {rest : Text} {n : Nat} (h : Reads ts rest n)
    (hcomma : ∀ t ∈ ts, t.optional = true → t.literal = [',']) : ∀ t ∈ ts, t.literal ≠ [] := by
  induction h with
  | done rest =>
    intro t ht
    cases ht
  | token hstands _ ih =>
    rcases List.forall_mem_cons.1 hcomma with ⟨-, hrest⟩
    exact List.forall_mem_cons.2 ⟨hstands.nonempty, ih hrest⟩
  | pass hopt _ _ ih =>
    rcases List.forall_mem_cons.1 hcomma with ⟨hfirst, hrest⟩
    refine List.forall_mem_cons.2 ⟨?_, ih hrest⟩
    rw [hfirst hopt]
    exact List.cons_ne_nil _ _

end Reads

/-! ## Matches of a pattern -/

/-- The match lies in the text. -/
structure Match.Lies (m : Match) (text : Text) : Prop where
  le : m.index ≤ m.stop
  stop_le : m.stop ≤ text.length
  text_eq : m.text = text.slice m.index m.stop

namespace Pattern

/-- The pattern may begin behind the character `before`: its first literal has characters, and
does not go on with a word. -/
def BeginsAfter (p : Pattern) (before : Option Char) : Prop :=
  ∃ t ts c cs, p.tokens = t :: ts ∧ t.literal = c :: cs ∧
    (Text.isWord c && before.any Text.isWord) = false

/-- A match at a place is a beginning there and a reading of all tokens from there on. -/
theorem take?_eq_some_iff (p : Pattern) (before : Option Char) (rest : Text) (n : Nat) :
    p.take? before rest = .ok (some n) ↔ p.BeginsAfter before ∧ Reads p.tokens rest n := by
  constructor
  · intro h
    unfold take? at h
    split at h
    · cases h
    · rename_i t ts htokens
      split at h
      · cases h
      · rename_i c cs hlit
        split at h
        · cases h
        · rename_i hword
          exact ⟨⟨t, ts, c, cs, htokens, hlit, by simpa using hword⟩,
            (takeTokens?_eq_some_iff _ _ _).1 h⟩
  · rintro ⟨⟨t, ts, c, cs, htokens, hlit, hword⟩, hreads⟩
    rw [← takeTokens?_eq_some_iff] at hreads
    simp [take?, htokens, hlit, hword, ← hreads]

/-- The same for a place of a text. -/
theorem matchAt_eq_some_iff (p : Pattern) (text : Text) (i stop : Nat) :
    p.matchAt text i = .ok (some stop) ↔
      i ≤ text.length ∧ p.BeginsAfter (text.before i) ∧
        ∃ n, Reads p.tokens (text.drop i) n ∧ stop = i + n := by
  constructor
  · intro h
    unfold matchAt at h
    split at h
    · split at h
      · cases h
      · split at h
        · cases h
        · split at h <;> cases h
    · rename_i hi
      obtain ⟨found, hfound, h⟩ := bind_eq_ok_iff.1 h
      cases found with
      | none => cases h
      | some n =>
        cases h
        obtain ⟨hbegin, hreads⟩ := (take?_eq_some_iff _ _ _ _).1 hfound
        exact ⟨by omega, hbegin, n, hreads, rfl⟩
  · rintro ⟨hi, hbegin, n, hreads, rfl⟩
    have hnot : ¬ text.length < i := by omega
    rw [matchAt, if_neg hnot]
    exact bind_eq_ok_iff.2 ⟨_, (take?_eq_some_iff _ _ _ _).2 ⟨hbegin, hreads⟩, rfl⟩

/-- A match ends in the text, behind its beginning. -/
theorem le_of_matchAt {p : Pattern} {text : Text} {i stop : Nat}
    (h : p.matchAt text i = .ok (some stop)) : i ≤ stop ∧ stop ≤ text.length := by
  obtain ⟨hi, -, n, hreads, rfl⟩ := (matchAt_eq_some_iff _ _ _ _).1 h
  have hn := hreads.le_length
  simp only [List.length_drop] at hn
  omega

/-- Asking whether a pattern matches has an answer, if its literals have characters. -/
theorem take?_ok {p : Pattern} (hne : ∀ t ∈ p.tokens, t.literal ≠ []) (before : Option Char)
    (rest : Text) : ∃ found, p.take? before rest = .ok found := by
  unfold take?
  split
  · exact ⟨_, rfl⟩
  · rename_i t ts htokens
    have hmem : t ∈ p.tokens := by simp [htokens]
    split
    · rename_i hlit
      exact absurd hlit (hne t hmem)
    · split
      · exact ⟨_, rfl⟩
      · exact takeTokens?_ok p.tokens rest hne

theorem matchAt_ok {p : Pattern} (hne : ∀ t ∈ p.tokens, t.literal ≠ []) {text : Text} {i : Nat}
    (hi : i ≤ text.length) : ∃ found, p.matchAt text i = .ok found := by
  have hnot : ¬ text.length < i := by omega
  obtain ⟨found, hfound⟩ := take?_ok hne (text.before i) (text.drop i)
  rw [matchAt, if_neg hnot]
  exact ⟨_, bind_eq_ok_iff.2 ⟨found, hfound, rfl⟩⟩

/-- The pattern matches at a place. -/
def OccursAt (p : Pattern) (text : Text) (i : Nat) : Prop :=
  ∃ stop, p.matchAt text i = .ok (some stop)

/-- The first token is required and has no gap, so a match begins with its literal. -/
def Anchored (p : Pattern) : Prop :=
  ∀ t ts, p.tokens = t :: ts → t.gap = .none ∧ t.optional = false

theorem Anchored.normalized {p : Pattern} (h : p.Anchored) (tabSize : Nat) :
    (p.normalized tabSize).Anchored := by
  intro t ts ht
  simp only [Pattern.normalized, List.map_eq_cons_iff] at ht
  obtain ⟨u, us, hu, rfl, -⟩ := ht
  exact h u us hu

/-- A pattern that is anchored begins where its first literal stands. -/
theorem prefix_of_occursAt {p : Pattern} (hp : p.Anchored) {text : Text} {i : Nat} {t : Token}
    {ts : List Token} (ht : p.tokens = t :: ts) (h : p.OccursAt text i) :
    t.literal <+: text.drop i := by
  obtain ⟨stop, h⟩ := h
  obtain ⟨-, -, n, hreads, -⟩ := (matchAt_eq_some_iff _ _ _ _).1 h
  obtain ⟨hgap, hreq⟩ := hp t ts ht
  rw [ht] at hreads
  cases hreads with
  | token hstands _ => simpa [Token.gapLength, hgap] using hstands.literal
  | pass hopt _ _ => simp [hreq] at hopt

/-! ## Searches -/

/-- The place that a search gives back: the pattern matches there, and at no place from the
start of the search up to it. -/
structure Leftmost (p : Pattern) (text : Text) (start : Nat) (m : Match) : Prop where
  start_le : start ≤ m.index
  matches_at : p.matchAt text m.index = .ok (some m.stop)
  text_eq : m.text = text.slice m.index m.stop
  first : ∀ j, start ≤ j → j < m.index → ¬ p.OccursAt text j

/-- A match where the search starts is the leftmost one. -/
theorem Leftmost.eq_of_matchAt {p : Pattern} {text : Text} {i stop : Nat} {m : Match}
    (h : p.Leftmost text i m) (hmatch : p.matchAt text i = .ok (some stop)) :
    m = ⟨i, stop, text.slice i stop⟩ := by
  have hindex : m.index = i := by
    rcases Nat.lt_or_eq_of_le h.start_le with hlt | heq
    · exact absurd ⟨stop, hmatch⟩ (h.first i (Nat.le_refl i) hlt)
    · exact heq.symm
  have hstop : m.stop = stop := by
    have hsame := h.matches_at
    rw [hindex, hmatch] at hsame
    cases hsame
    rfl
  have htext := h.text_eq
  rw [hindex, hstop] at htext
  rw [← hindex, ← hstop] at htext ⊢
  rw [← htext]

/-- There is one leftmost match. -/
theorem Leftmost.unique {p : Pattern} {text : Text} {start : Nat} {m m' : Match}
    (h : p.Leftmost text start m) (h' : p.Leftmost text start m') : m = m' := by
  have hindex : m.index = m'.index := by
    rcases Nat.lt_trichotomy m.index m'.index with hlt | heq | hlt
    · exact absurd ⟨m.stop, h.matches_at⟩ (h'.first _ h.start_le hlt)
    · exact heq
    · exact absurd ⟨m'.stop, h'.matches_at⟩ (h.first _ h'.start_le hlt)
  have hfrom : p.Leftmost text m.index m' := by
    refine ⟨Nat.le_of_eq hindex, h'.matches_at, h'.text_eq, ?_⟩
    intro j hj hlt
    omega
  have hsame := hfrom.eq_of_matchAt h.matches_at
  rw [hsame]
  rcases m with ⟨index, stop, header⟩
  rw [show header = text.slice index stop from h.text_eq]

theorem Leftmost.lies {p : Pattern} {text : Text} {start : Nat} {m : Match}
    (h : p.Leftmost text start m) : m.Lies text := by
  rcases Pattern.le_of_matchAt h.matches_at with ⟨hle, hstop⟩
  exact ⟨hle, hstop, h.text_eq⟩

section Scan

variable {p : Pattern} {first : Text} {before : Option Char} {index : Nat} {rest : Text}

theorem searchFrom_of_error {fault : Fault} (h : p.takeFrom? first before rest = .error fault) :
    p.searchFrom first before index rest = .error fault := by
  unfold searchFrom
  rw [h]
  rfl

theorem searchFrom_of_some {n : Nat} (h : p.takeFrom? first before rest = .ok (some n)) :
    p.searchFrom first before index rest = .ok (some ⟨index, index + n, rest.take n⟩) := by
  unfold searchFrom
  rw [h]
  rfl

theorem searchFrom_nil_of_none (h : p.takeFrom? first before [] = .ok none) :
    p.searchFrom first before index [] = .ok none := by
  unfold searchFrom
  rw [h]
  rfl

theorem searchFrom_cons_of_none {c : Char} (h : p.takeFrom? first before (c :: rest) = .ok none) :
    p.searchFrom first before index (c :: rest) =
      p.searchFrom first (some c) (index + 1) rest := by
  rw [searchFrom, h]
  rfl

end Scan

/-- One place of the scan: the pattern is tried only where its first literal stands, which
overlooks no match. -/
theorem takeFrom?_spec {p : Pattern} (hp : p.Anchored) {t : Token} {ts : List Token}
    (ht : p.tokens = t :: ts) {text : Text} {i : Nat} (hi : i ≤ text.length) {here : Option Nat}
    (h : p.takeFrom? t.literal (text.before i) (text.drop i) = .ok here) :
    (∀ n, here = some n → p.matchAt text i = .ok (some (i + n))) ∧
      (here = none → ¬ p.OccursAt text i) := by
  unfold takeFrom? at h
  split at h
  · constructor
    · rintro n rfl
      obtain ⟨hbegin, hreads⟩ := (take?_eq_some_iff _ _ _ _).1 h
      exact (matchAt_eq_some_iff _ _ _ _).2 ⟨hi, hbegin, n, hreads, rfl⟩
    · rintro rfl ⟨stop, hstop⟩
      obtain ⟨-, hbegin, n, hreads, -⟩ := (matchAt_eq_some_iff _ _ _ _).1 hstop
      have hsome := (take?_eq_some_iff _ _ _ _).2 ⟨hbegin, hreads⟩
      rw [h] at hsome
      cases hsome
  · rename_i hprefix
    cases h
    refine ⟨fun n hn => (by cases hn), fun _ hocc => hprefix ?_⟩
    exact List.isPrefixOf_iff_prefix.2 (prefix_of_occursAt hp ht hocc)

/-- The scan from a place on: the induction is on what is left of the text. -/
theorem searchFrom_spec {p : Pattern} (hp : p.Anchored) {t : Token} {ts : List Token}
    (ht : p.tokens = t :: ts) {text : Text} (rest : Text) {i : Nat} (hi : i ≤ text.length)
    (hrest : text.drop i = rest) {found : Option Match}
    (h : p.searchFrom t.literal (text.before i) i rest = .ok found) :
    (∀ m, found = some m → p.Leftmost text i m) ∧
      (found = none → ∀ j, i ≤ j → ¬ p.OccursAt text j) := by
  induction rest generalizing i with
  | nil =>
    rw [searchFrom] at h
    obtain ⟨here, hhere, h⟩ := bind_eq_ok_iff.1 h
    rw [← hrest] at hhere
    obtain ⟨hsome, hnone⟩ := takeFrom?_spec hp ht hi hhere
    have hend : text.length ≤ i := List.drop_eq_nil_iff.1 hrest
    cases here with
    | some n =>
      cases h
      refine ⟨?_, fun h => (by cases h)⟩
      rintro m ⟨⟩
      refine ⟨Nat.le_refl _, hsome n rfl, ?_, fun j hij hji => absurd hji (by simp; omega)⟩
      rw [Text.slice_add, hrest]
    | none =>
      cases h
      refine ⟨fun m hm => (by cases hm), fun _ j hij hocc => ?_⟩
      obtain ⟨stop, hstop⟩ := hocc
      have hj := ((matchAt_eq_some_iff _ _ _ _).1 hstop).1
      have hji : j = i := by omega
      rw [hji] at hstop
      exact hnone rfl ⟨stop, hstop⟩
  | cons c rest ih =>
    rw [searchFrom] at h
    obtain ⟨here, hhere, h⟩ := bind_eq_ok_iff.1 h
    rw [← hrest] at hhere
    obtain ⟨hsome, hnone⟩ := takeFrom?_spec hp ht hi hhere
    cases here with
    | some n =>
      cases h
      refine ⟨?_, fun h => (by cases h)⟩
      rintro m ⟨⟩
      refine ⟨Nat.le_refl _, hsome n rfl, ?_, fun j hij hji => absurd hji (by simp; omega)⟩
      rw [Text.slice_add, hrest]
    | none =>
      have hlt : i < text.length := by
        have hlen := congrArg List.length hrest
        simp at hlen
        omega
      have hc : text.before (i + 1) = some c := by
        have hget := congrArg (·[0]?) hrest
        simpa using hget
      have hdrop : text.drop (i + 1) = rest := by
        rw [← List.drop_drop, hrest, List.drop_one, List.tail_cons]
      have hskip : ∀ j, i ≤ j → j < i + 1 → ¬ p.OccursAt text j := by
        intro j hij hji
        have : j = i := by omega
        rw [this]
        exact hnone rfl
      simp only at h
      rw [← hc] at h
      obtain ⟨hfound, hlost⟩ := ih (by omega) hdrop h
      constructor
      · intro m hm
        obtain ⟨hle, hat, htext, hfirst⟩ := hfound m hm
        refine ⟨by omega, hat, htext, fun j hij hjm => ?_⟩
        rcases Nat.lt_or_ge j (i + 1) with hj | hj
        · exact hskip j hij hj
        · exact hfirst j hj hjm
      · intro hf j hij
        rcases Nat.lt_or_ge j (i + 1) with hj | hj
        · exact hskip j hij hj
        · exact hlost hf j hj

theorem takeFrom?_ok {p : Pattern} (hne : ∀ t ∈ p.tokens, t.literal ≠ []) (first : Text)
    (before : Option Char) (rest : Text) : ∃ here, p.takeFrom? first before rest = .ok here := by
  unfold takeFrom?
  split
  · exact take?_ok hne before rest
  · exact ⟨none, rfl⟩

theorem searchFrom_ok {p : Pattern} (hne : ∀ t ∈ p.tokens, t.literal ≠ []) (first : Text)
    (before : Option Char) (index : Nat) (rest : Text) :
    ∃ found, p.searchFrom first before index rest = .ok found := by
  induction rest generalizing before index with
  | nil =>
    obtain ⟨here, hhere⟩ := takeFrom?_ok hne first before []
    cases here with
    | some n => exact ⟨_, searchFrom_of_some hhere⟩
    | none => exact ⟨_, searchFrom_nil_of_none hhere⟩
  | cons c rest ih =>
    obtain ⟨here, hhere⟩ := takeFrom?_ok hne first before (c :: rest)
    cases here with
    | some n => exact ⟨_, searchFrom_of_some hhere⟩
    | none =>
      rw [searchFrom_cons_of_none hhere]
      exact ih (some c) (index + 1)

/-- A search has an answer, wherever it starts, if the literals of the pattern have characters. -/
theorem search_ok {p : Pattern} (hne : ∀ t ∈ p.tokens, t.literal ≠ []) (text : Text)
    (start : Nat) : ∃ found, p.search text start = .ok found := by
  unfold search
  split
  · exact ⟨_, rfl⟩
  · split
    · exact ⟨_, rfl⟩
    · exact searchFrom_ok hne _ _ _ _

/-- What is read at a place lies in the text. -/
theorem takeFrom?_lies {p : Pattern} {first : Text} {before : Option Char} {text : Text} {i n : Nat}
    (hi : i ≤ text.length) (h : p.takeFrom? first before (text.drop i) = .ok (some n)) :
    (⟨i, i + n, (text.drop i).take n⟩ : Match).Lies text := by
  have hn : n ≤ (text.drop i).length := by
    unfold takeFrom? at h
    split at h
    · exact ((take?_eq_some_iff _ _ _ _).1 h).2.le_length
    · cases h
  rw [List.length_drop] at hn
  exact ⟨Nat.le_add_right i n, by dsimp only; omega, (text.slice_add i n).symm⟩

/-- A scan finds its match at the first place or behind it. -/
theorem searchFrom_eq_some {p : Pattern} {first rest : Text} {before : Option Char} {index : Nat}
    {m : Match} (h : p.searchFrom first before index rest = .ok (some m)) :
    (∃ n, p.takeFrom? first before rest = .ok (some n) ∧ m = ⟨index, index + n, rest.take n⟩) ∨
      ∃ c more, rest = c :: more ∧
        p.searchFrom first (some c) (index + 1) more = .ok (some m) := by
  cases hhere : p.takeFrom? first before rest with
  | error fault =>
    rw [searchFrom_of_error hhere] at h
    cases h
  | ok here =>
    cases here with
    | some n =>
      rw [searchFrom_of_some hhere] at h
      cases h
      exact Or.inl ⟨n, rfl, rfl⟩
    | none =>
      cases rest with
      | nil =>
        rw [searchFrom_nil_of_none hhere] at h
        cases h
      | cons c more =>
        rw [searchFrom_cons_of_none hhere] at h
        exact Or.inr ⟨c, more, rfl, h⟩

theorem searchFrom_lies {p : Pattern} {first text : Text} (rest : Text) {before : Option Char}
    {i : Nat} (hi : i ≤ text.length) (hrest : text.drop i = rest) {m : Match}
    (h : p.searchFrom first before i rest = .ok (some m)) : i ≤ m.index ∧ m.Lies text := by
  induction rest generalizing before i with
  | nil =>
    rcases searchFrom_eq_some h with ⟨n, hhere, rfl⟩ | ⟨c, more, hcons, -⟩
    · rw [← hrest] at hhere ⊢
      exact ⟨Nat.le_refl i, takeFrom?_lies hi hhere⟩
    · cases hcons
  | cons c rest ih =>
    rcases searchFrom_eq_some h with ⟨n, hhere, rfl⟩ | ⟨c, more, hcons, hmore⟩
    · rw [← hrest] at hhere ⊢
      exact ⟨Nat.le_refl i, takeFrom?_lies hi hhere⟩
    · -- The scan goes on with the next character, one place further in the text.
      cases hcons
      have hlt : i < text.length := by
        have hlen := congrArg List.length hrest
        simp only [List.length_drop, List.length_cons] at hlen
        omega
      have hdrop : text.drop (i + 1) = rest := by
        rw [← List.drop_drop, hrest, List.drop_one, List.tail_cons]
      obtain ⟨hle, hlies⟩ := ih hlt hdrop hmore
      exact ⟨by omega, hlies⟩

/-- What a search finds lies in the text from its start on, whatever the pattern is. -/
theorem search_lies {p : Pattern} {text : Text} {start : Nat} {m : Match}
    (h : p.search text start = .ok (some m)) : start ≤ m.index ∧ m.Lies text := by
  unfold search at h
  split at h
  · cases h
  · split at h
    · cases h
    · exact searchFrom_lies _ (by omega) rfl h

/-- A search that finds something finds the leftmost match from its start on. -/
theorem search_eq_some {p : Pattern} (hp : p.Anchored) {text : Text} {start : Nat} {m : Match}
    (h : p.search text start = .ok (some m)) : p.Leftmost text start m := by
  unfold search at h
  split at h
  · cases h
  · rename_i t ts ht
    split at h
    · cases h
    · exact (searchFrom_spec hp ht _ (by omega) rfl h).1 m rfl

/-- A search that finds nothing leaves no match from its start on. -/
theorem search_eq_none {p : Pattern} (hp : p.Anchored) {text : Text} {start : Nat}
    (h : p.search text start = .ok none) (j : Nat) (hj : start ≤ j) : ¬ p.OccursAt text j := by
  unfold search at h
  split at h
  · rename_i ht
    rintro ⟨stop, hstop⟩
    obtain ⟨-, ⟨t, ts, c, cs, htokens, -⟩, -⟩ := (matchAt_eq_some_iff _ _ _ _).1 hstop
    simp [ht] at htokens
  · rename_i t ts ht
    split at h
    · rintro ⟨stop, hstop⟩
      have hle := ((matchAt_eq_some_iff _ _ _ _).1 hstop).1
      omega
    · exact (searchFrom_spec hp ht _ (by omega) rfl h).2 rfl j hj

/-- A scan that finds nothing finds nothing from any later place either. -/
theorem searchFrom_drop_eq_none {p : Pattern} {first rest : Text} {before : Option Char}
    {index : Nat} (h : p.searchFrom first before index rest = .ok none) {n : Nat}
    (hn : n < rest.length) :
    p.searchFrom first rest[n]? (index + n + 1) (rest.drop (n + 1)) = .ok none := by
  induction rest generalizing before index n with
  | nil => cases hn
  | cons c rest ih =>
    have hnext : p.searchFrom first (some c) (index + 1) rest = .ok none := by
      cases hhere : p.takeFrom? first before (c :: rest) with
      | error fault =>
        rw [searchFrom_of_error hhere] at h
        cases h
      | ok here =>
        cases here with
        | some n =>
          rw [searchFrom_of_some hhere] at h
          cases h
        | none => rwa [searchFrom_cons_of_none hhere] at h
    cases n with
    | zero => exact hnext
    | succ n =>
      have hlater := ih hnext (n := n) (by simpa using hn)
      have hplace : index + (n + 1) + 1 = index + 1 + n + 1 := by omega
      rw [List.getElem?_cons_succ, List.drop_succ_cons, hplace]
      exact hlater

theorem search_eq_none_of_le {p : Pattern} {text : Text} {start later : Nat}
    (h : p.search text start = .ok none) (hle : start ≤ later) :
    p.search text later = .ok none := by
  rcases Nat.eq_or_lt_of_le hle with rfl | hlt
  · exact h
  · unfold search at h ⊢
    split at h
    · rfl
    · split
      · rfl
      · rename_i hin
        rw [if_neg (by omega)] at h
        have hlater := searchFrom_drop_eq_none h (n := later - start - 1)
          (by rw [List.length_drop]; omega)
        have hplace : start + (later - start - 1) = later - 1 := by omega
        have hnext : start + (later - start - 1 + 1) = later := by omega
        have hindex : later - 1 + 1 = later := by omega
        rw [List.getElem?_drop, List.drop_drop, hplace, hnext, hindex] at hlater
        rw [if_neg (by omega)]
        exact hlater

end Pattern

end HeaderCatalog
