import HeaderCatalog.Proofs.Matching

/-!
# HeaderCatalog.Proofs.Locality — matches in a part of a text

A method is searched for in a part of the text that was cut out. The cut hides what stands in
front of the part and behind it, and three rules of the matcher look there: the word boundary in
front of the first literal, the word boundary behind every literal, and the choice to pass over
an optional token.

`Pattern.matchAt_of_cut`: a match in the part is a match of the same length in the whole text if
no word is cut at the front of the part, and if the part either goes on to the end of the text or
ends in a character that is neither blank nor part of a word.
-/

namespace HeaderCatalog

/-- The last character, if there is one, is neither blank nor part of a word. -/
def Text.Closed (rest : Text) : Prop :=
  ∀ c, rest.getLast? = some c → Text.isBlank c = false ∧ Text.isWord c = false

namespace Text

theorem Closed.drop {rest : Text} (h : rest.Closed) (n : Nat) : Closed (rest.drop n) := by
  intro c hc
  rw [List.getLast?_drop] at hc
  split at hc
  · cases hc
  · exact h c hc

/-- In front of a closed end the blanks stop before the end. -/
theorem Closed.blanks_lt {rest : Text} (h : rest.Closed) (hne : rest ≠ []) :
    rest.blanks < rest.length := by
  rcases Nat.lt_or_ge rest.blanks rest.length with hlt | hge
  · exact hlt
  · have hall : rest.takeWhile isBlank = rest := by
      rw [← rest.take_blanks, List.take_of_length_le hge]
    obtain ⟨c, hc⟩ := Option.isSome_iff_exists.1 (List.getLast?_isSome.2 hne)
    have hblank : isBlank c = true := by
      have hmem := List.mem_of_getLast? hc
      rw [← hall] at hmem
      exact List.all_eq_true.1 List.all_takeWhile c hmem
    have hclosed := (h c hc).1
    simp [hblank] at hclosed

theorem Closed.blanks_append {rest : Text} (h : rest.Closed) (hne : rest ≠ []) (after : Text) :
    blanks (rest ++ after) = rest.blanks := by
  have hlt := h.blanks_lt hne
  have hneq : ¬ (rest.takeWhile isBlank).length = rest.length := by
    unfold blanks at hlt
    omega
  rw [blanks, List.takeWhile_append, if_neg hneq, blanks]

end Text

/-! ## One token at a closed end -/

namespace Token

theorem gapLength_append (t : Token) {rest : Text} (h : rest.Closed) (hne : rest ≠ [])
    (after : Text) : t.gapLength (rest ++ after) = t.gapLength rest := by
  unfold gapLength
  rw [h.blanks_append hne]

theorem gapLength_lt (t : Token) {rest : Text} (h : rest.Closed) (hne : rest ≠ []) :
    t.gapLength rest < rest.length := by
  unfold gapLength
  split
  · exact List.length_pos_iff.2 hne
  · exact h.blanks_lt hne

/-- Nothing stands at the front of the empty text. -/
theorem Stands.ne_nil {t : Token} {rest : Text} {n : Nat} (h : t.Stands rest n) : rest ≠ [] := by
  rintro rfl
  have hpos := h.pos
  have hle := h.le_length
  simp at hle
  omega

/-- A token that stands in front of a closed end still stands there when the text goes on. -/
theorem Stands.append {t : Token} {rest : Text} {n : Nat} (h : t.Stands rest n)
    (hclosed : rest.Closed) (after : Text) : t.Stands (rest ++ after) n := by
  have hgap := t.gapLength_append hclosed h.ne_nil after
  refine ⟨?_, h.nonempty, ?_, ?_, ?_⟩
  · rw [hgap]
    exact h.spaced
  · rw [hgap, List.drop_append_of_le_length (t.gapLength_le rest)]
    exact h.literal.trans (List.prefix_append _ _)
  · rw [hgap]
    exact h.length
  · intro c d hc hcw hd
    rcases Nat.lt_or_ge n rest.length with hlt | hge
    · rw [List.getElem?_append_left hlt] at hd
      exact h.ended c d hc hcw hd
    · -- The literal reaches the end, so its last character is the closed one.
      have hall := h.take_eq
      rw [List.take_of_length_le hge] at hall
      have hlast : rest.getLast? = some c := by
        rw [hall, List.getLast?_append, hc]
        rfl
      have hnot := (hclosed c hlast).2
      simp [hcw] at hnot

/-- A token of one character that stands at the front of a text with a closed part in front
stands in that part already. -/
theorem Stands.of_append {t : Token} {rest after : Text} {n : Nat}
    (h : t.Stands (rest ++ after) n) (hone : t.literal.length = 1) (hclosed : rest.Closed)
    (hne : rest ≠ []) : t.Stands rest n := by
  have hgap := t.gapLength_append hclosed hne after
  have hlt := t.gapLength_lt hclosed hne
  refine ⟨?_, h.nonempty, ?_, ?_, ?_⟩
  · rw [← hgap]
    exact h.spaced
  · have hlit := h.literal
    rw [hgap, List.drop_append_of_le_length (t.gapLength_le rest)] at hlit
    refine List.prefix_of_prefix_length_le hlit (List.prefix_append _ _) ?_
    simp only [List.length_drop]
    omega
  · rw [← hgap]
    exact h.length
  · intro c d hc hcw hd
    refine h.ended c d hc hcw ?_
    rw [List.getElem?_append_left (List.getElem?_eq_some_iff.1 hd).1]
    exact hd

end Token

/-! ## Lists of tokens at a closed end -/

/-- What a list of tokens needs so that a closed end decides its reading: optional tokens are
single characters, and the last token is required. -/
structure Delimited (ts : List Token) : Prop where
  optional : ∀ t ∈ ts, t.optional = true → t.literal.length = 1
  last : ∀ t, ts.getLast? = some t → t.optional = false

theorem Delimited.tail {t : Token} {ts : List Token} (h : Delimited (t :: ts)) : Delimited ts := by
  refine ⟨fun u hu => h.optional u (List.mem_cons_of_mem _ hu), fun u hu => h.last u ?_⟩
  rw [List.getLast?_cons, hu]
  rfl

namespace Reads

/-- At the end of a text only optional tokens are left to read. -/
theorem optional_of_nil {ts : List Token} {n : Nat} (h : Reads ts [] n) :
    ∀ t ∈ ts, t.optional = true := by
  generalize hrest : ([] : Text) = rest at h
  induction h with
  | done rest => simp
  | token hstands _ _ => exact absurd hrest.symm hstands.ne_nil
  | pass hopt _ _ ih =>
    intro u hu
    rcases List.mem_cons.1 hu with rfl | hu
    · exact hopt
    · exact ih hrest u hu

/-- Delimited tokens are read in the same way when a text with a closed end goes on. -/
theorem append_right {ts : List Token} {rest : Text} {n : Nat} (h : Reads ts rest n)
    (hts : Delimited ts) (hclosed : rest.Closed) (after : Text) : Reads ts (rest ++ after) n := by
  induction h with
  | done rest => exact .done _
  | @token t ts rest n k hstands _ ih =>
    refine .token (hstands.append hclosed after) ?_
    rw [List.drop_append_of_le_length hstands.le_length]
    exact ih hts.tail (hclosed.drop n)
  | @pass t ts rest k hopt hnone hmore ih =>
    have hone := hts.optional t List.mem_cons_self hopt
    have hlit : t.literal ≠ [] := List.length_pos_iff.1 (by omega)
    refine .pass hopt ?_ (ih hts.tail hclosed)
    rw [t.take?_eq_none_iff _ hlit] at hnone ⊢
    intro j hj
    by_cases hne : rest = []
    · -- With nothing left to read, the last token would be an optional one.
      subst hne
      have hall : ∀ u ∈ t :: ts, u.optional = true := by
        intro u hu
        rcases List.mem_cons.1 hu with rfl | hu
        · exact hopt
        · exact hmore.optional_of_nil u hu
      obtain ⟨u, hu⟩ := Option.isSome_iff_exists.1
        (List.getLast?_isSome.2 (List.cons_ne_nil t ts))
      have hreq := hts.last u hu
      simp [hall u (List.mem_of_getLast? hu)] at hreq
    · exact hnone j (hj.of_append hone hclosed hne)

end Reads

/-! ## Matches in a part that was cut out -/

theorem Text.before_append_right (front part : Text) (i : Nat) (hi : i ≠ 0) :
    Text.before (front ++ part) (front.length + i) = part.before i := by
  obtain ⟨k, rfl⟩ := Nat.exists_eq_succ_of_ne_zero hi
  rw [Nat.add_succ, Text.before_succ, Nat.succ_eq_add_one, Text.before_succ,
    List.getElem?_append_right (Nat.le_add_right _ _), Nat.add_sub_cancel_left]

theorem Text.before_length_append (front part : Text) :
    Text.before (front ++ part) front.length = front.getLast? := by
  cases front with
  | nil => rfl
  | cons c front =>
    rw [List.length_cons, Text.before_succ, List.getLast?_eq_getElem?,
      List.getElem?_append_left (by simp)]
    simp

/-- A match in a part of a text is a match of the whole text, if the cut in front of the part
goes through no word and the part ends closed or with the text. -/
theorem Pattern.matchAt_of_cut {p : Pattern} (hp : Delimited p.tokens) {front part after : Text}
    {i stop : Nat} (h : p.matchAt part i = .ok (some stop))
    (hfront : front.getLast?.any Text.isWord = false) (hafter : after = [] ∨ part.Closed) :
    p.matchAt (front ++ part ++ after) (front.length + i) = .ok (some (front.length + stop)) := by
  obtain ⟨hi, hbegin, n, hreads, rfl⟩ := (p.matchAt_eq_some_iff _ _ _).1 h
  rw [List.append_assoc]
  refine (p.matchAt_eq_some_iff _ _ _).2 ⟨?_, ?_, n, ?_, by omega⟩
  · simp only [List.length_append]
    omega
  · obtain ⟨t, ts, c, cs, htokens, hlit, hword⟩ := hbegin
    refine ⟨t, ts, c, cs, htokens, hlit, ?_⟩
    by_cases hzero : i = 0
    · rw [hzero, Nat.add_zero, Text.before_length_append, hfront, Bool.and_false]
    · rw [Text.before_append_right _ _ _ hzero]
      have hsame : Text.before (part ++ after) i = part.before i := by
        obtain ⟨k, rfl⟩ := Nat.exists_eq_succ_of_ne_zero hzero
        rw [Nat.succ_eq_add_one, Text.before_succ, Text.before_succ,
          List.getElem?_append_left (by omega)]
      rw [hsame, hword]
  · rw [← List.drop_drop, List.drop_left, List.drop_append_of_le_length hi]
    rcases hafter with rfl | hclosed
    · rwa [List.append_nil]
    · exact hreads.append_right hp (hclosed.drop i) after

end HeaderCatalog
