import HeaderCatalog.Proofs.Matching

/-!
# HeaderCatalog.Proofs.NormalSizes — which texts and patterns have a normal form

A normal form is refused if it would take more bytes than a text may. Its length is counted without
writing it, and `Text.length_normalize` says that the count is right. So `Text.normalForm_eq_ok_iff`
can say when there is a normal form, and which: exactly if the spaces for one tab and the text with
its tabs expanded both fit (`Text.Expands`). A pattern has one exactly if all its literals do
(`Pattern.normalForm_eq_ok_iff`).

Narrower tabs and parts of texts take fewer bytes (`Text.Expands.zero`, `Text.Expands.of_isInfix`).
-/

namespace HeaderCatalog

namespace Text

/-- The bytes that a text takes, with one cell for the mark of its end. -/
def size (text : Text) : Nat :=
  text.cellSize * (text.length + 1)

/-- The text takes no more bytes than a text may. -/
def Fits (text : Text) : Prop := text.size ≤ maxTextSize

instance (text : Text) : Decidable text.Fits :=
  inferInstanceAs (Decidable (text.size ≤ maxTextSize))

/-- The tabs of the text can be written as so many spaces each: these spaces fit, and the text does
with its tabs written so. -/
structure Expands (tabSize : Nat) (text : Text) : Prop where
  spaces : Fits (List.replicate tabSize ' ')
  text : Fits (text.normalize tabSize)

variable {k : Nat}

/-! ## The count -/

theorem normalize_append (k : Nat) (a b : Text) :
    (a ++ b).normalize k = a.normalize k ++ b.normalize k := by
  simp [normalize, List.filter_append, List.flatMap_append]

theorem normalize_cons_return (k : Nat) (text : Text) :
    normalize k ('\r' :: text) = text.normalize k := by
  simp [normalize]

theorem normalize_cons_of_ne {c : Char} (hc : c ≠ '\r') (text : Text) :
    normalize k (c :: text) = expandTab k c ++ text.normalize k := by
  simp [normalize, hc]

theorem length_expandTab {c : Char} (hc : c ≠ '\r') : (expandTab k c).length = normalWidth k c := by
  rw [normalWidth, if_neg hc, expandTab]
  split
  · exact List.length_replicate
  · rfl

/-- One character after another, the widths add up to the length of the normal form. -/
theorem length_normalize (text : Text) : (text.normalize k).length = text.normalLength k := by
  unfold normalLength
  induction text with
  | nil => rfl
  | cons c text ih =>
    rw [List.foldr_cons, ← ih]
    by_cases hc : c = '\r'
    · rw [hc, normalize_cons_return]
      exact (Nat.zero_add _).symm
    · rw [normalize_cons_of_ne hc, List.length_append, length_expandTab hc]

/-- What holds of returns, tabs and spaces holds of a normal form exactly if it holds of the
text. -/
theorem all_normalize {test : Char → Bool} (hreturn : test '\r' = true) (htab : test '\t' = true)
    (hspace : test ' ' = true) (text : Text) : (text.normalize k).all test = text.all test := by
  induction text with
  | nil => rfl
  | cons c text ih =>
    rw [List.all_cons, ← ih]
    by_cases hc : c = '\r'
    · rw [hc, hreturn, normalize_cons_return, Bool.true_and]
    · rw [normalize_cons_of_ne hc, List.all_append, expandTab]
      split
      · rename_i htabs
        rw [htabs.1, htab, List.all_replicate, if_neg (Nat.ne_of_gt htabs.2), hspace]
      · rw [List.all_cons, List.all_nil, Bool.and_true]

/-- Normalizing does not change how wide the cells have to be. -/
theorem cellSize_normalize (text : Text) : (text.normalize k).cellSize = text.cellSize := by
  unfold cellSize
  rw [all_normalize (by decide) (by decide) (by decide),
    all_normalize (by decide) (by decide) (by decide)]

theorem size_spaces (n : Nat) : size (List.replicate n ' ') = n + 1 := by
  have hcell : cellSize (List.replicate n ' ') = 1 := by
    unfold cellSize
    rw [List.all_replicate]
    exact if_pos (by split <;> decide)
  rw [size, hcell, List.length_replicate, Nat.one_mul]

/-! ## Normal forms -/

theorem reserve_eq_ok_iff {cell length : Nat} {tooLong : Fault} :
    reserve cell length tooLong = .ok () ↔ cell * (length + 1) ≤ maxTextSize := by
  have hle : cell * length ≤ cell * (length + 1) := Nat.mul_le_mul_left _ (Nat.le_succ _)
  unfold reserve
  split
  · rename_i hlong
    refine iff_of_false (fun h => by cases h) ?_
    exact Nat.not_le.2 (Nat.lt_of_lt_of_le hlong hle)
  · split
    · rename_i hroom
      exact iff_of_false (fun h => by cases h) (Nat.not_le.2 hroom)
    · rename_i hroom
      exact iff_of_true rfl (Nat.not_lt.1 hroom)

theorem fits_spaces_iff : Fits (List.replicate k ' ') ↔ 1 * (k + 1) ≤ maxTextSize := by
  rw [Fits, size_spaces, Nat.one_mul]

theorem fits_normalize_iff {text : Text} :
    Fits (text.normalize k) ↔ text.cellSize * (text.normalLength k + 1) ≤ maxTextSize := by
  rw [Fits, size, cellSize_normalize, length_normalize]

theorem normalForm_eq_ok_iff {text normal : Text} :
    text.normalForm k = .ok normal ↔ text.Expands k ∧ normal = text.normalize k := by
  unfold normalForm
  rw [bind_eq_ok_iff]
  constructor
  · rintro ⟨⟨⟩, hspaces, h⟩
    obtain ⟨⟨⟩, htext, h⟩ := bind_eq_ok_iff.1 h
    cases h
    refine ⟨?_, rfl⟩
    constructor
    · exact fits_spaces_iff.2 (reserve_eq_ok_iff.1 hspaces)
    · exact fits_normalize_iff.2 (reserve_eq_ok_iff.1 htext)
  · rintro ⟨hexpands, rfl⟩
    exact ⟨(), reserve_eq_ok_iff.2 (fits_spaces_iff.1 hexpands.spaces),
      bind_eq_ok_iff.2 ⟨(), reserve_eq_ok_iff.2 (fits_normalize_iff.1 hexpands.text), rfl⟩⟩

theorem Expands.normalForm {text : Text} (h : text.Expands k) :
    text.normalForm k = .ok (text.normalize k) :=
  normalForm_eq_ok_iff.2 ⟨h, rfl⟩

theorem expands_iff {text : Text} : text.Expands k ↔ 1 * (k + 1) ≤ maxTextSize ∧
    text.cellSize * (text.normalLength k + 1) ≤ maxTextSize := by
  rw [← fits_spaces_iff, ← fits_normalize_iff]
  exact ⟨fun h => ⟨h.spaces, h.text⟩, fun h => ⟨h.1, h.2⟩⟩

instance (tabSize : Nat) (text : Text) : Decidable (text.Expands tabSize) :=
  decidable_of_iff _ expands_iff.symm

/-! ## Smaller texts -/

/-- A text fits if a longer one does whose characters are as wide. -/
theorem Fits.of_le {text text' : Text} (h : text'.Fits) (hcell : text.cellSize ≤ text'.cellSize)
    (hlength : text.length ≤ text'.length) : text.Fits :=
  Nat.le_trans (Nat.mul_le_mul hcell (Nat.succ_le_succ hlength)) h

theorem normalWidth_zero_le (c : Char) : normalWidth 0 c ≤ normalWidth k c := by
  unfold normalWidth
  split
  · exact Nat.le_refl _
  · split <;> split <;> omega

theorem normalLength_zero_le (text : Text) : text.normalLength 0 ≤ text.normalLength k := by
  unfold normalLength
  induction text with
  | nil => exact Nat.le_refl _
  | cons c text ih => exact Nat.add_le_add (normalWidth_zero_le c) ih

/-- Tabs that are left alone take the least room. -/
theorem Expands.zero {text : Text} (h : text.Expands k) : text.Expands 0 := by
  constructor
  · decide
  · apply h.text.of_le
    · exact Nat.le_of_eq (by rw [cellSize_normalize, cellSize_normalize])
    · rw [length_normalize, length_normalize]
      exact normalLength_zero_le text

theorem cellSize_le_of_subset {part text : Text} (h : part ⊆ text) :
    part.cellSize ≤ text.cellSize := by
  have hall : ∀ test : Char → Bool, text.all test = true → part.all test = true := by
    intro test htest
    rw [List.all_eq_true] at htest ⊢
    intro c hc
    exact htest c (h hc)
  unfold cellSize
  split
  · split
    · exact Nat.le_refl _
    · split <;> decide
  · rename_i hnarrow
    rw [if_neg fun h => hnarrow (hall _ h)]
    split
    · split <;> decide
    · rename_i hwide
      exact Nat.le_of_eq (if_neg fun h => hwide (hall _ h)).symm

/-- A part of a text takes no more room than the text. -/
theorem Expands.of_isInfix {part text : Text} (h : text.Expands k) (hpart : part <:+: text) :
    part.Expands k := by
  constructor
  · exact h.spaces
  · apply h.text.of_le
    · rw [cellSize_normalize, cellSize_normalize]
      exact cellSize_le_of_subset hpart.subset
    · obtain ⟨front, back, rfl⟩ := hpart
      rw [normalize_append, normalize_append, List.length_append, List.length_append]
      omega

theorem Expands.take {text : Text} (h : text.Expands k) (n : Nat) :
    Text.Expands k (text.take n) :=
  h.of_isInfix ( List.take_prefix n text).isInfix

end Text

/-! ## Patterns -/

/-- All literals of the pattern can be put into normal form. -/
def Pattern.Expands (tabSize : Nat) (p : Pattern) : Prop :=
  ∀ t ∈ p.tokens, t.literal.Expands tabSize

instance (tabSize : Nat) (p : Pattern) : Decidable (p.Expands tabSize) :=
  inferInstanceAs (Decidable (∀ t ∈ p.tokens, t.literal.Expands tabSize))

/-- Normalizing the literals of tokens in turn. -/
theorem mapM_normalForm_eq_ok_iff {tabSize : Nat} {ts us : List Token} :
    (ts.mapM fun t => do
      return ({ t with literal := ← t.literal.normalForm tabSize } : Token)) = Except.ok us ↔
      (∀ t ∈ ts, t.literal.Expands tabSize) ∧
        us = ts.map fun t => { t with literal := t.literal.normalize tabSize } := by
  induction ts generalizing us with
  | nil =>
    rw [List.mapM_nil]
    constructor
    · rintro ⟨⟩
      exact ⟨fun t ht => (by cases ht), rfl⟩
    · rintro ⟨-, rfl⟩
      rfl
  | cons t ts ih =>
    rw [List.mapM_cons, bind_eq_ok_iff]
    constructor
    · rintro ⟨u, hu, h⟩
      obtain ⟨literal, hliteral, hu⟩ := bind_eq_ok_iff.1 hu
      obtain ⟨hexpands, rfl⟩ := Text.normalForm_eq_ok_iff.1 hliteral
      obtain ⟨rest, hrest, h⟩ := bind_eq_ok_iff.1 h
      obtain ⟨hall, rfl⟩ := ih.1 hrest
      cases hu
      cases h
      exact ⟨List.forall_mem_cons.2 ⟨hexpands, hall⟩, rfl⟩
    · rintro ⟨hall, rfl⟩
      obtain ⟨hexpands, hrest⟩ := List.forall_mem_cons.1 hall
      exact ⟨_, bind_eq_ok_iff.2 ⟨_, hexpands.normalForm, rfl⟩,
        bind_eq_ok_iff.2 ⟨_, ih.2 ⟨hrest, rfl⟩, rfl⟩⟩

theorem Pattern.normalForm_eq_ok_iff {tabSize : Nat} {p q : Pattern} :
    p.normalForm tabSize = .ok q ↔ p.Expands tabSize ∧ q = p.normalized tabSize := by
  unfold normalForm
  rw [bind_eq_ok_iff]
  constructor
  · rintro ⟨us, hus, h⟩
    obtain ⟨hexpands, rfl⟩ := mapM_normalForm_eq_ok_iff.1 hus
    cases h
    exact ⟨hexpands, rfl⟩
  · rintro ⟨hexpands, rfl⟩
    exact ⟨_, mapM_normalForm_eq_ok_iff.2 ⟨hexpands, rfl⟩, rfl⟩

theorem Pattern.Expands.normalForm {tabSize : Nat} {p : Pattern} (h : p.Expands tabSize) :
    p.normalForm tabSize = .ok (p.normalized tabSize) :=
  Pattern.normalForm_eq_ok_iff.2 ⟨h, rfl⟩

end HeaderCatalog
