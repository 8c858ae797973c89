import HeaderCatalog.Location

/-!
# HeaderCatalog.Proofs.Blocks — where blocks end

A block ends just past a closing brace, or at the end of the text if it is never closed
(`blockEnd_eq_length_or_closed`); in either case it ends in the text, behind its beginning.
-/

namespace HeaderCatalog

/-- A depth is brought down to zero by a closing brace of the text. -/
theorem closing?_eq_some {depth : Int} {text : Text} {n : Nat} (h : closing? depth text = some n) :
    0 < n ∧ n ≤ text.length ∧ text[n - 1]? = some Text.closeBrace := by
  induction text generalizing depth n with
  | nil => simp [closing?] at h
  | cons c rest ih =>
    -- Behind any character but the last brace the count goes on with the rest of the text.
    have hgo : ∀ depth', (closing? depth' rest).map (· + 1) = some n →
        0 < n ∧ n ≤ (c :: rest).length ∧ (c :: rest)[n - 1]? = some Text.closeBrace := by
      intro depth' h'
      obtain ⟨k, hk, rfl⟩ := Option.map_eq_some_iff.1 h'
      obtain ⟨hpos, hle, hget⟩ := ih hk
      obtain ⟨j, rfl⟩ := Nat.exists_eq_succ_of_ne_zero (Nat.pos_iff_ne_zero.1 hpos)
      refine ⟨by omega, by simp only [List.length_cons]; omega, ?_⟩
      simpa using hget
    unfold closing? at h
    split at h
    · exact hgo _ h
    · split at h
      · rename_i hclose
        split at h
        · cases h
          simp [hclose]
        · exact hgo _ h
      · exact hgo _ h

/-- A block that starts in the text ends in it. -/
theorem blockEnd_le_length (text : Text) (brace : Nat) : blockEnd text brace ≤ text.length := by
  unfold blockEnd
  split
  · rename_i n hn
    obtain ⟨hpos, hle, -⟩ := closing?_eq_some hn
    simp only [List.length_drop] at hle
    omega
  · exact Nat.le_refl _

theorem lt_blockEnd (text : Text) (brace : Nat) (h : brace < text.length) :
    brace < blockEnd text brace := by
  unfold blockEnd
  split
  · rename_i n hn
    have hpos := (closing?_eq_some hn).1
    omega
  · exact h

/-- A block runs to the end of the text or ends just past a closing brace. -/
theorem blockEnd_eq_length_or_closed (text : Text) (brace : Nat) :
    blockEnd text brace = text.length ∨
      text[blockEnd text brace - 1]? = some Text.closeBrace := by
  unfold blockEnd
  split
  · rename_i n hn
    obtain ⟨hpos, -, hget⟩ := closing?_eq_some hn
    refine Or.inr ?_
    rw [List.getElem?_drop] at hget
    rw [show brace + n - 1 = brace + (n - 1) by omega]
    exact hget
  · exact Or.inl rfl

end HeaderCatalog
