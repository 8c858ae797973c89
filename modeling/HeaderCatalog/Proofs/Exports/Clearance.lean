import HeaderCatalog.Proofs.Exports.Catalogues

/-!
# HeaderCatalog.Proofs.Exports.Clearance — when places stay, read off the text

Whether the places of the remaining headers stay without the flagged ones is a matter of the cursor
(`Run.ChosenAlone`). Where the run with all of them goes forward through the text, the text itself
decides it. The cursor of the run without the flagged ones is never ahead of the other: it resumes
behind the last remaining body instead of the last body. So the two choose different places only if
the header occurs in between.

* `Cursor.Chooses.iff_clear` compares two cursors over one text.
* `ChosenFrom.remaining_iff_clear`: so for a list of headers, one after another.
* `ExportsOff.same_iff_clear`: in a catalogue that comes in order, what remains of it is the
  catalogue without exports exactly if no remaining header occurs between the end of the last
  remaining body and that of the last body in front of it.
-/

namespace HeaderCatalog

/-- Two cursors over one text, both of them in front of what the first one chooses. The second one
chooses it too exactly if there is no occurrence from where it resumes to where the first one
does. -/
theorem Cursor.Chooses.iff_clear {c c' : Cursor} {p : Pattern} {m : Match}
    (htext : c'.text = c.text) (h : c.Chooses p m) (hle : c.afterBody ≤ m.index)
    (hle' : c'.afterBody ≤ m.index) :
    c'.Chooses p m ↔ ∀ j, c'.afterBody ≤ j → j < c.afterBody → ¬ p.OccursAt c.text j := by
  have hocc : p.OccursAt c.text m.index := ⟨m.stop, h.matches_at⟩
  constructor
  · intro h' j hj hlt
    cases h' with
    | afterBody h' =>
      rw [← htext]
      exact h'.first j hj (Nat.lt_of_lt_of_le hlt hle)
    | afterHeader hnone _ => exact absurd (htext ▸ hocc) (hnone _ hle')
    | start hnone _ _ => exact absurd (htext ▸ hocc) (hnone _ hle')
  · intro hclear
    cases h with
    | afterHeader hnone _ => exact absurd hocc (hnone _ hle)
    | start hnone _ _ => exact absurd hocc (hnone _ hle)
    | afterBody h =>
      apply Chooses.afterBody
      rw [htext]
      refine ⟨hle', h.matches_at, h.text_eq, ?_⟩
      intro j hj hlt
      rcases Nat.lt_or_ge j c.afterBody with hbetween | hbehind
      · exact hclear j hj hbetween
      · exact h.first j hbehind hlt

/-! ## Headers with flags -/

/-- Where the body of the last of the headers ends; without any, the start of the text. -/
def bodiesEnd (text : Text) (xs : List Located) : Nat :=
  (xs.getLast?.map fun x => Cursor.bodyEnd text (x.2.place text.lines)).getD 0

@[simp] theorem bodiesEnd_concat (text : Text) (xs : List Located) (x : Located) :
    bodiesEnd text (xs ++ [x]) = Cursor.bodyEnd text (x.2.place text.lines) := by
  rw [bodiesEnd, List.getLast?_concat]
  rfl

/-- What comes in order begins behind the bodies of all headers in front of it. -/
theorem bodiesEnd_le {text : Text} {xs : List Located} {x : Located}
    (h : ∀ y ∈ xs, Descriptor.Before text y.2 x.2) : bodiesEnd text xs ≤ x.2.offset text.lines := by
  unfold bodiesEnd
  cases hlast : xs.getLast? with
  | none => exact Nat.zero_le _
  | some y => exact (h y (List.mem_of_getLast? hlast)).bodyEnd_le

/-- No remaining header of `xs` occurs between the end of the last remaining body and that of the
last body in front of it, where the headers `before` come in front of all. -/
def Clear (tabSize : Nat) (text : Text) (before xs : List (Located × Bool)) : Prop :=
  ∀ front x back, xs = front ++ (x, false) :: back → ∀ p, x.1.pattern tabSize = .ok (.ok p) →
    ∀ j, bodiesEnd text (remaining (before ++ front)) ≤ j →
      j < bodiesEnd text ((before ++ front).map (·.1)) → ¬ p.OccursAt text j

section Clear

variable {tabSize : Nat} {text : Text} {before xs : List (Located × Bool)} {x : Located}

theorem Clear.tail {xf : Located × Bool} (h : Clear tabSize text before (xf :: xs)) :
    Clear tabSize text (before ++ [xf]) xs := by
  intro front y back hxs
  have hy := h (xf :: front) y back (by rw [hxs, List.cons_append])
  rwa [List.append_cons] at hy

theorem clear_cons_true :
    Clear tabSize text before ((x, true) :: xs) ↔
      Clear tabSize text (before ++ [(x, true)]) xs := by
  constructor
  · exact Clear.tail
  · rintro h (_ | ⟨z, front⟩) y back hxs
    · cases hxs
    · cases hxs
      rw [List.append_cons]
      exact h front y back rfl

theorem clear_cons_false :
    Clear tabSize text before ((x, false) :: xs) ↔
      (∀ p, x.1.pattern tabSize = .ok (.ok p) → ∀ j, bodiesEnd text (remaining before) ≤ j →
        j < bodiesEnd text (before.map (·.1)) → ¬ p.OccursAt text j) ∧
      Clear tabSize text (before ++ [(x, false)]) xs := by
  constructor
  · intro h
    constructor
    · have hx := h [] x xs rfl
      rwa [List.append_nil] at hx
    · exact h.tail
  · rintro ⟨hx, h⟩ (_ | ⟨z, front⟩) y back hxs
    · cases hxs
      rwa [List.append_nil]
    · cases hxs
      rw [List.append_cons]
      exact h front y back rfl

/-- The headers `before` are behind the two cursors `c` and `c'`, the flagged ones behind `c` only.
What `c` chooses one after another is, without the flagged ones, chosen from `c'` on exactly if the
text is clear. -/
theorem ChosenFrom.remaining_iff_clear {c c' : Cursor} (hc : c.text = text) (hc' : c'.text = text)
    (hbody : c.afterBody = bodiesEnd text (before.map (·.1)))
    (hbody' : c'.afterBody = bodiesEnd text (remaining before))
    (hbefore : ((before ++ xs).map (·.1.2)).Pairwise (Descriptor.Before text))
    (h : ChosenFrom tabSize text c (xs.map (·.1))) :
    ChosenFrom tabSize text c' (remaining xs) ↔ Clear tabSize text before xs := by
  induction xs generalizing before c c' with
  | nil =>
    refine iff_of_true trivial ?_
    rintro front y back hxs
    cases front <;> cases hxs
  | cons xf xs ih =>
    obtain ⟨x, flag⟩ := xf
    obtain ⟨⟨p, hp, hstands, hchooses⟩, hrest⟩ := h
    have hadvance : (c.advance (x.2.place text.lines)).afterBody =
        bodiesEnd text ((before ++ [(x, flag)]).map (·.1)) := by
      rw [List.map_append, List.map_singleton, bodiesEnd_concat, Cursor.advance, hc]
    have htext : (c.advance (x.2.place text.lines)).text = text := hc
    rw [List.append_cons] at hbefore
    cases flag with
    | true =>
      -- The second cursor does not move.
      rw [remaining_cons_true, clear_cons_true]
      refine ih htext hc' hadvance ?_ hbefore hrest
      rw [remaining_append, remaining_cons_true, remaining_nil, List.append_nil]
      exact hbody'
    | false =>
      have hadvance' : (c'.advance (x.2.place text.lines)).afterBody =
          bodiesEnd text (remaining (before ++ [(x, false)])) := by
        rw [remaining_append, remaining_cons_false, remaining_nil, bodiesEnd_concat,
          Cursor.advance, hc']
      have hall : ∀ y ∈ before.map (·.1), Descriptor.Before text y.2 x.2 := by
        rw [List.map_append, List.map_append, List.append_assoc, List.pairwise_append] at hbefore
        intro y hy
        obtain ⟨yf, hyf, rfl⟩ := List.mem_map.1 hy
        exact hbefore.2.2 _ (List.mem_map_of_mem hyf) _ (List.mem_append_left _ List.mem_cons_self)
      have hkept : ∀ y ∈ remaining before, Descriptor.Before text y.2 x.2 := by
        intro y hy
        exact hall y (List.mem_map_of_mem (f := (·.1)) (mem_remaining.1 hy))
      have hiff := hchooses.iff_clear (hc'.trans hc.symm)
        (hbody ▸ bodiesEnd_le hall) (hbody' ▸ bodiesEnd_le hkept)
      rw [hbody, hbody', hc] at hiff
      rw [remaining_cons_false, clear_cons_false]
      have htext' : (c'.advance (x.2.place text.lines)).text = text := hc'
      refine and_congr ?_ (ih htext htext' hadvance hadvance' hbefore hrest)
      constructor
      · rintro ⟨q, hq, -, hq'⟩ q' hq''
        rw [hp] at hq hq''
        cases hq
        cases hq''
        exact hiff.1 hq'
      · intro hclear
        exact ⟨p, hp, hstands, hiff.2 (hclear p hp)⟩

end Clear

/-! ## Runs -/

namespace Run

variable {tabSize : Nat} {text : Text} {flagged : List (Entity × Bool)} {vs : List Visit}

/-- The located classes, functions and variables of a run with the flags of their entities. -/
def flaggedLocated (flagged : List (Entity × Bool)) (vs : List Visit) : List (Located × Bool) :=
  (vs.zip (flagged.map (·.2))).filterMap fun (v, flag) =>
    if v.entity.kind = .method then none else v.outcome.map fun d => ((v.entity, d), flag)

theorem map_flaggedLocated (h : vs.length = flagged.length) :
    (flaggedLocated flagged vs).map (·.1) = topLevelLocated vs := by
  unfold flaggedLocated topLevelLocated
  induction vs generalizing flagged with
  | nil => rfl
  | cons v vs ih =>
    cases flagged with
    | nil => cases h
    | cons ef flagged =>
      have hrest := ih (Nat.succ.inj h)
      rw [List.map_cons, List.zip_cons_cons, List.filterMap_cons, List.filterMap_cons, ← hrest]
      by_cases hkind : v.entity.kind = .method
      · simp only [if_pos hkind]
      · cases hd : v.outcome with
        | none => simp only [if_neg hkind, hd, Option.map_none]
        | some d => simp only [if_neg hkind, hd, Option.map_some, List.map_cons]

theorem remaining_flaggedLocated (flagged : List (Entity × Bool)) (vs : List Visit) :
    remaining (flaggedLocated flagged vs) = topLevelLocated (remainingVisits flagged vs) := by
  unfold flaggedLocated topLevelLocated remainingVisits
  induction vs.zip (flagged.map (·.2)) with
  | nil => rfl
  | cons vf rest ih =>
    obtain ⟨v, flag⟩ := vf
    rw [List.filterMap_cons]
    by_cases hkind : v.entity.kind = .method
    · cases flag with
      | true => simpa only [if_pos hkind, remaining_cons_true] using ih
      | false => simpa only [if_pos hkind, remaining_cons_false, List.filterMap_cons] using ih
    · cases hd : v.outcome with
      | none => cases flag <;> simpa [hkind, hd] using ih
      | some d => cases flag <;> simpa [hkind, hd] using ih

/-- If each located header occurs behind the body of the one before it, the remaining ones are
chosen without the flagged ones too exactly if the text is clear. -/
theorem chosenAlone_iff_clear (hvs : visits tabSize (.start text) (flagged.map (·.1)) = .ok vs)
    (hchain : (topLevelLocated vs).IsChain (Located.Follows tabSize text)) :
    ChosenAlone tabSize text flagged vs ↔
      Clear tabSize text [] (flaggedLocated flagged vs) := by
  have hlength : vs.length = flagged.length := by
    have hentities := congrArg List.length (entities_of_visits hvs)
    rwa [List.length_map, List.length_map] at hentities
  have hmap := map_flaggedLocated hlength
  have hchosen := chosenFrom_of_visits (sound_start text) hvs
  have hbefore : ((flaggedLocated flagged vs).map (·.1.2)).Pairwise (Descriptor.Before text) := by
    have htext : (Run.start text).topLevel.text = text := rfl
    have hordered := List.isChain_iff_pairwise.1 ((hchosen.isChain_iff htext).1 hchain)
    rwa [← hmap, List.map_map] at hordered
  rw [← hmap] at hchosen
  rw [ChosenAlone, ← remaining_flaggedLocated]
  exact hchosen.remaining_iff_clear rfl rfl rfl rfl hbefore

end Run

/-- In a catalogue whose classes, functions and variables come in order, and where no remaining
method has the class of an exported entity, the remaining descriptors are the catalogue without
exports exactly if no remaining header occurs between the end of the last remaining body and that of
the last body in front of it. -/
theorem ExportsOff.same_iff_clear {root : Node} {source : Text} {tabSize : Nat}
    {ds : List Descriptor} {flagged : List (Entity × Bool)} {vs : List Visit}
    (h : ExportsOff root source tabSize ds flagged vs)
    (hchain : (Run.topLevelLocated vs).IsChain
      (Located.Follows tabSize (source.normalize tabSize)))
    (hmethods : ∀ e ∈ remaining flagged, e.kind = .method → ¬ ExportsClass flagged e.enclosing) :
    Clear tabSize (source.normalize tabSize) [] (Run.flaggedLocated flagged vs) ↔
      ∃ rest, remainingCatalog root source tabSize = .ok rest ∧
        ∃ events', scanTree root source ⟨tabSize, false⟩ = .ok (rest, events') := by
  rw [← Run.chosenAlone_iff_clear h.visited hchain]
  exact h.same_iff hmethods

end HeaderCatalog
