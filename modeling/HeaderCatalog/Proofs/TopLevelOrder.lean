import HeaderCatalog.Proofs.Presence

/-!
# HeaderCatalog.Proofs.TopLevelOrder — when headers come in source order

Classes, functions and variables share one cursor. Each is searched for behind the body of the
one located before it, and only if it does not occur there behind the header of that one or from
the start of the text (`ChosenFrom`). So the located headers need not come in source order:
`namesakes_out_of_order` is a tree of a source whose two functions are located at one place, as
the comment in the header of the second keeps its pattern from matching there.

`catalogTree_ordered_iff`: the headers come in order, none inside another, exactly if each one
occurs behind the body of the one located before it.
-/

namespace HeaderCatalog

/-- A located class, function or variable with its entity. -/
abbrev Located := Entity × Descriptor

/-- The located classes, functions and variables of a run, in order. -/
def Run.topLevelLocated (vs : List Visit) : List Located :=
  vs.filterMap fun v => if v.entity.kind = .method then none else v.outcome.map (v.entity, ·)

/-- The header of `d` and its body end before the header of `d'` starts. -/
structure Descriptor.Before (text : Text) (d d' : Descriptor) : Prop where
  offset_lt : d.offset text.lines < Cursor.bodyEnd text (d.place text.lines)
  bodyEnd_le : Cursor.bodyEnd text (d.place text.lines) ≤ d'.offset text.lines

/-- The pattern of `y` occurs behind the body of `x`. -/
def Located.Follows (tabSize : Nat) (text : Text) (x y : Located) : Prop :=
  ∃ p, y.1.pattern tabSize = .ok (.ok p) ∧
    ∃ i, Cursor.bodyEnd text (x.2.place text.lines) ≤ i ∧ p.OccursAt text i

/-- Each header is the occurrence that the cursor chooses which the headers before it leave
behind. -/
def ChosenFrom (tabSize : Nat) (text : Text) : Cursor → List Located → Prop
  | _, [] => True
  | c, x :: rest =>
    (∃ p, x.1.pattern tabSize = .ok (.ok p) ∧ x.2.Stands p text ∧
      c.Chooses p (x.2.place text.lines)) ∧
    ChosenFrom tabSize text (c.advance (x.2.place text.lines)) rest

/-! ## Bodies -/

/-- A body ends behind its header. -/
theorem Cursor.stop_le_bodyEnd (text : Text) (m : Match) (hpos : 0 < m.stop)
    (hstop : m.stop ≤ text.length) : m.stop ≤ bodyEnd text m := by
  unfold bodyEnd
  split
  · have hlt := lt_blockEnd text (m.stop - 1) (by omega)
    omega
  · dsimp only
    split
    · rename_i hbrace
      have hlt := lt_blockEnd text _ (List.getElem?_eq_some_iff.1 hbrace).1
      omega
    · exact Nat.le_refl _

theorem Descriptor.Stands.offset_lt_bodyEnd {d : Descriptor} {p : Pattern} {text : Text}
    (h : d.Stands p text) (hp : p.Anchored) :
    d.offset text.lines < Cursor.bodyEnd text (d.place text.lines) := by
  have hlt := Pattern.lt_of_matchAt hp h.matches_at
  have hle := (Pattern.le_of_matchAt h.matches_at).2
  have hstop := Cursor.stop_le_bodyEnd text (d.place text.lines) (Nat.zero_lt_of_lt hlt) hle
  exact Nat.lt_of_lt_of_le hlt hstop

instance (text : Text) : Trans (Descriptor.Before text) (Descriptor.Before text)
    (Descriptor.Before text) where
  trans h h' := ⟨h.offset_lt, Nat.le_trans h.bodyEnd_le
    (Nat.le_trans (Nat.le_of_lt h'.offset_lt) h'.bodyEnd_le)⟩

/-! ## The run -/

/-- Only a located class, function or variable moves the cursor over the whole text. -/
theorem Run.topLevel_of_step {tabSize : Nat} {r r' : Run} {e : Entity}
    {outcome : Option Descriptor} {text : Text} (hs : r.Sound text)
    (h : Step tabSize r e outcome r') (hkeep : e.kind = .method ∨ outcome = none) :
    r'.topLevel = r.topLevel := by
  cases h with
  | unmodelled _ => rfl
  | missing _ hp hresolve =>
    rw [hs.lines] at hresolve
    exact ((Cursor.resolve_spec hs.topLevel_within (Entity.pattern_anchored hp) hresolve).2 rfl).1
  | located hkind =>
    rcases hkeep with hmethod | hnone
    · exact absurd hmethod hkind
    · cases hnone
  | classless _ _ _ => rfl
  | absent _ _ _ _ => rfl
  | inside _ _ _ _ _ _ => rfl

/-- The located classes, functions and variables of a run are chosen one after another. -/
theorem Run.chosenFrom_of_visits {tabSize : Nat} {text : Text} {r : Run} {entities : List Entity}
    {vs : List Visit} (hs : r.Sound text) (h : visits tabSize r entities = .ok vs) :
    ChosenFrom tabSize text r.topLevel (topLevelLocated vs) := by
  induction entities generalizing r vs with
  | nil =>
    cases h
    trivial
  | cons e rest ih =>
    obtain ⟨outcome, r', more, hone, hmore, rfl⟩ := visits_cons_eq_ok h
    have hstep := step_eq_ok hone
    have hrest := ih (hs.step hstep) hmore
    -- Methods and what is not located leave the cursor where it is.
    by_cases hkind : e.kind = .method
    · rw [topLevel_of_step hs hstep (Or.inl hkind)] at hrest
      simpa [topLevelLocated, hkind] using hrest
    · cases outcome with
      | none =>
        rw [topLevel_of_step hs hstep (Or.inr rfl)] at hrest
        simpa [topLevelLocated, hkind] using hrest
      | some d =>
        obtain ⟨p, hp, hstands, hchosen, hadvance, -⟩ := located_spec hs hkind hstep
        rw [hadvance] at hrest
        simp only [topLevelLocated, List.filterMap_cons, hkind, if_false, Option.map_some]
        exact ⟨⟨p, hp, hstands, hchosen⟩, hrest⟩

theorem ChosenFrom.stands {tabSize : Nat} {text : Text} {c : Cursor} {xs : List Located}
    (h : ChosenFrom tabSize text c xs) (x : Located) (hx : x ∈ xs) :
    ∃ p, x.1.pattern tabSize = .ok (.ok p) ∧ x.2.Stands p text := by
  induction xs generalizing c with
  | nil => cases hx
  | cons y rest ih =>
    obtain ⟨⟨p, hp, hstands, -⟩, hrest⟩ := h
    rcases List.mem_cons.1 hx with rfl | hx
    · exact ⟨p, hp, hstands⟩
    · exact ih hrest hx

/-- A segment of chosen headers is chosen from the cursor that the headers before it leave. -/
theorem ChosenFrom.segment {tabSize : Nat} {text : Text} {c : Cursor} {front xs back : List Located}
    (h : ChosenFrom tabSize text c (front ++ xs ++ back)) :
    ∃ c' : Cursor, c'.text = c.text ∧ ChosenFrom tabSize text c' xs := by
  induction front generalizing c with
  | cons x front ih =>
    obtain ⟨c', htext, hchosen⟩ := ih h.2
    exact ⟨c', htext, hchosen⟩
  | nil =>
    refine ⟨c, rfl, ?_⟩
    rw [List.nil_append] at h
    induction xs generalizing c with
    | nil => trivial
    | cons x xs ih => exact ⟨h.1, ih h.2⟩

/-- Of two headers located one after the other, the second begins behind the body of the first
exactly if it occurs there at all. -/
theorem ChosenFrom.isChain_iff {tabSize : Nat} {text : Text} {c : Cursor} {xs : List Located}
    (hc : c.text = text) (h : ChosenFrom tabSize text c xs) :
    xs.IsChain (Located.Follows tabSize text) ↔
      (xs.map (·.2)).IsChain (Descriptor.Before text) := by
  induction xs generalizing c with
  | nil => simp
  | cons x rest ih =>
    cases rest with
    | nil => simp
    | cons y rest =>
      obtain ⟨⟨p, hp, hstands, -⟩, hrest⟩ := h
      have hnext := ih (c := c.advance (x.2.place text.lines)) hc hrest
      obtain ⟨⟨q, hq, -, hchosen⟩, -⟩ := hrest
      -- The cursor that chooses `y` resumes behind the body of `x`.
      have hiff := hchosen.afterBody_le_iff
      simp only [Cursor.advance, hc] at hiff
      have hpair : Located.Follows tabSize text x y ↔ Descriptor.Before text x.2 y.2 := by
        constructor
        · rintro ⟨q', hq', hocc⟩
          rw [hq] at hq'
          cases hq'
          exact ⟨hstands.offset_lt_bodyEnd (Entity.pattern_anchored hp), hiff.2 hocc⟩
        · intro hbefore
          exact ⟨q, hq, hiff.1 hbefore.bodyEnd_le⟩
      rw [List.map_cons] at hnext
      rw [List.map_cons, List.map_cons, List.isChain_cons_cons, List.isChain_cons_cons, hpair,
        hnext]

/-- What comes in order stands at increasing locations. -/
theorem ChosenFrom.location_lt {tabSize : Nat} {text : Text} {c : Cursor} {xs : List Located}
    (h : ChosenFrom tabSize text c xs)
    (hbefore : (xs.map (·.2)).Pairwise (Descriptor.Before text)) :
    (xs.map (·.2)).Pairwise fun d d' =>
      d.line < d'.line ∨ d.line = d'.line ∧ d.indent < d'.indent := by
  refine hbefore.imp_of_mem fun {d d'} hd hd' hlt => ?_
  obtain ⟨x, hx, rfl⟩ := List.mem_map.1 hd
  obtain ⟨y, hy, rfl⟩ := List.mem_map.1 hd'
  obtain ⟨_, _, hstands⟩ := h.stands x hx
  obtain ⟨_, _, hstands'⟩ := h.stands y hy
  exact hstands.valid.lt_of_offset_lt hstands'.valid
    (Nat.lt_of_lt_of_le hlt.offset_lt hlt.bodyEnd_le)

/-- The located classes, functions and variables are the descriptors that are not of methods. -/
theorem Run.map_topLevelLocated {vs : List Visit}
    (h : ∀ v ∈ vs, ∀ d, v.outcome = some d → d.Describes v.entity) :
    (topLevelLocated vs).map (·.2) = (vs.filterMap (·.outcome)).filter (·.kind ≠ .method) := by
  induction vs with
  | nil => rfl
  | cons v vs ih =>
    have hrest := ih fun w hw => h w (List.mem_cons_of_mem _ hw)
    unfold topLevelLocated at hrest ⊢
    cases hd : v.outcome with
    | none => simpa [hd] using hrest
    | some d =>
      have hkind := (h v List.mem_cons_self d hd).kind
      by_cases hmethod : v.entity.kind = .method
      · simpa [hd, hkind, hmethod] using hrest
      · simpa [hd, hkind, hmethod] using hrest

/-! ## The catalogue of a tree -/

/-- In which order the visits of a run locate classes, functions and variables. -/
structure Run.OrderedBySegments (tabSize : Nat) (text : Text) (vs : List Visit)
    (ds : List Descriptor) : Prop where
  listed : (topLevelLocated vs).map (·.2) = ds.filter (·.kind ≠ .method)
  chosen : ChosenFrom tabSize text (.ofText text 0) (topLevelLocated vs)
  /-- A segment of them comes in order, none inside another, exactly if each one occurs behind the
  body of the one before it. -/
  isChain_iff : ∀ xs, xs <:+: topLevelLocated vs →
    (xs.IsChain (Located.Follows tabSize text) ↔
      (xs.map (·.2)).Pairwise (Descriptor.Before text))
  /-- Their locations then increase. -/
  increasing : ∀ xs, xs <:+: topLevelLocated vs → (xs.map (·.2)).Pairwise (Descriptor.Before text) →
    (xs.map (·.2)).Pairwise fun d d' => d.line < d'.line ∨ d.line = d'.line ∧ d.indent < d'.indent

/-- In the catalogue of every tree, the classes, functions and variables are chosen one after
another. A segment of them comes in order, none inside another, exactly if each one occurs behind
the body of the one before it; their locations then increase. -/
theorem catalogTree_ordered_iff (root : Node) (source : Text) (settings : Settings)
    (ds : List Descriptor) (events : List Event)
    (h : catalogTree root source settings = .ok (ds, events)) :
    ∃ entities vs, CatalogRun root source settings ds entities vs ∧
      Run.OrderedBySegments settings.tabSize (source.normalize settings.tabSize) vs ds := by
  obtain ⟨entities, vs, hrun⟩ := catalogRun_of_catalogTree h
  have hchosen := Run.chosenFrom_of_visits (Run.sound_start _) hrun.visited
  have hlisted :=
    Run.map_topLevelLocated fun v hv => (Run.accounted_of_mem_visits hrun.visited v hv).describes
  rw [hrun.outcomes] at hlisted
  refine ⟨entities, vs, hrun, hlisted, hchosen, ?_, ?_⟩
  · rintro xs ⟨front, back, hxs⟩
    rw [← hxs] at hchosen
    obtain ⟨c, htext, hsegment⟩ := hchosen.segment
    rw [← List.isChain_iff_pairwise]
    exact hsegment.isChain_iff htext
  · rintro xs ⟨front, back, hxs⟩
    rw [← hxs] at hchosen
    obtain ⟨c, -, hsegment⟩ := hchosen.segment
    exact hsegment.location_lt

/-- A function `a` without parameters in the first line. -/
def functionAt (indent : Int) : Descriptor :=
  ⟨.function, 1, indent, "function a() \x7b".toList, none, some [], none, ['a']⟩

/-- The second of two functions of one name is found behind the body of the first. -/
theorem repeated_ordered :
    repeatedTree.OfSource repeated ∧
    ∃ events, catalogTree repeatedTree repeated {} = .ok ([functionAt 0, functionAt 15], events) ∧
    ∃ entities vs, CatalogRun repeatedTree repeated {} [functionAt 0, functionAt 15] entities vs ∧
      Run.OrderedBySegments 0 (repeated.normalize 0) vs [functionAt 0, functionAt 15] := by
  have h : catalogTree repeatedTree repeated {} =
      .ok ([functionAt 0, functionAt 15], [.discovered 2, .located 2 2]) := by
    decide +kernel
  exact ⟨by decide +kernel, _, h, catalogTree_ordered_iff repeatedTree repeated {} _ _ h⟩

/-- The tree of a source does not promise the order: a function whose header holds a comment is
found where its namesake stands. -/
theorem namesakes_out_of_order :
    ¬ ∀ (root : Node) (source : Text) (settings : Settings) (ds : List Descriptor)
      (events : List Event), root.OfSource source →
      catalogTree root source settings = .ok (ds, events) →
      (ds.filter (·.kind ≠ .method)).Pairwise fun d d' =>
        Cursor.bodyEnd (source.normalize settings.tabSize)
            (d.place (source.normalize settings.tabSize).lines) ≤
          d'.offset (source.normalize settings.tabSize).lines := by
  intro hall
  have hcatalog : catalogTree namesakesTree namesakes {} =
      .ok ([functionAt 0, functionAt 0], [.discovered 2, .located 2 2]) := by
    decide +kernel
  have hordered := hall namesakesTree namesakes {} _ _ (by decide +kernel) hcatalog
  exact absurd hordered (by decide +kernel)

end HeaderCatalog
