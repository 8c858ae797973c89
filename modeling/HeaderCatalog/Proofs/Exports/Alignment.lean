import HeaderCatalog.Proofs.Exports.Flags
import HeaderCatalog.Proofs.TopLevelOrder
import HeaderCatalog.Proofs.Totality
import Mathlib.Data.List.Forall2

/-!
# HeaderCatalog.Proofs.Exports.Alignment — a run over all entities and a run over some of them

Two runs over one text: one visits all entities, the other leaves the flagged ones out. Nothing
brings them together again once their cursors stand at different places, so what they have in
common has to be kept from step to step.

* `Entity.LooksUp` gives the class names whose texts and cursors an entity can touch, and
  `Run.Step.frame` says that it touches no others.
* `Run.Aligned` says that both runs remember the same of the shared class names, those that no
  flagged entity looks up. A flagged entity leaves them aligned (`Run.Aligned.skip`). So does a
  remaining one, and it has the same outcome in both runs, if the cursor of the second run over
  the whole text chooses the place that the first run chose (`Run.Aligned.step`).
* `Run.Aligned.returns` and `Run.Aligned.forall₂_outcome`: this for whole runs.
-/

namespace HeaderCatalog

/-- The name under which the run looks a class up for the entity: the class of a method, or the
class that the entity declares. -/
inductive Entity.LooksUp (e : Entity) : Option Text → Prop where
  | method : e.kind = .method → LooksUp e e.enclosing
  | classDecl {name : Text} : e.kind = .classDecl → e.name = .ok name → LooksUp e (some name)

namespace Run

variable {tabSize : Nat} {text : Text} {r r' : Run} {e : Entity} {outcome : Option Descriptor}

/-- A step touches what the run remembers of the class that it looks up, and of no other. -/
theorem Step.frame {r₁ : Run} (h : Step tabSize r e outcome r₁) {key : Option Text}
    (hkey : ¬ e.LooksUp key) :
    r₁.classes.entries.lookup key = r.classes.entries.lookup key ∧
      r₁.inClass.lookup key = r.inClass.lookup key := by
  have hmethod : e.kind = .method → key ≠ e.enclosing := by
    rintro hkind rfl
    exact hkey (.method hkind)
  cases h with
  | unmodelled _ => exact ⟨rfl, rfl⟩
  | missing _ _ _ => exact ⟨rfl, rfl⟩
  | located _ hname _ _ _ hclass hother =>
    refine ⟨?_, rfl⟩
    by_cases hkind : e.kind = .classDecl
    · rcases hclass hkind with ⟨entry, hget⟩
      apply ClassIndex.lookup_of_get_ne hget
      rintro rfl
      exact hkey (.classDecl hkind hname)
    · rw [hother hkind]
  | classless hkind _ hget => exact ⟨ClassIndex.lookup_of_get_ne hget (hmethod hkind), rfl⟩
  | absent hkind _ hget _ =>
    exact ⟨ClassIndex.lookup_of_get_ne hget (hmethod hkind),
      r.lookup_setClassCursor_ne _ (hmethod hkind)⟩
  | inside hkind _ _ _ hget _ =>
    exact ⟨ClassIndex.lookup_of_get_ne hget (hmethod hkind),
      r.lookup_setClassCursor_ne _ (hmethod hkind)⟩

/-! ## Two runs over one text -/

/-- The two runs remember the same of the classes with these names. -/
structure Aligned (shared : Option Text → Prop) (r r' : Run) : Prop where
  classes : ∀ key, shared key → r'.classes.entries.lookup key = r.classes.entries.lookup key
  inClass : ∀ key, shared key → r'.inClass.lookup key = r.inClass.lookup key

variable {shared : Option Text → Prop}

/-- A step that looks up other classes only leaves the runs aligned. -/
theorem Aligned.skip (h : Aligned shared r r') {r₁ : Run} (hstep : Step tabSize r e outcome r₁)
    (hother : ∀ key, e.LooksUp key → ¬ shared key) : Aligned shared r₁ r' := by
  have hframe : ∀ key, shared key → ¬ e.LooksUp key := fun key hkey hlooks =>
    hother key hlooks hkey
  constructor
  · intro key hkey
    rw [(hstep.frame (hframe key hkey)).1]
    exact h.classes key hkey
  · intro key hkey
    rw [(hstep.frame (hframe key hkey)).2]
    exact h.inClass key hkey

theorem Aligned.symm (h : Aligned shared r r') : Aligned shared r' r :=
  ⟨fun key hkey => (h.classes key hkey).symm, fun key hkey => (h.inClass key hkey).symm⟩

/-- Look-ups with one result keep the indexes of the two runs aligned. -/
theorem Aligned.lookup_get (h : Aligned shared r r') {name : Option Text}
    {header : Option Pattern} {start : Nat} {entry : Option ClassText}
    {classes classes' : ClassIndex}
    (hget : r.classes.get name header start = .ok (entry, classes))
    (hget' : r'.classes.get name header start = .ok (entry, classes')) (key : Option Text)
    (hkey : shared key) : classes'.entries.lookup key = classes.entries.lookup key := by
  by_cases hname : key = name
  · subst hname
    rw [ClassIndex.lookup_of_get hget, ClassIndex.lookup_of_get hget']
  · rw [ClassIndex.lookup_of_get_ne hget hname, ClassIndex.lookup_of_get_ne hget' hname]
    exact h.classes key hkey

theorem Aligned.lookup_setClassCursor (h : Aligned shared r r') (name : Option Text)
    (cursor : Cursor) (key : Option Text) (hkey : shared key) :
    (r'.setClassCursor name cursor).inClass.lookup key =
      (r.setClassCursor name cursor).inClass.lookup key := by
  by_cases hname : key = name
  · subst hname
    simp only [Run.setClassCursor, List.lookup_cons_self]
  · rw [r.lookup_setClassCursor_ne cursor hname, r'.lookup_setClassCursor_ne cursor hname]
    exact h.inClass key hkey

/-- What the first run finds for a class, function or variable, the second finds too, if its
cursor chooses the same place. -/
theorem Aligned.topLevel (h : Aligned shared r r') (hr : r.Sound text) (hr' : r'.Sound text)
    (hkind : e.kind ≠ .method) {r₁ : Run} (hstep : Step tabSize r e outcome r₁)
    (hchosen : ∀ d p, outcome = some d → e.pattern tabSize = .ok (.ok p) →
      r'.topLevel.Chooses p (d.place text.lines)) :
    ∃ r₁', Step tabSize r' e outcome r₁' ∧ Aligned shared r₁ r₁' := by
  cases hstep with
  | unmodelled hp => exact ⟨{ r' with events := [] }, .unmodelled hp, h.classes, h.inClass⟩
  | missing _ hp hresolve =>
    rw [hr.lines] at hresolve
    have hsearch := Cursor.search_of_resolve_eq_none hr.topLevel_within
      (Entity.pattern_anchored hp) hresolve
    rw [hr.topLevel_text, ← hr'.topLevel_text] at hsearch
    have hnone := Cursor.resolve_of_search_eq_none hsearch r'.lines
    exact ⟨{ r' with events := [] }, .missing hkind hp hnone, h.classes, h.inClass⟩
  | classless hmethod => exact absurd hmethod hkind
  | absent hmethod => exact absurd hmethod hkind
  | inside hmethod => exact absurd hmethod hkind
  | @located p name params l m classes topLevel events _ hname hp hparams hresolve hclass hother =>
    have hanchored := Entity.pattern_anchored hp
    have hstep : Step tabSize r e (some (e.describe name params l m.text))
        { r with classes, topLevel, events } :=
      .located hkind hname hp hparams hresolve hclass hother
    -- The match is the place of the descriptor, so both cursors choose it.
    have hmatch : r'.topLevel.Chooses p m ∧ l = Location.ofIndex m.index text.lines := by
      rcases located_spec hr hkind hstep with ⟨q, hq, -, hplace, -⟩
      rw [hp] at hq
      cases hq
      rw [hr.lines] at hresolve
      rcases (Cursor.resolve_spec hr.topLevel_within hanchored hresolve).1 l m rfl
        with ⟨hchooses, -, hl⟩
      rw [hr.topLevel_offset, Int.add_zero] at hl
      refine ⟨?_, hl⟩
      rw [hchooses.unique hplace]
      exact hchosen _ p rfl hp
    rcases hmatch with ⟨hchooses, hl⟩
    have hne := Entity.literal_ne_nil_of_matchAt hp hchooses.matches_at
    have hresolve' := Cursor.resolve_of_chooses hr'.topLevel_within hanchored hne hchooses
    rw [hr'.topLevel_offset, Int.add_zero, ← hl, ← hr'.lines] at hresolve'
    by_cases hdeclares : e.kind = .classDecl
    · rcases hclass hdeclares with ⟨entry, hget⟩
      rcases ClassText.isolate_ok hne r'.classes.text m.index with ⟨found, hfound⟩
      have hisolate : r'.classes.isolate (some name) (some p) m.index = .ok found := hfound
      rcases r'.classes.get_ok hisolate with ⟨entry', classes', hget'⟩
      refine ⟨{ r' with classes := classes', topLevel := r'.topLevel.advance m, events := [] },
        .located hkind hname hp hparams hresolve' (fun _ => ⟨entry', hget'⟩)
          (fun hnot => absurd hdeclares hnot), ?_, h.inClass⟩
      intro key hkey
      by_cases hsame : key = some name
      · -- A shared name is known to both runs or to none.
        subst hsame
        have htext : r'.classes.text = r.classes.text :=
          hr'.classes_text.trans hr.classes_text.symm
        rcases ClassIndex.get_of_lookup_eq htext (h.classes _ hkey) hget with ⟨_, hget''⟩
        rw [hget'] at hget''
        cases hget''
        exact h.lookup_get hget hget' _ hkey
      · rw [ClassIndex.lookup_of_get_ne hget hsame, ClassIndex.lookup_of_get_ne hget' hsame]
        exact h.classes key hkey
    · refine ⟨{ r' with topLevel := r'.topLevel.advance m, events := [] },
        .located hkind hname hp hparams hresolve' (fun hyes => absurd hyes hdeclares)
          (fun _ => rfl), ?_, h.inClass⟩
      rw [hother hdeclares]
      exact h.classes

/-- What the first run finds for a method of a shared class, the second finds too. -/
theorem Aligned.method (h : Aligned shared r r') (hr : r.Sound text) (hr' : r'.Sound text)
    (hkind : e.kind = .method) (hshared : shared e.enclosing) {r₁ : Run}
    (hstep : Step tabSize r e outcome r₁) :
    ∃ r₁', Step tabSize r' e outcome r₁' ∧ Aligned shared r₁ r₁' := by
  have htext : r'.classes.text = r.classes.text := hr'.classes_text.trans hr.classes_text.symm
  have hcursor : ∀ body, r'.classCursor e.enclosing body = r.classCursor e.enclosing body := by
    intro body
    unfold classCursor
    rw [h.inClass _ hshared]
  have hlines : r'.lines = r.lines := hr'.lines.trans hr.lines.symm
  cases hstep with
  | unmodelled hp => exact ⟨{ r' with events := [] }, .unmodelled hp, h.classes, h.inClass⟩
  | missing hne => exact absurd hkind hne
  | located hne => exact absurd hkind hne
  | classless _ hp hget =>
    rcases ClassIndex.get_of_lookup_eq htext (h.classes _ hshared) hget with ⟨classes', hget'⟩
    exact ⟨{ r' with classes := classes', events := [] }, .classless hkind hp hget',
      h.lookup_get hget hget', h.inClass⟩
  | @absent p body classes cursor events _ hp hget hresolve =>
    rcases ClassIndex.get_of_lookup_eq htext (h.classes _ hshared) hget with ⟨classes', hget'⟩
    rw [← hcursor, ← hlines] at hresolve
    exact ⟨{ r'.setClassCursor e.enclosing cursor with classes := classes', events := [] },
      .absent hkind hp hget' hresolve, h.lookup_get hget hget', h.lookup_setClassCursor _ _⟩
  | @inside p name params l m body classes cursor events _ hname hp hparams hget hresolve =>
    rcases ClassIndex.get_of_lookup_eq htext (h.classes _ hshared) hget with ⟨classes', hget'⟩
    rw [← hcursor, ← hlines] at hresolve
    exact ⟨{ r'.setClassCursor e.enclosing cursor with classes := classes', events := [] },
      .inside hkind hname hp hparams hget' hresolve, h.lookup_get hget hget',
      h.lookup_setClassCursor _ _⟩

/-! ## Whole runs -/

/-- One step of the second run: it does what the first one did, and leaves the runs aligned. -/
theorem Aligned.step (h : Aligned shared r r') (hr : r.Sound text) (hr' : r'.Sound text)
    (hmethod : e.kind = .method → shared e.enclosing) {r₁ : Run}
    (hstep : r.step tabSize e = .ok (outcome, r₁))
    (hchosen : e.kind ≠ .method → ∀ d p, outcome = some d → e.pattern tabSize = .ok (.ok p) →
      r'.topLevel.Chooses p (d.place text.lines)) :
    ∃ r₁', r'.step tabSize e = .ok (outcome, r₁') ∧ Aligned shared r₁ r₁' := by
  rcases bind_eq_ok_iff.1 hstep with ⟨name, hname, -⟩
  have hsame : ∃ r₁', Step tabSize r' e outcome r₁' ∧ Aligned shared r₁ r₁' := by
    by_cases hkind : e.kind = .method
    · exact h.method hr hr' hkind (hmethod hkind) (step_eq_ok hstep)
    · exact h.topLevel hr hr' hkind (step_eq_ok hstep) (hchosen hkind)
  rcases hsame with ⟨r₁', hstep', haligned⟩
  rcases hstep'.returns hname with ⟨events, hreturns⟩
  exact ⟨{ r₁' with events }, hreturns, haligned.classes, haligned.inClass⟩

/-- The visits of the entities that are not flagged. -/
def remainingVisits (flagged : List (Entity × Bool)) (vs : List Visit) : List Visit :=
  remaining (vs.zip (flagged.map (·.2)))

theorem mem_of_mem_remainingVisits {flagged : List (Entity × Bool)} {vs : List Visit} {v : Visit}
    (h : v ∈ remainingVisits flagged vs) : v ∈ vs :=
  (List.of_mem_zip (mem_remaining.1 h)).1

theorem entities_remainingVisits {flagged : List (Entity × Bool)} {vs : List Visit}
    (h : vs.map (·.entity) = flagged.map (·.1)) :
    (remainingVisits flagged vs).map (·.entity) = remaining flagged := by
  induction flagged generalizing vs with
  | nil =>
    rw [List.map_nil, List.map_eq_nil_iff] at h
    rw [h]
    rfl
  | cons ef flagged ih =>
    rcases ef with ⟨e, flag⟩
    rcases List.map_eq_cons_iff.1 h with ⟨v, more, rfl, hv, hmore⟩
    cases flag with
    | true => exact ih hmore
    | false =>
      have hrest := ih hmore
      show v.entity :: (remainingVisits flagged more).map (·.entity) = e :: remaining flagged
      rw [hv, hrest]

/-- The first of the visits is chosen by the cursor, if it is of a class, function or variable. -/
theorem chooses_of_chosenFrom {c : Cursor} {v : Visit} {vs : List Visit}
    (h : ChosenFrom tabSize text c (topLevelLocated (v :: vs))) (hkind : v.entity.kind ≠ .method)
    (d : Descriptor) (p : Pattern) (hd : v.outcome = some d)
    (hp : v.entity.pattern tabSize = .ok (.ok p)) : c.Chooses p (d.place text.lines) := by
  simp only [topLevelLocated, List.filterMap_cons, if_neg hkind, hd, Option.map_some] at h
  rcases h with ⟨⟨q, hq, -, hchooses⟩, -⟩
  rw [hp] at hq
  cases hq
  exact hchooses

/-- The other visits are chosen by the cursor that a step with the same outcome leaves. -/
theorem chosenFrom_of_step {v : Visit} {vs : List Visit} (hr : r.Sound text)
    (h : ChosenFrom tabSize text r.topLevel (topLevelLocated (v :: vs))) {r₁ : Run}
    (hstep : Step tabSize r v.entity outcome r₁)
    (hsame : v.entity.kind ≠ .method → outcome = v.outcome) :
    ChosenFrom tabSize text r₁.topLevel (topLevelLocated vs) := by
  by_cases hkind : v.entity.kind = .method
  · rw [topLevel_of_step hr hstep (Or.inl hkind)]
    simpa [topLevelLocated, hkind] using h
  · have hv := hsame hkind
    cases outcome with
    | none =>
      rw [topLevel_of_step hr hstep (Or.inr rfl)]
      simpa [topLevelLocated, hkind, ← hv] using h
    | some d =>
      rcases located_spec hr hkind hstep with ⟨p, hp, -, -, hadvance, -⟩
      simp only [topLevelLocated, List.filterMap_cons, if_neg hkind, ← hv, Option.map_some] at h
      rw [hadvance]
      exact h.2

/-- The run over the remaining entities returns, if its cursor chooses the same places and their
methods belong to shared classes. -/
theorem Aligned.returns (h : Aligned shared r r') (hr : r.Sound text) (hr' : r'.Sound text)
    {flagged : List (Entity × Bool)} {vs : List Visit}
    (hskip : ∀ e, (e, true) ∈ flagged → ∀ key, e.LooksUp key → ¬ shared key)
    (hkeep : ∀ e, (e, false) ∈ flagged → e.kind = .method → shared e.enclosing)
    (hvs : visits tabSize r (flagged.map (·.1)) = .ok vs)
    (hchosen : ChosenFrom tabSize text r'.topLevel
      (topLevelLocated (remainingVisits flagged vs))) :
    ∃ ws, visits tabSize r' (remaining flagged) = .ok ws := by
  induction flagged generalizing r r' vs with
  | nil => exact ⟨[], rfl⟩
  | cons ef flagged ih =>
    rcases ef with ⟨e, flag⟩
    rcases visits_cons_eq_ok hvs with ⟨outcome, r₁, more, hone, hmore, rfl⟩
    have hstep := step_eq_ok hone
    have hskip' := fun e he => hskip e (List.mem_cons_of_mem _ he)
    have hkeep' := fun e he => hkeep e (List.mem_cons_of_mem _ he)
    cases flag with
    | true =>
      have haligned := h.skip hstep (hskip e List.mem_cons_self)
      -- The second run does not move; its cursors are still to choose the remaining places.
      exact ih haligned (hr.step hstep) hr' hskip' hkeep' hmore hchosen
    | false =>
      have hfirst : ChosenFrom tabSize text r'.topLevel
        (topLevelLocated (⟨r, e, outcome⟩ :: remainingVisits flagged more)) := hchosen
      rcases h.step hr hr' (hkeep e List.mem_cons_self) hone (chooses_of_chosenFrom hfirst)
        with ⟨r₁', hone', haligned⟩
      have hstep' := step_eq_ok hone'
      have hnext := chosenFrom_of_step hr' hfirst hstep' (fun _ => rfl)
      rcases ih haligned (hr.step hstep) (hr'.step hstep') hskip' hkeep' hmore hnext
        with ⟨ws, hws⟩
      exact ⟨⟨r', e, outcome⟩ :: ws,
        bind_eq_ok_iff.2 ⟨_, hone', bind_eq_ok_iff.2 ⟨ws, hws, rfl⟩⟩⟩

/-- If the run over the remaining entities returns, and its cursor chooses the same places, it
gives the same for all but the methods of classes that are not shared. -/
theorem Aligned.forall₂_outcome (h : Aligned shared r r') (hr : r.Sound text) (hr' : r'.Sound text)
    {flagged : List (Entity × Bool)} {vs ws : List Visit}
    (hskip : ∀ e, (e, true) ∈ flagged → ∀ key, e.LooksUp key → ¬ shared key)
    (hvs : visits tabSize r (flagged.map (·.1)) = .ok vs)
    (hws : visits tabSize r' (remaining flagged) = .ok ws)
    (hchosen : ChosenFrom tabSize text r'.topLevel
      (topLevelLocated (remainingVisits flagged vs))) :
    List.Forall₂ (fun v w => (v.entity.kind = .method → shared v.entity.enclosing) →
      w.outcome = v.outcome) (remainingVisits flagged vs) ws := by
  induction flagged generalizing r r' vs ws with
  | nil =>
    cases hvs
    cases hws
    exact .nil
  | cons ef flagged ih =>
    rcases ef with ⟨e, flag⟩
    rcases visits_cons_eq_ok hvs with ⟨outcome, r₁, more, hone, hmore, rfl⟩
    have hstep := step_eq_ok hone
    have hskip' := fun e he => hskip e (List.mem_cons_of_mem _ he)
    cases flag with
    | true =>
      have haligned := h.skip hstep (hskip e List.mem_cons_self)
      exact ih haligned (hr.step hstep) hr' hskip' hmore hws hchosen
    | false =>
      rcases visits_cons_eq_ok hws with ⟨outcome', r₁', more', hone', hmore', rfl⟩
      have hstep' := step_eq_ok hone'
      have hfirst : ChosenFrom tabSize text r'.topLevel
        (topLevelLocated (⟨r, e, outcome⟩ :: remainingVisits flagged more)) := hchosen
      by_cases hfree : e.kind = .method → shared e.enclosing
      · rcases h.step hr hr' hfree hone (chooses_of_chosenFrom hfirst) with ⟨r₂, hsame, haligned⟩
        rw [hone'] at hsame
        cases hsame
        have hnext := chosenFrom_of_step hr' hfirst hstep' (fun _ => rfl)
        exact .cons (fun _ => rfl)
          (ih haligned (hr.step hstep) (hr'.step hstep') hskip' hmore hmore' hnext)
      · -- A method of a class that is not shared: either run may find what it likes.
        have hkind : e.kind = .method := by
          by_contra hne
          exact hfree (fun hkind => absurd hkind hne)
        have hother : ∀ key, e.LooksUp key → ¬ shared key := by
          intro key hlooks hkey
          cases hlooks with
          | method _ => exact hfree (fun _ => hkey)
          | classDecl hclass _ =>
            rw [hkind] at hclass
            cases hclass
        have haligned := ((h.skip hstep hother).symm.skip hstep' hother).symm
        have hnext := chosenFrom_of_step hr' hfirst hstep' (fun hne => absurd hkind hne)
        exact .cons (fun hsame => absurd hsame hfree)
          (ih haligned (hr.step hstep) (hr'.step hstep') hskip' hmore hmore' hnext)

end Run

end HeaderCatalog
