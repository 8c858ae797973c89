import HeaderCatalog.Proofs.HeaderPlaces

/-!
# HeaderCatalog.Proofs.Presence — which entities a catalogue holds

A class, function or variable is in the catalogue exactly if its pattern occurs in the text. The
resume points of the cursor decide where it is found, never whether: the last one is the start of
the text. So the other entities and their order make no difference. A method is in the catalogue
exactly if its class has a text when its turn comes and its pattern occurs in that text.

* `Run.isSome_topLevel_iff`, `Run.isSome_method_iff`: this for one step of a run.
* `catalog_holds_iff_occurs`: this for every catalogue.
-/

namespace HeaderCatalog

/-- The entity has a pattern, and the pattern occurs somewhere in the text. -/
def Entity.OccursIn (e : Entity) (tabSize : Nat) (text : Text) : Prop :=
  ∃ p, e.pattern tabSize = .ok (.ok p) ∧ ∃ i, p.OccursAt text i

/-- The descriptor says of the entity what the entity says of itself. -/
structure Descriptor.Describes (d : Descriptor) (e : Entity) : Prop where
  kind : d.kind = e.kind
  name : e.name = .ok d.name
  enclosing : d.enclosing = e.enclosing
  keyword : d.keyword = e.keyword
  params : e.parameters = .ok d.params

theorem Entity.OccursIn.of_pattern {e : Entity} {tabSize : Nat} {text : Text} {p : Pattern}
    (h : e.OccursIn tabSize text) (hp : e.pattern tabSize = .ok (.ok p)) :
    ∃ i, p.OccursAt text i := by
  obtain ⟨q, hq, hocc⟩ := h
  rw [hp] at hq
  cases hq
  exact hocc

namespace Run

variable {tabSize : Nat} {r r' : Run} {e : Entity} {outcome : Option Descriptor} {text : Text}

theorem describes_of_step {d : Descriptor} (h : Step tabSize r e (some d) r') : d.Describes e := by
  cases h with
  | located _ hname _ hparams => exact ⟨rfl, hname, rfl, rfl, hparams⟩
  | inside _ hname _ hparams => exact ⟨rfl, hname, rfl, rfl, hparams⟩

/-- A class, function or variable is located exactly if its pattern occurs in the text, wherever
the cursor of the run stands. -/
theorem isSome_topLevel_iff (hs : r.Sound text) (hkind : e.kind ≠ .method)
    (h : Step tabSize r e outcome r') : outcome.isSome ↔ e.OccursIn tabSize text := by
  cases outcome with
  | some d =>
    obtain ⟨p, hp, hstands, -⟩ := located_spec hs hkind h
    exact iff_of_true rfl ⟨p, hp, _, _, hstands.matches_at⟩
  | none =>
    refine iff_of_false (by simp) fun hocc => ?_
    cases h with
    | unmodelled hp =>
      obtain ⟨p, hp', -⟩ := hocc
      rw [hp] at hp'
      cases hp'
    | missing _ hp hresolve =>
      rw [hs.lines] at hresolve
      obtain ⟨i, hi⟩ := hocc.of_pattern hp
      have hnone := (Cursor.resolve_spec hs.topLevel_within (Entity.pattern_anchored hp)
        hresolve).2 rfl
      rw [hs.topLevel_text] at hnone
      exact hnone.2 i hi
    | classless hmethod => exact hkind hmethod
    | absent hmethod => exact hkind hmethod

/-- A method is located exactly if its class has a text and its pattern occurs there. -/
theorem isSome_method_iff (hs : r.Sound text) (hkind : e.kind = .method)
    (h : Step tabSize r e outcome r') :
    outcome.isSome ↔ ∃ body classes, r.classes.get e.enclosing none 0 = .ok (some body, classes) ∧
      e.OccursIn tabSize body.text := by
  cases outcome with
  | some d =>
    obtain ⟨p, body, classes, m, hp, hget, -, hmatch, -⟩ := inside_spec hs hkind h
    exact iff_of_true rfl ⟨body, classes, hget, p, hp, m.index, m.stop, hmatch⟩
  | none =>
    refine iff_of_false (by simp) ?_
    rintro ⟨body, classes, hget, hocc⟩
    cases h with
    | unmodelled hp =>
      obtain ⟨p, hp', -⟩ := hocc
      rw [hp] at hp'
      cases hp'
    | missing hne => exact hne hkind
    | classless _ _ hnone =>
      rw [hget] at hnone
      cases hnone
    | absent _ hp hget' hresolve =>
      rw [hget] at hget'
      cases hget'
      rw [hs.lines] at hresolve
      obtain ⟨i, hi⟩ := hocc.of_pattern hp
      have hnone := (Cursor.resolve_spec (hs.classCursor_within hget) (Entity.pattern_anchored hp)
        hresolve).2 rfl
      rw [(hs.classCursor hget).1] at hnone
      exact hnone.2 i hi

/-- A pattern that occurs at one place only is located there. -/
theorem offset_of_occursAt_unique (hs : r.Sound text) (hkind : e.kind ≠ .method)
    (h : Step tabSize r e outcome r') {p : Pattern} (hp : e.pattern tabSize = .ok (.ok p)) {i : Nat}
    (hi : ∀ j, p.OccursAt text j ↔ j = i) :
    ∃ d, outcome = some d ∧ d.location.Valid text.lines ∧ d.offset text.lines = i := by
  have hsome := (isSome_topLevel_iff hs hkind h).2 ⟨p, hp, i, (hi i).2 rfl⟩
  obtain ⟨d, rfl⟩ := Option.isSome_iff_exists.1 hsome
  obtain ⟨q, hq, hstands, -⟩ := located_spec hs hkind h
  rw [hp] at hq
  cases hq
  exact ⟨d, rfl, hstands.valid, (hi _).1 ⟨_, hstands.matches_at⟩⟩

end Run

/-- What becomes of an entity, by its own pattern and a text: the whole text, or for a method the
text that its class has at that moment. -/
structure Visit.Accounted (v : Visit) (tabSize : Nat) (text : Text) : Prop where
  describes : ∀ d, v.outcome = some d → d.Describes v.entity
  topLevel : v.entity.kind ≠ .method → (v.outcome.isSome ↔ v.entity.OccursIn tabSize text)
  unique : v.entity.kind ≠ .method → ∀ p i, v.entity.pattern tabSize = .ok (.ok p) →
    (∀ j, p.OccursAt text j ↔ j = i) →
    ∃ d, v.outcome = some d ∧ d.location.Valid text.lines ∧ d.offset text.lines = i
  method : v.entity.kind = .method → (v.outcome.isSome ↔ ∃ body classes,
    v.state.classes.get v.entity.enclosing none 0 = .ok (some body, classes) ∧
      v.entity.OccursIn tabSize body.text)

/-- Every visit of a run is accounted for, whatever the run has met before. -/
theorem Run.accounted_of_mem_visits {tabSize : Nat} {text : Text} {entities : List Entity}
    {vs : List Visit} (h : visits tabSize (.start text) entities = .ok vs) (v : Visit)
    (hv : v ∈ vs) : v.Accounted tabSize text := by
  have hs := sound_of_mem_visits h v hv
  obtain ⟨r', hstep⟩ := step_of_mem_visits h v hv
  constructor
  · intro d hd
    rw [hd] at hstep
    exact describes_of_step hstep
  · intro hkind
    exact isSome_topLevel_iff hs hkind hstep
  · intro hkind p i hp hi
    exact offset_of_occursAt_unique hs hkind hstep hp hi
  · intro hkind
    exact isSome_method_iff hs hkind hstep

/-- The catalogue lists the located ones of the entities in their order, and every entity is
accounted for. In any other run over the same text, a class, function or variable is located or
not as in this one. -/
theorem catalog_holds_iff_occurs (entities : List Entity) (source : Text) (settings : Settings)
    (ds : List Descriptor) (events : List Event)
    (h : catalog entities source settings = .ok (ds, events)) :
    ∃ vs,
      Run.visits settings.tabSize (.start (source.normalize settings.tabSize)) entities = .ok vs ∧
      vs.map (·.entity) = entities ∧ vs.filterMap (·.outcome) = ds ∧
      (∀ v ∈ vs, v.Accounted settings.tabSize (source.normalize settings.tabSize)) ∧
      ∀ others ws,
        Run.visits settings.tabSize (.start (source.normalize settings.tabSize)) others = .ok ws →
        ∀ v ∈ vs, ∀ w ∈ ws, w.entity = v.entity → v.entity.kind ≠ .method →
          w.outcome.isSome = v.outcome.isSome := by
  obtain ⟨vs, hvs, hentities, hds⟩ := catalog_eq_ok h
  refine ⟨vs, hvs, hentities, hds, Run.accounted_of_mem_visits hvs, ?_⟩
  intro others ws hws v hv w hw hsame hkind
  have hthis := (Run.accounted_of_mem_visits hvs v hv).topLevel hkind
  have hother := (Run.accounted_of_mem_visits hws w hw).topLevel
  rw [hsame] at hother
  exact Bool.eq_iff_iff.2 ((hother hkind).trans hthis.symm)

/-- Two functions that do not occur in the text are left out, and the class and the method that
do are listed. -/
theorem mixin_holds_own_entities :
    ∃ events, catalog (namesakesEntities ++ mixinEntities 'B') (mixin 'B') {} =
      .ok (mixinCatalog 'B' 16, events) ∧
    ∃ vs, Run.visits 0 (.start ((mixin 'B').normalize 0)) (namesakesEntities ++ mixinEntities 'B') =
        .ok vs ∧
      vs.map (·.entity) = namesakesEntities ++ mixinEntities 'B' ∧
      vs.filterMap (·.outcome) = mixinCatalog 'B' 16 ∧
      (∀ v ∈ vs, v.Accounted 0 ((mixin 'B').normalize 0)) ∧
      ∀ others ws, Run.visits 0 (.start ((mixin 'B').normalize 0)) others = .ok ws →
        ∀ v ∈ vs, ∀ w ∈ ws, w.entity = v.entity → v.entity.kind ≠ .method →
          w.outcome.isSome = v.outcome.isSome := by
  have h : catalog (namesakesEntities ++ mixinEntities 'B') (mixin 'B') {} =
      .ok (mixinCatalog 'B' 16, [.noMatch "function" ['a'] "function +a ~( ~) ~\x7b".toList,
        .noMatch "function" ['a'] "function +a ~( ~) ~\x7b".toList, .located 2 4]) := by
    decide +kernel
  exact ⟨_, h, catalog_holds_iff_occurs _ (mixin 'B') {} (mixinCatalog 'B' 16) _ h⟩

end HeaderCatalog
