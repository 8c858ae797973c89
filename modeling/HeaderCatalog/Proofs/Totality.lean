import HeaderCatalog.Proofs.Visits

/-!
# HeaderCatalog.Proofs.Totality — runs that cannot fail

A fault of a run has its cause in an entity: a name or a parameter that cannot be read, a literal
without characters, a method outside of all classes. `Entity.Workable` excludes these causes for one
entity. Then nothing else can fail, whatever the text and whatever the run has met before. A run is
not even started if the source grows too long when its tabs are expanded.

* `Run.step_ok`: a step over a workable entity returns from every state;
* `catalog_ok`: a catalogue of workable entities returns for every source whose tabs can be
  expanded;
* `normalizable_of_catalog`: no other catalogue returns, and none for which the literals of a header
  cannot be normalized.
-/

namespace HeaderCatalog

/-- The run cannot fail at the entity: its name can be read, the question for its pattern has an
answer, and if there is a pattern, then all its literals have characters and the parameters can be
read too. A method stands in a class with a name. -/
structure Entity.Workable (e : Entity) (tabSize : Nat) : Prop where
  named : ∃ name, e.name = .ok name
  patterned : ∃ outcome, e.pattern tabSize = .ok outcome
  spelled : ∀ p, e.pattern tabSize = .ok (.ok p) → ∀ t ∈ p.tokens, t.literal ≠ []
  parametered : ∀ p, e.pattern tabSize = .ok (.ok p) → ∃ params, e.parameters = .ok params
  enclosed : e.kind = .method → ∃ name, e.enclosing = some name ∧ name ≠ []

/-! ## Searches with a cursor -/

theorem resolve_ok {p : Pattern} (hp : ∀ t ∈ p.tokens, t.literal ≠ []) (text : Text)
    (lines : List Text) (offset : Int) (start : Nat) :
    ∃ found, resolve p text lines offset start = .ok found := by
  rcases Pattern.search_ok hp text start with ⟨match?, hsearch⟩
  cases match? with
  | none => exact ⟨none, bind_eq_ok_iff.2 ⟨none, hsearch, rfl⟩⟩
  | some m => exact ⟨_, bind_eq_ok_iff.2 ⟨some m, hsearch, rfl⟩⟩

namespace Cursor

theorem firstFrom_ok (c : Cursor) {p : Pattern} (hp : ∀ t ∈ p.tokens, t.literal ≠ [])
    (lines : List Text) (starts : List Nat) : ∃ found, c.firstFrom p lines starts = .ok found := by
  induction starts with
  | nil => exact ⟨none, rfl⟩
  | cons start rest ih =>
    rcases resolve_ok hp c.text lines c.offset start with ⟨first, hfirst⟩
    cases first with
    | some lm => exact ⟨some lm, bind_eq_ok_iff.2 ⟨some lm, hfirst, rfl⟩⟩
    | none =>
      rcases ih with ⟨found, hfound⟩
      exact ⟨found, bind_eq_ok_iff.2 ⟨none, hfirst, hfound⟩⟩

theorem resolve_ok (c : Cursor) {p : Pattern} (hp : ∀ t ∈ p.tokens, t.literal ≠ [])
    (lines : List Text) : ∃ found c', c.resolve p lines = .ok (found, c') := by
  rcases c.firstFrom_ok hp lines c.starts with ⟨first, hfirst⟩
  cases first with
  | none => exact ⟨none, c, bind_eq_ok_iff.2 ⟨none, hfirst, rfl⟩⟩
  | some lm => exact ⟨some lm, _, bind_eq_ok_iff.2 ⟨some lm, hfirst, rfl⟩⟩

/-- An occurrence that a cursor chooses is what its search gives. -/
theorem resolve_of_chooses {c : Cursor} {whole : Text} (hc : c.Within whole) {p : Pattern}
    (hp : p.Anchored) (hne : ∀ t ∈ p.tokens, t.literal ≠ []) {m : Match} (h : c.Chooses p m) :
    c.resolve p whole.lines =
      .ok (some (Location.ofIndex (m.index + c.offset) whole.lines, m), c.advance m) := by
  rcases c.resolve_ok hne whole.lines with ⟨found, c', hresolve⟩
  rcases resolve_spec hc hp hresolve with ⟨hsome, hnone⟩
  cases found with
  | none => exact absurd ⟨m.stop, h.matches_at⟩ ((hnone rfl).2 m.index)
  | some lm =>
    rcases hsome lm.1 lm.2 rfl with ⟨hchooses, hadvance, hlocation⟩
    have hsame := hchooses.unique h
    rw [hresolve, hadvance, ← hsame, ← hlocation]

end Cursor

/-! ## Class texts -/

theorem ClassText.isolate_ok {header : Pattern} (hp : ∀ t ∈ header.tokens, t.literal ≠ [])
    (text : Text) (start : Nat) : ∃ entry, isolate text header start = .ok entry := by
  rcases Pattern.search_ok hp text start with ⟨found, hfound⟩
  exact ⟨_, bind_eq_ok_iff.2 ⟨found, hfound, rfl⟩⟩

theorem ClassText.literal_ne_nil_opening {name : Text} (hname : name ≠ []) :
    ∀ t ∈ (opening name).tokens, t.literal ≠ [] := by
  intro t ht
  rcases Pattern.literal_mem_add ht with ht | ht
  · rw [List.mem_singleton.1 ht]
    decide
  · rwa [ht]

/-- Looking a class up returns if its first look-up does. -/
theorem ClassIndex.get_ok (index : ClassIndex) {name : Option Text} {header : Option Pattern}
    {start : Nat} {entry : Option ClassText} (h : index.isolate name header start = .ok entry) :
    ∃ entry' index', index.get name header start = .ok (entry', index') := by
  unfold ClassIndex.get
  split
  · exact ⟨_, _, rfl⟩
  · exact ⟨entry, _, bind_eq_ok_iff.2 ⟨entry, h, rfl⟩⟩

/-! ## Steps -/

namespace Run

theorem classText_ok (r : Run) {name : Option Text} {header : Option Pattern} {start : Nat}
    {entry : Option ClassText} (h : r.classes.isolate name header start = .ok entry) :
    ∃ entry' r', r.classText name header start = .ok (entry', r') := by
  rcases r.classes.get_ok h with ⟨entry', classes, hget⟩
  exact ⟨entry', _, bind_eq_ok_iff.2 ⟨(entry', classes), hget, rfl⟩⟩

theorem isolateClass_ok (r : Run) (name : Text) {p : Pattern}
    (hp : ∀ t ∈ p.tokens, t.literal ≠ []) (m : Match) : ∃ r', r.isolateClass name p m = .ok r' := by
  unfold isolateClass
  split
  · exact ⟨_, rfl⟩
  · rcases ClassText.isolate_ok hp r.classes.text m.index with ⟨entry, hentry⟩
    have hisolate : r.classes.isolate (some name) (some p) m.index = .ok entry := hentry
    rcases r.classText_ok hisolate with ⟨entry', r', htext⟩
    exact ⟨r', bind_eq_ok_iff.2 ⟨(entry', r'), htext, rfl⟩⟩

theorem locateMethod_ok (r : Run) {e : Entity} {className : Text}
    (hclass : e.enclosing = some className) (hne : className ≠ []) (name : Text) {p : Pattern}
    (hp : ∀ t ∈ p.tokens, t.literal ≠ []) :
    ∃ found r', r.locateMethod e name p = .ok (found, r') := by
  have hopening := ClassText.literal_ne_nil_opening hne
  rcases ClassText.isolate_ok hopening r.classes.text 0 with ⟨entry, hentry⟩
  have hisolate : r.classes.isolate e.enclosing none 0 = .ok entry := by rw [hclass]; exact hentry
  rcases r.classText_ok hisolate with ⟨entry', r₁, htext⟩
  cases entry' with
  | none => exact ⟨none, _, bind_eq_ok_iff.2 ⟨(none, r₁), htext, rfl⟩⟩
  | some body =>
    rcases (r₁.classCursor e.enclosing body).resolve_ok hp r₁.lines with ⟨found, cursor, hfound⟩
    exact ⟨found, _, bind_eq_ok_iff.2 ⟨(some body, r₁), htext,
      bind_eq_ok_iff.2 ⟨(found, cursor), hfound, rfl⟩⟩⟩

theorem locateTopLevel_ok (r : Run) (e : Entity) (name : Text) {p : Pattern}
    (hp : ∀ t ∈ p.tokens, t.literal ≠ []) :
    ∃ found r', r.locateTopLevel e name p = .ok (found, r') := by
  rcases r.topLevel.resolve_ok hp r.lines with ⟨found, topLevel, hfound⟩
  cases found with
  | none => exact ⟨none, _, bind_eq_ok_iff.2 ⟨(none, topLevel), hfound, rfl⟩⟩
  | some lm =>
    by_cases hkind : e.kind = .classDecl
    · rcases isolateClass_ok { r with topLevel } name hp lm.2 with ⟨r', hclass⟩
      refine ⟨some lm, r', bind_eq_ok_iff.2 ⟨(some lm, topLevel), hfound, ?_⟩⟩
      simp only [hkind, if_true]
      exact bind_eq_ok_iff.2 ⟨r', hclass, rfl⟩
    · refine ⟨some lm, { r with topLevel }, bind_eq_ok_iff.2 ⟨(some lm, topLevel), hfound, ?_⟩⟩
      simp only [hkind, if_false]
      rfl

/-- A step over a workable entity returns, whatever the state. -/
theorem step_ok (r : Run) {tabSize : Nat} {e : Entity} (he : e.Workable tabSize) :
    ∃ outcome r', r.step tabSize e = .ok (outcome, r') := by
  rcases he.named with ⟨name, hname⟩
  rcases he.patterned with ⟨pattern, hpattern⟩
  cases pattern with
  | error parameter =>
    exact ⟨none, _, bind_eq_ok_iff.2 ⟨name, hname, bind_eq_ok_iff.2 ⟨_, hpattern, rfl⟩⟩⟩
  | ok p =>
    have hp := he.spelled p hpattern
    rcases he.parametered p hpattern with ⟨params, hparams⟩
    have hlocate : ∃ found r', r.locate e name p = .ok (found, r') := by
      unfold locate
      split
      · rename_i hkind
        rcases he.enclosed hkind with ⟨className, hclass, hne⟩
        exact r.locateMethod_ok hclass hne name hp
      · exact r.locateTopLevel_ok e name hp
    rcases hlocate with ⟨found, r', hfound⟩
    cases found with
    | none =>
      refine ⟨none, r', bind_eq_ok_iff.2 ⟨name, hname, bind_eq_ok_iff.2 ⟨_, hpattern, ?_⟩⟩⟩
      exact bind_eq_ok_iff.2 ⟨(none, r'), hfound, rfl⟩
    | some lm =>
      refine ⟨some (e.describe name params lm.1 lm.2.text), r',
        bind_eq_ok_iff.2 ⟨name, hname, bind_eq_ok_iff.2 ⟨_, hpattern, ?_⟩⟩⟩
      exact bind_eq_ok_iff.2 ⟨(some lm, r'), hfound, bind_eq_ok_iff.2 ⟨params, hparams, rfl⟩⟩

/-- So a run over workable entities returns. -/
theorem steps_ok {tabSize : Nat} {entities : List Entity}
    (h : ∀ e ∈ entities, e.Workable tabSize) (r : Run) :
    ∃ ds r', steps tabSize r entities = .ok (ds, r') := by
  induction entities generalizing r with
  | nil => exact ⟨[], r, rfl⟩
  | cons e rest ih =>
    rcases r.step_ok (h e List.mem_cons_self) with ⟨outcome, r₁, hstep⟩
    rcases ih (fun e' he' => h e' (List.mem_cons_of_mem _ he')) r₁ with ⟨ds, r', hsteps⟩
    exact ⟨_, r', bind_eq_ok_iff.2 ⟨_, hstep, bind_eq_ok_iff.2 ⟨_, hsteps, rfl⟩⟩⟩

end Run

/-! ## The whole catalogue -/

/-- All that is normalized for a catalogue can be: the source, and the literals of the headers that
are looked for in it. -/
structure Normalizable (entities : List Entity) (source : Text) (tabSize : Nat) : Prop where
  source : source.Expands tabSize
  headers : ∀ e ∈ entities, ∀ p, e.header = .ok p → p.Expands tabSize

/-- A run that returns has asked every entity for its pattern. -/
theorem Run.patterned_of_visits {tabSize : Nat} {r : Run} {entities : List Entity}
    {vs : List Visit} (h : visits tabSize r entities = .ok vs) :
    ∀ e ∈ entities, ∃ outcome, e.pattern tabSize = .ok outcome := by
  induction entities generalizing r vs with
  | nil =>
    intro e he
    cases he
  | cons e rest ih =>
    rcases visits_cons_eq_ok h with ⟨outcome, r', more, hstep, hmore, -⟩
    rcases bind_eq_ok_iff.1 hstep with ⟨name, -, hstep⟩
    rcases bind_eq_ok_iff.1 hstep with ⟨pattern, hpattern, -⟩
    exact List.forall_mem_cons.2 ⟨⟨pattern, hpattern⟩, ih hmore⟩

theorem normalizable_of_catalog {entities : List Entity} {source : Text} {settings : Settings}
    {ds : List Descriptor} {events : List Event}
    (h : catalog entities source settings = .ok (ds, events)) :
    Normalizable entities source settings.tabSize := by
  rcases catalog_eq_ok_iff.1 ⟨events, h⟩ with ⟨hsource, vs, hvs, -⟩
  constructor
  · exact hsource
  · intro e he p hp
    rcases Run.patterned_of_visits hvs e he with ⟨outcome, houtcome⟩
    exact Entity.expands_of_pattern houtcome hp

theorem catalog_ok {entities : List Entity} {source : Text} {settings : Settings}
    (hsource : source.Expands settings.tabSize)
    (h : ∀ e ∈ entities, e.Workable settings.tabSize) :
    ∃ ds events, catalog entities source settings = .ok (ds, events) := by
  rcases Run.steps_ok h (.start (source.normalize settings.tabSize)) with ⟨ds, r, hsteps⟩
  rcases Run.steps_eq_ok hsteps with ⟨vs, hvs, hds⟩
  exact ⟨ds, catalog_eq_ok_iff.2 ⟨hsource, vs, hvs, hds⟩⟩

end HeaderCatalog
