import HeaderCatalog.Catalog
import HeaderCatalog.Proofs.ClassTexts
import HeaderCatalog.Proofs.Resumption

/-!
# HeaderCatalog.Proofs.Visits — a run, entity by entity

* `Run.Step` says all that one entity can do to a run, up to the events. By `Run.step_eq_ok` and
  `Run.Step.returns` it is what a step does, so other proofs need not open the definitions.
* `Run.visits` lists, for each entity in turn, the state it meets and what becomes of it. It is
  the run that `catalog` makes, with its history kept (`catalog_eq_ok`).
* `Run.Sound` is the invariant of a run over a text: every class text is a part of the text, and
  every cursor stands over the text or over the class text that its class has in the index.
  It holds at every visit (`Run.sound_of_mem_visits`).
-/

namespace HeaderCatalog

/-- The descriptor of an entity with the location and the text of its header. -/
def Entity.describe (e : Entity) (name : Text) (params : Option (List Text)) (l : Location)
    (header : Text) : Descriptor :=
  ⟨e.kind, l.line, l.indent, header, e.enclosing, params, e.keyword, name⟩

namespace Run

/-! ## One step -/

/-- What one entity does to a run and what becomes of it. Events are left open. -/
inductive Step (tabSize : Nat) (r : Run) (e : Entity) : Option Descriptor → Run → Prop where
  /-- The header is not described by names alone. -/
  | unmodelled {parameter : Text} {events : List Event} :
      e.pattern tabSize = .ok (.error parameter) → Step tabSize r e none { r with events }
  /-- A class, function or variable whose header is not found. -/
  | missing {p : Pattern} {topLevel : Cursor} {events : List Event} :
      e.kind ≠ .method → e.pattern tabSize = .ok (.ok p) →
      r.topLevel.resolve p r.lines = .ok (none, topLevel) →
      Step tabSize r e none { r with topLevel, events }
  /-- A class, function or variable whose header is found. A class is looked up from there. -/
  | located {p : Pattern} {name : Text} {params : Option (List Text)} {l : Location} {m : Match}
      {classes : ClassIndex} {topLevel : Cursor} {events : List Event} :
      e.kind ≠ .method → e.name = .ok name → e.pattern tabSize = .ok (.ok p) →
      e.parameters = .ok params → r.topLevel.resolve p r.lines = .ok (some (l, m), topLevel) →
      (e.kind = .classDecl →
        ∃ entry, r.classes.get (some name) (some p) m.index = .ok (entry, classes)) →
      (e.kind ≠ .classDecl → classes = r.classes) →
      Step tabSize r e (some (e.describe name params l m.text)) { r with classes, topLevel, events }
  /-- A method whose class is not found. -/
  | classless {p : Pattern} {classes : ClassIndex} {events : List Event} :
      e.kind = .method → e.pattern tabSize = .ok (.ok p) →
      r.classes.get e.enclosing none 0 = .ok (none, classes) →
      Step tabSize r e none { r with classes, events }
  /-- A method whose header is not found in its class. -/
  | absent {p : Pattern} {body : ClassText} {classes : ClassIndex} {cursor : Cursor}
      {events : List Event} :
      e.kind = .method → e.pattern tabSize = .ok (.ok p) →
      r.classes.get e.enclosing none 0 = .ok (some body, classes) →
      (r.classCursor e.enclosing body).resolve p r.lines = .ok (none, cursor) →
      Step tabSize r e none { r.setClassCursor e.enclosing cursor with classes, events }
  /-- A method whose header is found in its class. -/
  | inside {p : Pattern} {name : Text} {params : Option (List Text)} {l : Location} {m : Match}
      {body : ClassText} {classes : ClassIndex} {cursor : Cursor} {events : List Event} :
      e.kind = .method → e.name = .ok name → e.pattern tabSize = .ok (.ok p) →
      e.parameters = .ok params → r.classes.get e.enclosing none 0 = .ok (some body, classes) →
      (r.classCursor e.enclosing body).resolve p r.lines = .ok (some (l, m), cursor) →
      Step tabSize r e (some (e.describe name params l m.text))
        { r.setClassCursor e.enclosing cursor with classes, events }

theorem classText_eq_ok {r r' : Run} {name : Option Text} {header : Option Pattern} {start : Nat}
    {entry : Option ClassText} (h : r.classText name header start = .ok (entry, r')) :
    ∃ classes events, r.classes.get name header start = .ok (entry, classes) ∧
      r' = { r with classes, events } := by
  obtain ⟨⟨entry', classes⟩, hget, h⟩ := bind_eq_ok_iff.1 h
  cases h
  split
  · exact ⟨classes, _, hget, rfl⟩
  · exact ⟨classes, _, hget, rfl⟩

/-- A located class is looked up from its header on; if its name is known, nothing changes. -/
theorem isolateClass_eq_ok {r r' : Run} {name : Text} {p : Pattern} {m : Match}
    (h : r.isolateClass name p m = .ok r') :
    ∃ entry classes events, r.classes.get (some name) (some p) m.index = .ok (entry, classes) ∧
      r' = { r with classes, events } := by
  unfold isolateClass at h
  split at h
  · rename_i hknown
    cases h
    rw [ClassIndex.contains_eq_isSome_lookup] at hknown
    obtain ⟨entry, hentry⟩ := Option.isSome_iff_exists.1 hknown
    exact ⟨entry, r.classes, _, by simp [ClassIndex.get, hentry], rfl⟩
  · obtain ⟨⟨entry, r''⟩, htext, h⟩ := bind_eq_ok_iff.1 h
    cases h
    obtain ⟨classes, events, hget, rfl⟩ := classText_eq_ok htext
    exact ⟨entry, classes, events, hget, rfl⟩

theorem locateMethod_eq_ok {r r' : Run} {e : Entity} {name : Text} {p : Pattern}
    {found : Option (Location × Match)} (h : r.locateMethod e name p = .ok (found, r')) :
    ∃ entry classes events, r.classes.get e.enclosing none 0 = .ok (entry, classes) ∧
      ((entry = none ∧ found = none ∧ r' = { r with classes, events }) ∨
        ∃ body cursor, entry = some body ∧
          (r.classCursor e.enclosing body).resolve p r.lines = .ok (found, cursor) ∧
          r' = { r.setClassCursor e.enclosing cursor with classes, events }) := by
  obtain ⟨⟨entry, r₁⟩, htext, h⟩ := bind_eq_ok_iff.1 h
  obtain ⟨classes, events, hget, rfl⟩ := classText_eq_ok htext
  cases entry with
  | none =>
    cases h
    exact ⟨none, classes, _, hget, Or.inl ⟨rfl, rfl, rfl⟩⟩
  | some body =>
    obtain ⟨⟨found', cursor⟩, hresolve, h⟩ := bind_eq_ok_iff.1 h
    cases h
    split
    · exact ⟨some body, classes, _, hget, Or.inr ⟨body, cursor, rfl, hresolve, rfl⟩⟩
    · exact ⟨some body, classes, _, hget, Or.inr ⟨body, cursor, rfl, hresolve, rfl⟩⟩

theorem locateTopLevel_eq_ok {r r' : Run} {e : Entity} {name : Text} {p : Pattern}
    {found : Option (Location × Match)} (h : r.locateTopLevel e name p = .ok (found, r')) :
    ∃ topLevel classes events, r.topLevel.resolve p r.lines = .ok (found, topLevel) ∧
      r' = { r with classes, topLevel, events } ∧
      (∀ l m, found = some (l, m) → e.kind = .classDecl →
        ∃ entry, r.classes.get (some name) (some p) m.index = .ok (entry, classes)) ∧
      (found = none ∨ e.kind ≠ .classDecl → classes = r.classes) := by
  obtain ⟨⟨found', topLevel⟩, hresolve, h⟩ := bind_eq_ok_iff.1 h
  cases found' with
  | none =>
    cases h
    exact ⟨topLevel, r.classes, _, hresolve, rfl, fun l m h => (by cases h), fun _ => rfl⟩
  | some lm =>
    obtain ⟨l, m⟩ := lm
    simp only at h
    split at h
    · rename_i hkind
      obtain ⟨r₁, hclass, h⟩ := bind_eq_ok_iff.1 h
      cases h
      obtain ⟨entry, classes, events, hget, rfl⟩ := isolateClass_eq_ok hclass
      refine ⟨topLevel, classes, events, hresolve, rfl, ?_, ?_⟩
      · rintro l m ⟨⟩ -
        exact ⟨entry, hget⟩
      · rintro (hnone | hne)
        · cases hnone
        · exact absurd hkind hne
    · rename_i hkind
      cases h
      exact ⟨topLevel, r.classes, _, hresolve, rfl, fun l m _ h => absurd h hkind, fun _ => rfl⟩

/-- Every step of a run is one of the six. -/
theorem step_eq_ok {tabSize : Nat} {r r' : Run} {e : Entity} {outcome : Option Descriptor}
    (h : r.step tabSize e = .ok (outcome, r')) : Step tabSize r e outcome r' := by
  obtain ⟨name, hname, h⟩ := bind_eq_ok_iff.1 h
  obtain ⟨pattern, hpattern, h⟩ := bind_eq_ok_iff.1 h
  cases pattern with
  | error parameter =>
    cases h
    exact .unmodelled hpattern
  | ok p =>
    obtain ⟨⟨found, r₁⟩, hlocate, h⟩ := bind_eq_ok_iff.1 h
    unfold locate at hlocate
    split at hlocate
    · rename_i hkind
      obtain ⟨entry, classes, events, hget, hcases⟩ := locateMethod_eq_ok hlocate
      rcases hcases with ⟨rfl, rfl, rfl⟩ | ⟨body, cursor, rfl, hresolve, rfl⟩
      · cases h
        exact .classless hkind hpattern hget
      · cases found with
        | none =>
          cases h
          exact .absent hkind hpattern hget hresolve
        | some lm =>
          obtain ⟨params, hparams, h⟩ := bind_eq_ok_iff.1 h
          cases h
          exact .inside hkind hname hpattern hparams hget hresolve
    · rename_i hkind
      obtain ⟨topLevel, classes, events, hresolve, rfl, hclass, hsame⟩ :=
        locateTopLevel_eq_ok hlocate
      cases found with
      | none =>
        cases h
        rw [hsame (Or.inl rfl)]
        exact .missing hkind hpattern hresolve
      | some lm =>
        obtain ⟨params, hparams, h⟩ := bind_eq_ok_iff.1 h
        cases h
        exact .located hkind hname hpattern hparams hresolve (hclass _ _ rfl)
          (fun hne => hsame (Or.inr hne))

/-! ## Steps that return -/

theorem classText_of_get {r : Run} {name : Option Text} {header : Option Pattern} {start : Nat}
    {entry : Option ClassText} {classes : ClassIndex}
    (h : r.classes.get name header start = .ok (entry, classes)) :
    ∃ events, r.classText name header start = .ok (entry, { r with classes, events }) := by
  unfold classText
  rw [h]
  simp only [Bind.bind, Except.bind, pure, Except.pure]
  split
  · exact ⟨_, rfl⟩
  · exact ⟨_, rfl⟩

theorem isolateClass_of_get {r : Run} {name : Text} {p : Pattern} {m : Match}
    {entry : Option ClassText} {classes : ClassIndex}
    (h : r.classes.get (some name) (some p) m.index = .ok (entry, classes)) :
    ∃ events, r.isolateClass name p m = .ok { r with classes, events } := by
  unfold isolateClass
  split
  · rename_i hknown
    rw [ClassIndex.contains_eq_isSome_lookup] at hknown
    rcases Option.isSome_iff_exists.1 hknown with ⟨known, hlookup⟩
    rw [ClassIndex.get, hlookup] at h
    cases h
    exact ⟨_, rfl⟩
  · rcases classText_of_get h with ⟨events, htext⟩
    exact ⟨events, bind_eq_ok_iff.2 ⟨_, htext, rfl⟩⟩

/-- The search for a method once its class is found. -/
theorem locateMethod_of_classText {r r₁ : Run} {e : Entity} (name : Text) (p : Pattern)
    {body : ClassText} (h : r.classText e.enclosing none 0 = .ok (some body, r₁)) :
    r.locateMethod e name p =
      (r₁.classCursor e.enclosing body).resolve p r₁.lines >>= fun result =>
        let r' := r₁.setClassCursor e.enclosing result.2
        pure (result.1,
          if result.1.isNone then r'.report (.noMatch e.kind.label name p.render) else r') := by
  unfold locateMethod
  rw [h]
  rfl

/-- What is left of a step once the name and the pattern of the entity are known. -/
theorem step_of_pattern {r : Run} {tabSize : Nat} {e : Entity} {name : Text} {p : Pattern}
    (hname : e.name = .ok name) (hpattern : e.pattern tabSize = .ok (.ok p)) :
    r.step tabSize e =
      r.locate e name p >>= fun result =>
        match result.1 with
        | none => pure (none, result.2)
        | some lm => e.parameters >>= fun params =>
          pure (some (e.describe name params lm.1 lm.2.text), result.2) := by
  unfold step
  rw [hname, hpattern]
  simp only [Bind.bind, Except.bind]
  cases r.locate e name p with
  | error fault => rfl
  | ok result =>
    rcases result with ⟨found, r'⟩
    cases found with
    | none => rfl
    | some lm => rfl

/-- Every step of the six is made, if the entity has a name. -/
theorem Step.returns {tabSize : Nat} {r r' : Run} {e : Entity} {outcome : Option Descriptor}
    (h : Step tabSize r e outcome r') {name : Text} (hname : e.name = .ok name) :
    ∃ events, r.step tabSize e = .ok (outcome, { r' with events }) := by
  cases h with
  | @unmodelled parameter _ hp =>
    refine ⟨.unmodelled e.kind.label name :: .noPattern e.kind.label parameter :: r.events, ?_⟩
    unfold step
    rw [hname, hp]
    rfl
  | @missing p _ _ hkind hp hresolve =>
    refine ⟨.noMatch e.kind.label name p.render :: r.events, ?_⟩
    rw [step_of_pattern hname hp, locate, if_neg hkind, locateTopLevel, hresolve]
    rfl
  | @located p _ params l m classes topLevel _ hkind hname' hp hparams hresolve hclass hother =>
    rw [hname] at hname'
    cases hname'
    rw [step_of_pattern hname hp, locate, if_neg hkind, locateTopLevel, hresolve, hparams]
    by_cases hdeclares : e.kind = .classDecl
    · rcases hclass hdeclares with ⟨entry, hget⟩
      rcases isolateClass_of_get (r := { r with topLevel }) hget with ⟨events, hisolate⟩
      refine ⟨events, ?_⟩
      simp only [Bind.bind, Except.bind, if_pos hdeclares, hisolate]
      rfl
    · refine ⟨r.events, ?_⟩
      simp only [Bind.bind, Except.bind, if_neg hdeclares, hother hdeclares]
      rfl
  | classless hkind hp hget =>
    rcases classText_of_get hget with ⟨events, htext⟩
    refine ⟨.methodWithoutClass name e.enclosing :: events, ?_⟩
    rw [step_of_pattern hname hp, locate, if_pos hkind, locateMethod, htext]
    rfl
  | @absent p body classes cursor _ hkind hp hget hresolve =>
    rcases classText_of_get hget with ⟨events, htext⟩
    refine ⟨.noMatch e.kind.label name p.render :: events, ?_⟩
    have hsame : ({ r with classes, events } : Run).classCursor e.enclosing body =
        r.classCursor e.enclosing body := rfl
    rw [step_of_pattern hname hp, locate, if_pos hkind, locateMethod_of_classText name p htext,
      hsame, hresolve]
    rfl
  | @inside p _ params l m body classes cursor _ hkind hname' hp hparams hget hresolve =>
    rw [hname] at hname'
    cases hname'
    rcases classText_of_get hget with ⟨events, htext⟩
    refine ⟨events, ?_⟩
    have hsame : ({ r with classes, events } : Run).classCursor e.enclosing body =
        r.classCursor e.enclosing body := rfl
    rw [step_of_pattern hname hp, locate, if_pos hkind, locateMethod_of_classText name p htext,
      hsame, hresolve, hparams]
    rfl

/-! ## The invariant of a run -/

/-- The state of a run over a text: all class texts are parts of it, and each cursor stands over
the text, or over the class text that its class has. -/
structure Sound (r : Run) (text : Text) : Prop where
  lines : r.lines = text.lines
  classes_text : r.classes.text = text
  classes : r.classes.Sound
  topLevel_text : r.topLevel.text = text
  topLevel_offset : r.topLevel.offset = 0
  inClass : ∀ name c, r.inClass.lookup name = some c → ∃ body,
    r.classes.entries.lookup name = some (some body) ∧ c.text = body.text ∧ c.offset = body.start

theorem sound_start (text : Text) : (Run.start text).Sound text :=
  ⟨rfl, rfl, ClassIndex.sound_ofText text, rfl, rfl, fun name c h => by cases h⟩

theorem Sound.topLevel_within {r : Run} {text : Text} (h : r.Sound text) :
    r.topLevel.Within text := by
  constructor
  · exact Int.le_of_eq h.topLevel_offset.symm
  · rw [h.topLevel_offset, h.topLevel_text]
    simp

/-- A class text that a look-up gives is a part of the text. -/
theorem Sound.cutFrom {r : Run} {text : Text} (h : r.Sound text) {name : Option Text}
    {body : ClassText} {classes : ClassIndex}
    (hget : r.classes.get name none 0 = .ok (some body, classes)) : body.CutFrom text := by
  have hsound := h.classes.get (fun p hp => (by cases hp)) hget
  have hcut := hsound name body (ClassIndex.lookup_of_get hget)
  rwa [ClassIndex.text_of_get hget, h.classes_text] at hcut

/-- The cursor of a class stands over the text that its class has. -/
theorem Sound.classCursor {r : Run} {text : Text} (h : r.Sound text) {name : Option Text}
    {body : ClassText} {classes : ClassIndex}
    (hget : r.classes.get name none 0 = .ok (some body, classes)) :
    (r.classCursor name body).text = body.text ∧
      (r.classCursor name body).offset = body.start := by
  unfold Run.classCursor
  cases hcursor : r.inClass.lookup name with
  | none => exact ⟨rfl, rfl⟩
  | some c =>
    obtain ⟨body', hbody', htext, hoffset⟩ := h.inClass name c hcursor
    have hsame := ClassIndex.lookup_mono_of_get hget hbody'
    rw [ClassIndex.lookup_of_get hget] at hsame
    cases hsame
    exact ⟨htext, hoffset⟩

theorem Sound.classCursor_within {r : Run} {text : Text} (h : r.Sound text) {name : Option Text}
    {body : ClassText} {classes : ClassIndex}
    (hget : r.classes.get name none 0 = .ok (some body, classes)) :
    (r.classCursor name body).Within text := by
  obtain ⟨htext, hoffset⟩ := h.classCursor hget
  have hle := (h.cutFrom hget).le_length
  constructor
  · rw [hoffset]
    exact Int.natCast_nonneg _
  · rw [hoffset, htext, Int.toNat_natCast]
    exact hle

/-- Remembering the cursor of one class leaves those of the others as they are. -/
theorem lookup_setClassCursor_ne (r : Run) {name other : Option Text} (cursor : Cursor)
    (hne : other ≠ name) :
    (r.setClassCursor name cursor).inClass.lookup other = r.inClass.lookup other := by
  have hfilter : ∀ cursors : List (Option Text × Cursor),
      (cursors.filter (·.1 != name)).lookup other = cursors.lookup other := by
    intro cursors
    induction cursors with
    | nil => rfl
    | cons entry rest ih =>
      obtain ⟨key, c⟩ := entry
      by_cases hkey : key = name
      · subst hkey
        simp [List.lookup_cons, beq_eq_false_iff_ne.2 hne, ih]
      · simp [List.lookup_cons, hkey, ih]
  simp only [setClassCursor, List.lookup_cons, beq_eq_false_iff_ne.2 hne]
  exact hfilter r.inClass

/-- Remembering a cursor over the text of its class keeps the cursors of the run sound. -/
theorem Sound.setClassCursor {r : Run} {text : Text} (h : r.Sound text) {name : Option Text}
    {body : ClassText} {classes : ClassIndex} {cursor : Cursor} {events : List Event}
    (hget : r.classes.get name none 0 = .ok (some body, classes))
    (htext : cursor.text = body.text) (hoffset : cursor.offset = body.start) :
    Sound { r.setClassCursor name cursor with classes, events } text := by
  refine ⟨h.lines, ?_, h.classes.get (fun p hp => (by cases hp)) hget, h.topLevel_text,
    h.topLevel_offset, ?_⟩
  · rw [ClassIndex.text_of_get hget, h.classes_text]
  · intro other c hc
    by_cases hother : other = name
    · subst hother
      simp only [Run.setClassCursor, List.lookup_cons_self] at hc
      cases hc
      exact ⟨body, ClassIndex.lookup_of_get hget, htext, hoffset⟩
    · rw [r.lookup_setClassCursor_ne cursor hother] at hc
      obtain ⟨body', hbody', hrest⟩ := h.inClass other c hc
      exact ⟨body', ClassIndex.lookup_mono_of_get hget hbody', hrest⟩

/-- A search moves a cursor, but not off its text. -/
theorem text_of_resolve {c c' : Cursor} {whole : Text} (hc : c.Within whole) {p : Pattern}
    (hp : p.Anchored) {found : Option (Location × Match)}
    (h : c.resolve p whole.lines = .ok (found, c')) : c'.text = c.text ∧ c'.offset = c.offset := by
  obtain ⟨hsome, hnone⟩ := Cursor.resolve_spec hc hp h
  cases found with
  | none =>
    rw [(hnone rfl).1]
    exact ⟨rfl, rfl⟩
  | some lm =>
    rw [(hsome lm.1 lm.2 rfl).2.1]
    exact ⟨rfl, rfl⟩

/-- Every step keeps a run sound. -/
theorem Sound.step {tabSize : Nat} {r r' : Run} {e : Entity} {outcome : Option Descriptor}
    {text : Text} (h : r.Sound text) (hstep : Step tabSize r e outcome r') : r'.Sound text := by
  cases hstep with
  | unmodelled _ => exact ⟨h.lines, h.classes_text, h.classes, h.topLevel_text, h.topLevel_offset,
      h.inClass⟩
  | missing _ hp hresolve =>
    rw [h.lines] at hresolve
    obtain ⟨htext, hoffset⟩ :=
      text_of_resolve h.topLevel_within (Entity.pattern_anchored hp) hresolve
    exact ⟨h.lines, h.classes_text, h.classes, htext.trans h.topLevel_text,
      hoffset.trans h.topLevel_offset, h.inClass⟩
  | @located p name params l m classes topLevel events _ hname hp hparams hresolve hclass hother =>
    rw [h.lines] at hresolve
    obtain ⟨htext, hoffset⟩ :=
      text_of_resolve h.topLevel_within (Entity.pattern_anchored hp) hresolve
    by_cases hkind : e.kind = .classDecl
    · -- The header of a located class opens it.
      obtain ⟨entry, hget⟩ := hclass hkind
      have hheader : ∀ q, some p = some q → q.Anchored ∧ q.OpensClass := by
        rintro q ⟨⟩
        exact ⟨Entity.pattern_anchored hp, Entity.pattern_opensClass hkind hp⟩
      refine ⟨h.lines, (ClassIndex.text_of_get hget).trans h.classes_text,
        h.classes.get hheader hget, htext.trans h.topLevel_text,
        hoffset.trans h.topLevel_offset, fun other c hc => ?_⟩
      obtain ⟨body, hbody, hrest⟩ := h.inClass other c hc
      exact ⟨body, ClassIndex.lookup_mono_of_get hget hbody, hrest⟩
    · rw [hother hkind]
      exact ⟨h.lines, h.classes_text, h.classes, htext.trans h.topLevel_text,
        hoffset.trans h.topLevel_offset, h.inClass⟩
  | classless _ _ hget =>
    refine ⟨h.lines, (ClassIndex.text_of_get hget).trans h.classes_text,
      h.classes.get (fun p hp => (by cases hp)) hget, h.topLevel_text, h.topLevel_offset,
      fun other c hc => ?_⟩
    obtain ⟨body, hbody, hrest⟩ := h.inClass other c hc
    exact ⟨body, ClassIndex.lookup_mono_of_get hget hbody, hrest⟩
  | absent _ hp hget hresolve =>
    rw [h.lines] at hresolve
    obtain ⟨htext, hoffset⟩ :=
      text_of_resolve (h.classCursor_within hget) (Entity.pattern_anchored hp) hresolve
    obtain ⟨hbody, hstart⟩ := h.classCursor hget
    exact h.setClassCursor hget (htext.trans hbody) (hoffset.trans hstart)
  | inside _ _ hp _ hget hresolve =>
    rw [h.lines] at hresolve
    obtain ⟨htext, hoffset⟩ :=
      text_of_resolve (h.classCursor_within hget) (Entity.pattern_anchored hp) hresolve
    obtain ⟨hbody, hstart⟩ := h.classCursor hget
    exact h.setClassCursor hget (htext.trans hbody) (hoffset.trans hstart)

end Run

/-! ## The visits of a run -/

/-- One entity of a run: the state it meets, and its descriptor if it is located. -/
structure Visit where
  state : Run
  entity : Entity
  outcome : Option Descriptor

namespace Run

/-- The entities in turn, with what becomes of each. -/
def visits (tabSize : Nat) : Run → List Entity → Except Fault (List Visit)
  | _, [] => .ok []
  | r, e :: rest => do
    let (outcome, r') ← r.step tabSize e
    return ⟨r, e, outcome⟩ :: (← visits tabSize r' rest)

theorem visits_cons_eq_ok {tabSize : Nat} {r : Run} {e : Entity} {rest : List Entity}
    {vs : List Visit} (h : visits tabSize r (e :: rest) = .ok vs) :
    ∃ outcome r' more, r.step tabSize e = .ok (outcome, r') ∧
      visits tabSize r' rest = .ok more ∧ vs = ⟨r, e, outcome⟩ :: more := by
  obtain ⟨⟨outcome, r'⟩, hstep, h⟩ := bind_eq_ok_iff.1 h
  obtain ⟨more, hmore, h⟩ := bind_eq_ok_iff.1 h
  cases h
  exact ⟨outcome, r', more, hstep, hmore, rfl⟩

/-- There is one visit for each entity. -/
theorem entities_of_visits {tabSize : Nat} {r : Run} {entities : List Entity} {vs : List Visit}
    (h : visits tabSize r entities = .ok vs) : vs.map (·.entity) = entities := by
  induction entities generalizing r vs with
  | nil =>
    cases h
    rfl
  | cons e rest ih =>
    obtain ⟨outcome, r', more, -, hmore, rfl⟩ := visits_cons_eq_ok h
    rw [List.map_cons, ih hmore]

/-- The visits are the run: they are made by the same steps, and the descriptors of the run are
those of the visits. -/
theorem steps_eq_ok {tabSize : Nat} {r r' : Run} {entities : List Entity} {ds : List Descriptor}
    (h : steps tabSize r entities = .ok (ds, r')) :
    ∃ vs, visits tabSize r entities = .ok vs ∧ vs.filterMap (·.outcome) = ds := by
  induction entities generalizing r ds with
  | nil =>
    cases h
    exact ⟨[], rfl, rfl⟩
  | cons e rest ih =>
    obtain ⟨⟨outcome, r₁⟩, hstep, h⟩ := bind_eq_ok_iff.1 h
    obtain ⟨⟨more, r₂⟩, hmore, h⟩ := bind_eq_ok_iff.1 h
    cases h
    obtain ⟨vs, hvs, hds⟩ := ih hmore
    refine ⟨⟨r, e, outcome⟩ :: vs, ?_, ?_⟩
    · exact bind_eq_ok_iff.2 ⟨_, hstep, bind_eq_ok_iff.2 ⟨_, hvs, rfl⟩⟩
    · rw [← hds]
      cases outcome with
      | none => rfl
      | some d => rfl

theorem steps_of_visits {tabSize : Nat} {r : Run} {entities : List Entity} {vs : List Visit}
    (h : visits tabSize r entities = .ok vs) :
    ∃ r', steps tabSize r entities = .ok (vs.filterMap (·.outcome), r') := by
  induction entities generalizing r vs with
  | nil =>
    cases h
    exact ⟨r, rfl⟩
  | cons e rest ih =>
    rcases visits_cons_eq_ok h with ⟨outcome, r₁, more, hstep, hmore, rfl⟩
    rcases ih hmore with ⟨r', hrest⟩
    refine ⟨r', bind_eq_ok_iff.2 ⟨_, hstep, bind_eq_ok_iff.2 ⟨_, hrest, ?_⟩⟩⟩
    cases outcome with
    | none => rfl
    | some d => rfl

/-- What every step keeps holds at every visit. -/
theorem invariant_of_mem_visits {tabSize : Nat} (Inv : Run → Prop)
    (hstep : ∀ r e outcome r', Step tabSize r e outcome r' → Inv r → Inv r') {r : Run}
    {entities : List Entity} {vs : List Visit} (h : visits tabSize r entities = .ok vs)
    (hr : Inv r) (v : Visit) (hv : v ∈ vs) : Inv v.state := by
  induction entities generalizing r vs with
  | nil =>
    cases h
    cases hv
  | cons e rest ih =>
    obtain ⟨outcome, r', more, hone, hmore, rfl⟩ := visits_cons_eq_ok h
    rcases List.mem_cons.1 hv with rfl | hv
    · exact hr
    · exact ih hmore (hstep r e outcome r' (step_eq_ok hone) hr) hv

/-- The state of every visit is sound, and the visit is a step from there. -/
theorem sound_of_mem_visits {tabSize : Nat} {text : Text} {entities : List Entity}
    {vs : List Visit} (h : visits tabSize (.start text) entities = .ok vs) (v : Visit)
    (hv : v ∈ vs) : v.state.Sound text :=
  invariant_of_mem_visits (fun r => r.Sound text) (fun _ _ _ _ hstep hs => hs.step hstep) h
    (sound_start text) v hv

theorem step_of_mem_visits {tabSize : Nat} {r : Run} {entities : List Entity} {vs : List Visit}
    (h : visits tabSize r entities = .ok vs) (v : Visit) (hv : v ∈ vs) :
    ∃ r', Step tabSize v.state v.entity v.outcome r' := by
  induction entities generalizing r vs with
  | nil =>
    cases h
    cases hv
  | cons e rest ih =>
    obtain ⟨outcome, r', more, hone, hmore, rfl⟩ := visits_cons_eq_ok h
    rcases List.mem_cons.1 hv with rfl | hv
    · exact ⟨r', step_eq_ok hone⟩
    · exact ih hmore hv

end Run

/-- A catalogue is made exactly if the tabs of the source can be expanded and the run from the start
of the normalized text returns. -/
theorem catalog_eq_ok_iff {entities : List Entity} {source : Text} {settings : Settings}
    {ds : List Descriptor} :
    (∃ events, catalog entities source settings = .ok (ds, events)) ↔
      source.Expands settings.tabSize ∧
      ∃ vs,
        Run.visits settings.tabSize (.start (source.normalize settings.tabSize)) entities =
          .ok vs ∧
        vs.filterMap (·.outcome) = ds := by
  constructor
  · rintro ⟨events, h⟩
    obtain ⟨text, htext, h⟩ := bind_eq_ok_iff.1 h
    obtain ⟨hsource, rfl⟩ := Text.normalForm_eq_ok_iff.1 htext
    obtain ⟨⟨ds', r⟩, hsteps, h⟩ := bind_eq_ok_iff.1 h
    cases h
    obtain ⟨vs, hvs, hds⟩ := Run.steps_eq_ok hsteps
    exact ⟨hsource, vs, hvs, hds⟩
  · rintro ⟨hsource, vs, hvs, rfl⟩
    obtain ⟨r, hsteps⟩ := Run.steps_of_visits hvs
    exact ⟨_, bind_eq_ok_iff.2 ⟨_, hsource.normalForm, bind_eq_ok_iff.2 ⟨_, hsteps, rfl⟩⟩⟩

/-- A catalogue comes from the visits of a run from the start of the normalized text. -/
theorem catalog_eq_ok {entities : List Entity} {source : Text} {settings : Settings}
    {ds : List Descriptor} {events : List Event}
    (h : catalog entities source settings = .ok (ds, events)) :
    ∃ vs,
      Run.visits settings.tabSize (.start (source.normalize settings.tabSize)) entities = .ok vs ∧
      vs.map (·.entity) = entities ∧ vs.filterMap (·.outcome) = ds := by
  obtain ⟨-, vs, hvs, hds⟩ := catalog_eq_ok_iff.1 ⟨events, h⟩
  exact ⟨vs, hvs, Run.entities_of_visits hvs, hds⟩

/-- The catalogue of a tree is that of the entities discovered in it. -/
theorem catalogTree_eq_ok {root : Node} {source : Text} {settings : Settings}
    {ds : List Descriptor} {events : List Event}
    (h : catalogTree root source settings = .ok (ds, events)) :
    ∃ entities rest, discover root settings.includeExports = .ok entities ∧
      catalog entities source settings = .ok (ds, rest) := by
  obtain ⟨entities, hdiscover, h⟩ := bind_eq_ok_iff.1 h
  obtain ⟨⟨ds', rest⟩, hcatalog, h⟩ := bind_eq_ok_iff.1 h
  cases h
  exact ⟨entities, rest, hdiscover, hcatalog⟩

/-- The visits of a run that makes the catalogue of a tree. -/
structure CatalogRun (root : Node) (source : Text) (settings : Settings) (ds : List Descriptor)
    (entities : List Entity) (vs : List Visit) : Prop where
  discovered : discover root settings.includeExports = .ok entities
  visited : Run.visits settings.tabSize (.start (source.normalize settings.tabSize)) entities =
    .ok vs
  entities : vs.map (·.entity) = entities
  outcomes : vs.filterMap (·.outcome) = ds

theorem catalogRun_of_catalogTree {root : Node} {source : Text} {settings : Settings}
    {ds : List Descriptor} {events : List Event}
    (h : catalogTree root source settings = .ok (ds, events)) :
    ∃ entities vs, CatalogRun root source settings ds entities vs := by
  obtain ⟨entities, rest, hdiscover, hcatalog⟩ := catalogTree_eq_ok h
  obtain ⟨vs, hvs, hentities, hds⟩ := catalog_eq_ok hcatalog
  exact ⟨entities, vs, hdiscover, hvs, hentities, hds⟩

/-- If the tabs of the source can be expanded, a run that returns makes the catalogue of the
tree. -/
theorem catalogTree_of_visits {root : Node} {source : Text} {settings : Settings}
    {entities : List Entity} {vs : List Visit} (hsource : source.Expands settings.tabSize)
    (hdiscover : discover root settings.includeExports = .ok entities)
    (h : Run.visits settings.tabSize (.start (source.normalize settings.tabSize)) entities =
      .ok vs) :
    ∃ events, catalogTree root source settings = .ok (vs.filterMap (·.outcome), events) := by
  obtain ⟨events, hcatalog⟩ := catalog_eq_ok_iff.2 ⟨hsource, vs, h, rfl⟩
  exact ⟨_, bind_eq_ok_iff.2 ⟨_, hdiscover, bind_eq_ok_iff.2 ⟨_, hcatalog, rfl⟩⟩⟩

end HeaderCatalog
