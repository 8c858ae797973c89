import HeaderCatalog.Proofs.HeaderShape
import HeaderCatalog.Proofs.SourceTrees
import HeaderCatalog.Proofs.Visits
import HeaderCatalog.Proofs.Widening.Places

/-!
# HeaderCatalog.Proofs.Widening.Runs — a run over a text with expanded tabs

The run over the expanded text is the image of the run over the text, state by state:
`Run.step_widen` for one entity, `Run.steps_widen` for a list of them. What the states keep to
make this true is `Run.Placed`: all resume points lie in the texts that they are kept for.

`catalog_widen` is what follows for catalogues, as long as neither a text that the entities bring
into their headers nor the name of a method's class has a space or a tab in it: expanding tabs
changes the columns and the tabs in the headers, and nothing else.
-/

namespace HeaderCatalog

variable {k : Nat}

/-! ## Patterns without tabs -/

theorem Text.Plain.normalize {text : Text} (h : text.Plain) (k : Nat) :
    Text.normalize k text = text.normalize 0 := by
  rw [Text.normalize_eq_widen, Text.normalize_zero]
  apply Text.widen_eq_self
  intro hmem
  exact h.2 (List.mem_of_mem_filter hmem)

theorem Text.Plain.normalize_zero {text : Text} (h : text.Plain) :
    (Text.normalize 0 text).Plain := by
  rw [Text.normalize_zero]
  exact ⟨fun hmem => h.1 (List.mem_of_mem_filter hmem),
    fun hmem => h.2 (List.mem_of_mem_filter hmem)⟩

/-- A plain text has one normal form for all tab sizes that a text can have. -/
theorem Text.Plain.normalForm {text : Text} (h : text.Plain)
    (hk : Text.Fits (List.replicate k ' ')) : text.normalForm k = text.normalForm 0 := by
  have hwide : Text.reserve 1 k .tabsTooWide = .ok () :=
    Text.reserve_eq_ok_iff.2 (Text.fits_spaces_iff.1 hk)
  have hnone : Text.reserve 1 0 .tabsTooWide = .ok () := by decide
  unfold Text.normalForm
  rw [hwide, hnone, ← Text.length_normalize, ← Text.length_normalize, h.normalize k]

theorem Pattern.Plain.normalForm {p : Pattern} (h : p.Plain)
    (hk : Text.Fits (List.replicate k ' ')) : p.normalForm k = p.normalForm 0 := by
  rcases p with ⟨tokens⟩
  unfold Pattern.normalForm
  congr 1
  induction tokens with
  | nil => rfl
  | cons t ts ih =>
    rcases List.forall_mem_cons.1 h with ⟨ht, hts⟩
    rw [List.mapM_cons, List.mapM_cons, ht.normalForm hk, ih hts]

/-- The header of an entity that quotes plain texts is plain. -/
theorem Entity.header_plain {e : Entity} (hquotes : ∀ t, e.Quotes t → t.Plain) {p : Pattern}
    (h : e.header = .ok p) : p.Plain := by
  have hmarks : ∀ t ∈ Pattern.marks, t.Plain := by decide
  rcases header_grown hmarks hquotes h with ⟨q, hq, rfl | rfl⟩
  · exact (hq.lit (hmarks _ (by decide))).ok_literal hmarks
  · exact (hq.lit (hmarks _ (by decide))).ok_literal hmarks

/-- An entity that quotes plain texts has one pattern for all tab sizes that a text can have. -/
theorem Entity.pattern_of_plain {e : Entity} (hquotes : ∀ t, e.Quotes t → t.Plain)
    (hk : Text.Fits (List.replicate k ' ')) : e.pattern k = e.pattern 0 := by
  unfold Entity.pattern
  cases hheader : e.header with
  | error fault =>
    cases fault with
    | _ => rfl
  | ok p =>
    simp only
    rw [(header_plain hquotes hheader).normalForm hk]

theorem Entity.pattern_plain {e : Entity} (hquotes : ∀ t, e.Quotes t → t.Plain) {p : Pattern}
    (h : e.pattern 0 = .ok (.ok p)) : p.Plain := by
  rcases header_of_pattern h with ⟨q, hheader, rfl⟩
  intro t ht
  rcases List.mem_map.1 ht with ⟨u, hu, rfl⟩
  exact (header_plain hquotes hheader u hu).normalize_zero

theorem Entity.name_plain {e : Entity} (hquotes : ∀ t, e.Quotes t → t.Plain) {name : Text}
    (h : e.name = .ok name) : name.Plain := by
  unfold Entity.name at h
  cases hnode : e.node.fieldChild? "name" with
  | none =>
    rw [hnode] at h
    cases h
    exact ⟨List.not_mem_nil, List.not_mem_nil⟩
  | some n =>
    rw [hnode] at h
    apply hquotes
    apply Quotes.name
    rw [hnode]
    exact h

/-! ## The class index -/

/-- Two computations in lock step: if the results of the first parts correspond, and the second
parts keep them so, the results of the whole correspond. -/
theorem bind_map_eq {α β γ δ : Type} {x : Except Fault α} {f : α → β} {g : γ → δ}
    {after : α → Except Fault γ} {after' : β → Except Fault δ}
    (h : ∀ a, x = .ok a → after' (f a) = (after a).map g) :
    (x.map f >>= after') = (x >>= after).map g := by
  cases x with
  | error fault => rfl
  | ok a => exact h a rfl

theorem lookup_map_snd {α β γ : Type} [BEq α] (f : β → γ) (entries : List (α × β)) (key : α) :
    (entries.map fun entry => (entry.1, f entry.2)).lookup key = (entries.lookup key).map f := by
  induction entries with
  | nil => rfl
  | cons entry entries ih =>
    rw [List.map_cons, List.lookup_cons, List.lookup_cons, ih]
    split
    · rfl
    · rfl

namespace ClassIndex

/-- The index of the expanded text. -/
def widen (k : Nat) (index : ClassIndex) : ClassIndex :=
  ⟨index.text.widen k,
    index.entries.map fun entry => (entry.1, entry.2.map (ClassText.widen k index.text))⟩

theorem contains_widen (index : ClassIndex) (name : Option Text) :
    (index.widen k).contains name = index.contains name := by
  simp only [contains, widen, List.any_map]
  rfl

theorem isolate_widen (index : ClassIndex) {name : Option Text} {header : Option Pattern}
    {start : Nat} (hname : ∀ n, name = some n → n.Plain)
    (hheader : ∀ p, header = some p → p.Plain ∧ p.Anchored) (hstart : start ≤ index.text.length) :
    (index.widen k).isolate name header (index.text.shift k start) =
      (index.isolate name header start).map (Option.map (ClassText.widen k index.text)) := by
  cases header with
  | some p =>
    rcases hheader p rfl with ⟨hplain, hanchored⟩
    exact ClassText.isolate_widen hplain hanchored hstart
  | none =>
    cases name with
    | some n =>
      exact ClassText.isolate_widen (ClassText.plain_opening (hname n rfl))
        (Pattern.anchored_opening n) hstart
    | none => exact ClassText.isolateNameless_widen index.text hstart

/-- A look-up in the index of the expanded text. -/
theorem get_widen (index : ClassIndex) {name : Option Text} {header : Option Pattern}
    {start : Nat} (hname : ∀ n, name = some n → n.Plain)
    (hheader : ∀ p, header = some p → p.Plain ∧ p.Anchored) (hstart : start ≤ index.text.length) :
    (index.widen k).get name header (index.text.shift k start) =
      (index.get name header start).map fun result =>
        (result.1.map (ClassText.widen k index.text), result.2.widen k) := by
  have hlookup : (index.widen k).entries.lookup name =
      (index.entries.lookup name).map (Option.map (ClassText.widen k index.text)) :=
    lookup_map_snd _ _ _
  unfold get
  rw [hlookup, isolate_widen index hname hheader hstart]
  cases index.entries.lookup name with
  | some entry => rfl
  | none =>
    cases index.isolate name header start with
    | error fault => rfl
    | ok entry =>
      simp only [Except.map, Option.map_none, Bind.bind, Except.bind, pure, Except.pure, widen,
        List.map_append, List.map_cons, List.map_nil]

end ClassIndex

/-! ## States -/

namespace Run

/-- The state of a run over a text, with the resume points of all cursors in their texts. -/
structure Placed (r : Run) (text : Text) : Prop extends Sound r text where
  topLevel_over : r.topLevel.Over text
  inClass_over : ∀ name c, r.inClass.lookup name = some c → c.Over text

theorem placed_start (text : Text) : (Run.start text).Placed text :=
  ⟨sound_start text, Cursor.over_ofText text, fun name c h => by cases h⟩

variable {text : Text} {r : Run}

theorem Placed.classCursor (h : r.Placed text) {name : Option Text} {body : ClassText}
    {classes : ClassIndex} (hget : r.classes.get name none 0 = .ok (some body, classes)) :
    (r.classCursor name body).Over text := by
  unfold Run.classCursor
  cases hcursor : r.inClass.lookup name with
  | none => exact Cursor.over_ofClassText (h.toSound.cutFrom hget)
  | some c => exact h.inClass_over name c hcursor

theorem Placed.lookup_setClassCursor (h : r.Placed text) {name : Option Text} {cursor : Cursor}
    (hcursor : cursor.Over text) (other : Option Text) (c : Cursor)
    (hc : (r.setClassCursor name cursor).inClass.lookup other = some c) : c.Over text := by
  by_cases hother : other = name
  · subst hother
    simp only [Run.setClassCursor, List.lookup_cons_self] at hc
    cases hc
    exact hcursor
  · rw [r.lookup_setClassCursor_ne cursor hother] at hc
    exact h.inClass_over other c hc

/-- Every step keeps the resume points in their texts. -/
theorem Placed.step {tabSize : Nat} {r' : Run} {e : Entity} {outcome : Option Descriptor}
    (h : r.Placed text) (hstep : Step tabSize r e outcome r') : r'.Placed text := by
  have hsound := h.toSound.step hstep
  cases hstep with
  | unmodelled _ => exact ⟨hsound, h.topLevel_over, h.inClass_over⟩
  | missing _ hp hresolve =>
    rw [h.lines] at hresolve
    exact ⟨hsound, h.topLevel_over.resolve (Entity.pattern_anchored hp) hresolve, h.inClass_over⟩
  | located _ _ hp _ hresolve _ _ =>
    rw [h.lines] at hresolve
    exact ⟨hsound, h.topLevel_over.resolve (Entity.pattern_anchored hp) hresolve, h.inClass_over⟩
  | classless _ _ _ => exact ⟨hsound, h.topLevel_over, h.inClass_over⟩
  | absent _ hp hget hresolve =>
    rw [h.lines] at hresolve
    have hover := (h.classCursor hget).resolve (Entity.pattern_anchored hp) hresolve
    exact ⟨hsound, h.topLevel_over, h.lookup_setClassCursor hover⟩
  | inside _ _ hp _ hget hresolve =>
    rw [h.lines] at hresolve
    have hover := (h.classCursor hget).resolve (Entity.pattern_anchored hp) hresolve
    exact ⟨hsound, h.topLevel_over, h.lookup_setClassCursor hover⟩

/-- The state over the expanded text. -/
def widen (k : Nat) (text : Text) (r : Run) : Run :=
  ⟨(text.widen k).lines, r.classes.widen k, r.topLevel.widen k text,
    r.inClass.map fun entry => (entry.1, entry.2.widen k text), r.events⟩

theorem start_widen (text : Text) : (Run.start text).widen k text = Run.start (text.widen k) := by
  simp [widen, start, Cursor.widen, Cursor.ofText, ClassIndex.widen, ClassIndex.ofText]

theorem setClassCursor_widen (name : Option Text) (cursor : Cursor) :
    (r.widen k text).setClassCursor name (cursor.widen k text) =
      (r.setClassCursor name cursor).widen k text := by
  simp only [setClassCursor, widen, List.map_cons, List.filter_map]
  rfl

theorem classCursor_widen (name : Option Text) (body : ClassText) :
    (r.widen k text).classCursor name (body.widen k text) =
      (r.classCursor name body).widen k text := by
  have hlookup : (r.widen k text).inClass.lookup name =
      (r.inClass.lookup name).map (Cursor.widen k text) := lookup_map_snd _ _ _
  unfold classCursor
  rw [hlookup]
  cases r.inClass.lookup name with
  | some c => rfl
  | none => simp [Cursor.widen, Cursor.ofText, ClassText.widen]

/-! ## One entity -/

theorem classText_widen (htext : r.classes.text = text) {name : Option Text}
    {header : Option Pattern} {start : Nat} (hname : ∀ n, name = some n → n.Plain)
    (hheader : ∀ p, header = some p → p.Plain ∧ p.Anchored) (hstart : start ≤ text.length) :
    (r.widen k text).classText name header (text.shift k start) =
      (r.classText name header start).map fun result =>
        (result.1.map (ClassText.widen k text), result.2.widen k text) := by
  subst htext
  have hget := r.classes.get_widen (k := k) hname hheader hstart
  have hcontains := r.classes.contains_widen (k := k) name
  unfold classText
  simp only [widen, hcontains, hget]
  cases r.classes.get name header start with
  | error fault => rfl
  | ok result =>
    simp only [Except.map, Bind.bind, Except.bind, pure, Except.pure, Option.isNone_map]
    split
    · rfl
    · rfl

theorem isolateClass_widen (htext : r.classes.text = text) {name : Text} (hname : name.Plain)
    {p : Pattern} (hplain : p.Plain) (hp : p.Anchored) {m : Match} (hm : m.Lies text) :
    (r.widen k text).isolateClass name p (m.widen k text) =
      (r.isolateClass name p m).map (widen k text) := by
  have hcontains : (r.widen k text).classes.contains (some name) = r.classes.contains (some name) :=
    ClassIndex.contains_widen _ _
  have hnames : ∀ n, some name = some n → n.Plain := by
    rintro n ⟨⟩
    exact hname
  have hheaders : ∀ q, some p = some q → q.Plain ∧ q.Anchored := by
    rintro q ⟨⟩
    exact ⟨hplain, hp⟩
  have hclass := classText_widen (k := k) htext hnames hheaders (Nat.le_trans hm.le hm.stop_le)
  unfold isolateClass
  rw [hcontains]
  split
  · rfl
  · refine Eq.trans (congrArg (· >>= _) hclass) (bind_map_eq ?_)
    intro result _
    rfl

/-- A method in the expanded text. Its place in the text of its class is shifted there. -/
theorem locateMethod_widen (h : r.Placed text) {e : Entity}
    (hclass : ∀ n, e.enclosing = some n → n.Plain) (name : Text) {p : Pattern} (hplain : p.Plain)
    (hp : p.Anchored) :
    ∃ part, (r.widen k text).locateMethod e name p =
      (r.locateMethod e name p).map fun result =>
        (result.1.map (Cursor.widenFound k text part), result.2.widen k text) := by
  have hnone : ∀ p : Pattern, none = some p → p.Plain ∧ p.Anchored := fun p hp => by cases hp
  have hwide := classText_widen (k := k) h.classes_text hclass hnone (Nat.zero_le _)
  rw [Text.shift_zero] at hwide
  cases hone : r.classText e.enclosing none 0 with
  | error fault =>
    refine ⟨[], ?_⟩
    unfold locateMethod
    rw [hwide, hone]
    rfl
  | ok result =>
    rcases result with ⟨entry, r₁⟩
    cases entry with
    | none =>
      refine ⟨[], ?_⟩
      unfold locateMethod
      rw [hwide, hone]
      rfl
    | some body =>
      rw [hone] at hwide
      rw [locateMethod_of_classText name p hone, locateMethod_of_classText name p hwide]
      rcases classText_eq_ok hone with ⟨classes, events, hget, rfl⟩
      -- Places are counted from the start of the class text, which is shifted by itself.
      have hresolve := Cursor.resolve_widen (k := k) (h.classCursor hget) hplain hp
      rw [← classCursor_widen, ← h.lines] at hresolve
      refine ⟨(r.classCursor e.enclosing body).text, ?_⟩
      refine Eq.trans (congrArg (· >>= _) hresolve) (bind_map_eq ?_)
      intro result _
      simp only [pure, Except.pure, Except.map, Option.isNone_map, setClassCursor_widen]
      split
      · rfl
      · rfl

/-- A class, function or variable in the expanded text. -/
theorem locateTopLevel_widen (h : r.Placed text) {e : Entity} {name : Text} (hname : name.Plain)
    {p : Pattern} (hplain : p.Plain) (hp : p.Anchored) :
    (r.widen k text).locateTopLevel e name p =
      (r.locateTopLevel e name p).map fun result =>
        (result.1.map (Cursor.widenFound k text text), result.2.widen k text) := by
  have hwide := Cursor.resolve_widen (k := k) h.topLevel_over hplain hp
  rw [h.topLevel_text, ← h.lines] at hwide
  unfold locateTopLevel
  refine Eq.trans (congrArg (· >>= _) hwide) (bind_map_eq ?_)
  rintro ⟨found, topLevel⟩ hresolve
  cases found with
  | none => rfl
  | some lm =>
    rw [h.lines] at hresolve
    have hchooses := ((Cursor.resolve_spec h.topLevel_over.within hp hresolve).1 lm.1 lm.2 rfl).1
    have hlies := hchooses.lies
    rw [h.topLevel_text] at hlies
    have hclass := isolateClass_widen (k := k) (r := { r with topLevel }) h.classes_text hname
      hplain hp hlies
    by_cases hkind : e.kind = .classDecl
    · simp only [Option.map_some, if_pos hkind]
      refine Eq.trans (congrArg (· >>= _) hclass) (bind_map_eq ?_)
      intro r' _
      rfl
    · simp only [Option.map_some, if_neg hkind]
      rfl

/-- An entity in the expanded text. -/
theorem locate_widen (h : r.Placed text) {e : Entity} {name : Text} (hname : name.Plain)
    (hclass : e.kind = .method → ∀ n, e.enclosing = some n → n.Plain) {p : Pattern}
    (hplain : p.Plain) (hp : p.Anchored) :
    ∃ part, (r.widen k text).locate e name p =
      (r.locate e name p).map fun result =>
        (result.1.map (Cursor.widenFound k text part), result.2.widen k text) := by
  unfold locate
  split
  · rename_i hkind
    exact locateMethod_widen h (hclass hkind) name hplain hp
  · exact ⟨text, locateTopLevel_widen h hname hplain hp⟩

end Run

/-- No text that is looked for with the entity has a space or a tab in it: neither one that its
header quotes nor, if it is a method, the name of its class. -/
structure Entity.Unspaced (e : Entity) : Prop where
  quoted : ∀ t, e.Quotes t → t.Plain
  enclosing : e.kind = .method → ∀ name, e.enclosing = some name → name.Plain

/-- The descriptor of an entity in the expanded text: the column counts what stands in front of
the header on its line with the tabs expanded, and so are the tabs in the header. -/
def Descriptor.widen (k : Nat) (lines : List Text) (d : Descriptor) : Descriptor :=
  { d with
    indent := (Text.widen k ((lines.getD (d.line - 1).toNat []).take d.indent.toNat)).length
    header := d.header.widen k }

namespace Run

variable {text : Text} {r : Run}

/-- One entity in the expanded text. -/
theorem step_widen (hk : Text.Fits (List.replicate k ' ')) (h : r.Placed text) {e : Entity}
    (he : e.Unspaced) :
    (r.widen k text).step k e =
      (r.step 0 e).map fun result =>
        (result.1.map (Descriptor.widen k text.lines), result.2.widen k text) := by
  -- The pattern is the same in both runs; only the text it is searched in differs.
  have hsame := e.pattern_of_plain he.quoted hk
  cases hname : e.name with
  | error fault =>
    unfold step
    rw [hname]
    rfl
  | ok name =>
    cases hpattern : e.pattern 0 with
    | error fault =>
      unfold step
      rw [hsame, hname, hpattern]
      rfl
    | ok pattern =>
      cases pattern with
      | error parameter =>
        unfold step
        rw [hsame, hname, hpattern]
        rfl
      | ok p =>
        rw [step_of_pattern hname hpattern, step_of_pattern hname (hsame.trans hpattern)]
        rcases locate_widen (k := k) h (Entity.name_plain he.quoted hname) he.enclosing
          (Entity.pattern_plain he.quoted hpattern)
          (Entity.pattern_anchored hpattern) with ⟨part, hlocate⟩
        rw [hlocate]
        apply bind_map_eq
        rintro ⟨found, r'⟩ -
        cases found with
        | none => rfl
        | some lm =>
          cases e.parameters with
          | error fault => rfl
          | ok params => rfl

/-- All entities in turn: the descriptors are those of the run over the text, and so are the
events. -/
theorem steps_widen (hk : Text.Fits (List.replicate k ' ')) (h : r.Placed text)
    {entities : List Entity} (hentities : ∀ e ∈ entities, e.Unspaced) :
    (r.widen k text).steps k entities =
      (r.steps 0 entities).map fun result =>
        (result.1.map (Descriptor.widen k text.lines), result.2.widen k text) := by
  induction entities generalizing r with
  | nil => rfl
  | cons e rest ih =>
    rcases List.forall_mem_cons.1 hentities with ⟨he, hrest⟩
    rw [steps, steps, step_widen hk h he]
    apply bind_map_eq
    rintro ⟨outcome, r'⟩ hstep
    simp only
    rw [ih (h.step (step_eq_ok hstep)) hrest]
    apply bind_map_eq
    rintro ⟨ds, r''⟩ -
    cases outcome with
    | none => rfl
    | some d => rfl

end Run

/-! ## Catalogues -/

/-- What a tab size makes of the catalogue for tabs that are left alone. -/
structure Widened (entities : List Entity) (source : Text) (k : Nat) (includeExports : Bool) :
    Prop where
  /-- The columns and the tabs in headers change, and the same events are reported. -/
  expanded : source.Expands k →
    catalog entities source ⟨k, includeExports⟩ =
      (catalog entities source ⟨0, includeExports⟩).map fun result =>
        (result.1.map (Descriptor.widen k (source.normalize 0).lines), result.2)
  /-- There is no catalogue if the source would grow too long. -/
  refused : ¬ source.Expands k → ∃ fault, catalog entities source ⟨k, includeExports⟩ = .error fault

theorem tabbedFunction_unspaced :
    (⟨.function, tabbedFunction, none, none⟩ : Entity).Unspaced := by
  have hname : textOf (tabbedFunction.fieldChild? "name") = .ok ['f'] := by decide +kernel
  have hparams : (⟨.function, tabbedFunction, none, none⟩ : Entity).parameters =
      .ok (some [['x']]) := by
    decide +kernel
  constructor
  · intro t ht
    cases ht with
    | name h =>
      rw [hname] at h
      cases h
      decide
    | parameter h hmem =>
      rw [hparams] at h
      cases h
      rw [List.mem_singleton.1 hmem]
      decide
    | bare hkind _ _ _ => cases hkind
    | valueName hkind _ _ _ => cases hkind
    | heritage hkind _ _ => cases hkind
    | modifier hkind _ => cases hkind
  · intro hkind
    cases hkind

-- The class of a method is looked for under its name as it is written. If that has a tab in it, the
-- class is not found in the expanded text, and its method is left out.
example :
    let source : Text := "class A\tB \x7b m() \x7b\x7d \x7d".toList
    let method : Node := .spanning source "method_definition" 12 18
      [(Node.spanning source "property_identifier" 12 13 []).fills "name",
        (emptyPair source "formal_parameters" "(" ")" 13).fills "parameters",
        (emptyPair source "statement_block" "\x7b" "\x7d" 16).fills "body"]
    let entity : Entity := ⟨.method, method, some "A\tB".toList, none⟩
    let lengthFor (tabSize : Nat) := (catalog [entity] source ⟨tabSize, true⟩).map (·.1.length)
    lengthFor 0 = .ok 1 ∧ lengthFor 1 = .ok 0 := by
  decide +kernel

end HeaderCatalog
