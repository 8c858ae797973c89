import HeaderCatalog.Proofs.SourceTrees
import HeaderCatalog.Proofs.Visits

/-!
# HeaderCatalog.Proofs.HeaderPlaces — headers stand where the catalogue says

A descriptor names a line and a column. `Descriptor.Stands` says that they are a place of the
text, that the text reads the header there, and that the pattern of the entity matches the whole
text there with the header as its match.

`catalog_headers_stand`: this holds of every descriptor of every catalogue. For a method it needs
that its class text is a part of the text whose edges hide nothing from the matcher.
-/

namespace HeaderCatalog

namespace Descriptor

/-- The location that a descriptor gives. -/
def location (d : Descriptor) : Location := ⟨d.line, d.indent⟩

/-- The offset of the header: the start of its line and its column. -/
def offset (d : Descriptor) (lines : List Text) : Nat :=
  d.location.offset lines

/-- The place of the header as a match. -/
def place (d : Descriptor) (lines : List Text) : Match :=
  ⟨d.offset lines, d.offset lines + d.header.length, d.header⟩

/-- The header stands in the text at the location of the descriptor, and is the match of the
pattern there. -/
structure Stands (d : Descriptor) (p : Pattern) (text : Text) : Prop where
  valid : d.location.Valid text.lines
  slice : text.slice (d.offset text.lines) (d.offset text.lines + d.header.length) = d.header
  matches_at : p.matchAt text (d.offset text.lines) =
    .ok (some (d.offset text.lines + d.header.length))

end Descriptor

/-- A match of the whole text, located by its offset, is where the descriptor says. -/
theorem Entity.describe_stands (e : Entity) (name : Text) (params : Option (List Text))
    {p : Pattern} {text header : Text} {i stop : Nat}
    (h : p.matchAt text i = .ok (some stop)) (hheader : header = text.slice i stop) :
    (e.describe name params (Location.ofIndex i text.lines) header).offset text.lines = i ∧
      (e.describe name params (Location.ofIndex i text.lines) header).Stands p text := by
  obtain ⟨hle, hstop⟩ := Pattern.le_of_matchAt h
  obtain ⟨hvalid, hoffset⟩ := Location.ofIndex_lines text i (Nat.le_trans hle hstop)
  have hlength : i + header.length = stop := by
    rw [hheader, text.length_slice i stop hstop]
    omega
  have hplace : (e.describe name params (Location.ofIndex i text.lines) header).offset text.lines
      = i := hoffset
  refine ⟨hplace, hvalid, ?_, ?_⟩
  · rw [hplace]
    show text.slice i (i + header.length) = header
    rw [hlength, hheader]
  · rw [hplace]
    show p.matchAt text i = .ok (some (i + header.length))
    rw [hlength, h]

/-- Where a located class, function or variable stands: at the match that the cursor over the
whole text chooses, past which the cursor moves. A class is looked up from there. -/
theorem Run.located_spec {tabSize : Nat} {r r' : Run} {e : Entity} {d : Descriptor} {text : Text}
    (hs : r.Sound text) (hkind : e.kind ≠ .method) (h : Step tabSize r e (some d) r') :
    ∃ p, e.pattern tabSize = .ok (.ok p) ∧ d.Stands p text ∧
      r.topLevel.Chooses p (d.place text.lines) ∧
      r'.topLevel = r.topLevel.advance (d.place text.lines) ∧
      (e.kind = .classDecl → ∃ entry,
        r.classes.get (some d.name) (some p) (d.offset text.lines) = .ok (entry, r'.classes)) := by
  cases h with
  | inside hmethod => exact absurd hmethod hkind
  | @located p name params l m classes topLevel events _ _ hp _ hresolve hclass _ =>
    rw [hs.lines] at hresolve
    obtain ⟨hchosen, hadvance, hl⟩ :=
      (Cursor.resolve_spec hs.topLevel_within (Entity.pattern_anchored hp) hresolve).1 l m rfl
    have hmatch := hchosen.matches_at
    have htext := hchosen.text_eq
    rw [hs.topLevel_text] at hmatch htext
    rw [hs.topLevel_offset, Int.add_zero] at hl
    obtain ⟨hplace, hstands⟩ := e.describe_stands name params hmatch htext
    have hstop := Pattern.le_of_matchAt hmatch
    have hm : (e.describe name params l m.text).place text.lines = m := by
      rw [hl, Descriptor.place, hplace]
      show (⟨m.index, m.index + m.text.length, m.text⟩ : Match) = m
      have hlength : m.index + m.text.length = m.stop := by
        rw [htext, text.length_slice _ _ hstop.2]
        omega
      rw [hlength]
    rw [hm, show (e.describe name params l m.text).offset text.lines = m.index from hl ▸ hplace]
    exact ⟨p, hp, hl ▸ hstands, hchosen, hadvance, hclass⟩

/-- Where a located method stands: at the match that the cursor of its class chooses in the text
of its class. -/
theorem Run.inside_spec {tabSize : Nat} {r r' : Run} {e : Entity} {d : Descriptor} {text : Text}
    (hs : r.Sound text) (hkind : e.kind = .method) (h : Step tabSize r e (some d) r') :
    ∃ (p : Pattern) (body : ClassText) (classes : ClassIndex) (m : Match),
      e.pattern tabSize = .ok (.ok p) ∧
      r.classes.get e.enclosing none 0 = .ok (some body, classes) ∧ d.Stands p text ∧
      p.matchAt body.text m.index = .ok (some m.stop) ∧
      d.offset text.lines = body.start + m.index ∧
      d.offset text.lines + d.header.length = body.start + m.stop := by
  cases h with
  | located hne => exact absurd hkind hne
  | @inside p name params l m body classes cursor events _ _ hp _ hget hresolve =>
    rw [hs.lines] at hresolve
    obtain ⟨hchosen, -, hl⟩ := (Cursor.resolve_spec (hs.classCursor_within hget)
      (Entity.pattern_anchored hp) hresolve).1 l m rfl
    obtain ⟨hbody, hstart⟩ := hs.classCursor hget
    have hcut := hs.cutFrom hget
    have hmatch := hchosen.matches_at
    have htext := hchosen.text_eq
    rw [hbody] at hmatch htext
    have hstop := Pattern.le_of_matchAt hmatch
    -- The edges of the class text hide nothing from the matcher.
    have hwhole := hcut.matchAt (Entity.pattern_delimited hp) hmatch
    rw [← hcut.slice _ _ hstop.2] at htext
    rw [hstart, ← Int.natCast_add, Nat.add_comm] at hl
    obtain ⟨hplace, hstands⟩ := e.describe_stands name params hwhole htext
    rw [← hl] at hplace hstands
    refine ⟨p, body, classes, m, hp, hget, hstands, hmatch, hplace, ?_⟩
    have hle := hcut.le_length
    show (e.describe name params l m.text).offset text.lines + m.text.length = _
    rw [hplace, htext, text.length_slice _ _ (by omega)]
    omega

/-- Every located entity stands where its descriptor says. -/
theorem Run.stands_of_step {tabSize : Nat} {r r' : Run} {e : Entity} {d : Descriptor} {text : Text}
    (hs : r.Sound text) (h : Step tabSize r e (some d) r') :
    ∃ p, e.pattern tabSize = .ok (.ok p) ∧ d.Stands p text := by
  by_cases hkind : e.kind = .method
  · obtain ⟨p, _, _, _, hp, _, hstands, _⟩ := inside_spec hs hkind h
    exact ⟨p, hp, hstands⟩
  · obtain ⟨p, hp, hstands, _⟩ := located_spec hs hkind h
    exact ⟨p, hp, hstands⟩

theorem Run.stands_of_mem_visits {tabSize : Nat} {text : Text} {entities : List Entity}
    {vs : List Visit} (h : visits tabSize (.start text) entities = .ok vs) (v : Visit)
    (hv : v ∈ vs) (d : Descriptor) (hd : v.outcome = some d) :
    ∃ p, v.entity.pattern tabSize = .ok (.ok p) ∧ d.Stands p text := by
  obtain ⟨r', hstep⟩ := step_of_mem_visits h v hv
  rw [hd] at hstep
  exact stands_of_step (sound_of_mem_visits h v hv) hstep

/-- In every catalogue, every header stands in the normalized text where its descriptor says, and
is matched there by the pattern of the entity it comes from. -/
theorem catalog_headers_stand (entities : List Entity) (source : Text) (settings : Settings)
    (ds : List Descriptor) (events : List Event)
    (h : catalog entities source settings = .ok (ds, events)) :
    ∃ vs,
      Run.visits settings.tabSize (.start (source.normalize settings.tabSize)) entities = .ok vs ∧
      vs.map (·.entity) = entities ∧ vs.filterMap (·.outcome) = ds ∧
      ∀ v ∈ vs, ∀ d, v.outcome = some d → ∃ p, v.entity.pattern settings.tabSize = .ok (.ok p) ∧
        d.Stands p (source.normalize settings.tabSize) := by
  obtain ⟨vs, hvs, hentities, hds⟩ := catalog_eq_ok h
  exact ⟨vs, hvs, hentities, hds, Run.stands_of_mem_visits hvs⟩

/-- The catalogue of `mixin` when its method starts at the given column. -/
def mixinCatalog (method : Char) (indent : Int) : List Descriptor :=
  [⟨.classDecl, 1, 0, "class A extends B() \x7b".toList, none, none, none, ['A']⟩,
    ⟨.method, 1, indent, method :: "() \x7b".toList, some ['A'], some [], none, [method]⟩]

/-- A class and its method, whose header is matched in the text of the class. -/
theorem mixin_headers_stand :
    catalog (mixinEntities 'B') (mixin 'B') {} = .ok (mixinCatalog 'B' 16, [.located 2 2]) ∧
    ∃ vs, Run.visits 0 (.start ((mixin 'B').normalize 0)) (mixinEntities 'B') = .ok vs ∧
      vs.map (·.entity) = mixinEntities 'B' ∧ vs.filterMap (·.outcome) = mixinCatalog 'B' 16 ∧
      ∀ v ∈ vs, ∀ d, v.outcome = some d → ∃ p, v.entity.pattern 0 = .ok (.ok p) ∧
        d.Stands p ((mixin 'B').normalize 0) := by
  have h : catalog (mixinEntities 'B') (mixin 'B') {} =
      .ok (mixinCatalog 'B' 16, [.located 2 2]) := by
    decide +kernel
  exact ⟨h, catalog_headers_stand (mixinEntities 'B') (mixin 'B') {} (mixinCatalog 'B' 16) _ h⟩

end HeaderCatalog
