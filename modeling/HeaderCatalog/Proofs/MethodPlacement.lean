import HeaderCatalog.Proofs.Discovery
import HeaderCatalog.Proofs.Presence

/-!
# HeaderCatalog.Proofs.MethodPlacement — where the methods of a class stand

The text of a class starts at its keyword, so its header is searched too, and a method may be
located there: `mixin_method_in_header` is a class that extends a call which reads like the header
of its method.

`catalogTree_methods_in_class`: if one class only has a name and it is located, its methods stand
in the class text isolated from its header. They stand behind that header unless their pattern
occurs in it, which needs a parenthesis in the header of the class, or a brace in the name or in
a modifier of the method.
-/

namespace HeaderCatalog

/-! ## Reading across a brace -/

theorem Text.mem_slice {text : Text} {i j stop : Nat} {c : Char} (h : text[j]? = some c)
    (hi : i ≤ j) (hstop : j < stop) : c ∈ text.slice i stop := by
  refine List.mem_of_getElem? (i := j - i) ?_
  rw [Text.slice, List.getElem?_drop, Nat.add_sub_cancel' hi, List.getElem?_take_of_lt hstop, h]

/-- The literal of a token stands behind its gap. -/
theorem Token.Stands.getElem?_gap {t : Token} {rest : Text} {n : Nat} {c : Char}
    (h : t.Stands rest n) (hliteral : t.literal = [c]) : rest[t.gapLength rest]? = some c := by
  obtain ⟨after, hafter⟩ := h.literal
  have hzero : (rest.drop (t.gapLength rest))[0]? = some c := by
    rw [← hafter, hliteral]
    rfl
  rwa [List.getElem?_drop, Nat.add_zero] at hzero

/-- A header that is finished by one character ends in it. -/
theorem Pattern.Finished.getElem?_stop {p : Pattern} {c : Char} (hp : p.Finished [c])
    {text : Text} {i stop : Nat} (h : p.matchAt text i = .ok (some stop)) :
    text[stop - 1]? = some c := by
  obtain ⟨t, hlast, hliteral, hreq⟩ := hp.last
  obtain ⟨front, hfront⟩ := List.getLast?_eq_some_iff.1 hlast
  obtain ⟨-, -, n, hreads, rfl⟩ := (p.matchAt_eq_some_iff _ _ _).1 h
  rw [hfront, Reads.append_iff] at hreads
  obtain ⟨k, j, -, hend, rfl⟩ := hreads
  cases hend with
  | pass hopt _ _ =>
    rw [hreq] at hopt
    cases hopt
  | token hstands hdone =>
    cases hdone
    rw [List.drop_drop] at hstands
    have hget := hstands.getElem?_gap hliteral
    have hlength := hstands.length
    rw [hliteral, List.length_singleton] at hlength
    rw [List.getElem?_drop] at hget
    rw [← hget]
    congr 1
    omega

/-- A match that begins before a brace and reaches a parenthesis reads a parenthesis before the
brace, or one of its literals holds a brace. -/
theorem Pattern.OpensParameters.paren_or_brace {p : Pattern} {literals : List Text}
    (hp : p.OpensParameters literals) {text : Text} {i b stop : Nat}
    (h : p.matchAt text i = .ok (some stop)) (hi : i ≤ b)
    (hb : text[b]? = some Text.openBrace) :
    (∃ j, i ≤ j ∧ j < b ∧ text[j]? = some '(') ∨
      ∃ literal ∈ literals, Text.openBrace ∈ literal := by
  obtain ⟨front, paren, back, htokens, hparen, hreq, hliterals⟩ := hp
  obtain ⟨-, -, n, hreads, -⟩ := (p.matchAt_eq_some_iff _ _ _).1 h
  rw [htokens, Reads.append_iff] at hreads
  obtain ⟨k, j, hfront, hrest, -⟩ := hreads
  by_cases hk : b < i + k
  · -- The brace is read by the tokens before the parenthesis.
    have hmem : Text.openBrace ∈ (text.drop i).take k := by
      refine List.mem_of_getElem? (i := b - i) ?_
      rw [List.getElem?_take_of_lt (by omega), List.getElem?_drop, Nat.add_sub_cancel' hi, hb]
    rcases hfront.isBlank_or_mem_literal hmem with hblank | ⟨t, ht, hmem⟩
    · exact absurd hblank (by decide)
    · exact Or.inr ⟨t.literal, hliterals t ht, hmem⟩
  · cases hrest with
    | pass hopt _ _ =>
      rw [hreq] at hopt
      cases hopt
    | token hstands _ =>
      rw [List.drop_drop] at hstands
      have hget := hstands.getElem?_gap hparen
      rw [List.getElem?_drop] at hget
      rcases Nat.lt_trichotomy (i + k + paren.gapLength (text.drop (i + k))) b with hlt | heq | hgt
      · exact Or.inl ⟨_, by omega, hlt, hget⟩
      · rw [heq, hb] at hget
        exact absurd hget (by decide)
      · -- The brace would be one of the blanks before the parenthesis.
        have hblank : Text.openBrace ∈
            (text.drop (i + k)).take (paren.gapLength (text.drop (i + k))) := by
          refine List.mem_of_getElem? (i := b - (i + k)) ?_
          rw [List.getElem?_take_of_lt (by omega), List.getElem?_drop,
            Nat.add_sub_cancel' (by omega), hb]
        exact absurd (Token.isBlank_of_mem_gap hblank) (by decide)

/-! ## The class text in a run -/

namespace Run

variable {tabSize : Nat} {r r' : Run} {e : Entity} {outcome : Option Descriptor} {text : Text}

/-- What is known of a class stays known. -/
theorem lookup_of_step {name : Option Text} {entry : Option ClassText}
    (h : Step tabSize r e outcome r') (hknown : r.classes.entries.lookup name = some entry) :
    r'.classes.entries.lookup name = some entry := by
  cases h with
  | unmodelled _ => exact hknown
  | missing _ _ _ => exact hknown
  | located _ _ _ _ _ hclass hother =>
    by_cases hkind : e.kind = .classDecl
    · obtain ⟨_, hget⟩ := hclass hkind
      exact ClassIndex.lookup_mono_of_get hget hknown
    · rw [hother hkind]
      exact hknown
  | classless _ _ hget => exact ClassIndex.lookup_mono_of_get hget hknown
  | absent _ _ hget _ => exact ClassIndex.lookup_mono_of_get hget hknown
  | inside _ _ _ _ hget _ => exact ClassIndex.lookup_mono_of_get hget hknown

/-- Only a class and its methods are reasons to look the class up. -/
theorem lookup_none_of_step {name : Text} (h : Step tabSize r e outcome r')
    (hclass : ¬ e.DeclaresClass name) (hmethod : ¬ e.MethodOf name)
    (hnone : r.classes.entries.lookup (some name) = none) :
    r'.classes.entries.lookup (some name) = none := by
  cases h with
  | unmodelled _ => exact hnone
  | missing _ _ _ => exact hnone
  | @located _ found _ _ _ _ _ _ _ hname _ _ _ hget hother =>
    by_cases hkind : e.kind = .classDecl
    · obtain ⟨_, hget⟩ := hget hkind
      have hne : some name ≠ some found := by
        rintro ⟨⟩
        exact hclass ⟨hkind, hname⟩
      exact (ClassIndex.lookup_of_get_ne hget hne).trans hnone
    · rw [hother hkind]
      exact hnone
  | classless hkind _ hget =>
    exact (ClassIndex.lookup_of_get_ne hget fun h => hmethod ⟨hkind, h.symm⟩).trans hnone
  | absent hkind _ hget _ =>
    exact (ClassIndex.lookup_of_get_ne hget fun h => hmethod ⟨hkind, h.symm⟩).trans hnone
  | inside hkind _ _ _ hget _ =>
    exact (ClassIndex.lookup_of_get_ne hget fun h => hmethod ⟨hkind, h.symm⟩).trans hnone

/-- The first class of a name has its text isolated from the header where it is located. -/
theorem lookup_of_located {name : Text} {d : Descriptor} (hs : r.Sound text)
    (hclass : e.DeclaresClass name) (h : Step tabSize r e (some d) r')
    (hnone : r.classes.entries.lookup (some name) = none) :
    r'.classes.entries.lookup (some name) =
      some (some (ClassText.ofMatch text (d.place text.lines))) := by
  have hkind : e.kind ≠ .method := by
    rw [hclass.1]
    decide
  obtain ⟨p, hp, hstands, -, -, hget⟩ := located_spec hs hkind h
  obtain ⟨entry, hget⟩ := hget hclass.1
  have hname : d.name = name := by
    have hsame := (describes_of_step h).name
    rw [hclass.2] at hsame
    cases hsame
    rfl
  rw [hname] at hget
  rw [ClassIndex.lookup_of_get hget]
  rcases ClassIndex.get_eq_ok hget with ⟨hknown, -⟩ | ⟨-, hisolate, -⟩
  · rw [hnone] at hknown
    cases hknown
  · simp only [ClassIndex.isolate, hs.classes_text] at hisolate
    rw [ClassText.isolate_of_matchAt (Entity.pattern_anchored hp) hstands.matches_at hisolate,
      hstands.slice]
    rfl

/-- If one entity only is a class of this name and it is located, its methods are searched for in
the text isolated from its header. -/
theorem lookup_of_mem_visits {name : Text} {entities : List Entity} {vs : List Visit}
    (hs : r.Sound text) (h : visits tabSize r entities = .ok vs)
    (hnone : r.classes.entries.lookup (some name) = none)
    (hfollow : MethodsFollow name entities) (hone : entities.countP (·.DeclaresClass name) = 1)
    {vc : Visit} (hvc : vc ∈ vs) (hclass : vc.entity.DeclaresClass name) {dc : Descriptor}
    (hdc : vc.outcome = some dc) {v : Visit} (hv : v ∈ vs) (hmethod : v.entity.MethodOf name) :
    v.state.classes.entries.lookup (some name) =
      some (some (ClassText.ofMatch text (dc.place text.lines))) := by
  induction entities generalizing r vs with
  | nil =>
    cases h
    cases hv
  | cons e rest ih =>
    obtain ⟨outcome, r', more, hstep, hmore, rfl⟩ := visits_cons_eq_ok h
    have hstep := step_eq_ok hstep
    by_cases he : e.DeclaresClass name
    · -- The class itself: it is the only one, and all its methods come behind it.
      have hrest : rest.countP (·.DeclaresClass name) = 0 := by
        rw [List.countP_cons_of_pos (by simpa using he)] at hone
        omega
      have hhead : vc = ⟨r, e, outcome⟩ := by
        rcases List.mem_cons.1 hvc with hvc | hvc
        · exact hvc
        · have hmem : vc.entity ∈ rest := by
            rw [← entities_of_visits hmore]
            exact List.mem_map_of_mem hvc
          exact absurd hclass (by simpa using List.countP_eq_zero.1 hrest _ hmem)
      have houtcome : outcome = some dc := by rw [← hdc, hhead]
      rw [houtcome] at hstep
      rcases List.mem_cons.1 hv with rfl | hv
      · exact absurd (he.1.symm.trans hmethod.1) (by decide)
      · exact invariant_of_mem_visits
          (fun r => r.classes.entries.lookup (some name) =
            some (some (ClassText.ofMatch text (dc.place text.lines))))
          (fun _ _ _ _ hstep hknown => lookup_of_step hstep hknown) hmore
          (lookup_of_located hs he hstep hnone) v hv
    · rcases hfollow with hfollow | ⟨hother, hfollow⟩
      · exact absurd hfollow he
      · rcases List.mem_cons.1 hv with rfl | hv
        · exact absurd hmethod hother
        · have hvc : vc ∈ more := by
            rcases List.mem_cons.1 hvc with rfl | hvc
            · exact absurd hclass he
            · exact hvc
          rw [List.countP_cons_of_neg (by simpa using he)] at hone
          exact ih (hs.step hstep) hmore (lookup_none_of_step hstep he hother hnone) hfollow hone
            hvc hv

end Run

/-! ## The catalogue of a tree -/

/-- The method `d` stands in the text of the class `dc`, and behind its header unless the pattern
of the method occurs there. The last part says when that cannot be. -/
structure Descriptor.PlacedIn (d dc : Descriptor) (e : Entity) (tabSize : Nat) (text : Text) :
    Prop where
  offset_le : dc.offset text.lines ≤ d.offset text.lines
  le_stop : d.offset text.lines + d.header.length ≤
    (ClassText.ofMatch text (dc.place text.lines)).start +
      (ClassText.ofMatch text (dc.place text.lines)).text.length
  behind : ∀ p, e.pattern tabSize = .ok (.ok p) →
    (∀ i, dc.offset text.lines ≤ i → i < dc.offset text.lines + dc.header.length →
      ¬ p.OccursAt text i) →
    dc.offset text.lines + dc.header.length ≤ d.offset text.lines
  behind_plain : '(' ∉ dc.header → Text.openBrace ∉ d.name →
    (∀ m ∈ e.node.modifiers, Text.openBrace ∉ m.toList) →
    dc.offset text.lines + dc.header.length ≤ d.offset text.lines

/-- A method that begins in the header of a class, which ends in a brace, reads a parenthesis
there unless its name or a modifier holds a brace. -/
theorem Descriptor.Stands.behind_plain {d dc : Descriptor} {p q : Pattern} {e : Entity}
    {tabSize : Nat} {text : Text} (hd : d.Stands p text) (hdc : dc.Stands q text)
    (hq : q.Finished [Text.openBrace]) (hkind : e.kind = .method)
    (hp : e.pattern tabSize = .ok (.ok p)) (hdescribes : d.Describes e)
    (hle : dc.offset text.lines ≤ d.offset text.lines) (hparen : '(' ∉ dc.header)
    (hname : Text.openBrace ∉ d.name)
    (hmodifiers : ∀ m ∈ e.node.modifiers, Text.openBrace ∉ m.toList) :
    dc.offset text.lines + dc.header.length ≤ d.offset text.lines := by
  by_contra hlt
  have hbrace := hq.getElem?_stop hdc.matches_at
  obtain ⟨name, htext, hopens⟩ := Entity.pattern_opensParameters hkind hp
  have hsame : d.name = name := by
    have hown := hdescribes.name
    rw [Entity.name_of_textOf htext] at hown
    cases hown
    rfl
  rcases hopens.paren_or_brace hd.matches_at (by omega) hbrace with
    ⟨j, hj, hjb, hget⟩ | ⟨l, hl, hmem⟩
  · refine hparen ?_
    rw [← hdc.slice]
    exact Text.mem_slice hget (by omega) (by omega)
  · obtain ⟨original, horiginal, rfl⟩ := List.mem_map.1 hl
    have hmem := Text.mem_of_mem_normalize hmem (by decide)
    rcases List.mem_cons.1 horiginal with rfl | horiginal
    · exact hname (hsame ▸ hmem)
    · obtain ⟨m, hm, rfl⟩ := List.mem_map.1 horiginal
      exact hmodifiers m hm hmem

/-- The run places a method in its class, if the class that it is searched in is the one isolated
from the header `dc`. -/
theorem Run.placedIn_of_step {tabSize : Nat} {r r' : Run} {e : Entity} {d dc : Descriptor}
    {text name : Text} {q : Pattern} (hs : r.Sound text) (hmethod : e.MethodOf name)
    (h : Step tabSize r e (some d) r')
    (hlookup : r.classes.entries.lookup (some name) =
      some (some (ClassText.ofMatch text (dc.place text.lines))))
    (hdc : dc.Stands q text) (hq : q.Finished [Text.openBrace]) :
    d.PlacedIn dc e tabSize text := by
  obtain ⟨p, body, classes, m, hp, hget, hstands, hmatch, hoffset, hstop⟩ :=
    inside_spec hs hmethod.1 h
  rw [hmethod.2] at hget
  have hbody := Option.some.inj (ClassIndex.eq_of_get_of_lookup hget hlookup)
  subst hbody
  have hle : dc.offset text.lines ≤ d.offset text.lines := by
    rw [hoffset]
    exact Nat.le_add_right _ _
  refine ⟨hle, ?_, ?_, ?_⟩
  · rw [hstop]
    exact Nat.add_le_add_left (Pattern.le_of_matchAt hmatch).2 _
  · intro p' hp' hfree
    rw [hp] at hp'
    cases hp'
    by_contra hlt
    exact hfree _ hle (by omega) ⟨_, hstands.matches_at⟩
  · exact hstands.behind_plain hdc hq hmethod.1 hp (describes_of_step h) hle

/-- In the catalogue of every tree: if one entity only is a class of some name and it is located,
every located method of that class is placed in it. -/
theorem catalogTree_methods_in_class (root : Node) (source : Text) (settings : Settings)
    (ds : List Descriptor) (events : List Event)
    (h : catalogTree root source settings = .ok (ds, events)) :
    ∃ entities vs, discover root settings.includeExports = .ok entities ∧
      Run.visits settings.tabSize (.start (source.normalize settings.tabSize)) entities = .ok vs ∧
      vs.filterMap (·.outcome) = ds ∧
      ∀ name, entities.countP (·.DeclaresClass name) = 1 →
        ∀ dc ∈ ds, dc.kind = .classDecl → dc.name = name →
        ∀ v ∈ vs, ∀ d, v.outcome = some d → d.kind = .method → d.enclosing = some name →
          d.PlacedIn dc v.entity settings.tabSize (source.normalize settings.tabSize) := by
  obtain ⟨entities, rest, hdiscover, hcatalog⟩ := catalogTree_eq_ok h
  obtain ⟨vs, hvs, -, hds⟩ := catalog_eq_ok hcatalog
  refine ⟨entities, vs, hdiscover, hvs, hds, ?_⟩
  intro name hone dc hdc hdckind hdcname v hv d hd hdkind henclosing
  -- The class: where it is located, and that it is the class of this name.
  rw [← hds] at hdc
  obtain ⟨vc, hvc, hvcdc⟩ := List.mem_filterMap.1 hdc
  obtain ⟨q, hq, hstands⟩ := Run.stands_of_mem_visits hvs vc hvc dc hvcdc
  have hdescribesClass := (Run.accounted_of_mem_visits hvs vc hvc).describes dc hvcdc
  have hclass : vc.entity.DeclaresClass name :=
    ⟨hdescribesClass.kind.symm.trans hdckind, hdcname ▸ hdescribesClass.name⟩
  -- The method: it is visited when the text of its class is known.
  have hdescribes := (Run.accounted_of_mem_visits hvs v hv).describes d hd
  have hmethod : v.entity.MethodOf name :=
    ⟨hdescribes.kind.symm.trans hdkind, hdescribes.enclosing.symm.trans henclosing⟩
  have hlookup := Run.lookup_of_mem_visits (Run.sound_start _) hvs rfl
    (methodsFollow_of_discover hdiscover name) hone hvc hclass hvcdc hv hmethod
  obtain ⟨r', hstep⟩ := Run.step_of_mem_visits hvs v hv
  rw [hd] at hstep
  exact Run.placedIn_of_step (Run.sound_of_mem_visits hvs v hv) hmethod hstep hlookup hstands
    (Entity.pattern_finished_brace hclass.1 hq)

/-- A method whose name is not that of the call which its class extends stands in the body. -/
theorem mixin_methods_in_class :
    (mixinTree 'c').OfSource (mixin 'c') ∧
    ∃ events, catalogTree (mixinTree 'c') (mixin 'c') {} = .ok (mixinCatalog 'c' 22, events) ∧
    ∃ entities vs, discover (mixinTree 'c') true = .ok entities ∧
      Run.visits 0 (.start ((mixin 'c').normalize 0)) entities = .ok vs ∧
      vs.filterMap (·.outcome) = mixinCatalog 'c' 22 ∧
      ∀ name, entities.countP (·.DeclaresClass name) = 1 →
        ∀ dc ∈ mixinCatalog 'c' 22, dc.kind = .classDecl → dc.name = name →
        ∀ v ∈ vs, ∀ d, v.outcome = some d → d.kind = .method → d.enclosing = some name →
          d.PlacedIn dc v.entity 0 ((mixin 'c').normalize 0) := by
  have h : catalogTree (mixinTree 'c') (mixin 'c') {} =
      .ok (mixinCatalog 'c' 22, [.discovered 2, .located 2 2]) := by
    decide +kernel
  exact ⟨by decide +kernel, _, h, catalogTree_methods_in_class (mixinTree 'c') (mixin 'c') {} _ _ h⟩

/-- The tree of a source does not promise that a method stands behind the header of its class: one
that is named like the call which its class extends is found in that call. -/
theorem mixin_method_in_header :
    ¬ ∀ (root : Node) (source : Text) (settings : Settings) (entities : List Entity)
      (ds : List Descriptor) (events : List Event), root.OfSource source →
      discover root settings.includeExports = .ok entities →
      catalogTree root source settings = .ok (ds, events) →
      ∀ name, entities.countP (·.DeclaresClass name) = 1 →
        ∀ dc ∈ ds, dc.kind = .classDecl → dc.name = name →
        ∀ d ∈ ds, d.kind = .method → d.enclosing = some name →
          dc.offset (source.normalize settings.tabSize).lines + dc.header.length ≤
            d.offset (source.normalize settings.tabSize).lines ∧
          d.offset (source.normalize settings.tabSize).lines + d.header.length ≤
            (ClassText.ofMatch (source.normalize settings.tabSize)
              (dc.place (source.normalize settings.tabSize).lines)).start +
            (ClassText.ofMatch (source.normalize settings.tabSize)
              (dc.place (source.normalize settings.tabSize).lines)).text.length := by
  intro hall
  have hcatalog : catalogTree (mixinTree 'B') (mixin 'B') {} =
      .ok (mixinCatalog 'B' 16, [.discovered 2, .located 2 2]) := by
    decide +kernel
  have hone : (discover (mixinTree 'B') true).map (·.countP (·.DeclaresClass ['A'])) = .ok 1 := by
    decide +kernel
  obtain ⟨entities, -, hdiscover, -⟩ := catalogTree_eq_ok hcatalog
  rw [hdiscover] at hone
  have hplaced := hall (mixinTree 'B') (mixin 'B') {} entities _ _ (by decide +kernel) hdiscover
    hcatalog ['A'] (Except.ok.inj hone) _ List.mem_cons_self rfl rfl _
    (List.mem_cons_of_mem _ List.mem_cons_self) rfl rfl
  exact absurd hplaced.1 (by decide +kernel)

end HeaderCatalog
