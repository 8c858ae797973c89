import HeaderCatalog.Proofs.Presence
import HeaderCatalog.Proofs.WordBoundaries
import Mathlib.Data.List.Chain

/-!
# HeaderCatalog.Proofs.DemandedSpace — where headers ask for white space

A pattern asks for white space in front of some of its tokens and leaves it open in front of the
others. Where two words meet, white space has to stand between them in every source. This module
says where else a pattern asks for it, and that a header is found however it is spaced elsewhere.

* `Entity.Demands` lists the places: between two words of the language, next to a name, in front
  of what a class extends, and between two modifiers or a modifier and the name of a method.
* `Entity.header_demandsOnly`: no builder of headers asks for white space anywhere else.
* `Entity.pattern_spacing`: the words of the language at these places are words at their ends. A
  header that is found is found with any other white space that leaves the demanded one in place
  and joins no two words.

What stands at these places is quoted as it is written, and need not be a word: in front of
a computed name or of a parenthesis the source does without white space, and the pattern does not.
`keyed_dropped` is a method that the catalogue leaves out for this reason.
-/

namespace HeaderCatalog

/-! ## Words at the ends of texts -/

namespace Text

/-- The first character is a word character. -/
def BeginsWord (t : Text) : Prop :=
  t.head?.any isWord = true

/-- The last character is a word character. -/
def EndsWord (t : Text) : Prop :=
  t.getLast?.any isWord = true

instance (t : Text) : Decidable t.BeginsWord :=
  inferInstanceAs (Decidable (_ = _))

instance (t : Text) : Decidable t.EndsWord :=
  inferInstanceAs (Decidable (_ = _))

end Text

/-- The literal of a piece is ended if it and what follows are not words that run together. -/
theorem Piece.ended_text_append_iff (x : Piece) (more : Text) :
    x.Ended (x.text ++ more)[x.text.length]? ↔
      ¬ (x.token.literal.EndsWord ∧ more.BeginsWord) := by
  rw [List.getElem?_append_right (Nat.le_refl _), Nat.sub_self, ← List.head?_eq_getElem?]
  exact x.ended_iff more.head?

/-! ## The places -/

/-- The words of the language that headers are built with. -/
def keywords : List Text :=
  ["async".toList, "function".toList, "class".toList, "extends".toList, "static".toList,
    "get".toList, "set".toList]

/-- The header of the entity asks for white space between these two texts. -/
inductive Entity.Demands (e : Entity) : Text → Text → Prop where
  | asyncFunction : e.kind = .function → e.node.hasChild "async" = true →
      Demands e "async".toList "function".toList
  | functionName {name : Text} : e.kind = .function → e.node.hasChild "*" = false →
      textOf (e.node.fieldChild? "name") = .ok name → Demands e "function".toList name
  | asyncValue {value : Node} : e.kind = .variable → e.node.fieldChild? "value" = some value →
      value.hasChild "async" = true → Demands e "async".toList "function".toList
  /-- The single parameter of an arrow function that stands without parentheses. -/
  | bareParameter {value single : Node} {t : Text} : e.kind = .variable →
      e.node.fieldChild? "value" = some value → value.hasChild "async" = true →
      value.fieldChild? "parameter" = some single → single.text = .ok t →
      Demands e "async".toList t
  /-- The name that the function value of a variable has of its own. -/
  | valueName {value name : Node} {t : Text} : e.kind = .variable →
      e.node.fieldChild? "value" = some value → value.hasChild "*" = false →
      value.fieldChild? "name" = some name → name.text = .ok t → Demands e "function".toList t
  | className {name : Text} : e.kind = .classDecl →
      textOf (e.node.fieldChild? "name") = .ok name → Demands e "class".toList name
  | inherits {name : Text} {base : Node} : e.kind = .classDecl →
      textOf (e.node.fieldChild? "name") = .ok name →
      (e.node.namedChildren.find? (·.kind == "class_heritage")).bind (·.namedChildren.head?) =
        some base → Demands e name "extends".toList
  | heritage {base : Node} {t : Text} : e.kind = .classDecl →
      (e.node.namedChildren.find? (·.kind == "class_heritage")).bind (·.namedChildren.head?) =
        some base → base.text = .ok t → Demands e "extends".toList t
  | modifier {m m' : String} : e.kind = .method → m ∈ e.node.modifiers → m' ∈ e.node.modifiers →
      m ≠ "*" → m' ≠ "*" → Demands e m.toList m'.toList
  | methodName {m : String} {name : Text} : e.kind = .method → m ∈ e.node.modifiers → m ≠ "*" →
      textOf (e.node.fieldChild? "name") = .ok name → Demands e m.toList name

/-! ## Tokens that ask for white space -/

/-- White space is asked for only between tokens whose literals are related by `demands`, and the
first of the two is required. -/
def DemandsOnly (demands : Text → Text → Prop) (ts : List Token) : Prop :=
  ts.IsChain fun t u => u.gap = .many → t.optional = false ∧ demands t.literal u.literal

section DemandsOnly

variable {demands : Text → Text → Prop} {ts us : List Token} {p : Pattern}

theorem DemandsOnly.of_gap_ne_many (h : ∀ t ∈ ts, t.gap ≠ .many) : DemandsOnly demands ts := by
  induction ts with
  | nil => exact .nil
  | cons t ts ih =>
    obtain ⟨-, hts⟩ := List.forall_mem_cons.1 h
    cases ts with
    | nil => exact .singleton t
    | cons u us =>
      refine List.isChain_cons_cons.2 ⟨fun hmany => ?_, ih hts⟩
      exact absurd hmany (hts u List.mem_cons_self)

/-- Tokens that leave white space open may be added at the end. -/
theorem DemandsOnly.append (h : DemandsOnly demands ts) (hus : ∀ u ∈ us, u.gap ≠ .many) :
    DemandsOnly demands (ts ++ us) := by
  refine List.isChain_append.2 ⟨h, DemandsOnly.of_gap_ne_many hus, ?_⟩
  intro t _ u hu hmany
  exact absurd hmany (hus u (List.mem_of_mem_head? hu))

/-- A token may be added if it asks for white space only behind a literal it is related to. -/
theorem DemandsOnly.add (h : DemandsOnly demands p.tokens) {literal : Text} {gap : Gap}
    (hgap : gap = .many → ∀ t, p.tokens.getLast? = some t →
      t.optional = false ∧ demands t.literal literal) :
    DemandsOnly demands (p.add literal gap false).tokens := by
  unfold Pattern.add
  split
  · exact .singleton _
  · refine List.isChain_append.2 ⟨h, .singleton _, ?_⟩
    rintro t ht u ⟨⟩ hmany
    exact hgap hmany t ht

theorem DemandsOnly.lit (h : DemandsOnly demands p.tokens) (literal : Text) :
    DemandsOnly demands (p.lit literal).tokens :=
  h.add fun hmany => absurd hmany (by decide)

/-- The last token is required and has the given literal. -/
def Pattern.LastIs (p : Pattern) (literal : Text) : Prop :=
  ∃ t, p.tokens.getLast? = some t ∧ t.literal = literal ∧ t.optional = false

/-- A token that asks for white space may be added behind a literal it is related to. -/
theorem DemandsOnly.add_behind (h : DemandsOnly demands p.tokens) {literal : Text} {gap : Gap}
    (hgap : gap = .many → ∃ last, p.LastIs last ∧ demands last literal) :
    DemandsOnly demands (p.add literal gap false).tokens := by
  refine h.add fun hmany t ht => ?_
  obtain ⟨last, ⟨u, hu, hlit, hreq⟩, hdemands⟩ := hgap hmany
  rw [hu] at ht
  cases ht
  exact ⟨hreq, hlit ▸ hdemands⟩

theorem DemandsOnly.word (h : DemandsOnly demands p.tokens) {last literal : Text}
    (hlast : p.LastIs last) (hdemands : demands last literal) :
    DemandsOnly demands (p.word literal).tokens :=
  h.add_behind fun _ => ⟨last, hlast, hdemands⟩

/-- White space is left open inside and behind a parameter list. -/
theorem DemandsOnly.parameters (h : DemandsOnly demands p.tokens) (hne : p.tokens ≠ [])
    (params : List Text) (closing : Text) :
    DemandsOnly demands ((p.parameterList params).lit closing).tokens := by
  rw [Pattern.parameterList_lit_tokens p params closing hne]
  refine h.append fun t ht => ?_
  have hgap : t.gap = .any := by
    rcases List.mem_append.1 ht with ht | ht
    · exact Pattern.gap_of_mem_parameterTokens ht
    · rw [List.mem_singleton.1 ht]
  simp [hgap]

/-- An optional token may be left out: no token asks for white space behind it. -/
theorem DemandsOnly.skip {t u : Token} (h : DemandsOnly demands (t :: u :: ts))
    (hopt : u.optional = true) : DemandsOnly demands (t :: ts) := by
  have hrest := (List.isChain_cons_cons.1 h).2
  cases ts with
  | nil => exact .singleton t
  | cons v vs =>
    obtain ⟨hv, hvs⟩ := List.isChain_cons_cons.1 hrest
    refine List.isChain_cons_cons.2 ⟨fun hmany => ?_, hvs⟩
    have hreq := (hv hmany).1
    rw [hopt] at hreq
    cases hreq

/-- The tokens that are kept ask for white space at the same places. -/
theorem DemandsOnly.keeps {t : Token} (h : DemandsOnly demands (t :: ts)) (hkeeps : Keeps ts us) :
    DemandsOnly demands (t :: us) := by
  induction hkeeps generalizing t with
  | nil => exact h
  | keep _ ih =>
    obtain ⟨hu, hrest⟩ := List.isChain_cons_cons.1 h
    exact List.isChain_cons_cons.2 ⟨hu, ih hrest⟩
  | skip hopt _ ih => exact ih (h.skip hopt)

/-- The normal form of a pattern asks for white space between the normal forms of literals. -/
theorem DemandsOnly.normalized (h : DemandsOnly demands p.tokens) (tabSize : Nat) :
    DemandsOnly (fun t u => ∃ a b, demands a b ∧ t = a.normalize tabSize ∧ u = b.normalize tabSize)
      (p.normalized tabSize).tokens := by
  unfold DemandsOnly Pattern.normalized
  rw [List.isChain_map]
  refine List.IsChain.imp (fun t u htu hmany => ?_) h
  obtain ⟨hreq, hdemands⟩ := htu hmany
  exact ⟨hreq, t.literal, u.literal, hdemands, rfl, rfl⟩

/-! ## Modifiers -/

/-- The pattern consists of modifiers, all among `ms`, and `previous` is the last of them. -/
structure Pattern.Modified (demands : Text → Text → Prop) (ms : List String) (p : Pattern)
    (previous : Option String) : Prop where
  only : DemandsOnly demands p.tokens
  last : ∀ t, p.tokens.getLast? = some t →
    t.optional = false ∧ ∃ m ∈ ms, previous = some m ∧ t.literal = m.toList

variable {ms : List String} {previous : Option String}

theorem Pattern.Modified.empty (demands : Text → Text → Prop) (ms : List String) :
    Pattern.empty.Modified demands ms none :=
  ⟨.nil, by simp [Pattern.empty]⟩

/-- One more modifier is added. -/
theorem Pattern.Modified.add (h : p.Modified demands ms previous)
    (hdemands : ∀ m ∈ ms, ∀ m' ∈ ms, m ≠ "*" → m' ≠ "*" → demands m.toList m'.toList) {m : String}
    (hm : m ∈ ms) : (p.add m.toList (if previous = some "*" ∨ m = "*" then .any else .many)
      false).Modified demands ms (some m) := by
  constructor
  · refine h.only.add fun hmany t ht => ?_
    obtain ⟨hreq, m', hm', rfl, hlit⟩ := h.last t ht
    simp only [ite_eq_right_iff, reduceCtorEq, imp_false, not_or, Option.some.injEq] at hmany
    rw [hlit]
    exact ⟨hreq, hdemands m' hm' m hm hmany.1 hmany.2⟩
  · intro t ht
    obtain ⟨u, hu, hlit, hreq⟩ := p.getLast?_add m.toList
      (if previous = some "*" ∨ m = "*" then .any else .many)
    rw [hu] at ht
    cases ht
    exact ⟨hreq, m, hm, rfl, hlit⟩

/-- All the modifiers are added. The induction is on those that are left. -/
theorem Pattern.Modified.modifiers (h : p.Modified demands ms previous)
    (hdemands : ∀ m ∈ ms, ∀ m' ∈ ms, m ≠ "*" → m' ≠ "*" → demands m.toList m'.toList)
    {rest : List String} (hrest : ∀ m ∈ rest, m ∈ ms) :
    (p.modifiers previous rest).1.Modified demands ms (p.modifiers previous rest).2 := by
  induction rest generalizing p previous with
  | nil => exact h
  | cons m rest ih =>
    obtain ⟨hm, hrest⟩ := List.forall_mem_cons.1 hrest
    exact ih (h.add hdemands hm) hrest

end DemandsOnly

/-! ## The builders of headers -/

namespace Entity

variable {e : Entity} {p : Pattern}

theorem functionPattern_demandsOnly (hkind : e.kind = .function)
    (h : e.node.functionPattern = .ok p) : DemandsOnly e.Demands p.tokens := by
  obtain ⟨name, hname, h⟩ := bind_eq_ok_iff.1 h
  obtain ⟨params, -, h⟩ := bind_eq_ok_iff.1 h
  cases h
  refine DemandsOnly.parameters ?_ ?_ params _
  · -- the name stands behind the keyword, or behind a star
    by_cases hasync : e.node.hasChild "async" = true
    · have hstart : DemandsOnly e.Demands
          ((Pattern.empty.lit "async".toList).word "function".toList).tokens :=
        (DemandsOnly.lit .nil _).word (Pattern.getLast?_add _ _ _) (.asyncFunction hkind hasync)
      rw [if_pos hasync]
      split
      · exact (hstart.lit _).lit _
      · rename_i hstar
        exact hstart.word (Pattern.getLast?_add _ _ _)
          (.functionName hkind (Bool.eq_false_iff.2 hstar) hname)
    · rw [if_neg hasync]
      split
      · exact ((DemandsOnly.lit .nil _).lit _).lit _
      · rename_i hstar
        exact (DemandsOnly.lit .nil _).word (Pattern.getLast?_add _ _ _)
          (.functionName hkind (Bool.eq_false_iff.2 hstar) hname)
  · split
    · exact Pattern.add_ne_nil _ _ _ _
    · exact Pattern.add_ne_nil _ _ _ _

section Value

variable {value : Node} {q : Pattern} (hkind : e.kind = .variable)
  (hvalue : e.node.fieldChild? "value" = some value) (hp : DemandsOnly e.Demands p.tokens)
  (hne : p.tokens ≠ []) (hasync : value.hasChild "async" = true → p.LastIs "async".toList)
include hkind hvalue hp hne hasync

theorem arrowPattern_demandsOnly (h : value.arrowPattern (value.hasChild "async") p = .ok q) :
    DemandsOnly e.Demands q.tokens := by
  unfold Node.arrowPattern at h
  split at h
  · rename_i single hsingle
    obtain ⟨t, ht, h⟩ := bind_eq_ok_iff.1 h
    cases h
    refine (hp.add_behind fun hmany => ?_).lit _
    have hchild : value.hasChild "async" = true := by simpa using hmany
    exact ⟨_, hasync hchild, .bareParameter hkind hvalue hchild hsingle ht⟩
  · obtain ⟨params, -, h⟩ := bind_eq_ok_iff.1 h
    cases h
    exact hp.parameters hne params _

omit hne in
theorem functionValuePattern_demandsOnly
    (h : value.functionValuePattern (value.hasChild "async") p = .ok q) :
    DemandsOnly e.Demands q.tokens := by
  have hkeyword : DemandsOnly e.Demands
      (p.add "function".toList (if value.hasChild "async" then .many else .any) false).tokens := by
    refine hp.add_behind fun hmany => ?_
    have hchild : value.hasChild "async" = true := by simpa using hmany
    exact ⟨_, hasync hchild, .asyncValue hkind hvalue hchild⟩
  have hlast := p.getLast?_add "function".toList (if value.hasChild "async" then .many else .any)
  have hadded := p.add_ne_nil "function".toList
    (if value.hasChild "async" then .many else .any) false
  simp only [Node.functionValuePattern] at h
  split at h
  · rename_i name hname
    obtain ⟨t, ht, h⟩ := bind_eq_ok_iff.1 h
    obtain ⟨named, hnamed, h⟩ := bind_eq_ok_iff.1 h
    obtain ⟨params, -, h⟩ := bind_eq_ok_iff.1 h
    cases hnamed
    cases h
    refine DemandsOnly.parameters ?_ (Pattern.add_ne_nil _ _ _ _) params _
    by_cases hstar : value.hasChild "*" = true
    · rw [if_pos hstar, if_pos hstar]
      exact (hkeyword.lit _).lit _
    · rw [if_neg hstar, if_neg hstar]
      exact hkeyword.word hlast
        (.valueName hkind hvalue (Bool.eq_false_iff.2 hstar) hname ht)
  · obtain ⟨named, hnamed, h⟩ := bind_eq_ok_iff.1 h
    obtain ⟨params, -, h⟩ := bind_eq_ok_iff.1 h
    cases hnamed
    cases h
    by_cases hstar : value.hasChild "*" = true
    · rw [if_pos hstar]
      exact (hkeyword.lit _).parameters (Pattern.add_ne_nil _ _ _ _) params _
    · rw [if_neg hstar]
      exact hkeyword.parameters hadded params _

end Value

theorem variablePattern_demandsOnly (hkind : e.kind = .variable)
    (h : e.node.variablePattern = .ok p) : DemandsOnly e.Demands p.tokens := by
  obtain ⟨name, -, h⟩ := bind_eq_ok_iff.1 h
  have hassigned : DemandsOnly e.Demands ((Pattern.empty.lit name).lit ['=']).tokens :=
    (DemandsOnly.lit .nil name).lit ['=']
  split at h
  · cases h
  · rename_i value hvalue
    -- the value begins with the keyword if it has one
    have hstart : ∀ q : Pattern, (if value.hasChild "async" then
        ((Pattern.empty.lit name).lit ['=']).lit "async".toList
        else (Pattern.empty.lit name).lit ['=']) = q →
        DemandsOnly e.Demands q.tokens ∧ q.tokens ≠ [] ∧
          (value.hasChild "async" = true → q.LastIs "async".toList) := by
      rintro q rfl
      by_cases hasync : value.hasChild "async" = true
      · rw [if_pos hasync]
        exact ⟨hassigned.lit _, Pattern.add_ne_nil _ _ _ _, fun _ => Pattern.getLast?_add _ _ _⟩
      · rw [if_neg hasync]
        exact ⟨hassigned, Pattern.add_ne_nil _ _ _ _, fun hchild => absurd hchild hasync⟩
    obtain ⟨hp, hne, hasync⟩ := hstart _ rfl
    simp only at h
    split at h
    · exact arrowPattern_demandsOnly hkind hvalue hp hne hasync h
    · exact functionValuePattern_demandsOnly hkind hvalue hp hasync h

theorem classPattern_demandsOnly (hkind : e.kind = .classDecl) (h : e.node.classPattern = .ok p) :
    DemandsOnly e.Demands p.tokens := by
  obtain ⟨name, hname, h⟩ := bind_eq_ok_iff.1 h
  have hnamed : DemandsOnly e.Demands ((Pattern.empty.lit "class".toList).word name).tokens :=
    (DemandsOnly.lit .nil _).word (Pattern.getLast?_add _ _ _) (.className hkind hname)
  simp only at h
  split at h
  · rename_i base hbase
    obtain ⟨t, ht, h⟩ := bind_eq_ok_iff.1 h
    cases h
    have hextends := hnamed.word (Pattern.getLast?_add _ _ _) (.inherits hkind hname hbase)
    exact (hextends.word (Pattern.getLast?_add _ _ _) (.heritage hkind hbase ht)).lit _
  · cases h
    exact hnamed.lit _

theorem methodPattern_demandsOnly (hkind : e.kind = .method) (h : e.node.methodPattern = .ok p) :
    DemandsOnly e.Demands p.tokens := by
  obtain ⟨name, hname, h⟩ := bind_eq_ok_iff.1 h
  obtain ⟨params, -, h⟩ := bind_eq_ok_iff.1 h
  cases h
  obtain ⟨honly, hlast⟩ := (Pattern.Modified.empty e.Demands e.node.modifiers).modifiers
    (fun m hm m' hm' hstar hstar' => .modifier hkind hm hm' hstar hstar') fun m hm => hm
  refine DemandsOnly.parameters ?_ (Pattern.add_ne_nil _ _ _ _) params _
  refine honly.add fun hmany t ht => ?_
  obtain ⟨hreq, m, hm, hprevious, hlit⟩ := hlast t ht
  rw [hprevious] at hmany
  have hstar : m ≠ "*" := by simpa using hmany
  rw [hlit]
  exact ⟨hreq, .methodName hkind hm hstar hname⟩

/-- A header asks for white space only at the places that are listed. -/
theorem header_demandsOnly (h : e.header = .ok p) : DemandsOnly e.Demands p.tokens := by
  unfold header at h
  split at h
  · rename_i hkind
    exact functionPattern_demandsOnly hkind h
  · rename_i hkind
    exact variablePattern_demandsOnly hkind h
  · rename_i hkind
    exact classPattern_demandsOnly hkind h
  · rename_i hkind
    exact methodPattern_demandsOnly hkind h

/-- The pattern of the entity asks for white space between these two literals. -/
def DemandsIn (e : Entity) (tabSize : Nat) (t u : Text) : Prop :=
  ∃ a b, e.Demands a b ∧ t = a.normalize tabSize ∧ u = b.normalize tabSize

theorem pattern_demandsOnly {tabSize : Nat} (h : e.pattern tabSize = .ok (.ok p)) :
    DemandsOnly (e.DemandsIn tabSize) p.tokens := by
  obtain ⟨q, hq, rfl⟩ := header_of_pattern h
  exact (header_demandsOnly hq).normalized tabSize

/-- A header ends in a mark that is no word. -/
theorem pattern_last {tabSize : Nat} (h : e.pattern tabSize = .ok (.ok p)) :
    ∃ t, p.tokens.getLast? = some t ∧ t.optional = false ∧ ¬ t.literal.EndsWord := by
  obtain ⟨q, hq, rfl⟩ := header_of_pattern h
  have hmark : ∀ closing ∈ Pattern.marks, ¬ closing.EndsWord → ∀ g : Pattern,
      ∃ t, ((g.lit closing).normalized tabSize).tokens.getLast? = some t ∧ t.optional = false ∧
        ¬ t.literal.EndsWord := by
    intro closing hmem hclosing g
    obtain ⟨t, ht, hlit, hreq⟩ := g.getLast?_add closing .any
    refine ⟨{ t with literal := t.literal.normalize tabSize }, ?_, hreq, ?_⟩
    · rw [Pattern.normalized, List.getLast?_map, Pattern.lit, ht]
      rfl
    · rwa [hlit, Pattern.normalize_of_mem_marks hmem]
  obtain ⟨g, -, rfl | rfl⟩ := header_grown (fun _ _ => trivial) (fun _ _ => trivial) hq
  · exact hmark "=>".toList (by decide) (by decide) g
  · exact hmark [Text.openBrace] (by decide) (by decide) g

end Entity

/-- The words of the language are words at both ends. -/
theorem word_of_mem_keywords {a : Text} (ha : a ∈ keywords) (tabSize : Nat) :
    (a.normalize tabSize).EndsWord ∧ (a.normalize tabSize).BeginsWord := by
  have hwords : ∀ w ∈ keywords, '\t' ∉ w ∧ '\r' ∉ w ∧ w.EndsWord ∧ w.BeginsWord := by
    decide +kernel
  obtain ⟨htab, hreturn, hword⟩ := hwords a ha
  rwa [Text.normalize_eq_self htab hreturn]

/-! ## Other white space -/

/-- The second list has the tokens of the first one, which stand behind `t`, with other white
space. There may be none where there was none before and where it is `optional`. -/
inductive Respaced (optional : Token → Token → Prop) : Token → List Piece → List Piece → Prop where
  | nil (t : Token) : Respaced optional t [] []
  | cons {t : Token} {x y : Piece} {xs ys : List Piece} : y.token = x.token →
      (∀ c ∈ y.gap, Text.isBlank c = true) → (y.gap = [] → x.gap = [] ∨ optional t y.token) →
      Respaced optional y.token xs ys → Respaced optional t (x :: xs) (y :: ys)

theorem Respaced.tokens {optional : Token → Token → Prop} {t : Token} {xs ys : List Piece}
    (h : Respaced optional t xs ys) : ys.map (·.token) = xs.map (·.token) := by
  induction h with
  | nil t => rfl
  | cons htoken _ _ _ ih => rw [List.map_cons, List.map_cons, htoken, ih]

/-- What a piece begins is a word if nothing stands in front of its literal and that is a word. -/
theorem Piece.beginsWord_text_append {x : Piece} (hblank : ∀ c ∈ x.gap, Text.isBlank c = true)
    (hne : x.token.literal ≠ []) (more : Text) :
    Text.BeginsWord (x.text ++ more) ↔ x.gap = [] ∧ x.token.literal.BeginsWord := by
  unfold Piece.text Text.BeginsWord
  cases hgap : x.gap with
  | nil =>
    obtain ⟨c, cs, hlit⟩ := List.exists_cons_of_ne_nil hne
    simp [hlit]
  | cons c cs =>
    have hword := Text.not_isWord_of_isBlank (hblank c (by simp [hgap]))
    simp [hword]

/-- White space may be left out between the two tokens: they are no words that would run together,
and the header of the entity does not ask for it. -/
def Entity.Optional (e : Entity) (tabSize : Nat) (t u : Token) : Prop :=
  ¬ (t.literal.EndsWord ∧ u.literal.BeginsWord) ∧ ¬ e.DemandsIn tabSize t.literal u.literal

/-- Pieces with other white space stand one after another as the pieces did. The second half of the
statement carries the induction: the token in front of the pieces is ended by what follows it. -/
theorem Respaced.lie {e : Entity} {tabSize : Nat} {t : Token} {xs ys : List Piece}
    (h : Respaced (e.Optional tabSize) t xs ys)
    (honly : DemandsOnly (e.DemandsIn tabSize) (t :: xs.map (·.token)))
    (hvisible : ∀ x ∈ xs, x.token.Visible)
    (hlast : ∀ u, (t :: xs.map (·.token)).getLast? = some u → ¬ u.literal.EndsWord)
    {rest : Text} (hlie : Lie xs rest) (hended : ¬ (t.literal.EndsWord ∧ rest.BeginsWord))
    (back : Text) :
    Lie ys (ys.flatMap Piece.text ++ back) ∧
      ¬ (t.literal.EndsWord ∧ Text.BeginsWord (ys.flatMap Piece.text ++ back)) := by
  induction h generalizing rest with
  | nil t => exact ⟨trivial, fun hwords => hlast t rfl hwords.1⟩
  | @cons t x y xs ys htoken hblank hempty _ ih =>
    obtain ⟨gap, u⟩ := y
    cases htoken
    obtain ⟨⟨⟨more, hmore⟩, ⟨hblank', hmany⟩, hx⟩, hlie⟩ := hlie
    subst hmore
    obtain ⟨hdemanded, honly⟩ := List.isChain_cons_cons.1 honly
    obtain ⟨hvisible, hvisibles⟩ := List.forall_mem_cons.1 hvisible
    have hne : x.token.literal ≠ [] := by
      obtain ⟨c, cs, hlit, -⟩ := hvisible
      simp [hlit]
    rw [List.drop_left] at hlie
    rw [Piece.ended_text_append_iff] at hx
    obtain ⟨hys, hyend⟩ := ih honly hvisibles (fun v hv => hlast v hv) hlie hx
    rw [List.flatMap_cons, List.append_assoc]
    constructor
    · refine ⟨⟨List.prefix_append _ _, ⟨hblank, fun hdemands hgap => ?_⟩, ?_⟩, ?_⟩
      · -- white space that is asked for is there: it was there before and is not optional
        rcases hempty hgap with hgap | hoptional
        · exact hmany hdemands hgap
        · exact hoptional.2 (hdemanded hdemands).2
      · exact (Piece.ended_text_append_iff _ _).2 hyend
      · rw [List.drop_left]
        exact hys
    · rintro ⟨hend, hbegin⟩
      obtain ⟨hgap, hword⟩ := (Piece.beginsWord_text_append hblank hne _).1 hbegin
      rcases hempty hgap with hgap | hoptional
      · exact hended ⟨hend, (Piece.beginsWord_text_append hblank' hne more).2 ⟨hgap, hword⟩⟩
      · exact hoptional.1 ⟨hend, hword⟩

/-- A header that is found somewhere is found with other white space, too. -/
theorem Entity.matchAt_respaced {e : Entity} {tabSize : Nat} {p : Pattern}
    (hp : e.pattern tabSize = .ok (.ok p)) {text : Text} {start stop : Nat}
    (hmatch : p.matchAt text start = .ok (some stop)) {x : Piece} {xs ys : List Piece}
    (hlayout : p.Layout text start stop (x :: xs))
    (hys : Respaced (e.Optional tabSize) x.token xs ys) {front : Text}
    (hfront : ¬ (front.EndsWord ∧ x.token.literal.BeginsWord)) (back : Text) :
    p.matchAt (front ++ ((x :: ys).flatMap Piece.text ++ back)) front.length =
      .ok (some (front.length + ((x :: ys).flatMap Piece.text).length)) := by
  obtain ⟨t, ts, htokens, hgap, hreq, htail⟩ := pattern_settled hp
  obtain ⟨hstart, ⟨t', ts', c, cs, htokens', hlit, -⟩, n, hreads, -⟩ :=
    (Pattern.matchAt_eq_some_iff _ _ _ _).1 hmatch
  obtain ⟨hkeeps, ⟨hx, hlie⟩, -, hfirst⟩ := (Pattern.layout_iff _ _ _ _ _ hstart).1 hlayout
  have honly := pattern_demandsOnly hp
  obtain ⟨last, hlast, hlastReq, hlastWord⟩ := pattern_last hp
  rw [htokens] at htokens' hreads hkeeps honly hlast
  cases htokens'
  obtain ⟨x', xs', hcons, rfl, hkept⟩ := hkeeps.required hreq
  cases hcons
  have hflush : x.gap = [] := (hfirst x rfl).1
  have hvisible : ∀ u ∈ ts, u.Visible := by
    cases hreads with
    | token _ hreads => exact htail.visible_of_reads hreads
    | pass hopt _ _ => simp [hreq] at hopt
  obtain ⟨⟨more, hmore⟩, -, hended⟩ := hx
  rw [← hmore, List.drop_left] at hlie
  rw [← hmore, Piece.ended_text_append_iff] at hended
  -- behind the first literal everything stands as before, and the literal is ended
  obtain ⟨hlie', hended'⟩ := hys.lie (honly.keeps hkept)
    (fun y hy => hvisible _ (hkept.mem (List.mem_map_of_mem hy)))
    (fun u hu => by
      rw [(Keeps.keep hkept).getLast? hlast hlastReq] at hu
      cases hu
      exact hlastWord) hlie hended back
  have hstands : x.token.Stands (x.text ++ (ys.flatMap Piece.text ++ back)) x.text.length := by
    have hlength : x.token.gapLength (x.text ++ (ys.flatMap Piece.text ++ back)) = 0 := by
      rw [Token.gapLength, if_pos hgap]
    refine ⟨fun hmany => ?_, by simp [hlit], ?_, ?_, (Piece.ended_text_append_iff x _).2 hended'⟩
    · rw [hgap] at hmany
      cases hmany
    · rw [hlength, List.drop_zero, Piece.text, hflush, List.nil_append]
      exact List.prefix_append _ _
    · rw [hlength, Piece.text, hflush, List.nil_append, Nat.zero_add]
  refine (Pattern.matchAt_eq_some_iff _ _ _ _).2 ⟨by simp, ?_, _, ?_, rfl⟩
  · refine ⟨x.token, ts, c, cs, htokens, hlit, ?_⟩
    rw [Text.before_length_append, Bool.eq_false_iff]
    intro hwords
    rw [Bool.and_eq_true] at hwords
    refine hfront ⟨hwords.2, ?_⟩
    rw [Text.BeginsWord, hlit]
    exact hwords.1
  · rw [htokens, List.drop_left, List.flatMap_cons, List.append_assoc, List.length_append]
    refine .token hstands ?_
    rw [List.drop_left]
    exact htail.reads_of_lie hvisible (hys.tokens ▸ hkept) hlie'

/-! ## Catalogues -/

/-- The entity of a visit is searched for in this text: the whole text, or for a method the text
that its class has. -/
def Visit.SearchedIn (v : Visit) (whole text : Text) : Prop :=
  if v.entity.kind = .method then
    ∃ body classes, v.state.classes.get v.entity.enclosing none 0 = .ok (some body, classes) ∧
      body.text = text
  else text = whole

/-- No catalogue leaves the entity out that searches for it in the text. -/
def Entity.ListedFrom (e : Entity) (tabSize : Nat) (text : Text) : Prop :=
  ∀ entities source settings ds events, catalog entities source settings = .ok (ds, events) →
    settings.tabSize = tabSize → ∀ vs,
    Run.visits tabSize (.start (source.normalize tabSize)) entities = .ok vs →
    ∀ v ∈ vs, v.entity = e → v.SearchedIn (source.normalize tabSize) text →
      ∃ d ∈ ds, v.outcome = some d ∧ d.Describes e

theorem Entity.OccursIn.listedFrom {e : Entity} {tabSize : Nat} {text : Text}
    (h : e.OccursIn tabSize text) : e.ListedFrom tabSize text := by
  intro entities source settings ds events hcatalog htabs vs hvs v hv hentity hsearched
  obtain ⟨ws, hws, -, hds⟩ := catalog_eq_ok hcatalog
  rw [htabs, hvs] at hws
  cases hws
  have haccounted := Run.accounted_of_mem_visits hvs v hv
  have hsome : v.outcome.isSome = true := by
    unfold Visit.SearchedIn at hsearched
    split at hsearched
    · rename_i hkind
      obtain ⟨body, classes, hget, rfl⟩ := hsearched
      exact (haccounted.method hkind).2 ⟨body, classes, hget, hentity ▸ h⟩
    · rename_i hkind
      subst hsearched
      exact (haccounted.topLevel hkind).2 (hentity ▸ h)
  obtain ⟨d, hd⟩ := Option.isSome_iff_exists.1 hsome
  refine ⟨d, ?_, hd, hentity ▸ haccounted.describes d hd⟩
  rw [← hds]
  exact List.mem_filterMap.2 ⟨v, hv, hd⟩

/-- How a pattern of the entity treats white space. -/
structure Entity.Spacing (e : Entity) (tabSize : Nat) (p : Pattern) : Prop where
  /-- White space is asked for only between two words, or next to a text that the entity quotes. -/
  demanded : ∀ front t u back, p.tokens = front ++ t :: u :: back → u.gap = .many →
    ∃ a b, e.Demands a b ∧ t.literal = a.normalize tabSize ∧ u.literal = b.normalize tabSize ∧
      (t.literal.EndsWord ∨ a ∉ keywords) ∧ (u.literal.BeginsWord ∨ b ∉ keywords)
  /-- A header that is found somewhere is found, and its entity listed, wherever it stands with
  white space left out that is optional. -/
  respaced : ∀ text start stop, p.matchAt text start = .ok (some stop) →
    ∃ x xs, p.Layout text start stop (x :: xs) ∧
      ∀ ys front back, Respaced (e.Optional tabSize) x.token xs ys →
        ¬ (front.EndsWord ∧ x.token.literal.BeginsWord) →
        p.matchAt (front ++ ((x :: ys).flatMap Piece.text ++ back)) front.length =
            .ok (some (front.length + ((x :: ys).flatMap Piece.text).length)) ∧
          e.ListedFrom tabSize (front ++ ((x :: ys).flatMap Piece.text ++ back))

/-- White space is asked for only at the listed places, and a header that is found is found with
any other white space that leaves it there and joins no two words. -/
theorem Entity.pattern_spacing {e : Entity} {tabSize : Nat} {p : Pattern}
    (hp : e.pattern tabSize = .ok (.ok p)) : e.Spacing tabSize p := by
  constructor
  · intro front t u back htokens hmany
    have honly := pattern_demandsOnly hp
    rw [htokens] at honly
    obtain ⟨-, hdemands, -⟩ := List.isChain_append_cons_cons.1 honly
    obtain ⟨-, a, b, hab, ht, hu⟩ := hdemands hmany
    refine ⟨a, b, hab, ht, hu, ?_, ?_⟩
    · by_cases ha : a ∈ keywords
      · exact Or.inl (ht ▸ (word_of_mem_keywords ha tabSize).1)
      · exact Or.inr ha
    · by_cases hb : b ∈ keywords
      · exact Or.inl (hu ▸ (word_of_mem_keywords hb tabSize).2)
      · exact Or.inr hb
  · intro text start stop hmatch
    obtain ⟨pieces, hlayout⟩ := (pattern_settled hp).layout_of_matchAt hmatch
    obtain ⟨t, ts, htokens, -, hreq, -⟩ := pattern_settled hp
    have hkeeps := hlayout.keeps
    rw [htokens] at hkeeps
    obtain ⟨x, xs, rfl, -, -⟩ := hkeeps.required hreq
    refine ⟨x, xs, hlayout, ?_⟩
    intro ys front back hys hfront
    have hmatch' := matchAt_respaced hp hmatch hlayout hys hfront back
    exact ⟨hmatch', Entity.OccursIn.listedFrom ⟨p, hp, _, _, hmatch'⟩⟩

/-! ## A method with a computed name -/

/-- A class with a static method whose name is computed, and the white space before the name. -/
def keyed (gap : Text) : Text :=
  "class A \x7b static".toList ++ (gap ++ "[k]() \x7b\x7d \x7d".toList)

/-- The method of `keyed`. -/
def keyedMethod (gap : Text) : Node :=
  (Node.spanning (keyed gap) "method_definition" 10 (24 + gap.length)
    [.mark (keyed gap) "static" 10 16,
      (Node.spanning (keyed gap) "computed_property_name" (16 + gap.length) (19 + gap.length)
        [.mark (keyed gap) "[" (16 + gap.length) (17 + gap.length),
          .spanning (keyed gap) "identifier" (17 + gap.length) (18 + gap.length) [],
          .mark (keyed gap) "]" (18 + gap.length) (19 + gap.length)]).fills "name",
      (emptyPair (keyed gap) "formal_parameters" "(" ")" (19 + gap.length)).fills "parameters",
      (emptyPair (keyed gap) "statement_block" "\x7b" "\x7d" (22 + gap.length)).fills
        "body"]).fills "member"

/-- The tree of `keyed`. -/
def keyedTree (gap : Text) : Node :=
  .spanning (keyed gap) "program" 0 (26 + gap.length)
    [.spanning (keyed gap) "class_declaration" 0 (26 + gap.length)
      [.mark (keyed gap) "class" 0 5,
        (Node.spanning (keyed gap) "identifier" 6 7 []).fills "name",
        (Node.spanning (keyed gap) "class_body" 8 (26 + gap.length)
          [.mark (keyed gap) "\x7b" 8 9, keyedMethod gap,
            .mark (keyed gap) "\x7d" (25 + gap.length) (26 + gap.length)]).fills "body"]]

/-- The pattern of the method of `keyed`. -/
def keyedPattern : Pattern :=
  ⟨[⟨.none, "static".toList, false⟩, ⟨.many, "[k]".toList, false⟩, ⟨.any, ['('], false⟩,
    ⟨.any, [')'], false⟩, ⟨.any, [Text.openBrace], false⟩]⟩

/-- The method is found behind a space. -/
theorem keyed_spacing :
    (⟨.method, keyedMethod [' '], some ['A'], none⟩ : Entity).pattern 0 = .ok (.ok keyedPattern) ∧
      keyedPattern.matchAt (keyed [' ']) 10 = .ok (some 24) ∧
      (⟨.method, keyedMethod [' '], some ['A'], none⟩ : Entity).Spacing 0 keyedPattern := by
  have hpattern : (⟨.method, keyedMethod [' '], some ['A'], none⟩ : Entity).pattern 0 =
      .ok (.ok keyedPattern) := by decide +kernel
  exact ⟨hpattern, by decide +kernel, Entity.pattern_spacing hpattern⟩

/-- Without the space the method is not found, although its name begins with no word. -/
theorem keyed_dropped :
    (∀ gap ∈ [[' '], []], (keyedTree gap).OfSource (keyed gap) ∧
      (⟨.method, keyedMethod gap, some ['A'], none⟩ : Entity).pattern 0 = .ok (.ok keyedPattern)) ∧
    (∃ t u back, keyedPattern.tokens = t :: u :: back ∧ u.gap = .many ∧ t.literal.EndsWord ∧
      ¬ u.literal.BeginsWord) ∧
    (catalogTree (keyedTree [' ']) (keyed [' ']) {}).map (·.1.map (·.header)) =
      .ok ["class A \x7b".toList, "static [k]() \x7b".toList] ∧
    (catalogTree (keyedTree []) (keyed []) {}).map (·.1.map (·.header)) =
      .ok ["class A \x7b".toList] := by
  refine ⟨by decide +kernel, ⟨_, _, _, rfl, ?_⟩, by decide +kernel, by decide +kernel⟩
  decide

end HeaderCatalog
