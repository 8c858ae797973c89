import HeaderCatalog.ClassText
import HeaderCatalog.Proofs.HeaderGrowth
import HeaderCatalog.Proofs.Locality
import HeaderCatalog.Proofs.NormalSizes

/-!
# HeaderCatalog.Proofs.HeaderShape — the shape of header patterns

Every header pattern is put together by adding tokens at the end. Two facts about this hold of
all of them, whatever the entity:

* the first token is required and has no gap, and only commas are optional (`Pattern.Built`);
* the last token is required.

So `Entity.pattern_anchored` and `Entity.pattern_delimited` hold, on which searching and the
locality of matches rest. The rest of the module says which tokens stand at the two ends of the
headers of classes and methods.
-/

namespace HeaderCatalog

namespace Pattern

/-- The shape that every step of building a header keeps. -/
structure Built (p : Pattern) : Prop where
  anchored : p.Anchored
  comma : ∀ t ∈ p.tokens, t.optional = true → t.literal = [',']

theorem Settled.built {p : Pattern} (h : p.Settled) : p.Built := by
  obtain ⟨t, ts, htokens, hgap, hreq, htail⟩ := h
  constructor
  · intro u us hu
    rw [htokens] at hu
    cases hu
    exact ⟨hgap, hreq⟩
  · intro u hu hopt
    rw [htokens] at hu
    rcases List.mem_cons.1 hu with rfl | hu
    · rw [hreq] at hopt
      cases hopt
    · exact htail.comma_of_optional u hu hopt

/-! ## Finished headers -/

/-- A header that is finished: it has the shape of a header, and its last token is required and
is the given literal. -/
structure Finished (p : Pattern) (literal : Text) : Prop extends Built p where
  last : ∃ t, p.tokens.getLast? = some t ∧ t.literal = literal ∧ t.optional = false

/-- A token added last finishes a header. -/
theorem Grown.finish {ok : Text → Prop} {p : Pattern} (h : p.Grown ok) {literal : Text}
    (hok : ok literal) : (p.lit literal).Finished literal :=
  ⟨(h.lit hok).settled.built, p.getLast?_add literal .any⟩

end Pattern

theorem Node.classPattern_finished {n : Node} {p : Pattern} (h : n.classPattern = .ok p) :
    p.Finished [Text.openBrace] := by
  have hgrown := Node.classPattern_grown (fun _ _ => trivial) h (fun _ _ => trivial)
    (fun _ _ _ _ => trivial)
  obtain ⟨q, hq, rfl⟩ := hgrown
  exact hq.finish trivial

theorem Entity.header_finished {e : Entity} {p : Pattern} (h : e.header = .ok p) :
    ∃ literal, p.Finished literal := by
  obtain ⟨q, hq, rfl | rfl⟩ := header_grown (fun _ _ => trivial) (fun _ _ => trivial) h
  · exact ⟨_, hq.finish trivial⟩
  · exact ⟨_, hq.finish trivial⟩

/-! ## Normalized headers -/

/-- Normalizing drops carriage returns and replaces tabs, and leaves everything else alone. -/
theorem Text.normalize_eq_self {text : Text} (htab : '\t' ∉ text) (hreturn : '\r' ∉ text)
    (tabSize : Nat) : text.normalize tabSize = text := by
  induction text with
  | nil => rfl
  | cons c rest ih =>
    rw [List.mem_cons, not_or] at htab hreturn
    have hrest := ih htab.2 hreturn.2
    unfold normalize at hrest ⊢
    rw [List.filter_cons_of_pos (by simpa using Ne.symm hreturn.1), List.flatMap_cons, hrest]
    simp [expandTab, Ne.symm htab.1]

theorem Text.normalize_singleton (tabSize : Nat) (c : Char) (hr : c ≠ '\r') (ht : c ≠ '\t') :
    Text.normalize tabSize [c] = [c] :=
  normalize_eq_self (by simpa using ht.symm) (by simpa using hr.symm) tabSize

namespace Pattern

/-- The fixed words and marks of headers are in normal form. -/
theorem normalize_of_mem_marks {literal : Text} (h : literal ∈ marks) (tabSize : Nat) :
    literal.normalize tabSize = literal := by
  have hmarks : ∀ t ∈ marks, '\t' ∉ t ∧ '\r' ∉ t := by decide
  exact Text.normalize_eq_self (hmarks literal h).1 (hmarks literal h).2 tabSize

/-- Normalizing a header changes its literals only. -/
theorem Finished.normalized {p : Pattern} {literal : Text} (h : p.Finished literal)
    (tabSize : Nat) : (p.normalized tabSize).Finished (literal.normalize tabSize) := by
  refine ⟨⟨h.anchored.normalized tabSize, ?_⟩, ?_⟩
  · intro t ht hopt
    simp only [Pattern.normalized, List.mem_map] at ht
    obtain ⟨u, hu, rfl⟩ := ht
    simp only at hopt ⊢
    rw [h.comma u hu hopt]
    exact Text.normalize_singleton tabSize ',' (by decide) (by decide)
  · obtain ⟨t, ht, hlit, hreq⟩ := h.last
    refine ⟨{ t with literal := t.literal.normalize tabSize }, ?_, by rw [hlit], hreq⟩
    rw [Pattern.normalized, List.getLast?_map, ht]
    rfl

theorem Settled.normalized {p : Pattern} (h : p.Settled) (tabSize : Nat) :
    (p.normalized tabSize).Settled := by
  obtain ⟨t, ts, htokens, hgap, hreq, htail⟩ := h
  have hcomma := Text.normalize_singleton tabSize ',' (by decide) (by decide)
  have hparen := Text.normalize_singleton tabSize ')' (by decide) (by decide)
  refine ⟨{ t with literal := t.literal.normalize tabSize },
    (Pattern.normalized ⟨ts⟩ tabSize).tokens, ?_, hgap, hreq, ?_⟩
  · rw [Pattern.normalized, htokens, List.map_cons]
    rfl
  · unfold Pattern.normalized
    clear htokens
    induction htail with
    | nil => exact .nil
    | required hgap hreq _ ih => exact .required hgap hreq ih
    | comma hgap hlit hgap' hlit' hreq _ ih =>
      refine .comma hgap ?_ hgap' ?_ hreq ih
      · simpa [hlit] using hcomma
      · simpa [hlit'] using hparen

theorem Finished.delimited {p : Pattern} {literal : Text} (h : p.Finished literal) :
    Delimited p.tokens := by
  constructor
  · intro t ht hopt
    simp [h.comma t ht hopt]
  · intro t ht
    obtain ⟨u, hu, -, hreq⟩ := h.last
    rw [hu] at ht
    cases ht
    exact hreq

end Pattern

namespace Entity

/-- An entity has a pattern exactly if it has a header whose literals can be normalized, and the
pattern is the header with its literals normalized. -/
theorem pattern_eq_ok_iff {e : Entity} {tabSize : Nat} {p : Pattern} :
    e.pattern tabSize = .ok (.ok p) ↔
      ∃ q, e.header = .ok q ∧ q.Expands tabSize ∧ p = q.normalized tabSize := by
  unfold pattern
  split
  · rename_i q hq
    rw [bind_eq_ok_iff, hq]
    constructor
    · rintro ⟨q', hform, h⟩
      cases h
      obtain ⟨hexpands, rfl⟩ := Pattern.normalForm_eq_ok_iff.1 hform
      exact ⟨q, rfl, hexpands, rfl⟩
    · rintro ⟨q', ⟨⟩, hexpands, rfl⟩
      exact ⟨_, hexpands.normalForm, rfl⟩
  all_goals
    rename_i hq
    refine iff_of_false (fun h => by cases h) ?_
    rintro ⟨q, hq', -⟩
    rw [hq] at hq'
    cases hq'

theorem header_of_pattern {e : Entity} {tabSize : Nat} {p : Pattern}
    (h : e.pattern tabSize = .ok (.ok p)) :
    ∃ q, e.header = .ok q ∧ p = q.normalized tabSize := by
  obtain ⟨q, hq, -, rfl⟩ := pattern_eq_ok_iff.1 h
  exact ⟨q, hq, rfl⟩

/-- Asking for the pattern of an entity that has a header normalizes all its literals. -/
theorem expands_of_pattern {e : Entity} {tabSize : Nat} {outcome : Except Text Pattern}
    {q : Pattern} (h : e.pattern tabSize = .ok outcome) (hq : e.header = .ok q) :
    q.Expands tabSize := by
  unfold pattern at h
  rw [hq] at h
  obtain ⟨q', hform, -⟩ := bind_eq_ok_iff.1 h
  exact (Pattern.normalForm_eq_ok_iff.1 hform).1

theorem pattern_finished {e : Entity} {tabSize : Nat} {p : Pattern}
    (h : e.pattern tabSize = .ok (.ok p)) : ∃ literal, p.Finished literal := by
  obtain ⟨q, hq, rfl⟩ := Entity.header_of_pattern h
  obtain ⟨literal, hfinished⟩ := header_finished hq
  exact ⟨_, hfinished.normalized tabSize⟩

theorem header_settled {e : Entity} {p : Pattern} (h : e.header = .ok p) : p.Settled := by
  rcases header_grown (fun _ _ => trivial) (fun _ _ => trivial) h with ⟨q, hq, rfl | rfl⟩
  · exact (hq.lit trivial).settled
  · exact (hq.lit trivial).settled

theorem pattern_settled {e : Entity} {tabSize : Nat} {p : Pattern}
    (h : e.pattern tabSize = .ok (.ok p)) : p.Settled := by
  obtain ⟨q, hq, rfl⟩ := Entity.header_of_pattern h
  exact (header_settled hq).normalized tabSize

theorem pattern_anchored {e : Entity} {tabSize : Nat} {p : Pattern}
    (h : e.pattern tabSize = .ok (.ok p)) : p.Anchored :=
  (pattern_finished h).elim fun _ hp => hp.anchored

theorem pattern_delimited {e : Entity} {tabSize : Nat} {p : Pattern}
    (h : e.pattern tabSize = .ok (.ok p)) : Delimited p.tokens :=
  (pattern_finished h).elim fun _ hp => hp.delimited

/-- The literals of a header that is matched somewhere have characters. -/
theorem literal_ne_nil_of_matchAt {e : Entity} {tabSize : Nat} {p : Pattern}
    (hp : e.pattern tabSize = .ok (.ok p)) {text : Text} {i stop : Nat}
    (h : p.matchAt text i = .ok (some stop)) : ∀ t ∈ p.tokens, t.literal ≠ [] := by
  rcases (Pattern.matchAt_eq_some_iff _ _ _ _).1 h with ⟨-, -, n, hreads, -⟩
  exact hreads.literal_ne_nil (pattern_settled hp).built.comma

end Entity

/-! ## Where a class begins -/

namespace Pattern

/-- The pattern opens a class: its first token is the keyword. -/
def OpensClass (p : Pattern) : Prop :=
  ∃ t ts, p.tokens = t :: ts ∧ t.literal = ['c', 'l', 'a', 's', 's']

theorem opensClass_of_prefix {p : Pattern}
    (h : (Pattern.empty.lit "class".toList).tokens <+: p.tokens) : p.OpensClass := by
  obtain ⟨ts, hts⟩ := h
  exact ⟨_, ts, hts.symm, by decide⟩

theorem OpensClass.normalized {p : Pattern} (h : p.OpensClass) (tabSize : Nat) :
    (p.normalized tabSize).OpensClass := by
  obtain ⟨t, ts, htokens, hlit⟩ := h
  have hnormal : (p.normalized tabSize).tokens =
      { t with literal := t.literal.normalize tabSize } ::
        (Pattern.normalized ⟨ts⟩ tabSize).tokens := by
    rw [Pattern.normalized, htokens, List.map_cons]
    rfl
  refine ⟨_, _, hnormal, ?_⟩
  simp [hlit, Text.normalize, Text.expandTab]

/-- A class never begins inside a word. -/
theorem OpensClass.not_isWord {p : Pattern} (h : p.OpensClass) {before : Option Char}
    (hbegin : p.BeginsAfter before) : before.any Text.isWord = false := by
  obtain ⟨t, ts, htokens, hlit⟩ := h
  obtain ⟨u, us, c, cs, hu, hcs, hword⟩ := hbegin
  rw [htokens] at hu
  cases hu
  rw [hlit] at hcs
  cases hcs
  have hc : Text.isWord 'c' = true := by decide
  rwa [hc, Bool.true_and] at hword

theorem opensClass_opening (name : Text) : (ClassText.opening name).OpensClass :=
  opensClass_of_prefix (prefix_add _ _ _ _ (add_ne_nil _ _ _ _))

theorem anchored_opening (name : Text) : (ClassText.opening name).Anchored := by
  have hgrown : (ClassText.opening name).Grown fun _ => True :=
    (Grown.first .any trivial).word trivial
  exact hgrown.settled.built.anchored

end Pattern

theorem Node.classPattern_opensClass {n : Node} {p : Pattern} (h : n.classPattern = .ok p) :
    p.OpensClass := by
  obtain ⟨name, -, h⟩ := bind_eq_ok_iff.1 h
  have hopens := Pattern.prefix_add (Pattern.empty.lit "class".toList) name .many false
    (Pattern.add_ne_nil _ _ _ _)
  simp only at h
  split at h
  · obtain ⟨base, -, h⟩ := bind_eq_ok_iff.1 h
    cases h
    refine Pattern.opensClass_of_prefix (hopens.trans ?_)
    exact (Pattern.prefix_add _ _ _ _ (Pattern.add_ne_nil _ _ _ _)).trans
      ((Pattern.prefix_add _ _ _ _ (Pattern.add_ne_nil _ _ _ _)).trans
        (Pattern.prefix_add _ _ _ _ (Pattern.add_ne_nil _ _ _ _)))
  · cases h
    exact Pattern.opensClass_of_prefix
      (hopens.trans (Pattern.prefix_add _ _ _ _ (Pattern.add_ne_nil _ _ _ _)))

theorem Entity.pattern_opensClass {e : Entity} (hkind : e.kind = .classDecl) {tabSize : Nat}
    {p : Pattern} (h : e.pattern tabSize = .ok (.ok p)) : p.OpensClass := by
  obtain ⟨q, hq, rfl⟩ := Entity.header_of_pattern h
  rw [Entity.header, hkind] at hq
  exact (Node.classPattern_opensClass hq).normalized tabSize

/-! ## Where the parameters of a method begin -/

/-- A character that normalizing neither drops nor writes comes from the text. -/
theorem Text.mem_of_mem_normalize {tabSize : Nat} {text : Text} {c : Char}
    (h : c ∈ text.normalize tabSize) (hc : c ≠ ' ') : c ∈ text := by
  obtain ⟨d, hd, hcd⟩ := List.mem_flatMap.1 h
  have hmem := (List.mem_filter.1 hd).1
  unfold expandTab at hcd
  split at hcd
  · exact absurd (List.mem_replicate.1 hcd).2 hc
  · rwa [List.mem_singleton.1 hcd]

namespace Pattern

/-- The pattern reaches a parenthesis after literals that are all among the given ones. -/
def OpensParameters (p : Pattern) (literals : List Text) : Prop :=
  ∃ front paren back, p.tokens = front ++ paren :: back ∧ paren.literal = ['('] ∧
    paren.optional = false ∧ ∀ t ∈ front, t.literal ∈ literals

theorem literal_mem_modifiers {p : Pattern} {previous : Option String} {ms : List String}
    {t : Token} (h : t ∈ (p.modifiers previous ms).1.tokens) :
    t ∈ p.tokens ∨ t.literal ∈ ms.map String.toList := by
  induction ms generalizing p previous with
  | nil => exact Or.inl h
  | cons m rest ih =>
    rcases ih h with h | h
    · rcases literal_mem_add h with h | h
      · exact Or.inl h
      · exact Or.inr (by simp [h])
    · exact Or.inr (List.mem_cons_of_mem _ h)

theorem opensParameters_body {p : Pattern} {literals : List Text} (params : List Text)
    (h : p.tokens ≠ []) (hp : ∀ t ∈ p.tokens, t.literal ∈ literals) :
    (p.parameterList params).body.OpensParameters literals := by
  exact ⟨p.tokens, ⟨.any, ['('], false⟩, _, parameterList_lit_tokens p params _ h, rfl, rfl, hp⟩

theorem OpensParameters.normalized {p : Pattern} {literals : List Text}
    (h : p.OpensParameters literals) (tabSize : Nat) :
    (p.normalized tabSize).OpensParameters (literals.map (·.normalize tabSize)) := by
  obtain ⟨front, paren, back, htokens, hparen, hreq, hfront⟩ := h
  refine ⟨(Pattern.normalized ⟨front⟩ tabSize).tokens,
    { paren with literal := paren.literal.normalize tabSize },
    (Pattern.normalized ⟨back⟩ tabSize).tokens, ?_, ?_, hreq, ?_⟩
  · simp [Pattern.normalized, htokens]
  · rw [hparen]
    exact Text.normalize_singleton tabSize '(' (by decide) (by decide)
  · intro t ht
    obtain ⟨u, hu, rfl⟩ := List.mem_map.1 ht
    exact List.mem_map_of_mem (hfront u hu)

end Pattern

/-- In the header of a method only its modifiers and its name stand before the parenthesis. -/
theorem Node.methodPattern_opensParameters {n : Node} {p : Pattern} (h : n.methodPattern = .ok p) :
    ∃ name, textOf (n.fieldChild? "name") = .ok name ∧
      p.OpensParameters (name :: n.modifiers.map String.toList) := by
  obtain ⟨name, hname, h⟩ := bind_eq_ok_iff.1 h
  obtain ⟨params, -, h⟩ := bind_eq_ok_iff.1 h
  cases h
  refine ⟨name, hname, Pattern.opensParameters_body params (Pattern.add_ne_nil _ _ _ _) ?_⟩
  intro t ht
  rcases Pattern.literal_mem_add ht with ht | ht
  · rcases Pattern.literal_mem_modifiers ht with ht | ht
    · simp [Pattern.empty] at ht
    · exact List.mem_cons_of_mem _ ht
  · exact List.mem_cons.2 (Or.inl ht)

theorem Entity.pattern_opensParameters {e : Entity} (hkind : e.kind = .method) {tabSize : Nat}
    {p : Pattern} (h : e.pattern tabSize = .ok (.ok p)) :
    ∃ name, textOf (e.node.fieldChild? "name") = .ok name ∧ p.OpensParameters
      ((name :: e.node.modifiers.map String.toList).map (·.normalize tabSize)) := by
  obtain ⟨q, hq, rfl⟩ := Entity.header_of_pattern h
  rw [Entity.header, hkind] at hq
  obtain ⟨name, hname, hopens⟩ := Node.methodPattern_opensParameters hq
  exact ⟨name, hname, hopens.normalized tabSize⟩

/-- The header of a class ends in the brace that opens its body. -/
theorem Entity.pattern_finished_brace {e : Entity} (hkind : e.kind = .classDecl) {tabSize : Nat}
    {p : Pattern} (h : e.pattern tabSize = .ok (.ok p)) : p.Finished [Text.openBrace] := by
  obtain ⟨q, hq, rfl⟩ := Entity.header_of_pattern h
  rw [Entity.header, hkind] at hq
  have hfinished := (Node.classPattern_finished hq).normalized tabSize
  rwa [Text.normalize_singleton tabSize _ (by decide) (by decide)] at hfinished

end HeaderCatalog
