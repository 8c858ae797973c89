import HeaderCatalog.Header
import HeaderCatalog.Proofs.Matching

/-!
# HeaderCatalog.Proofs.HeaderGrowth — how headers are put together

Every header grows from its first token by required tokens, each behind a gap, and by parameter
lists (`Pattern.Grown`). The relation also carries a property `ok` of literals, so that one walk
over the builders of headers serves every property of texts:

* `Entity.Quotes` gives the texts that an entity brings into its header: its names, parameters and
  modifiers, and what a class extends;
* `Entity.header_grown`: if these texts and the fixed marks of headers are `ok`, the header of the
  entity has grown by `ok` literals and then ends in a brace or an arrow.

What follows for every header is its shape, `Pattern.Settled`: the first token is required and has
no gap, the others have one, and an optional token is a comma right before a closing parenthesis.
-/

namespace HeaderCatalog

namespace Pattern

/-! ## Adding tokens -/

theorem add_of_ne_nil (p : Pattern) (literal : Text) (gap : Gap) (optional : Bool)
    (h : p.tokens ≠ []) :
    (p.add literal gap optional).tokens = p.tokens ++ [⟨gap, literal, optional⟩] := by
  simp [add, h]

theorem add_ne_nil (p : Pattern) (literal : Text) (gap : Gap) (optional : Bool) :
    (p.add literal gap optional).tokens ≠ [] := by
  unfold add
  split
  · simp
  · simp

/-- Adding a token leaves the tokens in front of it as they are. -/
theorem prefix_add (p : Pattern) (literal : Text) (gap : Gap) (optional : Bool)
    (h : p.tokens ≠ []) : p.tokens <+: (p.add literal gap optional).tokens := by
  rw [add_of_ne_nil p literal gap optional h]
  exact List.prefix_append _ _

/-- The token that was added last, with the literal it was given. -/
theorem getLast?_add (p : Pattern) (literal : Text) (gap : Gap) :
    ∃ t, (p.add literal gap false).tokens.getLast? = some t ∧ t.literal = literal ∧
      t.optional = false := by
  unfold add
  split
  · exact ⟨_, rfl, rfl, rfl⟩
  · exact ⟨_, List.getLast?_concat .., rfl, rfl⟩

theorem literal_mem_add {p : Pattern} {literal : Text} {gap : Gap} {optional : Bool} {t : Token}
    (h : t ∈ (p.add literal gap optional).tokens) : t ∈ p.tokens ∨ t.literal = literal := by
  unfold add at h
  split at h
  · rw [List.mem_singleton] at h
    exact Or.inr (by rw [h])
  · rw [List.mem_append, List.mem_singleton] at h
    rcases h with h | rfl
    · exact Or.inl h
    · exact Or.inr rfl

/-! ## The tokens of a parameter list -/

/-- The tokens of names with commas between them. -/
def nameTokens : List Text → List Token
  | [] => []
  | [name] => [⟨.any, name, false⟩]
  | name :: rest => ⟨.any, name, false⟩ :: ⟨.any, [','], false⟩ :: nameTokens rest

/-- The tokens of a parameter list. Only the comma behind the last name is optional. -/
def parameterTokens (params : List Text) : List Token :=
  ⟨.any, ['('], false⟩ :: (nameTokens params ++
    ((if params.isEmpty then [] else [⟨.any, [','], true⟩]) ++ [⟨.any, [')'], false⟩]))

theorem names_tokens (p : Pattern) (params : List Text) (h : p.tokens ≠ []) :
    (p.names params).tokens = p.tokens ++ nameTokens params := by
  fun_induction Pattern.names p params with
  | case1 p => simp [nameTokens]
  | case2 p name => exact add_of_ne_nil p name .any false h
  | case3 p name rest hrest ih =>
    have hname := add_of_ne_nil p name .any false h
    have hcomma := add_of_ne_nil (p.lit name) [','] .any false (add_ne_nil _ _ _ _)
    rw [ih (add_ne_nil _ _ _ _), nameTokens.eq_3 _ _ hrest, lit, hcomma, lit, hname]
    simp

theorem parameterList_tokens (p : Pattern) (params : List Text) (h : p.tokens ≠ []) :
    (p.parameterList params).tokens = p.tokens ++ parameterTokens params := by
  have hopen := add_of_ne_nil p ['('] .any false h
  have hnames := names_tokens (p.lit ['(']) params (add_ne_nil _ _ _ _)
  rw [lit, hopen] at hnames
  have hne : ((p.lit ['(']).names params).tokens ≠ [] := by
    rw [lit, hnames]
    simp
  unfold parameterList
  split
  · rw [lit, add_of_ne_nil _ _ _ _ hne, lit, hnames]
    simp [parameterTokens, *]
  · have hcomma := add_of_ne_nil _ [','] .any true hne
    rw [lit, add_of_ne_nil _ _ _ _ (add_ne_nil _ _ _ _), hcomma, lit, hnames]
    simp [parameterTokens, *]

/-- A parameter list and what closes the header behind it. -/
theorem parameterList_lit_tokens (p : Pattern) (params : List Text) (closing : Text)
    (h : p.tokens ≠ []) :
    ((p.parameterList params).lit closing).tokens =
      p.tokens ++ (parameterTokens params ++ [⟨.any, closing, false⟩]) := by
  have hlist := parameterList_tokens p params h
  have hne : (p.parameterList params).tokens ≠ [] := by
    rw [hlist]
    simp [parameterTokens]
  rw [lit, add_of_ne_nil _ _ _ _ hne, hlist, List.append_assoc]

/-- Names stand in required tokens, as do the commas between them. -/
theorem mem_nameTokens {params : List Text} {t : Token} (h : t ∈ nameTokens params) :
    t.gap = .any ∧ t.optional = false ∧ (t.literal ∈ params ∨ t.literal = [',']) := by
  fun_induction nameTokens params with
  | case1 => cases h
  | case2 name =>
    rw [List.mem_singleton] at h
    simp [h]
  | case3 name rest _ ih =>
    rcases List.mem_cons.1 h with rfl | h
    · simp
    · rcases List.mem_cons.1 h with rfl | h
      · simp
      · obtain ⟨hgap, hreq, hliteral⟩ := ih h
        refine ⟨hgap, hreq, ?_⟩
        rcases hliteral with hname | hcomma
        · exact Or.inl (List.mem_cons_of_mem _ hname)
        · exact Or.inr hcomma

end Pattern

/-! ## The shape of headers -/

/-- Tokens behind the first one: each has a gap, and an optional one is a comma with a closing
parenthesis right behind it. -/
inductive SettledTail : List Token → Prop where
  | nil : SettledTail []
  | required {t : Token} {ts : List Token} : t.gap ≠ .none → t.optional = false →
      SettledTail ts → SettledTail (t :: ts)
  | comma {t u : Token} {ts : List Token} : t.gap ≠ .none → t.literal = [','] →
      u.gap ≠ .none → u.literal = [')'] → u.optional = false →
      SettledTail ts → SettledTail (t :: u :: ts)

namespace SettledTail

theorem append {ts us : List Token} (hts : SettledTail ts) (hus : SettledTail us) :
    SettledTail (ts ++ us) := by
  induction hts with
  | nil => exact hus
  | required hgap hreq _ ih => exact .required hgap hreq ih
  | comma hgap hlit hgap' hlit' hreq _ ih => exact .comma hgap hlit hgap' hlit' hreq ih

theorem of_required {ts : List Token} (h : ∀ t ∈ ts, t.gap ≠ .none ∧ t.optional = false) :
    SettledTail ts := by
  induction ts with
  | nil => exact .nil
  | cons t ts ih =>
    obtain ⟨hgap, hreq⟩ := h t List.mem_cons_self
    exact .required hgap hreq (ih fun u hu => h u (List.mem_cons_of_mem _ hu))

theorem parameterTokens (params : List Text) : SettledTail (Pattern.parameterTokens params) := by
  have hnames : SettledTail (Pattern.nameTokens params) := by
    refine of_required fun t ht => ?_
    obtain ⟨hgap, hreq, -⟩ := Pattern.mem_nameTokens ht
    exact ⟨by simp [hgap], hreq⟩
  refine .required (by decide) rfl (hnames.append ?_)
  split
  · exact .required (by decide) rfl .nil
  · exact .comma (by decide) rfl (by decide) rfl rfl .nil

/-- Only commas are optional. -/
theorem comma_of_optional {ts : List Token} (h : SettledTail ts) :
    ∀ t ∈ ts, t.optional = true → t.literal = [','] := by
  induction h with
  | nil => simp
  | required _ hreq _ ih => simpa [hreq] using ih
  | comma _ hlit _ _ hreq _ ih => simpa [hlit, hreq] using ih

end SettledTail

/-- The first token is required and has no gap, and the others are settled. -/
def Pattern.Settled (p : Pattern) : Prop :=
  ∃ t ts, p.tokens = t :: ts ∧ t.gap = .none ∧ t.optional = false ∧ SettledTail ts

namespace Pattern

/-- Settled tokens may be added to a settled pattern. -/
theorem Settled.append {p q : Pattern} (h : p.Settled) {ts : List Token} (hts : SettledTail ts)
    (hq : q.tokens = p.tokens ++ ts) : q.Settled := by
  obtain ⟨t, us, htokens, hgap, hreq, hus⟩ := h
  refine ⟨t, us ++ ts, ?_, hgap, hreq, hus.append hts⟩
  rw [hq, htokens, List.cons_append]

/-! ## Growth -/

/-- The words and marks of headers that are the same for all entities. -/
def marks : List Text :=
  ["async".toList, "function".toList, "class".toList, "extends".toList, "=>".toList, ['='], ['*'],
    ['('], [','], [')'], [Text.openBrace]]

/-- A header that has grown from its first token by required tokens, each behind a gap, and by
parameter lists. The literals it was given are all `ok`. -/
inductive Grown (ok : Text → Prop) : Pattern → Prop where
  | first {literal : Text} (gap : Gap) : ok literal → Grown ok (Pattern.empty.add literal gap false)
  | required {p : Pattern} {literal : Text} {gap : Gap} : Grown ok p → ok literal →
      gap ≠ .none → Grown ok (p.add literal gap false)
  | parameters {p : Pattern} {params : List Text} : Grown ok p → (∀ name ∈ params, ok name) →
      Grown ok (p.parameterList params)

theorem gap_of_mem_parameterTokens {params : List Text} {t : Token}
    (h : t ∈ parameterTokens params) : t.gap = .any := by
  unfold parameterTokens at h
  rcases List.mem_cons.1 h with rfl | h
  · rfl
  · rcases List.mem_append.1 h with h | h
    · exact (mem_nameTokens h).1
    · split at h
      · rw [List.nil_append, List.mem_singleton] at h
        rw [h]
      · simp only [List.cons_append, List.nil_append, List.mem_cons, List.not_mem_nil,
          or_false] at h
        rcases h with rfl | rfl
        · rfl
        · rfl

theorem literal_mem_parameterTokens {params : List Text} {t : Token}
    (h : t ∈ parameterTokens params) : t.literal ∈ params ∨ t.literal ∈ marks := by
  unfold parameterTokens at h
  rcases List.mem_cons.1 h with rfl | h
  · simp [marks]
  · rcases List.mem_append.1 h with h | h
    · rcases (mem_nameTokens h).2.2 with hname | hcomma
      · exact Or.inl hname
      · simp [marks, hcomma]
    · have hlast : t.literal = [','] ∨ t.literal = [')'] := by
        split at h
        · simp_all
        · simp only [List.cons_append, List.nil_append, List.mem_cons, List.not_mem_nil,
            or_false] at h
          rcases h with rfl | rfl
          · exact Or.inl rfl
          · exact Or.inr rfl
      rcases hlast with hlast | hlast
      · simp [marks, hlast]
      · simp [marks, hlast]

section Grown

variable {ok : Text → Prop} {p : Pattern}

theorem Grown.lit (h : p.Grown ok) {literal : Text} (hok : ok literal) : (p.lit literal).Grown ok :=
  h.required hok (by decide)

theorem Grown.word (h : p.Grown ok) {literal : Text} (hok : ok literal) :
    (p.word literal).Grown ok :=
  h.required hok (by decide)

theorem Grown.ne_nil (h : p.Grown ok) : p.tokens ≠ [] := by
  induction h with
  | first gap _ => exact add_ne_nil _ _ _ _
  | required _ _ _ _ => exact add_ne_nil _ _ _ _
  | parameters _ _ ih =>
    rw [parameterList_tokens _ _ ih]
    simp [parameterTokens]

/-- A header that has grown is settled, whatever its literals are. -/
theorem Grown.settled (h : p.Grown ok) : p.Settled := by
  induction h with
  | first gap _ => exact ⟨_, [], rfl, rfl, rfl, .nil⟩
  | required hp _ hgap ih =>
    exact ih.append (.required hgap rfl .nil) (add_of_ne_nil _ _ _ _ hp.ne_nil)
  | parameters hp _ ih =>
    exact ih.append (.parameterTokens _) (parameterList_tokens _ _ hp.ne_nil)

/-- Every literal of a header that has grown is `ok`, if the marks of parameter lists are. -/
theorem Grown.ok_literal (hmarks : ∀ t ∈ marks, ok t) (h : p.Grown ok) :
    ∀ t ∈ p.tokens, ok t.literal := by
  induction h with
  | first gap hok =>
    intro t ht
    rw [List.mem_singleton.1 ht]
    exact hok
  | required _ hok _ ih =>
    intro t ht
    rcases literal_mem_add ht with ht | ht
    · exact ih t ht
    · exact ht ▸ hok
  | parameters hp hparams ih =>
    intro t ht
    rw [parameterList_tokens _ _ hp.ne_nil, List.mem_append] at ht
    rcases ht with ht | ht
    · exact ih t ht
    · rcases literal_mem_parameterTokens ht with hname | hmark
      · exact hparams _ hname
      · exact hmarks _ hmark

/-- A token behind a gap may be added also where nothing has been added yet. -/
theorem Grown.of_empty_or (h : p = .empty ∨ p.Grown ok) {literal : Text} (hok : ok literal)
    {gap : Gap} (hgap : gap ≠ .none) : (p.add literal gap false).Grown ok := by
  rcases h with rfl | h
  · exact .first gap hok
  · exact h.required hok hgap

theorem Grown.modifiers (h : p = .empty ∨ p.Grown ok) (previous : Option String)
    (ms : List String) (hms : ∀ m ∈ ms, ok m.toList) :
    (p.modifiers previous ms).1 = .empty ∨ (p.modifiers previous ms).1.Grown ok := by
  induction ms generalizing p previous with
  | nil => exact h
  | cons m rest ih =>
    refine ih (Or.inr ?_) (some m) fun m' hm' => hms m' (List.mem_cons_of_mem _ hm')
    refine Grown.of_empty_or h (hms m List.mem_cons_self) ?_
    split
    · decide
    · decide

end Grown
end Pattern

/-! ## The texts of an entity -/

/-- The text is one that the header of the entity quotes from its tree. -/
inductive Entity.Quotes (e : Entity) : Text → Prop where
  | name {t : Text} : textOf (e.node.fieldChild? "name") = .ok t → Quotes e t
  | parameter {params : List Text} {t : Text} : e.parameters = .ok (some params) → t ∈ params →
      Quotes e t
  /-- The single parameter of an arrow function that stands without parentheses. -/
  | bare {value single : Node} {t : Text} : e.kind = .variable →
      e.node.fieldChild? "value" = some value → value.fieldChild? "parameter" = some single →
      single.text = .ok t → Quotes e t
  /-- The name that the function value of a variable has of its own. -/
  | valueName {value name : Node} {t : Text} : e.kind = .variable →
      e.node.fieldChild? "value" = some value → value.fieldChild? "name" = some name →
      name.text = .ok t → Quotes e t
  /-- What a class extends. -/
  | heritage {base : Node} {t : Text} : e.kind = .classDecl →
      (e.node.namedChildren.find? (·.kind == "class_heritage")).bind (·.namedChildren.head?) =
        some base → base.text = .ok t → Quotes e t
  | modifier {m : String} : e.kind = .method → m ∈ e.node.modifiers → Quotes e m.toList

/-! ## The builders of headers -/

namespace Node

variable {ok : Text → Prop} (hmarks : ∀ t ∈ Pattern.marks, ok t)
include hmarks

theorem functionPattern_grown {n : Node} {p : Pattern} (h : n.functionPattern = .ok p)
    (hname : ∀ t, textOf (n.fieldChild? "name") = .ok t → ok t)
    (hparams : ∀ ps, n.parameters = .ok ps → ∀ t ∈ ps, ok t) :
    ∃ q : Pattern, q.Grown ok ∧ p = q.body := by
  obtain ⟨name, hn, h⟩ := bind_eq_ok_iff.1 h
  obtain ⟨params, hp, h⟩ := bind_eq_ok_iff.1 h
  cases h
  have hfunction := hmarks "function".toList (by simp [Pattern.marks])
  have hstart : (if n.hasChild "async" then
      (Pattern.empty.lit "async".toList).word "function".toList
      else Pattern.empty.lit "function".toList).Grown ok := by
    split
    · exact (Pattern.Grown.first .any (hmarks _ (by simp [Pattern.marks]))).word hfunction
    · exact .first .any hfunction
  refine ⟨_, .parameters ?_ (hparams params hp), rfl⟩
  split
  · exact (hstart.lit (hmarks _ (by simp [Pattern.marks]))).lit (hname name hn)
  · exact hstart.word (hname name hn)

omit hmarks in
theorem arrowPattern_grown {value : Node} {isAsync : Bool} {p q : Pattern} (hp : p.Grown ok)
    (h : value.arrowPattern isAsync p = .ok q)
    (hsingle : ∀ n t, value.fieldChild? "parameter" = some n → n.text = .ok t → ok t)
    (hparams : ∀ ps, value.parameters = .ok ps → ∀ t ∈ ps, ok t) :
    ∃ q' : Pattern, q'.Grown ok ∧ q = q'.lit "=>".toList := by
  unfold arrowPattern at h
  split at h
  · rename_i single hfield
    obtain ⟨t, ht, h⟩ := bind_eq_ok_iff.1 h
    cases h
    refine ⟨_, hp.required (hsingle single t hfield ht) ?_, rfl⟩
    split
    · decide
    · decide
  · obtain ⟨params, hps, h⟩ := bind_eq_ok_iff.1 h
    cases h
    exact ⟨_, .parameters hp (hparams params hps), rfl⟩

theorem functionValuePattern_grown {value : Node} {isAsync : Bool} {p q : Pattern}
    (hp : p.Grown ok) (h : value.functionValuePattern isAsync p = .ok q)
    (hname : ∀ n t, value.fieldChild? "name" = some n → n.text = .ok t → ok t)
    (hparams : ∀ ps, value.parameters = .ok ps → ∀ t ∈ ps, ok t) :
    ∃ q' : Pattern, q'.Grown ok ∧ q = q'.body := by
  have hfunction := hmarks "function".toList (by simp [Pattern.marks])
  have hkeyword : (p.add "function".toList (if isAsync then .many else .any) false).Grown ok := by
    refine hp.required hfunction ?_
    split
    · decide
    · decide
  have hstarred : (if value.hasChild "*" then
      (p.add "function".toList (if isAsync then .many else .any) false).lit ['*']
      else p.add "function".toList (if isAsync then .many else .any) false).Grown ok := by
    split
    · exact hkeyword.lit (hmarks _ (by simp [Pattern.marks]))
    · exact hkeyword
  simp only [functionValuePattern] at h
  split at h
  · rename_i name hfield
    obtain ⟨t, ht, h⟩ := bind_eq_ok_iff.1 h
    obtain ⟨named, hnamed, h⟩ := bind_eq_ok_iff.1 h
    obtain ⟨params, hps, h⟩ := bind_eq_ok_iff.1 h
    cases hnamed
    cases h
    refine ⟨_, .parameters (.required hstarred (hname name t hfield ht) ?_) (hparams params hps),
      rfl⟩
    split
    · decide
    · decide
  · obtain ⟨named, hnamed, h⟩ := bind_eq_ok_iff.1 h
    obtain ⟨params, hps, h⟩ := bind_eq_ok_iff.1 h
    cases hnamed
    cases h
    exact ⟨_, .parameters hstarred (hparams params hps), rfl⟩

/-- The header of a variable ends in an arrow or in a brace. -/
theorem variablePattern_grown {n : Node} {p : Pattern} (h : n.variablePattern = .ok p)
    (hname : ∀ t, textOf (n.fieldChild? "name") = .ok t → ok t)
    (hsingle : ∀ value single t, n.fieldChild? "value" = some value →
      value.fieldChild? "parameter" = some single → single.text = .ok t → ok t)
    (hvalueName : ∀ value name t, n.fieldChild? "value" = some value →
      value.fieldChild? "name" = some name → name.text = .ok t → ok t)
    (hparams : ∀ value ps, n.fieldChild? "value" = some value → value.parameters = .ok ps →
      ∀ t ∈ ps, ok t) :
    ∃ q : Pattern, q.Grown ok ∧ (p = q.lit "=>".toList ∨ p = q.body) := by
  obtain ⟨name, hn, h⟩ := bind_eq_ok_iff.1 h
  have hassigned : ((Pattern.empty.lit name).lit ['=']).Grown ok :=
    (Pattern.Grown.first .any (hname name hn)).lit (hmarks _ (by simp [Pattern.marks]))
  split at h
  · cases h
  · rename_i value hvalue
    have hstart : (if value.hasChild "async" then
        ((Pattern.empty.lit name).lit ['=']).lit "async".toList
        else (Pattern.empty.lit name).lit ['=']).Grown ok := by
      split
      · exact hassigned.lit (hmarks _ (by simp [Pattern.marks]))
      · exact hassigned
    simp only at h
    split at h
    · obtain ⟨q, hq, rfl⟩ := arrowPattern_grown hstart h (fun n t => hsingle value n t hvalue)
        (fun ps => hparams value ps hvalue)
      exact ⟨q, hq, Or.inl rfl⟩
    · obtain ⟨q, hq, rfl⟩ := functionValuePattern_grown hmarks hstart h
        (fun n t => hvalueName value n t hvalue) (fun ps => hparams value ps hvalue)
      exact ⟨q, hq, Or.inr rfl⟩

theorem classPattern_grown {n : Node} {p : Pattern} (h : n.classPattern = .ok p)
    (hname : ∀ t, textOf (n.fieldChild? "name") = .ok t → ok t)
    (hheritage : ∀ base t,
      (n.namedChildren.find? (·.kind == "class_heritage")).bind (·.namedChildren.head?) =
        some base → base.text = .ok t → ok t) :
    ∃ q : Pattern, q.Grown ok ∧ p = q.body := by
  obtain ⟨name, hn, h⟩ := bind_eq_ok_iff.1 h
  have hnamed : ((Pattern.empty.lit "class".toList).word name).Grown ok :=
    (Pattern.Grown.first .any (hmarks _ (by simp [Pattern.marks]))).word (hname name hn)
  simp only at h
  split at h
  · rename_i base hbase
    obtain ⟨t, ht, h⟩ := bind_eq_ok_iff.1 h
    cases h
    have hextends := hmarks "extends".toList (by simp [Pattern.marks])
    exact ⟨_, (hnamed.word hextends).word (hheritage base t hbase ht), rfl⟩
  · cases h
    exact ⟨_, hnamed, rfl⟩

omit hmarks in
theorem methodPattern_grown {n : Node} {p : Pattern} (h : n.methodPattern = .ok p)
    (hname : ∀ t, textOf (n.fieldChild? "name") = .ok t → ok t)
    (hmodifiers : ∀ m ∈ n.modifiers, ok m.toList)
    (hparams : ∀ ps, n.methodParameters = .ok ps → ∀ t ∈ ps, ok t) :
    ∃ q : Pattern, q.Grown ok ∧ p = q.body := by
  obtain ⟨name, hn, h⟩ := bind_eq_ok_iff.1 h
  obtain ⟨params, hps, h⟩ := bind_eq_ok_iff.1 h
  cases h
  have hbegun : (Pattern.empty.modifiers none n.modifiers).1 = .empty ∨
      (Pattern.empty.modifiers none n.modifiers).1.Grown ok :=
    Pattern.Grown.modifiers (Or.inl rfl) none n.modifiers hmodifiers
  refine ⟨_, .parameters (.of_empty_or hbegun (hname name hn) ?_) (hparams params hps), rfl⟩
  split
  · decide
  · decide

end Node

/-- A header grows by the fixed marks of headers and by texts that the entity quotes, and ends in an
arrow or in a brace. -/
theorem Entity.header_grown {ok : Text → Prop} (hmarks : ∀ t ∈ Pattern.marks, ok t) {e : Entity}
    (hquotes : ∀ t, e.Quotes t → ok t) {p : Pattern} (h : e.header = .ok p) :
    ∃ q : Pattern, q.Grown ok ∧ (p = q.lit "=>".toList ∨ p = q.body) := by
  have hname : ∀ t, textOf (e.node.fieldChild? "name") = .ok t → ok t :=
    fun t ht => hquotes t (.name ht)
  unfold Entity.header at h
  split at h
  · rename_i hkind
    have hparams : ∀ ps, e.node.parameters = .ok ps → ∀ t ∈ ps, ok t := by
      intro ps hps t ht
      refine hquotes t (.parameter ?_ ht)
      rw [Entity.parameters, hkind]
      exact bind_eq_ok_iff.2 ⟨ps, hps, rfl⟩
    obtain ⟨q, hq, rfl⟩ := Node.functionPattern_grown hmarks h hname hparams
    exact ⟨q, hq, Or.inr rfl⟩
  · rename_i hkind
    refine Node.variablePattern_grown hmarks h hname ?_ ?_ ?_
    · intro value single t hvalue hsingle ht
      exact hquotes t (.bare hkind hvalue hsingle ht)
    · intro value name t hvalue hvalueName ht
      exact hquotes t (.valueName hkind hvalue hvalueName ht)
    · intro value ps hvalue hps t ht
      refine hquotes t (.parameter ?_ ht)
      simp only [Entity.parameters, hkind, hvalue]
      exact bind_eq_ok_iff.2 ⟨ps, hps, rfl⟩
  · rename_i hkind
    obtain ⟨q, hq, rfl⟩ := Node.classPattern_grown hmarks h hname
      fun base t hbase ht => hquotes t (.heritage hkind hbase ht)
    exact ⟨q, hq, Or.inr rfl⟩
  · rename_i hkind
    have hparams : ∀ ps, e.node.methodParameters = .ok ps → ∀ t ∈ ps, ok t := by
      intro ps hps t ht
      refine hquotes t (.parameter ?_ ht)
      rw [Entity.parameters, hkind]
      exact bind_eq_ok_iff.2 ⟨ps, hps, rfl⟩
    obtain ⟨q, hq, rfl⟩ := Node.methodPattern_grown h hname
      (fun m hm => hquotes _ (.modifier hkind hm)) hparams
    exact ⟨q, hq, Or.inr rfl⟩

end HeaderCatalog
