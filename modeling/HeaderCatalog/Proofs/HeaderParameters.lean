import HeaderCatalog.Proofs.Layouts
import HeaderCatalog.Proofs.Presence
import HeaderCatalog.Proofs.WellFormedTrees
import HeaderCatalog.Text.Digit
import Mathlib.Data.List.DropRight

/-!
# HeaderCatalog.Proofs.HeaderParameters — parameters and headers say the same

The parameters of a descriptor come from the tree, its header from the text. They agree, as the
pattern of an entity has all its parameters in it: whoever reads the names out of the header,
from its last pair of parentheses (`Text.listedParameters`), gets the parameters.

* `lists_of_keeps`: the names in a text that is laid out by the tokens of a parameter list are read
  back;
* `Entity.header_parameters`, `Entity.header_bare`: how the header of an entity ends;
* `Entity.identifier_of_parameters`: the parameters are texts of identifiers of the tree.
-/

namespace HeaderCatalog

/-! ## Reading names out of a text -/

namespace Text

/-- The offset of the last `c`, if there is one. -/
def lastIndex? (c : Char) : Text → Option Nat
  | [] => none
  | d :: rest =>
    match lastIndex? c rest with
    | some i => some (i + 1)
    | none => if d = c then some 0 else none

/-- What stands between commas, without the white space around it. -/
def fields (text : Text) : List Text :=
  (text.splitOn ',').map (trim isBlank)

/-- What stands between commas; a last empty piece does not count. -/
def listed (text : Text) : List Text :=
  if text.fields.getLast? = some [] then text.fields.dropLast else text.fields

/-- What is listed between the last opening and the last closing parenthesis. -/
def listedParameters (header : Text) : Option (List Text) := do
  let start ← lastIndex? '(' header
  let stop ← lastIndex? ')' header
  return (header.slice (start + 1) stop).listed

/-- The marks of parameter lists, and white space. -/
def separators : List Char := [',', '(', ')', ' ', '\t', '\n', '\r']

/-- The text has no marks of parameter lists and no white space in it. -/
def Unmarked (text : Text) : Prop :=
  ∀ c ∈ text, c ∉ separators

instance (text : Text) : Decidable text.Unmarked :=
  List.decidableBAll (· ∉ separators) text

theorem Unmarked.not_isBlank {text : Text} (h : text.Unmarked) :
    ∀ c ∈ text, isBlank c = false := by
  intro c hc
  have hmark := h c hc
  simp only [separators, List.mem_cons, List.not_mem_nil, or_false, not_or] at hmark
  simp [isBlank, hmark]

theorem Unmarked.notMem {text : Text} (h : text.Unmarked) {c : Char} (hc : c ∈ separators) :
    c ∉ text :=
  fun hmem => h c hmem hc

theorem Unmarked.normalize_eq {text : Text} (h : text.Unmarked) (tabSize : Nat) :
    text.normalize tabSize = text :=
  normalize_eq_self (h.notMem (by decide)) (h.notMem (by decide)) tabSize

theorem lastIndex?_of_notMem {c : Char} {text : Text} (h : c ∉ text) :
    lastIndex? c text = none := by
  induction text with
  | nil => rfl
  | cons d rest ih =>
    rw [List.mem_cons, not_or] at h
    simp [lastIndex?, ih h.2, Ne.symm h.1]

theorem lastIndex?_append {c : Char} (front : Text) {back : Text} (h : c ∉ back) :
    lastIndex? c (front ++ c :: back) = some front.length := by
  induction front with
  | nil => simp [lastIndex?, lastIndex?_of_notMem h]
  | cons d front ih =>
    rw [List.cons_append]
    simp [lastIndex?, ih]

/-- The text between the last pair of parentheses, where it can be seen. -/
theorem listedParameters_eq (front : Text) {inner back : Text} (hopen : '(' ∉ inner ++ back)
    (hclose : ')' ∉ back) :
    listedParameters (front ++ '(' :: (inner ++ ')' :: back)) = some inner.listed := by
  have hstart : lastIndex? '(' (front ++ '(' :: (inner ++ ')' :: back)) = some front.length := by
    apply lastIndex?_append
    simpa using hopen
  have hsplit : front ++ '(' :: (inner ++ ')' :: back) =
      (front ++ '(' :: inner) ++ ')' :: back := by
    simp
  have hstop : lastIndex? ')' (front ++ '(' :: (inner ++ ')' :: back)) =
      some (front ++ '(' :: inner).length := by
    rw [hsplit]
    exact lastIndex?_append _ hclose
  have hslice : (front ++ '(' :: (inner ++ ')' :: back)).slice (front.length + 1)
      (front ++ '(' :: inner).length = inner := by
    rw [hsplit, slice, List.take_left]
    simp
  simp only [listedParameters, hstart, hstop, Option.bind_eq_bind, Option.bind_some, hslice]
  rfl

theorem notMem_of_isBlank {gap : Text} (h : ∀ c ∈ gap, isBlank c = true) {c : Char}
    (hc : isBlank c = false) : c ∉ gap := by
  intro hmem
  rw [h c hmem] at hc
  cases hc

theorem trim_padded {before name after : Text} (hbefore : ∀ c ∈ before, isBlank c = true)
    (hname : ∀ c ∈ name, isBlank c = false) (hafter : ∀ c ∈ after, isBlank c = true) :
    trim isBlank (before ++ name ++ after) = name := by
  -- Cutting white space stops at the first character of a name, seen from either end.
  have hkept : ∀ {t : Text} (rest : Text), (∀ c ∈ t, isBlank c = false) →
      (t ++ rest).dropWhile isBlank = if t = [] then rest.dropWhile isBlank else t ++ rest := by
    intro t rest ht
    cases t with
    | nil => rfl
    | cons c t => simp [ht c List.mem_cons_self]
  rw [trim, List.append_assoc, List.dropWhile_append_of_pos hbefore, hkept after hname]
  split
  · rename_i hnil
    rw [hnil, List.dropWhile_eq_nil_iff.2 hafter]
    rfl
  · rename_i hne
    have hback : ∀ c ∈ after.reverse, isBlank c = true := by simpa using hafter
    have hlast : ∀ c ∈ name.reverse, isBlank c = false := by simpa using hname
    have hstop := hkept [] hlast
    rw [List.append_nil, if_neg (by simpa using hne)] at hstop
    rw [List.reverse_append, List.dropWhile_append_of_pos hback, hstop, List.reverse_reverse]

/-- White space behind a name can be cut off. -/
theorem suffix_rdropWhile (front : Text) {name after : Text}
    (hname : ∀ c ∈ name, isBlank c = false) (hafter : ∀ c ∈ after, isBlank c = true) :
    name <:+ (front ++ name ++ after).rdropWhile isBlank := by
  have hback : ∀ c ∈ after.reverse, isBlank c = true := by simpa using hafter
  have hcut : (front ++ name ++ after).rdropWhile isBlank = (front ++ name).rdropWhile isBlank := by
    rw [List.rdropWhile, List.reverse_append, List.dropWhile_append_of_pos hback]
    rfl
  rw [hcut]
  rcases List.eq_nil_or_concat name with rfl | ⟨init, last, rfl⟩
  · exact List.nil_suffix
  · have hlast := hname last (by simp)
    rw [List.concat_eq_append, ← List.append_assoc,
      List.rdropWhile_concat_neg _ _ _ (by simp [hlast])]
    exact ⟨front, by simp⟩

theorem fields_of_notMem {text : Text} (h : ',' ∉ text) : text.fields = [text.trim isBlank] := by
  have hsplit : text.splitOn ',' = [text] := by
    refine List.splitOnP_eq_singleton fun c hc => ?_
    simp only [beq_eq_false_iff_ne]
    rintro rfl
    exact h hc
  rw [fields, hsplit]
  rfl

theorem fields_append {first : Text} (h : ',' ∉ first) (rest : Text) :
    (first ++ ',' :: rest).fields = first.trim isBlank :: rest.fields := by
  have hsplit : (first ++ ',' :: rest).splitOn ',' = first.splitOn ',' ++ rest.splitOn ',' :=
    List.splitOnP_append_cons first rest (by decide)
  have hfirst := fields_of_notMem h
  unfold fields at hfirst ⊢
  rw [hsplit, List.map_append, hfirst]
  rfl

theorem fields_of_isBlank {gap : Text} (h : ∀ c ∈ gap, isBlank c = true) : gap.fields = [[]] := by
  have htrim : trim isBlank (gap ++ [] ++ []) = [] := trim_padded h (by simp) (by simp)
  rw [List.append_nil, List.append_nil] at htrim
  rw [fields_of_notMem (notMem_of_isBlank h (by decide)), htrim]

theorem listed_of_fields {text : Text} {names : List Text} (hne : ∀ name ∈ names, name ≠ [])
    (h : text.fields = names ∨ text.fields = names ++ [[]]) : text.listed = names := by
  unfold listed
  rcases h with h | h
  · rw [h, if_neg]
    intro hlast
    exact hne [] (List.mem_of_getLast? hlast) rfl
  · rw [h, List.getLast?_concat, if_pos rfl, List.dropLast_concat]

end Text

/-! ## Parameter lists in a text -/

section Pieces

variable {pieces : List Piece} (hspaced : ∀ x ∈ pieces, x.Spaced)
include hspaced

/-- A single required token: its literal, behind white space. -/
theorem text_of_keeps_singleton {t : Token} (hreq : t.optional = false)
    (h : Keeps [t] (pieces.map (·.token))) :
    ∃ gap : Text, (∀ c ∈ gap, Text.isBlank c = true) ∧
      pieces.flatMap Piece.text = gap ++ t.literal := by
  rcases h.required hreq with ⟨x, xs, rfl, hx, hkeeps⟩
  have hgap := (hspaced x List.mem_cons_self).1
  refine ⟨x.gap, hgap, ?_⟩
  generalize hmap : xs.map (·.token) = us at hkeeps
  cases hkeeps
  rw [List.map_eq_nil_iff.1 hmap]
  simp [Piece.text, hx]

/-- The end of a list that is not empty: a comma may stand before the parenthesis. -/
theorem text_of_keeps_end
    (h : Keeps [⟨.any, [','], true⟩, ⟨.any, [')'], false⟩] (pieces.map (·.token))) :
    ∃ gap : Text, (∀ c ∈ gap, Text.isBlank c = true) ∧
      (pieces.flatMap Piece.text = gap ++ [')'] ∨
        ∃ more : Text, (∀ c ∈ more, Text.isBlank c = true) ∧
          pieces.flatMap Piece.text = gap ++ ',' :: (more ++ [')'])) := by
  generalize hmap : pieces.map (·.token) = us at h
  cases h with
  | skip _ h =>
    subst hmap
    rcases text_of_keeps_singleton hspaced rfl h with ⟨gap, hgap, htext⟩
    exact ⟨gap, hgap, Or.inl htext⟩
  | keep h =>
    rcases List.map_eq_cons_iff.1 hmap with ⟨x, xs, rfl, hx, rfl⟩
    have hxs : ∀ y ∈ xs, y.Spaced := fun y hy => hspaced y (List.mem_cons_of_mem _ hy)
    rcases text_of_keeps_singleton hxs rfl h with ⟨more, hmore, htext⟩
    refine ⟨x.gap, (hspaced x List.mem_cons_self).1, Or.inr ⟨more, hmore, ?_⟩⟩
    rw [List.flatMap_cons, htext, Piece.text, hx]
    simp

end Pieces

/-- What stands between the parentheses of a parameter list: no parentheses, and the names of the
parameters, perhaps with nothing behind a last comma. -/
structure Text.Lists (inner : Text) (params : List Text) : Prop where
  parens : ∀ c ∈ ['(', ')'], c ∉ inner
  fields : inner.fields = params ∨ inner.fields = params ++ [[]]

theorem Text.Lists.of_isBlank {gap : Text} (h : ∀ c ∈ gap, isBlank c = true) : gap.Lists [] := by
  have hblank : ∀ c ∈ ['(', ')'], isBlank c = false := by simp [isBlank]
  constructor
  · intro c hc
    exact notMem_of_isBlank h (hblank c hc)
  · exact Or.inr (fields_of_isBlank h)

section Names

variable {before name after : Text} (hbefore : ∀ c ∈ before, Text.isBlank c = true)
  (hname : name.Unmarked) (hafter : ∀ c ∈ after, Text.isBlank c = true)
include hbefore hname hafter

theorem Text.notMem_padded {c : Char} (hc : c ∈ [',', '(', ')']) : c ∉ before ++ name ++ after := by
  have hmarks : ∀ c ∈ [',', '(', ')'], isBlank c = false ∧ c ∈ separators := by
    simp [isBlank, separators]
  rcases hmarks c hc with ⟨hblank, hmark⟩
  simp [notMem_of_isBlank hbefore hblank, notMem_of_isBlank hafter hblank, hname.notMem hmark]

theorem Text.Lists.single : (before ++ name ++ after).Lists [name] := by
  have hcomma := notMem_padded hbefore hname hafter List.mem_cons_self
  constructor
  · intro c hc
    exact notMem_padded hbefore hname hafter (List.mem_cons_of_mem _ hc)
  · left
    rw [fields_of_notMem hcomma, trim_padded hbefore hname.not_isBlank hafter]

theorem Text.Lists.cons {inner : Text} {params : List Text} (h : inner.Lists params) :
    (before ++ name ++ after ++ ',' :: inner).Lists (name :: params) := by
  have hcomma := notMem_padded hbefore hname hafter List.mem_cons_self
  constructor
  · intro c hc
    have hpadded := notMem_padded hbefore hname hafter (List.mem_cons_of_mem _ hc)
    have hne : c ≠ ',' := by
      rintro rfl
      exact absurd hc (by decide)
    rw [List.mem_append, List.mem_cons]
    rintro (hfirst | rfl | hrest)
    · exact hpadded hfirst
    · exact hne rfl
    · exact h.parens c hc hrest
  · rw [fields_append hcomma, trim_padded hbefore hname.not_isBlank hafter]
    rcases h.fields with hfields | hfields
    · exact Or.inl (by rw [hfields])
    · exact Or.inr (by rw [hfields, List.cons_append])

end Names

/-- The text of the names of a parameter list and of its end. The induction is on the names: the
last one has an optional comma behind it, each of the others a required one. -/
theorem lists_of_keeps_names {params : List Text} (hne : params ≠ [])
    (hparams : ∀ name ∈ params, name.Unmarked) {pieces : List Piece}
    (hspaced : ∀ x ∈ pieces, x.Spaced)
    (h : Keeps (Pattern.nameTokens params ++ [⟨.any, [','], true⟩, ⟨.any, [')'], false⟩])
      (pieces.map (·.token))) :
    ∃ inner : Text, pieces.flatMap Piece.text = inner ++ [')'] ∧ inner.Lists params := by
  fun_induction Pattern.nameTokens params generalizing pieces with
  | case1 => exact absurd rfl hne
  | case2 name =>
    have hname := hparams name List.mem_cons_self
    rcases h.required rfl with ⟨x, xs, rfl, hx, hend⟩
    have hgap := (hspaced x List.mem_cons_self).1
    have hxs : ∀ y ∈ xs, y.Spaced := fun y hy => hspaced y (List.mem_cons_of_mem _ hy)
    rcases text_of_keeps_end hxs hend with ⟨gap, hblank, htext | ⟨more, hmore, htext⟩⟩
    · refine ⟨x.gap ++ name ++ gap, ?_, .single hgap hname hblank⟩
      rw [List.flatMap_cons, htext, Piece.text, hx]
      simp
    · refine ⟨x.gap ++ name ++ gap ++ ',' :: more, ?_, ?_⟩
      · rw [List.flatMap_cons, htext, Piece.text, hx]
        simp
      · exact .cons hgap hname hblank (.of_isBlank hmore)
  | case3 name rest hrest ih =>
    have hname := hparams name List.mem_cons_self
    rcases h.required rfl with ⟨x, xs, rfl, hx, h⟩
    rcases h.required rfl with ⟨y, ys, rfl, hy, h⟩
    have hgap := (hspaced x List.mem_cons_self).1
    have hgap' := (hspaced y (by simp)).1
    have hys : ∀ z ∈ ys, z.Spaced := fun z hz => hspaced z (by simp [hz])
    have hmore : ∀ name ∈ rest, name.Unmarked := fun n hn => hparams n (List.mem_cons_of_mem _ hn)
    have hne' : rest ≠ [] := by
      rintro rfl
      exact hrest rfl
    rcases ih hne' hmore hys h with ⟨inner, htext, hlists⟩
    refine ⟨x.gap ++ name ++ y.gap ++ ',' :: inner, ?_, .cons hgap hname hgap' hlists⟩
    rw [List.flatMap_cons, List.flatMap_cons, htext, Piece.text, hx, Piece.text, hy]
    simp

namespace Keeps

/-- What is kept of tokens in two parts is in two parts. -/
theorem append {ts us : List Token} {pieces : List Piece}
    (h : Keeps (ts ++ us) (pieces.map (·.token))) :
    ∃ xs ys, pieces = xs ++ ys ∧ Keeps ts (xs.map (·.token)) ∧ Keeps us (ys.map (·.token)) := by
  generalize hmap : pieces.map (·.token) = ws at h
  induction ts generalizing pieces ws with
  | nil =>
    subst hmap
    exact ⟨[], pieces, rfl, .nil, h⟩
  | cons t ts ih =>
    cases h with
    | keep h =>
      rcases List.map_eq_cons_iff.1 hmap with ⟨x, xs, rfl, rfl, hxs⟩
      rcases ih _ hxs h with ⟨ys, zs, rfl, hts, hus⟩
      exact ⟨x :: ys, zs, rfl, .keep hts, hus⟩
    | skip hopt h =>
      rcases ih _ hmap h with ⟨ys, zs, rfl, hts, hus⟩
      exact ⟨ys, zs, rfl, .skip hopt hts, hus⟩

end Keeps

/-- The text of a parameter list. -/
theorem lists_of_keeps {params : List Text} (hparams : ∀ name ∈ params, name.Unmarked)
    {pieces : List Piece} (hspaced : ∀ x ∈ pieces, x.Spaced)
    (h : Keeps (Pattern.parameterTokens params) (pieces.map (·.token))) :
    ∃ gap inner : Text, pieces.flatMap Piece.text = gap ++ '(' :: (inner ++ [')']) ∧
      inner.Lists params := by
  rcases h.required rfl with ⟨x, xs, rfl, hx, h⟩
  have hxs : ∀ y ∈ xs, y.Spaced := fun y hy => hspaced y (List.mem_cons_of_mem _ hy)
  have hinner : ∃ inner : Text, xs.flatMap Piece.text = inner ++ [')'] ∧ inner.Lists params := by
    cases params with
    | nil =>
      rcases text_of_keeps_singleton hxs rfl h with ⟨gap, hgap, htext⟩
      exact ⟨gap, htext, .of_isBlank hgap⟩
    | cons name rest => exact lists_of_keeps_names (List.cons_ne_nil _ _) hparams hxs h
  rcases hinner with ⟨inner, htext, hlists⟩
  refine ⟨x.gap, inner, ?_, hlists⟩
  rw [List.flatMap_cons, htext, Piece.text, hx]
  simp

namespace Pattern

theorem exists_mem_nameTokens {params : List Text} {name : Text} (h : name ∈ params) :
    ∃ t ∈ nameTokens params, t.literal = name := by
  fun_induction nameTokens params with
  | case1 => cases h
  | case2 other =>
    rw [List.mem_singleton] at h
    exact ⟨_, List.mem_cons_self, h.symm⟩
  | case3 other rest _ ih =>
    rcases List.mem_cons.1 h with rfl | h
    · exact ⟨_, List.mem_cons_self, rfl⟩
    · rcases ih h with ⟨t, ht, hliteral⟩
      exact ⟨t, by simp [ht], hliteral⟩

/-- A match is a text laid out by the tokens of the pattern. -/
theorem pieces_of_matchAt {p : Pattern} {text : Text} {start stop : Nat}
    (h : p.matchAt text start = .ok (some stop)) :
    ∃ pieces : List Piece, Keeps p.tokens (pieces.map (·.token)) ∧ (∀ x ∈ pieces, x.Spaced) ∧
      text.slice start stop = pieces.flatMap Piece.text := by
  rcases (matchAt_eq_some_iff _ _ _ _).1 h with ⟨-, -, n, hreads, rfl⟩
  rcases lie_of_reads hreads with ⟨pieces, hkeeps, hlie, hlength⟩
  rcases (lie_iff _ _).1 hlie with ⟨hfront, hspaced, -⟩
  refine ⟨pieces, hkeeps, hspaced, ?_⟩
  rw [Text.slice_add, ← hlength]
  exact (List.prefix_iff_eq_take.1 hfront).symm

/-- Normalizing leaves the end of a pattern as it is, if it leaves its literals. -/
theorem normalized_append {p : Pattern} {front back : List Token} (h : p.tokens = front ++ back)
    {tabSize : Nat} (hback : ∀ t ∈ back, t.literal.normalize tabSize = t.literal) :
    ∃ front', (p.normalized tabSize).tokens = front' ++ back := by
  have hsame : back.map (fun t => { t with literal := t.literal.normalize tabSize }) = back := by
    rw [List.map_congr_left (g := id), List.map_id]
    intro t ht
    rw [hback t ht]
    rfl
  refine ⟨front.map fun t => { t with literal := t.literal.normalize tabSize }, ?_⟩
  rw [normalized, h, List.map_append, hsame]

end Pattern

/-! ## How headers end -/

/-- The parameter of the arrow function of a variable, if it stands without parentheses. -/
def Entity.bareParameter? (e : Entity) : Option Node :=
  if e.kind = .variable then
    match e.node.fieldChild? "value" with
    | some value => if value.kind = "arrow_function" then value.fieldChild? "parameter" else none
    | none => none
  else none

theorem Entity.bareParameter?_eq_some {e : Entity} {single : Node}
    (h : e.bareParameter? = some single) :
    e.kind = .variable ∧ ∃ value, e.node.fieldChild? "value" = some value ∧
      value.kind = "arrow_function" ∧ value.fieldChild? "parameter" = some single := by
  unfold bareParameter? at h
  split at h
  · rename_i hvariable
    split at h
    · rename_i value hvalue
      split at h
      · rename_i harrow
        exact ⟨hvariable, value, hvalue, harrow, h⟩
      · cases h
    · cases h
  · cases h

/-- The header ends in this parameter list and a brace or an arrow. -/
def Pattern.EndsIn (p : Pattern) (params : List Text) : Prop :=
  ∃ front closing, p.tokens = front ++ (parameterTokens params ++ [⟨.any, closing, false⟩]) ∧
    closing ∈ ["=>".toList, [Text.openBrace]]

theorem Pattern.endsIn_lit {p : Pattern} (hp : p.tokens ≠ []) (params : List Text) {closing : Text}
    (h : closing ∈ ["=>".toList, [Text.openBrace]]) :
    ((p.parameterList params).lit closing).EndsIn params :=
  ⟨p.tokens, closing, parameterList_lit_tokens p params closing hp, h⟩

namespace Node

theorem functionPattern_endsIn {n : Node} {p : Pattern} (h : n.functionPattern = .ok p) :
    ∃ params, n.parameters = .ok params ∧ p.EndsIn params := by
  rcases bind_eq_ok_iff.1 h with ⟨name, -, h⟩
  rcases bind_eq_ok_iff.1 h with ⟨params, hparams, h⟩
  cases h
  refine ⟨params, hparams, Pattern.endsIn_lit ?_ params (by decide)⟩
  split
  · exact Pattern.add_ne_nil _ _ _ _
  · exact Pattern.add_ne_nil _ _ _ _

theorem methodPattern_endsIn {n : Node} {p : Pattern} (h : n.methodPattern = .ok p) :
    ∃ params, n.methodParameters = .ok params ∧ p.EndsIn params := by
  rcases bind_eq_ok_iff.1 h with ⟨name, -, h⟩
  rcases bind_eq_ok_iff.1 h with ⟨params, hparams, h⟩
  cases h
  exact ⟨params, hparams, Pattern.endsIn_lit (Pattern.add_ne_nil _ _ _ _) params (by decide)⟩

theorem functionValuePattern_endsIn {value : Node} {isAsync : Bool} {p q : Pattern}
    (h : value.functionValuePattern isAsync p = .ok q) :
    ∃ params, value.parameters = .ok params ∧ q.EndsIn params := by
  simp only [functionValuePattern] at h
  split at h
  · rcases bind_eq_ok_iff.1 h with ⟨t, -, h⟩
    rcases bind_eq_ok_iff.1 h with ⟨named, hnamed, h⟩
    rcases bind_eq_ok_iff.1 h with ⟨params, hparams, h⟩
    cases hnamed
    cases h
    exact ⟨params, hparams, Pattern.endsIn_lit (Pattern.add_ne_nil _ _ _ _) params (by decide)⟩
  · rcases bind_eq_ok_iff.1 h with ⟨named, hnamed, h⟩
    rcases bind_eq_ok_iff.1 h with ⟨params, hparams, h⟩
    cases hnamed
    cases h
    refine ⟨params, hparams, Pattern.endsIn_lit ?_ params (by decide)⟩
    split
    · exact Pattern.add_ne_nil _ _ _ _
    · exact Pattern.add_ne_nil _ _ _ _

end Node

/-- The start of the header of a variable, up to its parameters or its keyword. -/
theorem Node.variablePattern_eq {n : Node} {p : Pattern} (h : n.variablePattern = .ok p) :
    ∃ value isAsync start, n.fieldChild? "value" = some value ∧ start.tokens ≠ [] ∧
      (if value.kind = "arrow_function" then value.arrowPattern isAsync start
        else value.functionValuePattern isAsync start) = .ok p := by
  rcases bind_eq_ok_iff.1 h with ⟨name, -, h⟩
  split at h
  · cases h
  · rename_i value hvalue
    refine ⟨value, value.hasChild "async", _, hvalue, ?_, h⟩
    split
    · exact Pattern.add_ne_nil _ _ _ _
    · exact Pattern.add_ne_nil _ _ _ _

/-- The header of a function, method or variable ends in the list of its parameters, unless there
is a single one without parentheses. -/
theorem Entity.header_parameters {e : Entity} {p : Pattern} (h : e.header = .ok p)
    (hkind : e.kind ≠ .classDecl) (hbare : e.bareParameter? = none) :
    ∃ params, e.parameters = .ok (some params) ∧ p.EndsIn params := by
  unfold Entity.header at h
  split at h
  · rename_i hfunction
    rcases Node.functionPattern_endsIn h with ⟨params, hparams, hends⟩
    refine ⟨params, ?_, hends⟩
    rw [Entity.parameters, hfunction]
    exact bind_eq_ok_iff.2 ⟨params, hparams, rfl⟩
  · rename_i hvariable
    rcases Node.variablePattern_eq h with ⟨value, isAsync, start, hvalue, hstart, hp⟩
    have hends : ∃ params, value.parameters = .ok params ∧ p.EndsIn params := by
      split at hp
      · rename_i harrow
        have hnone : value.fieldChild? "parameter" = none := by
          simpa [bareParameter?, hvariable, hvalue, harrow] using hbare
        simp only [Node.arrowPattern, hnone] at hp
        rcases bind_eq_ok_iff.1 hp with ⟨params, hparams, hp⟩
        cases hp
        exact ⟨params, hparams, Pattern.endsIn_lit hstart params (by decide)⟩
      · exact Node.functionValuePattern_endsIn hp
    rcases hends with ⟨params, hparams, hends⟩
    refine ⟨params, ?_, hends⟩
    simp only [Entity.parameters, hvariable, hvalue]
    exact bind_eq_ok_iff.2 ⟨params, hparams, rfl⟩
  · rename_i hclass
    exact absurd hclass hkind
  · rename_i hmethod
    rcases Node.methodPattern_endsIn h with ⟨params, hparams, hends⟩
    refine ⟨params, ?_, hends⟩
    rw [Entity.parameters, hmethod]
    exact bind_eq_ok_iff.2 ⟨params, hparams, rfl⟩

/-- The header of a variable whose arrow function has a parameter without parentheses. -/
theorem Entity.header_bare {e : Entity} {p : Pattern} (h : e.header = .ok p) {single : Node}
    (hbare : e.bareParameter? = some single) :
    ∃ front gap name, single.text = .ok name ∧
      p.tokens = front ++ [⟨gap, name, false⟩, ⟨.any, "=>".toList, false⟩] := by
  rcases bareParameter?_eq_some hbare with ⟨hvariable, value, hvalue, harrow, hsingle⟩
  rw [Entity.header, hvariable] at h
  rcases Node.variablePattern_eq h with ⟨value', isAsync, start, hvalue', hstart, hp⟩
  rw [hvalue] at hvalue'
  cases hvalue'
  rw [if_pos harrow] at hp
  simp only [Node.arrowPattern, hsingle] at hp
  rcases bind_eq_ok_iff.1 hp with ⟨name, hname, hp⟩
  cases hp
  refine ⟨start.tokens, if isAsync then .many else .any, name, hname, ?_⟩
  rw [Pattern.lit, Pattern.add_of_ne_nil _ _ _ _ (Pattern.add_ne_nil _ _ _ _),
    Pattern.add_of_ne_nil _ _ _ _ hstart, List.append_assoc]
  rfl

/-! ## Parameters are identifiers -/

/-- What a node of a tree with plain parameters is like: an arrow function has its parameters in one
of two ways, and identifiers have no marks in them. -/
@[mk_iff]
structure Node.PlainlyNamed (n : Node) : Prop where
  arrow : n.kind = "arrow_function" →
    (n.fieldChild? "parameters").isSome = ! (n.fieldChild? "parameter").isSome
  bare : n.kind = "arrow_function" →
    ∀ single ∈ n.fieldChild? "parameter", single.kind = "identifier"
  identifier : n.kind = "identifier" → ∀ name ∈ n.text.toOption, name.Unmarked

instance (n : Node) : Decidable n.PlainlyNamed :=
  decidable_of_iff _ n.plainlyNamed_iff.symm

theorem plainNames_identifiers {nodes : List Node} {names : List Text}
    (h : plainNames nodes = .ok names) :
    ∀ name ∈ names, ∃ n ∈ nodes, n.kind = "identifier" ∧ n.text = .ok name := by
  induction nodes generalizing names with
  | nil =>
    cases h
    simp
  | cons n rest ih =>
    unfold plainNames at h
    split at h
    · intro name hname
      rcases ih h name hname with ⟨m, hm, hidentifier⟩
      exact ⟨m, List.mem_cons_of_mem _ hm, hidentifier⟩
    · split at h
      · rename_i hkind
        rcases bind_eq_ok_iff.1 h with ⟨text, htext, h⟩
        rcases bind_eq_ok_iff.1 h with ⟨more, hmore, h⟩
        cases h
        intro name hname
        rcases List.mem_cons.1 hname with rfl | hname
        · exact ⟨n, List.mem_cons_self, hkind, htext⟩
        · rcases ih hmore name hname with ⟨m, hm, hidentifier⟩
          exact ⟨m, List.mem_cons_of_mem _ hm, hidentifier⟩
      · rcases bind_eq_ok_iff.1 h with ⟨text, -, h⟩
        cases h

section Tree

variable {root : Node}

theorem parameterNames_identifiers {list : Option Node} (hlist : ∀ n ∈ list, n ∈ root.subtree)
    {names : List Text} (h : parameterNames list = .ok names) :
    ∀ name ∈ names, ∃ n ∈ root.subtree, n.kind = "identifier" ∧ n.text = .ok name := by
  cases list with
  | none =>
    cases h
    simp
  | some n =>
    have hn := hlist n rfl
    simp only [parameterNames] at h
    split at h
    · rename_i hkind
      rcases bind_eq_ok_iff.1 h with ⟨text, htext, h⟩
      cases h
      intro name hname
      rw [List.mem_singleton] at hname
      exact ⟨n, hn, hkind, hname ▸ htext⟩
    · intro name hname
      rcases plainNames_identifiers h name hname with ⟨c, hc, hidentifier⟩
      have hchild := Node.mem_children_of_mem_namedChildren hc
      exact ⟨c, Node.mem_subtree_of_mem_children hn hchild, hidentifier⟩

theorem Node.parameters_identifiers {n : Node} (hn : n ∈ root.subtree) {names : List Text}
    (h : n.parameters = .ok names) :
    ∀ name ∈ names, ∃ n ∈ root.subtree, n.kind = "identifier" ∧ n.text = .ok name := by
  unfold Node.parameters at h
  split at h
  · rename_i params hparams
    refine parameterNames_identifiers ?_ h
    rintro _ ⟨⟩
    exact mem_subtree_of_mem_children hn (mem_children_of_fieldChild? hparams)
  · refine parameterNames_identifiers ?_ h
    intro c hc
    exact mem_subtree_of_mem_children hn (mem_children_of_fieldChild? hc)

theorem Node.methodParameters_identifiers {n : Node} (hn : n ∈ root.subtree) {names : List Text}
    (h : n.methodParameters = .ok names) :
    ∀ name ∈ names, ∃ n ∈ root.subtree, n.kind = "identifier" ∧ n.text = .ok name := by
  unfold Node.methodParameters at h
  split at h
  · cases h
    simp
  · rcases bind_eq_ok_iff.1 h with ⟨all, hall, h⟩
    cases h
    intro name hname
    refine parameters_identifiers hn hall name ?_
    split at hname
    · exact List.mem_of_mem_take hname
    · exact hname

/-- The parameters of an entity are texts of identifiers of its tree. -/
theorem Entity.identifier_of_parameters {e : Entity} (he : e.node ∈ root.subtree)
    {params : List Text} (h : e.parameters = .ok (some params)) :
    ∀ name ∈ params, ∃ n ∈ root.subtree, n.kind = "identifier" ∧ n.text = .ok name := by
  unfold Entity.parameters at h
  split at h
  · cases h
  · split at h
    · rename_i value hvalue
      rcases bind_eq_ok_iff.1 h with ⟨names, hnames, ⟨⟩⟩
      have hmem := Node.mem_subtree_of_mem_children he (Node.mem_children_of_fieldChild? hvalue)
      exact Node.parameters_identifiers hmem hnames
    · cases h
  · rcases bind_eq_ok_iff.1 h with ⟨names, hnames, ⟨⟩⟩
    exact Node.methodParameters_identifiers he hnames
  · rcases bind_eq_ok_iff.1 h with ⟨names, hnames, ⟨⟩⟩
    exact Node.parameters_identifiers he hnames

/-- What is discovered in a tree are nodes of the tree. -/
theorem mem_subtree_of_discover {includeExports : Bool} {entities : List Entity}
    (h : discover root includeExports = .ok entities) :
    ∀ e ∈ entities, e.node ∈ root.subtree := by
  refine discoverStack_induction
    (motive := fun stack entities => (∀ f ∈ stack, ∀ n, f.item = .node n → n ∈ root.subtree) →
      ∀ e ∈ entities, e.node ∈ root.subtree) ?_ ?_ h ?_
  · simp
  · intro f stack c rest hc ih hstack e he
    rcases f with ⟨i, enclosing⟩
    cases i with
    | marker m body =>
      -- A marker lists nothing and has no children.
      cases hc
      exact ih (fun g hg => hstack g (List.mem_cons_of_mem _ hg)) e he
    | node n =>
      have hn : n ∈ root.subtree := hstack _ List.mem_cons_self n rfl
      have hitem : ∀ m, .node m ∈ n.items → m ∈ root.subtree := by
        intro m hm
        exact Node.mem_subtree_of_mem_children hn (Node.mem_children_of_mem_items hm)
      rcases List.mem_append.1 he with he | he
      · rcases Node.contribution_nodes hc e he with heq | hmem
        · exact heq ▸ hn
        · exact hitem e.node hmem
      · refine ih ?_ e he
        intro g hg m hm
        rcases List.mem_append.1 hg with hg | hg
        · have hopened := Frame.item_of_mem_opened hg
          rw [hm] at hopened
          exact hitem m hopened
        · exact hstack g (List.mem_cons_of_mem _ hg) m hm
  · intro f hf n hn
    rw [List.mem_singleton.1 hf] at hn
    cases hn
    exact root.mem_subtree_self

end Tree

/-! ## Headers and parameters -/

namespace Pattern

section EndsIn

variable {p : Pattern} {params : List Text} (h : p.EndsIn params)
include h

theorem EndsIn.normalized (hparams : ∀ name ∈ params, name.Unmarked) (tabSize : Nat) :
    (p.normalized tabSize).EndsIn params := by
  rcases h with ⟨front, closing, htokens, hclosing⟩
  have hclosings : ∀ literal ∈ ["=>".toList, [Text.openBrace]], literal ∈ marks := by decide
  have hback : ∀ t ∈ parameterTokens params ++ [⟨.any, closing, false⟩],
      t.literal.normalize tabSize = t.literal := by
    intro t ht
    rcases List.mem_append.1 ht with ht | ht
    · rcases literal_mem_parameterTokens ht with hname | hmark
      · exact (hparams _ hname).normalize_eq tabSize
      · exact normalize_of_mem_marks hmark tabSize
    · rw [List.mem_singleton.1 ht]
      exact normalize_of_mem_marks (hclosings closing hclosing) tabSize
  rcases normalized_append htokens hback with ⟨front', hnormal⟩
  exact ⟨front', closing, hnormal, hclosing⟩

theorem EndsIn.name_ne_nil (hne : ∀ t ∈ p.tokens, t.literal ≠ []) :
    ∀ name ∈ params, name ≠ [] := by
  rcases h with ⟨front, closing, htokens, -⟩
  intro name hname
  rcases exists_mem_nameTokens hname with ⟨t, ht, rfl⟩
  refine hne t ?_
  rw [htokens]
  simp [parameterTokens, ht]

/-- A match of a pattern that ends in a parameter list lists these parameters. -/
theorem EndsIn.listedParameters (hparams : ∀ name ∈ params, name.Unmarked)
    (hne : ∀ t ∈ p.tokens, t.literal ≠ []) {text : Text} {start stop : Nat}
    (hmatch : p.matchAt text start = .ok (some stop)) :
    (text.slice start stop).listedParameters = some params := by
  have hnames := h.name_ne_nil hne
  rcases h with ⟨front, closing, htokens, hclosing⟩
  have hclosings : ∀ literal ∈ ["=>".toList, [Text.openBrace]], '(' ∉ literal ∧ ')' ∉ literal := by
    decide
  rcases hclosings closing hclosing with ⟨hnoOpen, hnoClose⟩
  -- The match in three parts: what stands before the list, the list, and what closes the header.
  rcases pieces_of_matchAt hmatch with ⟨pieces, hkeeps, hspaced, hslice⟩
  rw [htokens] at hkeeps
  rcases hkeeps.append with ⟨before, rest, rfl, -, hrest⟩
  rcases hrest.append with ⟨list, last, rfl, hlist, hlast⟩
  have hlistSpaced : ∀ x ∈ list, x.Spaced := fun x hx => hspaced x (by simp [hx])
  have hlastSpaced : ∀ x ∈ last, x.Spaced := fun x hx => hspaced x (by simp [hx])
  rcases lists_of_keeps hparams hlistSpaced hlist with ⟨gap, inner, htext, hparens, hfields⟩
  rcases text_of_keeps_singleton hlastSpaced rfl hlast with ⟨gap', hblank, hend⟩
  have hheader : text.slice start stop =
      (before.flatMap Piece.text ++ gap) ++ '(' :: (inner ++ ')' :: (gap' ++ closing)) := by
    rw [hslice, List.flatMap_append, List.flatMap_append, htext, hend]
    simp
  have hblanks : ∀ c ∈ ['(', ')'], c ∉ gap' := by
    have hparen : ∀ c ∈ ['(', ')'], Text.isBlank c = false := by simp [Text.isBlank]
    intro c hc
    exact Text.notMem_of_isBlank hblank (hparen c hc)
  have hopen : '(' ∉ inner ++ (gap' ++ closing) := by
    simp [hparens '(', hblanks '(', hnoOpen]
  have hclose : ')' ∉ gap' ++ closing := by
    simp [hblanks ')', hnoClose]
  rw [hheader, Text.listedParameters_eq _ hopen hclose, Text.listed_of_fields hnames hfields]

end EndsIn

/-- A match of a pattern that ends in a name and an arrow ends so. -/
theorem suffix_of_matchAt {p : Pattern} {front : List Token} {gap : Gap} {name : Text}
    (htokens : p.tokens = front ++ [⟨gap, name, false⟩, ⟨.any, "=>".toList, false⟩])
    (hname : name.Unmarked) {text : Text} {start stop : Nat}
    (hmatch : p.matchAt text start = .ok (some stop)) :
    ∃ header, text.slice start stop = header ++ "=>".toList ∧
      name <:+ header.rdropWhile Text.isBlank := by
  rcases pieces_of_matchAt hmatch with ⟨pieces, hkeeps, hspaced, hslice⟩
  rw [htokens] at hkeeps
  rcases hkeeps.append with ⟨before, rest, rfl, -, hrest⟩
  rcases hrest.required rfl with ⟨x, last, rfl, hx, hlast⟩
  have hlastSpaced : ∀ y ∈ last, y.Spaced := fun y hy => hspaced y (by simp [hy])
  rcases text_of_keeps_singleton hlastSpaced rfl hlast with ⟨gap', hblank, hend⟩
  refine ⟨before.flatMap Piece.text ++ x.gap ++ name ++ gap', ?_, ?_⟩
  · rw [hslice, List.flatMap_append, List.flatMap_cons, hend, Piece.text, hx]
    simp
  · exact Text.suffix_rdropWhile _ hname.not_isBlank hblank

end Pattern

section Agreement

variable {root : Node} (hroot : ∀ n ∈ root.subtree, n.PlainlyNamed) {e : Entity}
  (he : e.node ∈ root.subtree) {d : Descriptor} (hd : d.Describes e) {tabSize : Nat} {p : Pattern}
  (hp : e.pattern tabSize = .ok (.ok p)) {text : Text} (hstands : d.Stands p text)
include hroot he hd hp hstands

/-- Parameters in parentheses are read back from the header. -/
theorem Descriptor.listed_params (hkind : e.kind ≠ .classDecl) (hbare : e.bareParameter? = none) :
    ∃ params, d.params = some params ∧ d.header.listedParameters = some params := by
  have hne := Entity.literal_ne_nil_of_matchAt hp hstands.matches_at
  have hmatch := hstands.matches_at
  rcases Entity.header_of_pattern hp with ⟨q, hq, rfl⟩
  rcases Entity.header_parameters hq hkind hbare with ⟨params, hparams, hends⟩
  have hunmarked : ∀ name ∈ params, name.Unmarked := by
    intro name hname
    rcases Entity.identifier_of_parameters he hparams name hname with ⟨n, hn, hidentifier, htext⟩
    refine (hroot n hn).identifier hidentifier name ?_
    rw [htext]
    rfl
  have hlisted := (hends.normalized hunmarked tabSize).listedParameters hunmarked hne hmatch
  rw [hstands.slice] at hlisted
  have hsame := hd.params
  rw [hparams] at hsame
  exact ⟨params, (Except.ok.inj hsame).symm, hlisted⟩

/-- A parameter without parentheses is the only one, and stands before the arrow. -/
theorem Descriptor.bare_param {single : Node} (hbare : e.bareParameter? = some single) :
    ∃ name, single.text = .ok name ∧ d.params = some [name] ∧
      ∃ front, d.header = front ++ "=>".toList ∧ name <:+ front.rdropWhile Text.isBlank := by
  have hmatch := hstands.matches_at
  rcases Entity.header_of_pattern hp with ⟨q, hq, rfl⟩
  rcases Entity.header_bare hq hbare with ⟨front, gap, name, hname, htokens⟩
  rcases Entity.bareParameter?_eq_some hbare with ⟨hvariable, value, hvalue, harrow, hsingle⟩
  have hvalueMem := Node.mem_subtree_of_mem_children he (Node.mem_children_of_fieldChild? hvalue)
  have hsingleMem := Node.mem_subtree_of_mem_children hvalueMem
    (Node.mem_children_of_fieldChild? hsingle)
  have hidentifier := (hroot value hvalueMem).bare harrow single hsingle
  have hunmarked : name.Unmarked := by
    refine (hroot single hsingleMem).identifier hidentifier name ?_
    rw [hname]
    rfl
  have hparams : e.parameters = .ok (some [name]) := by
    have hnone : value.fieldChild? "parameters" = none := by
      have hone := (hroot value hvalueMem).arrow harrow
      simpa [hsingle] using hone
    simp only [Entity.parameters, hvariable, hvalue, Node.parameters, hnone, hsingle,
      parameterNames, hidentifier, if_true, hname]
    rfl
  have hsame := hd.params
  rw [hparams] at hsame
  have hback : ∀ t ∈ [(⟨gap, name, false⟩ : Token), ⟨.any, "=>".toList, false⟩],
      t.literal.normalize tabSize = t.literal := by
    intro t ht
    simp only [List.mem_cons, List.not_mem_nil, or_false] at ht
    rcases ht with rfl | rfl
    · exact hunmarked.normalize_eq tabSize
    · exact Pattern.normalize_of_mem_marks (by decide) tabSize
  rcases Pattern.normalized_append htokens hback with ⟨front', hnormal⟩
  have hends := Pattern.suffix_of_matchAt hnormal hunmarked hmatch
  rw [hstands.slice] at hends
  exact ⟨name, hname, (Except.ok.inj hsame).symm, hends⟩

end Agreement

/-- The descriptor gives the parameters of the entity as its header does. -/
structure Descriptor.ParamsInHeader (d : Descriptor) (e : Entity) : Prop where
  describes : d.Describes e
  /-- The parameters are the names between the last parentheses. -/
  listed : d.kind ≠ .classDecl → e.bareParameter? = none →
    ∃ params, d.params = some params ∧ d.header.listedParameters = some params
  /-- Without parentheses there is one parameter, and the header ends in it and an arrow. -/
  bare : d.kind ≠ .classDecl → ∀ single, e.bareParameter? = some single →
    ∃ name, single.text = .ok name ∧ d.params = some [name] ∧
      ∃ front, d.header = front ++ "=>".toList ∧ name <:+ front.rdropWhile Text.isBlank

/-- In a catalogue of a tree with plain parameters, the parameters of every function, method and
variable are the names that its header lists between its last parentheses. If there are no
parentheses, there is one parameter, and the header ends in it and an arrow. -/
theorem catalogTree_params_in_header (root : Node) (source : Text) (settings : Settings)
    (hroot : ∀ n ∈ root.subtree, n.PlainlyNamed) (ds : List Descriptor) (events : List Event)
    (h : catalogTree root source settings = .ok (ds, events)) :
    ∃ entities vs, CatalogRun root source settings ds entities vs ∧
      ∀ v ∈ vs, ∀ d, v.outcome = some d → d.ParamsInHeader v.entity := by
  rcases catalogRun_of_catalogTree h with ⟨entities, vs, hrun⟩
  refine ⟨entities, vs, hrun, ?_⟩
  intro v hv d hd
  have hdescribes := (Run.accounted_of_mem_visits hrun.visited v hv).describes d hd
  have hmem : v.entity ∈ entities := hrun.entities ▸ List.mem_map_of_mem hv
  have hnode := mem_subtree_of_discover hrun.discovered v.entity hmem
  rcases Run.stands_of_mem_visits hrun.visited v hv d hd with ⟨p, hp, hstands⟩
  constructor
  · exact hdescribes
  · intro hkind
    rw [hdescribes.kind] at hkind
    exact Descriptor.listed_params hroot hnode hdescribes hp hstands hkind
  · intro _ single hbare
    exact Descriptor.bare_param hroot hnode hdescribes hp hstands hbare

theorem assorted_params_in_header :
    (∀ n ∈ assortedTree.subtree, n.PlainlyNamed) ∧
      ∃ ds events, catalogTree assortedTree assorted {} = .ok (ds, events) ∧
        ds.map (fun d => (d.header, d.params)) =
          [("class A \x7b".toList, none), ("f() \x7b".toList, some []),
            ("g() \x7b".toList, some []), ("function a(p, q,) \x7b".toList, some [['p'], ['q']]),
            ("v = x =>".toList, some [['x']])] ∧
        ∃ entities vs, CatalogRun assortedTree assorted {} ds entities vs ∧
          ∀ v ∈ vs, ∀ d, v.outcome = some d → d.ParamsInHeader v.entity := by
  have hplain : ∀ n ∈ assortedTree.subtree, n.PlainlyNamed := by decide +kernel
  have hheaders : (catalogTree assortedTree assorted {}).map
      (·.1.map fun d => (d.header, d.params)) =
        .ok [("class A \x7b".toList, none), ("f() \x7b".toList, some []),
          ("g() \x7b".toList, some []), ("function a(p, q,) \x7b".toList, some [['p'], ['q']]),
          ("v = x =>".toList, some [['x']])] := by
    decide +kernel
  cases h : catalogTree assortedTree assorted {} with
  | error fault =>
    rw [h] at hheaders
    cases hheaders
  | ok result =>
    rcases result with ⟨ds, events⟩
    rw [h] at hheaders
    refine ⟨hplain, ds, events, rfl, Except.ok.inj hheaders, ?_⟩
    exact catalogTree_params_in_header assortedTree assorted {} hplain ds events h

end HeaderCatalog
