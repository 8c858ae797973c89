import HeaderCatalog.Proofs.ClassIsolation
import HeaderCatalog.Proofs.Totality
import Mathlib.Data.Finset.Card
import Mathlib.Data.List.Forall2

/-!
# HeaderCatalog.Proofs.LookUps — the first look-up of a class decides

An index of class texts is asked for one class after another, each time with a header and a place to
start from. `ClassIndex.lookUps` is such a sequence of look-ups.

`ClassIndex.Records` says what an index is worth after a sequence: it knows the names that were
looked up and no others, each of them once, and of each name what the first look-up of that name
finds, be it a class text or that there is none. Every look-up keeps this
(`ClassIndex.Records.get`), so it holds after every sequence (`ClassIndex.Records.lookUps`), and
every answer of a sequence is that of the first look-up of its name.
-/

namespace HeaderCatalog

/-- One look-up of a class: its name, the header to search for if one is given, and the place to
start from. -/
structure LookUp where
  name : Option Text
  header : Option Pattern
  start : Nat
deriving DecidableEq

namespace LookUp

/-- The header that is searched for: the given one, else `class` and the name. -/
def opening? (k : LookUp) : Option Pattern := k.header.or (k.name.map ClassText.opening)

/-- There is a header to search for, and none of its literals is empty. -/
def Spelled (k : LookUp) : Prop :=
  ∃ p, k.opening? = some p ∧ ∀ t ∈ p.tokens, t.literal ≠ []

/-- What the look-up finds in a text if no other one of its name was made before. -/
def isolate (k : LookUp) (text : Text) : Except Fault (Option ClassText) :=
  (ClassIndex.ofText text).isolate k.name k.header k.start

theorem isolate_of_opening? {k : LookUp} {p : Pattern} (h : k.opening? = some p) (text : Text) :
    k.isolate text = ClassText.isolate text p k.start := by
  obtain ⟨name, header, start⟩ := k
  cases header with
  | some q =>
    cases h
    rfl
  | none =>
    obtain ⟨n, rfl, rfl⟩ := Option.map_eq_some_iff.1 h
    rfl

theorem Spelled.isolate_ok {k : LookUp} (h : k.Spelled) (text : Text) :
    ∃ entry, k.isolate text = .ok entry := by
  obtain ⟨p, hp, hne⟩ := h
  rw [isolate_of_opening? hp]
  exact ClassText.isolate_ok hne text k.start

/-- A class text that is found is what stands in the text where it starts. -/
theorem slice_of_isolate {k : LookUp} {text : Text} {body : ClassText}
    (h : k.isolate text = .ok (some body)) :
    text.slice body.start (body.start + body.text.length) = body.text := by
  cases hopening : k.opening? with
  | none =>
    -- Without a header and a name nothing is found.
    obtain ⟨hheader, hname⟩ := Option.or_eq_none_iff.1 hopening
    rw [isolate, hheader, Option.map_eq_none_iff.1 hname] at h
    cases ClassText.isolateNameless_eq_ok h
  | some p =>
    rw [isolate_of_opening? hopening] at h
    obtain ⟨m, hm, rfl⟩ := ClassText.isolate_eq_some h
    have hspans := ClassText.spans_ofMatch (Pattern.search_lies hm).2
    rw [hspans.stop_eq, hspans.start_eq]
    exact hspans.text_eq.symm

end LookUp

/-! ## Sequences of look-ups -/

namespace ClassIndex

/-- The look-ups in turn: what each of them answers, and the index after the last one. -/
def lookUps : ClassIndex → List LookUp → Except Fault (List (Option ClassText) × ClassIndex)
  | index, [] => .ok ([], index)
  | index, k :: rest => do
    let (answer, index) ← index.get k.name k.header k.start
    let (answers, index) ← lookUps index rest
    return (answer :: answers, index)

theorem lookUps_cons_eq_ok {index index' : ClassIndex} {k : LookUp} {rest : List LookUp}
    {answers : List (Option ClassText)} (h : index.lookUps (k :: rest) = .ok (answers, index')) :
    ∃ answer index₁ more, index.get k.name k.header k.start = .ok (answer, index₁) ∧
      index₁.lookUps rest = .ok (more, index') ∧ answers = answer :: more := by
  obtain ⟨⟨answer, index₁⟩, hget, h⟩ := bind_eq_ok_iff.1 h
  obtain ⟨⟨more, index₂⟩, hmore, h⟩ := bind_eq_ok_iff.1 h
  cases h
  exact ⟨answer, index₁, more, hget, hmore, rfl⟩

/-- Look-ups of a sequence go on where those before them end. -/
theorem lookUps_append {index index₁ index₂ : ClassIndex} {ks ks' : List LookUp}
    {answers answers' : List (Option ClassText)} (h : index.lookUps ks = .ok (answers, index₁))
    (h' : index₁.lookUps ks' = .ok (answers', index₂)) :
    index.lookUps (ks ++ ks') = .ok (answers ++ answers', index₂) := by
  induction ks generalizing index answers with
  | nil =>
    cases h
    exact h'
  | cons k rest ih =>
    obtain ⟨answer, index', more, hget, hmore, rfl⟩ := lookUps_cons_eq_ok h
    exact bind_eq_ok_iff.2 ⟨_, hget, bind_eq_ok_iff.2 ⟨_, ih hmore, rfl⟩⟩

/-- Look-ups for headers without empty literals are all answered. -/
theorem lookUps_ok {ks : List LookUp} (hks : ∀ k ∈ ks, k.Spelled) (index : ClassIndex) :
    ∃ answers index', index.lookUps ks = .ok (answers, index') := by
  induction ks generalizing index with
  | nil => exact ⟨[], index, rfl⟩
  | cons k rest ih =>
    obtain ⟨hk, hrest⟩ := List.forall_mem_cons.1 hks
    obtain ⟨entry, hentry⟩ := hk.isolate_ok index.text
    -- A first look-up depends on the text of the index only, not on what is known.
    have hisolate : index.isolate k.name k.header k.start = .ok entry := hentry
    obtain ⟨answer, index₁, hget⟩ := index.get_ok hisolate
    obtain ⟨answers, index', hmore⟩ := ih hrest index₁
    exact ⟨_, index', bind_eq_ok_iff.2 ⟨_, hget, bind_eq_ok_iff.2 ⟨_, hmore, rfl⟩⟩⟩

/-! ## What an index knows -/

/-- After the look-ups the index knows each name that was looked up, once, with what the first
look-up of the name finds in the text, and it knows no other name. -/
structure Records (index : ClassIndex) (text : Text) (ks : List LookUp) : Prop where
  text_eq : index.text = text
  nodup : (index.entries.map (·.1)).Nodup
  known : ∀ name first, ks.find? (·.name == name) = some first →
    ∃ entry, first.isolate text = .ok entry ∧ index.entries.lookup name = some entry
  unknown : ∀ name, ks.find? (·.name == name) = none → index.entries.lookup name = none

theorem records_ofText (text : Text) : (ofText text).Records text [] :=
  ⟨rfl, List.nodup_nil, fun _ _ h => (by cases h), fun _ _ => rfl⟩

/-- A look-up adds no name twice. -/
theorem nodup_of_get {index index' : ClassIndex} {name : Option Text} {header : Option Pattern}
    {start : Nat} {entry : Option ClassText} (hnodup : (index.entries.map (·.1)).Nodup)
    (hget : index.get name header start = .ok (entry, index')) :
    (index'.entries.map (·.1)).Nodup := by
  rcases get_eq_ok hget with ⟨-, rfl⟩ | ⟨hnew, -, rfl⟩
  · exact hnodup
  · rw [List.map_append, List.map_singleton, List.nodup_append]
    refine ⟨hnodup, List.nodup_singleton _, ?_⟩
    intro known hmem other hother heq
    obtain ⟨e, he, rfl⟩ := List.mem_map.1 hmem
    rw [List.mem_singleton.1 hother] at heq
    have hne := List.lookup_eq_none_iff.1 hnew e he
    rw [heq] at hne
    simp at hne

namespace Records

variable {index index' : ClassIndex} {text : Text} {ks : List LookUp}

/-- One look-up keeps a record. -/
theorem get (h : index.Records text ks) {k : LookUp} {entry : Option ClassText}
    (hget : index.get k.name k.header k.start = .ok (entry, index')) :
    index'.Records text (ks ++ [k]) := by
  refine ⟨(text_of_get hget).trans h.text_eq, nodup_of_get h.nodup hget, ?_, ?_⟩
  · intro name first hfirst
    rw [List.find?_append] at hfirst
    cases hearlier : ks.find? (·.name == name) with
    | some earlier =>
      rw [hearlier, Option.some_or] at hfirst
      obtain ⟨known, hknown, hlookup⟩ := h.known name earlier hearlier
      rw [← Option.some.inj hfirst]
      exact ⟨known, hknown, lookup_mono_of_get hget hlookup⟩
    | none =>
      -- The name is new, so this look-up is its first one.
      rw [hearlier, Option.none_or] at hfirst
      have hname : first.name = name := by simpa using List.find?_some hfirst
      rw [List.mem_singleton.1 (List.mem_of_find?_eq_some hfirst)] at hname ⊢
      have hnew := h.unknown name hearlier
      rw [← hname] at hnew ⊢
      refine ⟨entry, ?_, lookup_of_get hget⟩
      rcases get_eq_ok hget with ⟨hknown, -⟩ | ⟨-, hisolate, -⟩
      · rw [hnew] at hknown
        cases hknown
      · rw [← h.text_eq]
        exact hisolate
  · intro name hnone
    rw [List.find?_append, Option.or_eq_none_iff] at hnone
    have hne : name ≠ k.name := by
      rintro rfl
      exact absurd hnone.2 (by simp)
    rw [lookup_of_get_ne hget hne]
    exact h.unknown name hnone.1

/-- A record gives for each name that was looked up what the first look-up of it finds. -/
theorem answer (h : index.Records text ks) {k : LookUp} (hk : k ∈ ks) :
    ∃ first entry, ks.find? (·.name == k.name) = some first ∧ first.isolate text = .ok entry ∧
      index.entries.lookup k.name = some entry := by
  have hsome : (ks.find? (·.name == k.name)).isSome := by
    rw [List.find?_isSome]
    exact ⟨k, hk, beq_self_eq_true _⟩
  obtain ⟨first, hfirst⟩ := Option.isSome_iff_exists.1 hsome
  obtain ⟨entry, hentry, hlookup⟩ := h.known k.name first hfirst
  exact ⟨first, entry, hfirst, hentry, hlookup⟩

/-- A look-up answers what the first look-up of its name finds, be that an earlier one or itself. -/
theorem get_answer (h : index.Records text ks) {k : LookUp} {entry : Option ClassText}
    (hget : index.get k.name k.header k.start = .ok (entry, index')) :
    ∃ first, (ks ++ [k]).find? (·.name == k.name) = some first ∧
      first.isolate text = .ok entry := by
  obtain ⟨first, known, hfirst, hknown, hlookup⟩ :=
    (h.get hget).answer (List.mem_append_right ks (List.mem_singleton_self k))
  -- What the look-up answers is what the index knows from then on.
  rw [lookup_of_get hget] at hlookup
  cases hlookup
  exact ⟨first, hfirst, hknown⟩

/-- A sequence of look-ups keeps a record, and answers each of them as the first one of its name. -/
theorem lookUps (h : index.Records text ks) {more : List LookUp}
    {answers : List (Option ClassText)} (hmore : index.lookUps more = .ok (answers, index')) :
    index'.Records text (ks ++ more) ∧
      List.Forall₂ (fun k answer => ∃ first, (ks ++ more).find? (·.name == k.name) = some first ∧
        first.isolate text = .ok answer) more answers := by
  induction more generalizing index ks answers with
  | nil =>
    cases hmore
    rw [List.append_nil]
    exact ⟨h, .nil⟩
  | cons k rest ih =>
    obtain ⟨answer, index₁, answers', hget, hrest, rfl⟩ := lookUps_cons_eq_ok hmore
    obtain ⟨hrecords, hanswers⟩ := ih (h.get hget) hrest
    rw [List.append_assoc, List.singleton_append] at hrecords hanswers
    refine ⟨hrecords, .cons ?_ hanswers⟩
    obtain ⟨first, hfirst, hanswer⟩ := h.get_answer hget
    refine ⟨first, ?_, hanswer⟩
    rw [← List.singleton_append, ← List.append_assoc, List.find?_append, hfirst, Option.some_or]

/-- The names that an index knows are those that were looked up. -/
theorem contains_iff (h : index.Records text ks) (name : Option Text) :
    index.contains name = true ↔ ∃ k ∈ ks, k.name = name := by
  rw [contains_eq_isSome_lookup]
  constructor
  · intro hsome
    by_contra hnone
    have hfind : ks.find? (·.name == name) = none := by
      rw [List.find?_eq_none]
      intro k hk heq
      exact hnone ⟨k, hk, eq_of_beq heq⟩
    rw [h.unknown name hfind] at hsome
    cases hsome
  · rintro ⟨k, hk, rfl⟩
    obtain ⟨_, entry, _, _, hlookup⟩ := h.answer hk
    rw [hlookup]
    rfl

/-- The size of an index is the number of names that were looked up. -/
theorem size_eq (h : index.Records text ks) :
    index.size = (ks.map (·.name)).toFinset.card := by
  have hkeys : (index.entries.map (·.1)).toFinset = (ks.map (·.name)).toFinset := by
    ext name
    have hcontains := h.contains_iff name
    rw [contains, List.any_eq_true] at hcontains
    rw [List.mem_toFinset, List.mem_toFinset, List.mem_map, List.mem_map, ← hcontains]
    simp only [beq_iff_eq]
  rw [← hkeys, List.toFinset_card_of_nodup h.nodup, List.length_map, size]

/-- Every class text that an index knows stands in the text where it says. -/
theorem slice_eq (h : index.Records text ks) {name : Option Text} {body : ClassText}
    (hbody : index.entries.lookup name = some (some body)) :
    text.slice body.start (body.start + body.text.length) = body.text := by
  cases hfirst : ks.find? (·.name == name) with
  | none =>
    rw [h.unknown name hfirst] at hbody
    cases hbody
  | some first =>
    obtain ⟨entry, hentry, hlookup⟩ := h.known name first hfirst
    rw [hbody] at hlookup
    cases hlookup
    exact LookUp.slice_of_isolate hentry

end Records

end ClassIndex

end HeaderCatalog
