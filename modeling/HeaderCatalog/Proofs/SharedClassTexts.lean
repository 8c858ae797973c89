import HeaderCatalog.Proofs.CursorRuns
import HeaderCatalog.Proofs.LookUps

/-!
# HeaderCatalog.Proofs.SharedClassTexts — one text and one cursor for the methods of a class

A run looks classes up for two reasons: a method looks up its class, by the name alone, and a
located class looks itself up, by its header and from where that stands. `Visit.lookUps` gives the
look-ups of one entity, so a run makes a sequence of them, and what the index of a run knows is what
this sequence leaves behind (`Run.lookUps_of_visits`).

So the first look-up of a name decides for the whole run (`Run.get_of_visits`). The cursor of a
class is moved by the methods of that class only, hence all of these together are one run of a
cursor over that one text, whatever stands between them (`Run.calls_of_visits`).

`first_lookUp_decides`: both, for every sequence of look-ups and for every run.
-/

namespace HeaderCatalog

/-- The look-ups that an entity makes. A class whose name is known is looked up too, which changes
nothing. -/
def Visit.lookUps (v : Visit) (tabSize : Nat) (lines : List Text) : List LookUp :=
  match v.entity.pattern tabSize with
  | .ok (.ok p) =>
    if v.entity.kind = .method then [⟨v.entity.enclosing, none, 0⟩]
    else if v.entity.kind = .classDecl then
      v.outcome.toList.map fun d => ⟨some d.name, some p, d.offset lines⟩
    else []
  | _ => []

/-- The pattern that is searched for in the class of this name, if the entity is a method of such a
class and has a pattern. -/
def Entity.soughtIn? (e : Entity) (tabSize : Nat) (name : Option Text) : Option Pattern :=
  if e.kind = .method ∧ e.enclosing = name then
    match e.pattern tabSize with
    | .ok (.ok p) => some p
    | _ => none
  else none

/-- The entity of the visit is searched for in the class of this name. -/
def Visit.seeks (v : Visit) (tabSize : Nat) (name : Option Text) : Bool :=
  (v.entity.soughtIn? tabSize name).isSome

theorem Visit.lookUps_of_method {v : Visit} {tabSize : Nat} {p : Pattern}
    (hp : v.entity.pattern tabSize = .ok (.ok p)) (hkind : v.entity.kind = .method)
    (lines : List Text) :
    v.lookUps tabSize lines = [⟨v.entity.enclosing, none, 0⟩] := by
  unfold lookUps
  rw [hp]
  exact if_pos hkind

/-- Only methods and located classes look classes up. -/
theorem Visit.lookUps_eq_nil {v : Visit} {tabSize : Nat} (hmethod : v.entity.kind ≠ .method)
    (hclass : v.entity.kind ≠ .classDecl ∨ v.outcome = none) (lines : List Text) :
    v.lookUps tabSize lines = [] := by
  unfold lookUps
  split
  · rw [if_neg hmethod]
    rcases hclass with hclass | hnone
    · rw [if_neg hclass]
    · rw [hnone, Option.toList_none, List.map_nil, ite_self]
  · rfl

theorem Entity.soughtIn?_eq_some_iff {e : Entity} {tabSize : Nat} {name : Option Text}
    {p : Pattern} :
    e.soughtIn? tabSize name = some p ↔
      e.kind = .method ∧ e.enclosing = name ∧ e.pattern tabSize = .ok (.ok p) := by
  unfold soughtIn?
  constructor
  · intro h
    split at h
    · rename_i hmethod
      split at h
      · rename_i q hq
        cases h
        exact ⟨hmethod.1, hmethod.2, hq⟩
      · cases h
    · cases h
  · rintro ⟨hkind, hname, hp⟩
    rw [if_pos ⟨hkind, hname⟩, hp]

/-! ## The look-ups of a run -/

namespace Run

variable {tabSize : Nat} {r r' : Run} {e : Entity} {outcome : Option Descriptor} {text : Text}

theorem classes_of_step (h : Step tabSize r e outcome r') (hmethod : e.kind ≠ .method)
    (hclass : e.kind ≠ .classDecl ∨ outcome = none) : r'.classes = r.classes := by
  cases h with
  | unmodelled _ => rfl
  | missing _ _ _ => rfl
  | located _ _ _ _ _ _ hother =>
    rcases hclass with hclass | hnone
    · exact hother hclass
    · cases hnone
  | classless hkind => exact absurd hkind hmethod
  | absent hkind => exact absurd hkind hmethod
  | inside hkind => exact absurd hkind hmethod

/-- A step changes the index by the look-ups of its entity. -/
theorem lookUps_of_step (hs : r.Sound text) (h : Step tabSize r e outcome r') :
    ∃ answers, r.classes.lookUps ((⟨r, e, outcome⟩ : Visit).lookUps tabSize text.lines) =
      .ok (answers, r'.classes) := by
  have hone : ∀ {k : LookUp} {entry : Option ClassText},
      r.classes.get k.name k.header k.start = .ok (entry, r'.classes) →
      ∃ answers, r.classes.lookUps [k] = .ok (answers, r'.classes) := by
    intro k entry hget
    exact ⟨[entry], bind_eq_ok_iff.2 ⟨_, hget, rfl⟩⟩
  by_cases hmethod : e.kind = .method
  · cases h with
    | missing hne => exact absurd hmethod hne
    | located hne => exact absurd hmethod hne
    | unmodelled hp =>
      refine ⟨[], ?_⟩
      unfold Visit.lookUps
      rw [hp]
      rfl
    | classless _ hp hget =>
      rw [Visit.lookUps_of_method hp hmethod]
      exact hone hget
    | absent _ hp hget _ =>
      rw [Visit.lookUps_of_method hp hmethod]
      exact hone hget
    | inside _ _ hp _ hget _ =>
      rw [Visit.lookUps_of_method hp hmethod]
      exact hone hget
  · by_cases hother : e.kind ≠ .classDecl ∨ outcome = none
    · rw [Visit.lookUps_eq_nil hmethod hother, classes_of_step h hmethod hother]
      exact ⟨[], rfl⟩
    · obtain ⟨hclass, hlocated⟩ := not_or.1 hother
      have hclass := not_not.1 hclass
      obtain ⟨d, rfl⟩ := Option.ne_none_iff_exists'.1 hlocated
      obtain ⟨p, hp, -, -, -, hget⟩ := located_spec hs hmethod h
      obtain ⟨entry, hget⟩ := hget hclass
      unfold Visit.lookUps
      rw [hp]
      simp only [if_neg hmethod, if_pos hclass, Option.toList_some, List.map_singleton]
      exact hone hget

/-- The index that a visit meets is what the look-ups of the visits before it leave behind. -/
theorem lookUps_of_visits (hs : r.Sound text) {entities : List Entity} {front back : List Visit}
    {v : Visit} (h : visits tabSize r entities = .ok (front ++ v :: back)) :
    ∃ answers, r.classes.lookUps (front.flatMap (·.lookUps tabSize text.lines)) =
      .ok (answers, v.state.classes) := by
  induction front generalizing r entities with
  | nil =>
    cases entities with
    | nil => cases h
    | cons e rest =>
      obtain ⟨outcome, r', more, -, -, heq⟩ := visits_cons_eq_ok h
      cases heq
      exact ⟨[], rfl⟩
  | cons u front ih =>
    cases entities with
    | nil => cases h
    | cons e rest =>
      obtain ⟨outcome, r', more, hstep, hmore, heq⟩ := visits_cons_eq_ok h
      cases heq
      have hstep := step_eq_ok hstep
      obtain ⟨answers, hanswers⟩ := lookUps_of_step hs hstep
      obtain ⟨answers', hanswers'⟩ := ih (hs.step hstep) hmore
      rw [List.flatMap_cons]
      exact ⟨answers ++ answers', ClassIndex.lookUps_append hanswers hanswers'⟩

/-! ## The search for a method -/

/-- A method is searched for in the text of its class, with the cursor of that class; if the class
has no text, it is not located. -/
theorem search_of_step (h : Step tabSize r e outcome r') {name : Option Text} {p : Pattern}
    (hsought : e.soughtIn? tabSize name = some p) :
    ∃ entry classes, r.classes.get name none 0 = .ok (entry, classes) ∧
      (entry = none → outcome = none) ∧
      ∀ body, entry = some body → ∃ found,
        (r.classCursor name body).resolve p r.lines = .ok (found, r'.classCursor name body) ∧
        outcome.map (fun d => (d.location, d.header)) =
          found.map fun place => (place.1, place.2.text) := by
  obtain ⟨hkind, rfl, hp⟩ := Entity.soughtIn?_eq_some_iff.1 hsought
  cases h with
  | missing hne => exact absurd hkind hne
  | located hne => exact absurd hkind hne
  | unmodelled hp' =>
    rw [hp] at hp'
    cases hp'
  | classless _ _ hget =>
    refine ⟨none, _, hget, fun _ => rfl, ?_⟩
    intro body hbody
    cases hbody
  | absent _ hp' hget hresolve =>
    rw [hp] at hp'
    cases hp'
    refine ⟨_, _, hget, fun _ => rfl, ?_⟩
    rintro body ⟨⟩
    refine ⟨none, ?_, rfl⟩
    rw [hresolve]
    simp [classCursor, setClassCursor]
  | @inside _ _ _ l m _ _ _ _ _ _ hp' _ hget hresolve =>
    rw [hp] at hp'
    cases hp'
    refine ⟨_, _, hget, ?_, ?_⟩
    · intro hnone
      cases hnone
    · rintro body ⟨⟩
      refine ⟨some (l, m), ?_, rfl⟩
      rw [hresolve]
      simp [classCursor, setClassCursor]

/-- Only the methods of a class move its cursor. -/
theorem classCursor_of_step (h : Step tabSize r e outcome r') {name : Option Text}
    (hnone : e.soughtIn? tabSize name = none) (body : ClassText) :
    r'.classCursor name body = r.classCursor name body := by
  have hne : ∀ {p}, e.kind = .method → e.pattern tabSize = .ok (.ok p) → name ≠ e.enclosing := by
    rintro p hkind hp rfl
    rw [Entity.soughtIn?_eq_some_iff.2 ⟨hkind, rfl, hp⟩] at hnone
    cases hnone
  unfold classCursor
  cases h with
  | unmodelled _ => rfl
  | missing _ _ _ => rfl
  | located _ _ _ _ _ _ _ => rfl
  | classless _ _ _ => rfl
  | absent hkind hp _ _ => rw [← r.lookup_setClassCursor_ne _ (hne hkind hp)]
  | inside hkind _ hp _ _ _ => rw [← r.lookup_setClassCursor_ne _ (hne hkind hp)]

/-! ## All methods of a class -/

/-- What the first look-up of a name in the whole run finds is what every method of the class of
that name is searched in. -/
theorem get_of_visits {entities : List Entity} {vs : List Visit}
    (h : visits tabSize (.start text) entities = .ok vs) {v : Visit} (hv : v ∈ vs)
    {name : Option Text} {p : Pattern} (hsought : v.entity.soughtIn? tabSize name = some p) :
    ∃ first entry classes,
      (vs.flatMap (·.lookUps tabSize text.lines)).find? (·.name == name) = some first ∧
      first.isolate text = .ok entry ∧ v.state.classes.get name none 0 = .ok (entry, classes) := by
  obtain ⟨r', hstep⟩ := step_of_mem_visits h v hv
  obtain ⟨entry, classes, hget, -⟩ := search_of_step hstep hsought
  obtain ⟨hkind, rfl, hp⟩ := Entity.soughtIn?_eq_some_iff.1 hsought
  obtain ⟨front, back, rfl⟩ := List.append_of_mem hv
  -- The state of the visit is a record of the look-ups before it, and the visit makes one more.
  obtain ⟨before, hbefore⟩ := lookUps_of_visits (sound_start text) h
  obtain ⟨hrecords, -⟩ := (ClassIndex.records_ofText text).lookUps hbefore
  obtain ⟨first, hfirst, hentry⟩ :=
    hrecords.get_answer (k := ⟨v.entity.enclosing, none, 0⟩) hget
  refine ⟨first, entry, classes, ?_, hentry, hget⟩
  rw [List.nil_append] at hfirst
  rw [List.flatMap_append, List.flatMap_cons, Visit.lookUps_of_method hp hkind,
    ← List.append_assoc, List.find?_append, hfirst, Option.some_or]

end Run

/-- The call of a cursor does the search of a visit: it is made in the text of the class, with the
cursor that the run keeps for the class, and finds what the visit reports. -/
structure Visit.AnsweredBy (v : Visit) (body : ClassText) (k : Call) : Prop where
  classText : ∃ classes, v.state.classes.get v.entity.enclosing none 0 = .ok (some body, classes)
  cursor : v.state.classCursor v.entity.enclosing body = k.before
  text_eq : k.before.text = body.text
  offset_eq : k.before.offset = body.start
  outcome : v.outcome.map (fun d => (d.location, d.header)) =
    k.found.map fun place => (place.1, place.2.text)

namespace Run

/-- The methods of a class are searched for by one cursor, whatever is visited between them. -/
theorem calls_of_visits {tabSize : Nat} {r : Run} {text : Text} (hs : r.Sound text)
    {entities : List Entity} {vs : List Visit} (h : visits tabSize r entities = .ok vs)
    {name : Option Text} {body : ClassText}
    (hbody : ∀ v ∈ vs, v.seeks tabSize name →
      ∃ classes, v.state.classes.get name none 0 = .ok (some body, classes)) :
    ∃ calls, (r.classCursor name body).calls text.lines
        (entities.filterMap (·.soughtIn? tabSize name)) = .ok calls ∧
      List.Forall₂ (fun v k => v.AnsweredBy body k) (vs.filter (·.seeks tabSize name)) calls := by
  induction entities generalizing r vs with
  | nil =>
    cases h
    exact ⟨[], rfl, .nil⟩
  | cons e rest ih =>
    obtain ⟨outcome, r', more, hstep, hmore, rfl⟩ := visits_cons_eq_ok h
    have hstep := step_eq_ok hstep
    obtain ⟨hhead, htail⟩ := List.forall_mem_cons.1 hbody
    obtain ⟨calls, hcalls, hall⟩ := ih (hs.step hstep) hmore htail
    cases hsought : e.soughtIn? tabSize name with
    | none =>
      -- Another entity leaves the cursor of the class to the rest.
      rw [classCursor_of_step hstep hsought] at hcalls
      refine ⟨calls, ?_, ?_⟩
      · simp only [List.filterMap_cons, hsought]
        exact hcalls
      · have hother : ¬ (⟨r, e, outcome⟩ : Visit).seeks tabSize name = true := by
          simp [Visit.seeks, hsought]
        rw [List.filter_cons, if_neg hother]
        exact hall
    | some p =>
      have hseeks : (⟨r, e, outcome⟩ : Visit).seeks tabSize name = true := by
        simp [Visit.seeks, hsought]
      obtain ⟨classes, hget⟩ := hhead hseeks
      obtain ⟨entry, classes', hget', -, hsearch⟩ := search_of_step hstep hsought
      rw [hget] at hget'
      cases hget'
      obtain ⟨found, hresolve, houtcome⟩ := hsearch body rfl
      obtain ⟨htext, hoffset⟩ := hs.classCursor hget
      rw [hs.lines] at hresolve
      obtain ⟨-, rfl, -⟩ := Entity.soughtIn?_eq_some_iff.1 hsought
      refine ⟨⟨r.classCursor e.enclosing body, p, found, r'.classCursor e.enclosing body⟩ :: calls,
        ?_, ?_⟩
      · simp only [List.filterMap_cons, hsought]
        exact bind_eq_ok_iff.2 ⟨_, hresolve, bind_eq_ok_iff.2 ⟨calls, hcalls, rfl⟩⟩
      · rw [List.filter_cons, if_pos hseeks]
        exact .cons ⟨⟨classes, hget⟩, rfl, htext, hoffset, houtcome⟩ hall

end Run

/-- All methods that are searched for in the class of this name share one look-up result. If that is
a class text, their searches are the calls of one cursor over it, made one after another; if there
is none, none of them is located. -/
structure MethodsShare (tabSize : Nat) (text : Text) (vs : List Visit) (name : Option Text)
    (entry : Option ClassText) : Prop where
  sameEntry : ∀ v ∈ vs, v.seeks tabSize name →
    ∃ classes, v.state.classes.get name none 0 = .ok (entry, classes)
  unlocated : entry = none → ∀ v ∈ vs, v.seeks tabSize name → v.outcome = none
  oneCursor : ∀ body, entry = some body → ∃ calls,
    (Cursor.ofText body.text body.start).calls text.lines
      (vs.filterMap (·.entity.soughtIn? tabSize name)) = .ok calls ∧
    List.Forall₂ (fun v k => v.AnsweredBy body k) (vs.filter (·.seeks tabSize name)) calls

/-- The methods of a class share what the first look-up of its name in the run finds. -/
theorem Run.methodsShare_of_visits {tabSize : Nat} {text : Text} {entities : List Entity}
    {vs : List Visit} (h : visits tabSize (.start text) entities = .ok vs) {name : Option Text}
    (hname : ∃ v ∈ vs, v.seeks tabSize name) :
    ∃ first entry,
      (vs.flatMap (·.lookUps tabSize text.lines)).find? (·.name == name) = some first ∧
      first.isolate text = .ok entry ∧ MethodsShare tabSize text vs name entry := by
  obtain ⟨v, hv, hseeks⟩ := hname
  obtain ⟨p, hsought⟩ := Option.isSome_iff_exists.1 hseeks
  obtain ⟨first, entry, _, hfirst, hentry, -⟩ := get_of_visits h hv hsought
  -- Every method of the class meets the result of the same first look-up.
  have hsame : ∀ w ∈ vs, w.seeks tabSize name →
      ∃ classes, w.state.classes.get name none 0 = .ok (entry, classes) := by
    intro w hw hseeks'
    obtain ⟨q, hsought'⟩ := Option.isSome_iff_exists.1 hseeks'
    obtain ⟨first', entry', classes, hfirst', hentry', hget⟩ := get_of_visits h hw hsought'
    rw [hfirst] at hfirst'
    cases hfirst'
    rw [hentry] at hentry'
    cases hentry'
    exact ⟨classes, hget⟩
  refine ⟨first, entry, hfirst, hentry, hsame, ?_, ?_⟩
  · rintro rfl w hw hseeks'
    obtain ⟨q, hsought'⟩ := Option.isSome_iff_exists.1 hseeks'
    obtain ⟨classes, hget⟩ := hsame w hw hseeks'
    obtain ⟨r', hstep⟩ := step_of_mem_visits h w hw
    obtain ⟨entry', _, hget', hnone, -⟩ := search_of_step hstep hsought'
    rw [hget] at hget'
    cases hget'
    exact hnone rfl
  · rintro body rfl
    have hcalls := calls_of_visits (sound_start text) h hsame
    rw [← entities_of_visits h, List.filterMap_map] at hcalls
    exact hcalls

/-- The index that each visit meets is that of the look-ups made before it, and all methods with one
class name share what the first look-up of this name in the whole run finds. -/
structure SharesClassTexts (tabSize : Nat) (text : Text) (vs : List Visit) : Prop where
  index : ∀ front v back, vs = front ++ v :: back → ∃ answers,
    (ClassIndex.ofText text).lookUps (front.flatMap (·.lookUps tabSize text.lines)) =
      .ok (answers, v.state.classes)
  methods : ∀ name, (∃ v ∈ vs, v.seeks tabSize name) → ∃ first entry,
    (vs.flatMap (·.lookUps tabSize text.lines)).find? (·.name == name) = some first ∧
    first.isolate text = .ok entry ∧ MethodsShare tabSize text vs name entry

/-- Look-ups for headers without empty literals are all answered. In every sequence of look-ups that
are all answered, each answer is what the first look-up of its name finds in the text; the index
then knows the names that were looked up and no others, counts each once, and every class text that
it knows stands in the text where it says. In every catalogue the methods with one class name are
therefore searched for in one class text, the one that the first look-up of this name finds, by one
cursor that starts where that text does. -/
theorem first_lookUp_decides :
    (∀ (text : Text) (ks : List LookUp),
      ((∀ k ∈ ks, k.Spelled) →
        ∃ answers index, (ClassIndex.ofText text).lookUps ks = .ok (answers, index)) ∧
      ∀ answers index, (ClassIndex.ofText text).lookUps ks = .ok (answers, index) →
        List.Forall₂ (fun k answer => ∃ first, ks.find? (·.name == k.name) = some first ∧
          first.isolate text = .ok answer) ks answers ∧
        (∀ name, index.contains name = true ↔ ∃ k ∈ ks, k.name = name) ∧
        index.size = (ks.map (·.name)).toFinset.card ∧
        ∀ name body, index.entries.lookup name = some (some body) →
          text.slice body.start (body.start + body.text.length) = body.text) ∧
    ∀ (entities : List Entity) (source : Text) (settings : Settings) (ds : List Descriptor)
      (events : List Event), catalog entities source settings = .ok (ds, events) →
      ∃ vs,
        Run.visits settings.tabSize (.start (source.normalize settings.tabSize)) entities =
          .ok vs ∧
        vs.map (·.entity) = entities ∧ vs.filterMap (·.outcome) = ds ∧
        SharesClassTexts settings.tabSize (source.normalize settings.tabSize) vs := by
  constructor
  · intro text ks
    refine ⟨fun hks => ClassIndex.lookUps_ok hks _, ?_⟩
    intro answers index h
    obtain ⟨hrecords, hanswers⟩ := (ClassIndex.records_ofText text).lookUps h
    rw [List.nil_append] at hrecords hanswers
    exact ⟨hanswers, hrecords.contains_iff, hrecords.size_eq, fun _ _ => hrecords.slice_eq⟩
  · intro entities source settings ds events h
    obtain ⟨vs, hvs, hentities, hds⟩ := catalog_eq_ok h
    refine ⟨vs, hvs, hentities, hds, ?_, ?_⟩
    · rintro front v back rfl
      exact Run.lookUps_of_visits (Run.sound_start _) hvs
    · intro name hname
      exact Run.methodsShare_of_visits hvs hname

/-- Look-ups in `assorted`: of a class that it does not have and of one that it has, and of both
again with arguments that alone would give the opposite. -/
def assortedLookUps : List LookUp :=
  [⟨some ['B'], none, 0⟩, ⟨some ['A'], none, 0⟩, ⟨some ['A'], none, 11⟩,
    ⟨some ['B'], some (ClassText.opening ['A']), 0⟩]

/-- The class of `assorted` and its methods, with the function between the methods. -/
def scatteredEntities : List Entity :=
  [⟨.classDecl, assortedClass, none, none⟩, ⟨.method, assortedMethod 20, some ['A'], none⟩,
    ⟨.function, assortedFunction, none, none⟩, ⟨.method, assortedMethod 27, some ['A'], none⟩]

/-- The catalogue of `scatteredEntities`. -/
def scatteredCatalog : List Descriptor :=
  [⟨.classDecl, 1, 10, "class A \x7b".toList, none, none, none, ['A']⟩,
    ⟨.method, 1, 20, "f() \x7b".toList, some ['A'], some [], none, ['f']⟩,
    ⟨.function, 1, 35, "function a(p, q,) \x7b".toList, none, some [['p'], ['q']], none, ['a']⟩,
    ⟨.method, 1, 27, "g() \x7b".toList, some ['A'], some [], none, ['g']⟩]

/-- The first look-up of either class decides for the second one, and the two methods share the text
of their class although a function is located between them. -/
theorem assorted_first_decides :
    (∀ k ∈ assortedLookUps, k.Spelled) ∧
    (∃ answers index, (ClassIndex.ofText assorted).lookUps assortedLookUps = .ok (answers, index) ∧
      answers = [none, some ⟨10, assorted.slice 10 35⟩, some ⟨10, assorted.slice 10 35⟩, none] ∧
      (∀ name, index.contains name = true ↔ ∃ k ∈ assortedLookUps, k.name = name) ∧
      index.size = 2) ∧
    catalog scatteredEntities assorted {} = .ok (scatteredCatalog, [.located 4 4]) ∧
    ∃ vs, Run.visits 0 (.start (assorted.normalize 0)) scatteredEntities = .ok vs ∧
      vs.filterMap (·.outcome) = scatteredCatalog ∧
      ∃ first entry, (vs.flatMap (·.lookUps 0 (assorted.normalize 0).lines)).find?
          (·.name == some ['A']) = some first ∧
        first.isolate (assorted.normalize 0) = .ok entry ∧
        MethodsShare 0 (assorted.normalize 0) vs (some ['A']) entry := by
  have hspelled : ∀ k ∈ assortedLookUps, k.Spelled := by
    intro k hk
    simp only [assortedLookUps, List.mem_cons, List.not_mem_nil, or_false] at hk
    rcases hk with rfl | rfl | rfl | rfl
    all_goals exact ⟨_, rfl, ClassText.literal_ne_nil_opening (by decide)⟩
  have hcatalog : catalog scatteredEntities assorted {} =
      .ok (scatteredCatalog, [.located 4 4]) := by
    decide +kernel
  refine ⟨hspelled, ?_, hcatalog, ?_⟩
  · obtain ⟨hreturns, hanswered⟩ := first_lookUp_decides.1 assorted assortedLookUps
    obtain ⟨answers, index, h⟩ := hreturns hspelled
    obtain ⟨-, hcontains, hsize, -⟩ := hanswered answers index h
    have hanswers : ((ClassIndex.ofText assorted).lookUps assortedLookUps).map (·.1) = .ok
        [none, some ⟨10, assorted.slice 10 35⟩, some ⟨10, assorted.slice 10 35⟩, none] := by
      decide +kernel
    rw [h] at hanswers
    refine ⟨answers, index, h, Except.ok.inj hanswers, hcontains, ?_⟩
    rw [hsize]
    decide +kernel
  · obtain ⟨vs, hvs, hentities, hds, hshares⟩ :=
      first_lookUp_decides.2 scatteredEntities assorted {} _ _ hcatalog
    refine ⟨vs, hvs, hds, hshares.methods (some ['A']) ?_⟩
    -- The second visit is one of the two methods.
    have hmethod : (⟨.method, assortedMethod 20, some ['A'], none⟩ : Entity) ∈
        vs.map (·.entity) := by
      rw [hentities]
      simp [scatteredEntities]
    obtain ⟨v, hv, hentity⟩ := List.mem_map.1 hmethod
    refine ⟨v, hv, ?_⟩
    rw [Visit.seeks, hentity]
    decide +kernel

end HeaderCatalog
