import HeaderCatalog.Proofs.MethodPlacement
import HeaderCatalog.Proofs.TopLevelOrder
import Mathlib.Data.List.Infix

/-!
# HeaderCatalog.Proofs.ClassIsolation — class texts end where the cursor goes on

The end of a class is computed twice: by `ClassText.isolate`, which searches for the header once
more and cuts the class text out, and by `Cursor.advance`, which moves the cursor over the whole
text past the body. The two rules differ for a header that does not end in its brace. The header
of a class always does, so they give one place (`ClassText.stopOf_eq_bodyEnd`).

`class_texts_end_at_cursor`: what isolating a class gives for every pattern, and that in every run
a class located under a new name has its text from its header up to the place from which the next
header is searched for.
-/

namespace HeaderCatalog

/-! ## Where the block of a class opens -/

theorem Text.find?_eq_some_iff {text : Text} {c : Char} {start b : Nat} :
    text.find? c start = some b ↔
      start ≤ b ∧ text[b]? = some c ∧ ∀ j, start ≤ j → j < b → text[j]? ≠ some c := by
  have hdrop : ∀ k, (text.drop start)[k]? = text[start + k]? := fun k => List.getElem?_drop
  constructor
  · intro h
    obtain ⟨k, hk, rfl⟩ := Option.map_eq_some_iff.1 h
    obtain ⟨hlt, hget, hfirst⟩ := List.findIdx?_eq_some_iff_getElem.1 hk
    refine ⟨Nat.le_add_right start k, ?_, ?_⟩
    · rw [← hdrop, List.getElem?_eq_getElem hlt, eq_of_beq hget]
    · intro j hj hjk hc
      -- A place behind the start is a place of the rest that is searched.
      obtain ⟨i, rfl⟩ := Nat.exists_eq_add_of_le hj
      rw [← hdrop] at hc
      obtain ⟨hi, hc⟩ := List.getElem?_eq_some_iff.1 hc
      exact hfirst i (by omega) (beq_iff_eq.2 hc)
  · rintro ⟨hle, hget, hfirst⟩
    obtain ⟨k, rfl⟩ := Nat.exists_eq_add_of_le hle
    rw [← hdrop] at hget
    obtain ⟨hk, hget⟩ := List.getElem?_eq_some_iff.1 hget
    refine Option.map_eq_some_iff.2 ⟨k, ?_, rfl⟩
    refine List.findIdx?_eq_some_iff_getElem.2 ⟨hk, beq_iff_eq.2 hget, ?_⟩
    intro j hj hc
    refine hfirst (start + j) (by omega) (by omega) ?_
    rw [← hdrop, List.getElem?_eq_getElem (by omega), eq_of_beq hc]

namespace ClassText

/-- The block of a class whose header matched opens at a place: at the last character of the
match if that is a brace, else at the first brace behind the match. -/
inductive OpensAt (text : Text) (m : Match) : Nat → Prop where
  | last : m.text.getLast? = some Text.openBrace → OpensAt text m (m.stop - 1)
  | behind {b : Nat} : m.text.getLast? ≠ some Text.openBrace → m.stop ≤ b →
      text[b]? = some Text.openBrace →
      (∀ j, m.stop ≤ j → j < b → text[j]? ≠ some Text.openBrace) → OpensAt text m b

theorem brace?_eq_some_iff {text : Text} {m : Match} {b : Nat} :
    brace? text m = some b ↔ OpensAt text m b := by
  by_cases hends : m.text.getLast? = some Text.openBrace
  · have hlast : m.text.endsWith Text.openBrace = true := beq_iff_eq.2 hends
    rw [brace?, if_pos hlast]
    constructor
    · intro h
      cases h
      exact .last hends
    · intro h
      cases h with
      | last _ => rfl
      | behind hne _ _ _ => exact absurd hends hne
  · have hlast : ¬ m.text.endsWith Text.openBrace = true := fun h => hends (eq_of_beq h)
    rw [brace?, if_neg hlast, Text.find?_eq_some_iff]
    constructor
    · rintro ⟨hle, hget, hfirst⟩
      exact .behind hends hle hget hfirst
    · intro h
      cases h with
      | last heq => exact absurd heq hends
      | behind _ hle hget hfirst => exact ⟨hle, hget, hfirst⟩

theorem stopOf_of_opensAt {text : Text} {m : Match} {b : Nat} (h : OpensAt text m b) :
    stopOf text m = blockEnd text b := by
  rw [stopOf, brace?_eq_some_iff.2 h]

theorem stopOf_of_not_opensAt {text : Text} {m : Match} (h : ∀ b, ¬ OpensAt text m b) :
    stopOf text m = text.length := by
  have hnone : brace? text m = none := by
    apply Option.eq_none_iff_forall_ne_some.2
    intro b hb
    exact h b (brace?_eq_some_iff.1 hb)
  rw [stopOf, hnone]

/-! ## Where it ends -/

/-- The brace is the last character of the match or stands behind it. -/
theorem OpensAt.bounds {text : Text} {m : Match} {b : Nat} (h : OpensAt text m b)
    (hm : m.Lies text) : m.stop ≤ b + 1 ∧ b < text.length := by
  cases h with
  | last hends =>
    -- A match that ends in a brace is not empty, so its end is behind some character.
    have hne : m.text.length ≠ 0 := by
      intro hnil
      rw [List.length_eq_zero_iff.1 hnil] at hends
      cases hends
    have hlength := text.length_slice m.index m.stop hm.stop_le
    rw [← hm.text_eq] at hlength
    have hstop := hm.stop_le
    omega
  | behind _ hle hget _ =>
    have hlt := (List.getElem?_eq_some_iff.1 hget).1
    omega

/-- A class text ends in the text, and not before the header it was isolated from. -/
theorem stop_le_stopOf {text : Text} {m : Match} (hm : m.Lies text) :
    m.stop ≤ stopOf text m ∧ stopOf text m ≤ text.length := by
  by_cases hopens : ∃ b, OpensAt text m b
  · obtain ⟨b, hb⟩ := hopens
    obtain ⟨hle, hlt⟩ := hb.bounds hm
    have hblock := lt_blockEnd text b hlt
    rw [stopOf_of_opensAt hb]
    exact ⟨by omega, blockEnd_le_length text b⟩
  · rw [stopOf_of_not_opensAt (not_exists.1 hopens)]
    exact ⟨hm.stop_le, Nat.le_refl _⟩

/-- The two ways to compute the end of a body agree for a header that ends in its brace. -/
theorem stopOf_eq_bodyEnd {text : Text} {m : Match}
    (h : m.text.getLast? = some Text.openBrace) : stopOf text m = Cursor.bodyEnd text m := by
  have hlast : m.text.endsWith Text.openBrace = true := beq_iff_eq.2 h
  rw [stopOf_of_opensAt (.last h), Cursor.bodyEnd, if_pos hlast]

/-- The class text is what stands in the text between two places. -/
structure Spans (body : ClassText) (text : Text) (i stop : Nat) : Prop where
  start_eq : body.start = i
  text_eq : body.text = text.slice i stop
  stop_eq : body.start + body.text.length = stop

theorem spans_ofMatch {text : Text} {m : Match} (hm : m.Lies text) :
    (ofMatch text m).Spans text m.index (stopOf text m) := by
  obtain ⟨hle, hlength⟩ := stop_le_stopOf hm
  refine ⟨rfl, rfl, ?_⟩
  have hindex := hm.le
  show m.index + (text.slice m.index (stopOf text m)).length = stopOf text m
  rw [text.length_slice _ _ hlength]
  omega

/-- A class text starts with the header it was isolated from. -/
theorem prefix_ofMatch {text : Text} {m : Match} (hm : m.Lies text) :
    m.text <+: (ofMatch text m).text := by
  have htake : text.take m.stop <+: text.take (stopOf text m) :=
    List.take_prefix_take_left (stop_le_stopOf hm).1
  rw [hm.text_eq]
  exact htake.drop m.index

/-- What a search for the header answers decides what is isolated. -/
theorem isolate_of_search {text : Text} {header : Pattern} {start : Nat} {found : Option Match}
    (h : header.search text start = .ok found) :
    isolate text header start = .ok (found.map (ofMatch text)) :=
  bind_eq_ok_iff.2 ⟨found, h, rfl⟩

end ClassText

/-! ## The class texts of a run -/

/-- The visit searches the whole text from the given place on: that is the first place which its
cursor tries, and if the pattern of the entity occurs from there on, the entity is located at the
first such occurrence. -/
structure Visit.ResumesAt (v : Visit) (tabSize : Nat) (text : Text) (i : Nat) : Prop where
  first : v.state.topLevel.starts.head? = some i
  forward : ∀ p, v.entity.pattern tabSize = .ok (.ok p) → (∃ j, i ≤ j ∧ p.OccursAt text j) →
    ∃ d, v.outcome = some d ∧ p.Leftmost text i (d.place text.lines)

/-- The visit leaves the cursor over the whole text where it is. -/
def Visit.Quiet (v : Visit) : Prop := v.entity.kind = .method ∨ v.outcome = none

/-- The text of a class that was just located: it is kept for its name, starts with the header
where that is reported, and ends where the cursor over the whole text goes on. -/
structure Run.KeepsClass (r : Run) (text : Text) (d : Descriptor) (body : ClassText) : Prop where
  lookup : r.classes.entries.lookup (some d.name) = some (some body)
  spans : body.Spans text (d.offset text.lines) r.topLevel.afterBody
  header : d.header <+: body.text

/-- Every class that the visits locate under a new name has its text kept from then on, and the
next class, function or variable is searched for from the end of that text on. -/
def ClassesEndAtCursor (tabSize : Nat) (text : Text) (vs : List Visit) : Prop :=
  ∀ front v back d, vs = front ++ v :: back → v.entity.kind = .classDecl → v.outcome = some d →
    v.state.classes.contains (some d.name) = false →
    ∃ body after, v.state.step tabSize v.entity = .ok (some d, after) ∧
      after.KeepsClass text d body ∧
      (∀ w ∈ back, w.state.classes.entries.lookup (some d.name) = some (some body)) ∧
      ∀ quiet w rest, back = quiet ++ w :: rest → (∀ u ∈ quiet, u.Quiet) →
        w.entity.kind ≠ .method →
        w.ResumesAt tabSize text (body.start + body.text.length)

namespace Run

variable {tabSize : Nat} {r r' : Run} {e : Entity} {outcome : Option Descriptor} {text : Text}

/-- A class located under a new name: its text and the cursor end at one place. -/
theorem keepsClass_of_step {d : Descriptor} (hs : r.Sound text) (hkind : e.kind = .classDecl)
    (h : Step tabSize r e (some d) r') (hnew : r.classes.contains (some d.name) = false) :
    ∃ body, r'.KeepsClass text d body := by
  have hmethod : e.kind ≠ .method := by
    rw [hkind]
    decide
  rw [ClassIndex.contains_eq_isSome_lookup, Option.isSome_eq_false_iff,
    Option.isNone_iff_eq_none] at hnew
  obtain ⟨p, hp, hstands, -, hadvance, -⟩ := located_spec hs hmethod h
  obtain ⟨hle, hstop⟩ := Pattern.le_of_matchAt hstands.matches_at
  have hlies : (d.place text.lines).Lies text := ⟨hle, hstop, hstands.slice.symm⟩
  -- The header of a class ends in its brace.
  have hlast : (d.place text.lines).text.getLast? = some Text.openBrace := by
    have hlt := Pattern.lt_of_matchAt (Entity.pattern_anchored hp) hstands.matches_at
    show d.header.getLast? = some Text.openBrace
    rw [← hstands.slice, text.getLast?_slice hlt hstop]
    exact (Entity.pattern_finished_brace hkind hp).getElem?_stop hstands.matches_at
  have hend : ClassText.stopOf text (d.place text.lines) = r'.topLevel.afterBody := by
    rw [hadvance, Cursor.advance, hs.topLevel_text]
    exact ClassText.stopOf_eq_bodyEnd hlast
  refine ⟨ClassText.ofMatch text (d.place text.lines), ?_, ?_, ?_⟩
  · exact lookup_of_located hs ⟨hkind, (describes_of_step h).name⟩ h hnew
  · rw [← hend]
    exact ClassText.spans_ofMatch hlies
  · exact ClassText.prefix_ofMatch hlies

/-- The next search goes on where the cursor resumes behind the last body. -/
theorem located_forward (hs : r.Sound text) (hkind : e.kind ≠ .method)
    (h : Step tabSize r e outcome r') {p : Pattern} (hp : e.pattern tabSize = .ok (.ok p))
    (hocc : ∃ j, r.topLevel.afterBody ≤ j ∧ p.OccursAt text j) :
    ∃ d, outcome = some d ∧ p.Leftmost text r.topLevel.afterBody (d.place text.lines) := by
  obtain ⟨j, hj, hat⟩ := hocc
  have hsome := (isSome_topLevel_iff hs hkind h).2 ⟨p, hp, j, hat⟩
  obtain ⟨d, rfl⟩ := Option.isSome_iff_exists.1 hsome
  obtain ⟨q, hq, -, hchosen, -⟩ := located_spec hs hkind h
  rw [hp] at hq
  cases hq
  refine ⟨d, rfl, ?_⟩
  -- The other resume points are tried only if the pattern occurs nowhere behind the last body.
  have htext := hs.topLevel_text
  rw [← htext] at hat
  cases hchosen with
  | afterBody hleft =>
    rw [htext] at hleft
    exact hleft
  | afterHeader hnone _ => exact absurd hat (hnone j hj)
  | start hnone _ _ => exact absurd hat (hnone j hj)

/-- Behind a visit the run goes on with the state that its step leaves. -/
theorem visits_append_eq_ok {entities : List Entity} {front back : List Visit} {v : Visit}
    (h : visits tabSize r entities = .ok (front ++ v :: back)) :
    ∃ after rest, v.state.step tabSize v.entity = .ok (v.outcome, after) ∧
      visits tabSize after rest = .ok back := by
  induction front generalizing r entities with
  | nil =>
    cases entities with
    | nil => cases h
    | cons e rest =>
      obtain ⟨outcome, r', more, hstep, hmore, heq⟩ := visits_cons_eq_ok h
      cases heq
      exact ⟨r', rest, hstep, hmore⟩
  | cons u front ih =>
    cases entities with
    | nil => cases h
    | cons e rest =>
      obtain ⟨outcome, r', more, -, hmore, heq⟩ := visits_cons_eq_ok h
      cases heq
      exact ih hmore

/-- Quiet visits leave the cursor over the whole text to the next one. -/
theorem topLevel_of_quiet {entities : List Entity} {quiet rest : List Visit} {w : Visit}
    (hs : r.Sound text) (h : visits tabSize r entities = .ok (quiet ++ w :: rest))
    (hquiet : ∀ u ∈ quiet, u.Quiet) : w.state.topLevel = r.topLevel := by
  induction quiet generalizing r entities with
  | nil =>
    cases entities with
    | nil => cases h
    | cons e rest =>
      obtain ⟨outcome, r', more, -, -, heq⟩ := visits_cons_eq_ok h
      cases heq
      rfl
  | cons u quiet ih =>
    cases entities with
    | nil => cases h
    | cons e rest =>
      obtain ⟨outcome, r', more, hstep, hmore, heq⟩ := visits_cons_eq_ok h
      cases heq
      obtain ⟨hhead, htail⟩ := List.forall_mem_cons.1 hquiet
      have hstep := step_eq_ok hstep
      rw [ih (hs.step hstep) hmore htail]
      exact topLevel_of_step hs hstep hhead

/-- The text of a class stays what it is, and the search behind it resumes at its end. -/
theorem classesEndAtCursor_of_visits {entities : List Entity} {vs : List Visit}
    (h : visits tabSize (.start text) entities = .ok vs) : ClassesEndAtCursor tabSize text vs := by
  rintro front v back d rfl hkind hd hnew
  obtain ⟨after, remaining, hstep, hback⟩ := visits_append_eq_ok h
  have hs := sound_of_mem_visits h v (by simp)
  rw [hd] at hstep
  have hafter := hs.step (step_eq_ok hstep)
  obtain ⟨body, hbody⟩ := keepsClass_of_step hs hkind (step_eq_ok hstep) hnew
  refine ⟨body, after, hstep, hbody, ?_, ?_⟩
  · -- What is known of a class is an invariant of the run behind it.
    intro w hw
    exact invariant_of_mem_visits
      (fun r => r.classes.entries.lookup (some d.name) = some (some body))
      (fun _ _ _ _ hone hknown => lookup_of_step hone hknown) hback hbody.lookup w hw
  · rintro quiet w rest rfl hquiet hmethod
    -- Nothing in between has moved the cursor.
    have hcursor := topLevel_of_quiet hafter hback hquiet
    have hresume : w.state.topLevel.afterBody = body.start + body.text.length := by
      rw [hcursor, hbody.spans.stop_eq]
    have hmem : w ∈ front ++ v :: (quiet ++ w :: rest) := by simp
    obtain ⟨r', hnext⟩ := step_of_mem_visits h w hmem
    constructor
    · rw [Cursor.starts, List.eraseDups_cons, List.head?_cons, hresume]
    · intro p hp hocc
      rw [← hresume] at hocc ⊢
      exact located_forward (sound_of_mem_visits h w hmem) hmethod hnext hp hocc

end Run

/-! ## Isolation and the cursor -/

/-- A class is isolated exactly if its header is found. Its text then goes from the match to the
end of the block that opens in the match or behind it. In every run, the text that is kept for a
class located under a new name starts at the header which the catalogue reports, and ends where
the cursor over the whole text resumes. -/
theorem class_texts_end_at_cursor :
    (∀ (text : Text) (p : Pattern) (start : Nat), (∀ t ∈ p.tokens, t.literal ≠ []) →
      ∃ found, p.search text start = .ok found ∧
        (ClassText.isolate text p start = .ok none ↔ found = none) ∧
        ∀ m, found = some m → ∃ body finish,
          ClassText.isolate text p start = .ok (some body) ∧ body.Spans text m.index finish ∧
          start ≤ m.index ∧ m.stop ≤ finish ∧
          (∀ b, ClassText.OpensAt text m b → finish = blockEnd text b) ∧
          ((∀ b, ¬ ClassText.OpensAt text m b) → finish = text.length)) ∧
    ∀ (entities : List Entity) (source : Text) (settings : Settings) (ds : List Descriptor)
      (events : List Event), catalog entities source settings = .ok (ds, events) →
      ∃ vs,
        Run.visits settings.tabSize (.start (source.normalize settings.tabSize)) entities =
          .ok vs ∧
        vs.map (·.entity) = entities ∧ vs.filterMap (·.outcome) = ds ∧
        ClassesEndAtCursor settings.tabSize (source.normalize settings.tabSize) vs := by
  constructor
  · intro text p start hp
    obtain ⟨found, hfound⟩ := Pattern.search_ok hp text start
    have hisolate := ClassText.isolate_of_search hfound
    refine ⟨found, hfound, ?_, ?_⟩
    · rw [hisolate]
      cases found with
      | none => simp
      | some m => simp
    · rintro m rfl
      obtain ⟨hstart, hlies⟩ := Pattern.search_lies hfound
      refine ⟨_, _, hisolate, ClassText.spans_ofMatch hlies, hstart, ?_, ?_, ?_⟩
      · exact (ClassText.stop_le_stopOf hlies).1
      · intro b hb
        exact ClassText.stopOf_of_opensAt hb
      · intro hnone
        exact ClassText.stopOf_of_not_opensAt hnone
  · intro entities source settings ds events h
    obtain ⟨vs, hvs, hentities, hds⟩ := catalog_eq_ok h
    exact ⟨vs, hvs, hentities, hds, Run.classesEndAtCursor_of_visits hvs⟩

/-- A class that extends a call with braces in it, and a function behind the class. -/
def braced : Text := "class A extends f(\x7b\x7d) \x7b \x7d function g() \x7b\x7d".toList

/-- The class of `braced`. -/
def bracedClass : Node :=
  .spanning braced "class_declaration" 0 25
    [.mark braced "class" 0 5,
      (Node.spanning braced "identifier" 6 7 []).fills "name",
      .spanning braced "class_heritage" 8 21
        [.mark braced "extends" 8 15,
          .spanning braced "call_expression" 16 21
            [(Node.spanning braced "identifier" 16 17 []).fills "function",
              (Node.spanning braced "arguments" 17 21
                [.mark braced "(" 17 18, emptyPair braced "object" "\x7b" "\x7d" 18,
                  .mark braced ")" 20 21]).fills "arguments"]],
      (Node.spanning braced "class_body" 22 25
        [.mark braced "\x7b" 22 23, .mark braced "\x7d" 24 25]).fills "body"]

/-- The declarations of `braced`. -/
def bracedEntities : List Entity :=
  [⟨.classDecl, bracedClass, none, none⟩, ⟨.function, plainFunction braced 26 [] 35, none, none⟩]

/-- The class of `braced` where it is located. -/
def bracedHeader : Descriptor :=
  ⟨.classDecl, 1, 0, "class A extends f(\x7b\x7d) \x7b".toList, none, none, none, ['A']⟩

/-- The function of `braced` where it is located. -/
def bracedFunction : Descriptor :=
  ⟨.function, 1, 26, "function g() \x7b".toList, none, some [], none, ['g']⟩

/-- The braces in the header do not end the class: its text goes on to the end of its own block,
and the function is searched for from there on. Isolated by its name alone the class would end in
its header. -/
theorem braced_class_ends_at_cursor :
    (∃ body finish, ClassText.isolate braced (ClassText.opening ['A']) 0 = .ok (some body) ∧
      body.Spans braced 0 finish ∧ finish = blockEnd braced 18 ∧ finish = 20) ∧
    catalog bracedEntities braced {} = .ok ([bracedHeader, bracedFunction], [.located 2 2]) ∧
    ∃ body after, (Run.start (braced.normalize 0)).step 0 ⟨.classDecl, bracedClass, none, none⟩ =
        .ok (some bracedHeader, after) ∧
      after.KeepsClass (braced.normalize 0) bracedHeader body ∧
      body.start + body.text.length = 25 ∧
      ∃ w : Visit, w.outcome = some bracedFunction ∧ w.ResumesAt 0 (braced.normalize 0) 25 := by
  constructor
  · have hopens : ∀ t ∈ (ClassText.opening ['A']).tokens, t.literal ≠ [] := by decide
    have hsearch : (ClassText.opening ['A']).search braced 0 =
        .ok (some ⟨0, 7, "class A".toList⟩) := by
      decide +kernel
    obtain ⟨found, hfound, -, hsome⟩ := class_texts_end_at_cursor.1 braced _ 0 hopens
    rw [hsearch] at hfound
    cases hfound
    obtain ⟨body, finish, hbody, hspans, -, -, hblock, -⟩ := hsome _ rfl
    have hbrace : ClassText.OpensAt braced ⟨0, 7, "class A".toList⟩ 18 :=
      ClassText.brace?_eq_some_iff.1 (by decide +kernel)
    refine ⟨body, finish, hbody, hspans, hblock 18 hbrace, ?_⟩
    rw [hblock 18 hbrace]
    decide +kernel
  · have hcatalog : catalog bracedEntities braced {} =
        .ok ([bracedHeader, bracedFunction], [.located 2 2]) := by
      decide +kernel
    -- The first step, as far as it can be compared: the class, and where its cursor resumes.
    have hfirst : ((Run.start (braced.normalize 0)).step 0
        ⟨.classDecl, bracedClass, none, none⟩).map (fun x => (x.1, x.2.topLevel.afterBody)) =
        .ok (some bracedHeader, 25) := by
      decide +kernel
    refine ⟨hcatalog, ?_⟩
    obtain ⟨vs, hvs, -, hds, hends⟩ :=
      class_texts_end_at_cursor.2 bracedEntities braced {} _ _ hcatalog
    obtain ⟨outcome, r₁, more, hstep, hmore, rfl⟩ := Run.visits_cons_eq_ok hvs
    obtain ⟨outcome', r₂, rest, -, hrest, rfl⟩ := Run.visits_cons_eq_ok hmore
    cases hrest
    rw [show ({} : Settings).tabSize = 0 from rfl] at hstep hends
    rw [hstep] at hfirst
    obtain ⟨rfl, hcursor⟩ := Prod.mk.inj (Except.ok.inj hfirst)
    obtain ⟨body, after, hafter, hbody, -, hnext⟩ := hends [] _ _ bracedHeader rfl rfl rfl rfl
    rw [hstep] at hafter
    obtain ⟨-, rfl⟩ := Prod.mk.inj (Except.ok.inj hafter)
    have hstop : body.start + body.text.length = 25 := hbody.spans.stop_eq.trans hcursor
    rw [hstop] at hnext
    have hlocated : outcome' = some bracedFunction := by
      cases outcome' with
      | none => cases (List.cons.inj hds).2
      | some d => exact congrArg some (List.cons.inj (List.cons.inj hds).2).1
    have hresume := hnext [] _ [] rfl (by simp) (by simp)
    exact ⟨body, r₁, hstep, hbody, hstop, _, hlocated, hresume⟩

end HeaderCatalog
