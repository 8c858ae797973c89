import HeaderCatalog.Proofs.Matching
import Mathlib.Data.List.Basic

/-!
# HeaderCatalog.Proofs.Searching — a search is the naive scan

A search tries a pattern only where its first literal stands. The naive scan of this module tries it
at every place. For patterns that were put together token by token the two agree, since the first
token of such a pattern is required and has no gap (`Pattern.Assembled.anchored`).

`Pattern.search_eq_scan`: a search has an answer wherever it starts, it is the answer of the naive
scan, and this is the leftmost match. So where a pattern occurs does not depend on the start of the
search.
-/

namespace HeaderCatalog

namespace Pattern

/-- A pattern that was put together from the empty one by adding tokens at the end. It may have been
normalized in between. -/
inductive Assembled : Pattern → Prop where
  | empty : Assembled .empty
  | add {p : Pattern} (literal : Text) (gap : Gap) (optional : Bool) :
      Assembled p → Assembled (p.add literal gap optional)
  | normalized {p : Pattern} (tabSize : Nat) : Assembled p → Assembled (p.normalized tabSize)

/-- The match at the first of the given places at which the pattern matches. Each place is tried. -/
def firstMatch (p : Pattern) (text : Text) : List Nat → Except Fault (Option Match)
  | [] => .ok none
  | i :: rest => do
    match ← p.matchAt text i with
    | some stop => return some ⟨i, stop, text.slice i stop⟩
    | none => p.firstMatch text rest

/-- The naive scan: every place from `start` through the end of the text. -/
def scan (p : Pattern) (text : Text) (start : Nat) : Except Fault (Option Match) :=
  p.firstMatch text (List.range' start (text.length + 1 - start))

/-- What a search from `start` on has to answer: the leftmost match, and nothing if the pattern
matches at no place from there through the end of the text. -/
structure Answers (p : Pattern) (text : Text) (start : Nat) (found : Option Match) : Prop where
  some_iff : ∀ m, found = some m ↔ p.Leftmost text start m
  none_iff : found = none ↔ ∀ i, start ≤ i → i ≤ text.length → p.matchAt text i = .ok none

/-! ## Patterns that were put together -/

theorem Anchored.add {p : Pattern} (h : p.Anchored) (literal : Text) (gap : Gap)
    (optional : Bool) : (p.add literal gap optional).Anchored := by
  intro t ts ht
  unfold Pattern.add at ht
  split at ht
  · cases ht
    exact ⟨rfl, rfl⟩
  · rename_i hne
    -- The first token is the one that the pattern had before.
    cases htokens : p.tokens with
    | nil => simp [htokens] at hne
    | cons u us =>
      simp only [htokens, List.cons_append, List.cons.injEq] at ht
      rw [← ht.1]
      exact h u us htokens

/-- Adding tokens and normalizing keep the first token required and without a gap. -/
theorem Assembled.anchored {p : Pattern} (h : p.Assembled) : p.Anchored := by
  induction h with
  | empty =>
    intro t ts ht
    cases ht
  | add literal gap optional _ ih => exact ih.add literal gap optional
  | normalized tabSize _ ih => exact ih.normalized tabSize

/-! ## The answer of a search -/

/-- No place is left out by asking only for matches: where a pattern does not match, the matcher
says so. -/
theorem not_occursAt_iff {p : Pattern} (hne : ∀ t ∈ p.tokens, t.literal ≠ []) {text : Text}
    {i : Nat} (hi : i ≤ text.length) : ¬ p.OccursAt text i ↔ p.matchAt text i = .ok none := by
  constructor
  · intro hnot
    obtain ⟨found, hfound⟩ := matchAt_ok hne hi
    cases found with
    | none => exact hfound
    | some stop => exact absurd ⟨stop, hfound⟩ hnot
  · rintro hnone ⟨stop, hstop⟩
    rw [hnone] at hstop
    cases hstop

/-- One leftmost match, or no match at all, is all that a search has to give. -/
theorem answers_of_cases {p : Pattern} (hne : ∀ t ∈ p.tokens, t.literal ≠ []) {text : Text}
    {start : Nat} {found : Option Match} (hsome : ∀ m, found = some m → p.Leftmost text start m)
    (hnone : found = none → ∀ i, start ≤ i → i ≤ text.length → ¬ p.OccursAt text i) :
    p.Answers text start found := by
  have hnowhere : found = none →
      ∀ i, start ≤ i → i ≤ text.length → p.matchAt text i = .ok none := by
    intro hf i hstart hi
    exact (not_occursAt_iff hne hi).1 (hnone hf i hstart hi)
  constructor
  · intro m
    refine ⟨hsome m, fun hm => ?_⟩
    cases found with
    | some m' => rw [(hsome m' rfl).unique hm]
    | none =>
      have hin := le_of_matchAt hm.matches_at
      have hat := hnowhere rfl m.index hm.start_le (by omega)
      rw [hm.matches_at] at hat
      cases hat
  · refine ⟨hnowhere, fun hall => ?_⟩
    cases found with
    | none => rfl
    | some m =>
      have hm := hsome m rfl
      have hin := le_of_matchAt hm.matches_at
      have hat := hall m.index hm.start_le (by omega)
      rw [hm.matches_at] at hat
      cases hat

/-- There is one answer. -/
theorem Answers.unique {p : Pattern} {text : Text} {start : Nat} {found found' : Option Match}
    (h : p.Answers text start found) (h' : p.Answers text start found') : found = found' := by
  apply Option.ext
  intro m
  rw [h.some_iff m, h'.some_iff m]

theorem search_answers {p : Pattern} (hp : p.Anchored) (hne : ∀ t ∈ p.tokens, t.literal ≠ [])
    (text : Text) (start : Nat) :
    ∃ found, p.search text start = .ok found ∧ p.Answers text start found := by
  obtain ⟨found, hfound⟩ := search_ok hne text start
  refine ⟨found, hfound, answers_of_cases hne ?_ ?_⟩
  · rintro m rfl
    exact search_eq_some hp hfound
  · rintro rfl i hstart -
    exact search_eq_none hp hfound i hstart

/-! ## The answer of the naive scan -/

/-- The naive scan over the last places of a text. The induction is on their number. -/
theorem firstMatch_answers {p : Pattern} (hne : ∀ t ∈ p.tokens, t.literal ≠ []) (text : Text)
    (n : Nat) {start : Nat} (hstart : start + n = text.length + 1) :
    ∃ found, p.firstMatch text (List.range' start n) = .ok found ∧ p.Answers text start found := by
  induction n generalizing start with
  | zero =>
    refine ⟨none, rfl, answers_of_cases hne (fun m hm => (by cases hm)) ?_⟩
    intro _ i hi hle
    omega
  | succ n ih =>
    have hin : start ≤ text.length := by omega
    obtain ⟨here, hhere⟩ := matchAt_ok hne hin
    cases here with
    | some stop =>
      refine ⟨some ⟨start, stop, text.slice start stop⟩, ?_, answers_of_cases hne ?_ nofun⟩
      · rw [List.range'_succ, firstMatch, hhere]
        rfl
      · rintro m ⟨⟩
        refine ⟨Nat.le_refl _, hhere, rfl, fun j hj hlt => ?_⟩
        exact absurd hlt (Nat.not_lt.2 hj)
    | none =>
      have hnext : start + 1 + n = text.length + 1 := by omega
      obtain ⟨found, hfound, hanswers⟩ := ih hnext
      have hskip : ¬ p.OccursAt text start := (not_occursAt_iff hne hin).2 hhere
      refine ⟨found, ?_, answers_of_cases hne ?_ ?_⟩
      · rw [List.range'_succ, firstMatch, hhere]
        exact hfound
      · intro m hm
        obtain ⟨hle, hat, htext, hfirst⟩ := (hanswers.some_iff m).1 hm
        refine ⟨by omega, hat, htext, fun j hj hlt => ?_⟩
        rcases Nat.eq_or_lt_of_le hj with rfl | hj
        · exact hskip
        · exact hfirst j hj hlt
      · intro hf i hi hle
        rcases Nat.eq_or_lt_of_le hi with rfl | hi
        · exact hskip
        · exact (not_occursAt_iff hne hle).2 (hanswers.none_iff.1 hf i hi hle)

theorem scan_answers {p : Pattern} (hne : ∀ t ∈ p.tokens, t.literal ≠ []) (text : Text)
    (start : Nat) : ∃ found, p.scan text start = .ok found ∧ p.Answers text start found := by
  rcases Nat.lt_or_ge text.length start with hbeyond | hin
  · have hnone : text.length + 1 - start = 0 := by omega
    refine ⟨none, by rw [scan, hnone]; rfl, answers_of_cases hne (fun m hm => (by cases hm)) ?_⟩
    intro _ i hi hle
    omega
  · exact firstMatch_answers hne text _ (by omega)

/-! ## The search and the scan -/

/-- A match that a search gives is also given from every later start up to its place. -/
theorem Leftmost.later {p : Pattern} {text : Text} {start later : Nat} {m : Match}
    (h : p.Leftmost text start m) (hle : start ≤ later) (hm : later ≤ m.index) :
    p.Leftmost text later m :=
  ⟨hm, h.matches_at, h.text_eq, fun j hj => h.first j (Nat.le_trans hle hj)⟩

/-- A search for a pattern whose literals have characters always has an answer. It is that of the
naive scan, the leftmost match from the start on. The places that searches give back are the places
where the pattern matches, and a later start changes nothing as long as it is not past the match. -/
theorem search_eq_scan {p : Pattern} (hp : p.Assembled) (hne : ∀ t ∈ p.tokens, t.literal ≠ [])
    (text : Text) (start : Nat) :
    (∃ found, p.search text start = .ok found ∧ p.scan text start = .ok found ∧
      p.Answers text start found) ∧
    (∀ i stop, p.matchAt text i = .ok (some stop) ↔
      p.search text i = .ok (some ⟨i, stop, text.slice i stop⟩)) ∧
    ∀ later m, start ≤ later → later ≤ m.index → p.search text start = .ok (some m) →
      p.search text later = .ok (some m) := by
  have hsearch := search_answers hp.anchored hne text
  have hgives : ∀ i m, p.search text i = .ok (some m) ↔ p.Leftmost text i m := by
    intro i m
    obtain ⟨found, hfound, hanswers⟩ := hsearch i
    rw [hfound, ← hanswers.some_iff m]
    exact ⟨Except.ok.inj, congrArg _⟩
  refine ⟨?_, ?_, ?_⟩
  · obtain ⟨found, hfound, hanswers⟩ := hsearch start
    obtain ⟨found', hfound', hanswers'⟩ := scan_answers hne text start
    rw [hanswers'.unique hanswers] at hfound'
    exact ⟨found, hfound, hfound', hanswers⟩
  · intro i stop
    rw [hgives]
    refine ⟨fun h => ⟨Nat.le_refl i, h, rfl, fun j hj hlt => ?_⟩, fun h => h.matches_at⟩
    exact absurd hlt (Nat.not_lt.2 hj)
  · intro later m hle hm h
    exact (hgives later m).2 (((hgives start m).1 h).later hle hm)

/-- Two parentheses and a name behind them. -/
def nested : Pattern := (Pattern.empty.lit ['(', '(']).lit ['x']

/-- The match overlaps the place where the first literal stands in vain. -/
theorem nested_search :
    nested.Assembled ∧ (∀ t ∈ nested.tokens, t.literal ≠ []) ∧
    nested.search "(((x".toList 0 = .ok (some ⟨1, 4, "((x".toList⟩) ∧
    (∃ found, nested.search "(((x".toList 0 = .ok found ∧ nested.scan "(((x".toList 0 = .ok found ∧
      nested.Answers "(((x".toList 0 found) ∧
    (∀ i stop, nested.matchAt "(((x".toList i = .ok (some stop) ↔
      nested.search "(((x".toList i = .ok (some ⟨i, stop, Text.slice "(((x".toList i stop⟩)) ∧
    ∀ later m, 0 ≤ later → later ≤ m.index → nested.search "(((x".toList 0 = .ok (some m) →
      nested.search "(((x".toList later = .ok (some m) := by
  have hp : nested.Assembled := .add _ _ _ (.add _ _ _ .empty)
  have hne : ∀ t ∈ nested.tokens, t.literal ≠ [] := by decide
  have hfound : nested.search "(((x".toList 0 = .ok (some ⟨1, 4, "((x".toList⟩) := by
    decide +kernel
  exact ⟨hp, hne, hfound, search_eq_scan hp hne "(((x".toList 0⟩

end Pattern

end HeaderCatalog
