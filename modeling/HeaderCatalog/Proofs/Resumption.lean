import HeaderCatalog.Cursor
import HeaderCatalog.Proofs.Blocks
import HeaderCatalog.Proofs.Lines

/-!
# HeaderCatalog.Proofs.Resumption — which occurrence a cursor chooses

A cursor over a part of a text never loses a match to its location: every place of the part is a
place of the whole text (`resolve_eq`). So `Cursor.resolve_spec` can say exactly what a search
does: it gives the first occurrence behind the last body, or if there is none the first one
behind the last header, or if there is none the first one of the text; it fails only if the
pattern occurs nowhere, and then leaves the cursor as it is.
-/

namespace HeaderCatalog

namespace Cursor

/-- The text of the cursor lies in `whole` from its offset on. -/
structure Within (c : Cursor) (whole : Text) : Prop where
  offset_nonneg : 0 ≤ c.offset
  le_length : c.offset.toNat + c.text.length ≤ whole.length

/-- The occurrence that a search from the resume points gives: the first one behind the last
body, else the first one behind the last header, else the first one of the text. -/
inductive Chooses (c : Cursor) (p : Pattern) (m : Match) : Prop where
  | afterBody : p.Leftmost c.text c.afterBody m → Chooses c p m
  | afterHeader : (∀ j, c.afterBody ≤ j → ¬ p.OccursAt c.text j) →
      p.Leftmost c.text c.afterHeader m → Chooses c p m
  | start : (∀ j, c.afterBody ≤ j → ¬ p.OccursAt c.text j) →
      (∀ j, c.afterHeader ≤ j → ¬ p.OccursAt c.text j) →
      p.Leftmost c.text 0 m → Chooses c p m

theorem Chooses.matches_at {c : Cursor} {p : Pattern} {m : Match} (h : c.Chooses p m) :
    p.matchAt c.text m.index = .ok (some m.stop) := by
  cases h with
  | afterBody h => exact h.matches_at
  | afterHeader _ h => exact h.matches_at
  | start _ _ h => exact h.matches_at

theorem Chooses.text_eq {c : Cursor} {p : Pattern} {m : Match} (h : c.Chooses p m) :
    m.text = c.text.slice m.index m.stop := by
  cases h with
  | afterBody h => exact h.text_eq
  | afterHeader _ h => exact h.text_eq
  | start _ _ h => exact h.text_eq

/-- A cursor chooses one occurrence. -/
theorem Chooses.unique {c : Cursor} {p : Pattern} {m m' : Match} (h : c.Chooses p m)
    (h' : c.Chooses p m') : m = m' := by
  cases h with
  | afterBody h =>
    have hocc : p.OccursAt c.text m.index := ⟨_, h.matches_at⟩
    cases h' with
    | afterBody h' => exact h.unique h'
    | afterHeader hnone _ => exact absurd hocc (hnone _ h.start_le)
    | start hnone _ _ => exact absurd hocc (hnone _ h.start_le)
  | afterHeader hbody h =>
    have hocc : p.OccursAt c.text m.index := ⟨_, h.matches_at⟩
    cases h' with
    | afterBody h' => exact absurd ⟨_, h'.matches_at⟩ (hbody _ h'.start_le)
    | afterHeader _ h' => exact h.unique h'
    | start _ hnone _ => exact absurd hocc (hnone _ h.start_le)
  | start hbody hheader h =>
    cases h' with
    | afterBody h' => exact absurd ⟨_, h'.matches_at⟩ (hbody _ h'.start_le)
    | afterHeader _ h' => exact absurd ⟨_, h'.matches_at⟩ (hheader _ h'.start_le)
    | start _ _ h' => exact h.unique h'

/-- The search goes on behind the last body exactly if the pattern occurs there. -/
theorem Chooses.afterBody_le_iff {c : Cursor} {p : Pattern} {m : Match} (h : c.Chooses p m) :
    c.afterBody ≤ m.index ↔ ∃ j, c.afterBody ≤ j ∧ p.OccursAt c.text j := by
  constructor
  · intro hle
    exact ⟨m.index, hle, m.stop, h.matches_at⟩
  · rintro ⟨j, hj, hocc⟩
    cases h with
    | afterBody h => exact h.start_le
    | afterHeader hnone _ => exact absurd hocc (hnone j hj)
    | start hnone _ _ => exact absurd hocc (hnone j hj)

/-- One search from one place: a match that is found has a location. -/
theorem resolve_eq {c : Cursor} {whole : Text} (hc : c.Within whole) {p : Pattern}
    (hp : p.Anchored) {start : Nat} {found : Option (Location × Match)}
    (h : HeaderCatalog.resolve p c.text whole.lines c.offset start = .ok found) :
    (∀ l m, found = some (l, m) → p.Leftmost c.text start m ∧
        l = Location.ofIndex (m.index + c.offset) whole.lines) ∧
      (found = none → ∀ j, start ≤ j → ¬ p.OccursAt c.text j) := by
  obtain ⟨match?, hsearch, h⟩ := bind_eq_ok_iff.1 h
  cases match? with
  | none =>
    cases h
    exact ⟨fun l m h => (by cases h), fun _ => Pattern.search_eq_none hp hsearch⟩
  | some m =>
    have hleft := Pattern.search_eq_some hp hsearch
    have hlocated : (Location.ofIndex (m.index + c.offset) whole.lines).found = true := by
      have hle := Pattern.le_of_matchAt hleft.matches_at
      have hin := hc.le_length
      have hcast : (m.index : Int) + c.offset = ((m.index + c.offset.toNat : Nat) : Int) := by
        have hnonneg := hc.offset_nonneg
        omega
      rw [hcast]
      exact Location.found_ofIndex whole _ (by omega)
    simp only [hlocated, if_true] at h
    cases h
    refine ⟨?_, fun h => (by cases h)⟩
    rintro l m ⟨⟩
    exact ⟨hleft, rfl⟩

/-! ## The resume points in turn -/

/-- A place from which nothing is found may be left out. -/
theorem firstFrom_filter {c : Cursor} {p : Pattern} {lines : List Text} {a : Nat}
    (ha : HeaderCatalog.resolve p c.text lines c.offset a = .ok none) (starts : List Nat) :
    c.firstFrom p lines (starts.filter fun b => !b == a) = c.firstFrom p lines starts := by
  induction starts with
  | nil => rfl
  | cons b rest ih =>
    by_cases hb : b = a
    · subst hb
      simp only [firstFrom, ha, List.filter_cons, beq_self_eq_true, Bool.not_true]
      exact ih
    · simp only [List.filter_cons, beq_eq_false_iff_ne.2 hb, Bool.not_false, if_true, firstFrom, ih]

/-- To try no place twice changes nothing. -/
theorem firstFrom_eraseDups (c : Cursor) (p : Pattern) (lines : List Text) (starts : List Nat) :
    c.firstFrom p lines starts.eraseDups = c.firstFrom p lines starts := by
  match starts with
  | [] => rfl
  | a :: rest =>
    have hshort : (rest.filter fun b => !b == a).length < (a :: rest).length := by
      have hle := List.length_filter_le (fun b => !b == a) rest
      simp only [List.length_cons]
      omega
    have ih := firstFrom_eraseDups c p lines (rest.filter fun b => !b == a)
    rw [List.eraseDups_cons, firstFrom, firstFrom]
    cases ha : HeaderCatalog.resolve p c.text lines c.offset a with
    | error fault => rfl
    | ok found =>
      cases found with
      | some found => rfl
      | none => exact ih.trans (firstFrom_filter ha rest)
termination_by starts.length
decreasing_by exact hshort

theorem firstFrom_cons_eq_ok {c : Cursor} {p : Pattern} {lines : List Text} {start : Nat}
    {rest : List Nat} {found : Option (Location × Match)}
    (h : c.firstFrom p lines (start :: rest) = .ok found) :
    (HeaderCatalog.resolve p c.text lines c.offset start = .ok found ∧ found ≠ none) ∨
      (HeaderCatalog.resolve p c.text lines c.offset start = .ok none ∧
        c.firstFrom p lines rest = .ok found) := by
  obtain ⟨first, hfirst, h⟩ := bind_eq_ok_iff.1 h
  cases first with
  | none => exact Or.inr ⟨hfirst, h⟩
  | some first =>
    cases h
    exact Or.inl ⟨hfirst, by simp⟩

/-- A search with a cursor: what it finds, where, and what it leaves behind. -/
theorem resolve_spec {c c' : Cursor} {whole : Text} (hc : c.Within whole) {p : Pattern}
    (hp : p.Anchored) {found : Option (Location × Match)}
    (h : c.resolve p whole.lines = .ok (found, c')) :
    (∀ l m, found = some (l, m) → c.Chooses p m ∧ c' = c.advance m ∧
        l = Location.ofIndex (m.index + c.offset) whole.lines) ∧
      (found = none → c' = c ∧ ∀ j, ¬ p.OccursAt c.text j) := by
  obtain ⟨first, hfirst, h⟩ := bind_eq_ok_iff.1 h
  rw [starts, firstFrom_eraseDups] at hfirst
  have hfound : first = found ∧ (∀ l m, first = some (l, m) → c' = c.advance m) ∧
      (first = none → c' = c) := by
    cases first with
    | none =>
      cases h
      exact ⟨rfl, fun l m h => (by cases h), fun _ => rfl⟩
    | some lm =>
      cases h
      refine ⟨rfl, ?_, fun h => (by cases h)⟩
      rintro l m ⟨⟩
      rfl
  obtain ⟨rfl, hadvance, hkeep⟩ := hfound
  -- The three resume points in turn; each is tried only if the one before found nothing.
  rcases firstFrom_cons_eq_ok hfirst with ⟨hbody, hne⟩ | ⟨hbody, hrest⟩
  · obtain ⟨hsome, -⟩ := resolve_eq hc hp hbody
    refine ⟨fun l m hlm => ?_, fun h => absurd h hne⟩
    obtain ⟨hleft, hl⟩ := hsome l m hlm
    exact ⟨.afterBody hleft, hadvance l m hlm, hl⟩
  · have hnoBody := (resolve_eq hc hp hbody).2 rfl
    rcases firstFrom_cons_eq_ok hrest with ⟨hheader, hne⟩ | ⟨hheader, hrest⟩
    · obtain ⟨hsome, -⟩ := resolve_eq hc hp hheader
      refine ⟨fun l m hlm => ?_, fun h => absurd h hne⟩
      obtain ⟨hleft, hl⟩ := hsome l m hlm
      exact ⟨.afterHeader hnoBody hleft, hadvance l m hlm, hl⟩
    · have hnoHeader := (resolve_eq hc hp hheader).2 rfl
      rcases firstFrom_cons_eq_ok hrest with ⟨hstart, hne⟩ | ⟨hstart, hrest⟩
      · obtain ⟨hsome, -⟩ := resolve_eq hc hp hstart
        refine ⟨fun l m hlm => ?_, fun h => absurd h hne⟩
        obtain ⟨hleft, hl⟩ := hsome l m hlm
        exact ⟨.start hnoBody hnoHeader hleft, hadvance l m hlm, hl⟩
      · cases hrest
        refine ⟨fun l m h => (by cases h), fun _ => ⟨hkeep rfl, fun j => ?_⟩⟩
        exact (resolve_eq hc hp hstart).2 rfl j (Nat.zero_le _)

/-! ## Searches that find nothing -/

theorem firstFrom_eq_none {c : Cursor} {p : Pattern} {lines : List Text} {starts : List Nat}
    (h : c.firstFrom p lines starts = .ok none) :
    ∀ start ∈ starts, HeaderCatalog.resolve p c.text lines c.offset start = .ok none := by
  induction starts with
  | nil =>
    intro start hstart
    cases hstart
  | cons first rest ih =>
    rcases firstFrom_cons_eq_ok h with ⟨-, hne⟩ | ⟨hfirst, hrest⟩
    · exact absurd rfl hne
    · exact List.forall_mem_cons.2 ⟨hfirst, ih hrest⟩

/-- A search that finds nothing has scanned the whole text. -/
theorem search_of_resolve_eq_none {c c' : Cursor} {whole : Text} (hc : c.Within whole)
    {p : Pattern} (hp : p.Anchored) (h : c.resolve p whole.lines = .ok (none, c')) :
    p.search c.text 0 = .ok none := by
  rcases bind_eq_ok_iff.1 h with ⟨first, hfirst, hnone⟩
  cases first with
  | some lm => cases hnone
  | none =>
    rw [starts, firstFrom_eraseDups] at hfirst
    have hzero := firstFrom_eq_none hfirst 0 (by simp)
    have hnowhere := (resolve_eq hc hp hzero).2 rfl
    rcases bind_eq_ok_iff.1 hzero with ⟨found, hsearch, -⟩
    cases found with
    | none => exact hsearch
    | some m =>
      have hleft := Pattern.search_eq_some hp hsearch
      exact absurd ⟨m.stop, hleft.matches_at⟩ (hnowhere m.index (Nat.zero_le _))

theorem resolve_of_search_eq_none {c : Cursor} {p : Pattern} (h : p.search c.text 0 = .ok none)
    (lines : List Text) : c.resolve p lines = .ok (none, c) := by
  have hfirst : ∀ starts, c.firstFrom p lines starts = .ok none := by
    intro starts
    induction starts with
    | nil => rfl
    | cons start rest ih =>
      have hsearch := Pattern.search_eq_none_of_le h (Nat.zero_le start)
      exact bind_eq_ok_iff.2 ⟨none, bind_eq_ok_iff.2 ⟨none, hsearch, rfl⟩, ih⟩
  exact bind_eq_ok_iff.2 ⟨none, hfirst _, rfl⟩

end Cursor

end HeaderCatalog
