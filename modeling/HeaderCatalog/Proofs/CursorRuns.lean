import HeaderCatalog.Proofs.Searching
import HeaderCatalog.Proofs.SourceTrees
import HeaderCatalog.Proofs.TopLevelOrder
import HeaderCatalog.Proofs.Totality
import HeaderCatalog.Proofs.Widening.Places
import Mathlib.Data.List.Chain

/-!
# HeaderCatalog.Proofs.CursorRuns — one cursor, call after call

A cursor is asked for one pattern after another and may jump forward and back. `Cursor.calls` keeps
the history of such a run.

* `Cursor.Ordered` is the invariant: the place behind the last header does not lie past the place
  behind the last body, and both lie in the text. Every call keeps it (`Cursor.ordered_advance`).
* `Cursor.Prefers` says which occurrence a call gives, and when it has to look back for it.
* `Cursor.calls_sound`: this for every call of every run over a part of a text. As long as the calls
  go forward, what they cover is disjoint and increases.
-/

namespace HeaderCatalog

/-- One call of a run: the cursor before it, the pattern it asks for, what it gives, and the cursor
after it. -/
structure Call where
  before : Cursor
  pattern : Pattern
  found : Option (Location × Match)
  after : Cursor

namespace Cursor

/-- The calls for the patterns in turn. -/
def calls (lines : List Text) : Cursor → List Pattern → Except Fault (List Call)
  | _, [] => .ok []
  | c, p :: rest => do
    let (found, c') ← c.resolve p lines
    return ⟨c, p, found, c'⟩ :: (← calls lines c' rest)

/-- The resume points lie in the text, the one behind the header not past the one behind the
body. -/
structure Ordered (c : Cursor) : Prop where
  header_le_body : c.afterHeader ≤ c.afterBody
  body_le_length : c.afterBody ≤ c.text.length

/-- The occurrence that a call gives: the first one behind the last body if there is one. If not,
the first one behind the last header, which then lies in that body; if there is none there either,
the first one of the text, which then lies before the end of that header. -/
structure Prefers (c : Cursor) (p : Pattern) (m : Match) : Prop where
  behindBody : (∃ i, c.afterBody ≤ i ∧ p.OccursAt c.text i) → p.Leftmost c.text c.afterBody m
  behindHeader : (∀ i, c.afterBody ≤ i → ¬ p.OccursAt c.text i) →
    (∃ i, c.afterHeader ≤ i ∧ p.OccursAt c.text i) →
      p.Leftmost c.text c.afterHeader m ∧ m.index < c.afterBody
  fromStart : (∀ i, c.afterHeader ≤ i → ¬ p.OccursAt c.text i) →
    p.Leftmost c.text 0 m ∧ m.index < c.afterHeader

end Cursor

namespace Call

/-- What a call of a run over `text`, a part of a source that starts at `offset`, does. -/
structure Sound (k : Call) (text : Text) (offset : Nat) (lines : List Text) : Prop where
  sameText : k.before.text = text
  before : k.before.Ordered
  after : k.after.Ordered
  succeeds_iff : k.found.isSome ↔ ∃ i, k.pattern.OccursAt text i
  unchanged : k.found = none → k.after = k.before
  moved : ∀ l m, k.found = some (l, m) → k.after = k.before.advance m
  located : ∀ l m, k.found = some (l, m) → l = Location.ofIndex (m.index + offset) lines
  chosen : ∀ l m, k.found = some (l, m) → k.before.Prefers k.pattern m

/-- The call finds its pattern behind the last body. -/
def Forward (k : Call) : Prop :=
  ∃ l m, k.found = some (l, m) ∧ k.before.afterBody ≤ m.index

/-- What a call covers: from the start of its match up to the end of the body behind it. -/
def span? (k : Call) : Option (Nat × Nat) :=
  k.found.map fun found => (found.2.index, k.after.afterBody)

/-- What the first call covers ends before what the second one covers begins. -/
def Precedes (j k : Call) : Prop :=
  ∃ s t, j.span? = some s ∧ k.span? = some t ∧ s.1 < s.2 ∧ s.2 ≤ t.1

instance : Trans Precedes Precedes Precedes where
  trans := by
    rintro i j k ⟨s, t, hs, ht, hlt, hle⟩ ⟨t', u, ht', hu, hlt', hle'⟩
    rw [ht] at ht'
    cases ht'
    exact ⟨s, u, hs, hu, hlt, by omega⟩

end Call

/-! ## One call -/

namespace Cursor

theorem ordered_ofText (text : Text) (offset : Int) : (ofText text offset).Ordered :=
  ⟨Nat.le_refl 0, Nat.zero_le _⟩

/-- Moving past a match keeps the resume points in order, wherever they were before. -/
theorem ordered_advance {c : Cursor} {p : Pattern} (hp : p.Anchored) {m : Match}
    (h : c.Chooses p m) : (c.advance m).Ordered := by
  have hlt := Pattern.lt_of_matchAt hp h.matches_at
  constructor
  · exact stop_le_bodyEnd c.text m (by omega) h.lies.stop_le
  · exact bodyEnd_le_length h.lies

theorem Chooses.prefers {c : Cursor} (hc : c.Ordered) {p : Pattern} {m : Match}
    (h : c.Chooses p m) : c.Prefers p m := by
  have hocc : p.OccursAt c.text m.index := ⟨m.stop, h.matches_at⟩
  constructor
  · rintro ⟨i, hi, hat⟩
    cases h with
    | afterBody hleft => exact hleft
    | afterHeader hbody _ => exact absurd hat (hbody i hi)
    | start hbody _ _ => exact absurd hat (hbody i hi)
  · rintro hbody ⟨i, hi, hat⟩
    have hlt : m.index < c.afterBody := by
      by_contra hge
      exact hbody m.index (Nat.le_of_not_lt hge) hocc
    cases h with
    | afterBody hleft => exact absurd hocc (hbody m.index hleft.start_le)
    | afterHeader _ hleft => exact ⟨hleft, hlt⟩
    | start _ hheader _ => exact absurd hat (hheader i hi)
  · intro hheader
    have hlt : m.index < c.afterHeader := by
      by_contra hge
      exact hheader m.index (Nat.le_of_not_lt hge) hocc
    cases h with
    | afterBody hleft =>
      -- what lies behind the body lies behind the header
      exact absurd (Nat.le_trans hc.header_le_body hleft.start_le) (Nat.not_le.2 hlt)
    | afterHeader _ hleft => exact absurd hleft.start_le (Nat.not_le.2 hlt)
    | start _ _ hleft => exact ⟨hleft, hlt⟩

/-- A pattern whose first token is required occurs nowhere in an empty text. -/
theorem not_occursAt_nil {p : Pattern} (hp : p.Anchored) (i : Nat) : ¬ p.OccursAt [] i := by
  rintro ⟨stop, hstop⟩
  have hlt := Pattern.lt_of_matchAt hp hstop
  have hle := (Pattern.le_of_matchAt hstop).2
  rw [List.length_nil] at hle
  omega

/-- A slice of a text lies in it, or is empty. -/
theorem within_slice (whole : Text) (offset n : Nat) {c : Cursor}
    (htext : c.text = whole.slice offset (offset + n)) (hoffset : c.offset = offset) :
    c.Within whole ∨ c.text = [] := by
  rcases Nat.le_total offset whole.length with hin | hbeyond
  · left
    constructor
    · omega
    · rw [hoffset, htext, Text.slice_add, List.length_take, List.length_drop]
      omega
  · right
    rw [htext, Text.slice_add, List.drop_eq_nil_of_le hbeyond, List.take_nil]

/-- One call of a cursor over a slice of a text. -/
theorem call_sound {whole : Text} {offset n : Nat} {c : Cursor} (hc : c.Ordered)
    (htext : c.text = whole.slice offset (offset + n)) (hoffset : c.offset = offset) {p : Pattern}
    (hp : p.Anchored) (hne : ∀ t ∈ p.tokens, t.literal ≠ []) :
    ∃ found c', c.resolve p whole.lines = .ok (found, c') ∧ c'.text = c.text ∧
      c'.offset = c.offset ∧
      (⟨c, p, found, c'⟩ : Call).Sound (whole.slice offset (offset + n)) offset whole.lines := by
  rcases within_slice whole offset n htext hoffset with hwithin | hnil
  · obtain ⟨found, c', hresolve⟩ := c.resolve_ok hne whole.lines
    obtain ⟨hsome, hnone⟩ := resolve_spec hwithin hp hresolve
    obtain ⟨htext', hoffset'⟩ := Run.text_of_resolve hwithin hp hresolve
    refine ⟨found, c', hresolve, htext', hoffset', ?_⟩
    cases found with
    | none =>
      obtain ⟨rfl, hnowhere⟩ := hnone rfl
      refine ⟨htext, hc, hc, iff_of_false (by simp) ?_, fun _ => rfl, nofun, nofun, nofun⟩
      rintro ⟨i, hi⟩
      exact hnowhere i (htext ▸ hi)
    | some found =>
      obtain ⟨l, m⟩ := found
      obtain ⟨hchosen, rfl, hl⟩ := hsome l m rfl
      refine ⟨htext, hc, ordered_advance hp hchosen, iff_of_true rfl ?_, nofun, ?_, ?_, ?_⟩
      · exact ⟨m.index, m.stop, htext ▸ hchosen.matches_at⟩
      · rintro _ _ ⟨⟩
        rfl
      · rintro _ _ ⟨⟩
        rw [hl, hoffset]
      · rintro _ _ ⟨⟩
        exact hchosen.prefers hc
  · -- Past the end of the source the slice is empty, and nothing occurs in it.
    have hnowhere : ∀ i, ¬ p.OccursAt c.text i := by
      intro i
      rw [hnil]
      exact not_occursAt_nil hp i
    have hsearch : p.search c.text 0 = .ok none := by
      obtain ⟨found, hfound, hanswers⟩ := Pattern.search_answers hp hne c.text 0
      have hnone := hanswers.none_iff.2 fun i _ hi =>
        (Pattern.not_occursAt_iff hne hi).1 (hnowhere i)
      rw [hfound, hnone]
    refine ⟨none, c, resolve_of_search_eq_none hsearch whole.lines, rfl, rfl, ?_⟩
    refine ⟨htext, hc, hc, iff_of_false (by simp) ?_, fun _ => rfl, nofun, nofun, nofun⟩
    rintro ⟨i, hi⟩
    exact hnowhere i (htext ▸ hi)

/-! ## The run -/

/-- A run returns, and the cursor of each call is the one that the call before it left. -/
theorem calls_ok {whole : Text} {offset n : Nat} {patterns : List Pattern}
    (hp : ∀ p ∈ patterns, p.Anchored ∧ ∀ t ∈ p.tokens, t.literal ≠ []) {c : Cursor}
    (hc : c.Ordered) (htext : c.text = whole.slice offset (offset + n))
    (hoffset : c.offset = offset) :
    ∃ ks, c.calls whole.lines patterns = .ok ks ∧ ks.map (·.pattern) = patterns ∧
      (∀ k ∈ ks, k.Sound (whole.slice offset (offset + n)) offset whole.lines) ∧
      (∀ k ∈ ks.head?, k.before = c) ∧ ks.IsChain fun j k => k.before = j.after := by
  induction patterns generalizing c with
  | nil => exact ⟨[], rfl, rfl, by simp, by simp, .nil⟩
  | cons p rest ih =>
    obtain ⟨⟨hanchored, hne⟩, hrest⟩ := List.forall_mem_cons.1 hp
    obtain ⟨found, c', hresolve, htext', hoffset', hsound⟩ :=
      call_sound hc htext hoffset hanchored hne
    obtain ⟨ks, hks, hpatterns, hall, hhead, hchain⟩ :=
      ih hrest hsound.after (htext'.trans htext) (hoffset'.trans hoffset)
    refine ⟨⟨c, p, found, c'⟩ :: ks, ?_, ?_, ?_, ?_, ?_⟩
    · exact bind_eq_ok_iff.2 ⟨_, hresolve, bind_eq_ok_iff.2 ⟨ks, hks, rfl⟩⟩
    · rw [List.map_cons, hpatterns]
    · exact List.forall_mem_cons.2 ⟨hsound, hall⟩
    · simp
    · exact List.isChain_cons.2 ⟨hhead, hchain⟩

end Cursor

/-- Whichever occurrence a call gives, it is one. -/
theorem Cursor.Prefers.matches_at {c : Cursor} {p : Pattern} {m : Match} (h : c.Prefers p m) :
    p.matchAt c.text m.index = .ok (some m.stop) := by
  by_cases hbody : ∃ i, c.afterBody ≤ i ∧ p.OccursAt c.text i
  · exact (h.behindBody hbody).matches_at
  · by_cases hheader : ∃ i, c.afterHeader ≤ i ∧ p.OccursAt c.text i
    · have hnone : ∀ i, c.afterBody ≤ i → ¬ p.OccursAt c.text i :=
        fun i hi hat => hbody ⟨i, hi, hat⟩
      exact (h.behindHeader hnone hheader).1.matches_at
    · have hnone : ∀ i, c.afterHeader ≤ i → ¬ p.OccursAt c.text i :=
        fun i hi hat => hheader ⟨i, hi, hat⟩
      exact (h.fromStart hnone).1.matches_at

namespace Call

variable {text : Text} {offset : Nat} {lines : List Text}

theorem Sound.occursAt {k : Call} (h : k.Sound text offset lines) {l : Location} {m : Match}
    (hm : k.found = some (l, m)) : k.pattern.OccursAt text m.index := by
  have hmatch := (h.chosen l m hm).matches_at
  rw [h.sameText] at hmatch
  exact ⟨m.stop, hmatch⟩

/-- What a call covers is not empty. -/
theorem Sound.lt_of_span? {k : Call} (h : k.Sound text offset lines) (hp : k.pattern.Anchored)
    {s : Nat × Nat} (hs : k.span? = some s) : s.1 < s.2 := by
  obtain ⟨⟨l, m⟩, hm, rfl⟩ := Option.map_eq_some_iff.1 hs
  have hlt := Pattern.lt_of_matchAt hp (h.chosen l m hm).matches_at
  have hheader : k.after.afterHeader = m.stop := by
    rw [h.moved l m hm]
    rfl
  have hbody := h.after.header_le_body
  show m.index < k.after.afterBody
  omega

/-- Calls that go forward one after another cover one part of the text after another. -/
theorem pairwise_precedes {ks : List Call}
    (hsound : ∀ k ∈ ks, k.Sound text offset lines ∧ k.pattern.Anchored)
    (hchain : ks.IsChain fun j k => k.before = j.after) (hforward : ∀ k ∈ ks, k.Forward) :
    ks.Pairwise Precedes := by
  rw [← List.isChain_iff_pairwise]
  refine hchain.imp_of_mem_imp fun j k hj hk hnext => ?_
  obtain ⟨l, m, hm, -⟩ := hforward j hj
  obtain ⟨l', m', hm', hle⟩ := hforward k hk
  have hs : j.span? = some (m.index, j.after.afterBody) := by rw [span?, hm]; rfl
  have ht : k.span? = some (m'.index, k.after.afterBody) := by rw [span?, hm']; rfl
  have hlt := (hsound j hj).1.lt_of_span? (hsound j hj).2 hs
  rw [hnext] at hle
  exact ⟨_, _, hs, ht, hlt, hle⟩

end Call

/-- What the calls of a segment cover in a slice of a text, if they all go forward. -/
structure Call.Increase (slice : Text) (segment : List Call) : Prop where
  covers : ∀ s ∈ segment.filterMap span?, s.1 < s.2
  disjoint : (segment.filterMap span?).Pairwise fun s t => s.2 ≤ t.1
  /-- Calls for one pattern visit its occurrences in increasing order. -/
  increasing : ∀ p, (∀ k ∈ segment, k.pattern = p) →
    (segment.filterMap span?).Pairwise fun s t => s.1 < t.1
  occurs : ∀ p, (∀ k ∈ segment, k.pattern = p) →
    ∀ s ∈ segment.filterMap span?, p.OccursAt slice s.1

/-- The calls are those that a cursor over a slice of a text makes for the patterns, and all is in
order with them. -/
structure Cursor.SoundCalls (whole : Text) (offset n : Nat) (patterns : List Pattern)
    (ks : List Call) : Prop where
  calls : (Cursor.ofText (whole.slice offset (offset + n)) offset).calls whole.lines patterns =
    .ok ks
  asked : ks.map (·.pattern) = patterns
  each : ∀ k ∈ ks, k.Sound (whole.slice offset (offset + n)) offset whole.lines
  forward : ∀ segment, segment <:+: ks → (∀ k ∈ segment, k.Forward) →
    Call.Increase (whole.slice offset (offset + n)) segment

/-- In every run of a cursor over a slice of a text, every call keeps the resume points in order,
succeeds exactly if its pattern occurs in the slice, and gives the occurrence that the resume points
prefer; a call that fails leaves the cursor as it is. As long as calls go forward, the parts of the
slice that they cover are disjoint and increase, so calls for one pattern visit its occurrences in
increasing order. -/
theorem Cursor.calls_sound (whole : Text) (offset n : Nat) (patterns : List Pattern)
    (hp : ∀ p ∈ patterns, p.Assembled ∧ ∀ t ∈ p.tokens, t.literal ≠ []) :
    ∃ ks, Cursor.SoundCalls whole offset n patterns ks := by
  have hanchored : ∀ p ∈ patterns, p.Anchored ∧ ∀ t ∈ p.tokens, t.literal ≠ [] :=
    fun p hmem => ⟨(hp p hmem).1.anchored, (hp p hmem).2⟩
  obtain ⟨ks, hks, hpatterns, hsound, -, hchain⟩ :=
    Cursor.calls_ok hanchored (Cursor.ordered_ofText (whole.slice offset (offset + n)) offset)
      rfl rfl
  refine ⟨ks, hks, hpatterns, hsound, ?_⟩
  intro segment hsegment hforward
  have hall : ∀ k ∈ segment, k.Sound (whole.slice offset (offset + n)) offset whole.lines ∧
      k.pattern.Anchored := by
    intro k hk
    have hmem : k ∈ ks := hsegment.subset hk
    have hpattern : k.pattern ∈ patterns := hpatterns ▸ List.mem_map_of_mem hmem
    exact ⟨hsound k hmem, (hanchored k.pattern hpattern).1⟩
  have hlinked : segment.IsChain fun j k => k.before = j.after := by
    obtain ⟨front, back, rfl⟩ := hsegment
    exact hchain.left_of_append.right_of_append
  have hspan : ∀ s ∈ segment.filterMap Call.span?, ∃ k ∈ segment, k.span? = some s :=
    fun s hs => List.mem_filterMap.1 hs
  have hpos : ∀ s ∈ segment.filterMap Call.span?, s.1 < s.2 := by
    intro s hs
    obtain ⟨k, hk, hks⟩ := hspan s hs
    exact (hall k hk).1.lt_of_span? (hall k hk).2 hks
  have hdisjoint : (segment.filterMap Call.span?).Pairwise fun s t => s.2 ≤ t.1 := by
    refine List.pairwise_filterMap.2 ((Call.pairwise_precedes hall hlinked hforward).imp ?_)
    rintro j k ⟨s, t, hs, ht, -, hle⟩ s' hs' t' ht'
    rw [hs] at hs'
    rw [ht] at ht'
    cases hs'
    cases ht'
    exact hle
  constructor
  · exact hpos
  · exact hdisjoint
  · intro p _
    exact hdisjoint.imp_of_mem fun hs _ hle => Nat.lt_of_lt_of_le (hpos _ hs) hle
  · intro p hsame s hs
    obtain ⟨k, hk, hks⟩ := hspan s hs
    obtain ⟨⟨l, m⟩, hm, rfl⟩ := Option.map_eq_some_iff.1 hks
    rw [← hsame k hk]
    exact (hall k hk).1.occursAt hm

/-- The header of a function with a name of one character and no parameters. -/
def plainHeader (name : Char) : Pattern :=
  ((((Pattern.empty.lit "function".toList).word [name]).lit ['(']).lit [')']).lit [Text.openBrace]

/-- Two headers of `exporting`, one that it does not have, and the first one again. -/
def exportingHeaders : List Pattern :=
  [plainHeader 'b', plainHeader 'a', plainHeader 'c', plainHeader 'b']

/-- The cursor over what stands behind the first word of `exporting` goes forward, stays where it is
for the header that is not there, and goes back to the start. -/
theorem exporting_calls :
    (∀ p ∈ exportingHeaders, p.Assembled ∧ ∀ t ∈ p.tokens, t.literal ≠ []) ∧
    ∃ ks, ks.map Call.span? = [some (0, 15), some (15, 30), none, some (0, 15)] ∧
      Cursor.SoundCalls exporting 7 30 exportingHeaders ks := by
  have hassembled : ∀ name, (plainHeader name).Assembled := fun _ =>
    .add _ _ _ (.add _ _ _ (.add _ _ _ (.add _ _ _ (.add _ _ _ .empty))))
  have hp : ∀ p ∈ exportingHeaders, p.Assembled ∧ ∀ t ∈ p.tokens, t.literal ≠ [] := by
    intro p hmem
    have hheader : ∃ name, p = plainHeader name := by
      simp only [exportingHeaders, List.mem_cons, List.not_mem_nil, or_false] at hmem
      rcases hmem with rfl | rfl | rfl | rfl
      all_goals exact ⟨_, rfl⟩
    obtain ⟨name, rfl⟩ := hheader
    exact ⟨hassembled name, by simp [plainHeader, Pattern.lit, Pattern.word, Pattern.add,
      Pattern.empty]⟩
  obtain ⟨ks, hks⟩ := Cursor.calls_sound exporting 7 30 exportingHeaders hp
  have hspans : ((Cursor.ofText (exporting.slice 7 (7 + 30)) (7 : Nat)).calls exporting.lines
      exportingHeaders).map (·.map Call.span?) =
        .ok [some (0, 15), some (15, 30), none, some (0, 15)] := by
    decide +kernel
  rw [hks.calls] at hspans
  exact ⟨hp, ks, Except.ok.inj hspans, hks⟩

end HeaderCatalog
