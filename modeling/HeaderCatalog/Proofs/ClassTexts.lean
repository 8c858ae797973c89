import HeaderCatalog.Proofs.Blocks
import HeaderCatalog.Proofs.HeaderShape

/-!
# HeaderCatalog.Proofs.ClassTexts — class texts as parts of the text

A class text is a part of the text it was isolated from, cut at two harmless places: in front of
the keyword, where no word goes on, and behind a closing brace or at the end of the text
(`ClassText.CutFrom`). So a match in a class text is a match in the whole text
(`ClassText.CutFrom.matchAt`).

A `ClassIndex` keeps only such texts (`ClassIndex.Sound`), and what it says of a name never
changes (`ClassIndex.lookup_of_get`).
-/

namespace HeaderCatalog

/-! ## Parts of a text -/

theorem Text.take_slice_drop (text : Text) {i stop : Nat} (h : i ≤ stop) :
    text.take i ++ text.slice i stop ++ text.drop stop = text := by
  have htake : text.take i = (text.take stop).take i := by
    rw [List.take_take, Nat.min_eq_left h]
  rw [Text.slice, htake, List.take_append_drop, List.take_append_drop]

theorem Text.getLast?_slice (text : Text) {i stop : Nat} (h : i < stop)
    (hstop : stop ≤ text.length) : (text.slice i stop).getLast? = text[stop - 1]? := by
  have hlength := text.length_slice i stop hstop
  rw [List.getLast?_eq_getElem?, hlength, Text.slice, List.getElem?_drop,
    List.getElem?_take_of_lt (by omega)]
  congr 1
  omega

/-- The class text is a part of the text that starts where it says. The cut in front of it goes
through no word, and it ends closed unless it goes on to the end of the text. -/
def ClassText.CutFrom (body : ClassText) (text : Text) : Prop :=
  ∃ front after, text = front ++ body.text ++ after ∧ front.length = body.start ∧
    front.getLast?.any Text.isWord = false ∧ (after = [] ∨ body.text.Closed)

namespace ClassText

theorem CutFrom.le_length {body : ClassText} {text : Text} (h : body.CutFrom text) :
    body.start + body.text.length ≤ text.length := by
  obtain ⟨front, after, rfl, hstart, -, -⟩ := h
  simp only [List.length_append]
  omega

/-- What stands between two places of the class text stands between the corresponding places of
the text. -/
theorem CutFrom.slice {body : ClassText} {text : Text} (h : body.CutFrom text) (i stop : Nat)
    (hstop : stop ≤ body.text.length) :
    text.slice (body.start + i) (body.start + stop) = body.text.slice i stop := by
  obtain ⟨front, after, rfl, hstart, -, -⟩ := h
  rw [← hstart, Text.slice, Text.slice, List.append_assoc, List.take_length_add_append,
    List.drop_length_add_append, List.take_append_of_le_length hstop]

/-- A match in the class text is a match in the text. -/
theorem CutFrom.matchAt {body : ClassText} {text : Text} (h : body.CutFrom text) {p : Pattern}
    (hp : Delimited p.tokens) {i stop : Nat} (hmatch : p.matchAt body.text i = .ok (some stop)) :
    p.matchAt text (body.start + i) = .ok (some (body.start + stop)) := by
  obtain ⟨front, after, rfl, hstart, hfront, hafter⟩ := h
  rw [← hstart]
  exact Pattern.matchAt_of_cut hp hmatch hfront hafter

end ClassText

/-! ## Isolating a class -/

theorem Text.find?_eq_some {text : Text} {c : Char} {start b : Nat}
    (h : text.find? c start = some b) : start ≤ b ∧ b < text.length := by
  obtain ⟨k, hk, rfl⟩ := Option.map_eq_some_iff.1 h
  have hlt := (List.findIdx?_eq_some_iff_findIdx_eq.1 hk).1
  simp only [List.length_drop] at hlt
  omega

theorem Pattern.lt_of_matchAt {p : Pattern} (hp : p.Anchored) {text : Text} {i stop : Nat}
    (h : p.matchAt text i = .ok (some stop)) : i < stop := by
  obtain ⟨-, ⟨t, ts, -, -, htokens, -⟩, n, hreads, rfl⟩ := (p.matchAt_eq_some_iff _ _ _).1 h
  rw [htokens] at hreads
  cases hreads with
  | token hstands _ =>
    have hpos := hstands.pos
    omega
  | pass hopt _ _ => simp [(hp t ts htokens).2] at hopt

namespace ClassText

/-- The offset just past the block of a class whose header matched. -/
def stopOf (text : Text) (m : Match) : Nat :=
  match brace? text m with
  | some b => blockEnd text b
  | none => text.length

theorem ofMatch_eq (text : Text) (m : Match) :
    ofMatch text m = ⟨m.index, text.slice m.index (stopOf text m)⟩ := rfl

/-- The class text ends in the text, behind the beginning of the header; it ends with the text or
just past a closing brace. -/
theorem stopOf_spec {text : Text} {m : Match} (hlt : m.index < m.stop)
    (hle : m.stop ≤ text.length) :
    m.index < stopOf text m ∧ stopOf text m ≤ text.length ∧
      (stopOf text m = text.length ∨ text[stopOf text m - 1]? = some Text.closeBrace) := by
  unfold stopOf
  split
  · rename_i b hb
    have hbrace : m.index ≤ b ∧ b < text.length := by
      unfold brace? at hb
      split at hb
      · cases hb
        omega
      · have hfind := Text.find?_eq_some hb
        omega
    have hblock := lt_blockEnd text b hbrace.2
    exact ⟨by omega, blockEnd_le_length text b, blockEnd_eq_length_or_closed text b⟩
  · exact ⟨by omega, Nat.le_refl _, Or.inl rfl⟩

/-- The text of a class whose header matched is a part of the text. -/
theorem cutFrom_ofMatch {text : Text} {m : Match} {p : Pattern} (hp : p.Anchored)
    (hclass : p.OpensClass) (h : p.matchAt text m.index = .ok (some m.stop)) :
    (ofMatch text m).CutFrom text := by
  have hlt := Pattern.lt_of_matchAt hp h
  have hle := (Pattern.le_of_matchAt h).2
  obtain ⟨hindex, hstop, hend⟩ := stopOf_spec hlt hle
  have hfront : (text.take m.index).length = m.index := by
    rw [List.length_take]
    omega
  refine ⟨text.take m.index, text.drop (stopOf text m), ?_, hfront, ?_, ?_⟩
  · exact (text.take_slice_drop (Nat.le_of_lt hindex)).symm
  · obtain ⟨-, hbegin, -⟩ := (p.matchAt_eq_some_iff _ _ _).1 h
    have hbefore := Text.before_length_append (text.take m.index) (text.drop m.index)
    rw [List.take_append_drop, hfront] at hbefore
    rw [← hbefore]
    exact hclass.not_isWord hbegin
  · rcases hend with hend | hclose
    · exact Or.inl (List.drop_eq_nil_iff.2 (by omega))
    · refine Or.inr fun c hc => ?_
      rw [ofMatch_eq, text.getLast?_slice hindex hstop, hclose] at hc
      cases hc
      decide

/-- A class text is isolated from the leftmost match of its header. -/
theorem isolate_eq_some {text : Text} {header : Pattern} {start : Nat} {body : ClassText}
    (h : isolate text header start = .ok (some body)) :
    ∃ m, header.search text start = .ok (some m) ∧ body = ofMatch text m := by
  obtain ⟨found, hfound, h⟩ := bind_eq_ok_iff.1 h
  cases found with
  | none => cases h
  | some m =>
    cases h
    exact ⟨m, hfound, rfl⟩

/-- A class is isolated from its header if that stands where the search starts. -/
theorem isolate_of_matchAt {text : Text} {header : Pattern} (hp : header.Anchored) {i stop : Nat}
    (hmatch : header.matchAt text i = .ok (some stop)) {entry : Option ClassText}
    (h : isolate text header i = .ok entry) :
    entry = some (ofMatch text ⟨i, stop, text.slice i stop⟩) := by
  obtain ⟨found, hfound, h⟩ := bind_eq_ok_iff.1 h
  cases found with
  | none => exact absurd ⟨stop, hmatch⟩ (Pattern.search_eq_none hp hfound i (Nat.le_refl i))
  | some m =>
    cases h
    rw [(Pattern.search_eq_some hp hfound).eq_of_matchAt hmatch]
    rfl

theorem cutFrom_of_isolate {text : Text} {header : Pattern} (hp : header.Anchored)
    (hclass : header.OpensClass) {start : Nat} {body : ClassText}
    (h : isolate text header start = .ok (some body)) : body.CutFrom text := by
  obtain ⟨m, hm, rfl⟩ := isolate_eq_some h
  exact cutFrom_ofMatch hp hclass (Pattern.search_eq_some hp hm).matches_at

/-- No class is found without a name. -/
theorem isolateNameless_eq_ok {text : Text} {start : Nat} {entry : Option ClassText}
    (h : isolateNameless text start = .ok entry) : entry = none := by
  unfold isolateNameless at h
  split at h
  · cases h
    rfl
  · cases h

end ClassText

/-! ## The texts of one run -/

namespace ClassIndex

/-- Every class text that was found is a part of the text. -/
def Sound (index : ClassIndex) : Prop :=
  ∀ name body, index.entries.lookup name = some (some body) → body.CutFrom index.text

theorem sound_ofText (text : Text) : (ofText text).Sound := by
  intro name body h
  cases h

theorem contains_eq_isSome_lookup (index : ClassIndex) (name : Option Text) :
    index.contains name = (index.entries.lookup name).isSome := by
  rw [Bool.eq_iff_iff, List.lookup_isSome_iff, contains, List.any_eq_true]
  constructor
  · rintro ⟨entry, hmem, heq⟩
    exact ⟨entry, hmem, beq_iff_eq.2 (eq_of_beq heq).symm⟩
  · rintro ⟨entry, hmem, heq⟩
    exact ⟨entry, hmem, beq_iff_eq.2 (eq_of_beq heq).symm⟩

/-- A look-up gives what was found before, or searches and remembers the answer. -/
theorem get_eq_ok {index index' : ClassIndex} {name : Option Text} {header : Option Pattern}
    {start : Nat} {entry : Option ClassText}
    (h : index.get name header start = .ok (entry, index')) :
    (index.entries.lookup name = some entry ∧ index' = index) ∨
      (index.entries.lookup name = none ∧ index.isolate name header start = .ok entry ∧
        index' = { index with entries := index.entries ++ [(name, entry)] }) := by
  unfold get at h
  split at h
  · rename_i entry' hentry
    cases h
    exact Or.inl ⟨hentry, rfl⟩
  · rename_i hnone
    obtain ⟨entry', hisolate, h⟩ := bind_eq_ok_iff.1 h
    cases h
    exact Or.inr ⟨hnone, hisolate, rfl⟩

/-- What a look-up says of a class is known from then on. -/
theorem lookup_of_get {index index' : ClassIndex} {name : Option Text} {header : Option Pattern}
    {start : Nat} {entry : Option ClassText}
    (h : index.get name header start = .ok (entry, index')) :
    index'.entries.lookup name = some entry := by
  rcases get_eq_ok h with ⟨hknown, rfl⟩ | ⟨hnew, -, rfl⟩
  · exact hknown
  · simp [List.lookup_append, hnew]

/-- A look-up of a known class gives what is known. -/
theorem eq_of_get_of_lookup {index index' : ClassIndex} {name : Option Text}
    {header : Option Pattern} {start : Nat} {entry known : Option ClassText}
    (h : index.get name header start = .ok (entry, index'))
    (hknown : index.entries.lookup name = some known) : entry = known := by
  rcases get_eq_ok h with ⟨hentry, -⟩ | ⟨hnone, -, -⟩
  · rw [hknown] at hentry
    exact (Option.some.inj hentry).symm
  · rw [hknown] at hnone
    cases hnone

/-- A look-up changes nothing that is known. -/
theorem lookup_mono_of_get {index index' : ClassIndex} {name other : Option Text}
    {header : Option Pattern} {start : Nat} {entry known : Option ClassText}
    (h : index.get name header start = .ok (entry, index'))
    (hknown : index.entries.lookup other = some known) :
    index'.entries.lookup other = some known := by
  rcases get_eq_ok h with ⟨-, rfl⟩ | ⟨-, -, rfl⟩
  · exact hknown
  · simp [List.lookup_append, hknown]

/-- A look-up of one class says nothing about another. -/
theorem lookup_of_get_ne {index index' : ClassIndex} {name other : Option Text}
    {header : Option Pattern} {start : Nat} {entry : Option ClassText}
    (h : index.get name header start = .ok (entry, index')) (hne : other ≠ name) :
    index'.entries.lookup other = index.entries.lookup other := by
  rcases get_eq_ok h with ⟨-, rfl⟩ | ⟨-, -, rfl⟩
  · rfl
  · simp [List.lookup_append, List.lookup_cons, beq_eq_false_iff_ne.2 hne]

/-- Two indexes of one text give the same for a name of which they know the same. -/
theorem get_of_lookup_eq {index index' index₁ : ClassIndex} {name : Option Text}
    {header : Option Pattern} {start : Nat} {entry : Option ClassText}
    (htext : index'.text = index.text)
    (hlookup : index'.entries.lookup name = index.entries.lookup name)
    (h : index.get name header start = .ok (entry, index₁)) :
    ∃ index₁', index'.get name header start = .ok (entry, index₁') := by
  have hisolate : index'.isolate name header start = index.isolate name header start := by
    unfold isolate
    rw [htext]
  unfold get at h ⊢
  rw [hlookup, hisolate]
  cases hknown : index.entries.lookup name with
  | some known =>
    rw [hknown] at h
    cases h
    exact ⟨_, rfl⟩
  | none =>
    rw [hknown] at h
    rcases bind_eq_ok_iff.1 h with ⟨found, hfound, hentry⟩
    cases hentry
    exact ⟨_, bind_eq_ok_iff.2 ⟨entry, hfound, rfl⟩⟩

theorem text_of_get {index index' : ClassIndex} {name : Option Text} {header : Option Pattern}
    {start : Nat} {entry : Option ClassText}
    (h : index.get name header start = .ok (entry, index')) : index'.text = index.text := by
  rcases get_eq_ok h with ⟨-, rfl⟩ | ⟨-, -, rfl⟩
  · rfl
  · rfl

/-- The header that a first look-up searches for: the given one or `class` and the name. -/
theorem cutFrom_of_isolate {index : ClassIndex} {name : Option Text} {header : Option Pattern}
    {start : Nat} {body : ClassText}
    (hheader : ∀ p, header = some p → p.Anchored ∧ p.OpensClass)
    (h : index.isolate name header start = .ok (some body)) : body.CutFrom index.text := by
  unfold isolate at h
  split at h
  · rename_i p
    obtain ⟨hp, hclass⟩ := hheader p rfl
    exact ClassText.cutFrom_of_isolate hp hclass h
  · rename_i n
    exact ClassText.cutFrom_of_isolate (Pattern.anchored_opening n) (Pattern.opensClass_opening n) h
  · cases ClassText.isolateNameless_eq_ok h

/-- A look-up keeps the index sound. -/
theorem Sound.get {index index' : ClassIndex} (hs : index.Sound) {name : Option Text}
    {header : Option Pattern} {start : Nat} {entry : Option ClassText}
    (hheader : ∀ p, header = some p → p.Anchored ∧ p.OpensClass)
    (h : index.get name header start = .ok (entry, index')) : index'.Sound := by
  rcases get_eq_ok h with ⟨-, rfl⟩ | ⟨-, hisolate, rfl⟩
  · exact hs
  · intro other body hbody
    simp only [List.lookup_append, Option.or_eq_some_iff] at hbody
    rcases hbody with hbody | ⟨-, hbody⟩
    · exact hs other body hbody
    · simp only [List.lookup_cons, List.lookup_nil] at hbody
      split at hbody
      · cases hbody
        exact cutFrom_of_isolate hheader hisolate
      · cases hbody

end ClassIndex

end HeaderCatalog
