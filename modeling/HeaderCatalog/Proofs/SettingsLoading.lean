import HeaderCatalog.FileScan
import HeaderCatalog.Yaml.Document
import Mathlib.Data.List.Basic

/-!
# HeaderCatalog.Proofs.SettingsLoading — when settings are loaded, and which

Everything here holds for whatever loader reads the YAML texts.

* `Value.scanEntries` is all that is asked of the value of a text: two entries of its mapping
  `scan`. `Settings.ofValue_eq` says that settings depend on nothing else.
* `Settings.integerOf_eq_error_iff`: of all values, only an infinite number is neither an integer
  nor refused quietly.
* `Settings.load_returns_iff`: settings are loaded from every file, unless its size of tabs is
  infinite or the loader refuses its text for another cause than being malformed. They are the usual
  ones, or both of them come from one mapping.
-/

namespace HeaderCatalog

open Yaml

/-! ## What is asked of a text -/

/-- The values of the entries `tab_size` and `include_exports` in the mapping `scan` of a value.
Each entry may be left out, and the mapping with both of them. There are none if the value or what
it has under `scan` is no mapping. -/
def Yaml.Value.scanEntries : Value → Option (Option Value × Option Value)
  | .mapping entries =>
    match get? entries "scan" with
    | none => some (none, none)
    | some (.mapping fields) => some (get? fields "tab_size", get? fields "include_exports")
    | some _ => none
  | _ => none

/-- The same values for the contents of a file. -/
def scanEntries (yaml : Loader) (bytes : Bytes) :
    Except Refusal (Option (Option Value × Option Value)) :=
  match Utf8.decode bytes with
  | .error _ => .error .malformed
  | .ok text => (yaml text.unifyNewlines).map Value.scanEntries

namespace Settings

/-- The settings of what is asked of a text. -/
def ofEntries : Option (Option Value × Option Value) → Reading Settings
  | none => ExceptT.mk none
  | some (tab, exports) => ofValues tab exports

/-- That a text is malformed settles the matter, and any other refusal is passed on. -/
theorem reading_error {α : Type} {r : Refusal} (hr : r ≠ .malformed) :
    (reading (.error r) : Reading α) = throw (.refused r) :=
  if_neg hr

theorem ofValue_eq (v : Value) : ofValue v = ofEntries v.scanEntries := by
  cases v with
  | scalar s => rfl
  | collection isEmpty => rfl
  | mapping entries =>
    simp only [ofValue, Value.scanEntries]
    cases Value.get? entries "scan" with
    | none => rfl
    | some found =>
      cases found with
      | scalar s => rfl
      | collection isEmpty => rfl
      | mapping fields => rfl

/-! ## Values as settings -/

/-- Only an infinite number is neither an integer nor refused quietly. -/
theorem integerOf_eq_error_iff {v : Value} {e : SettingsError} :
    (integerOf v).run = some (.error e) ↔
      e = .infiniteTabSize ∧ ∃ negative, v = .scalar (.real (.infinite negative)) := by
  have hlift : ∀ i : Option Int, (ExceptT.lift i : Reading Int).run ≠ some (.error e) := by
    intro i hi
    cases i with
    | none => cases hi
    | some i => cases hi
  constructor
  · intro h
    match v with
    | .scalar (.real (.infinite negative)) =>
      cases h
      exact ⟨rfl, negative, rfl⟩
    | .scalar (.real (.finite m exponent)) => exact absurd h (hlift _)
    | .scalar (.real .notANumber) => exact absurd h (hlift _)
    | .scalar (.text t) => exact absurd h (hlift _)
    | .scalar (.bytes b) => exact absurd h (hlift _)
    | .scalar (.bool b) => cases h
    | .scalar (.int i) => cases h
    | .scalar .null => cases h
    | .scalar .moment => cases h
    | .mapping entries => cases h
    | .collection isEmpty => cases h
  · rintro ⟨rfl, negative, rfl⟩
    rfl

/-- The settings are read from two entries: the size of tabs is the integer that the one stands for,
and exports are looked through if the other counts as true. An entry that is left out stands for the
usual setting. -/
structure ReadFrom (tab exports : Option Value) (s : Settings) : Prop where
  tabSize : (tab = none ∧ s.tabSize = usual.tabSize) ∨
    ∃ v, tab = some v ∧ (integerOf v).run = some (.ok (s.tabSize : Int))
  includeExports : (exports = none ∧ s.includeExports = usual.includeExports) ∨
    ∃ v, exports = some v ∧ s.includeExports = truthOf v

theorem includeExports_iff {exports : Option Value} {b : Bool} :
    b = (exports.map truthOf).getD usual.includeExports ↔
      (exports = none ∧ b = usual.includeExports) ∨ ∃ v, exports = some v ∧ b = truthOf v := by
  cases exports with
  | none => simp
  | some v => simp

theorem ofValues_some (v : Value) (exports : Option Value) :
    ofValues (some v) exports = integerOf v >>= fun size =>
      if size < 0 then ExceptT.mk none
      else pure ⟨size.toNat, (exports.map truthOf).getD usual.includeExports⟩ := rfl

/-- Two entries whose first one stands for an integer. A negative size discards both settings. -/
theorem ofValues_of_integer {v : Value} {size : Int} (h : (integerOf v).run = some (.ok size))
    (exports : Option Value) :
    (ofValues (some v) exports).run =
      if size < 0 then none
      else some (.ok ⟨size.toNat, (exports.map truthOf).getD usual.includeExports⟩) := by
  have hsome : integerOf v = ExceptT.mk (some (.ok size)) := h
  have hrun : ofValues (some v) exports = if size < 0 then ExceptT.mk none
      else pure ⟨size.toNat, (exports.map truthOf).getD usual.includeExports⟩ := by
    rw [ofValues_some, hsome]
    rfl
  rw [hrun]
  split
  · rfl
  · rfl

/-- Settings that are read from two entries are what these come to. -/
theorem ofValues_of_readFrom {tab exports : Option Value} {s : Settings}
    (h : ReadFrom tab exports s) : (ofValues tab exports).run = some (.ok s) := by
  obtain ⟨size, exported⟩ := s
  have hexported : exported = (exports.map truthOf).getD usual.includeExports :=
    includeExports_iff.2 h.includeExports
  subst hexported
  rcases h.tabSize with ⟨rfl, hsize⟩ | ⟨v, rfl, hv⟩
  · cases hsize
    rfl
  · rw [ofValues_of_integer hv, if_neg (Int.not_lt.2 (Int.natCast_nonneg size)), Int.toNat_natCast]

/-- What two entries can come to: settings that are read from them, an error if the size of tabs is
infinite, and nothing otherwise. -/
theorem ofValues_cases (tab exports : Option Value) :
    (∃ s, (ofValues tab exports).run = some (.ok s) ∧ ReadFrom tab exports s) ∨
      ((ofValues tab exports).run = some (.error .infiniteTabSize) ∧
        ∃ negative, tab = some (.scalar (.real (.infinite negative)))) ∨
      ((ofValues tab exports).run = none ∧
        ∀ negative, tab ≠ some (.scalar (.real (.infinite negative)))) := by
  cases tab with
  | none => exact .inl ⟨_, rfl, .inl ⟨rfl, rfl⟩, includeExports_iff.1 rfl⟩
  | some v =>
    cases hv : (integerOf v).run with
    | none =>
      refine .inr (.inr ⟨?_, fun negative hinf => ?_⟩)
      · have hnone : integerOf v = ExceptT.mk none := hv
        rw [ofValues_some, hnone]
        rfl
      · cases hinf
        cases hv
    | some outcome =>
      cases outcome with
      | error e =>
        obtain ⟨rfl, negative, rfl⟩ := integerOf_eq_error_iff.1 hv
        exact .inr (.inl ⟨rfl, negative, rfl⟩)
      | ok size =>
        rw [ofValues_of_integer hv]
        -- A negative size is an integer, but no size: the other entry is dropped along with it.
        by_cases hneg : size < 0
        · rw [if_pos hneg]
          refine .inr (.inr ⟨rfl, fun negative hinf => ?_⟩)
          cases hinf
          cases hv
        · rw [if_neg hneg]
          refine .inl ⟨_, rfl, .inr ⟨v, rfl, ?_⟩, includeExports_iff.1 rfl⟩
          rw [hv, Int.toNat_of_nonneg (Int.not_lt.1 hneg)]

/-! ## Loading -/

section

variable {yaml : Loader} {files : Files} {directory : Path} {bytes : Bytes}

/-- The outcome of loading settings from the contents of a file. -/
theorem load_of_content (hfile : files (directory.child settingsFileName) = .ok bytes) :
    load yaml files directory =
      (reading (scanEntries yaml bytes) >>= ofEntries).run.getD (.ok usual) := by
  unfold load scanEntries
  simp only [hfile]
  cases Utf8.decode bytes with
  | error defect => rfl
  | ok text =>
    simp only [ofText]
    cases yaml text.unifyNewlines with
    | error r =>
      simp only [reading, Except.map]
      split <;> rfl
    | ok v =>
      have hvalue : reading (.ok v) >>= ofValue = ofEntries v.scanEntries := ofValue_eq v
      rw [hvalue]
      rfl

/-- The size of tabs in a file is an infinite number. -/
def EndlessTabs (yaml : Loader) (bytes : Bytes) : Prop :=
  ∃ negative exports,
    scanEntries yaml bytes = .ok (some (some (.scalar (.real (.infinite negative))), exports))

/-- What loading can come to: settings that are the usual ones or read from two entries, an error
because the size of tabs is infinite, or one because the text is refused. -/
theorem load_cases (hfile : files (directory.child settingsFileName) = .ok bytes) :
    (∃ s, load yaml files directory = .ok s ∧
      (s = usual ∨ ∃ tab exports, scanEntries yaml bytes = .ok (some (tab, exports)) ∧
        ReadFrom tab exports s) ∧
      (∀ r, scanEntries yaml bytes = .error r → r = .malformed) ∧ ¬ EndlessTabs yaml bytes) ∨
    (load yaml files directory = .error .infiniteTabSize ∧ EndlessTabs yaml bytes) ∨
    ∃ r, load yaml files directory = .error (.refused r) ∧ scanEntries yaml bytes = .error r ∧
      r ≠ .malformed := by
  rw [load_of_content hfile]
  unfold EndlessTabs
  -- A text that is malformed and one without the mapping both give the usual settings; only the
  -- values of the two entries are left to look at.
  match scanEntries yaml bytes with
  | .error r =>
    by_cases hr : r = .malformed
    · subst hr
      exact .inl ⟨usual, rfl, .inl rfl, fun r hr => by cases hr; rfl, by simp⟩
    · rw [reading_error hr]
      exact .inr (.inr ⟨r, rfl, rfl, hr⟩)
  | .ok none => exact .inl ⟨usual, rfl, .inl rfl, fun r hr => (by cases hr), by simp⟩
  | .ok (some (tab, exports)) =>
    have hrun : (reading (.ok (some (tab, exports))) >>= ofEntries).run =
        (ofValues tab exports).run := rfl
    rw [hrun]
    rcases ofValues_cases tab exports with ⟨s, hs, hfrom⟩ | ⟨he, negative, rfl⟩ | ⟨hnone, hfinite⟩
    · refine .inl ⟨s, by rw [hs]; rfl, .inr ⟨tab, exports, rfl, hfrom⟩, fun r hr => (by cases hr),
        ?_⟩
      -- An infinite size would have given the error, and not `s`.
      rintro ⟨negative, exports', h⟩
      cases h
      cases hs
    · exact .inr (.inl ⟨by rw [he]; rfl, negative, exports, rfl⟩)
    · refine .inl ⟨usual, by rw [hnone]; rfl, .inl rfl, fun r hr => (by cases hr), ?_⟩
      rintro ⟨negative, exports', h⟩
      cases h
      exact hfinite negative rfl

theorem load_of_readFrom (hfile : files (directory.child settingsFileName) = .ok bytes)
    {tab exports : Option Value} {s : Settings}
    (hentries : scanEntries yaml bytes = .ok (some (tab, exports)))
    (hs : ReadFrom tab exports s) : load yaml files directory = .ok s := by
  have hrun : (reading (.ok (some (tab, exports))) >>= ofEntries).run = some (.ok s) :=
    ofValues_of_readFrom hs
  rw [load_of_content hfile, hentries, hrun]
  rfl

end

/-- How settings are loaded from a file with the given contents. -/
structure Loading (yaml : Loader) (files : Files) (directory : Path) (bytes : Bytes) : Prop where
  /-- Settings are loaded, unless tabs are endless or the text is refused for another cause than
  being malformed. -/
  returns : (∃ s, load yaml files directory = .ok s) ↔
    (∀ r, scanEntries yaml bytes = .error r → r = .malformed) ∧ ¬ EndlessTabs yaml bytes
  endless : EndlessTabs yaml bytes → load yaml files directory = .error .infiniteTabSize
  /-- What can be read from the entries of the mapping is loaded. -/
  read : ∀ tab exports s, scanEntries yaml bytes = .ok (some (tab, exports)) →
    ReadFrom tab exports s → load yaml files directory = .ok s
  /-- Either none or both of the settings that are loaded are read from these entries. -/
  loaded : ∀ s, load yaml files directory = .ok s →
    s = usual ∨ ∃ tab exports, scanEntries yaml bytes = .ok (some (tab, exports)) ∧
      ReadFrom tab exports s

/-- Whatever loader reads the text, settings are loaded from every contents of their file, unless
the size of tabs in it is infinite or the text is refused for another cause than being malformed.
They are the usual ones, or both are read from the entries of one mapping, where no size of tabs is
cut off at zero. -/
theorem load_returns_iff (yaml : Loader) (files : Files) (directory : Path) (bytes : Bytes)
    (hfile : files (directory.child settingsFileName) = .ok bytes) :
    Loading yaml files directory bytes := by
  have hread : ∀ tab exports s, scanEntries yaml bytes = .ok (some (tab, exports)) →
      ReadFrom tab exports s → load yaml files directory = .ok s :=
    fun _ _ _ => load_of_readFrom hfile
  have hfailed : ∀ e, load yaml files directory = .error e →
      ∀ s, load yaml files directory ≠ .ok s := by
    intro e he s hs
    rw [he] at hs
    cases hs
  rcases @load_cases yaml files directory bytes hfile with ⟨s, hload, hs, hyaml, htabs⟩ |
    ⟨hload, htabs⟩ | ⟨r, hload, hyaml, hr⟩
  · refine ⟨iff_of_true ⟨s, hload⟩ ⟨hyaml, htabs⟩, fun h => absurd h htabs, hread, ?_⟩
    intro s' hs'
    rw [hload] at hs'
    cases hs'
    exact hs
  · have hnot := hfailed _ hload
    exact ⟨iff_of_false (fun h => hnot _ h.choose_spec) fun h => h.2 htabs, fun _ => hload, hread,
      fun s hs => absurd hs (hnot s)⟩
  · have hnot := hfailed _ hload
    refine ⟨iff_of_false (fun h => hnot _ h.choose_spec) fun h => hr (h.1 r hyaml), ?_, hread,
      fun s hs => absurd hs (hnot s)⟩
    rintro ⟨negative, exports, htabs⟩
    rw [hyaml] at htabs
    cases htabs

/-- A directory with one file of settings. -/
def settingsAlone (text : Text) : Files :=
  FileTree.files [([settingsFileName.toList], some (Utf8.encode text))]

/-- A text that gives both settings. -/
def bothSettings : Text := "scan:\n  tab_size: 4\n  include_exports: no\n".toList

theorem both_loaded :
    settingsAlone bothSettings ((Path.ofText []).child settingsFileName) =
        .ok (Utf8.encode bothSettings) ∧
      load Yaml.load (settingsAlone bothSettings) (.ofText []) = .ok ⟨4, false⟩ ∧
      ∃ tab exports, scanEntries Yaml.load (Utf8.encode bothSettings) = .ok (some (tab, exports)) ∧
        ReadFrom tab exports ⟨4, false⟩ := by
  have hfile : settingsAlone bothSettings ((Path.ofText []).child settingsFileName) =
      .ok (Utf8.encode bothSettings) := by
    decide +kernel
  have hload : load Yaml.load (settingsAlone bothSettings) (.ofText []) = .ok ⟨4, false⟩ := by
    decide +kernel
  have hread := (load_returns_iff Yaml.load _ _ _ hfile).loaded _ hload
  exact ⟨hfile, hload, hread.resolve_left (by decide)⟩

/-- A text whose tabs are endless. -/
def endlessSettings : Text := "scan:\n  tab_size: .inf\n".toList

/-- Nothing is loaded where tabs are endless, although the text can be read. -/
theorem endless_not_loaded :
    settingsAlone endlessSettings ((Path.ofText []).child settingsFileName) =
        .ok (Utf8.encode endlessSettings) ∧
      (scanEntries Yaml.load (Utf8.encode endlessSettings)).isOk = true ∧
      ¬ ∃ s, load Yaml.load (settingsAlone endlessSettings) (.ofText []) = .ok s := by
  have hload : load Yaml.load (settingsAlone endlessSettings) (.ofText []) =
      .error .infiniteTabSize := by
    decide +kernel
  refine ⟨by decide +kernel, by decide +kernel, ?_⟩
  rw [hload]
  rintro ⟨s, hs⟩
  cases hs

end Settings

end HeaderCatalog
