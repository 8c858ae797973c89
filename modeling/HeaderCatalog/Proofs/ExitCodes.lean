import HeaderCatalog.Readers
import Mathlib.Data.List.Basic

/-!
# HeaderCatalog.Proofs.ExitCodes — which failures the commands report, and how

A failure calls for exit code 1 if the file is missing, of an unsupported type or does not parse,
and for exit code 2 otherwise. `Answer.Reports` says that an answer does as the outcome calls for.
All of this holds for whatever loader of settings and parser of scripts the commands run with.

* `FileScanError.exitCode_eq_due_iff`: the codes of failures are those that are due, unless what is
  in the file does not fit (`FileScanError.Unfit`).
* `commands_report_iff`: so a scan always answers, and it reports all failures but these. Asking for
  the kinds of nodes gives no answer if the file is not UTF-8, and blames every file that cannot be
  read; all other failures it reports.
-/

namespace HeaderCatalog

/-! ## Failures and their codes -/

/-- Why a command fails. -/
inductive Failure where
  | settings (error : SettingsError)
  | file (error : FileScanError)
deriving DecidableEq, Repr

/-- The exit code that a failure calls for: 1 for a file that is missing, of an unsupported type or
does not parse, and 2 for all else. -/
def Failure.due : Failure → Nat
  | .file (.notFound _) => 1
  | .file (.unreadable .missing _) => 1
  | .file (.unsupported _) => 1
  | .file (.scan (.unparsed _)) => 1
  | _ => 2

/-- The exit code that an outcome calls for. -/
def dueCode {α : Type} : Except Failure α → Nat
  | .ok _ => 0
  | .error f => f.due

/-- The answer reports the outcome: the command ends with the exit code that is due. -/
structure Answer.Reports {α : Type} (a : Answer) (outcome : Except Failure α) : Prop where
  answered : a.crash = none
  exit : a.exit = dueCode outcome

/-- The catalogue of a file with the settings of the working directory, or why there is none. -/
def scanOutcome (readers : Readers) (files : Files) (p : Path) :
    Except Failure (List Descriptor × List Event) := do
  let settings ← (Settings.load readers.yaml files (.ofText [])).mapError .settings
  (scanFile readers.parse files p settings).mapError .file

/-- The tree of a file, or why there is none. -/
def treeOutcome (readers : Readers) (files : Files) (p : Path) : Except Failure Node := do
  let text ← (readText files p).mapError .file
  (readers.parse text).clean.mapError fun e => .file (.scan (.unparsed e))

/-! ## Scans -/

/-- What is in the file does not fit: bytes that are no characters, a node that cuts a character in
two, or a parameter that is no plain name. -/
def FileScanError.Unfit : FileScanError → Prop
  | .undecodable _ => True
  | .scan (.fault .brokenText) => True
  | .scan (.fault (.unsupportedParameter _)) => True
  | _ => False

/-- Only a failure that does not fit is reported with another code than is due. -/
theorem FileScanError.exitCode_eq_due_iff (e : FileScanError) :
    e.exitCode = (Failure.file e).due ↔ ¬ e.Unfit := by
  cases e with
  | notFound p => exact iff_of_true rfl id
  | unsupported p => exact iff_of_true rfl id
  | undecodable defect => simp [exitCode, Failure.due, Unfit]
  | unreadable error p => cases error <;> exact iff_of_true rfl id
  | scan error =>
    cases error with
    | unparsed e => exact iff_of_true rfl id
    | fault f => cases f <;> simp [exitCode, Failure.due, Unfit]

theorem FileScanError.exitCode_of_unfit {e : FileScanError} (h : e.Unfit) : e.exitCode = 1 := by
  unfold Unfit at h
  split at h
  · rfl
  · rfl
  · rfl
  · cases h

/-- The exit code with which a scan ends. -/
def scanCode {α : Type} : Except Failure α → Nat
  | .ok _ => 0
  | .error (.settings _) => 2
  | .error (.file e) => e.exitCode

theorem scanCode_eq_dueCode_iff {α : Type} (outcome : Except Failure α) :
    scanCode outcome = dueCode outcome ↔ ∀ e, outcome = .error (.file e) → ¬ e.Unfit := by
  match outcome with
  | .ok _ => exact iff_of_true rfl fun e he => by cases he
  | .error (.settings _) => exact iff_of_true rfl fun e he => by cases he
  | .error (.file e) =>
    rw [scanCode, dueCode, FileScanError.exitCode_eq_due_iff]
    constructor
    · rintro hfit e' ⟨⟩
      exact hfit
    · intro h
      exact h e rfl

/-- A scan for records answers in every case, with the code of its outcome. -/
theorem scanAnswer_eq (readers : Readers) (files : Files) (verbose : Bool) (p : Path) :
    (scanAnswer readers files verbose p true).crash = none ∧
      (scanAnswer readers files verbose p true).exit = scanCode (scanOutcome readers files p) := by
  unfold scanAnswer scanOutcome
  cases Settings.load readers.yaml files (.ofText []) with
  | error e => exact ⟨rfl, rfl⟩
  | ok settings =>
    simp only [Except.mapError, Bind.bind, Except.bind]
    cases scanFile readers.parse files p settings with
    | error e => exact ⟨rfl, rfl⟩
    | ok result => exact ⟨rfl, rfl⟩

/-- How a scan of a file for records ends. -/
structure ScanReporting (readers : Readers) (files : Files) (verbose : Bool) (p : Path) : Prop where
  answered : ((Invocation.command verbose (.scan p true)).run readers files).crash = none
  /-- The code is the one that is due, unless what is in the file does not fit. -/
  reports :
    ((Invocation.command verbose (.scan p true)).run readers files).Reports
        (scanOutcome readers files p) ↔
      ∀ e, scanOutcome readers files p = .error (.file e) → ¬ e.Unfit
  unfit : ∀ e, scanOutcome readers files p = .error (.file e) → e.Unfit →
    ((Invocation.command verbose (.scan p true)).run readers files).exit = 1

theorem scan_reporting (readers : Readers) (files : Files) (verbose : Bool) (p : Path) :
    ScanReporting readers files verbose p := by
  obtain ⟨hcrash, hexit⟩ := scanAnswer_eq readers files verbose p
  constructor
  · exact hcrash
  · rw [← scanCode_eq_dueCode_iff, ← hexit]
    exact ⟨fun h => h.exit, fun h => ⟨hcrash, h⟩⟩
  · intro e he hunfit
    have hcode : scanCode (scanOutcome readers files p) = e.exitCode := by
      rw [he]
      rfl
    exact (hexit.trans hcode).trans (FileScanError.exitCode_of_unfit hunfit)

/-! ## Kinds of nodes -/

/-- All that asking for the kinds of nodes can come to. -/
theorem kindsAnswer_cases (readers : Readers) (files : Files) (verbose : Bool) (p : Path) :
    (∃ e, files p = .error e ∧ treeOutcome readers files p = .error (.file (.unreadable e p)) ∧
      (∀ d, readText files p ≠ .error (.undecodable d)) ∧
      (kindsAnswer readers files verbose p).crash = none ∧
      (kindsAnswer readers files verbose p).exit = 1) ∨
    (∃ d bytes, files p = .ok bytes ∧ readText files p = .error (.undecodable d) ∧
      (kindsAnswer readers files verbose p).crash = some .undecodable) ∨
    ∃ text bytes, files p = .ok bytes ∧ readText files p = .ok text ∧
      (kindsAnswer readers files verbose p).Reports (treeOutcome readers files p) := by
  unfold treeOutcome kindsAnswer
  cases hfile : files p with
  | error e =>
    have hread : readText files p = .error (.unreadable e p) := by
      rw [readText, hfile]
      rfl
    rw [hread]
    -- The code is 1 whatever the error is.
    exact .inl ⟨e, rfl, rfl, fun d h => (by cases h), rfl, rfl⟩
  | ok bytes =>
    cases hdecode : Utf8.decode bytes with
    | error d =>
      have hread : readText files p = .error (.undecodable d) := by
        rw [readText, hfile]
        simp only [Except.mapError, Bind.bind, Except.bind, hdecode]
      rw [hread]
      exact .inr (.inl ⟨d, bytes, rfl, rfl, rfl⟩)
    | ok text =>
      have hread : readText files p = .ok text.unifyNewlines := by
        rw [readText, hfile]
        simp only [Except.mapError, Bind.bind, Except.bind, hdecode]
        rfl
      rw [hread]
      refine .inr (.inr ⟨_, bytes, rfl, rfl, ?_⟩)
      simp only [Except.mapError, Bind.bind, Except.bind]
      cases (readers.parse text.unifyNewlines).clean with
      | error e => exact ⟨rfl, rfl⟩
      | ok root => exact ⟨rfl, rfl⟩

theorem Failure.due_unreadable_eq_one_iff {e : FileError} {p : Path} :
    (Failure.file (.unreadable e p)).due = 1 ↔ e = .missing := by
  cases e with
  | missing => exact iff_of_true rfl rfl
  | underFile => simp [due]
  | directory => simp [due]
  | nameTooLong => simp [due]

/-- How asking for the kinds of nodes of a file ends. -/
structure KindsReporting (readers : Readers) (files : Files) (verbose : Bool) (p : Path) :
    Prop where
  /-- There is an answer unless the contents of the file are not UTF-8. -/
  answered : ((Invocation.command verbose (.kinds p)).run readers files).crash = none ↔
    ∀ d, readText files p ≠ .error (.undecodable d)
  /-- The code is then the one that is due, unless the file is there but cannot be read. -/
  reports :
    ((Invocation.command verbose (.kinds p)).run readers files).Reports
        (treeOutcome readers files p) ↔
      (∀ d, readText files p ≠ .error (.undecodable d)) ∧ ∀ e, files p = .error e → e = .missing
  unreadable : ∀ e, files p = .error e →
    ((Invocation.command verbose (.kinds p)).run readers files).exit = 1

theorem kinds_reporting (readers : Readers) (files : Files) (verbose : Bool) (p : Path) :
    KindsReporting readers files verbose p := by
  rcases kindsAnswer_cases readers files verbose p with ⟨e, hfile, htree, hread, hcrash, hexit⟩ |
    ⟨d, bytes, hfile, hread, hcrash⟩ | ⟨text, bytes, hfile, hread, hreports⟩
  · refine ⟨iff_of_true hcrash hread, ?_, fun _ _ => hexit⟩
    rw [hfile, htree]
    constructor
    · intro h
      refine ⟨hread, fun e' he' => ?_⟩
      cases he'
      exact Failure.due_unreadable_eq_one_iff.1 (h.exit.symm.trans hexit)
    · rintro ⟨-, h⟩
      exact ⟨hcrash, hexit.trans (Failure.due_unreadable_eq_one_iff.2 (h e rfl)).symm⟩
  · -- There is no answer, and the file is no UTF-8.
    have hnot : (kindsAnswer readers files verbose p).crash ≠ none := by
      rw [hcrash]
      exact Option.some_ne_none _
    refine ⟨iff_of_false hnot fun h => h d hread,
      iff_of_false (fun h => hnot h.answered) fun h => h.1 d hread, ?_⟩
    intro e he
    rw [hfile] at he
    cases he
  · have hdecoded : ∀ d, readText files p ≠ .error (.undecodable d) := by
      intro d hd
      rw [hread] at hd
      cases hd
    have hfound : ∀ e, files p ≠ .error e := by
      intro e he
      rw [hfile] at he
      cases he
    exact ⟨iff_of_true hreports.answered hdecoded,
      iff_of_true hreports ⟨hdecoded, fun e he => absurd he (hfound e)⟩,
      fun e he => absurd he (hfound e)⟩

/-! ## Both commands -/

/-- A scan for records ends with an exit code of its own in every case. The code is the one that is
due, unless what is in the file does not fit, which gives 1. Asking for the kinds of nodes does so
unless the file is not UTF-8, and the code is the one that is due unless the file is there but
cannot be read, which gives 1 too. -/
theorem commands_report_iff (readers : Readers) (files : Files) (verbose : Bool) (p : Path) :
    ScanReporting readers files verbose p ∧ KindsReporting readers files verbose p :=
  ⟨scan_reporting readers files verbose p, kinds_reporting readers files verbose p⟩

/-- A file that is not UTF-8, and a directory. -/
def oddFiles : Files :=
  FileTree.files [(["a.js".toList], some [0xff]), (["d".toList], none)]

/-- Code 2 is due for all three, but the first one has no answer, and the others end with 1. -/
theorem odd_files_unreported :
    ((Invocation.ofArguments ["kinds", "a.js"]).run ownReaders oddFiles).crash =
        some .undecodable ∧
      dueCode (treeOutcome ownReaders oddFiles (.ofText "a.js".toList)) = 2 ∧
      ((Invocation.ofArguments ["scan", "a.js", "--json"]).run ownReaders oddFiles).exit = 1 ∧
      dueCode (scanOutcome ownReaders oddFiles (.ofText "a.js".toList)) = 2 ∧
      ((Invocation.ofArguments ["kinds", "d"]).run ownReaders oddFiles).exit = 1 ∧
      dueCode (treeOutcome ownReaders oddFiles (.ofText "d".toList)) = 2 := by
  decide +kernel

end HeaderCatalog
