import HeaderCatalog.Path
import HeaderCatalog.Scan
import HeaderCatalog.SettingsFile

/-!
# HeaderCatalog.FileScan — catalogues of files

A file is scanned if it exists, if its name says that it holds JavaScript, and if it can be read
as UTF-8; these are looked at in this order. Settings are read from a file of their own, and
where it is missing or cannot be read the usual ones hold.
-/

namespace HeaderCatalog

/-! ## Files of settings -/

/-- The name of the file that holds the settings. -/
def settingsFileName : String := ".jsscribe"

/-- The settings in a directory. -/
def Settings.load (yaml : Yaml.Loader) (files : Files) (directory : Path) :
    Except SettingsError Settings :=
  let path := directory.child settingsFileName
  match files path with
  | .error .nameTooLong => .error (.unreachable .nameTooLong path)
  | .error _ => .ok .usual
  | .ok bytes =>
    match Utf8.decode bytes with
    | .error _ => .ok .usual
    | .ok text => Settings.ofText yaml text.unifyNewlines

/-! ## Files of sources -/

/-- The endings of the names of JavaScript files. -/
def scriptSuffixes : List String := [".js", ".mjs", ".cjs", ".jsx"]

/-- Does the name of a file say that it holds JavaScript? -/
def Path.isScript (p : Path) : Bool :=
  scriptSuffixes.contains (String.ofList (p.suffix.map Char.toLower))

/-- Why a file has no catalogue. -/
inductive FileScanError where
  | notFound (path : Path)
  | unsupported (path : Path)
  | unreadable (error : FileError) (path : Path)
  | undecodable (defect : Utf8.Defect)
  | scan (error : ScanError)
deriving DecidableEq, Repr, Inhabited

/-- The error in words. -/
def FileScanError.message : FileScanError → String
  | notFound p => "File not found: " ++ String.ofList p.render
  | unsupported p => "Unsupported file type: " ++ String.ofList p.render
  | unreadable e p => e.message p
  | undecodable d => d.message
  | scan e => e.message

/-- The text of a file. -/
def readText (files : Files) (p : Path) : Except FileScanError Text := do
  let bytes ← (files p).mapError (.unreadable · p)
  let text ← (Utf8.decode bytes).mapError .undecodable
  return text.unifyNewlines

/-- The catalogue of a file, with the events of the run. -/
def scanFile (parse : Text → Node) (files : Files) (p : Path) (settings : Settings) :
    Except FileScanError (List Descriptor × List Event) := do
  if !(← (files.exists? p).mapError (.unreadable · p)) then .error (.notFound p)
  else if !p.isScript then .error (.unsupported p)
  else (scan parse (← readText files p) settings).mapError .scan

end HeaderCatalog
