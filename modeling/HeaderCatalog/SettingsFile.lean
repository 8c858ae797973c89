import HeaderCatalog.Path
import HeaderCatalog.Settings
import HeaderCatalog.Yaml.Value

/-!
# HeaderCatalog.SettingsFile — settings from a YAML text

The settings stand in the mapping `scan` of the text, which a loader reads. Whatever does not fit
gives the settings that need no file, all of them at once: a text that is malformed, a size of tabs
that is no number or is negative. Some causes are reported instead, and `SettingsError` names them.
-/

namespace HeaderCatalog

open Yaml

/-- Why settings cannot be read at all. -/
inductive SettingsError where
  /-- The text is refused for another cause than being malformed. -/
  | refused (refusal : Refusal)
  /-- The size of tabs is infinite. -/
  | infiniteTabSize
  /-- It cannot be said whether there is a file of settings. -/
  | unreachable (error : FileError) (path : Path)
deriving DecidableEq, Repr, Inhabited

/-- The error in words. -/
def SettingsError.message : SettingsError → String
  | refused r => r.message
  | infiniteTabSize => "cannot convert float infinity to integer"
  | unreachable e p => e.message p

namespace Settings

/-- The settings that are used where a text gives none. -/
def usual : Settings := {}

/-- Something that has no settings to give: an error that is reported, or `none`. -/
abbrev Reading := ExceptT SettingsError Option

/-- What is read, or its refusal. That a text is malformed is not reported. -/
def reading {α : Type} : Except Refusal α → Reading α
  | .ok a => pure a
  | .error r => if r = .malformed then ExceptT.mk none else throw (.refused r)

/-- The integer that a value stands for. A fraction loses what is behind its point, a text is read
as a number, and truth values count as zero and one. -/
def integerOf : Value → Reading Int
  | .scalar (.bool b) => pure (if b then 1 else 0)
  | .scalar (.int i) => pure i
  | .scalar (.real x) =>
    match x with
    | .infinite _ => throw .infiniteTabSize
    | x => ExceptT.lift x.truncate?
  | .scalar (.text t) => ExceptT.lift (Number.integer? 10 t)
  | .scalar (.bytes b) =>
    ExceptT.lift (Number.integer? 10 (b.map fun x => if x < 128 then Char.ofNat x.toNat else '?'))
  | _ => ExceptT.mk none

/-- Does a value count as true? Zero, nothing and what is empty do not. -/
def truthOf : Value → Bool
  | .scalar .null => false
  | .scalar (.bool b) => b
  | .scalar (.int i) => i != 0
  | .scalar (.real x) => !x.isZero
  | .scalar (.text t) => !t.isEmpty
  | .scalar (.bytes b) => !b.isEmpty
  | .scalar .moment => true
  | .mapping entries => !entries.isEmpty
  | .collection isEmpty => !isEmpty

/-- Settings from the values that are given. -/
def ofValues (tabSize includeExports : Option Value) : Reading Settings := do
  let size ← match tabSize with
    | some v => integerOf v
    | none => pure (usual.tabSize : Int)
  if size < 0 then ExceptT.mk none
  else return ⟨size.toNat, (includeExports.map truthOf).getD usual.includeExports⟩

/-- Settings from the value of a text. -/
def ofValue : Value → Reading Settings
  | .mapping entries =>
    match Value.get? entries "scan" with
    | none => ofValues none none
    | some (.mapping fields) =>
      ofValues (Value.get? fields "tab_size") (Value.get? fields "include_exports")
    | some _ => ExceptT.mk none
  | _ => ExceptT.mk none

/-- Settings from a text. -/
def ofText (load : Loader) (text : Text) : Except SettingsError Settings :=
  ((reading (load text) >>= ofValue).run).getD (.ok usual)

end Settings

end HeaderCatalog
