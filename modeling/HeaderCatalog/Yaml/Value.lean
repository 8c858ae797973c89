import HeaderCatalog.Number.Binary64
import HeaderCatalog.Text.Utf8

/-!
# HeaderCatalog.Yaml.Value — what YAML texts stand for

Settings are written in YAML. Nothing is said here about how such a text is read: a `Loader` is any
function that gives each text its value, or says why it has none. Of a value there is kept what can
make a difference to settings.
-/

namespace HeaderCatalog.Yaml

/-- The value of a scalar. Of a moment only its existence is kept. -/
inductive Scalar where
  | null
  | bool (b : Bool)
  | int (i : Int)
  | real (x : Number.Binary64)
  | text (t : Text)
  | bytes (b : Bytes)
  | moment
deriving DecidableEq, Repr, Inhabited

/-- What a text stands for: a scalar, a mapping, or some other collection. Of the latter there is
kept whether it is empty. -/
inductive Value where
  | scalar (s : Scalar)
  | mapping (entries : List (Scalar × Value))
  | collection (isEmpty : Bool)
deriving Inhabited

/-- The value that the entries of a mapping give to a key. -/
def Value.get? (entries : List (Scalar × Value)) (key : String) : Option Value :=
  entries.lookup (.text key.toList)

/-- Why a text has no value. -/
inductive Refusal where
  /-- The text is not well-formed, or a scalar does not fit its kind. -/
  | malformed
  /-- A number has no characters at all. -/
  | emptyNumber
  /-- A text that is said to be a moment does not look like one. -/
  | noMoment
  /-- A number to the base sixty has more parts than a fraction can count. -/
  | hugeNumber
  /-- A loader may have other causes. -/
  | other (message : String)
deriving DecidableEq, Repr, Inhabited

/-- The refusal in words. -/
def Refusal.message : Refusal → String
  | malformed => "the text is malformed"
  | emptyNumber => "string index out of range"
  | noMoment => "'NoneType' object has no attribute 'groupdict'"
  | hugeNumber => "int too large to convert to float"
  | other message => message

/-- A reader of YAML texts. -/
abbrev Loader := Text → Except Refusal Value

end HeaderCatalog.Yaml
