import HeaderCatalog.Text

/-!
# HeaderCatalog.Yaml.Token — the tokens of a YAML text
-/

namespace HeaderCatalog.Yaml

/-- A tag as it is written: a handle, if it has one, and what follows it. -/
structure WrittenTag where
  handle : Option Text
  suffix : Text
deriving DecidableEq, Repr, Inhabited

/-- What a line with a percent sign says in front of a document. -/
inductive Directive where
  | version (major : Text)
  | handle (name meaning : Text)
  | other
deriving DecidableEq, Repr, Inhabited

/-- A token. The ends of blocks, and the starts of those that no character marks, are tokens
too. -/
inductive Token where
  | directive (d : Directive)
  | documentStart
  | documentEnd
  | blockSequenceStart
  | blockMappingStart
  | blockEnd
  | flowSequenceStart
  | flowSequenceEnd
  | flowMappingStart
  | flowMappingEnd
  | blockEntry
  | flowEntry
  | key
  | value
  | reference (name : Text)
  | anchor (name : Text)
  | tag (t : WrittenTag)
  /-- A scalar; `plain` says that it is written without quotes or an indicator. -/
  | scalar (text : Text) (plain : Bool)
deriving DecidableEq, Repr, Inhabited

end HeaderCatalog.Yaml
