/-!
# HeaderCatalog.Settings — how a source is catalogued
-/

namespace HeaderCatalog

/-- The settings of a scan. A positive `tabSize` expands tabs before headers are located, size
zero leaves them alone; `includeExports` looks through `export` statements. -/
structure Settings where
  tabSize : Nat := 0
  includeExports : Bool := true
deriving DecidableEq, Repr, Inhabited

end HeaderCatalog
