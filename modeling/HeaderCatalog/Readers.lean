import HeaderCatalog.Command
import HeaderCatalog.Script.Program
import HeaderCatalog.Yaml.Document

/-!
# HeaderCatalog.Readers — the readers of the program
-/

namespace HeaderCatalog

/-- The readers that the program runs with. -/
def ownReaders : Readers where
  yaml := Yaml.load
  parse := Script.read

end HeaderCatalog
