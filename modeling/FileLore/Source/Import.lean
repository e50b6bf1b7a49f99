import FileLore.Source.Extractor

/-!
# Imported modules

The modules that a Python source imports names from, for the relations between
files. Modules named relative to the file, with a leading dot, are left out.
-/

namespace FileLore

open Pattern Extractor

/-- The start of a statement that imports names from a module, which is the first group. -/
def importOrigin : Pattern :=
  sequence [literal "from", gap, group 1 (oneOrMore (!Text.isBlank ·)), gap, literal "import"]

/-- The modules, in file order and with repetitions, that a source imports names from. -/
def importedModules (source : String) : List String :=
  let text := source.toList
  ((importOrigin.allMatches text).filterMap (·.group? text 1)).filterMap fun origin =>
    if origin.head? == some '.' then none else some (String.ofList origin)

end FileLore
