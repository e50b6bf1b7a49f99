import FileLore.Source.Extractor
import FileLore.Source.Role

/-!
# File records

The record of a file says what is known of it without parsing it: its name, its
role and language, which the path shows, and the observations on its content.
-/

namespace FileLore

/-- What is known of a source file. -/
structure FileRecord where
  /-- The last part of the path. -/
  name : String
  path : String
  role : Role
  language : Language
  /-- Observations on the content, in the order of the rules that made them. -/
  observations : List String
  /-- Whether there was any content to look at. -/
  analyzed : Bool
  deriving DecidableEq, Repr

/-- The record of the file at `path`. A file that cannot be read, like an empty one, has no
observations. -/
def FileRecord.of (path : String) (source? : Option String) : FileRecord :=
  let source := source?.getD ""
  let language := Language.ofPath path
  { name := Path.baseName path
    path := path
    role := Role.ofPath path
    language := language
    observations := if source.isEmpty then [] else language.observations source
    analyzed := !source.isEmpty }

end FileLore
