import FileLore.Path
import FileLore.Text.LetterCase

/-!
# Languages

The languages that source files are told apart by, their tags, and how a path
shows its language: by the extension of the file name, in either case.
-/

namespace FileLore

/-- The language of a source file. -/
inductive Language where
  | python | javaScript | typeScript | go | rust | java | cpp | c | shell | ruby | php | swift
  | kotlin
  /-- No extension, or one of no known language. -/
  | unknown
  deriving DecidableEq, Repr, Inhabited

namespace Language

/-- The tag that stands for the language in observations and records. -/
def tag : Language → String
  | python => "python"
  | javaScript => "javascript"
  | typeScript => "typescript"
  | go => "go"
  | rust => "rust"
  | java => "java"
  | cpp => "cpp"
  | c => "c"
  | shell => "shell"
  | ruby => "ruby"
  | php => "php"
  | swift => "swift"
  | kotlin => "kotlin"
  | unknown => "unknown"

/-- All languages. -/
def all : List Language :=
  [python, javaScript, typeScript, go, rust, java, cpp, c, shell, ruby, php, swift, kotlin,
    unknown]

/-- The language with the given tag. -/
def ofTag? (tag : String) : Option Language :=
  all.find? (·.tag == tag)

/-- The language that files with an extension, in small letters, are written in. -/
def ofExtension (extension : String) : Language :=
  match extension with
  | "py" => python
  | "js" | "jsx" => javaScript
  | "ts" | "tsx" => typeScript
  | "go" => go
  | "rs" => rust
  | "java" => java
  | "cpp" | "cc" | "cxx" => cpp
  | "c" => c
  | "sh" | "bash" => shell
  | "rb" => ruby
  | "php" => php
  | "swift" => swift
  | "kt" => kotlin
  | _ => unknown

/-- The language of the file at `path`. -/
def ofPath (path : String) : Language :=
  match Path.extension? path with
  | some extension => ofExtension (String.ofList (Text.lowerText extension))
  | none => unknown

end Language

end FileLore
