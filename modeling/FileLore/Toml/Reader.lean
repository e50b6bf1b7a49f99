import FileLore.Toml.Scalar

/-!
# Reading TOML: documents

Values that hold others, the statements of a document, and the tables that these
build up. A document is refused as a whole if anything in it is wrong, were it
only that a table is defined twice.
-/

namespace FileLore.Toml

/-- The text after white space, line ends and comments; `comment` says that a comment has begun. -/
def skipFiller (comment : Bool) : List Char → List Char
  | [] => []
  | '\n' :: rest => skipFiller false rest
  | '\r' :: '\n' :: rest => skipFiller false rest
  | c :: rest =>
    if comment then if isPlain c then skipFiller true rest else c :: rest
    else if c = '#' then skipFiller true rest
    else if c = ' ' || c = '\t' then skipFiller false rest
    else c :: rest

mutual

/-- A value, with at most `depth` levels of values inside it. -/
def value? : Nat → Nat → List Char → Option (Toml × List Char)
  | 0, _, _ => none
  | fuel + 1, depth, text =>
    match text with
    | '"' :: _ => (string? text).map fun (value, rest) => (.string (String.ofList value), rest)
    | '\'' :: _ => (string? text).map fun (value, rest) => (.string (String.ofList value), rest)
    | '[' :: rest =>
      if depth = 0 then none
      else (items? fuel (depth - 1) (skipFiller false rest)).map fun (items, rest) =>
        (.array items, rest)
    | '\x7b' :: rest =>
      if depth = 0 then none
      else
        match skipSpace rest with
        | '\x7d' :: rest => some (.table .braces [], rest)
        | rest => (entries? fuel (depth - 1) [] rest).map fun (entries, rest) =>
          (.table .braces entries, rest)
    | _ => scalar? text

/-- The items of an array up to its closing bracket; a comma may stand after the last one. -/
def items? : Nat → Nat → List Char → Option (List Toml × List Char)
  | 0, _, _ => none
  | fuel + 1, depth, text =>
    match text with
    | ']' :: rest => some ([], rest)
    | _ =>
      match value? fuel depth text with
      | none => none
      | some (item, rest) =>
        match skipFiller false rest with
        | ']' :: rest => some ([item], rest)
        | ',' :: rest =>
          (items? fuel depth (skipFiller false rest)).map fun (items, rest) => (item :: items, rest)
        | _ => none

/-- The entries of a table in braces, at least one more, up to its closing brace, in addition to
those before. -/
def entries? : Nat → Nat → Entries → List Char → Option (Entries × List Char)
  | 0, _, _, _ => none
  | fuel + 1, depth, before, text =>
    match key? text with
    | some (path, '=' :: rest) =>
      match value? fuel depth (skipSpace rest) with
      | none => none
      | some (value, rest) =>
        match before.assign value path with
        | none => none
        | some entries =>
          match skipSpace rest with
          | '\x7d' :: rest => some (entries, rest)
          | ',' :: rest => entries? fuel depth entries rest
          | _ => none
    | _ => none

end

/-- The text after the end of a line, before which only blanks and a comment may stand. -/
def afterLine? (text : List Char) : Option (List Char) :=
  let rest :=
    match skipSpace text with
    | '#' :: rest => rest.dropWhile isPlain
    | rest => rest
  if rest.isEmpty then some [] else lineEnd? rest

/-- A statement, and the text after its line. -/
def statement? (fuel : Nat) (text : List Char) : Option (Statement × List Char) :=
  match text with
  | '[' :: '[' :: rest =>
    match key? rest with
    | some (path, ']' :: ']' :: rest) =>
      (afterLine? rest).map fun rest => (.listedHeader path, rest)
    | _ => none
  | '[' :: rest =>
    match key? rest with
    | some (path, ']' :: rest) => (afterLine? rest).map fun rest => (.header path, rest)
    | _ => none
  | _ =>
    match key? text with
    | some (path, '=' :: rest) =>
      -- The statement itself is the outermost level of nesting.
      match value? fuel (depthLimit - 1) (skipSpace rest) with
      | some (value, rest) => (afterLine? rest).map fun rest => (.assignment path value, rest)
      | none => none
    | _ => none

/-- The statements of a text, line by line; lines may be empty or hold only a comment. Every line
reads a character, and `width` bounds what a single value needs. -/
def statements? (width : Nat) : Nat → List Char → Option (List Statement)
  | 0, _ => none
  | fuel + 1, text =>
    match skipSpace text with
    | [] => some []
    | c :: rest =>
      if c = '#' || c = '\n' || c = '\r' then
        match afterLine? (c :: rest) with
        | some rest => statements? width fuel rest
        | none => none
      else
        match statement? width (c :: rest) with
        | some (statement, rest) => (statements? width fuel rest).map (statement :: ·)
        | none => none

/-- The text without a byte order mark at its start. -/
def dropMark : List Char → List Char
  | '\ufeff' :: rest => rest
  | text => text

/-- The entries of the document that a text holds. -/
def ofText? (text : String) : Option Entries := do
  let characters := dropMark text.toList
  let width := 2 * characters.length + 2
  let statements ← statements? width (characters.length + 1) characters
  Entries.carryOut [] statements []

end FileLore.Toml
