import FileLore.Text.LetterCase

/-!
# Title case

The first character of every word in upper case and the others in lower case. A
word ends at the first character that is not a letter, so what follows a digit
or a slash begins a new one.
-/

namespace FileLore.Text

/-- The text in title case, `inside` saying whether the character before it is a letter. -/
def titleCaseFrom (inside : Bool) : List Char → List Char
  | [] => []
  | c :: rest => (if inside then lower c else upper c) ++ titleCaseFrom (isLetter c) rest

/-- The text in title case. -/
def titleCase (text : String) : String :=
  String.ofList (titleCaseFrom false text.toList)

end FileLore.Text
