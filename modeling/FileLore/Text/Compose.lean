import FileLore.Text.Decimal
import FileLore.Text.Search

/-!
# Texts put together

Messages and documents are made of parts: numbers in decimal, lists with a text
between each two items, and lines.
-/

namespace FileLore.Text

/-- A natural number in decimal. -/
def decimal (n : Nat) : String :=
  String.ofList (natText n)

/-- The texts with `separator` between each two. -/
def joined (separator : String) (texts : List String) : String :=
  String.ofList (joinWith separator.toList (texts.map (·.toList)))

/-- The texts as lines, without an end after the last one. -/
def joinedLines (texts : List String) : String :=
  joined "\n" texts

end FileLore.Text
