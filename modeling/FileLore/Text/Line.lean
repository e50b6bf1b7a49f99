/-!
# Lines

A line ends at a line feed, and a carriage return right before that line feed
belongs to the line's end. The last line needs no end; a text that ends in one
has no further, empty line after it.
-/

namespace FileLore.Text

/-- The line held back to front, without the carriage return that its line feed makes part of the
line's end. -/
def closeLine : List Char → List Char
  | '\r' :: opened => opened.reverse
  | opened => opened.reverse

/-- The lines of a text, given back to front what has been read of the first one. -/
def linesFrom (opened : List Char) : List Char → List (List Char)
  | [] => if opened.isEmpty then [] else [opened.reverse]
  | c :: rest =>
    if c = '\n' then closeLine opened :: linesFrom [] rest else linesFrom (c :: opened) rest

/-- The lines of a text in order, without their ends. -/
def lines (text : List Char) : List (List Char) :=
  linesFrom [] text

end FileLore.Text
