/-!
# White space

The characters that count as white space (the Unicode property White_Space), and
the operations that go by it: trimming a text at both ends and cutting it into
words. The words of a text hold no white space and are never empty.
-/

namespace FileLore.Text

/-- Whether `c` is white space. -/
def isBlank (c : Char) : Bool :=
  let n := c.toNat
  (0x09 ≤ n && n ≤ 0x0D) || n == 0x20 || n == 0x85 || n == 0xA0 || n == 0x1680 ||
  (0x2000 ≤ n && n ≤ 0x200A) || n == 0x2028 || n == 0x2029 || n == 0x202F || n == 0x205F ||
  n == 0x3000

/-- The text without the white space it begins with. -/
def trimStart (text : List Char) : List Char :=
  text.dropWhile isBlank

/-- The text without the white space it ends with. -/
def trimEnd (text : List Char) : List Char :=
  (text.reverse.dropWhile isBlank).reverse

/-- The text without white space at either end. -/
def trim (text : List Char) : List Char :=
  trimEnd (trimStart text)

/-- The words of a text, given the word that is open at its start: a maximal run of characters
that are not white space. -/
def wordsFrom (opened : List Char) : List Char → List (List Char)
  | [] => if opened.isEmpty then [] else [opened.reverse]
  | c :: rest =>
    if isBlank c then
      if opened.isEmpty then wordsFrom [] rest else opened.reverse :: wordsFrom [] rest
    else wordsFrom (c :: opened) rest

/-- The words of a text in order: its maximal runs without white space. -/
def words (text : List Char) : List (List Char) :=
  wordsFrom [] text

end FileLore.Text
