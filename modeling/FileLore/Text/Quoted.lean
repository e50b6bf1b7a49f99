import FileLore.Text.Hexadecimal
import FileLore.Text.Visible

/-!
# Quoted texts

How a text is shown to a reader so that its bounds and every odd character in it
can be seen: between double quotes, with a backslash before a quote or backslash,
short names for the commonest control characters, and the code point of every
other character that has no shape of its own.
-/

namespace FileLore.Text

/-- One character of a quoted text. -/
def quotedChar (c : Char) : List Char :=
  if c = '\x00' then ['\\', '0']
  else if c = '\t' then ['\\', 't']
  else if c = '\n' then ['\\', 'n']
  else if c = '\r' then ['\\', 'r']
  else if c = '"' || c = '\\' then ['\\', c]
  else if isVisible c then [c]
  else ['\\', 'u', '\x7b'] ++ hexText c.toNat ++ ['\x7d']

/-- The text between double quotes. -/
def quoted (text : List Char) : List Char :=
  '"' :: text.flatMap quotedChar ++ ['"']

end FileLore.Text
