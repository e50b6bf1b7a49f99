/-!
# Places counted in bytes

A place in a text can be given by how many bytes of its UTF-8 form stand before
it. Such a place may lie inside a character, and then the text cannot be cut
there.
-/

namespace FileLore.Text

/-- The number of bytes that the text takes as UTF-8. -/
def byteLength : List Char → Nat
  | [] => 0
  | c :: rest => c.utf8Size + byteLength rest

/-- The parts of the text before and after its first `count` bytes; none if that many bytes end
inside a character or are more than there are. -/
def cutAtByte? : Nat → List Char → Option (List Char × List Char)
  | 0, text => some ([], text)
  | _ + 1, [] => none
  | count + 1, c :: rest =>
    if count + 1 < c.utf8Size then none
    else (cutAtByte? (count + 1 - c.utf8Size) rest).map fun (before, after) => (c :: before, after)

/-- The part of the text between two places; none if one of them lies inside a character. -/
def betweenBytes? (start stop : Nat) (text : List Char) : Option (List Char) := do
  let (_, after) ← cutAtByte? start text
  let (part, _) ← cutAtByte? (stop - start) after
  return part

/-- A text is cut cleanly after as many bytes as its first part takes. -/
theorem cutAtByte?_byteLength_append (before after : List Char) :
    cutAtByte? (byteLength before) (before ++ after) = some (before, after) := by
  induction before with
  | nil => rw [byteLength, List.nil_append, cutAtByte?]
  | cons c rest ih =>
    have hpos := c.utf8Size_pos
    obtain ⟨count, hcount⟩ : ∃ count, byteLength (c :: rest) = count + 1 :=
      ⟨byteLength (c :: rest) - 1, by rw [byteLength]; omega⟩
    have hrest : count + 1 - c.utf8Size = byteLength rest := by
      rw [← hcount, byteLength]; omega
    have hsize : ¬ count + 1 < c.utf8Size := by
      rw [← hcount, byteLength]; omega
    rw [hcount, List.cons_append, cutAtByte?, if_neg hsize, hrest, ih]
    rfl

end FileLore.Text
