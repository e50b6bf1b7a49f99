/-!
# Finding one text in another

Plain tests and cuts by a fixed text: whether it begins, ends or occurs in
another, the parts between its occurrences, and lists of texts put together with
a text in between.
-/

namespace FileLore.Text

/-- Whether `needle` occurs in the text as consecutive characters. -/
def occurs (needle : List Char) : List Char → Bool
  | [] => needle.isEmpty
  | c :: rest => needle.isPrefixOf (c :: rest) || occurs needle rest

/-- The part of the text after a leading `start`, if it begins so. -/
def afterStart? : List Char → List Char → Option (List Char)
  | [], text => some text
  | _ :: _, [] => none
  | a :: start, b :: text => if a = b then afterStart? start text else none

/-- The part of the text before a trailing `finish`, if it ends so. -/
def beforeEnd? (finish text : List Char) : Option (List Char) :=
  (afterStart? finish.reverse text.reverse).map List.reverse

/-- The parts of the text between the separators, at least one; parts may be empty. -/
def splitAt (separator : Char) : List Char → List (List Char)
  | [] => [[]]
  | c :: rest =>
    if c = separator then [] :: splitAt separator rest
    else
      match splitAt separator rest with
      | part :: parts => (c :: part) :: parts
      | [] => [[c]]

/-- A text has at least one part. -/
theorem splitAt_ne_nil (separator : Char) (text : List Char) : splitAt separator text ≠ [] := by
  cases text with
  | nil => exact List.cons_ne_nil _ _
  | cons c rest =>
    rw [splitAt]
    split
    · exact List.cons_ne_nil _ _
    · split <;> exact List.cons_ne_nil _ _

/-- The texts in order with `separator` between each two. -/
def joinWith (separator : List Char) : List (List Char) → List Char
  | [] => []
  | [text] => text
  | text :: more => text ++ separator ++ joinWith separator more

/-- The parts of a text, put together with the separator between them, are the text. -/
theorem joinWith_splitAt (separator : Char) (text : List Char) :
    joinWith [separator] (splitAt separator text) = text := by
  induction text with
  | nil => rfl
  | cons c rest ih =>
    have hne := splitAt_ne_nil separator rest
    rw [splitAt]
    cases hs : splitAt separator rest with
    | nil => exact absurd hs hne
    | cons part parts =>
      rw [hs] at ih
      by_cases h : c = separator
      · rw [if_pos h, joinWith, ih, h]
        · rfl
        · exact List.cons_ne_nil _ _
      · rw [if_neg h]
        cases parts with
        | nil => simpa [joinWith] using ih
        | cons next more => simpa [joinWith] using ih

end FileLore.Text
