import FileLore.Proofs.Text.Decimal
import FileLore.Text.Blank
import FileLore.Text.Compose

/-!
# Documents read by the line

What has been put together from lines comes apart again at its line feeds: the lines of
the whole are those of its parts (`linesOf_joinedLines`), and a part without a line feed
is a line. So what stands under a heading, up to the next blank line, can be read off
without knowing how the document was made (`linesUnder_eq`).
-/

namespace FileLore.Text

variable {text heading : String} {texts : List String}

/-! ## Lines -/

/-- The lines of a document: what stands between its line feeds. -/
def linesOf (document : String) : List String :=
  (document.toList.splitOn '\n').map String.ofList

theorem linesOf_of_notMem (h : '\n' ∉ text.toList) : linesOf text = [text] := by
  rw [linesOf, List.splitOn_eq_singleton h, List.map_singleton, String.ofList_toList]

/-- A line feed between two texts keeps their lines apart. -/
theorem linesOf_append (before after : String) :
    linesOf (before ++ "\n" ++ after) = linesOf before ++ linesOf after := by
  have htext : (before ++ "\n" ++ after).toList = before.toList ++ '\n' :: after.toList := by
    simp
  rw [linesOf, htext, List.splitOn_append_cons_self, List.map_append, linesOf, linesOf]

theorem joinedLines_singleton (line : String) : joinedLines [line] = line := by
  simp [joinedLines, joined, joinWith]

theorem joinedLines_cons (first second : String) (others : List String) :
    joinedLines (first :: second :: others) = first ++ "\n" ++ joinedLines (second :: others) := by
  simp [joinedLines, joined, joinWith, String.append_assoc]

/-- **The lines of texts that are put together** are the lines of each. -/
theorem linesOf_joinedLines (hne : texts ≠ []) :
    linesOf (joinedLines texts) = texts.flatMap linesOf := by
  induction texts with
  | nil => exact absurd rfl hne
  | cons first more ih =>
    cases more with
    | nil => rw [joinedLines_singleton, List.flatMap_singleton]
    | cons second others =>
      rw [List.flatMap_cons, joinedLines_cons, linesOf_append, ih (List.cons_ne_nil _ _)]

/-- Texts that are lines are their own lines. -/
theorem flatMap_linesOf (h : ∀ text ∈ texts, '\n' ∉ text.toList) :
    texts.flatMap linesOf = texts := by
  induction texts with
  | nil => rfl
  | cons first more ih =>
    obtain ⟨hfirst, hmore⟩ := List.forall_mem_cons.mp h
    rw [List.flatMap_cons, linesOf_of_notMem hfirst, ih hmore, List.singleton_append]

/-! ## Headings -/

/-- Whether a line holds nothing but white space. -/
def isBlankLine (line : String) : Bool := line.toList.all isBlank

/-- The lines between a heading, where it first stands, and the next blank line. -/
def linesUnder (heading document : String) : List String :=
  (((linesOf document).dropWhile (· != heading)).drop 1).takeWhile (!isBlankLine ·)

theorem linesUnder_eq {document blank : String} {before lines after : List String}
    (h : linesOf document = before ++ heading :: (lines ++ blank :: after))
    (hbefore : heading ∉ before) (hlines : ∀ line ∈ lines, isBlankLine line = false)
    (hblank : isBlankLine blank = true) : linesUnder heading document = lines := by
  have hskip : ∀ line ∈ before, (line != heading) = true := by
    intro line hline
    have hne : line ≠ heading := fun heq => hbefore (heq ▸ hline)
    simpa using hne
  rw [linesUnder, h, List.dropWhile_append_of_pos hskip, List.dropWhile_cons_of_neg (by simp),
    List.drop_one, List.tail_cons, List.takeWhile_append_of_pos (by simpa using hlines),
    List.takeWhile_cons_of_neg (by simp [hblank]), List.append_nil]

/-! ## Numbers -/

theorem decimal_eq (n : Nat) : decimal n = toString n := by
  rw [decimal, natText_eq, ← toDigits_eq, ← Nat.toList_repr, String.ofList_toList]
  rfl

theorem notMem_toString (n : Nat) : '\n' ∉ (toString n).toList := by
  intro hmem
  have hdigit := Nat.isDigit_of_mem_toDigits (by decide) (by decide) (Nat.toList_repr ▸ hmem)
  exact absurd hdigit (by decide)

end FileLore.Text
