import FileLore.Text.Blank
import FileLore.Text.Search
import Mathlib.Data.List.Basic

/-!
# Texts taken apart

A text that was joined from items is taken apart again where the separator stands.
That gives the items back if the last character of the separator is in none of them
and nowhere else in the separator (`splitBy_joinWith`): where an item is still to be
read the separator would have to end within it.

The words of a text are the parts between its white space that are not empty
(`words_eq`), so no word holds white space.
-/

namespace FileLore.Text

/-! ## Separators -/

/-- The parts of a text between the occurrences of a separator from left to right, after as many
characters as are to be passed over. -/
def splitFrom (separator : List Char) : Nat → List Char → List (List Char)
  | _, [] => [[]]
  | passed + 1, _ :: rest => splitFrom separator passed rest
  | 0, c :: rest =>
    if separator.isPrefixOf (c :: rest) then [] :: splitFrom separator (separator.length - 1) rest
    else
      match splitFrom separator 0 rest with
      | part :: parts => (c :: part) :: parts
      | [] => [[c]]

/-- The parts of a text between the occurrences of a separator from left to right. -/
def splitBy (separator text : List Char) : List (List Char) :=
  splitFrom separator 0 text

theorem splitFrom_passed (separator : List Char) :
    ∀ passed rest : List Char,
      splitFrom separator passed.length (passed ++ rest) = splitFrom separator 0 rest := by
  intro passed
  induction passed with
  | nil => intro rest; rfl
  | cons c more ih =>
    intro rest
    show splitFrom separator (more.length + 1) (c :: (more ++ rest)) = _
    rw [splitFrom, ih]

theorem splitFrom_separator (c : Char) (more rest : List Char) :
    splitFrom (c :: more) 0 (c :: more ++ rest) = [] :: splitFrom (c :: more) 0 rest := by
  have hprefix : (c :: more).isPrefixOf (c :: (more ++ rest)) = true :=
    List.isPrefixOf_iff_prefix.mpr (List.prefix_append (c :: more) rest)
  rw [List.cons_append, splitFrom, if_pos hprefix]
  show [] :: splitFrom (c :: more) more.length (more ++ rest) = _
  rw [splitFrom_passed]

variable {front item : List Char} {last : Char}

/-- A separator cannot begin within an item that does not hold its last character. -/
theorem not_prefix_of_item (hfront : last ∉ front) (hitem : last ∉ item) (hne : item ≠ [])
    (rest : List Char) : ¬front ++ [last] <+: item ++ (front ++ [last] ++ rest) := by
  rintro ⟨more, h⟩
  -- Before the first `last` there is only `front` on one side, on the other the item as well.
  have hbefore := congrArg (List.takeWhile (· != last)) h
  have hkept {text : List Char} (hno : last ∉ text) (after : List Char) :
      (text ++ last :: after).takeWhile (· != last) = text := by
    have hall : ∀ c ∈ text, (c != last) = true := fun c hc => by
      have : c ≠ last := fun e => hno (e ▸ hc)
      simpa using this
    rw [List.takeWhile_append_of_pos hall]
    simp
  have hboth : last ∉ item ++ front := by simp [hitem, hfront]
  rw [List.append_assoc, List.singleton_append, hkept hfront, List.append_assoc,
    List.singleton_append, ← List.append_assoc, hkept hboth] at hbefore
  have := congrArg List.length hbefore
  have := List.length_pos_of_ne_nil hne
  simp only [List.length_append] at *
  omega

theorem splitFrom_item (hfront : last ∉ front) (rest : List Char) :
    ∀ {item : List Char}, last ∉ item →
      splitFrom (front ++ [last]) 0 (item ++ (front ++ [last] ++ rest)) =
        item :: splitFrom (front ++ [last]) 0 rest := by
  intro item
  -- By induction on the item: the separator begins nowhere before its end.
  induction item with
  | nil =>
    intro _
    obtain ⟨c, more, hsep⟩ := List.exists_cons_of_ne_nil (List.concat_ne_nil last front)
    rw [List.nil_append, hsep, splitFrom_separator]
  | cons c more ih =>
    intro hno
    have hmore : last ∉ more := fun hm => hno (List.mem_cons_of_mem _ hm)
    have hprefix := not_prefix_of_item hfront hno (List.cons_ne_nil _ _) rest
    rw [List.cons_append] at hprefix ⊢
    rw [splitFrom, if_neg (mt List.isPrefixOf_iff_prefix.mp hprefix), ih hmore]

theorem splitFrom_lastItem : ∀ {item : List Char}, last ∉ item →
    splitFrom (front ++ [last]) 0 item = [item] := by
  intro item
  induction item with
  | nil => intro _; rfl
  | cons c more ih =>
    intro hno
    have hmore : last ∉ more := fun hm => hno (List.mem_cons_of_mem _ hm)
    have hprefix : ¬(front ++ [last]).isPrefixOf (c :: more) = true := fun h =>
      hno ((List.isPrefixOf_iff_prefix.mp h).subset (List.mem_append_right _ List.mem_cons_self))
    rw [splitFrom, if_neg hprefix, ih hmore]

/-- **Items that were joined are what a text splits into**, if the last character of the separator
is neither in the items nor elsewhere in the separator. -/
theorem splitBy_joinWith (front : List Char) {last : Char} (hfront : last ∉ front)
    {items : List (List Char)} (hne : items ≠ []) (hitems : ∀ item ∈ items, last ∉ item) :
    splitBy (front ++ [last]) (joinWith (front ++ [last]) items) = items := by
  induction items with
  | nil => exact absurd rfl hne
  | cons item more ih =>
    have hitem := hitems item (List.mem_cons_self ..)
    have hmore : ∀ other ∈ more, last ∉ other := fun other h =>
      hitems other (List.mem_cons_of_mem _ h)
    cases more with
    | nil => exact splitFrom_lastItem hitem
    | cons next others =>
      have hrest := ih (List.cons_ne_nil _ _) hmore
      rw [joinWith, splitBy, List.append_assoc, splitFrom_item hfront _ hitem]
      · exact congrArg (item :: ·) hrest
      · exact List.cons_ne_nil _ _

theorem notMem_joinWith {separator : List Char} {c : Char} (hseparator : c ∉ separator)
    {items : List (List Char)} (hitems : ∀ item ∈ items, c ∉ item) :
    c ∉ joinWith separator items := by
  induction items with
  | nil => exact List.not_mem_nil
  | cons item more ih =>
    have hitem := hitems item (List.mem_cons_self ..)
    have hmore := ih fun other h => hitems other (List.mem_cons_of_mem _ h)
    cases more with
    | nil => exact hitem
    | cons next others =>
      rw [joinWith]
      · simp [hitem, hseparator, hmore]
      · exact List.cons_ne_nil _ _

/-- What follows the beginning of a text. -/
theorem afterStart?_append (start rest : List Char) :
    afterStart? start (start ++ rest) = some rest := by
  induction start with
  | nil => rfl
  | cons c more ih => rw [List.cons_append, afterStart?, if_pos rfl, ih]

/-! ## Words -/

theorem wordsFrom_eq (text : List Char) : ∀ opened : List Char,
    wordsFrom opened text =
      ((text.splitOnP isBlank).modifyHead (opened.reverse ++ ·)).filter (!·.isEmpty) := by
  -- For every open word, since a character that is not blank is added to it.
  induction text with
  | nil =>
    intro opened
    cases opened <;> simp [wordsFrom]
  | cons c rest ih =>
    intro opened
    rw [wordsFrom, List.splitOnP_cons_eq_if_modifyHead]
    by_cases hblank : isBlank c = true
    · have hrest : wordsFrom [] rest = (rest.splitOnP isBlank).filter (!·.isEmpty) := by
        rw [ih]
        congr 1
        cases rest.splitOnP isBlank <;> rfl
      rw [if_pos hblank, if_pos hblank, hrest]
      cases opened <;> simp
    · rw [if_neg hblank, if_neg hblank, ih, List.modifyHead_modifyHead]
      simp [Function.comp_def]

/-- **The words of a text are what stands between its white space**, without the empty parts. -/
theorem words_eq (text : List Char) : words text = (text.splitOnP isBlank).filter (!·.isEmpty) := by
  rw [words, wordsFrom_eq]
  congr 1
  cases text.splitOnP isBlank <;> rfl

/-- The words of a text are made of its characters that are no white space. -/
theorem flatten_words (text : List Char) :
    (words text).flatten = text.filter (!isBlank ·) := by
  suffices hfrom : ∀ (text opened : List Char),
      (wordsFrom opened text).flatten = opened.reverse ++ text.filter (!isBlank ·) from
    hfrom text []
  intro text
  induction text with
  | nil =>
    intro opened
    cases opened <;> simp [wordsFrom]
  | cons c rest ih =>
    intro opened
    rw [wordsFrom]
    by_cases hblank : isBlank c = true
    · rw [if_pos hblank, List.filter_cons_of_neg (by simpa using hblank)]
      cases opened with
      | nil => simp [ih]
      | cons d more => simp [ih]
    · rw [if_neg hblank, List.filter_cons_of_pos (by simpa using hblank), ih]
      simp

/-- Words are not empty. -/
theorem ne_nil_of_mem_words {text word : List Char} (h : word ∈ words text) : word ≠ [] := by
  rw [words_eq] at h
  simpa using (List.mem_filter.mp h).2

/-- No word holds white space. -/
theorem isBlank_of_mem_words {text word : List Char} (h : word ∈ words text) {c : Char}
    (hc : c ∈ word) : isBlank c = false := by
  have hflat : c ∈ text.filter (!isBlank ·) := by
    rw [← flatten_words]
    exact List.mem_flatten.mpr ⟨word, h, hc⟩
  simpa using (List.mem_filter.mp hflat).2

/-- A text has no words just if it is all white space. -/
theorem words_eq_nil_iff {text : List Char} : words text = [] ↔ ∀ c ∈ text, isBlank c = true := by
  constructor
  · intro h c hc
    by_contra hblank
    have hflat : c ∈ (words text).flatten := by
      rw [flatten_words]
      exact List.mem_filter.mpr ⟨hc, by simpa using hblank⟩
    rw [h] at hflat
    cases hflat
  · intro h
    rw [List.eq_nil_iff_forall_not_mem]
    intro word hword
    obtain ⟨c, more, rfl⟩ := List.exists_cons_of_ne_nil (ne_nil_of_mem_words hword)
    have hflat : c ∈ text.filter (!isBlank ·) := by
      rw [← flatten_words]
      exact List.mem_flatten.mpr ⟨_, hword, List.mem_cons_self ..⟩
    obtain ⟨hmem, hno⟩ := List.mem_filter.mp hflat
    rw [h c hmem] at hno
    cases hno

end FileLore.Text
