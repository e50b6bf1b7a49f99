import FileLore.Proofs.Text.CaseTable
import FileLore.Text.TitleCase

/-!
# Title case of title case

A text is in title case if every character that begins a word is its own upper case
and every other character its own lower case; title case changes nothing else
(`titleCaseFrom_eq_self_iff`). What it makes of a text is not always so. Words are told
apart on the text that is given, and a letter may become several characters: letters,
of which the second one stands inside a word (`SS`), or a letter with a mark, behind
which a new word begins. Without either, title case settles in one pass, and only
then (`titleCase_settles_iff`).
-/

namespace FileLore.Text

variable {inside before : Bool} {front back rest text : List Char} {c d : Char}

/-! ## Texts in title case -/

/-- Whether a text ends in a letter; of an empty one, whether a letter stands before it. -/
def endsInLetter (inside : Bool) (text : List Char) : Bool :=
  text.foldl (fun _ c => isLetter c) inside

/-- What title case makes of a character, `inside` saying whether the one before it is a letter. -/
def cased (inside : Bool) (c : Char) : List Char :=
  if inside then lower c else upper c

/-- Whether a text is in title case: at the beginning of a word every character is its own upper
case, and behind a letter its own lower case. -/
def IsTitled (inside : Bool) (text : List Char) : Prop :=
  ∀ front c back, text = front ++ c :: back → cased (endsInLetter inside front) c = [c]

theorem isTitled_nil : IsTitled inside [] :=
  fun front _ _ h => absurd h.symm (List.append_ne_nil_of_right_ne_nil front (List.cons_ne_nil _ _))

/-- A character of a text is the first one, or it stands behind that. -/
theorem forall_split_cons {P : List Char → Char → List Char → Prop} :
    (∀ front d back, c :: rest = front ++ d :: back → P front d back) ↔
      P [] c rest ∧ ∀ front d back, rest = front ++ d :: back → P (c :: front) d back := by
  constructor
  · intro h
    exact ⟨h [] c rest rfl, fun front d back heq => h (c :: front) d back (congrArg (c :: ·) heq)⟩
  · rintro ⟨hc, hrest⟩ front d back heq
    cases front with
    | nil =>
      obtain ⟨rfl, rfl⟩ := List.cons.inj heq
      exact hc
    | cons first front =>
      obtain ⟨rfl, htail⟩ := List.cons.inj heq
      exact hrest front d back htail

theorem isTitled_cons :
    IsTitled inside (c :: rest) ↔ cased inside c = [c] ∧ IsTitled (isLetter c) rest :=
  forall_split_cons

theorem isTitled_append : IsTitled inside (front ++ back) ↔
    IsTitled inside front ∧ IsTitled (endsInLetter inside front) back := by
  induction front generalizing inside with
  | nil => exact (and_iff_right isTitled_nil).symm
  | cons c front ih =>
    rw [List.cons_append, isTitled_cons, isTitled_cons, ih, and_assoc]
    rfl

theorem cased_ne_nil (inside : Bool) (c : Char) : cased inside c ≠ [] := by
  intro h
  cases inside with
  | false =>
    rcases upper_cases c with ⟨d, hd⟩ | ⟨hlong, -⟩
    · exact absurd (hd.symm.trans h) (List.cons_ne_nil _ _)
    · exact absurd (congrArg List.length h) (Nat.ne_of_gt (Nat.lt_of_succ_lt hlong))
  | true =>
    rcases lower_cases c with ⟨d, hd⟩ | rfl
    · exact absurd (hd.symm.trans h) (List.cons_ne_nil _ _)
    · cases h

theorem titleCaseFrom_cons (inside : Bool) (c : Char) (rest : List Char) :
    titleCaseFrom inside (c :: rest) = cased inside c ++ titleCaseFrom (isLetter c) rest := rfl

theorem length_le_titleCaseFrom (text : List Char) :
    ∀ inside : Bool, text.length ≤ (titleCaseFrom inside text).length := by
  induction text with
  | nil => exact fun _ => Nat.le_refl 0
  | cons c rest ih =>
    intro inside
    have hform := List.length_pos_iff.mpr (cased_ne_nil inside c)
    have hrest := ih (isLetter c)
    rw [titleCaseFrom_cons, List.length_append, List.length_cons]
    omega

/-- **Title case keeps a text** just if it is in title case. -/
theorem titleCaseFrom_eq_self_iff : titleCaseFrom inside text = text ↔ IsTitled inside text := by
  induction text generalizing inside with
  | nil => exact iff_of_true rfl isTitled_nil
  | cons c rest ih =>
    rw [isTitled_cons, ← ih, titleCaseFrom_cons]
    constructor
    · intro h
      -- No character is lost, so none may become several.
      have hform := List.length_pos_iff.mpr (cased_ne_nil inside c)
      have hrest := length_le_titleCaseFrom rest (isLetter c)
      have hlength := congrArg List.length h
      rw [List.length_append, List.length_cons] at hlength
      have hone : (cased inside c).length = [c].length := by
        rw [List.length_singleton]
        omega
      exact List.append_inj h hone
    · rintro ⟨hc, hrest⟩
      rw [hc, hrest]
      rfl

/-! ## What title case writes -/

theorem endsInLetter_cased (before before' inside : Bool) (c : Char) :
    endsInLetter before (cased inside c) = endsInLetter before' (cased inside c) := by
  cases h : cased inside c with
  | nil => exact absurd h (cased_ne_nil inside c)
  | cons d rest => rfl

/-- One character written for another is its own case, and a letter just if that one is. -/
theorem cased_final (h : cased inside c = [d]) :
    cased inside d = [d] ∧ isLetter d = isLetter c := by
  cases inside with
  | false => exact upper_final h
  | true => exact lower_final h

theorem isTitled_lower (c : Char) : IsTitled true (lower c) := by
  rcases lower_cases c with ⟨d, h⟩ | rfl
  · have hform : cased true c = [d] := h
    rw [h, isTitled_cons]
    exact ⟨(cased_final hform).1, isTitled_nil⟩
  · rw [← titleCaseFrom_eq_self_iff]
    decide +kernel

/-- No letter is written at the end of anything but a letter. -/
theorem isLetter_of_endsInLetter (h : endsInLetter before (cased inside c) = true) :
    isLetter c = true := by
  have hone {d : Char} (hd : cased inside c = [d]) : isLetter c = true := by
    rw [← (cased_final hd).2]
    rwa [hd] at h
  cases inside with
  | false =>
    rcases upper_cases c with ⟨d, hd⟩ | ⟨-, hletter⟩
    · exact hone hd
    · exact hletter
  | true =>
    rcases lower_cases c with ⟨d, hd⟩ | rfl
    · exact hone hd
    · decide +kernel

theorem isTitled_titleCaseFrom_cons : IsTitled before (titleCaseFrom inside (c :: rest)) ↔
    IsTitled before (cased inside c) ∧
      IsTitled (endsInLetter false (cased inside c)) (titleCaseFrom (isLetter c) rest) := by
  rw [titleCaseFrom_cons, isTitled_append, endsInLetter_cased before false]

theorem isTitled_cased_iff :
    IsTitled inside (cased inside c) ↔ (inside = false → IsTitled false (upper c)) := by
  cases inside with
  | false => exact ⟨fun h _ => h, fun h => h rfl⟩
  | true => exact iff_of_true (isTitled_lower c) nofun

/-- Behind a mark the next character is at the beginning of a word, for which it must be fit. -/
theorem isTitled_behindMark : IsTitled false (titleCaseFrom true text) ↔
    (∀ d back, text = d :: back → IsTitled false (lower d)) ∧
      IsTitled true (titleCaseFrom true text) := by
  cases text with
  | nil => exact iff_of_true isTitled_nil ⟨nofun, isTitled_nil⟩
  | cons d back =>
    rw [isTitled_titleCaseFrom_cons, isTitled_titleCaseFrom_cons]
    constructor
    · rintro ⟨hd, hback⟩
      refine ⟨?_, isTitled_lower d, hback⟩
      rintro _ _ ⟨rfl, rfl⟩
      exact hd
    · rintro ⟨hd, -, hback⟩
      exact ⟨hd d back rfl, hback⟩

/-! ## Settling in one pass -/

/-- What a text must be for title case to settle on it. -/
structure Settles (inside : Bool) (text : List Char) : Prop where
  /-- The upper case of a character that begins a word is in title case. -/
  heads : ∀ front c back, text = front ++ c :: back → endsInLetter inside front = false →
    IsTitled false (upper c)
  /-- Behind a letter that is written with a mark at its end stands a character whose lower case may
  begin a word. -/
  marks : ∀ front c d back, text = front ++ c :: d :: back → isLetter c = true →
    endsInLetter false (cased (endsInLetter inside front) c) = false → IsTitled false (lower d)

theorem settles_cons : Settles inside (c :: rest) ↔
    (inside = false → IsTitled false (upper c)) ∧
      (∀ d back, rest = d :: back → isLetter c = true →
        endsInLetter false (cased inside c) = false → IsTitled false (lower d)) ∧
      Settles (isLetter c) rest := by
  constructor
  · rintro ⟨heads, marks⟩
    refine ⟨heads [] c rest rfl, fun d back h => marks [] c d back (congrArg (c :: ·) h), ?_, ?_⟩
    · exact fun front d back h => heads (c :: front) d back (congrArg (c :: ·) h)
    · exact fun front d e back h => marks (c :: front) d e back (congrArg (c :: ·) h)
  · rintro ⟨hhead, hmark, heads, marks⟩
    refine ⟨forall_split_cons.mpr ⟨hhead, heads⟩, fun front d e back heq => ?_⟩
    have hmarks := (forall_split_cons (P := fun front d tail => ∀ e back, tail = e :: back →
      isLetter d = true → endsInLetter false (cased (endsInLetter inside front) d) = false →
        IsTitled false (lower e))).mpr
          ⟨hmark, fun front d tail htail e back heq => marks front d e back (heq ▸ htail)⟩
    exact hmarks front d (e :: back) heq e back rfl

/-- What title case writes for a text is in title case just if the text settles. -/
theorem isTitled_titleCaseFrom_iff (text : List Char) :
    ∀ inside : Bool, IsTitled inside (titleCaseFrom inside text) ↔ Settles inside text := by
  induction text with
  | nil => exact fun _ => iff_of_true isTitled_nil ⟨by simp, by simp⟩
  | cons c rest ih =>
    intro inside
    rw [isTitled_titleCaseFrom_cons, settles_cons, isTitled_cased_iff, ← ih (isLetter c)]
    refine and_congr_right fun _ => ?_
    cases hend : endsInLetter false (cased inside c) with
    | true =>
      rw [isLetter_of_endsInLetter hend]
      exact (and_iff_right (fun _ _ _ _ => nofun)).symm
    | false =>
      cases hletter : isLetter c with
      | true =>
        rw [isTitled_behindMark]
        simp only [forall_const]
      | false => exact (and_iff_right (fun _ _ _ => nofun)).symm

/-- Characters that stay single in either case make no difference. -/
theorem settles_of_single (h : ∀ c ∈ text, (upper c).length = 1 ∧ (lower c).length = 1) :
    Settles inside text := by
  have hsingle {c : Char} (hc : c ∈ text) (inside : Bool) : ∃ d, cased inside c = [d] := by
    cases inside with
    | false => exact List.length_eq_one_iff.mp (h c hc).1
    | true => exact List.length_eq_one_iff.mp (h c hc).2
  constructor
  case heads =>
    rintro front c back rfl -
    obtain ⟨d, hd⟩ := hsingle (List.mem_append_right front List.mem_cons_self) false
    have hupper : upper c = [d] := hd
    rw [hupper, isTitled_cons]
    exact ⟨(cased_final hd).1, isTitled_nil⟩
  case marks =>
    rintro front c e back rfl hletter hmark
    obtain ⟨d, hd⟩ := hsingle (List.mem_append_right front List.mem_cons_self)
      (endsInLetter inside front)
    rw [hd] at hmark
    have hsame : isLetter d = false := hmark
    rw [(cased_final hd).2, hletter] at hsame
    cases hsame

/-- The characters of ASCII are such. -/
theorem single_of_ascii (h : c.toNat < 0x80) : (upper c).length = 1 ∧ (lower c).length = 1 := by
  rw [upper, lower, if_pos h, if_pos h]
  exact ⟨rfl, rfl⟩

/-- **Title case settles in one pass** for just those texts in which the upper case of a character
that begins a word is in title case, and in which no letter that is written with a mark at its end
stands before one that must not begin a word. Then every character of the result that begins a word
is its own upper case and every other one its own lower case. All this holds where no character has
a case of several characters. -/
theorem titleCase_settles_iff (text : String) :
    (titleCase (titleCase text) = titleCase text ↔ Settles false text.toList) ∧
      (titleCase (titleCase text) = titleCase text ↔ IsTitled false (titleCase text).toList) ∧
      ((∀ c ∈ text.toList, (upper c).length = 1 ∧ (lower c).length = 1) →
        titleCase (titleCase text) = titleCase text) := by
  have htitled : titleCase (titleCase text) = titleCase text ↔
      IsTitled false (titleCase text).toList := by
    rw [← titleCaseFrom_eq_self_iff, ← String.toList_inj]
    exact Eq.congr_left String.toList_ofList
  have hsettles : titleCase (titleCase text) = titleCase text ↔ Settles false text.toList := by
    rw [htitled, ← isTitled_titleCaseFrom_iff, titleCase, String.toList_ofList]
  exact ⟨hsettles, htitled, fun h => hsettles.mpr (settles_of_single h)⟩

theorem titleCase_settles_timeout :
    (∀ c ∈ "fix API timeout".toList, (upper c).length = 1 ∧ (lower c).length = 1) ∧
      titleCase (titleCase "fix API timeout") = titleCase "fix API timeout" := by
  have hascii : "fix API timeout".toList.all (·.toNat < 0x80) = true := by
    decide
  have hsingle : ∀ c ∈ "fix API timeout".toList, (upper c).length = 1 ∧ (lower c).length = 1 :=
    fun c hc => single_of_ascii (of_decide_eq_true (List.all_eq_true.mp hascii c hc))
  exact ⟨hsingle, (titleCase_settles_iff "fix API timeout").2.2 hsingle⟩

/-- The ligature of f and i becomes two letters, the second of which is inside a word the next
time. -/
theorem titleCase_ligature_unsettled :
    titleCase (titleCase "\uFB01x login") ≠ titleCase "\uFB01x login" := by
  decide +kernel

-- The dot of the capital i is left behind as a mark, and the next time a word begins there.
example : titleCase "aİb" = "Ai\u0307b" ∧ titleCase "Ai\u0307b" = "Ai\u0307B" := by
  decide +kernel

end FileLore.Text
