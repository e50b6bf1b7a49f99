import FileLore.Proofs.Path.Extension
import FileLore.Proofs.Text.Search
import FileLore.Tracker.Repository

/-!
# Which repository a remote leads to

An address yields a repository just if `github.com` stands somewhere in it and it
can be spelled in one of two ways (`ofRemote_iff`): as an account at a
host, with the owner and the name in front of the path behind the colon, or in any
other way, with the owner and the name at the end of the path. The documented
addresses are among these. So are addresses that name the host of the hosting
service elsewhere than as their host, or have more parts in their path, or fewer:
the owner may be read where the host stands.
-/

namespace FileLore.Repository

open Text FileLore.Path

variable {address owner spelled name before after rest : List Char}

/-! ## Spellings -/

/-- Whether a text is nothing or goes on with a further part. -/
def EndsPart (after : List Char) : Prop :=
  after = [] ∨ ∃ rest, after = '/' :: rest

/-- The ways in which an address tells an owner and how the name is spelled. -/
inductive Tells (address owner spelled : List Char) : Prop where
  /-- An account at a host: the first two parts of the path, which begins behind the first colon. -/
  | account (before after : List Char) (hgit : "git@".toList <+: address)
    (heq : address = before ++ ':' :: (owner ++ '/' :: (spelled ++ after))) (hbefore : ':' ∉ before)
    (howner : '/' ∉ owner) (hspelled : '/' ∉ spelled) (hafter : EndsPart after)
  /-- Any other address: its last two parts, slashes at the very end not counted. -/
  | path (before slashes : List Char) (hgit : ¬"git@".toList <+: address)
    (heq : address = before ++ (owner ++ '/' :: (spelled ++ slashes)))
    (hbefore : EndsDirectory before)
    (howner : '/' ∉ owner) (hspelled : '/' ∉ spelled) (hne : spelled ≠ [])
    (hslashes : ∀ c ∈ slashes, c = '/')

/-- Whether a name is what is spelled, but for one ending `.git`. -/
def IsBareName (spelled name : List Char) : Prop :=
  spelled = name ++ ".git".toList ∨ spelled = name ∧ ¬".git".toList <:+ spelled

/-- Whether an address, white space around it aside, leads to a repository. -/
@[mk_iff leadsTo_iff]
structure LeadsTo (address : String) (repository : Repository) : Prop where
  hosted : "github.com".toList <:+: trim address.toList
  owner_ne : repository.owner ≠ ""
  name_ne : repository.name ≠ ""
  told : ∃ spelled, Tells (trim address.toList) repository.owner.toList spelled ∧
    IsBareName spelled repository.name.toList

/-! ## Accounts -/

/-- The second part of a text ends where the text does or goes on with a further part. -/
theorem splitAt_eq_cons_cons_iff {text : List Char} :
    (∃ parts, splitAt '/' text = owner :: spelled :: parts) ↔
      ∃ after, text = owner ++ '/' :: (spelled ++ after) ∧ '/' ∉ owner ∧ '/' ∉ spelled ∧
        EndsPart after := by
  constructor
  · rintro ⟨parts, hparts⟩
    obtain ⟨howner, ⟨-, hnone⟩ | ⟨rest, rfl, hrest⟩⟩ := splitAt_eq_cons_iff.mp hparts
    · cases hnone
    obtain ⟨hspelled, ⟨rfl, -⟩ | ⟨more, rfl, -⟩⟩ := splitAt_eq_cons_iff.mp hrest
    · exact ⟨[], by rw [List.append_nil], howner, hspelled, .inl rfl⟩
    · exact ⟨'/' :: more, rfl, howner, hspelled, .inr ⟨more, rfl⟩⟩
  · rintro ⟨after, rfl, howner, hspelled, rfl | ⟨more, rfl⟩⟩
    · refine ⟨[], splitAt_eq_cons_iff.mpr ⟨howner, .inr ⟨_, rfl, ?_⟩⟩⟩
      rw [List.append_nil]
      exact splitAt_of_notMem hspelled
    · refine ⟨splitAt '/' more, splitAt_eq_cons_iff.mpr ⟨howner, .inr ⟨_, rfl, ?_⟩⟩⟩
      exact splitAt_eq_cons_iff.mpr ⟨hspelled, .inr ⟨more, rfl, rfl⟩⟩

/-- **The parts behind the first colon** are the first two of the path that begins there. -/
theorem partsAfterColon?_eq_some_iff : partsAfterColon? address = some (owner, spelled) ↔
    ∃ before after, address = before ++ ':' :: (owner ++ '/' :: (spelled ++ after)) ∧
      ':' ∉ before ∧ '/' ∉ owner ∧ '/' ∉ spelled ∧ EndsPart after := by
  by_cases hcolon : ':' ∈ address
  · obtain ⟨before, path, rfl, hbefore⟩ := exists_first hcolon
    have hparts : partsAfterColon? (before ++ ':' :: path) = some (owner, spelled) ↔
        ∃ parts, splitAt '/' path = owner :: spelled :: parts := by
      rw [partsAfterColon?, dropWhile_cut hbefore]
      split
      · next behind hbehind =>
        obtain rfl := (List.cons.inj hbehind).2
        split
        · next first second parts hsplit => simp [hsplit]
        · next hnone =>
          constructor
          · intro h
            cases h
          · rintro ⟨parts, h⟩
            exact absurd h (hnone owner spelled parts)
      · next hnone => exact absurd rfl (hnone path)
    rw [hparts, splitAt_eq_cons_cons_iff]
    constructor
    · rintro ⟨after, rfl, h⟩
      exact ⟨before, after, rfl, hbefore, h⟩
    · rintro ⟨other, after, heq, hother, h⟩
      obtain ⟨rfl, rfl⟩ := cut_first_unique heq hbefore hother
      exact ⟨after, rfl, h⟩
  · rw [partsAfterColon?, dropWhile_of_notMem hcolon]
    constructor
    · intro h
      cases h
    rintro ⟨before, after, rfl, -⟩
    exact absurd (List.mem_append_right before List.mem_cons_self) hcolon

/-! ## Paths -/

theorem splitAt_directory {dir text : List Char} (h : EndsDirectory dir) (htext : '/' ∉ text) :
    ∃ parts, splitAt '/' (dir ++ text) = parts ++ [text] := by
  rcases h with rfl | ⟨before, rfl⟩
  · exact ⟨[], splitAt_of_notMem htext⟩
  · refine ⟨splitAt '/' before, ?_⟩
    rw [List.append_assoc, List.singleton_append, splitAt_append, splitAt_of_notMem htext]

/-- The last two parts of a text. -/
theorem reverse_splitAt_eq_cons_cons_iff {text : List Char} :
    (∃ parts, (splitAt '/' text).reverse = spelled :: owner :: parts) ↔
      ∃ before, text = before ++ (owner ++ '/' :: spelled) ∧ EndsDirectory before ∧ '/' ∉ owner ∧
        '/' ∉ spelled := by
  by_cases hslash : '/' ∈ text
  · obtain ⟨front, last, rfl, hlast⟩ := exists_last hslash
    obtain ⟨dir, own, rfl, hdir, hown⟩ := exists_directory front
    obtain ⟨parts, hparts⟩ := splitAt_directory hdir hown
    rw [splitAt_append, splitAt_of_notMem hlast, hparts, List.reverse_append, List.reverse_append]
    constructor
    · rintro ⟨more, heq⟩
      obtain ⟨rfl, hrest⟩ := List.cons.inj heq
      obtain ⟨rfl, -⟩ := List.cons.inj hrest
      exact ⟨dir, List.append_assoc .., hdir, hown, hlast⟩
    · rintro ⟨before, heq, hbefore, howner, hspelled⟩
      rw [← List.append_assoc] at heq
      obtain ⟨hfront, rfl⟩ := cut_last_unique heq hlast hspelled
      -- The owner is what stands behind the directory on both sides.
      have hsame := congrArg afterLastSlash hfront
      rw [hdir.afterLastSlash hown, hbefore.afterLastSlash howner] at hsame
      exact ⟨parts.reverse, by rw [hsame]; rfl⟩
  · rw [splitAt_of_notMem hslash]
    constructor
    · rintro ⟨parts, heq⟩
      cases heq
    · rintro ⟨before, rfl, -⟩
      simp at hslash

/-- The text without the slashes that it ends in. -/
def withoutSlashes (text : List Char) : List Char :=
  (text.reverse.dropWhile (· == '/')).reverse

theorem withoutSlashes_eq_iff {path : List Char} : withoutSlashes address = path ↔
    (∃ slashes, address = path ++ slashes ∧ ∀ c ∈ slashes, c = '/') ∧ path.getLast? ≠ some '/' := by
  constructor
  · rintro rfl
    refine ⟨⟨(address.reverse.takeWhile (· == '/')).reverse, ?_, fun c hc => ?_⟩, fun hlast => ?_⟩
    · rw [withoutSlashes, ← List.reverse_append, List.takeWhile_append_dropWhile,
        List.reverse_reverse]
    · exact eq_of_beq (List.mem_takeWhile_imp (p := (· == '/')) (List.mem_reverse.mp hc))
    · rw [withoutSlashes, List.getLast?_reverse] at hlast
      have hhead := List.head?_dropWhile_not (· == '/') address.reverse
      rw [hlast] at hhead
      exact absurd hhead (by decide)
  · rintro ⟨⟨slashes, rfl, hslashes⟩, hlast⟩
    have hall : ∀ c ∈ slashes.reverse, (c == '/') = true := fun c hc =>
      beq_iff_eq.mpr (hslashes c (List.mem_reverse.mp hc))
    have hkept : path.reverse.dropWhile (· == '/') = path.reverse := by
      cases hback : path.reverse with
      | nil => rfl
      | cons c more =>
        rw [← List.head?_reverse, hback] at hlast
        have hc : (c == '/') = false := beq_eq_false_iff_ne.mpr fun heq => hlast (congrArg some heq)
        rw [List.dropWhile_cons, hc, if_neg Bool.false_ne_true]
    rw [withoutSlashes, List.reverse_append, List.dropWhile_append_of_pos hall, hkept,
      List.reverse_reverse]

/-- **The last parts** of an address stand in front of the slashes that it ends in. -/
theorem lastParts?_eq_some_iff : lastParts? address = some (owner, spelled) ↔
    ∃ before slashes, address = before ++ (owner ++ '/' :: (spelled ++ slashes)) ∧
      EndsDirectory before ∧ '/' ∉ owner ∧ '/' ∉ spelled ∧ spelled ≠ [] ∧
        ∀ c ∈ slashes, c = '/' := by
  have hparts : lastParts? address = some (owner, spelled) ↔
      ∃ parts, (splitAt '/' (withoutSlashes address)).reverse = spelled :: owner :: parts := by
    rw [lastParts?, ← withoutSlashes]
    split
    · next first second parts hsplit => simp [hsplit, and_comm]
    · next hnone =>
      constructor
      · intro h
        cases h
      · rintro ⟨parts, h⟩
        exact absurd h (hnone spelled owner parts)
  rw [hparts, reverse_splitAt_eq_cons_cons_iff]
  constructor
  · rintro ⟨before, hpath, hbefore, howner, hspelled⟩
    obtain ⟨⟨slashes, heq, hslashes⟩, hlast⟩ := withoutSlashes_eq_iff.mp hpath
    refine ⟨before, slashes, by rw [heq]; simp, hbefore, howner, hspelled, ?_, hslashes⟩
    rintro rfl
    exact hlast (by simp)
  · rintro ⟨before, slashes, rfl, hbefore, howner, hspelled, hne, hslashes⟩
    refine ⟨before, withoutSlashes_eq_iff.mpr ⟨⟨slashes, by simp, hslashes⟩, fun hlast => ?_⟩,
      hbefore, howner, hspelled⟩
    obtain ⟨init, c, rfl⟩ := (List.eq_nil_or_concat spelled).resolve_left hne
    have hconcat : before ++ (owner ++ '/' :: init.concat c) =
        before ++ (owner ++ '/' :: init) ++ [c] := by simp
    rw [hconcat, List.getLast?_concat] at hlast
    exact hspelled (by simp [Option.some.inj hlast])

/-! ## Repositories -/

theorem isBareName_iff :
    (beforeEnd? ".git".toList spelled).getD spelled = name ↔ IsBareName spelled name := by
  cases hend : beforeEnd? ".git".toList spelled with
  | none =>
    have hnot : ¬".git".toList <:+ spelled := by
      rintro ⟨rest, hrest⟩
      rw [beforeEnd?_eq_some_iff.mpr hrest.symm] at hend
      cases hend
    constructor
    · rintro rfl
      exact .inr ⟨rfl, hnot⟩
    · rintro (rfl | ⟨rfl, -⟩)
      · exact absurd (List.suffix_append name _) hnot
      · rfl
  | some rest =>
    obtain rfl := beforeEnd?_eq_some_iff.mp hend
    constructor
    · rintro rfl
      exact .inl rfl
    · rintro (heq | ⟨-, hnot⟩)
      · exact List.append_cancel_right heq
      · exact absurd (List.suffix_append rest _) hnot

/-- The parts that are looked at are the owner and the name as they are spelled. -/
theorem tells_iff : Tells address owner spelled ↔
    (if "git@".toList.isPrefixOf address then partsAfterColon? address else lastParts? address) =
      some (owner, spelled) := by
  by_cases hgit : "git@".toList <+: address
  · rw [if_pos (List.isPrefixOf_iff_prefix.mpr hgit), partsAfterColon?_eq_some_iff]
    constructor
    · rintro (⟨before, after, -, heq, hbefore, howner, hspelled, hafter⟩ | ⟨_, _, hnot, _⟩)
      · exact ⟨before, after, heq, hbefore, howner, hspelled, hafter⟩
      · exact absurd hgit hnot
    · rintro ⟨before, after, heq, hbefore, howner, hspelled, hafter⟩
      exact .account before after hgit heq hbefore howner hspelled hafter
  · rw [if_neg (mt List.isPrefixOf_iff_prefix.mp hgit), lastParts?_eq_some_iff]
    constructor
    · rintro (⟨_, _, hpos, _⟩ | ⟨before, slashes, -, heq, hbefore, howner, hspelled, hne, hslashes⟩)
      · exact absurd hpos hgit
      · exact ⟨before, slashes, heq, hbefore, howner, hspelled, hne, hslashes⟩
    · rintro ⟨before, slashes, heq, hbefore, howner, hspelled, hne, hslashes⟩
      exact .path before slashes hgit heq hbefore howner hspelled hne hslashes

/-- The owner and the name make a repository unless one of them is empty. -/
theorem repository_eq_some_iff {repository : Repository} :
    (if owner.isEmpty || name.isEmpty then none
      else some ⟨String.ofList owner, String.ofList name⟩) = some repository ↔
      repository.owner ≠ "" ∧ repository.name ≠ "" ∧ owner = repository.owner.toList ∧
        name = repository.name.toList := by
  split
  · next hempty =>
    constructor
    · intro h
      cases h
    · rintro ⟨howner, hname, rfl, rfl⟩
      simp [howner, hname] at hempty
  · next hfull =>
    rw [Bool.or_eq_true, List.isEmpty_iff, List.isEmpty_iff, not_or] at hfull
    constructor
    · intro h
      obtain rfl := Option.some.inj h
      simp [hfull]
    · rintro ⟨-, -, rfl, rfl⟩
      simp

/-- The repository of an address is the one that it leads to. -/
theorem ofRemote?_eq_some_iff {address : String} {repository : Repository} :
    ofRemote? address = some repository ↔ LeadsTo address repository := by
  rw [leadsTo_iff, ofRemote?]
  generalize trim address.toList = address
  by_cases hoccurs : "github.com".toList <:+: address
  swap
  · rw [if_pos (by simpa using mt occurs_iff.mp hoccurs)]
    exact ⟨nofun, fun h => absurd h.1 hoccurs⟩
  rw [if_neg (by simpa using occurs_iff.mpr hoccurs)]
  -- What is told is what was looked at, so that only the ending of the name is left to compare.
  simp only [tells_iff, hoccurs, true_and]
  cases hparts : (if "git@".toList.isPrefixOf address then partsAfterColon? address
      else lastParts? address) with
  | none => exact ⟨nofun, fun ⟨_, _, _, hnone, _⟩ => nomatch hnone⟩
  | some parts =>
    obtain ⟨owner, spelled⟩ := parts
    dsimp only
    have hname := @isBareName_iff spelled
    generalize (beforeEnd? ".git".toList spelled).getD spelled = name at hname ⊢
    have hparts : (∃ other, some (owner, spelled) = some (repository.owner.toList, other) ∧
        IsBareName other repository.name.toList) ↔
          owner = repository.owner.toList ∧ name = repository.name.toList := by
      rw [hname]
      constructor
      · rintro ⟨other, heq, hbare⟩
        obtain ⟨howner, rfl⟩ := Prod.mk.inj (Option.some.inj heq)
        exact ⟨howner, hbare⟩
      · rintro ⟨rfl, hbare⟩
        exact ⟨spelled, rfl, hbare⟩
    rw [hparts]
    exact repository_eq_some_iff

/-- **Which repository the address of a remote leads to.** Where `github.com` stands in the address
does not matter, nor does what else the address names as its host. -/
theorem ofRemote_iff (address : String) (repository : Repository) :
    ofRemote? address = some repository ↔
      "github.com".toList <:+: trim address.toList ∧ repository.owner ≠ "" ∧ repository.name ≠ "" ∧
        ∃ spelled, Tells (trim address.toList) repository.owner.toList spelled ∧
          IsBareName spelled repository.name.toList :=
  ofRemote?_eq_some_iff.trans (leadsTo_iff address repository)

/-- A host that only ends in the name of the hosting service will do. -/
example : ofRemote? "https://notgithub.com/acme/billing.git" = some ⟨"acme", "billing"⟩ := by
  decide +kernel

end FileLore.Repository
