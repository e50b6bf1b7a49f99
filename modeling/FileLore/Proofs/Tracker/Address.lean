import Mathlib.Data.Bool.AllAny
import FileLore.Proofs.Text.Blank
import FileLore.Proofs.Tracker.Remote

/-!
# Ordinary addresses

A repository on github.com has a number of ordinary addresses: the owner and the name
stand behind the account at the host, behind the host on the web, or behind both in
the form for secure shell; the name may be followed by `.git`, and this by slashes;
and there may be white space around all of it, such as the line feed that a command
prints. Every such address leads to the repository (`ofRemote_ordinary`), so all of
them lead to the same one.

This holds for every owner and name without slashes and white space. They may hold
colons, because the first colon of an account is the one in front of the owner, and
`.git` may stand anywhere but at the end of the name, because it is taken away there
once and nowhere else.
-/

namespace FileLore.Repository

open Text FileLore.Path

variable {address owner spelled name front slashes : List Char}

/-- What stands in front of the owner in an ordinary address. -/
def fronts : List String :=
  ["git@github.com:", "https://github.com/", "ssh://git@github.com/"]

/-- Whether a text can stand as an owner or a name: not empty, without slashes and white space. -/
structure IsPart (text : String) : Prop where
  ne_empty : text ≠ ""
  noSlash : '/' ∉ text.toList
  noBlank : ∀ c ∈ text.toList, isBlank c = false

instance (text : String) : Decidable (IsPart text) :=
  decidable_of_iff
    (text ≠ "" ∧ '/' ∉ text.toList ∧ text.toList.all (fun c => isBlank c = false) = true)
    ⟨fun h => ⟨h.1, h.2.1, List.all_iff_forall_prop.mp h.2.2⟩,
      fun h => ⟨h.ne_empty, h.noSlash, List.all_iff_forall_prop.mpr h.noBlank⟩⟩

/-- Whether an address is an ordinary one of a repository. -/
inductive IsOrdinary (repository : Repository) (address : String) : Prop where
  | mk {front ending : String} {before slashes after : List Char} (hfront : front ∈ fronts)
    (hending : ending ∈ ["", ".git"]) (hbefore : ∀ c ∈ before, isBlank c = true)
    (hslashes : ∀ c ∈ slashes, c = '/') (hafter : ∀ c ∈ after, isBlank c = true)
    (heq : address.toList = before ++ (front.toList ++ (repository.owner.toList ++
      '/' :: (repository.name.toList ++ ending.toList ++ slashes)) ++ after))

/-! ## What an ordinary address tells -/

theorem endsPart_slashes (h : ∀ c ∈ slashes, c = '/') : EndsPart slashes := by
  cases slashes with
  | nil => exact .inl rfl
  | cons c rest =>
    obtain rfl := h c (List.mem_cons_self ..)
    exact .inr ⟨rest, rfl⟩

/-- An address that does not begin as an account tells what stands behind its directory. -/
theorem tells_behind {dir : List Char} (hgit : ∀ rest, ¬"git@".toList <+: dir ++ rest)
    (hdir : EndsDirectory dir) (howner : '/' ∉ owner) (hspelled : '/' ∉ spelled)
    (hne : spelled ≠ []) (hslashes : ∀ c ∈ slashes, c = '/') :
    Tells (dir ++ (owner ++ '/' :: (spelled ++ slashes))) owner spelled :=
  .path dir slashes (hgit _) rfl hdir howner hspelled hne hslashes

/-- **An ordinary address tells its owner and its name**, whichever of the two ways of spelling it
is. -/
theorem tells_ordinary {front : String} (hfront : front ∈ fronts) (howner : '/' ∉ owner)
    (hspelled : '/' ∉ spelled) (hne : spelled ≠ []) (hslashes : ∀ c ∈ slashes, c = '/') :
    Tells (front.toList ++ (owner ++ '/' :: (spelled ++ slashes))) owner spelled := by
  simp only [fronts, List.mem_cons, List.not_mem_nil, or_false] at hfront
  rcases hfront with rfl | rfl | rfl
  · -- The colon at the end of the front is the first one.
    exact .account "git@github.com".toList slashes (List.prefix_append ..) rfl (by decide) howner
      hspelled (endsPart_slashes hslashes)
  · refine tells_behind ?_ (.inr ⟨"https://github.com".toList, rfl⟩) howner hspelled hne hslashes
    rintro rest ⟨more, hmore⟩
    cases hmore
  · refine tells_behind ?_ (.inr ⟨"ssh://git@github.com".toList, rfl⟩) howner hspelled hne hslashes
    rintro rest ⟨more, hmore⟩
    cases hmore

/-- The host stands in every front. -/
theorem host_infix {front : String} (hfront : front ∈ fronts) (rest : List Char) :
    "github.com".toList <:+: front.toList ++ rest := by
  have hhost : "github.com".toList <:+: front.toList := by
    simp only [fronts, List.mem_cons, List.not_mem_nil, or_false] at hfront
    rcases hfront with rfl | rfl | rfl <;> decide
  exact hhost.trans (List.prefix_append ..).isInfix

/-- A name without `.git` at its end is the bare name of itself with `.git` or without. -/
theorem isBareName_ending {ending : String} (hending : ending ∈ ["", ".git"])
    (hname : ¬".git".toList <:+ name) : IsBareName (name ++ ending.toList) name := by
  simp only [List.mem_cons, List.not_mem_nil, or_false] at hending
  rcases hending with rfl | rfl
  · exact .inr ⟨List.append_nil name, by rwa [show "".toList = [] from rfl, List.append_nil]⟩
  · exact .inl rfl

/-! ## The repository -/

/-- What an address with the host in it tells is the repository that it leads to. -/
theorem ofRemote?_of_tells {text : String} (hhost : "github.com".toList <:+: trim text.toList)
    (htells : Tells (trim text.toList) owner spelled) (hbare : IsBareName spelled name)
    (howner : owner ≠ []) (hname : name ≠ []) :
    ofRemote? text = some ⟨String.ofList owner, String.ofList name⟩ := by
  have hfull : (owner.isEmpty || name.isEmpty) = false := by simp [howner, hname]
  rw [ofRemote?, if_neg (by simpa using occurs_iff.mpr hhost), tells_iff.mp htells]
  dsimp only
  rw [isBareName_iff.mpr hbare, hfull, if_neg Bool.false_ne_true]

/-- Nothing is trimmed of an address but what stands around it. -/
theorem trim_ordinary (owner : List Char) {front : String} {before after : List Char}
    (hfront : front ∈ fronts) (hbefore : ∀ c ∈ before, isBlank c = true)
    (hafter : ∀ c ∈ after, isBlank c = true) (hspelled : ∀ c ∈ spelled, isBlank c = false)
    (hslashes : ∀ c ∈ slashes, c = '/') :
    trim (before ++ (front.toList ++ (owner ++ '/' :: (spelled ++ slashes)) ++ after)) =
      front.toList ++ (owner ++ '/' :: (spelled ++ slashes)) := by
  have hfirst : IsTight (front.toList ++ (owner ++ '/' :: (spelled ++ slashes))) := by
    simp only [fronts, List.mem_cons, List.not_mem_nil, or_false] at hfront
    rcases hfront with rfl | rfl | rfl <;>
      · intro c hc
        cases hc
        rfl
  have hclear : ∀ c ∈ '/' :: (spelled ++ slashes), isBlank c = false := by
    intro c hc
    rw [List.mem_cons, List.mem_append] at hc
    rcases hc with rfl | hc | hc
    · rfl
    · exact hspelled c hc
    · rw [hslashes c hc]
      rfl
  have hlast : IsTight (front.toList ++ (owner ++ '/' :: (spelled ++ slashes))).reverse := by
    intro c hc
    rw [List.head?_reverse, ← List.append_assoc, List.getLast?_append] at hc
    exact hclear c (List.mem_of_getLast? (by simpa using hc))
  exact trim_surrounded hbefore hafter hfirst hlast (by simp)

/-- **Every ordinary address leads to its repository**, so all that are ordinary addresses of one
repository lead to the same. -/
theorem ofRemote_ordinary {repository : Repository} {address : String}
    (howner : IsPart repository.owner) (hname : IsPart repository.name)
    (hbare : ¬".git".toList <:+ repository.name.toList) (h : IsOrdinary repository address) :
    ofRemote? address = some repository := by
  obtain @⟨front, ending, before, slashes, after, hfront, hending, hbefore, hslashes, hafter,
    heq⟩ := h
  have hownerFull : repository.owner.toList ≠ [] := by simpa using howner.ne_empty
  have hnameFull : repository.name.toList ≠ [] := by simpa using hname.ne_empty
  have hendingParts : '/' ∉ ending.toList ∧ ∀ c ∈ ending.toList, isBlank c = false := by
    simp only [List.mem_cons, List.not_mem_nil, or_false] at hending
    rcases hending with rfl | rfl <;>
      exact ⟨by decide, List.all_iff_forall_prop.mp (by decide)⟩
  have hspelled : ∀ c ∈ repository.name.toList ++ ending.toList, isBlank c = false := by
    intro c hc
    exact (List.mem_append.mp hc).elim (hname.noBlank c) (hendingParts.2 c)
  have hslash : '/' ∉ repository.name.toList ++ ending.toList := by
    simp [hname.noSlash, hendingParts.1]
  have htrim := trim_ordinary repository.owner.toList hfront hbefore hafter hspelled hslashes
  rw [← heq] at htrim
  have htells := tells_ordinary hfront howner.noSlash hslash (by simp [hnameFull]) hslashes
  rw [← htrim] at htells
  have hhost : "github.com".toList <:+: trim address.toList := htrim ▸ host_infix hfront _
  rw [ofRemote?_of_tells hhost htells (isBareName_ending hending hbare) hownerFull hnameFull,
    String.ofList_toList, String.ofList_toList]

/-- An owner with a colon and the host in it, and a name with `.git` at its start and within it. -/
theorem ofRemote_ordinary_odd :
    ofRemote? "\t git@github.com:a:b@github.com/.gitx.git.y.git//\n" =
      some ⟨"a:b@github.com", ".gitx.git.y"⟩ := by
  refine ofRemote_ordinary (by decide) (by decide) (by decide) ?_
  exact @IsOrdinary.mk _ _ "git@github.com:" ".git" ['\t', ' '] ['/', '/'] ['\n'] (by decide)
    (by decide) (List.all_iff_forall_prop.mp (by decide)) (List.all_iff_forall_prop.mp (by decide))
    (List.all_iff_forall_prop.mp (by decide)) rfl

end FileLore.Repository
