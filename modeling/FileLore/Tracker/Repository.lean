import FileLore.Text.Blank
import FileLore.Text.Search

/-!
# Hosted repositories

The owner and the name of a repository on github.com, as the address of a remote
gives them: after the colon in the form for secure shell, at the end of the path
in all others.
-/

namespace FileLore

open Text

/-- The owner and the name of a hosted repository. -/
structure Repository where
  owner : String
  name : String
  deriving DecidableEq, Repr

namespace Repository

/-- The owner and the name of an address that names an account at its host: the first two parts
after the first colon. -/
def partsAfterColon? (address : List Char) : Option (List Char × List Char) :=
  match address.dropWhile (· != ':') with
  | ':' :: path =>
    match splitAt '/' path with
    | owner :: name :: _ => some (owner, name)
    | _ => none
  | _ => none

/-- The owner and the name of an address with a path: its last two parts, slashes at the very end
not counted. -/
def lastParts? (address : List Char) : Option (List Char × List Char) :=
  let path := (address.reverse.dropWhile (· == '/')).reverse
  match (splitAt '/' path).reverse with
  | name :: owner :: _ => some (owner, name)
  | _ => none

/-- The repository that the address of a remote leads to. A name may end in `.git`, which is not
part of it; neither the owner nor the name may be empty. -/
def ofRemote? (address : String) : Option Repository :=
  let address := trim address.toList
  if !occurs "github.com".toList address then none
  else
    let parts :=
      if "git@".toList.isPrefixOf address then partsAfterColon? address else lastParts? address
    match parts with
    | none => none
    | some (owner, spelled) =>
      let name := (beforeEnd? ".git".toList spelled).getD spelled
      if owner.isEmpty || name.isEmpty then none
      else some ⟨String.ofList owner, String.ofList name⟩

end Repository

end FileLore
