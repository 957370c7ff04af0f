import AngularUplift.Fault
import AngularUplift.Files.Path

/-!
# Paths as users give them

A relative path may begin with a tilde, which stands for the home folder of a user. A path with a null character
names nothing, and trying to resolve it is a fault.

## Main definitions

* `Homes`, `Path.expandHome`: the home folders of users, and a path with its tilde expanded.
* `Path.resolved`: the absolute path that a path means.
-/

namespace AngularUplift

/-- The home folders by the names of users. The empty name stands for the user who runs the program. -/
abbrev Homes := List (Text × Path)

namespace Path

/-- Whether a null character occurs in a path. -/
def hasNull (path : Path) : Bool := path.parts.any fun part => part.elem (Char.ofNat 0)

/-- A path with the tilde at its beginning expanded. -/
def expandHome (homes : Homes) (path : Path) : Except Fault Path :=
  match path.parts with
  | ('~' :: user) :: rest =>
    if path.isAbsolute then .ok path
    else if user.elem (Char.ofNat 0) then .error .nullInPath
    else
      match homes.lookup user with
      | none => .error .noHome
      | some home => .ok (home.append { parts := rest })
  | _ => .ok path

/-- The absolute path that a path means when it is read from inside `folder`, without steps upwards. -/
def resolved (folder path : Path) : Except Fault Path :=
  if path.hasNull then .error .nullInPath else .ok (folder.resolve path)

end Path

end AngularUplift
