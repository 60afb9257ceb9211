import CheckRegistry.Config
import CheckRegistry.FileTree

/-!
# Home directories

A path that begins with a tilde begins at a home directory: that of the user who runs the program,
or that of the user whose name stands behind the tilde.  The environment may say where the own
home directory is, and otherwise the list of users does.  What it says is taken as a path like any
other, which need not begin at the root; an empty one is the root.
-/

namespace CheckRegistry

/-- The home directories of users by name.  The empty name is the user who runs the program. -/
abbrev Homes := List (String × String)

namespace Homes

/-- The variable of the own home directory. -/
def variableName : String := "HOME"

/-- Why the home directory that a path begins at cannot be had. -/
inductive Fault
  /-- There is no such user, or the home directory itself begins with a tilde. -/
  | unknown
  /-- The name behind the tilde holds the character that ends paths. -/
  | nullCharacter
  deriving DecidableEq, Repr

/-- The home directory of a user, as the environment or the list of users gives it. -/
def find? (homes : Homes) (env : Config.Environment) (name : String) : Option String :=
  if name.isEmpty then (env.get? variableName).or (homes.lookup name) else homes.lookup name

/-- A home directory without the slashes at its end; nothing but slashes is the root. -/
def withoutSlashes (home : String) : String :=
  let s := Text.dropEndChar '/' home
  if s.isEmpty then "/" else s

/-- Puts the home directory in place of a tilde and a name at the beginning of a path.  What stands
behind them follows the home directory, and any other path stays as it is. -/
def expand (homes : Homes) (env : Config.Environment) (p : Path) : Except Fault Path :=
  match p.start, p.parts with
  | .here, first :: rest =>
    match first.toList with
    | '~' :: name =>
      if name.contains (Char.ofNat 0) then .error .nullCharacter
      else
        match homes.find? env (String.ofList name) with
        | none => .error .unknown
        | some home =>
          let home := withoutSlashes home
          if home.toList.head? = some '~' then .error .unknown
          else .ok { Path.ofText home with parts := (Path.ofText home).parts ++ rest }
    | _ => .ok p
  | _, _ => .ok p

end Homes

end CheckRegistry
