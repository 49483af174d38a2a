import TaskDecoration.Text.Blank

/-!
# Files

The files of the sample environment. `File.tree` lists files that are found on every system, and
`File.find?` follows a path through them: empty steps and `.` stay in a directory, `..` leaves it,
and a link leads on from the root. Nothing else exists, and all belongs to a superuser.
-/

set_option autoImplicit false

namespace TaskDecoration

/-- Programs that hooks can run. -/
inductive Program where
  | succeed
  | fail
  | condition
deriving DecidableEq, Repr

/-- What stands at a path. -/
inductive File where
  | directory
  /-- A directory in which everyone may create files, and only their owner may remove them. -/
  | commonDirectory
  /-- A directory of the system's own that takes no room. -/
  | virtualDirectory
  | characterDevice
  | text
  /-- An executable file, with the program that it holds if hooks can run it. -/
  | executable (program : Option Program)
  /-- A link to the place with the given steps from the root. -/
  | link (target : List String)
deriving DecidableEq, Repr

namespace File

def isDirectory : File → Bool
  | directory | commonDirectory | virtualDirectory => true
  | _ => false

def isRegular : File → Bool
  | text | executable _ => true
  | _ => false

def isLink : File → Bool
  | link _ => true
  | _ => false

/-- A superuser enters every directory and runs what anyone may run. -/
def isExecutable : File → Bool
  | executable _ => true
  | f => f.isDirectory

/-- Whether the file takes any room. -/
def hasContents : File → Bool
  | directory | commonDirectory | text | executable _ => true
  | _ => false

/-- The program in an executable file. -/
def program? : File → Option Program
  | executable p => p
  | _ => none

/-- The steps to the working directory. No path spells its name. -/
def workingDirectory : List String := ["/"]

/-- Files that are found on every system, with the steps that lead to them from the root. -/
def tree : List (List String × File) :=
  [([], directory), (workingDirectory, directory),
    (["bin"], link ["usr", "bin"]), (["sbin"], link ["usr", "sbin"]),
    (["lib"], link ["usr", "lib"]),
    (["boot"], directory), (["dev"], directory), (["etc"], directory), (["home"], directory),
    (["media"], directory), (["mnt"], directory), (["opt"], directory), (["root"], directory),
    (["run"], directory), (["srv"], directory), (["usr"], directory), (["var"], directory),
    (["proc"], virtualDirectory), (["sys"], virtualDirectory), (["tmp"], commonDirectory),
    (["usr", "bin"], directory), (["usr", "include"], directory), (["usr", "lib"], directory),
    (["usr", "local"], directory), (["usr", "sbin"], directory), (["usr", "share"], directory),
    (["var", "cache"], directory), (["var", "lib"], directory), (["var", "log"], directory),
    (["var", "tmp"], commonDirectory),
    (["dev", "null"], characterDevice), (["dev", "zero"], characterDevice),
    (["dev", "full"], characterDevice), (["dev", "random"], characterDevice),
    (["dev", "urandom"], characterDevice), (["dev", "tty"], characterDevice),
    (["etc", "passwd"], text), (["etc", "group"], text),
    (["usr", "bin", "true"], executable (some .succeed)),
    (["usr", "bin", "false"], executable (some .fail)),
    (["usr", "bin", "test"], executable (some .condition)),
    (["usr", "bin", "["], executable none), (["usr", "bin", "cat"], executable none),
    (["usr", "bin", "dash"], executable none), (["usr", "bin", "env"], executable none),
    (["usr", "bin", "ls"], executable none), (["usr", "bin", "sh"], link ["usr", "bin", "dash"])]

/-- The file with the given steps from the root. -/
def at? (place : List String) : Option File := (tree.find? (·.1 == place)).map (·.2)

/-- Follows steps from a place, as many as the bound allows; a link at the end is followed when
`follow` says so. -/
def walk (follow : Bool) : Nat → List String → List String → Option (List String × File)
  | 0, _, _ => none
  | n + 1, place, steps => do
    let file ← at? place
    match file, steps with
    | link target, [] => if follow then walk follow n [] target else return (place, file)
    | link target, steps => walk follow n [] (target ++ steps)
    | _, [] => return (place, file)
    | _, step :: steps =>
      if ¬ file.isDirectory then none
      else if step = "" ∨ step = "." then walk follow n place steps
      else if step = ".." then walk follow n place.dropLast steps
      else walk follow n (place ++ [step]) steps

/-- The place and the file that a path leads to. A link takes at most four steps. -/
def find? (path : String) (follow : Bool) : Option (List String × File) :=
  let steps := (path.toList.splitOnP (· == '/')).map String.ofList
  let bound := 4 * steps.length + 4
  match steps with
  | [""] => none
  | "" :: steps => walk follow bound [] steps
  | steps => walk follow bound workingDirectory steps

end File

end TaskDecoration
