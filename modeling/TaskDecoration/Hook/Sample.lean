import TaskDecoration.Hook
import TaskDecoration.Hook.Sample.Condition

/-!
# A sample environment

An environment in which hooks can be run as they are on a usual system: variables are looked up
among given ones, and binaries along a search path, in a small tree of files
(`TaskDecoration.Hook.Sample.File`) with three programs in it. One of them evaluates conditions
(`TaskDecoration.Hook.Sample.Condition`). It is for trying hooks out, and no part of what is
modelled: everything else takes an environment as a parameter, and no theorem is about this one.
-/

set_option autoImplicit false

namespace TaskDecoration

/-- The exit status of a program. -/
def Program.exitStatus : Program → List String → Nat
  | succeed, _ => 0
  | fail, _ => 1
  | condition, args => Condition.exitStatus args

namespace Environment

/-- The value of a variable. The variables are texts `name=value`, in which the name asked for may
reach beyond the first equals sign. -/
def valueOf? (assigned : Dict String) (name : String) : Option String :=
  assigned.toList.findSome? fun (k, v) =>
    ((name.toList ++ ['=']).isPrefixOf? (k.toList ++ '=' :: v.toList)).map String.ofList

/-- The directories that binaries are looked for in. -/
def searchPath (assigned : Dict String) : List String :=
  match valueOf? assigned "PATH" with
  | some path => (path.toList.splitOnP (· == ':')).map String.ofList
  | none => ["/usr/bin"]

/-- The program of a binary: at the path it spells, or else in the first directory of the search
path that holds it. An empty directory is the working directory. -/
def program? (assigned : Dict String) (binary : String) : Option Program :=
  let at? (path : String) : Option Program := (File.find? path true).bind (·.2.program?)
  if binary = "" then none
  else if binary.toList.contains '/' then at? binary
  else (searchPath assigned).findSome? fun dir =>
    at? (if dir = "" then binary else dir ++ "/" ++ binary)

/-- Why a binary that does not exist cannot be started. -/
def missing : String := "No such file or directory (os error 2)"

/-- The environment with the given variables. -/
def ofVariables (assigned : Dict String) : Environment where
  lookup := valueOf? assigned
  run binary args :=
    match program? assigned binary with
    | some p => .status (p.exitStatus args)
    | none => .notStarted missing

end Environment

end TaskDecoration
