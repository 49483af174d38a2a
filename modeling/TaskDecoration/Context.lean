import TaskDecoration.Text.Blank

/-!
# Execution contexts

Where the current process stands towards the orchestrator, and whether it may orchestrate tasks
of its own.
-/

set_option autoImplicit false

namespace TaskDecoration

/-- The place of a process. -/
inductive Scope where
  /-- No orchestrator is present. -/
  | outOfScope
  /-- The orchestrating process. -/
  | master
  /-- A process that executes tasks for the master. -/
  | worker
deriving DecidableEq, Repr, Inhabited

namespace Scope

def name : Scope → String
  | outOfScope => "out_of_scope"
  | master => "master"
  | worker => "worker"

/-- The scope a text names, blanks around it and the case of its letters aside. A text that
names none is given back as it was compared. -/
def parse (s : String) : Except String Scope :=
  match String.ofList (Text.lowerAscii (Text.trim s.toList)) with
  | "out_of_scope" => .ok outOfScope
  | "none" => .ok outOfScope
  | "" => .ok outOfScope
  | "master" => .ok master
  | "worker" => .ok worker
  | other => .error other

end Scope

/-- A scope, and whether a process there may nest tasks of its own. -/
structure Context where
  scope : Scope
  nesting : Bool
deriving DecidableEq, Repr, Inhabited

namespace Context

/-- No orchestrator and no nesting. -/
def outside : Context := ⟨.outOfScope, false⟩

/-- Some orchestrator is present. -/
def inScope (c : Context) : Bool := c.scope != .outOfScope

def inMaster (c : Context) : Bool := c.scope == .master

def inWorker (c : Context) : Bool := c.scope == .worker

/-- Annotated functions may be called. -/
def admitsCalls (c : Context) : Bool := c.inScope || c.nesting

/-- Annotations configure the task descriptor. -/
def configures (c : Context) : Bool := c.inMaster || c.nesting

end Context

end TaskDecoration
