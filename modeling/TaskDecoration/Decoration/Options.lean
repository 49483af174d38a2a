import TaskDecoration.Arguments.Rules
import TaskDecoration.Arguments.Spelling

/-!
# Task options

The options a task is declared with. Each has a default, and a value of the wrong sort is
refused when the task is declared.
-/

set_option autoImplicit false

namespace TaskDecoration

/-- Options of a task. -/
structure TaskOptions where
  returns : Value
  priority : Bool
  timeOut : Nat
  onFailure : String
  isReplicated : Bool
  isDistributed : Bool
  isReduce : Bool
  chunkSize : Nat
  computingNodes : Value
  isWorkflow : Bool

namespace TaskOptions

/-- The names of the options, in the order of their listing. -/
def names : List String :=
  ["returns", "priority", "time_out", "on_failure", "is_replicated", "is_distributed",
    "is_reduce", "chunk_size", Name.computingNodes, Name.isWorkflow]

/-- What a failing task may lead to. -/
def failurePolicies : List String := ["RETRY", "CANCEL_SUCCESSORS", "FAIL", "IGNORE"]

def invalid {α : Type} (label name expected : String) (found : Value) :
    Except ConfigurationError α :=
  .error (.invalidArgument label name expected found.sort)

/-- A truth value, false where it is not given. -/
def flag (label : String) (a : Arguments) (name : String) : Except ConfigurationError Bool :=
  match a.get? name with
  | none => .ok false
  | some (.bool b) => .ok b
  | some v => invalid label name "a boolean" v

/-- A count, zero where it is not given. -/
def count (label : String) (a : Arguments) (name : String) : Except ConfigurationError Nat :=
  match a.get? name with
  | none => .ok 0
  | some v => match v.word? with
    | some n => .ok n
    | none => invalid label name "a non-negative integer" v

/-- A failure policy, `RETRY` where it is not given. -/
def policy (label : String) (a : Arguments) (name : String) :
    Except ConfigurationError String :=
  let refuse := invalid label name "one of RETRY, CANCEL_SUCCESSORS, FAIL, IGNORE"
  match a.get? name with
  | none => .ok "RETRY"
  | some (.text s) => if failurePolicies.contains s then .ok s else refuse (.text s)
  | some v => refuse v

/-- Reads the options off the arguments of a task. -/
def ofArguments (label : String) (a : Arguments) :
    Except ConfigurationError TaskOptions := do
  let onFailure ← policy label a "on_failure"
  let priority ← flag label a "priority"
  let isReplicated ← flag label a "is_replicated"
  let isDistributed ← flag label a "is_distributed"
  let isReduce ← flag label a "is_reduce"
  let isWorkflow ← flag label a Name.isWorkflow
  let timeOut ← count label a "time_out"
  let chunkSize ← count label a "chunk_size"
  return {
    returns := (a.get? "returns").getD (.bool false)
    priority, timeOut, onFailure, isReplicated, isDistributed, isReduce, chunkSize
    computingNodes := (a.get? Name.computingNodes).getD (.int 1)
    isWorkflow }

end TaskOptions

end TaskDecoration
