import TaskDecoration.Text.Integer

/-!
# What can go wrong

The causes of failure, by the moment at which they arise: when an annotation is declared, when a
transformation is planned, when the session changes its scope, when a task is registered, and
while it runs. `TaskError.message` words each of them.
-/

set_option autoImplicit false

namespace TaskDecoration

/-- Failures of a declaration: bad arguments of an annotation, or annotations that do not go
together. -/
inductive ConfigurationError where
  | missingArgument (label argument : String)
  | unsupportedArgument (label argument : String)
  | invalidArgument (label argument expected found : String)
  | primaryConflict (owner attempted : String)
  | taskNotInnermost (function : String)
  | unsupportedSoftware (kind : String)
  /-- A software file that cannot be read or does not decode. What the file system or the
  encoding library says about it is left out. -/
  | invalidConfigFile (path : String)
deriving DecidableEq, Repr

/-- Failures of a transformation before any of it has run. -/
inductive TransformationError where
  | unknownParameter (function parameter : String)
  | notCallable (transform : String)
  | duplicateTarget (parameter : String)
deriving DecidableEq, Repr

/-- Failures of a change of scope, and of the environment variables that ask for one. -/
inductive BootstrapError where
  | outOfScope
  | alreadyBootstrapped (scope : String)
  | neverBootstrapped
  | unknownScope (name : String)
  | notBoolean (variableName value : String)
  | notInteger (variableName : String)
deriving DecidableEq, Repr

/-- Reasons for which a scheduler turns a task down. -/
inductive RegistrationError where
  | noDescriptor (function : String)
  | noImplementation (function : String)
  | overCapacity (function : String) (requested available : Nat)
deriving DecidableEq, Repr

/-- How a hook fails. -/
inductive HookFailure where
  | exited (status : Nat)
  /-- A signal has ended the binary. -/
  | signalled (description : String)
  /-- The binary has not been started. -/
  | notStarted (reason : String)
deriving DecidableEq, Repr

/-- Failures of a call. -/
inductive TaskError where
  | configuration (cause : ConfigurationError)
  | outOfScope (label : String)
  | transformation (cause : TransformationError)
  | registration (cause : RegistrationError)
  | bootstrap (cause : BootstrapError)
  | execution (message : String)
  | hook (binary : String) (cause : HookFailure)
  | cancelled (unitName : String)
deriving DecidableEq, Repr

def ConfigurationError.message : ConfigurationError → String
  | missingArgument label argument =>
    label ++ ": missing mandatory argument `" ++ argument ++ "`"
  | unsupportedArgument label argument =>
    label ++ ": unsupported argument `" ++ argument ++ "`"
  | invalidArgument label argument expected found =>
    label ++ ": invalid value for `" ++ argument ++ "`: expected " ++ expected ++
      ", found " ++ found
  | primaryConflict owner attempted =>
    attempted ++ " cannot set the implementation of this task: it is already owned by " ++ owner
  | taskNotInnermost function => "@task must be the innermost annotation of " ++ function
  | unsupportedSoftware kind => "software task type `" ++ kind ++ "` is not supported"
  | invalidConfigFile path => "invalid software config file " ++ path

def TransformationError.message : TransformationError → String
  | unknownParameter function parameter =>
    "parameter `" ++ parameter ++ "` is not declared by `" ++ function ++ "`"
  | notCallable transform => "transform `" ++ transform ++ "` is not registered"
  | duplicateTarget parameter =>
    "parameter `" ++ parameter ++ "` is targeted by more than one transformation"

def BootstrapError.message : BootstrapError → String
  | outOfScope => "cannot bootstrap into out_of_scope"
  | alreadyBootstrapped scope => "runtime already bootstrapped as " ++ scope
  | neverBootstrapped => "runtime was never bootstrapped"
  | unknownScope name => "unknown scope `" ++ name ++ "`"
  | notBoolean variableName value =>
    variableName ++ " must be a boolean, found `" ++ value ++ "`"
  | notInteger variableName => variableName ++ " must be an integer"

def RegistrationError.message : RegistrationError → String
  | noDescriptor function => "no task descriptor was built for " ++ function
  | noImplementation function => function ++ " has no implementation"
  | overCapacity function requested available =>
    function ++ " requests " ++ String.ofList (Text.natChars requested) ++
      " computing units, only " ++ String.ofList (Text.natChars available) ++ " available"

def HookFailure.message : HookFailure → String
  | exited status => "exited with exit status: " ++ String.ofList (Text.natChars status)
  | signalled description => "exited with " ++ description
  | notStarted reason => reason

def TaskError.message : TaskError → String
  | configuration cause => cause.message
  | outOfScope label => label ++ " was invoked outside of a managed run"
  | transformation cause => cause.message
  | registration cause => "registration rejected: " ++ cause.message
  | bootstrap cause => "bootstrap error: " ++ cause.message
  | execution message => "execution failed: " ++ message
  | hook binary cause => "hook `" ++ binary ++ "` failed: " ++ cause.message
  | cancelled unitName => "asynchronous unit " ++ unitName ++ " was cancelled"

/-- What a caller can tell errors apart by. -/
inductive ErrorCategory where
  | configuration
  | outOfScope
  | transformation
  | other
deriving DecidableEq, Repr

def TaskError.category : TaskError → ErrorCategory
  | configuration _ => .configuration
  | outOfScope _ => .outOfScope
  | transformation _ => .transformation
  | _ => .other

end TaskDecoration
