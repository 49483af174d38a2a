import TaskDecoration.Hook.Sample.File
import TaskDecoration.Text.Integer

/-!
# The condition command

A program of the sample environment. `Condition.exitStatus` evaluates the arguments of the command
`test`: comparisons of texts, of integers and of files, tests of single texts and files, joined by
`!`, `-a`, `-o` and brackets. The status is 0 for true, 1 for false and 2 for arguments that form
no condition. How a short list of arguments is understood depends on its length.
-/

set_option autoImplicit false

namespace TaskDecoration.Condition

/-- The truth value of a condition, and the arguments after it. -/
abbrev Parse := Option (Bool × List String)

/-- An integer: blanks may surround it, and it may have a sign. -/
def integer? (s : String) : Option Int :=
  match Text.trim s.toList with
  | '+' :: cs => (Text.decimal? cs).map Int.ofNat
  | '-' :: cs => (Text.decimal? cs).map fun n => -Int.ofNat n
  | cs => (Text.decimal? cs).map Int.ofNat

/-- An operand of a comparison: a text, or the number of bytes of a text. -/
structure Operand where
  isLength : Bool
  text : String

/-- The integer that an operand stands for. -/
def Operand.integer? (x : Operand) : Option Int :=
  if x.isLength then some x.text.utf8ByteSize else Condition.integer? x.text

/-- A relation between the operands as integers. -/
def compareIntegers? (r : Int → Int → Bool) (x y : Operand) : Option Bool := do
  return r (← x.integer?) (← y.integer?)

/-- A relation between the files that the operands name, which may not be lengths. -/
def compareFiles? (r : Option (List String) → Option (List String) → Bool) (x y : Operand) :
    Option Bool :=
  let place (x : Operand) := (File.find? x.text true).map (·.1)
  if x.isLength || y.isLength then none else some (r (place x) (place y))

/-- The binary operators. -/
def binaryOperators : List String :=
  ["=", "==", "!=", "-eq", "-ne", "-lt", "-le", "-gt", "-ge", "-nt", "-ot", "-ef"]

/-- The truth value of a comparison. A comparison of texts takes a right operand that is marked as
a length for the text of that operand, and then compares it with the operator. A file is newer
than one that does not exist, and no older than any that does. -/
def compare? (x : Operand) (op : String) (y : Operand) : Option Bool :=
  let left := if y.isLength then op else x.text
  match op with
  | "=" | "==" => some (left == y.text)
  | "!=" => some (left != y.text)
  | "-eq" => compareIntegers? (· == ·) x y
  | "-ne" => compareIntegers? (· != ·) x y
  | "-lt" => compareIntegers? (· < ·) x y
  | "-le" => compareIntegers? (· ≤ ·) x y
  | "-gt" => compareIntegers? (· > ·) x y
  | "-ge" => compareIntegers? (· ≥ ·) x y
  | "-nt" => compareFiles? (fun a b => a.isSome && b.isNone) x y
  | "-ot" => compareFiles? (fun a b => a.isNone && b.isSome) x y
  | "-ef" => compareFiles? (fun a b => a.isSome && a == b) x y
  | _ => none

/-- A comparison whose left operand and operator have been read. -/
def comparison (x : Operand) (op : String) : List String → Parse
  | "-l" :: y :: rest => (compare? x op ⟨true, y⟩).map fun b => (b, rest)
  | y :: rest => (compare? x op ⟨false, y⟩).map fun b => (b, rest)
  | [] => none

/-- A dash and one character of a single byte. -/
def isUnary (s : String) : Bool :=
  match s.toList with
  | ['-', c] => c.toNat < 0x80
  | _ => false

/-- The truth value of a unary test. -/
def unary? (op x : String) : Option Bool :=
  let file (p : File → Bool) : Option Bool := some ((File.find? x true).any fun f => p f.2)
  match op with
  | "-n" => some (x != "")
  | "-z" => some (x == "")
  | "-t" => (integer? x).map fun _ => false
  | "-e" | "-r" | "-w" | "-O" | "-G" => file fun _ => true
  | "-d" => file File.isDirectory
  | "-f" => file File.isRegular
  | "-x" => file File.isExecutable
  | "-s" => file File.hasContents
  | "-c" => file (· == .characterDevice)
  | "-k" => file (· == .commonDirectory)
  | "-h" | "-L" => some ((File.find? x false).any fun f => f.2.isLink)
  | "-b" | "-g" | "-p" | "-u" | "-N" | "-S" => some false
  | _ => none

/-- A unary test whose operator has been read. -/
def unary (op : String) : List String → Parse
  | x :: rest => (unary? op x).map fun b => (b, rest)
  | [] => none

/-- A single text holds when it is not empty. -/
def one : List String → Parse
  | x :: rest => some (x != "", rest)
  | [] => none

/-- A negated text, or a unary test. -/
def two : List String → Parse
  | op :: rest =>
    if op = "!" then (one rest).map fun (b, rest) => (!b, rest)
    else if isUnary op then unary op rest
    else none
  | [] => none

/-- The rest of the arguments after a closing bracket. -/
def closed : Bool × List String → Parse
  | (b, ")" :: rest) => some (b, rest)
  | _ => none

/-- How many arguments stand in brackets whose contents come first. The first one always does,
and where no bracket closes after four or fewer, all that is left does. -/
def bracketed (args : List String) : Nat :=
  let count := ((args.drop 1).takeWhile (· != ")")).length
  if count < 4 then count + 1 else args.length

mutual

/-- Conditions joined by `-o`. -/
def disjunction : Nat → List String → Parse
  | 0, _ => none
  | n + 1, args => do
    let (b, rest) ← conjunction n args
    match rest with
    | "-o" :: rest =>
      let (c, rest) ← disjunction n rest
      return (b || c, rest)
    | rest => return (b, rest)

/-- Conditions joined by `-a`. -/
def conjunction : Nat → List String → Parse
  | 0, _ => none
  | n + 1, args => do
    let (b, rest) ← term n args
    match rest with
    | "-a" :: rest =>
      let (c, rest) ← conjunction n rest
      return (b && c, rest)
    | rest => return (b, rest)

/-- A single condition, possibly negated or in brackets. -/
def term : Nat → List String → Parse
  | 0, _ => none
  | n + 1, args => match args with
    | [] => none
    | "!" :: rest => do
      let (b, rest) ← term n rest
      return (!b, rest)
    | "(" :: rest => do
      if rest.isEmpty then none
      else closed (← condition n (bracketed rest) rest)
    | x :: rest => match args with
      | "-l" :: x :: op :: y :: rest =>
        if binaryOperators.contains op then comparison ⟨true, x⟩ op (y :: rest)
        else if binaryOperators.contains x then comparison ⟨false, "-l"⟩ x (op :: y :: rest)
        else none
      | x :: op :: y :: rest =>
        if binaryOperators.contains op then comparison ⟨false, x⟩ op (y :: rest)
        else if isUnary x then unary x (op :: y :: rest)
        else some (x != "", op :: y :: rest)
      | _ => if isUnary x then unary x rest else some (x != "", rest)

/-- A condition of `count` arguments, more of which may follow. -/
def condition : Nat → Nat → List String → Parse
  | 0, _, _ => none
  | n + 1, count, args => match count, args with
    | 1, args => one args
    | 2, args => two args
    | 3, args => three n args
    | 4, "!" :: rest => (three n rest).map fun (b, rest) => (!b, rest)
    | 4, "(" :: x :: y :: ")" :: rest => (two [x, y]).map fun (b, _) => (b, rest)
    | _, args => disjunction n args

/-- A condition of three arguments, more of which may follow. -/
def three : Nat → List String → Parse
  | 0, _ => none
  | n + 1, args => match args with
    | x :: op :: y :: rest =>
      if binaryOperators.contains op then comparison ⟨false, x⟩ op (y :: rest)
      else if x = "!" then (two (op :: y :: rest)).map fun (b, rest) => (!b, rest)
      else if x = "(" ∧ y = ")" then some (op != "", rest)
      else if op = "-a" ∨ op = "-o" then disjunction n args
      else none
    | _ => none

end

/-- The exit status of the command with the given arguments. -/
def exitStatus (args : List String) : Nat :=
  if args.isEmpty then 1
  else match condition (5 * args.length + 5) args.length args with
    | some (b, []) => if b then 0 else 1
    | _ => 2

end TaskDecoration.Condition
