import TaskDecoration.Proofs.Decimals
import TaskDecoration.Proofs.Registration

/-!
# Computing units

A scheduler with a limit turns down the tasks that ask for more computing units. What a task asks
for may be written as an integer or as a text, and a text may denote a number for which there is no
word. Such a number counts as no request at all, so that the task is accepted although no limit
reaches it (`Scheduler.turnsDown_iff`).
-/

set_option autoImplicit false

namespace TaskDecoration

namespace Scheduler

/-- The number of computing units that a value denotes: an integer itself, and a text the number
of its digits, which may follow a plus sign. Blanks around them do not count. -/
inductive Denotes : Value → Int → Prop where
  | integer (i : Int) : Denotes (.int i) i
  | digits {s : String} (digits : Text.Digits (Text.trim s.toList)) :
      Denotes (.text s) (Text.denoted (Text.trim s.toList))
  | plus {s : String} {cs : List Char} (trimmed : Text.trim s.toList = '+' :: cs)
      (digits : Text.Digits cs) : Denotes (.text s) (Text.denoted cs)

/-- The scheduler turns a task down: nothing is recorded, and nothing has run or arrived. -/
def TurnsDown (q : TaskRequest) (f : BareFunction) (s : Situation) : Prop :=
  ∃ cause, (register q f).runOn s = (.error (.registration cause), s)

variable {q : TaskRequest} {f : BareFunction} {s : Situation} {v : Value} {n : Int}
  {available : Nat}

/-- A number of computing units is read if there is a word for it. -/
theorem units?_of_denotes (denotes : Denotes v n) :
    units? v = if 0 ≤ n ∧ n < Nat.pow 2 64 then some n.toNat else none := by
  have word (k : Nat) : (if k < Nat.pow 2 64 then some k else none) =
      if 0 ≤ (k : Int) ∧ (k : Int) < (Nat.pow 2 64 : Nat) then some (k : Int).toNat else none := by
    have bounds : (0 ≤ (k : Int) ∧ (k : Int) < (Nat.pow 2 64 : Nat)) ↔ k < Nat.pow 2 64 := by omega
    simp only [bounds, Int.toNat_natCast]
  cases denotes with
  | integer => rfl
  | digits digits => exact (Text.word?_digits digits).trans (word _)
  | plus trimmed digits =>
    change Text.word? (Text.trim _) = _
    rw [trimmed, Text.word?_plus digits]
    exact word _

/-- What a limit makes of a request: more than the limit is refused, as long as it has a word. -/
theorem validate_of_denotes {e : Element} {scheduler : Scheduler} (function : String)
    (limit : scheduler.maxComputingUnits = some available) (complete : e.isComplete = true)
    (asked : e.constraint? computingUnits = some v) (denotes : Denotes v n) :
    scheduler.validate function e =
      if available < n ∧ n < Nat.pow 2 64 then
        .error (.overCapacity function n.toNat available)
      else .ok () := by
  have requested : (e.constraint? computingUnits).bind units? =
      if 0 ≤ n ∧ n < Nat.pow 2 64 then some n.toNat else none := by
    rw [asked, ← units?_of_denotes denotes]
    rfl
  unfold validate
  rw [if_pos complete, limit, requested]
  by_cases word : 0 ≤ n ∧ n < Nat.pow 2 64
  · have exceeds : available < n.toNat ↔ available < n ∧ n < Nat.pow 2 64 := by omega
    rw [if_pos word]
    simp only [exceeds]
  · -- The number is negative, and so within every limit, or there is no word for it.
    have none : ¬ (available < n ∧ n < Nat.pow 2 64) := by omega
    rw [if_neg word, if_neg none]

/-- What is not valid is turned down and leaves everything as it is. -/
theorem register_refused {cause : RegistrationError}
    (refused : s.host.scheduler.validate f.signature.qualifiedName q.descriptor.element =
      .error cause) : (register q f).runOn s = (.error (.registration cause), s) := by
  rw [register_runOn, accept_refused refused]
  exact congrArg (Prod.mk _) s.note_empty

/-- What is valid is recorded, whatever happens to it then. -/
theorem register_recorded
    (valid : s.host.scheduler.validate f.signature.qualifiedName q.descriptor.element = .ok ()) :
    ((register q f).runOn s).2.host.journal.registrations =
      s.host.journal.registrations ++ [entry q f.signature] := by
  rw [register_runOn]
  change s.host.journal.registrations ++ _ = _
  rw [accept_registrations valid]

/-- A task is turned down if it asks for more computing units than there are and if there is a word
for what it asks for. Otherwise it is recorded. -/
theorem turnsDown_iff (limit : s.host.scheduler.maxComputingUnits = some available)
    (complete : q.descriptor.element.isComplete = true)
    (asked : q.descriptor.element.constraint? computingUnits = some v) (denotes : Denotes v n) :
    (TurnsDown q f s ↔ available < n ∧ n < Nat.pow 2 64) ∧
      (TurnsDown q f s → (register q f).runOn s =
        (.error (.registration
          (.overCapacity f.signature.qualifiedName n.toNat available)), s)) ∧
      (¬ TurnsDown q f s → ((register q f).runOn s).2.host.journal.registrations =
        s.host.journal.registrations ++ [entry q f.signature]) := by
  have validation := validate_of_denotes f.signature.qualifiedName limit complete asked denotes
  by_cases exceeds : available < n ∧ n < Nat.pow 2 64
  · rw [if_pos exceeds] at validation
    have refused := register_refused validation
    have down : TurnsDown q f s := ⟨_, refused⟩
    exact ⟨iff_of_true down exceeds, fun _ => refused, fun accepted => absurd down accepted⟩
  · rw [if_neg exceeds] at validation
    have recorded := register_recorded validation
    -- What is recorded cannot have been turned down, whatever the call comes to.
    have accepted : ¬ TurnsDown q f s := by
      rintro ⟨cause, refused⟩
      rw [refused] at recorded
      exact List.cons_ne_nil _ _ (List.self_eq_append_right.mp recorded)
    exact ⟨iff_of_false accepted exceeds, fun down => absurd down accepted, fun _ => recorded⟩

/-- A call under a scheduler with four computing units. -/
def fourUnits : Situation :=
  ⟨.start ⟨.master, false⟩ .empty,
    { Orchestrator.master with scheduler := ⟨false, some 4, .plain⟩ }⟩

/-- A task that asks for computing units. -/
def asking (units : Value) : TaskRequest where
  descriptor := ⟨0, { Element.empty with
    kind := some .method, signature := some "m.f", typeArguments := ["m", "f"]
    constraints := Dict.empty.insert computingUnits units, owner := some "@task" }⟩
  arguments := .empty
  dependencies := []
  options := .standard
  frame := .neutral

theorem turnsDown_iff_sign_and_zeros :
    Denotes (.text " +007 ") 7 ∧ TurnsDown (asking (.text " +007 ")) .echo fourUnits := by
  have denotes : Denotes (.text " +007 ") 7 :=
    @Denotes.plus " +007 " ['0', '0', '7'] (by decide)
      ⟨by decide, List.all_eq_true.mp rfl⟩
  have down := (turnsDown_iff (q := asking (.text " +007 ")) (f := .echo) (s := fourUnits) rfl rfl
    rfl denotes).1.mpr (by decide)
  exact ⟨denotes, down⟩

/-- A text denotes more computing units than there are, and than there is a word for. The task is
accepted, and its body runs. -/
theorem beyond_words_accepted :
    let q := asking (.text "18446744073709551616")
    Denotes (.text "18446744073709551616") 18446744073709551616 ∧
      fourUnits.host.scheduler.maxComputingUnits = some 4 ∧
      q.descriptor.element.isComplete = true ∧
      q.descriptor.element.constraint? computingUnits = some (.text "18446744073709551616") ∧
      ((register q .echo).runOn fourUnits).1 = .ok (.list []) ∧ ¬ TurnsDown q .echo fourUnits := by
  intro q
  have denotes : Denotes (.text "18446744073709551616") 18446744073709551616 :=
    .digits (s := "18446744073709551616") ⟨by decide, List.all_eq_true.mp rfl⟩
  have result : ((register q .echo).runOn fourUnits).1 = .ok (.list []) := rfl
  refine ⟨denotes, rfl, rfl, rfl, result, ?_⟩
  rintro ⟨cause, refused⟩
  rw [refused] at result
  cases result

end Scheduler

end TaskDecoration
