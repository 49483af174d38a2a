import TaskDecoration.Proofs.Procedure

/-!
# What happens, and what is written down of it

An `Outcome` is a result together with the journal entries that were made on the way to it.
Outcomes follow one another like the steps of a procedure: entries add up, and a failure ends the
sequence. `runOn_bind_note` carries this over to procedures that leave nothing behind but
entries.
-/

set_option autoImplicit false

namespace TaskDecoration

namespace Journal

instance : Append Journal := ⟨fun j k =>
  ⟨j.registrations ++ k.registrations, j.units ++ k.units, j.hooks ++ k.hooks, j.runs ++ k.runs⟩⟩

theorem append_def (j k : Journal) :
    j ++ k = ⟨j.registrations ++ k.registrations, j.units ++ k.units, j.hooks ++ k.hooks,
      j.runs ++ k.runs⟩ := rfl

/-- A single accepted task. -/
def ofRegistration (r : Registration) : Journal := ⟨[r], [], [], []⟩

def ofUnits (us : List UnitRecord) : Journal := ⟨[], us, [], []⟩

/-- A single hook. -/
def ofHook (h : Hook) : Journal := ⟨[], [], [h], []⟩

/-- A single body. -/
def ofRun (r : BodyRun) : Journal := ⟨[], [], [], [r]⟩

theorem append_assoc (i j k : Journal) : i ++ j ++ k = i ++ (j ++ k) := by
  simp [append_def]

@[simp] theorem append_empty (j : Journal) : j ++ Journal.empty = j := by
  simp [append_def, Journal.empty]

@[simp] theorem empty_append (j : Journal) : Journal.empty ++ j = j := by
  simp [append_def, Journal.empty]

/-- What a journal has got since it was `old`. -/
def since (j old : Journal) : Journal where
  registrations := j.registrations.drop old.registrations.length
  units := j.units.drop old.units.length
  hooks := j.hooks.drop old.hooks.length
  runs := j.runs.drop old.runs.length

@[simp] theorem since_append (old j : Journal) : (old ++ j).since old = j := by
  simp [append_def, since]

/-- The journal without the numbers of its descriptors. -/
def anonymous (j : Journal) : Journal :=
  { j with registrations := j.registrations.map fun r =>
      { r with descriptor := { r.descriptor with serial := 0 } } }

theorem anonymous_append (j k : Journal) : (j ++ k).anonymous = j.anonymous ++ k.anonymous := by
  simp [anonymous, append_def]

end Journal

/-- A result, and the journal entries made on the way to it. -/
structure Outcome (α : Type) where
  result : Except TaskError α
  journal : Journal

namespace Outcome

variable {α β : Type}

/-- Goes on after a success. -/
def andThen (p : Outcome α) (k : α → Outcome β) : Outcome β :=
  match p.result with
  | .ok x => ⟨(k x).result, p.journal ++ (k x).journal⟩
  | .error e => ⟨.error e, p.journal⟩

instance : Monad Outcome where
  pure x := ⟨.ok x, .empty⟩
  bind := andThen

/-- A result without entries. -/
def ofExcept (r : Except TaskError α) : Outcome α := ⟨r, .empty⟩

/-- An entry. -/
def note (j : Journal) : Outcome Unit := ⟨.ok (), j⟩

/-- The outcome without the numbers of descriptors. -/
def anonymous (p : Outcome α) : Outcome α := ⟨p.result, p.journal.anonymous⟩

theorem bind_ok {p : Outcome α} {k : α → Outcome β} {x : α} (h : p.result = .ok x) :
    p >>= k = ⟨(k x).result, p.journal ++ (k x).journal⟩ := by
  change p.andThen k = _
  unfold andThen
  rw [h]

theorem bind_error {p : Outcome α} {k : α → Outcome β} {e : TaskError} (h : p.result = .error e) :
    p >>= k = ⟨.error e, p.journal⟩ := by
  change p.andThen k = _
  unfold andThen
  rw [h]

@[simp] theorem ofExcept_ok_bind (x : α) (k : α → Outcome β) : ofExcept (.ok x) >>= k = k x := by
  rw [bind_ok (x := x) rfl]
  simp [ofExcept]

theorem anonymous_bind (p : Outcome α) (k : α → Outcome β) :
    (p >>= k).anonymous = p.anonymous >>= fun x => (k x).anonymous := by
  cases h : p.result with
  | ok x =>
    rw [bind_ok h, bind_ok (p := p.anonymous) (x := x) h]
    unfold anonymous
    rw [Journal.anonymous_append]
  | error e =>
    rw [bind_error h, bind_error (p := p.anonymous) (e := e) h]
    rfl

/-- An entry of a sequence comes from one of its parts. -/
theorem mem_bind {γ : Type} {entries : Journal → List γ}
    (split : ∀ i j, entries (i ++ j) = entries i ++ entries j) {p : Outcome α} {k : α → Outcome β}
    {x : γ} (h : x ∈ entries (p >>= k).journal) :
    x ∈ entries p.journal ∨ ∃ v, p.result = .ok v ∧ x ∈ entries (k v).journal := by
  cases first : p.result with
  | ok v =>
    rw [bind_ok first, split] at h
    rcases List.mem_append.mp h with before | behind
    · exact .inl before
    · exact .inr ⟨v, rfl, behind⟩
  | error e =>
    rw [bind_error first] at h
    exact .inl h

end Outcome

namespace Situation

/-- The situation in which further entries have been made. -/
def note (s : Situation) (j : Journal) : Situation :=
  { s with host := { s.host with journal := s.host.journal ++ j } }

@[simp] theorem note_empty (s : Situation) : s.note .empty = s := by
  simp [note]

theorem note_note (s : Situation) (j k : Journal) : (s.note j).note k = s.note (j ++ k) := by
  simp [note, Journal.append_assoc]

end Situation

theorem Procedure.runOn_pure_note {α : Type} (x : α) (s : Situation) :
    (pure x : Procedure α).runOn s =
      ((pure x : Outcome α).result, s.note (pure x : Outcome α).journal) :=
  congrArg (Prod.mk _) s.note_empty.symm

theorem Procedure.runOn_ofExcept_note {α : Type} (r : Except TaskError α) (s : Situation) :
    (Change.ofExcept r).runOn s =
      ((Outcome.ofExcept r).result, s.note (Outcome.ofExcept r).journal) :=
  (Change.runOn_ofExcept r s).trans (congrArg (Prod.mk _) s.note_empty.symm)

/-- A procedure that goes like an outcome, followed by one that does. -/
theorem Procedure.runOn_bind_note {α β : Type} {p : Procedure α} {k : α → Procedure β}
    {q : Outcome α} {l : α → Outcome β} {s : Situation}
    (first : p.runOn s = (q.result, s.note q.journal))
    (rest : ∀ x, (k x).runOn (s.note q.journal) =
      ((l x).result, (s.note q.journal).note (l x).journal)) :
    (p >>= k).runOn s = ((q >>= l).result, s.note (q >>= l).journal) := by
  cases h : q.result with
  | ok x =>
    rw [h] at first
    rw [Outcome.bind_ok h, Change.runOn_bind_ok first, rest x, Situation.note_note]
  | error e =>
    rw [h] at first
    rw [Outcome.bind_error h, Change.runOn_bind_error first]

end TaskDecoration
