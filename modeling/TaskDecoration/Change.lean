/-!
# Changes of state

A `Change` reads and writes a state and may fail. What it wrote before it failed stays, so whether a
refused change has left the state alone depends on the order of its checks and its writes. One that
always does is `Atomic`; it is then known by its `result` (`Atomic.runOn_eq`).
-/

set_option autoImplicit false

namespace TaskDecoration

/-- A computation on a state that may fail. -/
abbrev Change (ε σ : Type) : Type → Type := ExceptT ε (StateM σ)

namespace Change

variable {ε σ α β : Type}

/-- The result of a change, and the state behind it. -/
def runOn (p : Change ε σ α) (s : σ) : Except ε α × σ := StateT.run (ExceptT.run p) s

/-- Goes on with a result that is there already. -/
def ofExcept : Except ε α → Change ε σ α
  | .ok x => pure x
  | .error e => throw e

/-- The state behind a change that is not refused. -/
def result (p : Change ε σ α) (s : σ) : Except ε σ :=
  match p.runOn s with
  | (.ok _, t) => .ok t
  | (.error e, _) => .error e

/-- How a change of all or nothing ends: with the new state, or with the old one. -/
def settle (s : σ) : Except ε σ → Except ε Unit × σ
  | .ok t => (.ok (), t)
  | .error e => (.error e, s)

theorem settle_eq_ok_iff {s t : σ} {r : Except ε σ} : settle s r = (.ok (), t) ↔ r = .ok t := by
  cases r with
  | ok u => simp [settle]
  | error e => simp [settle]

theorem settle_eq_error_iff {s t : σ} {r : Except ε σ} {e : ε} :
    settle s r = (.error e, t) ↔ r = .error e ∧ t = s := by
  cases r with
  | ok u => simp [settle]
  | error e' => simp [settle, eq_comm]

section Running

@[simp] theorem runOn_pure (x : α) (s : σ) : (pure x : Change ε σ α).runOn s = (.ok x, s) := rfl

@[simp] theorem runOn_throw (e : ε) (s : σ) :
    (throw e : Change ε σ α).runOn s = (.error e, s) := rfl

@[simp] theorem runOn_get (s : σ) : (get : Change ε σ σ).runOn s = (.ok s, s) := rfl

@[simp] theorem runOn_modify (g : σ → σ) (s : σ) :
    (modify g : Change ε σ Unit).runOn s = (.ok (), g s) := rfl

/-- A sequence goes on with the result of its first part and stops at its failure. -/
theorem runOn_bind (p : Change ε σ α) (k : α → Change ε σ β) (s : σ) :
    (p >>= k).runOn s = match p.runOn s with
      | (.ok x, t) => (k x).runOn t
      | (.error e, t) => (.error e, t) := by
  unfold runOn ExceptT.run StateT.run
  simp only [bind, ExceptT.bind, ExceptT.mk, StateT.bind]
  rcases p s with ⟨r, t⟩
  cases r with
  | ok x => rfl
  | error e => rfl

theorem runOn_bind_ok {p : Change ε σ α} {k : α → Change ε σ β} {s t : σ} {x : α}
    (h : p.runOn s = (.ok x, t)) : (p >>= k).runOn s = (k x).runOn t := by
  rw [runOn_bind, h]

theorem runOn_bind_error {p : Change ε σ α} {k : α → Change ε σ β} {s t : σ} {e : ε}
    (h : p.runOn s = (.error e, t)) : (p >>= k).runOn s = (.error e, t) := by
  rw [runOn_bind, h]

/-- Looking at the state gives the state and leaves it. -/
theorem runOn_get_bind (k : σ → Change ε σ α) (s : σ) : (get >>= k).runOn s = (k s).runOn s :=
  runOn_bind_ok (runOn_get s)

@[simp] theorem runOn_ofExcept (r : Except ε α) (s : σ) :
    (ofExcept r : Change ε σ α).runOn s = (r, s) := by
  cases r <;> rfl

theorem result_get_bind (k : σ → Change ε σ α) (s : σ) : (get >>= k).result s = (k s).result s := by
  unfold result
  rw [runOn_get_bind]

theorem result_bind_modify (p : Change ε σ Unit) (g : σ → σ) (s : σ) :
    (p >>= fun _ => modify g).result s = (p.result s).map g := by
  unfold result
  rw [runOn_bind]
  rcases p.runOn s with ⟨r, t⟩
  cases r with
  | ok x => rfl
  | error e => rfl

theorem result_ofExcept_bind (r : Except ε α) (k : α → Change ε σ β) (s : σ) :
    (ofExcept r >>= k).result s = r >>= fun x => (k x).result s := by
  unfold result
  rw [runOn_bind, runOn_ofExcept]
  cases r with
  | ok x => rfl
  | error e => rfl

end Running

/-- Where the change is refused, the state is what it was. -/
def Atomic (p : Change ε σ α) : Prop := ∀ s t e, p.runOn s = (.error e, t) → t = s

section Atomicity

theorem atomic_pure (x : α) : Atomic (pure x : Change ε σ α) := by
  rintro s t e refused
  cases refused

theorem atomic_throw (e : ε) : Atomic (throw e : Change ε σ α) := by
  rintro s t e' refused
  cases refused
  rfl

theorem atomic_modify (g : σ → σ) : Atomic (modify g : Change ε σ Unit) := by
  rintro s t e refused
  cases refused

/-- What has only been looked at is still there. -/
theorem atomic_get_bind {k : σ → Change ε σ α} (rest : ∀ s, (k s).Atomic) :
    (get >>= k).Atomic := by
  intro s t e refused
  rw [runOn_get_bind] at refused
  exact rest s s t e refused

/-- A check comes before what it is a check for. -/
theorem atomic_ofExcept_bind {r : Except ε α} {k : α → Change ε σ β} (rest : ∀ x, (k x).Atomic) :
    (ofExcept r >>= k).Atomic := by
  intro s t e refused
  cases r with
  | ok x =>
    rw [runOn_bind_ok (runOn_ofExcept _ s)] at refused
    exact rest x s t e refused
  | error e' =>
    rw [runOn_bind_error (runOn_ofExcept _ s)] at refused
    cases refused
    rfl

/-- What is written in the end is not refused. -/
theorem atomic_bind_modify {p : Change ε σ Unit} (first : p.Atomic) (g : σ → σ) :
    (p >>= fun _ => modify g).Atomic := by
  intro s t e refused
  rcases ran : p.runOn s with ⟨r, u⟩
  cases r with
  | ok x =>
    rw [runOn_bind_ok ran] at refused
    cases refused
  | error e' =>
    rw [runOn_bind_error ran] at refused
    cases refused
    exact first s t _ ran

/-- A change of all or nothing is known by its result. -/
theorem Atomic.runOn_eq {p : Change ε σ Unit} (atomic : p.Atomic) (s : σ) :
    p.runOn s = settle s (p.result s) := by
  unfold result
  rcases ran : p.runOn s with ⟨r, t⟩
  cases r with
  | ok x => rfl
  | error e =>
    obtain rfl := atomic s t e ran
    rfl

end Atomicity

end Change

end TaskDecoration
