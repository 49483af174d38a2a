import TaskDecoration.Proofs.History

/-!
# Functions that are called for themselves

What is remembered of a layer does not say in which function it stands, and decorating a function
that has layers already shares them. A function is solitary (`TaskFunction.Solitary`) while its
layers are called as layers of this function only. Other functions can be decorated and called
meanwhile: a call remembers nothing of layers that it does not have (`Apart.same`). So
`Solitary.invariant` asks little of a property of the memory: untouched layers have it, the
function's own calls keep it, and it looks at the layers of the function only.
-/

set_option autoImplicit false

namespace TaskDecoration

/-- The same is remembered of some layers. -/
def Memory.Same (m m' : Memory) (ls : List Layer) : Prop :=
  ∀ l ∈ ls, m'.configured l.id = m.configured l.id ∧ m'.descriptor l.id = m.descriptor l.id

theorem Memory.Same.untouched {m m' : Memory} {ls : List Layer} (same : m.Same m' ls)
    (untouched : m.Untouched ls) : m'.Untouched ls := fun l hl =>
  ⟨(same l hl).1.trans (untouched l hl).1, (same l hl).2.trans (untouched l hl).2⟩

namespace TaskFunction

variable {f g : TaskFunction} {o : Orchestrator}

/-- No layer stands in both functions. -/
def Apart (f g : TaskFunction) : Prop := ∀ l ∈ f.layers, ∀ x ∈ g.layers, x.id ≠ l.id

theorem Apart.same (apart : f.Apart g) (r : Request) (o : Orchestrator) :
    o.memory.Same (g.memoryAfter r o) f.layers := fun l hl =>
  ⟨memoryAfter_configured (apart l hl) r o,
    memoryAfter_descriptor (fun x _ _ arrival => apart l hl x (mem_of_ending arrival)) r o⟩

/-- Since the function was decorated, its layers have been called as layers of this function
only. -/
inductive Solitary (f : TaskFunction) : Orchestrator → Prop where
  | decorated {as : List Decoration} {base : BareFunction} {o o₁ : Orchestrator}
      (tidy : o.memory.Tidy) (made : decorate as (bare base) o = (f, o₁)) : Solitary f o₁
  | event {ι : Type} {g : ι → TaskFunction} {o : Orchestrator} (solitary : Solitary f o)
      (e : Event ι) (alone : ∀ i r, e = .call i r → g i = f ∨ f.Apart (g i)) :
      Solitary f (e.apply g o)
  /-- Another function is decorated, or this one once more. -/
  | beside {o : Orchestrator} (solitary : Solitary f o) (as : List Decoration)
      (g : TaskFunction) : Solitary f (decorate as g o).2

namespace Solitary

/-- Calls of the function itself keep it solitary. -/
theorem replay (solitary : f.Solitary o) (history : List (Event Unit)) :
    f.Solitary (Event.replay (fun _ => f) history o) := by
  induction history generalizing o with
  | nil => exact solitary
  | cons e history ih => exact ih (solitary.event e fun _ _ _ => .inl rfl)

/-- What holds of untouched layers and is kept by the function's own calls holds while it is
solitary. -/
theorem invariant (solitary : f.Solitary o) {P : Memory → Prop}
    (fresh : ∀ m : Memory, m.Untouched f.layers → P m)
    (own : ∀ r o, P o.memory → P (f.memoryAfter r o))
    (frame : ∀ m m' : Memory, m.Same m' f.layers → P m → P m') : P o.memory := by
  induction solitary with
  | decorated tidy made => exact fresh _ (untouched_of_decorate tidy made)
  | @event ι g o _ e alone ih =>
    cases e with
    | call i r =>
      unfold Event.apply
      dsimp only
      rw [TaskFunction.serve_eq]
      rcases alone i r rfl with same | apart
      · rw [same]
        exact own r o ih
      · exact frame _ _ (apart.same r o) ih
    | move session => exact ih
    | register name transform => exact ih
  | @beside o _ as g ih =>
    rw [decorate_eq]
    exact frame o.memory _ (fun l _ => ⟨rfl, rfl⟩) ih

end Solitary

end TaskFunction

end TaskDecoration
