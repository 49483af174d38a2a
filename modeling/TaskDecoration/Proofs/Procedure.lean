import TaskDecoration.Function

/-!
# Running procedures

What running gives for the ways of building a procedure that other changes do not have.
`Procedure.effectOn` forgets the call, which nobody sees once its procedure has ended.
-/

set_option autoImplicit false

namespace TaskDecoration

namespace Procedure

open Change

variable {α β : Type}

@[simp] theorem runOn_modifyCall (g : Call → Call) (s : Situation) :
    (modifyCall g).runOn s = (.ok (), { s with call := g s.call }) := rfl

@[simp] theorem runOn_modifyHost (g : Orchestrator → Orchestrator) (s : Situation) :
    (modifyHost g).runOn s = (.ok (), { s with host := g s.host }) := rfl

theorem runOn_onDescriptor (p : Change ConfigurationError Element α) (s : Situation) :
    (onDescriptor p).runOn s = ((p.runOn s.call.descriptor).1.mapError .configuration,
      { s with call := s.call.withElement (p.runOn s.call.descriptor).2 }) := rfl

theorem runOn_onDescriptor_ok {p : Change ConfigurationError Element α} {s : Situation}
    {e : Element} {x : α} (h : p.runOn s.call.descriptor = (.ok x, e)) :
    (onDescriptor p).runOn s = (.ok x, { s with call := s.call.withElement e }) := by
  rw [runOn_onDescriptor, h]
  rfl

theorem runOn_onDescriptor_error {p : Change ConfigurationError Element α} {s : Situation}
    {e : Element} {cause : ConfigurationError} (h : p.runOn s.call.descriptor = (.error cause, e)) :
    (onDescriptor p).runOn s =
      (.error (.configuration cause), { s with call := s.call.withElement e }) := by
  rw [runOn_onDescriptor, h]
  rfl

theorem runOn_inCall (c : Call) (p : Procedure α) (s : Situation) :
    (inCall c p).runOn s =
      ((p.runOn { s with call := c }).1,
        { s with host := (p.runOn { s with call := c }).2.host }) := rfl

/-- The result of a procedure and the orchestrator it leaves behind, the call aside. -/
def effectOn (p : Procedure α) (s : Situation) : Except TaskError α × Orchestrator :=
  ((p.runOn s).1, (p.runOn s).2.host)

theorem effectOn_of_runOn {p : Procedure α} {s t : Situation} {r : Except TaskError α}
    (h : p.runOn s = (r, t)) : p.effectOn s = (r, t.host) := by
  unfold effectOn
  rw [h]

theorem effectOn_bind_ok {p : Procedure α} {k : α → Procedure β} {s t : Situation} {x : α}
    (h : p.runOn s = (.ok x, t)) : (p >>= k).effectOn s = (k x).effectOn t := by
  unfold effectOn
  rw [runOn_bind_ok h]

theorem effectOn_bind_error {p : Procedure α} {k : α → Procedure β} {s : Situation}
    {o : Orchestrator} {e : TaskError} (h : p.effectOn s = (.error e, o)) :
    (p >>= k).effectOn s = (.error e, o) := by
  rcases run : p.runOn s with ⟨r, t⟩
  rw [effectOn_of_runOn run] at h
  obtain ⟨rfl, rfl⟩ := Prod.mk.inj h
  exact effectOn_of_runOn (runOn_bind_error run)

theorem effectOn_inFrame (b : Bool) (p : Procedure α) (s : Situation) :
    (inFrame b p).effectOn s = p.effectOn { s with call := s.call.enterFrame b } := rfl

end Procedure

end TaskDecoration
