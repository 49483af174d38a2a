import Mathlib.Data.List.Forall2
import TaskDecoration.Proofs.History

/-!
# Behind a teardown

A session is entered and left, and functions are called in between, in any order. Once it has been
left, it is as if there were no orchestrator, whatever nesting it was set up with: until it is reset,
it cannot be entered again, and calls of annotated functions end at their outermost layer
(`Orchestrator.teardown_closes`). One step keeps the orchestrator as it is (`perform_closed`), and so
does a run of steps (`performAll_closed`).
-/

set_option autoImplicit false

namespace TaskDecoration

/-- What can be done with an orchestrator from outside. -/
inductive Action where
  | bootstrap (scope : Scope) (nesting : Bool)
  | teardown
  | reset (context : Context)
  | call (f : TaskFunction) (a : Arguments)

/-- The result of a call, or the success of another action, unless it fails. -/
abbrev Answer := Except TaskError (Option Value)

/-- How actions are answered between a teardown and a reset. A second teardown changes nothing. -/
inductive Action.Closed : Action → Answer → Prop where
  | bootstrap {scope : Scope} {nesting : Bool} (cause : BootstrapError) :
      Closed (.bootstrap scope nesting) (.error (.bootstrap cause))
  | teardown : Closed .teardown (.ok none)
  | call {outermost : Layer} {inner : List Layer} {base : BareFunction} {a : Arguments} :
      Closed (.call ⟨outermost :: inner, base⟩ a) (.error (.outOfScope outermost.decoration.name))

/-- The session that a teardown leaves behind. -/
def Session.closed : Session := ⟨.outside, true⟩

namespace Orchestrator

/-- The orchestrator in another session. -/
def within (o : Orchestrator) (session : Session) : Orchestrator := { o with session := session }

/-- Lets the session change. What has been done to it stays, also where the change is refused. -/
def change (o : Orchestrator) (p : Change BootstrapError Session Unit) : Answer × Orchestrator :=
  match p.runOn o.session with
  | (.ok _, session) => (.ok none, o.within session)
  | (.error cause, session) => (.error (.bootstrap cause), o.within session)

/-- Carries out an action. -/
def perform (o : Orchestrator) : Action → Answer × Orchestrator
  | .bootstrap scope nesting => o.change (Session.enter scope nesting)
  | .teardown => o.change Session.leave
  | .reset context => o.change (modify fun _ => .reset context)
  | .call f a => ((f.call a o).1.map some, (f.call a o).2)

/-- Carries out actions in order, with all their answers. -/
def performAll (o : Orchestrator) : List Action → List Answer × Orchestrator
  | [] => ([], o)
  | x :: xs =>
    ((o.perform x).1 :: ((o.perform x).2.performAll xs).1, ((o.perform x).2.performAll xs).2)

theorem change_of_atomic {p : Change BootstrapError Session Unit} (atomic : p.Atomic)
    (o : Orchestrator) : o.change p = match p.result o.session with
      | .ok session => (.ok none, o.within session)
      | .error cause => (.error (.bootstrap cause), o) := by
  unfold change
  rw [atomic.runOn_eq]
  cases p.result o.session with
  | ok session => rfl
  | error cause => rfl

theorem perform_bootstrap_eq (o : Orchestrator) (scope : Scope) (nesting : Bool) :
    o.perform (.bootstrap scope nesting) = match o.session.bootstrap scope nesting with
      | .ok session => (.ok none, o.within session)
      | .error cause => (.error (.bootstrap cause), o) :=
  change_of_atomic (Session.enter_atomic scope nesting) o

theorem perform_teardown_eq (o : Orchestrator) :
    o.perform .teardown = match o.session.teardown with
      | .ok session => (.ok none, o.within session)
      | .error cause => (.error (.bootstrap cause), o) :=
  change_of_atomic Session.leave_atomic o

theorem performAll_append (o : Orchestrator) (xs ys : List Action) :
    o.performAll (xs ++ ys) =
      ((o.performAll xs).1 ++ ((o.performAll xs).2.performAll ys).1,
        ((o.performAll xs).2.performAll ys).2) := by
  induction xs generalizing o with
  | nil => rfl
  | cons x xs ih =>
    change ((o.perform x).1 :: ((o.perform x).2.performAll (xs ++ ys)).1,
      ((o.perform x).2.performAll (xs ++ ys)).2) = _
    rw [ih]
    rfl

/-- A teardown that succeeds changes nothing but the session. -/
theorem perform_teardown {o : Orchestrator} (success : (o.perform .teardown).1 = .ok none) :
    (o.perform .teardown).2 = o.within .closed := by
  rw [perform_teardown_eq, Session.teardown_eq] at success ⊢
  by_cases entered : o.session.bootstrapped = true
  · have closed : (⟨.outside, o.session.bootstrapped⟩ : Session) = .closed :=
      congrArg (Session.mk .outside) entered
    rw [if_pos entered, closed]
  · rw [if_neg entered] at success
    cases success

/-- Where calls are not admitted, the outermost layer refuses them, and nothing happens. -/
theorem call_outside {o : Orchestrator} (outside : ¬ o.session.context.admitsCalls = true)
    (outermost : Layer) (inner : List Layer) (base : BareFunction) (a : Arguments) :
    (⟨outermost :: inner, base⟩ : TaskFunction).call a o =
      (.error (.outOfScope outermost.decoration.name), o) := by
  have stopped : (outermost.enter base.signature).runOn
      ⟨(Request.plain o.session.context a).call, o⟩ =
        (.error (.outOfScope outermost.decoration.name),
          ⟨(Request.plain o.session.context a).call, o⟩) :=
    Change.runOn_bind_error (Layer.checkContext_runOn_refused outside)
  exact Procedure.effectOn_of_runOn (Change.runOn_bind_error stopped)

/-- Nothing but a reset gets anywhere with a session that has been left. -/
theorem perform_closed {o : Orchestrator} (left : o.session = .closed) {x : Action}
    (noReset : ∀ c, x ≠ .reset c) (annotated : ∀ f a, x = .call f a → f.layers ≠ []) :
    x.Closed (o.perform x).1 ∧ (o.perform x).2 = o := by
  cases x with
  | bootstrap scope nesting =>
    have refused : ∃ cause, o.session.bootstrap scope nesting = .error cause := by
      rw [Session.bootstrap_eq, left]
      split
      · exact ⟨_, rfl⟩
      · exact ⟨_, rfl⟩
    obtain ⟨cause, refused⟩ := refused
    rw [perform_bootstrap_eq, refused]
    exact ⟨.bootstrap cause, rfl⟩
  | teardown =>
    have again : o.session.teardown = .ok o.session := by
      rw [left]
      rfl
    rw [perform_teardown_eq, again]
    exact ⟨.teardown, rfl⟩
  | reset c => exact absurd rfl (noReset c)
  | call f a =>
    obtain ⟨layers, base⟩ := f
    cases layers with
    | nil => exact absurd rfl (annotated _ a rfl)
    | cons outermost inner =>
      have outside : ¬ o.session.context.admitsCalls = true := by
        rw [left]
        decide
      have refused := call_outside outside outermost inner base a
      change Action.Closed _ (((⟨outermost :: inner, base⟩ : TaskFunction).call a o).1.map some) ∧
        ((⟨outermost :: inner, base⟩ : TaskFunction).call a o).2 = o
      rw [refused]
      exact ⟨.call, rfl⟩

/-- Nor does a whole run without a reset. -/
theorem performAll_closed {o : Orchestrator} (left : o.session = .closed) {xs : List Action}
    (noReset : ∀ c, .reset c ∉ xs) (annotated : ∀ f a, .call f a ∈ xs → f.layers ≠ []) :
    List.Forall₂ Action.Closed xs (o.performAll xs).1 ∧ (o.performAll xs).2 = o := by
  induction xs with
  | nil => exact ⟨.nil, rfl⟩
  | cons x xs ih =>
    have here := perform_closed left (x := x)
      (fun c same => noReset c (same ▸ List.mem_cons_self))
      (fun f a same => annotated f a (same ▸ List.mem_cons_self))
    obtain ⟨answers, unchanged⟩ := ih (fun c member => noReset c (List.mem_cons_of_mem x member))
      (fun f a member => annotated f a (List.mem_cons_of_mem x member))
    change List.Forall₂ Action.Closed (x :: xs)
      ((o.perform x).1 :: ((o.perform x).2.performAll xs).1) ∧
        ((o.perform x).2.performAll xs).2 = o
    rw [here.2]
    exact ⟨.cons here.1 answers, unchanged⟩

/-- Whatever came before a successful teardown: until the session is reset, every attempt to enter
it fails, and every call of an annotated function is refused in the name of its outermost
annotation. The orchestrator stays exactly as it was before the teardown, the session aside: its
journal gets no entry, and its layers remember nothing new. -/
theorem teardown_closes {o : Orchestrator} {before after : List Action}
    (success : ((o.performAll before).2.perform .teardown).1 = .ok none)
    (noReset : ∀ c, .reset c ∉ after) (annotated : ∀ f a, .call f a ∈ after → f.layers ≠ []) :
    ∃ answers, o.performAll (before ++ .teardown :: after) =
        ((o.performAll before).1 ++ .ok none :: answers,
          (o.performAll before).2.within .closed) ∧
      List.Forall₂ Action.Closed after answers := by
  have torn := perform_teardown success
  obtain ⟨answers, unchanged⟩ := performAll_closed
    (o := (o.performAll before).2.within .closed) rfl noReset annotated
  refine ⟨_, ?_, answers⟩
  rw [performAll_append]
  change ((o.performAll before).1 ++ ((o.performAll before).2.perform .teardown).1 ::
    (((o.performAll before).2.perform .teardown).2.performAll after).1,
    (((o.performAll before).2.perform .teardown).2.performAll after).2) = _
  rw [success, torn, unchanged]

/-- A function has been called in a session that was set up with nesting. It cannot be called any
more, nor can the session be entered again. -/
theorem teardown_closes_nesting :
    let made := TaskFunction.decorate [.task .empty .standard] (.bare .echo)
      (.start { Settings.default with nesting := true } .plain)
    let before := [.bootstrap .master true, .call made.1 .empty]
    let after := [.bootstrap .worker true, .call made.1 .empty]
    let run := made.2.performAll (before ++ .teardown :: after)
    run.1 = [.ok none, .ok (some (.list [])), .ok none,
        .error (.bootstrap (.alreadyBootstrapped "out_of_scope")), .error (.outOfScope "@task")] ∧
      run.2 = (made.2.performAll before).2.within .closed := by
  intro made before after run
  have noReset : ∀ c, .reset c ∉ after := by simp [after]
  have annotated : ∀ f a, .call f a ∈ after → f.layers ≠ [] := by
    intro f a member
    obtain ⟨rfl, -⟩ : f = made.1 ∧ a = .empty := by simpa [after] using member
    exact List.cons_ne_nil _ _
  have success : ((made.2.performAll before).2.perform .teardown).1 = .ok none := rfl
  obtain ⟨answers, ran, -⟩ := teardown_closes success noReset annotated
  exact ⟨rfl, congrArg Prod.snd ran⟩

end Orchestrator

end TaskDecoration
