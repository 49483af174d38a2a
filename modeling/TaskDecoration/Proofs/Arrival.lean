import TaskDecoration.Proofs.Descent
import TaskDecoration.Proofs.Journal

/-!
# Behind the layers

What a call has arrived at is run as an `Outcome`: the function itself (`BareFunction.report`), a
task that the scheduler accepts (`Scheduler.accept`), or a refusal. `Ending.run_effectOn` says
that running it leaves behind the entries of that outcome, and the marks and the descriptor of
the configuration it has finished (`Ending.memory`), and nothing else.
-/

set_option autoImplicit false

namespace TaskDecoration

@[simp] theorem Memory.configure_nil (m : Memory) : m.configure [] = m := by
  simp [configure]

/-- The units that a draft waits for have all succeeded. -/
def Draft.arrived (d : Draft) : Bool :=
  (Dependency.resolve d.dependencies d.arguments).1.isOk

/-- What the body of a function sees of a draft, once the results it waits for have arrived. -/
def Draft.view (d : Draft) (c : Context) (f : Signature) : View :=
  ⟨f, c, (Dependency.resolve d.dependencies d.arguments).2, d.frames⟩

/-- What happens when a function is run on a draft. -/
def BareFunction.report (f : BareFunction) (c : Context) (d : Draft) : Outcome Value :=
  match (Dependency.resolve d.dependencies d.arguments).1 with
  | .ok () =>
    ⟨f.body (d.view c f.signature), .ofRun ⟨f.number, d.view c f.signature⟩⟩
  | .error e => ⟨.error e, .empty⟩

section Arrived

variable {d : Draft}

theorem Draft.arrived_of_ok (h : (Dependency.resolve d.dependencies d.arguments).1 = .ok ()) :
    d.arrived = true := by
  unfold arrived
  rw [h]
  rfl

theorem Draft.not_arrived_of_error {e : TaskError}
    (h : (Dependency.resolve d.dependencies d.arguments).1 = .error e) :
    ¬ d.arrived = true := by
  unfold arrived
  rw [h]
  exact Bool.false_ne_true

theorem BareFunction.report_of_ok (f : BareFunction) (c : Context)
    (h : (Dependency.resolve d.dependencies d.arguments).1 = .ok ()) :
    f.report c d = ⟨f.body (d.view c f.signature), .ofRun ⟨f.number, d.view c f.signature⟩⟩ := by
  unfold report
  rw [h]

theorem BareFunction.report_of_error (f : BareFunction) (c : Context) {e : TaskError}
    (h : (Dependency.resolve d.dependencies d.arguments).1 = .error e) :
    f.report c d = ⟨.error e, .empty⟩ := by
  unfold report
  rw [h]

end Arrived

namespace Scheduler

/-- What happens when a hook is run. -/
def hookReport (s : Scheduler) (hook : Option Hook) : Outcome Unit :=
  match s.runHooks, hook with
  | true, some h => do
    Outcome.note (.ofHook h)
    Outcome.ofExcept (h.run s.environment)
  | _, _ => pure ()

/-- The draft with which the body of a task starts. -/
def workerDraft (r : TaskRequest) (arguments : Arguments) : Draft :=
  ⟨arguments, [r.frame], [], none, false, [], []⟩

/-- The entry of an accepted task. -/
def entry (r : TaskRequest) (f : Signature) : Registration where
  function := f.qualifiedName
  descriptor := r.descriptor
  arguments := r.arguments
  pending := r.dependencies.map (·.parameter)
  options := r.options
  prependStrings := r.frame.prependStrings

/-- What happens when a task is handed in. -/
def accept (s : Scheduler) (nesting : Bool) (r : TaskRequest) (f : BareFunction) :
    Outcome Value := do
  Outcome.ofExcept
    ((s.validate f.signature.qualifiedName r.descriptor.element).mapError .registration)
  Outcome.note (.ofRegistration (entry r f.signature))
  let (resolved, arguments) := Dependency.resolve r.dependencies r.arguments
  Outcome.ofExcept resolved
  s.hookReport r.descriptor.element.prolog
  let result ← f.report ⟨.worker, nesting⟩ (workerDraft r arguments)
  s.hookReport r.descriptor.element.epilog
  return result

end Scheduler

namespace Layer

/-- The descriptor that a task registers: that of the call, or else the one its layer keeps. -/
def delivered (m : Memory) (l : Layer) (b : Blueprint) : Option Descriptor :=
  match b.element with
  | some e => some (m.finish l.id e).1
  | none => m.descriptor l.id

/-- What is remembered of the descriptor of a call. -/
def keep (m : Memory) (l : Layer) (b : Blueprint) : Memory :=
  match b.element with
  | some e => (m.finish l.id e).2
  | none => m

end Layer

/-- The task that is handed in for a draft. -/
def TaskRequest.ofDraft (descriptor : Descriptor) (options : TaskOptions) (d : Draft) :
    TaskRequest where
  descriptor := descriptor
  arguments := d.arguments
  dependencies := d.dependencies
  options := Layer.callOptions options d.arguments
  frame := Frame.collapse d.frames

namespace Ending

/-- What is remembered of a configuration that is finished. -/
def commit (m : Memory) (b : Blueprint) : Ending → Memory
  | body => m.configure b.deferred
  | task l _ _ => (l.keep m b).configure b.deferred

theorem commit_blank (e : Ending) (m : Memory) : e.commit m .blank = m := by
  cases e with
  | body => exact m.configure_nil
  | task l options inner => exact m.configure_nil

theorem commit_configured (e : Ending) (m : Memory) (b : Blueprint) (i : LayerId) :
    (e.commit m b).configured i = (m.configured i || b.deferred.contains i) := by
  cases e with
  | body => rfl
  | task l options inner =>
    unfold commit Layer.keep
    dsimp only
    cases b.element with
    | none => rfl
    | some x => rfl

theorem commit_nextLayer (e : Ending) (m : Memory) (b : Blueprint) :
    (e.commit m b).nextLayer = m.nextLayer := by
  cases e with
  | body => rfl
  | task l options inner =>
    unfold commit Layer.keep
    dsimp only
    cases b.element with
    | none => rfl
    | some x => rfl

/-- Only the task layer gets a descriptor to keep. -/
theorem commit_descriptor {e : Ending} {i : LayerId}
    (other : ∀ l options inner, e = .task l options inner → l.id ≠ i) (m : Memory)
    (b : Blueprint) : (e.commit m b).descriptor i = m.descriptor i := by
  cases e with
  | body => rfl
  | task l options inner =>
    unfold commit Layer.keep
    dsimp only
    cases b.element with
    | none => rfl
    | some x =>
      unfold Memory.finish Memory.configure
      dsimp only
      rw [if_neg fun same => other l options inner rfl same.symm]

/-- What happens behind the layers. -/
def report (o : Orchestrator) (c : Context) (f : BareFunction) (b : Blueprint) (d : Draft) :
    Ending → Outcome Value
  | body => f.report c d
  | task l options inner =>
    if ¬ inner.isEmpty then
      .ofExcept (.error (.configuration (.taskNotInnermost f.signature.qualifiedName)))
    else if ¬ c.configures then f.report c d
    else match l.delivered o.memory b with
      | some descriptor =>
        o.scheduler.accept o.session.context.nesting (.ofDraft descriptor options d) f
      | none => .ofExcept (.error (.registration (.noDescriptor f.signature.qualifiedName)))

section Innermost

variable {l : Layer} {options : TaskOptions} {o : Orchestrator} {c : Context} {f : BareFunction}
  {b : Blueprint} {d : Draft}

theorem report_plain (plain : ¬ c.configures = true) :
    (task l options []).report o c f b d = f.report c d := by
  unfold report
  dsimp only
  rw [if_neg (by simp), if_pos plain]

theorem report_delivered {x : Descriptor} (configures : c.configures = true)
    (delivered : l.delivered o.memory b = some x) :
    (task l options []).report o c f b d =
      o.scheduler.accept o.session.context.nesting (.ofDraft x options d) f := by
  unfold report
  dsimp only
  rw [if_neg (by simp), if_neg (not_not_intro configures), delivered]

theorem report_missing (configures : c.configures = true)
    (missing : l.delivered o.memory b = none) :
    (task l options []).report o c f b d =
      .ofExcept (.error (.registration (.noDescriptor f.signature.qualifiedName))) := by
  unfold report
  dsimp only
  rw [if_neg (by simp), if_neg (not_not_intro configures), missing]

end Innermost

/-- The task that is handed in to the scheduler: an innermost one, where descriptors are
configured. -/
def hand (m : Memory) (c : Context) (b : Blueprint) (d : Draft) : Ending → Option TaskRequest
  | task l options [] =>
    if c.configures then
      (l.delivered m b).map fun descriptor => .ofDraft descriptor options d
    else none
  | _ => none

/-- What the layers remember afterwards. -/
def memory (m : Memory) (c : Context) (b : Blueprint) (d : Draft) : Ending → Memory
  | body => if d.arrived then m.configure b.deferred else m
  | task l _ inner =>
    if ¬ inner.isEmpty then m
    else if ¬ c.configures then if d.arrived then m.configure b.deferred else m
    else match l.delivered m b with
      | some _ => (l.keep m b).configure b.deferred
      | none => m

theorem memory_plain {c : Context} (plain : ¬ c.configures = true) (e : Ending) (m : Memory)
    (d : Draft) : e.memory m c .blank d = m := by
  have unmarked : (if d.arrived then m.configure [] else m) = m := by
    rw [Memory.configure_nil, ite_self]
  cases e with
  | body => exact unmarked
  | task l options inner =>
    unfold memory
    dsimp only
    rw [if_pos plain]
    split
    · rfl
    · exact unmarked

theorem memory_configures {c : Context} (configures : c.configures = true) (e : Ending)
    (m : Memory) (b : Blueprint) (d : Draft) :
    e.memory m c b d = m ∨ e.memory m c b d = e.commit m b := by
  cases e with
  | body =>
    unfold memory commit
    dsimp only
    split
    · exact .inr rfl
    · exact .inl rfl
  | task l options inner =>
    unfold memory commit
    dsimp only
    rw [if_neg (not_not_intro configures)]
    split
    · exact .inl rfl
    · split
      · exact .inr rfl
      · exact .inl rfl

/-- Behind an idle draft, what is handed in at all is remembered. -/
theorem memory_of_arrived {c : Context} {e : Ending} {m : Memory} {b : Blueprint} {d : Draft}
    (innermost : ∀ l options inner, e = .task l options inner → inner = [])
    (configures : c.configures = true) (arrived : d.arrived = true)
    (delivered : ∀ l options inner, e = .task l options inner → l.delivered m b ≠ none) :
    e.memory m c b d = e.commit m b := by
  cases e with
  | body => exact if_pos arrived
  | task l options inner =>
    obtain rfl := innermost l options inner rfl
    unfold memory commit
    dsimp only
    rw [if_neg (by simp), if_neg (not_not_intro configures)]
    cases delivery : l.delivered m b with
    | none => exact absurd delivery (delivered l options [] rfl)
    | some descriptor => rfl

end Ending

section Congruence

theorem Scheduler.accept_congr (s : Scheduler) (nesting : Bool) {x y : Descriptor}
    (options : TaskOptions) (d : Draft) (f : BareFunction) (element : x.element = y.element) :
    (s.accept nesting (.ofDraft x options d) f).anonymous =
      (s.accept nesting (.ofDraft y options d) f).anonymous := by
  -- The descriptor is looked at through its element, but for the entry of the task.
  have entries :
      (Outcome.note (.ofRegistration (entry (.ofDraft x options d) f.signature))).anonymous =
      (Outcome.note (.ofRegistration (entry (.ofDraft y options d) f.signature))).anonymous := by
    unfold entry TaskRequest.ofDraft
    simp [Outcome.note, Outcome.anonymous, Journal.anonymous, Journal.ofRegistration, element]
  unfold accept
  rw [Outcome.anonymous_bind, Outcome.anonymous_bind (Outcome.ofExcept _)]
  change (Outcome.ofExcept
      ((s.validate f.signature.qualifiedName x.element).mapError _)).anonymous >>= _ =
    (Outcome.ofExcept ((s.validate f.signature.qualifiedName y.element).mapError _)).anonymous >>= _
  rw [element]
  refine congrArg _ (funext fun _ => ?_)
  rw [Outcome.anonymous_bind, Outcome.anonymous_bind (Outcome.note _), entries]
  refine congrArg _ (funext fun _ => ?_)
  change Outcome.anonymous (_ >>= fun _ => s.hookReport x.element.prolog >>= fun _ =>
      _ >>= fun v => s.hookReport x.element.epilog >>= fun _ => pure v) = _
  rw [element]
  rfl

namespace Ending

/-- What an ending is, the numbers of its layers aside. -/
def shape : Ending → Option (TaskOptions × Bool)
  | body => none
  | task _ options inner => some (options, inner.isEmpty)

theorem shape_congr {ls ls' : List Layer}
    (decorations : ls.map (·.decoration) = ls'.map (·.decoration)) :
    (ending ls).shape = (ending ls').shape := by
  induction ls generalizing ls' with
  | nil =>
    obtain rfl : ls' = [] := List.map_eq_nil_iff.mp decorations.symm
    rfl
  | cons l ls ih =>
    cases ls' with
    | nil => cases decorations
    | cons l' ls' =>
      obtain ⟨first, rest⟩ := List.cons.inj decorations
      have lengths : ls.length = ls'.length := by
        simpa using congrArg List.length rest
      have decoration : l.decoration = l'.decoration := first
      unfold ending
      rw [← decoration]
      split
      · unfold shape
        cases ls with
        | nil => rw [List.length_eq_zero_iff.mp lengths.symm]
        | cons _ _ =>
          cases ls' with
          | nil => cases lengths
          | cons _ _ => rfl
      · exact ih rest

/-- Without layers to go through, there is no task. -/
theorem shape_of_reached_nil {ls : List Layer} (h : reached ls = []) :
    (ending ls).shape = none := by
  cases ls with
  | nil => rfl
  | cons l ls =>
    unfold reached at h
    split at h
    · cases h
    · cases h

theorem shape_eq_none {e : Ending} : e.shape = none ↔ e = .body := by
  cases e with
  | body => exact ⟨fun _ => rfl, fun _ => rfl⟩
  | task l options inner => exact ⟨fun same => (nomatch same), fun same => (nomatch same)⟩

/-- A call through layers arrives at a task if there is one. -/
theorem shape_ne_none {ls : List Layer} :
    (ending ls).shape ≠ none ↔ ∃ a ∈ ls.map (·.decoration), a.isTask = true := by
  rw [Ne, shape_eq_none, ending_eq_body_iff]
  constructor
  · intro some
    apply Classical.byContradiction
    intro none
    apply some
    intro l hl
    apply Bool.eq_false_iff.mpr
    intro task
    exact none ⟨l.decoration, List.mem_map_of_mem hl, task⟩
  · rintro ⟨a, ha, task⟩ none
    obtain ⟨l, hl, rfl⟩ := List.mem_map.mp ha
    exact Bool.false_ne_true ((none l hl).symm.trans task)

/-- What the descriptor says that a task registers. -/
def carried (m : Memory) (b : Blueprint) : Ending → Option Element
  | body => none
  | task l _ _ => (l.delivered m b).map (·.element)

/-- What the descriptor says that the task keeps. -/
def kept (m : Memory) : Ending → Option Element
  | body => none
  | task l _ _ => (m.descriptor l.id).map (·.element)

/-- What a task keeps depends on its own descriptor only. -/
theorem kept_congr {e : Ending} {m m' : Memory}
    (same : ∀ l options inner, e = .task l options inner →
      m'.descriptor l.id = m.descriptor l.id) : e.kept m' = e.kept m := by
  cases e with
  | body => rfl
  | task l options inner => exact congrArg (Option.map _) (same l options inner rfl)

/-- A task keeps the first descriptor that it gets. -/
theorem kept_commit {e : Ending} (task : e.shape ≠ none) (m : Memory) (b : Blueprint) :
    e.kept (e.commit m b) = (e.kept m).or b.element := by
  cases e with
  | body => exact absurd rfl task
  | task l options inner =>
    unfold kept commit Layer.keep
    dsimp only
    cases b.element with
    | none => exact (Option.or_none).symm
    | some x =>
      unfold Memory.finish Memory.configure
      dsimp only
      rw [if_pos rfl]
      cases m.descriptor l.id with
      | none => rfl
      | some y => rfl

theorem carried_of_body {e : Ending} (body : e.shape = none) (m : Memory) (b : Blueprint) :
    e.carried m b = none := by
  cases e with
  | body => rfl
  | task l options inner => cases body

theorem carried_of_some {m : Memory} {b : Blueprint} {e : Ending} {x : Element}
    (task : e.shape ≠ none) (element : b.element = some x) : e.carried m b = some x := by
  cases e with
  | body => exact absurd rfl task
  | task l options inner =>
    unfold carried Layer.delivered
    dsimp only
    rw [element]
    rfl

theorem carried_of_none {m : Memory} {b : Blueprint} {e : Ending} (element : b.element = none) :
    e.carried m b = e.kept m := by
  cases e with
  | body => rfl
  | task l options inner =>
    unfold carried kept Layer.delivered
    dsimp only
    rw [element]

theorem carried_congr {m m' : Memory} {b b' : Blueprint} {e e' : Ending}
    (shape : e.shape = e'.shape) (element : b.element = b'.element)
    (kept : e.kept m = e'.kept m') : e.carried m b = e'.carried m' b' := by
  cases drawn : b.element with
  | none => rw [carried_of_none drawn, carried_of_none (element.symm.trans drawn), kept]
  | some x =>
    by_cases body : e.shape = none
    · rw [carried_of_body body, carried_of_body (shape.symm.trans body)]
    · rw [carried_of_some body drawn,
        carried_of_some (shape ▸ body) (element.symm.trans drawn)]

/-- The descriptor of the task that is handed in depends on nothing else. -/
theorem hand_congr {m m' : Memory} {c : Context} {b b' : Blueprint} {e e' : Ending}
    (d d' : Draft) (shape : e.shape = e'.shape)
    (carried : c.configures = true → e.carried m b = e'.carried m' b') :
    (e.hand m c b d).map (·.descriptor.element) =
      (e'.hand m' c b' d').map (·.descriptor.element) := by
  cases e with
  | body =>
    cases e' with
    | body => rfl
    | task l' options' inner' => cases shape
  | task l options inner =>
    cases e' with
    | body => cases shape
    | task l' options' inner' =>
      obtain ⟨rfl, innermost⟩ := Prod.mk.inj (Option.some.inj shape)
      cases inner with
      | cons _ _ =>
        cases inner' with
        | cons _ _ => rfl
        | nil => cases innermost
      | nil =>
        cases inner' with
        | cons _ _ => cases innermost
        | nil =>
          unfold hand
          dsimp only
          by_cases configures : c.configures = true
          · rw [if_pos configures, if_pos configures, Option.map_map, Option.map_map]
            exact carried configures
          · rw [if_neg configures, if_neg configures]

/-- What is left of the transformations of a call is not looked at behind the layers. -/
theorem report_dropGiven (e : Ending) (o : Orchestrator) (c : Context) (f : BareFunction)
    (b : Blueprint) (d : Draft) : e.report o c f b d.dropGiven = e.report o c f b d := by
  cases e with
  | body => rfl
  | task l options inner => rfl

/-- What happens behind the layers depends on the memory only through the descriptor. -/
theorem report_congr {o o' : Orchestrator} {c : Context} {b b' : Blueprint} {e e' : Ending}
    (f : BareFunction) (d : Draft) (shape : e.shape = e'.shape)
    (carried : c.configures = true → e.carried o.memory b = e'.carried o'.memory b')
    (session : o.session = o'.session) (scheduler : o.scheduler = o'.scheduler) :
    (e.report o c f b d).anonymous = (e'.report o' c f b' d).anonymous := by
  cases e with
  | body =>
    cases e' with
    | body => rfl
    | task l' options' inner' => cases shape
  | task l options inner =>
    cases e' with
    | body => cases shape
    | task l' options' inner' =>
      obtain ⟨rfl, innermost⟩ := Prod.mk.inj (Option.some.inj shape)
      unfold report
      dsimp only
      rw [innermost, session, scheduler]
      by_cases misplaced : ¬ inner'.isEmpty = true
      · rw [if_pos misplaced, if_pos misplaced]
      · rw [if_neg misplaced, if_neg misplaced]
        by_cases plain : ¬ c.configures = true
        · rw [if_pos plain, if_pos plain]
        · rw [if_neg plain, if_neg plain]
          have same : (l.delivered o.memory b).map (·.element) =
              (l'.delivered o'.memory b').map (·.element) := carried (Decidable.not_not.mp plain)
          cases here : l.delivered o.memory b with
          | none =>
            rw [here] at same
            rw [Option.map_eq_none_iff.mp same.symm]
          | some x =>
            rw [here] at same
            obtain ⟨y, there, element⟩ := Option.map_eq_some_iff.mp same.symm
            rw [there]
            exact o'.scheduler.accept_congr _ options d f element.symm

end Ending

end Congruence

section Entries

/-- Running a function is written down as a run, once its results have arrived. -/
theorem BareFunction.report_journal (f : BareFunction) (c : Context) (d : Draft) :
    (f.report c d).journal =
      ⟨[], [], [], if d.arrived then [⟨f.number, d.view c f.signature⟩] else []⟩ := by
  unfold report Draft.arrived
  cases (Dependency.resolve d.dependencies d.arguments).1 with
  | ok u => rfl
  | error e => rfl

/-- Running a hook is written down as a hook, if hooks are run. -/
theorem Scheduler.hookReport_journal (s : Scheduler) (hook : Option Hook) :
    (s.hookReport hook).journal = ⟨[], [], if s.runHooks then hook.toList else [], []⟩ := by
  unfold hookReport
  cases s.runHooks with
  | false => rfl
  | true =>
    cases hook with
    | none => rfl
    | some h => rfl

/-- A body that is run has its results and sees them. -/
theorem BareFunction.mem_report_runs {f : BareFunction} {c : Context} {d : Draft} {x : BodyRun}
    (h : x ∈ (f.report c d).journal.runs) :
    (Dependency.resolve d.dependencies d.arguments).1 = .ok () ∧
      x.view = d.view c f.signature := by
  cases resolved : (Dependency.resolve d.dependencies d.arguments).1 with
  | error e =>
    rw [f.report_of_error c resolved] at h
    cases h
  | ok u =>
    rw [f.report_of_ok c resolved] at h
    rw [List.mem_singleton.mp h]
    exact ⟨rfl, rfl⟩

namespace Scheduler

variable {s : Scheduler} {nesting : Bool} {r : TaskRequest} {f : BareFunction}

/-- A task that is handed in is the only one that is registered. -/
theorem mem_accept_registrations {x : Registration}
    (h : x ∈ (s.accept nesting r f).journal.registrations) : x = entry r f.signature := by
  unfold accept at h
  have split (i j : Journal) : (i ++ j).registrations = i.registrations ++ j.registrations := rfl
  rcases Outcome.mem_bind split h with validated | ⟨_, _, h⟩
  · cases validated
  rcases Outcome.mem_bind split h with entered | ⟨_, _, h⟩
  · exact List.mem_singleton.mp entered
  rcases Outcome.mem_bind split h with resolved | ⟨_, _, h⟩
  · cases resolved
  rcases Outcome.mem_bind split h with prolog | ⟨_, _, h⟩
  · rw [hookReport_journal] at prolog
    cases prolog
  rcases Outcome.mem_bind split h with body | ⟨_, _, h⟩
  · rw [BareFunction.report_journal] at body
    cases body
  rcases Outcome.mem_bind split h with epilog | ⟨_, _, h⟩
  · rw [hookReport_journal] at epilog
    cases epilog
  cases h

/-- The body of a task has the results that the task waits for and sees them, in the frame of the
task. -/
theorem mem_accept_runs {x : BodyRun} (h : x ∈ (s.accept nesting r f).journal.runs) :
    (Dependency.resolve r.dependencies r.arguments).1 = .ok () ∧
      x.view = (workerDraft r (Dependency.resolve r.dependencies r.arguments).2).view
        ⟨.worker, nesting⟩ f.signature := by
  unfold accept at h
  have split (i j : Journal) : (i ++ j).runs = i.runs ++ j.runs := rfl
  rcases Outcome.mem_bind split h with validated | ⟨_, _, h⟩
  · cases validated
  rcases Outcome.mem_bind split h with entered | ⟨_, _, h⟩
  · cases entered
  rcases Outcome.mem_bind split h with resolved | ⟨_, resolved, h⟩
  · cases resolved
  rcases Outcome.mem_bind split h with prolog | ⟨_, _, h⟩
  · rw [hookReport_journal] at prolog
    cases prolog
  rcases Outcome.mem_bind split h with body | ⟨_, _, h⟩
  · exact ⟨resolved, (BareFunction.mem_report_runs body).2⟩
  rcases Outcome.mem_bind split h with epilog | ⟨_, _, h⟩
  · rw [hookReport_journal] at epilog
    cases epilog
  cases h

end Scheduler

end Entries

section Runs

open Change Procedure

theorem resolveDependencies_runOn (s : Situation) :
    resolveDependencies.runOn s =
      ((Dependency.resolve s.call.dependencies s.call.arguments).1,
        { s with call := { s.call with
          dependencies := []
          arguments := (Dependency.resolve s.call.dependencies s.call.arguments).2 } }) := by
  unfold resolveDependencies
  rw [runOn_get_bind, runOn_bind_ok (runOn_modifyCall _ s), runOn_ofExcept]

/-- A body leaves its run behind, and the marks of the layers around it. -/
theorem BareFunction.invoke_effectOn (f : BareFunction) (s : Situation) :
    f.invoke.effectOn s =
      ((f.report s.call.context s.draft).result,
        { s.host with
          journal := s.host.journal ++ (f.report s.call.context s.draft).journal
          memory := if s.draft.arrived then s.host.memory.configure s.call.deferred
            else s.host.memory }) := by
  have waited := resolveDependencies_runOn s
  unfold invoke
  cases resolved : (Dependency.resolve s.call.dependencies s.call.arguments).1 with
  | error e =>
    rw [resolved] at waited
    rw [effectOn_bind_error (effectOn_of_runOn waited),
      f.report_of_error s.call.context (d := s.draft) resolved,
      if_neg (Draft.not_arrived_of_error (d := s.draft) resolved), Journal.append_empty]
  | ok u =>
    rw [resolved] at waited
    rw [effectOn_bind_ok waited, f.report_of_ok s.call.context (d := s.draft) resolved,
      if_pos (Draft.arrived_of_ok (d := s.draft) resolved)]
    -- Between the wait and the body, the layers are marked and the run is recorded.
    let t : Situation :=
      { call := { s.call with
          dependencies := []
          arguments := (Dependency.resolve s.call.dependencies s.call.arguments).2
          deferred := []
          holdsConfiguration := false }
        host := { s.host with
          journal := { s.host.journal with runs := s.host.journal.runs ++
            [⟨f.number, s.draft.view s.call.context f.signature⟩] }
          memory := s.host.memory.configure s.call.deferred } }
    change effectOn (Change.ofExcept (f.body (s.draft.view s.call.context f.signature))) t = _
    rw [effectOn_of_runOn (runOn_ofExcept _ t)]
    simp [t, Journal.append_def, Journal.ofRun]

namespace Scheduler

theorem runHook_runOn (hook : Option Hook) (s : Situation) :
    (runHook hook).runOn s =
      ((s.host.scheduler.hookReport hook).result,
        s.note (s.host.scheduler.hookReport hook).journal) := by
  unfold runHook hookReport
  rw [runOn_get_bind]
  cases s.host.scheduler.runHooks with
  | false => exact runOn_pure_note () s
  | true =>
    cases hook with
    | none => exact runOn_pure_note () s
    | some h =>
      refine runOn_bind_note (q := Outcome.note (.ofHook h)) ?_ fun _ => runOn_ofExcept_note _ _
      rw [runOn_modifyHost]
      simp [Outcome.note, Situation.note, Journal.append_def, Journal.ofHook,
        Orchestrator.recordHook]

/-- The body of a task runs on a call of its own and leaves nothing but its run behind. -/
theorem inCall_runOn (f : BareFunction) (c : Context) (r : TaskRequest) (a : Arguments)
    (s : Situation) :
    (inCall ((Call.start c a).withFrame r.frame) f.invoke).runOn s =
      ((f.report c (workerDraft r a)).result, s.note (f.report c (workerDraft r a)).journal) := by
  have called := f.invoke_effectOn { s with call := (Call.start c a).withFrame r.frame }
  change f.invoke.effectOn _ = ((f.report c (workerDraft r a)).result,
    { s.host with
      journal := s.host.journal ++ (f.report c (workerDraft r a)).journal
      memory := s.host.memory.configure [] }) at called
  rw [Memory.configure_nil] at called
  have ended : (inCall ((Call.start c a).withFrame r.frame) f.invoke).runOn s =
      ((f.invoke.effectOn { s with call := (Call.start c a).withFrame r.frame }).1,
        { s with
          host := (f.invoke.effectOn { s with call := (Call.start c a).withFrame r.frame }).2 }) :=
    runOn_inCall _ _ s
  rw [ended, called]
  rfl

/-- A task that is handed in goes the way of `accept`. -/
theorem register_runOn (r : TaskRequest) (f : BareFunction) (s : Situation) :
    (register r f).runOn s =
      ((s.host.scheduler.accept s.host.session.context.nesting r f).result,
        s.note (s.host.scheduler.accept s.host.session.context.nesting r f).journal) := by
  unfold register accept
  rw [runOn_get_bind]
  dsimp only
  cases s.host.scheduler.validate f.signature.qualifiedName r.descriptor.element with
  | error e => exact runOn_ofExcept_note (.error (.registration e)) s
  | ok u =>
    refine Eq.trans ?_ (congrArg (fun p : Outcome Value => (p.result, s.note p.journal))
      (Outcome.ofExcept_ok_bind () _).symm)
    refine runOn_bind_note (q := Outcome.note (.ofRegistration (entry r f.signature))) ?_ ?_
    · rw [runOn_modifyHost]
      simp [Outcome.note, Situation.note, Journal.append_def, Journal.ofRegistration,
        Orchestrator.recordRegistration, entry]
    intro _
    refine runOn_bind_note (runOn_ofExcept_note _ _) ?_
    intro _
    refine runOn_bind_note (runHook_runOn r.descriptor.element.prolog _) ?_
    intro _
    refine runOn_bind_note (inCall_runOn f _ r _ _) ?_
    intro v
    refine runOn_bind_note (runHook_runOn r.descriptor.element.epilog _) ?_
    intro _
    exact runOn_pure_note v _

end Scheduler

namespace Layer

/-- A task hands over its descriptor, or the one its layer keeps. -/
theorem freeze_runOn {l : Layer} {s : Situation} {descriptor : Descriptor} (f : Signature)
    (h : l.delivered s.host.memory s.blueprint = some descriptor) :
    (l.freeze f).runOn s =
      (.ok descriptor,
        { call := { s.call with element := none }
          host := { s.host with memory := l.keep s.host.memory s.blueprint } }) := by
  unfold delivered at h
  unfold freeze keep
  rw [runOn_get_bind]
  change (match s.call.element with
    | some e => some (s.host.memory.finish l.id e).1
    | none => s.host.memory.descriptor l.id) = some descriptor at h
  change _ = (Except.ok descriptor,
    (⟨{ s.call with element := none }, { s.host with memory := match s.call.element with
      | some e => (s.host.memory.finish l.id e).2
      | none => s.host.memory }⟩ : Situation))
  cases element : s.call.element with
  | some e =>
    rw [element] at h
    obtain rfl := Option.some.inj h
    rfl
  | none =>
    rw [element] at h
    dsimp only at h ⊢
    rw [h, ← element]
    rfl

theorem freeze_effectOn_none {l : Layer} {s : Situation} (f : Signature)
    (h : l.delivered s.host.memory s.blueprint = none) :
    (l.freeze f).effectOn s =
      (.error (.registration (.noDescriptor f.qualifiedName)), s.host) := by
  unfold delivered at h
  unfold freeze
  rw [effectOn_bind_ok (runOn_get s)]
  change (match s.call.element with
    | some e => some (s.host.memory.finish l.id e).1
    | none => s.host.memory.descriptor l.id) = none at h
  cases element : s.call.element with
  | some e =>
    rw [element] at h
    cases h
  | none =>
    rw [element] at h
    dsimp only at h ⊢
    rw [h]
    rfl

end Layer

/-- What a call has arrived at leaves behind the entries of its report and the configuration it
has finished. -/
theorem Ending.run_effectOn (f : BareFunction) (e : Ending) (s : Situation) :
    (e.run f).effectOn s =
      ((e.report s.host s.call.context f s.blueprint s.draft).result,
        { s.host with
          journal := s.host.journal ++
            (e.report s.host s.call.context f s.blueprint s.draft).journal
          memory := e.memory s.host.memory s.call.context s.blueprint s.draft }) := by
  cases e with
  | body => exact f.invoke_effectOn s
  | task l options inner =>
    unfold run report memory
    dsimp only
    unfold Layer.perform
    rw [effectOn_bind_ok (runOn_get s)]
    by_cases misplaced : ¬ inner.isEmpty = true
    · rw [if_pos misplaced, if_pos misplaced, if_pos misplaced]
      change _ = (_, { s.host with journal := s.host.journal ++ Journal.empty })
      rw [Journal.append_empty]
      rfl
    · rw [if_neg misplaced, if_neg misplaced, if_neg misplaced]
      by_cases plain : ¬ s.call.context.configures = true
      · rw [if_pos plain, if_pos plain, if_pos plain]
        exact f.invoke_effectOn s
      · rw [if_neg plain, if_neg plain, if_neg plain]
        cases delivery : l.delivered s.host.memory s.blueprint with
        | none =>
          rw [effectOn_bind_error (Layer.freeze_effectOn_none f.signature delivery)]
          change _ = (_, { s.host with journal := s.host.journal ++ Journal.empty })
          rw [Journal.append_empty]
          rfl
        | some descriptor =>
          rw [effectOn_bind_ok (Layer.freeze_runOn f.signature delivery)]
          refine Eq.trans (effectOn_of_runOn (Scheduler.register_runOn
            (.ofDraft descriptor options s.draft) f
            { call := { s.call with
                element := none, deferred := [], holdsConfiguration := false, dependencies := [] }
              host := { s.host with
                memory := (l.keep s.host.memory s.blueprint).configure s.call.deferred } })) ?_
          rfl

end Runs

end TaskDecoration
