import TaskDecoration.Proofs.Registration

/-!
# Master and worker

A worker runs the body of a task where its call has arrived, in the frames of the layers. A master
puts these frames into one, hands the task to its scheduler, and the body runs as a worker in a
call of its own. As long as no transformation is in the way, both leave the layers with the same
draft (`Draft.pass_quiet`), and `scopes_agree_iff` says that a body cannot tell where it runs: it
sees the same, so it gives the same result. It only has to run. A master refuses tasks that have no
descriptor, which happens to functions that share layers with others (`scopes_disagree`).
-/

set_option autoImplicit false

namespace TaskDecoration

/-- A function whose body looks at nothing but what it can see. -/
def BareFunction.ofSight (number : Nat) (signature : Signature)
    (body : Sight → Except TaskError Value) : BareFunction :=
  ⟨number, signature, fun v => body v.sight⟩

/-- The same call in another context. -/
def Request.within (r : Request) (c : Context) : Request := { r with context := c }

namespace Outcome

/-- A call has ended before its body ran: the annotations do not fit together, or the task asks
for more computing units than there are. -/
def TurnedDown (p : Outcome Value) : Prop :=
  p.journal.runs = [] ∧
    ((∃ e, p.result = .error (.configuration e)) ∨
      ∃ function requested available,
        p.result = .error (.registration (.overCapacity function requested available)))

/-- A call has ended before its body ran, because its task has no descriptor or one without an
implementation. -/
def Undescribed (p : Outcome Value) : Prop :=
  p.journal.runs = [] ∧
    ((∃ function, p.result = .error (.registration (.noDescriptor function))) ∨
      ∃ function, p.result = .error (.registration (.noImplementation function)))

/-- Two calls give the same result, and their bodies have seen the same. -/
structure Alike (p q : Outcome Value) : Prop where
  result : p.result = q.result
  runs : ∃ x y, p.journal.runs = [x] ∧ q.journal.runs = [y] ∧ x.view.sight = y.view.sight

end Outcome

/-- The annotation transforms no arguments. -/
def Decoration.Quiet (x : Decoration) : Prop := ∀ specs, x ≠ .dataTransformation specs

/-- What an annotation stands for transforms no arguments unless it does. -/
theorem Decoration.quiet_layers {x y : Decoration} (quiet : x.Quiet) (member : y ∈ x.layers) :
    y.Quiet := by
  cases x with
  | software arguments description =>
    rintro specs rfl
    simp [layers] at member
  | dataTransformation specs => exact absurd rfl (quiet specs)
  | _ =>
    rw [List.mem_singleton.mp member]
    exact quiet

/-- A draft behind annotations that transform nothing. They hand in numbers of computing nodes and
open frames. -/
def Draft.descend (d : Draft) (xs : List Decoration) : Draft :=
  xs.foldl (fun d x => (d.supply x.nodes?).openFrame x.keepsMarks) d

section Descending

variable {c : Context} {registry : Dict Transform} {f : Signature} {m : Memory}

theorem Draft.prepare_quiet {x : Decoration} (quiet : x.Quiet) (d : Draft) :
    d.prepare c registry f x = (.ok (), d.supply x.nodes?) := by
  cases x with
  | dataTransformation specs => exact absurd rfl (quiet specs)
  | _ => rfl

/-- Annotations that transform nothing let every draft pass, in whatever context. -/
theorem Draft.pass_quiet {xs : List Decoration} (admitted : c.admitsCalls = true)
    (quiet : ∀ x ∈ xs, x.Quiet) (d : Draft) :
    d.pass c registry f xs = (.ok (), d.descend xs) := by
  induction xs generalizing d with
  | nil => rfl
  | cons x xs ih =>
    have here : d.prepare c registry f x = (.ok (), d.supply x.nodes?) :=
      Draft.prepare_quiet (quiet x List.mem_cons_self) d
    exact pass_cons_iff.mpr
      ⟨admitted, _, here, ih (fun y hy => quiet y (List.mem_cons_of_mem x hy)) _⟩

theorem Draft.descend_dependencies (d : Draft) (xs : List Decoration) :
    (d.descend xs).dependencies = d.dependencies := by
  induction xs generalizing d with
  | nil => rfl
  | cons x xs ih =>
    exact (ih _).trans (d.supply_dependencies x.nodes?)

/-- Where layers transform nothing and their configuration is not refused, a walk goes through. -/
theorem walk_quiet {ls : List Layer} {b b' : Blueprint} (admitted : c.admitsCalls = true)
    (quiet : ∀ l ∈ ls, l.decoration.Quiet) (drawn : drawUp m c f ls b = .ok b') (d : Draft) :
    walk m c registry f ls b d = (.ok b', d.descend (ls.map (·.decoration))) := by
  have quiet' : ∀ x ∈ ls.map (·.decoration), x.Quiet := by simpa using quiet
  rw [walk_of_drawUp d drawn, Draft.pass_quiet admitted quiet']
  rfl

/-- If it is refused, that is what the walk ends with. -/
theorem walk_quiet_refused {ls : List Layer} {b : Blueprint} {e : ConfigurationError}
    (admitted : c.admitsCalls = true) (quiet : ∀ l ∈ ls, l.decoration.Quiet)
    (drawn : drawUp m c f ls b = .error e) (d : Draft) :
    ∃ d', walk m c registry f ls b d = (.error (.configuration e), d') := by
  induction ls generalizing b d with
  | nil => cases drawn
  | cons l ls ih =>
    rw [drawUp_cons] at drawn
    rw [walk, if_pos admitted]
    cases written : l.contribute m c f b with
    | error e' =>
      rw [written] at drawn
      cases drawn
      exact ⟨d, rfl⟩
    | ok b₁ =>
      rw [written] at drawn
      rw [Draft.prepare_quiet (quiet l List.mem_cons_self)]
      exact ih (fun x hx => quiet x (List.mem_cons_of_mem l hx)) drawn _

end Descending

theorem Outcome.bind_pure {α : Type} (p : Outcome α) : (p >>= fun x => pure x) = p := by
  cases h : p.result with
  | ok x =>
    rw [bind_ok h]
    change (⟨.ok x, p.journal ++ .empty⟩ : Outcome α) = p
    rw [Journal.append_empty, ← h]
  | error e =>
    rw [bind_error h, ← h]

section Arriving

variable {f : BareFunction} {c : Context} {d : Draft}

/-- A body that waits for nothing runs. -/
theorem BareFunction.report_of_free (f : BareFunction) (c : Context) (free : d.dependencies = []) :
    f.report c d = ⟨f.body ⟨f.signature, c, d.arguments, d.frames⟩,
      .ofRun ⟨f.number, ⟨f.signature, c, d.arguments, d.frames⟩⟩⟩ := by
  have resolved : Dependency.resolve d.dependencies d.arguments = (.ok (), d.arguments) := by
    rw [free]
    rfl
  rw [f.report_of_ok c (congrArg Prod.fst resolved)]
  unfold Draft.view
  rw [resolved]

/-- Without hooks, a task that waits for nothing is its body, run as a worker in the frame of the
task. -/
theorem Scheduler.accept_of_free {s : Scheduler} {q : TaskRequest} (nesting : Bool)
    (valid : s.validate f.signature.qualifiedName q.descriptor.element = .ok ())
    (off : s.runHooks = false) (free : q.dependencies = []) :
    (s.accept nesting q f).result =
        f.body ⟨f.signature, ⟨.worker, nesting⟩, q.arguments, [q.frame]⟩ ∧
      (s.accept nesting q f).journal.runs =
        [⟨f.number, ⟨f.signature, ⟨.worker, nesting⟩, q.arguments, [q.frame]⟩⟩] := by
  have silent (hook : Option Hook) : s.hookReport hook = .ofExcept (.ok ()) := by
    unfold hookReport
    rw [off]
    rfl
  have body := f.report_of_free ⟨.worker, nesting⟩ (d := workerDraft q q.arguments) rfl
  have noted : s.accept nesting q f = (Outcome.note (.ofRegistration (entry q f.signature)) >>=
      fun _ => f.report ⟨.worker, nesting⟩ (workerDraft q q.arguments)) := by
    unfold accept
    rw [valid, free]
    change (Outcome.ofExcept (.ok ()) >>= fun _ => Outcome.note _ >>= fun _ =>
      Outcome.ofExcept (.ok ()) >>= fun _ => s.hookReport _ >>= fun _ =>
      f.report _ (workerDraft q q.arguments) >>= fun v => s.hookReport _ >>= fun _ => pure v) = _
    simp only [silent, Outcome.ofExcept_ok_bind, Outcome.bind_pure]
  rw [noted, Outcome.bind_ok (x := ()) rfl, body]
  exact ⟨rfl, rfl⟩

end Arriving

namespace TaskFunction

section Routes

variable {f : TaskFunction} {inner : List Decoration} {arguments : Arguments}
  {options : TaskOptions} {r : Request} {o : Orchestrator} {l : Layer}

/-- The draft with which a call arrives at a task whose other annotations transform nothing. -/
def arriving (f : TaskFunction) (r : Request) : Draft :=
  r.draft.descend (f.layers.map (·.decoration))

theorem arriving_dependencies (f : TaskFunction) (r : Request) :
    (f.arriving r).dependencies = [] :=
  r.draft.descend_dependencies _

/-- A worker runs the body in the frames of the layers. -/
theorem report_of_worker (arrival : ending f.layers = .task l options [])
    (quiet : ∀ l ∈ f.layers, l.decoration.Quiet) (r : Request) (o : Orchestrator) :
    let v : View := ⟨f.base.signature, ⟨.worker, false⟩, (f.arriving r).arguments,
      (f.arriving r).frames⟩
    (f.outcome (r.within ⟨.worker, false⟩) o).result = f.base.body v ∧
      (f.outcome (r.within ⟨.worker, false⟩) o).journal.runs = [⟨f.base.number, v⟩] := by
  intro v
  have all := reached_of_ending arrival
  have plain : ¬ (r.within ⟨.worker, false⟩).context.configures = true := Bool.false_ne_true
  have crossing : f.cross (r.within ⟨.worker, false⟩) o = (.ok .blank, f.arriving r) := by
    unfold TaskFunction.cross
    rw [all]
    exact walk_quiet rfl quiet (drawUp_plain plain _ _) _
  have body := f.base.report_of_free ⟨.worker, false⟩ (f.arriving_dependencies r)
  rw [outcome_eq, report_of_cross crossing, arrival, Ending.report_plain plain]
  change (f.base.report ⟨.worker, false⟩ (f.arriving r)).result = _ ∧
    [] ++ (f.base.report ⟨.worker, false⟩ (f.arriving r)).journal.runs = _
  rw [body]
  exact ⟨rfl, rfl⟩

/-- A master turns a call down, or runs the body as a worker in the frames of the layers, put into
one. -/
theorem report_of_master (arrival : ending f.layers = .task l options [])
    (quiet : ∀ l ∈ f.layers, l.decoration.Quiet)
    (session : o.session.context = ⟨.master, false⟩) (off : o.scheduler.runHooks = false)
    (r : Request) :
    let p := f.outcome (r.within ⟨.master, false⟩) o
    let v : View := ⟨f.base.signature, ⟨.worker, false⟩, (f.arriving r).arguments,
      [Frame.collapse (f.arriving r).frames]⟩
    p.TurnedDown ∨
      (p.Undescribed ∧ ∃ y, f.descriptor? o = .ok y ∧
        ∀ x, y = some x → ¬ x.element.isComplete = true) ∨
      (p.result = f.base.body v ∧ p.journal.runs = [⟨f.base.number, v⟩]) := by
  intro p v
  have all := reached_of_ending arrival
  have configures : (r.within ⟨.master, false⟩).context.configures = true := rfl
  have outcome : p = (f.report (r.within ⟨.master, false⟩) o).anonymous := outcome_eq f _ o
  cases drawn : drawUp o.memory ⟨.master, false⟩ f.signature f.layers .blank with
  | error e =>
    have crossed : ∃ d, f.cross (r.within ⟨.master, false⟩) o =
        (.error (.configuration e), d) := by
      unfold TaskFunction.cross
      rw [all]
      exact walk_quiet_refused rfl quiet drawn r.draft
    obtain ⟨d, crossing⟩ := crossed
    rw [outcome, report_of_stopped crossing]
    exact .inl ⟨rfl, .inl ⟨e, rfl⟩⟩
  | ok b =>
    have crossing : f.cross (r.within ⟨.master, false⟩) o = (.ok b, f.arriving r) := by
      unfold TaskFunction.cross
      rw [all]
      exact walk_quiet rfl quiet drawn _
    have written : f.descriptor? o = .ok (l.delivered o.memory b) :=
      (descriptor?_eq_ok_iff (r := r.within ⟨.master, false⟩) arrival configures).mpr
        ⟨b, drawn, rfl⟩
    cases delivered : l.delivered o.memory b with
    | none =>
      rw [delivered] at written
      rw [outcome, report_of_cross crossing, arrival, Ending.report_missing configures delivered]
      exact .inr (.inl ⟨⟨rfl, .inl ⟨_, rfl⟩⟩, none, written, fun x same => nomatch same⟩)
    | some x =>
      have handed := handed_of_delivered arrival configures crossing delivered
      rw [outcome, report_of_handed handed]
      by_cases complete : x.element.isComplete = true
      · rcases o.scheduler.validate_cases f.signature.qualifiedName complete with
          ⟨valid, _⟩ | ⟨requested, available, refused, _⟩
        · rw [session]
          have ran := Scheduler.accept_of_free (q := .ofDraft x options (f.arriving r)) false
            valid off (f.arriving_dependencies r)
          exact .inr (.inr ⟨ran.1, (List.nil_append _).trans ran.2⟩)
        · rw [Scheduler.accept_refused refused]
          exact .inl ⟨rfl, .inr ⟨_, requested, available, rfl⟩⟩
      · have refused : o.scheduler.validate f.signature.qualifiedName x.element =
            .error (.noImplementation f.signature.qualifiedName) := if_neg complete
        rw [delivered] at written
        rw [Scheduler.accept_refused refused]
        refine .inr (.inl ⟨⟨rfl, .inr ⟨_, rfl⟩⟩, some x, written, ?_⟩)
        rintro _ ⟨⟩
        exact complete

end Routes

/-- A body has the same result in master and in worker scope, and sees the same, exactly if the
master does not lack a descriptor. It never does for a function whose layers have been called for
it alone. -/
theorem scopes_agree_iff {f : TaskFunction} {inner : List Decoration} {arguments : Arguments}
    {options : TaskOptions} {number : Nat} {signature : Signature}
    {body : Sight → Except TaskError Value} {master : Orchestrator}
    (base : f.base = .ofSight number signature body)
    (layers : f.layers.map (·.decoration) = inner ++ [.task arguments options])
    (plain : ∀ x ∈ inner, x.isTask = false ∧ x.Quiet)
    (session : master.session.context = ⟨.master, false⟩)
    (off : master.scheduler.runHooks = false) (r : Request)
    (proceeds : ¬ (f.outcome (r.within ⟨.master, false⟩) master).TurnedDown)
    (worker : Orchestrator) :
    let p := f.outcome (r.within ⟨.master, false⟩) master
    let q := f.outcome (r.within ⟨.worker, false⟩) worker
    (p.Alike q ↔ ¬ p.Undescribed) ∧ (f.Solitary master → p.Alike q) := by
  intro p q
  have quiet (l : Layer) (hl : l ∈ f.layers) : l.decoration.Quiet := by
    have member : l.decoration ∈ inner ++ [.task arguments options] :=
      layers ▸ List.mem_map_of_mem hl
    rcases List.mem_append.mp member with before | last
    · exact (plain _ before).2
    · rw [List.mem_singleton.mp last]
      exact fun specs same => nomatch same
  obtain ⟨-, l, arrival⟩ := ending_of_innermost layers fun x hx => (plain x hx).1
  obtain ⟨result, runs⟩ := report_of_worker arrival quiet r worker
  rcases report_of_master arrival quiet session off r with
    turned | ⟨missing, y, written, incomplete⟩ | ⟨result', runs'⟩
  · exact absurd turned proceeds
  · refine ⟨⟨fun alike => ?_, fun present => absurd missing present⟩, fun solitary => ?_⟩
    · obtain ⟨x, _, ran, _⟩ := alike.runs
      cases ran.symm.trans missing.1
    · obtain ⟨x, same, describes⟩ :=
        describes_of_solitary solitary layers (fun x hx => (plain x hx).1) written
      exact absurd describes.complete (incomplete x same)
  · have looks (v : View) : f.base.body v = body v.sight := by
      rw [base]
      rfl
    have sights := View.sight_collapse ⟨f.base.signature, ⟨.worker, false⟩,
      (f.arriving r).arguments, (f.arriving r).frames⟩
    have alike : p.Alike q := by
      refine ⟨?_, _, _, runs', runs, sights⟩
      rw [result, result', looks, looks]
      exact congrArg body sights
    refine ⟨⟨fun _ missing => ?_, fun _ => alike⟩, fun _ => alike⟩
    cases runs'.symm.trans missing.1

theorem scopes_agree_iff_nodes :
    let nodes : Decoration :=
      .primary ⟨.multiNode, ⟨[], Dict.empty.insert Name.computingNodes (.int 2)⟩⟩
    let body : Sight → Except TaskError Value := fun s =>
      .ok ((s.attributes Name.computingNodes).getD .null)
    let base := BareFunction.ofSight 0 (.ofParameters "m" "f" [⟨"x", none⟩]) body
    let made := decorate [nodes, .task .empty .standard] (bare base) .master
    let r := Request.plain ⟨.master, false⟩
      (Arguments.empty.push (.object [(Name.computingNodes, .int 1)]))
    (made.1.outcome (r.within ⟨.master, false⟩) made.2).Alike
      (made.1.outcome (r.within ⟨.worker, false⟩) .master) := by
  intro nodes body base made r
  have seen : made.1.base = .ofSight 0 (.ofParameters "m" "f" [⟨"x", none⟩]) body := rfl
  have layers : made.1.layers.map (·.decoration) = [nodes] ++ [.task .empty .standard] := rfl
  have plain : ∀ x ∈ [nodes], x.isTask = false ∧ x.Quiet := by
    intro x hx
    rw [List.mem_singleton.mp hx]
    exact ⟨rfl, fun specs same => nomatch same⟩
  have proceeds : ¬ (made.1.outcome (r.within ⟨.master, false⟩) made.2).TurnedDown :=
    fun turned => List.cons_ne_nil _ _ turned.1
  have solitary : made.1.Solitary made.2 :=
    .decorated Memory.tidy_fresh rfl
  exact (scopes_agree_iff seen layers plain rfl rfl r proceeds .master).2 solitary

/-- The task has been called by itself before, and keeps its mark. The layer outside it writes a
descriptor without an implementation then, and the body runs as a worker only. -/
theorem scopes_disagree :
    let units : Decoration := .constraint ⟨[], Dict.empty.insert "computing_units" (.int 1)⟩
    let f := decorate [.task .empty .standard] (bare .echo) .master
    let g := decorate [units] f.1 f.2
    let r := Request.plain ⟨.master, false⟩ (Arguments.empty.push (.int 2))
    let master := f.1.serve r g.2
    let p := g.1.outcome r master
    g.1.layers.map (·.decoration) = [units, .task .empty .standard] ∧
      master.session.context = ⟨.master, false⟩ ∧ master.scheduler.runHooks = false ∧
      ¬ p.TurnedDown ∧ p.result = .error (.registration (.noImplementation "m.f")) ∧
      (g.1.outcome (r.within ⟨.worker, false⟩) g.2).result = .ok (.list [.int 2]) := by
  intro units f g r master p
  have refused : p.result = .error (.registration (.noImplementation "m.f")) := rfl
  refine ⟨rfl, rfl, rfl, ?_, refused, rfl⟩
  rintro ⟨-, ⟨e, unfit⟩ | ⟨_, _, _, exceeding⟩⟩
  · cases refused.symm.trans unfit
  · cases refused.symm.trans exceeding

end TaskFunction

end TaskDecoration
