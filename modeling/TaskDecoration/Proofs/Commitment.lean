import TaskDecoration.Proofs.Failure

/-!
# All or nothing

The layers of a function are marked together or not at all, and the task keeps a descriptor
exactly if they are marked, and a complete one (`Memory.Consistent`). A call that stops halfway
leaves no traces, so this holds after any history of calls. It follows that a task is never
registered without a descriptor or with one that lacks an implementation.
-/

set_option autoImplicit false

namespace TaskDecoration

/-- The number of type-arguments that a kind of implementation has. -/
def ImplementationKind.arity : ImplementationKind → Nat
  | method => 2
  | binary => 4
  | ompss => 3
  | mpi => 8
  | compss => 6
  | decaf => 6
  | multiNode => 0
  | container => 7

/-- The primary field-set is there, with as many type-arguments as the kind has. -/
structure Element.Whole (e : Element) : Prop where
  kind : ∃ kind, e.kind = some kind ∧ e.typeArguments.length = kind.arity
  signature : ∃ signature, e.signature = some signature
  owner : ∃ owner, e.owner = some owner

/-- What is remembered of the layers of a function: they have the same mark, the innermost one
keeps a descriptor exactly if it is a task and they are marked, and what is kept is complete. -/
structure Memory.Consistent (m : Memory) (ls : List Layer) : Prop where
  marks : ∀ l ∈ ls, ∀ l' ∈ ls, m.configured l.id = m.configured l'.id
  kept : ∀ l, ls.getLast? = some l → l.decoration.isTask = true →
    (m.configured l.id = true ↔ ∃ d, m.descriptor l.id = some d)
  whole : ∀ l ∈ ls, ∀ d, m.descriptor l.id = some d → d.element.Whole

/-- A transform that is due in a call, or a body that has run, fails with an error. -/
def TaskFunction.Foreign (f : TaskFunction) (r : Request) (o : Orchestrator) (e : TaskError) :
    Prop :=
  Substitution.SomeFails o.registry ((f.due r).flatMap Decoration.substitutions) e ∨
    ∃ x ∈ (f.outcome r o).journal.runs, f.base.body x.view = .error e

section Arities

theorem PrimaryKind.length_layout (k : PrimaryKind) :
    k.layout.length = k.implementation.arity := by
  cases k <;> rfl

/-- Each entry of a layout gives one type-argument. -/
theorem Entry.length_of_mapM {label : String} {a : Arguments} {entries : List Entry}
    {texts : List String} (read : entries.mapM (Entry.read label a) = .ok texts) :
    texts.length = entries.length := by
  induction entries generalizing texts with
  | nil =>
    cases read
    rfl
  | cons entry entries ih =>
    rw [List.mapM_cons] at read
    obtain ⟨text, _, read⟩ := Except.bind_eq_ok_iff.mp read
    obtain ⟨rest, later, read⟩ := Except.bind_eq_ok_iff.mp read
    cases read
    rw [List.length_cons, List.length_cons, ih later]

theorem PrimaryFields.length_completed (x : PrimaryFields) (f : Signature) :
    (x.completed f).typeArguments.length = x.typeArguments.length := by
  unfold completed
  split
  · simp
  · rfl

/-- A descriptor of a task inside other annotations has a whole field-set. -/
theorem Element.Describes.whole {e : Element} {f : Signature} {as : List Decoration}
    {options : TaskOptions} (h : e.Describes f as options) : e.Whole := by
  rcases h.primary with ⟨_, method⟩ | ⟨p, fields, _, written, completed⟩
  · have fields := PrimaryFields.mk.inj method
    refine ⟨⟨_, fields.1, ?_⟩, ⟨_, fields.2.1⟩, ⟨_, fields.2.2.2⟩⟩
    rw [fields.2.2.1]
    rfl
  · have length := fields.length_completed f
    obtain ⟨typeArguments, signature, read, _, rfl⟩ := Primary.fields_ok written
    have arity : e.typeArguments.length = p.kind.implementation.arity := by
      rw [← p.kind.length_layout, ← Entry.length_of_mapM read]
      exact (congrArg (fun x => x.typeArguments.length) completed).trans length
    have others : e.kind = some p.kind.implementation ∧ e.signature = some signature ∧
        e.owner = some p.kind.name := by
      unfold PrimaryFields.completed at completed
      split at completed
      · obtain ⟨kind, named, -, owner⟩ := PrimaryFields.mk.inj completed
        exact ⟨kind, named, owner⟩
      · obtain ⟨kind, named, -, owner⟩ := PrimaryFields.mk.inj completed
        exact ⟨kind, named, owner⟩
    exact ⟨⟨_, others.1, arity⟩, ⟨_, others.2.1⟩, ⟨_, others.2.2⟩⟩

end Arities

theorem Hook.judge_error {h : Hook} {env : Environment} {cause : HookFailure} {e : TaskError}
    (failed : h.judge env cause = .error e) : e = .hook h.binary cause := by
  unfold judge at failed
  split at failed
  · cases failed
    rfl
  · cases failed

/-- Hooks fail in a way of their own. -/
theorem Hook.run_error {h : Hook} {env : Environment} {e : TaskError}
    (failed : h.run env = .error e) : ∃ binary cause, e = .hook binary cause := by
  unfold run at failed
  split at failed
  · cases failed
    exact ⟨_, _, rfl⟩
  · cases failed
  · exact ⟨_, _, judge_error failed⟩
  · exact ⟨_, _, judge_error failed⟩

/-- A task that is the innermost layer of layers in order is where calls arrive. -/
theorem ending_of_getLast? {ls : List Layer} {l : Layer}
    (ordered : Decoration.Ordered (ls.map (·.decoration))) (last : ls.getLast? = some l)
    (task : l.decoration.isTask = true) : ∃ options, ending ls = .task l options [] := by
  cases arrival : ending ls with
  | body =>
    have none := ending_eq_body_iff.mp arrival l (List.mem_of_getLast? last)
    cases none.symm.trans task
  | task l' options inner =>
    obtain rfl := ordered_iff.mp ordered l' options inner arrival
    cases last.symm.trans (getLast?_of_ending arrival)
    exact ⟨options, rfl⟩

theorem Memory.Consistent.of_untouched {m : Memory} {ls : List Layer}
    (untouched : m.Untouched ls) : m.Consistent ls := by
  refine ⟨fun l hl l' hl' => ?_, fun l last _ => ?_, fun l hl d kept => ?_⟩
  · rw [(untouched l hl).1, (untouched l' hl').1]
  · simp [untouched l (List.mem_of_getLast? last)]
  · cases (untouched l hl).2.symm.trans kept

namespace TaskFunction

variable {f : TaskFunction} {r : Request} {o : Orchestrator}

/-- Nothing but the task that calls arrive at keeps a descriptor. -/
theorem Solitary.arrival_of_kept (solitary : f.Solitary o) {l : Layer} (hl : l ∈ f.layers)
    {d : Descriptor} (kept : o.memory.descriptor l.id = some d) :
    ∃ task options inner, ending f.layers = .task task options inner ∧ task.id = l.id := by
  apply Classical.byContradiction
  intro other
  have none : o.memory.descriptor l.id = none := by
    refine solitary.invariant (P := fun m => m.descriptor l.id = none)
      (fun m untouched => (untouched l hl).2) (fun r o h => ?_)
      fun m m' same h => (same l hl).2.trans h
    rw [memoryAfter_descriptor fun task options inner arrival same =>
      other ⟨task, options, inner, arrival, same⟩]
    exact h
  cases none.symm.trans kept

/-- A function with layers inside a task never remembers anything. -/
theorem Solitary.untouched_of_disordered (solitary : f.Solitary o) (disordered : ¬ f.Ordered) :
    o.memory.Untouched f.layers :=
  solitary.invariant (P := fun m => m.Untouched f.layers) (fun _ untouched => untouched)
    (fun r o h => (memoryAfter_of_disordered disordered r o).symm ▸ h)
    fun _ _ same h => same.untouched h

/-- Where all layers are marked and the task keeps what they have written, that is whole. -/
theorem consistent_of_settled (ordered : f.Ordered)
    (settled : o.memory.Settled f.signature f.layers)
    (only : ∀ l ∈ f.layers, ∀ d, o.memory.descriptor l.id = some d →
      ∃ task options inner, ending f.layers = .task task options inner ∧ task.id = l.id) :
    o.memory.Consistent f.layers := by
  have innermost := ordered_iff.mp ordered
  have marked := settled.marked
  obtain ⟨e, written, keeps⟩ := settled.written
  rw [reached_eq_self innermost] at marked written
  have finished (l : Layer) (options : TaskOptions)
      (arrival : ending f.layers = .task l options []) :
      (∃ d, o.memory.descriptor l.id = some d ∧ d.element = e) ∧ e.Whole := by
    rw [arrival] at keeps
    refine ⟨Option.map_eq_some_iff.mp (keeps (Option.some_ne_none _)), ?_⟩
    obtain ⟨inner, arguments, layers, noTask⟩ := innermost_of_ending arrival
    rw [layers] at written
    exact (Decoration.configureAll_describes noTask written).whole
  refine ⟨fun l hl l' hl' => (marked l hl).trans (marked l' hl').symm, ?_, ?_⟩
  · intro l last task
    obtain ⟨options, arrival⟩ := ending_of_getLast? ordered last task
    obtain ⟨⟨d, kept, _⟩, _⟩ := finished l options arrival
    simp [marked l (List.mem_of_getLast? last), kept]
  · intro l hl d kept
    obtain ⟨task, options, inner, arrival, same⟩ := only l hl d kept
    obtain rfl := innermost task options inner arrival
    obtain ⟨⟨d', kept', rfl⟩, whole⟩ := finished task options arrival
    rw [same] at kept'
    cases kept'.symm.trans kept
    exact whole

/-- What a solitary function remembers of its layers fits together. -/
theorem consistent_of_solitary (solitary : f.Solitary o) : o.memory.Consistent f.layers := by
  by_cases ordered : f.Ordered
  · have only (l : Layer) (hl : l ∈ f.layers) (d : Descriptor) :=
      solitary.arrival_of_kept hl (d := d)
    rcases solitary.pristine_or_settled with pristine | settled
    · have unmarked := pristine.unmarked
      rw [reached_eq_self (ordered_iff.mp ordered)] at unmarked
      refine .of_untouched fun l hl => ⟨unmarked l hl, Option.eq_none_iff_forall_ne_some.mpr ?_⟩
      intro d kept
      obtain ⟨task, options, inner, arrival, same⟩ := only l hl d kept
      have none := pristine.kept
      rw [arrival] at none
      have nothing := Option.map_eq_none_iff.mp none
      rw [same] at nothing
      cases nothing.symm.trans kept
    · exact consistent_of_settled ordered settled only
  · exact .of_untouched (solitary.untouched_of_disordered ordered)

/-- After any history of calls of a function, its layers have configured together or not at all,
and its task keeps a whole descriptor exactly if they have. No call is turned down for want of a
descriptor or an implementation. -/
theorem configuration_all_or_nothing (solitary : f.Solitary o) :
    o.memory.Consistent f.layers ∧
      ∀ r cause, (∃ function, cause = .noDescriptor function ∨ cause = .noImplementation function) →
        (f.outcome r o).result = .error (.registration cause) →
        f.Foreign r o (.registration cause) := by
  refine ⟨consistent_of_solitary solitary, fun r cause wanting failed => ?_⟩
  cases origin_of_error failed with
  | layer refused => exact absurd rfl refused
  | transform failed => exact .inl failed
  | descriptor arrival configures missing =>
    obtain ⟨x, same, _⟩ := complete_of_solitary solitary arrival missing
    cases same
  | scheduler handed refused =>
    obtain ⟨_, _, l, options, _, _, arrival, configures, _, _⟩ := handed_eq_some handed
    have written := ((handed_iff arrival configures).mp ⟨_, handed, rfl, rfl⟩).1
    obtain ⟨x, same, complete⟩ := complete_of_solitary solitary arrival written
    obtain rfl := Option.some.inj same
    rcases o.scheduler.validate_cases f.signature.qualifiedName complete with
      ⟨valid, _⟩ | ⟨_, _, exceeds, _⟩
    · cases valid.symm.trans refused
    · cases exceeds.symm.trans refused
      obtain ⟨_, same | same⟩ := wanting <;> cases same
  | hook failed =>
    obtain ⟨_, _, same⟩ := Hook.run_error failed
    cases same
  | body ran failed => exact .inr ⟨_, ran, failed⟩

/-- A body that fails with such an error by itself. Its layers have configured by then. -/
theorem configuration_all_or_nothing_second_call :
    let refusal : TaskError := .registration (.noImplementation "m.f")
    let base : BareFunction := { BareFunction.echo with body := fun _ => .error refusal }
    let made := decorate [.primary ⟨.multiNode, .empty⟩, .task .empty .standard] (bare base) .master
    let r := Request.plain ⟨.master, false⟩ .empty
    let late := Event.replay (fun _ => made.1) [.call () r] made.2
    late.memory.Consistent made.1.layers ∧
      made.1.layers.map (fun l => late.memory.configured l.id) = [true, true] ∧
      made.1.Foreign r late refusal := by
  intro refusal base made r late
  have solitary : made.1.Solitary late :=
    (TaskFunction.Solitary.decorated Memory.tidy_fresh rfl).replay [.call () r]
  obtain ⟨consistent, foreign⟩ := configuration_all_or_nothing solitary
  exact ⟨consistent, rfl, foreign r _ ⟨"m.f", .inr rfl⟩ rfl⟩

end TaskFunction

end TaskDecoration
