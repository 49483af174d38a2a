import TaskDecoration.Proofs.Descriptor
import TaskDecoration.Proofs.Sight

/-!
# Registrations

A call of a task makes one registration or none. `Accepted` says when it makes one, in terms of
the annotations, of what they remember and of the scheduler, and `Records` what is written down
then. Both are settled before any result of a unit arrives and before hooks and body run, so
`registration_exact` does not ask what becomes of these.
-/

set_option autoImplicit false

namespace TaskDecoration

/-- Annotations that run a program of its own, which cannot read marked strings. -/
def PrimaryKind.programs : List PrimaryKind :=
  [.binary, .ompss, .mpi, .compss, .decaf, .container]

/-- A task does not ask for more computing units than there are. -/
def Scheduler.Fits (s : Scheduler) (e : Element) : Prop :=
  ∀ available requested, s.maxComputingUnits = some available →
    (e.constraint? computingUnits).bind units? = some requested → requested ≤ available

namespace TaskFunction

/-- The descriptor with which a call is registered: the layers without a mark write a new one
together, and when all are marked, it is the one that the task keeps. -/
def descriptor? (f : TaskFunction) (o : Orchestrator) :
    Except ConfigurationError (Option Descriptor) :=
  if o.memory.unmarked f.layers = [] then
    .ok (f.layers.getLast?.bind fun l => o.memory.descriptor l.id)
  else
    (Decoration.configureAll f.signature ((o.memory.unmarked f.layers).map (·.decoration))
      .empty).map fun e => some ⟨o.memory.nextSerial, e⟩

/-- A call gets through all layers, with the arguments `a` and the descriptor `x`, and the
scheduler accepts it. -/
structure Accepted (f : TaskFunction) (r : Request) (o : Orchestrator) (x : Descriptor)
    (a : Arguments) : Prop where
  configured : f.descriptor? o = .ok (some x)
  prepared : Decoration.reviseAll o.registry f.signature (f.due r) r.arguments = .ok a
  distinct : (Decoration.targets (f.due r)).Nodup
  complete : x.element.isComplete = true
  fits : o.scheduler.Fits x.element

/-- What is written down of an accepted call. -/
structure Records (f : TaskFunction) (options : TaskOptions) (r : Request) (x : Descriptor)
    (a : Arguments) (e : Registration) : Prop where
  function : e.function = f.signature.moduleName ++ "." ++ f.signature.name
  descriptor : e.descriptor = x
  arguments : e.arguments = a
  pending : e.pending = (Decoration.awaited (f.due r)).map (·.parameter)
  options : e.options = { options with
    computingNodes := (a.get? Name.computingNodes).getD options.computingNodes }
  prependStrings : e.prependStrings = true ↔
    (∀ p, .primary p ∈ f.layers.map (·.decoration) → p.kind ∉ PrimaryKind.programs) ∧
      ∀ frame ∈ r.frames, frame.prependStrings = true

end TaskFunction

/-- A sequence of parts without entries has none. -/
theorem Outcome.entries_bind_nil {α β γ : Type} {entries : Journal → List γ}
    (split : ∀ i j, entries (i ++ j) = entries i ++ entries j) {p : Outcome α} {k : α → Outcome β}
    (first : entries p.journal = []) (rest : ∀ x, entries (k x).journal = []) :
    entries (p >>= k).journal = [] := by
  refine List.eq_nil_iff_forall_not_mem.mpr fun x hx => ?_
  rcases Outcome.mem_bind split hx with before | ⟨v, _, behind⟩
  · rw [first] at before
    cases before
  · rw [rest v] at behind
    cases behind

section Scheduling

variable {s : Scheduler} {nesting : Bool} {q : TaskRequest} {f : BareFunction}

namespace Scheduler

theorem validate_cases (s : Scheduler) (function : String) {e : Element}
    (complete : e.isComplete = true) :
    (s.validate function e = .ok () ∧ s.Fits e) ∨
      ∃ requested available,
        s.validate function e = .error (.overCapacity function requested available) ∧
          ¬ s.Fits e := by
  unfold validate Fits
  rw [if_pos complete]
  cases capacity : s.maxComputingUnits with
  | none => exact .inl ⟨rfl, fun _ _ limit => nomatch limit⟩
  | some available =>
    cases asked : (e.constraint? computingUnits).bind units? with
    | none => exact .inl ⟨rfl, fun _ _ _ request => nomatch request⟩
    | some requested =>
      dsimp only
      by_cases exceeds : available < requested
      · rw [if_pos exceeds]
        refine .inr ⟨requested, available, rfl, fun fits => ?_⟩
        have bound := fits available requested rfl rfl
        omega
      · rw [if_neg exceeds]
        refine .inl ⟨rfl, ?_⟩
        rintro _ _ ⟨⟩ ⟨⟩
        omega

/-- A scheduler accepts what has an implementation and fits. -/
theorem validate_ok_iff (s : Scheduler) (function : String) (e : Element) :
    s.validate function e = .ok () ↔ e.isComplete = true ∧ s.Fits e := by
  by_cases complete : e.isComplete = true
  · rcases s.validate_cases function complete with ⟨valid, fits⟩ | ⟨_, _, refused, exceeds⟩
    · simp [valid, complete, fits]
    · simp [refused, exceeds]
  · unfold validate
    rw [if_neg complete]
    simp [complete]

/-- A task that is accepted is written down once, whatever happens to it then. -/
theorem accept_registrations
    (valid : s.validate f.signature.qualifiedName q.descriptor.element = .ok ()) :
    (s.accept nesting q f).journal.registrations = [entry q f.signature] := by
  have split (i j : Journal) : (i ++ j).registrations = i.registrations ++ j.registrations := rfl
  unfold accept
  rw [valid]
  change (Outcome.ofExcept (.ok ()) >>= _).journal.registrations = _
  rw [Outcome.ofExcept_ok_bind, Outcome.bind_ok (x := ()) rfl, split]
  refine congrArg ([entry q f.signature] ++ ·) ?_
  refine Outcome.entries_bind_nil split rfl fun _ => ?_
  refine Outcome.entries_bind_nil split (by rw [hookReport_journal]) fun _ => ?_
  refine Outcome.entries_bind_nil split (by rw [f.report_journal]) fun _ => ?_
  exact Outcome.entries_bind_nil split (by rw [hookReport_journal]) fun _ => rfl

/-- A task that is turned down leaves nothing behind. -/
theorem accept_refused {e : RegistrationError}
    (refused : s.validate f.signature.qualifiedName q.descriptor.element = .error e) :
    s.accept nesting q f = ⟨.error (.registration e), .empty⟩ := by
  unfold accept
  rw [refused]
  exact Outcome.bind_error rfl

end Scheduler

end Scheduling

/-- The task that a call arrives at without meeting another layer inside is the innermost one. -/
theorem getLast?_of_ending {ls : List Layer} {l : Layer} {options : TaskOptions}
    (arrival : ending ls = .task l options []) : ls.getLast? = some l := by
  obtain ⟨outer, _, rfl, -⟩ := split_of_ending arrival
  exact List.getLast?_concat

/-- A call that arrives at an innermost task has gone through all layers. -/
theorem reached_of_ending {ls : List Layer} {l : Layer} {options : TaskOptions}
    (arrival : ending ls = .task l options []) : reached ls = ls := by
  obtain ⟨outer, _, rfl, -, -, layers⟩ := split_of_ending arrival
  exact layers

namespace TaskFunction

section Handing

variable {f : TaskFunction} {r : Request} {o : Orchestrator} {l : Layer} {options : TaskOptions}
  {x : Descriptor} {a : Arguments} {q : TaskRequest}

/-- The descriptor of a call is the one that its task hands over. -/
theorem descriptor?_eq_ok_iff {y : Option Descriptor}
    (arrival : ending f.layers = .task l options []) (configures : r.context.configures = true) :
    f.descriptor? o = .ok y ↔
      ∃ b, drawUp o.memory r.context f.signature f.layers .blank = .ok b ∧
        l.delivered o.memory b = y := by
  rw [drawUp_configures configures]
  unfold descriptor?
  by_cases marked : o.memory.unmarked f.layers = []
  · rw [if_pos marked, if_pos marked, getLast?_of_ending arrival]
    constructor
    · intro kept
      exact ⟨.blank, rfl, Except.ok.inj kept⟩
    · rintro ⟨_, ⟨⟩, kept⟩
      exact congrArg Except.ok kept
  · rw [if_neg marked, if_neg marked]
    change (Decoration.configureAll _ _ .empty).map _ = _ ↔
      ∃ b, (Decoration.configureAll _ _ .empty).map _ = _ ∧ _
    cases Decoration.configureAll f.signature
        ((o.memory.unmarked f.layers).map (·.decoration)) .empty with
    | error e => simp [Except.map]
    | ok e => simp [Except.map, Layer.delivered, Memory.finish]

/-- A call that has come through the layers hands in its task, given a descriptor. -/
theorem handed_of_delivered {b : Blueprint} {d : Draft}
    (arrival : ending f.layers = .task l options []) (configures : r.context.configures = true)
    (crossing : f.cross r o = (.ok b, d)) (delivered : l.delivered o.memory b = some x) :
    f.handed r o = some (.ofDraft x options d) := by
  unfold handed Ending.hand
  rw [crossing, arrival]
  dsimp only
  rw [if_pos configures, delivered]
  rfl

/-- A call hands in a task exactly if all layers can configure and prepare it. -/
theorem handed_iff (arrival : ending f.layers = .task l options [])
    (configures : r.context.configures = true) :
    (∃ q, f.handed r o = some q ∧ q.descriptor = x ∧ q.arguments = a) ↔
      f.descriptor? o = .ok (some x) ∧
        Decoration.reviseAll o.registry f.signature (f.due r) r.arguments = .ok a ∧
        (Decoration.targets (f.due r)).Nodup := by
  have all := reached_of_ending arrival
  constructor
  · rintro ⟨q, handed, rfl, rfl⟩
    obtain ⟨b, d, l', options', descriptor, crossing, arrival', _, delivered, rfl⟩ :=
      handed_eq_some handed
    cases arrival.symm.trans arrival'
    have drawn := drawUp_of_walk crossing
    rw [all] at drawn
    have revised := revised_of_cross crossing all
    exact ⟨(descriptor?_eq_ok_iff arrival configures).mpr ⟨b, drawn, delivered⟩, revised.arguments,
      revised.distinct.1⟩
  · rintro ⟨written, prepared, distinct⟩
    obtain ⟨b, drawn, delivered⟩ := (descriptor?_eq_ok_iff arrival configures).mp written
    obtain ⟨d, passed⟩ := Draft.exists_pass (Context.admitsCalls_of_configures configures)
      (d := r.draft) prepared distinct fun p _ claimed => absurd claimed List.not_mem_nil
    have crossing : f.cross r o = (.ok b, d) := by
      unfold TaskFunction.cross
      rw [all, walk_of_drawUp r.draft drawn, passed]
      rfl
    have arguments : d.arguments = a := by
      have same := (revised_of_cross crossing all).arguments
      exact Except.ok.inj (same.symm.trans prepared)
    exact ⟨_, handed_of_delivered arrival configures crossing delivered, rfl, arguments⟩

/-- What a call registers is the task that it hands in, if that is accepted. -/
theorem report_registrations (f : TaskFunction) (r : Request) (o : Orchestrator) :
    (∀ q, f.handed r o = some q →
      o.scheduler.validate f.signature.qualifiedName q.descriptor.element = .ok () →
      (f.report r o).journal.registrations = [Scheduler.entry q f.signature]) ∧
    ((∀ q, f.handed r o = some q →
      o.scheduler.validate f.signature.qualifiedName q.descriptor.element ≠ .ok ()) →
      (f.report r o).journal.registrations = []) := by
  have split (us : List UnitRecord) (j : Journal) :
      (Journal.ofUnits us ++ j).registrations = j.registrations := List.nil_append _
  constructor
  · intro q handed valid
    rw [report_of_handed handed, split]
    exact Scheduler.accept_registrations valid
  · intro refused
    refine List.eq_nil_iff_forall_not_mem.mpr fun x hx => ?_
    obtain ⟨q, handed, _⟩ := handed_of_mem_registrations hx
    cases validation : o.scheduler.validate f.signature.qualifiedName q.descriptor.element with
    | ok u => exact refused q handed validation
    | error e =>
      rw [report_of_handed handed, split, Scheduler.accept_refused validation] at hx
      cases hx

end Handing

end TaskFunction

/-- Strings keep their marks within annotations that run no program of its own. -/
theorem Decoration.all_keepsMarks_iff {xs : List Decoration} :
    xs.all (·.keepsMarks) = true ↔ ∀ p, .primary p ∈ xs → p.kind ∉ PrimaryKind.programs := by
  have kinds (k : PrimaryKind) : k.keepsMarks = true ↔ k ∉ PrimaryKind.programs := by
    cases k <;> decide
  rw [List.all_eq_true]
  constructor
  · intro keep p hp
    exact (kinds p.kind).mp (keep (.primary p) hp)
  · intro none x hx
    cases x with
    | primary p => exact (kinds p.kind).mpr (none p hx)
    | _ => rfl

/-- A call waits for the substitutions that are awaited, in their order. -/
theorem Draft.Revised.pending {registry : Dict Transform} {f : Signature} {xs : List Decoration}
    {d d' : Draft} (h : Revised registry f xs d d') :
    d'.dependencies.map (·.parameter) =
      d.dependencies.map (·.parameter) ++ (Decoration.awaited xs).map (·.parameter) := by
  obtain ⟨us, dependencies, serve⟩ := h.dependencies
  have parameters : us.map (·.parameter) = (Decoration.awaited xs).map (·.parameter) := by
    rw [← List.forall₂_eq_eq_eq, List.forall₂_map_left_iff, List.forall₂_map_right_iff]
    exact serve.imp fun u s serves => serves.parameter
  rw [dependencies, List.map_append, parameters]

/-- A descriptor of a task inside other annotations has an implementation. -/
theorem Element.Describes.complete {e : Element} {f : Signature} {as : List Decoration}
    {options : TaskOptions} (h : e.Describes f as options) : e.isComplete = true := by
  have both : ∃ kind name, e.primaryFields.kind = some kind ∧
      e.primaryFields.signature = some name := by
    rcases h.primary with ⟨_, method⟩ | ⟨p, fields, _, written, completed⟩
    · rw [method]
      exact ⟨_, _, rfl, rfl⟩
    · obtain ⟨_, _, _, _, rfl⟩ := Primary.fields_ok written
      rw [completed]
      unfold PrimaryFields.completed
      split
      · exact ⟨_, _, rfl, rfl⟩
      · exact ⟨_, _, rfl, rfl⟩
  obtain ⟨kind, name, implemented, named⟩ := both
  have kind' : e.kind = some kind := implemented
  have name' : e.signature = some name := named
  unfold isComplete
  rw [kind', name']
  rfl

namespace TaskFunction

section Exactness

variable {f : TaskFunction} {r : Request} {o : Orchestrator} {inner : List Decoration}
  {arguments : Arguments} {options : TaskOptions} {l : Layer}

/-- The layers of a function that is called for itself have a descriptor, which says what they
say. -/
theorem describes_of_solitary (solitary : f.Solitary o)
    (layers : f.layers.map (·.decoration) = inner ++ [.task arguments options])
    (noTask : ∀ a ∈ inner, a.isTask = false) {y : Option Descriptor}
    (written : f.descriptor? o = .ok y) :
    ∃ x, y = some x ∧ x.element.Describes f.signature inner options := by
  obtain ⟨all, l, arrival⟩ := ending_of_innermost layers noTask
  unfold descriptor? at written
  rcases solitary.pristine_or_settled with pristine | settled
  · have unmarked := pristine.unmarked_eq
    rw [all] at unmarked
    have some : f.layers ≠ [] := by
      intro none
      rw [none] at layers
      simp at layers
    rw [unmarked, if_neg some, layers] at written
    cases configured : Decoration.configureAll f.signature (inner ++ [.task arguments options])
        .empty with
    | error e =>
      rw [configured] at written
      cases written
    | ok e =>
      rw [configured] at written
      cases written
      exact ⟨_, rfl, Decoration.configureAll_describes noTask configured⟩
  · obtain ⟨e, configured, kept⟩ := settled.written
    have marked : o.memory.unmarked f.layers = [] := by
      refine List.filter_eq_nil_iff.mpr fun x hx => ?_
      simpa using settled.marked x (all.symm ▸ hx)
    rw [if_pos marked, getLast?_of_ending arrival] at written
    rw [arrival] at kept
    obtain ⟨x, keeps, rfl⟩ := Option.map_eq_some_iff.mp (kept (Option.some_ne_none _))
    rw [all, layers] at configured
    refine ⟨x, ?_, Decoration.configureAll_describes noTask configured⟩
    exact (Except.ok.inj written).symm.trans keeps

/-- What is written down of a task that is handed in. -/
theorem records_of_handed {q : TaskRequest} (arrival : ending f.layers = .task l options [])
    (handed : f.handed r o = some q) :
    f.Records options r q.descriptor q.arguments (Scheduler.entry q f.signature) := by
  obtain ⟨b, d, l', options', descriptor, crossing, arrival', _, _, rfl⟩ := handed_eq_some handed
  cases arrival.symm.trans arrival'
  have all := reached_of_ending arrival
  have passed := pass_of_walk crossing
  rw [all] at passed
  refine ⟨rfl, rfl, rfl, (revised_of_cross crossing all).pending, rfl, ?_⟩
  change Frame.keepsMarks d.frames = true ↔ _
  rw [Draft.keepsMarks_of_pass passed, Bool.and_eq_true, Decoration.all_keepsMarks_iff]
  exact and_congr_right fun _ => List.all_eq_true

/-- A call registers its task once if all layers can configure and prepare it and the scheduler
accepts it, and nothing otherwise. If its layers have been called for nothing but this function,
their descriptor is never missing or without an implementation, so that the scheduler only has to
look at the computing units that the innermost layer to name a number asks for. -/
theorem registration_exact
    (layers : f.layers.map (·.decoration) = inner ++ [.task arguments options])
    (noTask : ∀ a ∈ inner, a.isTask = false) (configures : r.context.configures = true) :
    (∀ x a, f.Accepted r o x a → ∃ e, f.Records options r x a e ∧
      (f.serve r o).journal.registrations = o.journal.registrations ++ [e]) ∧
    ((∀ x a, ¬ f.Accepted r o x a) →
      (f.serve r o).journal.registrations = o.journal.registrations) ∧
    (f.Solitary o → ∀ y, f.descriptor? o = .ok y → ∃ x, y = some x ∧
      x.element.isComplete = true ∧ x.element.constraint? Scheduler.computingUnits =
        (inner.filterMap (Decoration.constraint? Scheduler.computingUnits)).getLast?) := by
  obtain ⟨-, l, arrival⟩ := ending_of_innermost layers noTask
  have grown : (f.serve r o).journal.registrations =
      o.journal.registrations ++ (f.report r o).journal.registrations := by
    rw [serve_eq]
    rfl
  obtain ⟨once, never⟩ := f.report_registrations r o
  refine ⟨fun x a accepted => ?_, fun refused => ?_, fun solitary y written => ?_⟩
  · obtain ⟨q, handed, rfl, rfl⟩ := (handed_iff arrival configures).mpr
      ⟨accepted.configured, accepted.prepared, accepted.distinct⟩
    have valid := (o.scheduler.validate_ok_iff f.signature.qualifiedName q.descriptor.element).mpr
      ⟨accepted.complete, accepted.fits⟩
    rw [grown, once q handed valid]
    exact ⟨_, records_of_handed arrival handed, rfl⟩
  · have nothing := never fun q handed valid => by
      obtain ⟨configured, prepared, distinct⟩ :=
        (handed_iff arrival configures).mp ⟨q, handed, rfl, rfl⟩
      obtain ⟨complete, fits⟩ := (o.scheduler.validate_ok_iff _ _).mp valid
      exact refused q.descriptor q.arguments ⟨configured, prepared, distinct, complete, fits⟩
    rw [grown, nothing, List.append_nil]
  · obtain ⟨x, rfl, describes⟩ := describes_of_solitary solitary layers noTask written
    exact ⟨x, rfl, describes.complete, describes.constraint _⟩

theorem registration_exact_unit :
    let f := (decorate [.dataTransformation [.of "x" (.inline .twice)], .task .empty .standard]
      (bare .echo) .master).1
    let r := Request.plain ⟨.master, false⟩ (Arguments.empty.push (.int 1))
    ∃ e, (f.serve r .master).journal.registrations = [e] ∧ e.pending = ["x"] ∧
      e.arguments = ⟨[.null], .empty⟩ ∧ e.prependStrings = true := by
  intro f r
  have layers : f.layers.map (·.decoration) =
      [.dataTransformation [.of "x" (.inline .twice)]] ++ [.task .empty .standard] := rfl
  have noTask : ∀ a ∈ [Decoration.dataTransformation [.of "x" (.inline .twice)]],
      a.isTask = false := by
    simp [Decoration.isTask]
  have accepted : f.Accepted r .master
      ⟨0, { Element.empty with
        kind := some .method, signature := some "m.f", typeArguments := ["m", "f"]
        owner := some "@task" }⟩ ⟨[.null], .empty⟩ :=
    ⟨rfl, rfl, by decide, rfl, fun available requested limit => nomatch limit⟩
  obtain ⟨e, records, registered⟩ := (registration_exact layers noTask rfl).1 _ _ accepted
  refine ⟨e, registered, records.pending, records.arguments, records.prependStrings.mpr ⟨?_, ?_⟩⟩
  · rw [layers]
    simp
  · intro frame absent
    cases absent

/-- A frame that comes with a call takes the marks away, though no annotation does. -/
theorem marks_withdrawn :
    let f := (decorate [.task .empty .standard] (bare .echo) .master).1
    let r : Request := ⟨⟨.master, false⟩, Arguments.empty.push (.int 1), [⟨.empty, false⟩], none⟩
    (∀ p, .primary p ∈ f.layers.map (·.decoration) → p.kind ∉ PrimaryKind.programs) ∧
      (f.serve r .master).journal.registrations.map (·.prependStrings) = [false] := by
  refine ⟨fun p member => ?_, rfl⟩
  cases List.mem_singleton.mp member

end Exactness

end TaskFunction

end TaskDecoration
