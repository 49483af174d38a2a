import TaskDecoration.Proofs.Arrival

/-!
# Outcomes of calls

The outcome of a call is its result with the entries it makes, the numbers of descriptors aside.
`TaskFunction.outcome_eq` says what it is, and `conduct_congr` on what it depends: on the
function and its annotations, on session, registry and scheduler, and, of all that is
remembered, on the marks of the layers and the descriptor that the task keeps.
-/

set_option autoImplicit false

namespace TaskDecoration

theorem Context.admitsCalls_of_configures {c : Context} (configures : c.configures = true) :
    c.admitsCalls = true := by
  obtain ⟨scope, nesting⟩ := c
  cases scope with
  | outOfScope => exact configures
  | master => rfl
  | worker => rfl

/-- A call before it meets the first layer. -/
structure Request where
  context : Context
  arguments : Arguments
  frames : List Frame
  transformations : Option (List Substitution)

namespace Request

def call (r : Request) : Call :=
  { Call.start r.context r.arguments with
    frames := r.frames, transformations := r.transformations }

def draft (r : Request) : Draft where
  arguments := r.arguments
  frames := r.frames
  dependencies := []
  transformations := r.transformations
  transformationsTaken := false
  targets := []
  units := []

/-- A call by its arguments. -/
def plain (c : Context) (a : Arguments) : Request := ⟨c, a, [], none⟩

end Request

/-- Two orchestrators with the same session, transforms and scheduler. What they remember and
what has happened under them may differ. -/
structure Orchestrator.Alike (o o' : Orchestrator) : Prop where
  session : o.session = o'.session
  registry : o.registry = o'.registry
  scheduler : o.scheduler = o'.scheduler

theorem Orchestrator.Alike.symm {o o' : Orchestrator} (h : o.Alike o') : o'.Alike o :=
  ⟨h.session.symm, h.registry.symm, h.scheduler.symm⟩

theorem Orchestrator.Alike.trans {o o' o'' : Orchestrator} (h : o.Alike o') (h' : o'.Alike o'') :
    o.Alike o'' :=
  ⟨h.session.trans h'.session, h.registry.trans h'.registry, h.scheduler.trans h'.scheduler⟩

namespace TaskFunction

/-- The layers taken together: blueprint and draft behind them, or the first failure. -/
def cross (f : TaskFunction) (r : Request) (o : Orchestrator) :
    Except TaskError Blueprint × Draft :=
  walk o.memory r.context o.registry f.signature (reached f.layers) .blank r.draft

/-- What happens to a call. -/
def report (f : TaskFunction) (r : Request) (o : Orchestrator) : Outcome Value :=
  match f.cross r o with
  | (.ok b, d) =>
    let behind := (ending f.layers).report o r.context f.base b d
    ⟨behind.result, .ofUnits d.units ++ behind.journal⟩
  | (.error e, d) => ⟨.error e, .ofUnits d.units⟩

theorem report_of_cross {f : TaskFunction} {r : Request} {o : Orchestrator} {b : Blueprint}
    {d : Draft} (crossing : f.cross r o = (.ok b, d)) :
    f.report r o =
      ⟨((ending f.layers).report o r.context f.base b d).result,
        .ofUnits d.units ++ ((ending f.layers).report o r.context f.base b d).journal⟩ := by
  unfold report
  rw [crossing]

theorem report_of_stopped {f : TaskFunction} {r : Request} {o : Orchestrator} {e : TaskError}
    {d : Draft} (crossing : f.cross r o = (.error e, d)) :
    f.report r o = ⟨.error e, .ofUnits d.units⟩ := by
  unfold report
  rw [crossing]

/-- The task that a call hands in to the scheduler, when it gets so far. -/
def handed (f : TaskFunction) (r : Request) (o : Orchestrator) : Option TaskRequest :=
  match f.cross r o with
  | (.ok b, d) => (ending f.layers).hand o.memory r.context b d
  | (.error _, _) => none

/-- What the layers remember after a call. -/
def memoryAfter (f : TaskFunction) (r : Request) (o : Orchestrator) : Memory :=
  match f.cross r o with
  | (.ok b, d) => (ending f.layers).memory o.memory r.context b d
  | (.error _, _) => o.memory

/-- A call in the context of the session is a request without frames and transformations. -/
theorem call_eq (f : TaskFunction) (a : Arguments) (o : Orchestrator) :
    f.call a o = f.invoke.effectOn ⟨(Request.plain o.session.context a).call, o⟩ := rfl

/-- The orchestrator after a call. -/
def serve (f : TaskFunction) (r : Request) (o : Orchestrator) : Orchestrator :=
  (f.invoke.effectOn ⟨r.call, o⟩).2

/-- The result of a call with the entries it makes. -/
def outcome (f : TaskFunction) (r : Request) (o : Orchestrator) : Outcome Value :=
  ⟨(f.invoke.effectOn ⟨r.call, o⟩).1, ((f.serve r o).journal.since o.journal).anonymous⟩

/-- The outcome of a call with the descriptor of the task that it hands in, which may yet be
turned down. -/
def conduct (f : TaskFunction) (r : Request) (o : Orchestrator) : Outcome Value × Option Element :=
  (f.outcome r o, (f.handed r o).map (·.descriptor.element))

/-- A call leaves behind its entries and what the layers remember of it. -/
theorem invoke_effectOn (f : TaskFunction) (r : Request) (o : Orchestrator) :
    f.invoke.effectOn ⟨r.call, o⟩ =
      ((f.report r o).result,
        { o with
          journal := o.journal ++ (f.report r o).journal
          memory := f.memoryAfter r o }) := by
  have draft : (⟨r.call, o⟩ : Situation).draft = r.draft.after o.journal.units := by
    unfold Situation.draft Draft.after Request.draft
    rw [List.append_nil]
    rfl
  have walked := walk_after o.memory r.context o.registry f.signature o.journal.units
    (reached f.layers) .blank r.draft
  rcases crossing : f.cross r o with ⟨crossed, d⟩
  unfold invoke report memoryAfter
  rw [crossing]
  unfold cross at crossing
  rw [crossing] at walked
  rw [invokeLayers_effectOn, draft]
  change (match walk o.memory r.context o.registry f.signature (reached f.layers) .blank
      (r.draft.after o.journal.units) with
    | (.ok b, d) =>
      ((ending f.layers).run f.base).effectOn (((⟨r.call, o⟩ : Situation).adopt d).draw b)
    | (.error e, d) => (.error e, ((⟨r.call, o⟩ : Situation).adopt d).host)) = _
  rw [walked]
  cases crossed with
  | error e =>
    simp [Situation.adopt, Draft.after, Journal.append_def, Journal.ofUnits]
  | ok b =>
    dsimp only
    rw [Ending.run_effectOn]
    -- The entries of the layers are there already, those behind them are appended.
    have entries :
        (((⟨r.call, o⟩ : Situation).adopt (d.after o.journal.units)).draw b).host.journal =
          o.journal ++ .ofUnits d.units := by
      simp [Situation.adopt, Situation.draw, Draft.after, Journal.append_def, Journal.ofUnits]
    rw [entries, Journal.append_assoc]
    cases ending f.layers with
    | body => rfl
    | task l options inner => rfl

theorem outcome_eq (f : TaskFunction) (r : Request) (o : Orchestrator) :
    f.outcome r o = (f.report r o).anonymous := by
  unfold outcome serve
  rw [invoke_effectOn]
  dsimp only
  rw [Journal.since_append]
  rfl

theorem serve_eq (f : TaskFunction) (r : Request) (o : Orchestrator) :
    f.serve r o = { o with
      journal := o.journal ++ (f.report r o).journal
      memory := f.memoryAfter r o } := by
  unfold serve
  rw [invoke_effectOn]

/-- A call changes neither session nor transforms nor scheduler. -/
theorem serve_alike (f : TaskFunction) (r : Request) (o : Orchestrator) :
    (f.serve r o).Alike o := by
  rw [serve_eq]
  exact ⟨rfl, rfl, rfl⟩

theorem serve_memory (f : TaskFunction) (r : Request) (o : Orchestrator) :
    (f.serve r o).memory = f.memoryAfter r o := by
  rw [serve_eq]

section Congruence

variable {f f' : TaskFunction} {r : Request} {o o' : Orchestrator}

/-- Calls that cross their layers alike, behind which the same descriptor is registered. What is
left of the transformations that they have brought makes no difference any more. -/
theorem conduct_of_crossings {r' : Request} (base : f.base = f'.base)
    (shape : (ending f.layers).shape = (ending f'.layers).shape)
    (context : r.context = r'.context) (alike : o.Alike o')
    (crossing : ((f.cross r o).1.map fun _ => (), (f.cross r o).2.dropGiven) =
      ((f'.cross r' o').1.map fun _ => (), (f'.cross r' o').2.dropGiven))
    (carried : ∀ b b' d d', r.context.configures = true →
      f.cross r o = (.ok b, d) → f'.cross r' o' = (.ok b', d') →
      (ending f.layers).carried o.memory b = (ending f'.layers).carried o'.memory b') :
    f.conduct r o = f'.conduct r' o' := by
  unfold conduct handed
  rw [outcome_eq, outcome_eq]
  unfold report
  rcases here : f.cross r o with ⟨x, d⟩
  rcases there : f'.cross r' o' with ⟨x', d'⟩
  rw [here, there] at crossing
  obtain ⟨same, drafts⟩ := Prod.mk.inj crossing
  replace drafts : d.dropGiven = d'.dropGiven := drafts
  have units : d.units = d'.units :=
    show d.dropGiven.units = d'.dropGiven.units by rw [drafts]
  cases x with
  | error e =>
    cases x' with
    | error e' =>
      obtain rfl : e = e' := Except.error.inj same
      dsimp only
      rw [units]
    | ok b' => cases same
  | ok b =>
    cases x' with
    | error e' => cases same
    | ok b' =>
      have carried := fun configures => carried b b' d d' configures here there
      rw [← context]
      refine Prod.ext ?_ (Ending.hand_congr d d' shape carried)
      have behind := Ending.report_congr (c := r.context) f.base d.dropGiven shape carried
        alike.session alike.scheduler
      rw [Ending.report_dropGiven, drafts, Ending.report_dropGiven, base] at behind
      rw [base]
      change Outcome.anonymous ⟨_, .ofUnits d.units ++ _⟩ =
        Outcome.anonymous ⟨_, .ofUnits d'.units ++ _⟩
      obtain ⟨result, entries⟩ := Outcome.mk.inj behind
      unfold Outcome.anonymous
      rw [Journal.anonymous_append, Journal.anonymous_append, result, entries, units]

/-- The same call under two orchestrators. -/
theorem conduct_of_cross (base : f.base = f'.base)
    (decorations : f.layers.map (·.decoration) = f'.layers.map (·.decoration))
    (alike : o.Alike o')
    (crossing : ((f.cross r o).1.map fun _ => (), (f.cross r o).2) =
      ((f'.cross r o').1.map fun _ => (), (f'.cross r o').2))
    (carried : ∀ b b' d d', r.context.configures = true →
      f.cross r o = (.ok b, d) → f'.cross r o' = (.ok b', d') →
      (ending f.layers).carried o.memory b = (ending f'.layers).carried o'.memory b') :
    f.conduct r o = f'.conduct r o' := by
  refine conduct_of_crossings base (Ending.shape_congr decorations) rfl alike ?_ carried
  obtain ⟨same, drafts⟩ := Prod.mk.inj crossing
  rw [same, drafts]

/-- Calls that cross their layers with the same descriptor written. -/
theorem conduct_of_elements {r' : Request} (base : f.base = f'.base)
    (shape : (ending f.layers).shape = (ending f'.layers).shape)
    (context : r.context = r'.context) (alike : o.Alike o')
    (crossing : ((f.cross r o).1.map (·.element), (f.cross r o).2.dropGiven) =
      ((f'.cross r' o').1.map (·.element), (f'.cross r' o').2.dropGiven))
    (kept : (ending f.layers).kept o.memory = (ending f'.layers).kept o'.memory) :
    f.conduct r o = f'.conduct r' o' := by
  refine conduct_of_crossings base shape context alike ?_ ?_
  · obtain ⟨same, drafts⟩ := Prod.mk.inj crossing
    have forget (x : Except TaskError Blueprint) :
        x.map (fun _ => ()) = (x.map (·.element)).map fun _ => () := by
      cases x with
      | error e => rfl
      | ok b => rfl
    rw [drafts, forget (f.cross r o).1, same, ← forget]
  · intro b b' d d' _ here there
    rw [here, there] at crossing
    exact Ending.carried_congr shape (Except.ok.inj (Prod.mk.inj crossing).1) kept

/-- What a call does depends on the memory only through the marks of the layers and the
descriptor that the task keeps. -/
theorem conduct_congr (base : f.base = f'.base)
    (decorations : f.layers.map (·.decoration) = f'.layers.map (·.decoration))
    (alike : o.Alike o')
    (marks : o.memory.marks (reached f.layers) = o'.memory.marks (reached f'.layers))
    (kept : (ending f.layers).kept o.memory = (ending f'.layers).kept o'.memory) :
    f.conduct r o = f'.conduct r o' := by
  have walks := walk_congr r.context o.registry f.signature r.draft marks
    (show Blueprint.blank.element = Blueprint.blank.element from rfl)
  have signature : f.signature = f'.signature := congrArg BareFunction.signature base
  rw [signature, alike.registry] at walks
  refine conduct_of_elements base (Ending.shape_congr decorations) rfl alike ?_ kept
  unfold cross
  rw [signature, alike.registry]
  obtain ⟨same, drafts⟩ := Prod.mk.inj walks
  rw [same, drafts]

/-- Where neither blueprint is refused, it matters only which descriptor is registered. -/
theorem conduct_of_drawUp {b b' : Blueprint} (base : f.base = f'.base)
    (decorations : f.layers.map (·.decoration) = f'.layers.map (·.decoration))
    (alike : o.Alike o')
    (drawn : drawUp o.memory r.context f.signature (reached f.layers) .blank = .ok b)
    (drawn' : drawUp o'.memory r.context f'.signature (reached f'.layers) .blank = .ok b')
    (carried : r.context.configures = true →
      (ending f.layers).carried o.memory b = (ending f'.layers).carried o'.memory b') :
    f.conduct r o = f'.conduct r o' := by
  have crossed : f.cross r o = _ := walk_of_drawUp r.draft drawn
  have crossed' : f'.cross r o' = _ := walk_of_drawUp r.draft drawn'
  have signature : f'.signature = f.signature := congrArg BareFunction.signature base.symm
  rw [← reached_decorations decorations, ← alike.registry, signature] at crossed'
  rcases passed : r.draft.pass r.context o.registry f.signature
    ((reached f.layers).map (·.decoration)) with ⟨x, d⟩
  rw [passed] at crossed crossed'
  refine conduct_of_cross base decorations alike ?_ ?_
  · rw [crossed, crossed']
    cases x with
    | error e => rfl
    | ok u => rfl
  · intro b₁ b₁' d₁ d₁' configures here there
    cases x with
    | error e => cases crossed.symm.trans here
    | ok u =>
      cases crossed.symm.trans here
      cases crossed'.symm.trans there
      exact carried configures

end Congruence

/-- A call changes what is remembered only by finishing a configuration. -/
theorem memoryAfter_cases (f : TaskFunction) (r : Request) (o : Orchestrator) :
    f.memoryAfter r o = o.memory ∨
      (r.context.configures = true ∧ ∃ b,
        drawUp o.memory r.context f.signature (reached f.layers) .blank = .ok b ∧
        f.memoryAfter r o = (ending f.layers).commit o.memory b) := by
  unfold memoryAfter
  rcases crossing : f.cross r o with ⟨x, d⟩
  cases x with
  | error e => exact .inl rfl
  | ok b =>
    have drawn := drawUp_of_walk crossing
    dsimp only
    by_cases configures : r.context.configures = true
    · rcases Ending.memory_configures configures (ending f.layers) o.memory b d with
        unchanged | committed
      · exact .inl unchanged
      · exact .inr ⟨configures, b, drawn, committed⟩
    · -- Nothing has been drawn up, so there is nothing to mark.
      obtain rfl := Except.ok.inj ((drawUp_plain configures _ _).symm.trans drawn)
      exact .inl (Ending.memory_plain configures (ending f.layers) o.memory d)

/-- No layer stands inside a task. -/
def Ordered (f : TaskFunction) : Prop := Decoration.Ordered (f.layers.map (·.decoration))

/-- A task with layers inside it never finishes a configuration. -/
theorem memoryAfter_of_disordered {f : TaskFunction} (disordered : ¬ f.Ordered) (r : Request)
    (o : Orchestrator) : f.memoryAfter r o = o.memory := by
  have disorder (innermost : ∀ l options inner,
      ending f.layers = .task l options inner → inner = []) : False :=
    disordered (ordered_iff.mpr innermost)
  unfold memoryAfter
  rcases f.cross r o with ⟨x, d⟩
  cases x with
  | error e => rfl
  | ok b =>
    dsimp only
    cases arrival : ending f.layers with
    | body =>
      rw [arrival] at disorder
      exact absurd (fun _ _ _ same => (nomatch same)) disorder
    | task l options inner =>
      cases inner with
      | nil =>
        rw [arrival] at disorder
        exact absurd (fun _ _ _ same => (Ending.task.inj same).2.2.symm) disorder
      | cons x inner => rfl

section Foreign

variable {f : TaskFunction} {i : LayerId}

/-- A call marks none but its own layers. -/
theorem memoryAfter_configured (foreign : ∀ l ∈ f.layers, l.id ≠ i) (r : Request)
    (o : Orchestrator) : (f.memoryAfter r o).configured i = o.memory.configured i := by
  rcases f.memoryAfter_cases r o with unchanged | ⟨_, b, drawn, committed⟩
  · rw [unchanged]
  · have unnamed : b.deferred.contains i = false := by
      apply Bool.eq_false_iff.mpr
      intro named
      obtain ⟨l, hl, same⟩ := mem_of_deferred drawn (List.contains_iff_mem.mp named)
      exact foreign l (mem_of_reached hl) same
    rw [committed, Ending.commit_configured, unnamed, Bool.or_false]

/-- A call leaves a descriptor with none but its own task. -/
theorem memoryAfter_descriptor
    (other : ∀ l options inner, ending f.layers = .task l options inner → l.id ≠ i) (r : Request)
    (o : Orchestrator) : (f.memoryAfter r o).descriptor i = o.memory.descriptor i := by
  rcases f.memoryAfter_cases r o with unchanged | ⟨_, b, _, committed⟩
  · rw [unchanged]
  · rw [committed, Ending.commit_descriptor other]

theorem memoryAfter_nextLayer (f : TaskFunction) (r : Request) (o : Orchestrator) :
    (f.memoryAfter r o).nextLayer = o.memory.nextLayer := by
  rcases f.memoryAfter_cases r o with unchanged | ⟨_, b, _, committed⟩
  · rw [unchanged]
  · rw [committed, Ending.commit_nextLayer]

end Foreign

section Idle

variable {f : TaskFunction} {r : Request} {o : Orchestrator} {b : Blueprint}

/-- A call that brings no work for the layers gets behind them, unless a descriptor is refused. -/
theorem cross_of_idle (idle : r.draft.Idle) (configures : r.context.configures = true)
    (drawn : drawUp o.memory r.context f.signature (reached f.layers) .blank = .ok b) :
    ∃ d, f.cross r o = (.ok b, d) ∧ d.Idle := by
  have admitted := Context.admitsCalls_of_configures configures
  obtain ⟨d, passed, idle'⟩ := r.draft.pass_idle admitted o.registry f.signature
    idle ((reached f.layers).map (·.decoration))
  refine ⟨d, ?_, idle'⟩
  unfold cross
  rw [walk_of_drawUp r.draft drawn, passed]
  rfl

/-- What it registers. -/
theorem handed_of_idle (idle : r.draft.Idle) (configures : r.context.configures = true)
    (ordered : f.Ordered)
    (drawn : drawUp o.memory r.context f.signature (reached f.layers) .blank = .ok b) :
    (f.handed r o).map (·.descriptor.element) = (ending f.layers).carried o.memory b := by
  obtain ⟨d, crossing, _⟩ := cross_of_idle idle configures drawn
  unfold handed
  rw [crossing]
  dsimp only
  cases arrival : ending f.layers with
  | body => rfl
  | task l options inner =>
    obtain rfl := ordered_iff.mp ordered l options inner arrival
    unfold Ending.hand Ending.carried
    dsimp only
    rw [if_pos configures, Option.map_map]
    rfl

/-- What is remembered of it. -/
theorem memoryAfter_of_idle (idle : r.draft.Idle) (configures : r.context.configures = true)
    (ordered : f.Ordered)
    (drawn : drawUp o.memory r.context f.signature (reached f.layers) .blank = .ok b)
    (carried : (ending f.layers).shape ≠ none →
      ∃ e, (ending f.layers).carried o.memory b = some e) :
    f.memoryAfter r o = (ending f.layers).commit o.memory b := by
  obtain ⟨d, crossing, idle'⟩ := cross_of_idle idle configures drawn
  have arrived : d.arrived = true := by
    unfold Draft.arrived
    rw [idle'.waits]
    rfl
  unfold memoryAfter
  rw [crossing]
  refine Ending.memory_of_arrived (ordered_iff.mp ordered) configures arrived ?_
  intro l options inner arrival none
  rw [arrival] at carried
  obtain ⟨e, some⟩ := carried (Option.some_ne_none _)
  cases (congrArg (Option.map _) none).symm.trans some

/-- Without a task, the function itself is run. -/
theorem runs_of_idle (idle : r.draft.Idle) (configures : r.context.configures = true)
    (body : (ending f.layers).shape = none)
    (drawn : drawUp o.memory r.context f.signature (reached f.layers) .blank = .ok b) :
    (f.report r o).journal.runs ≠ [] := by
  obtain ⟨d, crossing, idle'⟩ := cross_of_idle idle configures drawn
  have arrived : (Dependency.resolve d.dependencies d.arguments).1 = .ok () := by
    rw [idle'.waits]
    rfl
  rw [report_of_cross crossing, Ending.shape_eq_none.mp body]
  unfold Ending.report
  dsimp only
  rw [f.base.report_of_ok r.context arrived]
  exact List.cons_ne_nil _ _

end Idle

section Handing

variable {f : TaskFunction} {r : Request} {o : Orchestrator} {q : TaskRequest}

theorem handed_eq_some (h : f.handed r o = some q) :
    ∃ b d l options descriptor, f.cross r o = (.ok b, d) ∧ ending f.layers = .task l options [] ∧
      r.context.configures = true ∧ l.delivered o.memory b = some descriptor ∧
      q = .ofDraft descriptor options d := by
  unfold handed at h
  rcases crossing : f.cross r o with ⟨crossed, d⟩
  rw [crossing] at h
  cases crossed with
  | error e => cases h
  | ok b =>
    dsimp only at h
    unfold Ending.hand at h
    split at h
    · next l options arrival =>
      by_cases configures : r.context.configures = true
      · rw [if_pos configures] at h
        obtain ⟨descriptor, delivered, rfl⟩ := Option.map_eq_some_iff.mp h
        exact ⟨b, d, l, options, descriptor, rfl, arrival, configures, delivered, rfl⟩
      · rw [if_neg configures] at h
        cases h
    · cases h

/-- Behind a task that has been handed in, a call goes on as the scheduler does. -/
theorem report_of_handed (h : f.handed r o = some q) :
    f.report r o =
      ⟨(o.scheduler.accept o.session.context.nesting q f.base).result,
        .ofUnits (f.cross r o).2.units ++
          (o.scheduler.accept o.session.context.nesting q f.base).journal⟩ := by
  obtain ⟨b, d, l, options, descriptor, crossing, arrival, configures, delivered, rfl⟩ :=
    handed_eq_some h
  rw [report_of_cross crossing, crossing, arrival, Ending.report_delivered configures delivered]

open Change Procedure in
/-- A call that hands in a task ends as registering that task does. -/
theorem invoke_of_handed (h : f.handed r o = some q) :
    f.invoke.effectOn ⟨r.call, o⟩ = (Scheduler.register q f.base).effectOn
      ⟨r.call, { o with
        journal := o.journal ++ .ofUnits (f.cross r o).2.units
        memory := f.memoryAfter r o }⟩ := by
  rw [invoke_effectOn, report_of_handed h, effectOn_of_runOn (Scheduler.register_runOn q f.base _)]
  unfold Situation.note
  dsimp only
  rw [Journal.append_assoc]

/-- Nothing is registered but a task that has been handed in. -/
theorem handed_of_mem_registrations {x : Registration}
    (h : x ∈ (f.report r o).journal.registrations) :
    ∃ q, f.handed r o = some q ∧ x = Scheduler.entry q f.signature := by
  unfold report at h
  rcases crossing : f.cross r o with ⟨crossed, d⟩
  rw [crossing] at h
  cases crossed with
  | error e => cases h
  | ok b =>
    replace h : x ∈ ((ending f.layers).report o r.context f.base b d).journal.registrations := h
    unfold handed Ending.hand
    rw [crossing]
    cases arrival : ending f.layers with
    | body =>
      rw [arrival] at h
      unfold Ending.report at h
      rw [BareFunction.report_journal] at h
      cases h
    | task l options inner =>
      rw [arrival] at h
      unfold Ending.report at h
      cases inner with
      | cons _ _ => cases h
      | nil =>
        dsimp only at h ⊢
        rw [if_neg (by simp)] at h
        by_cases plain : ¬ r.context.configures = true
        · rw [if_pos plain, BareFunction.report_journal] at h
          cases h
        · rw [if_neg plain] at h
          rw [if_pos (Decidable.not_not.mp plain)]
          cases delivered : l.delivered o.memory b with
          | none =>
            rw [delivered] at h
            cases h
          | some descriptor =>
            rw [delivered] at h
            exact ⟨_, rfl, Scheduler.mem_accept_registrations h⟩

/-- The body runs for a call that has gone through all layers and whose results have all
arrived, and sees them. Its frames are those of the layers, or they have been put into one. -/
theorem mem_report_runs {x : BodyRun} (h : x ∈ (f.report r o).journal.runs) :
    ∃ b d, f.cross r o = (.ok b, d) ∧ reached f.layers = f.layers ∧
      Dependency.resolve d.dependencies d.arguments = (.ok (), x.view.arguments) ∧
      (x.view.frames = d.frames ∨ x.view.frames = [Frame.collapse d.frames]) := by
  unfold report at h
  rcases crossing : f.cross r o with ⟨crossed, d⟩
  rw [crossing] at h
  cases crossed with
  | error e => cases h
  | ok b =>
    replace h : x ∈ ((ending f.layers).report o r.context f.base b d).journal.runs := h
    have plain (c : Context) (h : x ∈ (f.base.report c d).journal.runs) :
        (Dependency.resolve d.dependencies d.arguments).1 = .ok () ∧
          x.view.arguments = (Dependency.resolve d.dependencies d.arguments).2 ∧
          x.view.frames = d.frames := by
      obtain ⟨resolved, view⟩ := BareFunction.mem_report_runs h
      rw [view]
      exact ⟨resolved, rfl, rfl⟩
    have arrived : (∀ l options inner, ending f.layers = .task l options inner → inner = []) ∧
        (Dependency.resolve d.dependencies d.arguments).1 = .ok () ∧
        x.view.arguments = (Dependency.resolve d.dependencies d.arguments).2 ∧
        (x.view.frames = d.frames ∨ x.view.frames = [Frame.collapse d.frames]) := by
      cases arrival : ending f.layers with
      | body =>
        rw [arrival] at h
        obtain ⟨resolved, arguments, frames⟩ := plain r.context h
        exact ⟨fun _ _ _ same => (nomatch same), resolved, arguments, .inl frames⟩
      | task l options inner =>
        rw [arrival] at h
        unfold Ending.report at h
        cases inner with
        | cons _ _ => cases h
        | nil =>
          refine ⟨fun _ _ _ same => (Ending.task.inj same).2.2.symm, ?_⟩
          dsimp only at h
          rw [if_neg (by simp)] at h
          by_cases alone : ¬ r.context.configures = true
          · rw [if_pos alone] at h
            obtain ⟨resolved, arguments, frames⟩ := plain r.context h
            exact ⟨resolved, arguments, .inl frames⟩
          · rw [if_neg alone] at h
            cases delivered : l.delivered o.memory b with
            | none =>
              rw [delivered] at h
              cases h
            | some descriptor =>
              rw [delivered] at h
              obtain ⟨resolved, view⟩ := Scheduler.mem_accept_runs h
              rw [view]
              exact ⟨resolved, rfl, .inr rfl⟩
    obtain ⟨innermost, resolved, arguments, frames⟩ := arrived
    exact ⟨b, d, rfl, reached_eq_self innermost, Prod.ext resolved arguments.symm, frames⟩

end Handing

end TaskFunction

end TaskDecoration
