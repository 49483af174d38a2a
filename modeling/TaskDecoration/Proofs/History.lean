import TaskDecoration.Proofs.Outcome

/-!
# Histories

Functions are decorated, and then called again and again while the session changes and
transforms are registered. `Event` is one step of this and `Event.replay` a run of steps; what
every step keeps holds after the whole run (`Event.replay_invariant`). `decorate_eq` says what
layers a decoration makes, and `Orchestrator.Reached.tidy` that nothing is ever remembered of layers
that do not exist yet.
-/

set_option autoImplicit false

namespace TaskDecoration

/-- One step in the history of functions that are told apart by `ι`. -/
inductive Event (ι : Type) where
  /-- One of the functions is called. -/
  | call (which : ι) (r : Request)
  /-- The session changes. -/
  | move (session : Session)
  /-- A transform becomes known by a name. -/
  | register (name : String) (transform : Transform)

namespace Event

variable {ι : Type}

def apply (f : ι → TaskFunction) (o : Orchestrator) : Event ι → Orchestrator
  | call which r => (f which).serve r o
  | move session => { o with session := session }
  | register name transform => o.register name transform

/-- The orchestrator after a history. -/
def replay (f : ι → TaskFunction) (history : List (Event ι)) (o : Orchestrator) : Orchestrator :=
  history.foldl (apply f) o

/-- Only calls change what is remembered. -/
theorem apply_invariant {f : ι → TaskFunction} (invariant : Memory → Prop)
    (step : ∀ which r o, invariant o.memory → invariant ((f which).memoryAfter r o))
    {o : Orchestrator} (h : invariant o.memory) (e : Event ι) : invariant (apply f o e).memory := by
  cases e with
  | call which r =>
    unfold apply
    dsimp only
    rw [TaskFunction.serve_eq]
    exact step which r o h
  | move session => exact h
  | register name transform => exact h

theorem replay_invariant {f : ι → TaskFunction} (invariant : Memory → Prop)
    (step : ∀ which r o, invariant o.memory → invariant ((f which).memoryAfter r o))
    (history : List (Event ι)) {o : Orchestrator} (h : invariant o.memory) :
    invariant (replay f history o).memory := by
  induction history generalizing o with
  | nil => exact h
  | cons e history ih => exact ih (apply_invariant invariant step h e)

/-- What is left of a history without the calls of all functions but one. -/
def alone [DecidableEq ι] (i : ι) (history : List (Event ι)) : List (Event Unit) :=
  history.filterMap fun
    | call which r => if which = i then some (call () r) else none
    | move session => some (move session)
    | register name transform => some (register name transform)

theorem alone_call_self [DecidableEq ι] (i : ι) (r : Request) (history : List (Event ι)) :
    alone i (call i r :: history) = call () r :: alone i history :=
  List.filterMap_cons_some (if_pos rfl)

theorem alone_call_other [DecidableEq ι] {i which : ι} (other : which ≠ i) (r : Request)
    (history : List (Event ι)) : alone i (call which r :: history) = alone i history :=
  List.filterMap_cons_none (if_neg other)

/-- For a function's own calls, the calls of other functions change nothing but the memory. -/
theorem replay_alone [DecidableEq ι] (f : ι → TaskFunction) (i : ι) (history : List (Event ι))
    {o o' : Orchestrator} (alike : o.Alike o') :
    (replay f history o).Alike (replay (fun _ => f i) (alone i history) o') := by
  induction history generalizing o o' with
  | nil => exact alike
  | cons e history ih =>
    cases e with
    | call which r =>
      by_cases own : which = i
      · subst own
        rw [alone_call_self]
        exact ih ((((f which).serve_alike r o).trans alike).trans ((f which).serve_alike r o').symm)
      · rw [alone_call_other own]
        exact ih (((f which).serve_alike r o).trans alike)
    | move session => exact ih ⟨rfl, alike.registry, alike.scheduler⟩
    | register name transform =>
      refine ih ⟨alike.session, ?_, alike.scheduler⟩
      exact congrArg (fun registry => registry.insert name transform) alike.registry

end Event

/-- An orchestrator in the master scope, set up by the default settings. -/
def Orchestrator.master : Orchestrator :=
  { start .default .plain with session := ⟨⟨.master, false⟩, true⟩ }

/-- The options of a task that is declared without arguments. -/
def TaskOptions.standard : TaskOptions :=
  ⟨.bool false, false, 0, "RETRY", false, false, false, 0, .int 1, false⟩

/-- A function of one parameter that gives back what it sees of its positional arguments. -/
def BareFunction.echo : BareFunction :=
  ⟨0, .ofParameters "m" "f" [⟨"x", none⟩], fun v => .ok (.list v.arguments.positional)⟩

/-- A transform that lists a value twice. -/
def Transform.twice : Transform := fun v _ => .ok (.list [v, v])

/-- Nothing is remembered of layers that do not exist yet. -/
structure Memory.Tidy (m : Memory) : Prop where
  configured : ∀ l, m.nextLayer ≤ l → m.configured l = false
  descriptor : ∀ l, m.nextLayer ≤ l → m.descriptor l = none

/-- Nothing is remembered of some layers. -/
def Memory.Untouched (m : Memory) (ls : List Layer) : Prop :=
  ∀ l ∈ ls, m.configured l.id = false ∧ m.descriptor l.id = none

theorem Memory.tidy_fresh : Memory.fresh.Tidy := ⟨fun _ _ => rfl, fun _ _ => rfl⟩

theorem Memory.Tidy.untouched {m : Memory} {ls : List Layer} (tidy : m.Tidy)
    (unused : ∀ l ∈ ls, m.nextLayer ≤ l.id) : m.Untouched ls := fun l hl =>
  ⟨tidy.configured l.id (unused l hl), tidy.descriptor l.id (unused l hl)⟩

/-- Calls of functions whose layers exist keep the memory tidy. -/
theorem TaskFunction.memoryAfter_tidy {f : TaskFunction} {o : Orchestrator}
    (exist : ∀ l ∈ f.layers, l.id < o.memory.nextLayer) (tidy : o.memory.Tidy) (r : Request) :
    (f.memoryAfter r o).Tidy := by
  have foreign (i : LayerId) (h : (f.memoryAfter r o).nextLayer ≤ i) :
      o.memory.nextLayer ≤ i ∧ ∀ l ∈ f.layers, l.id ≠ i := by
    rw [f.memoryAfter_nextLayer] at h
    exact ⟨h, fun l hl => Nat.ne_of_lt (Nat.lt_of_lt_of_le (exist l hl) h)⟩
  constructor
  · intro i h
    obtain ⟨unused, other⟩ := foreign i h
    rw [memoryAfter_configured other, tidy.configured i unused]
  · intro i h
    obtain ⟨unused, other⟩ := foreign i h
    rw [memoryAfter_descriptor (fun l _ _ arrival => other l (mem_of_ending arrival)),
      tidy.descriptor i unused]

namespace Orchestrator

/-- The layers that annotations put around a function, the first one outermost. The innermost
one is made first and gets the next number. -/
def layersFor (o : Orchestrator) : List Decoration → List Layer
  | [] => []
  | a :: as => ⟨o.memory.nextLayer + as.length, a, o.session.context⟩ :: o.layersFor as

/-- The orchestrator in which so many layers have been made. -/
def numbered (o : Orchestrator) (n : Nat) : Orchestrator :=
  { o with memory := { o.memory with nextLayer := o.memory.nextLayer + n } }

theorem layersFor_decorations (o : Orchestrator) (as : List Decoration) :
    (o.layersFor as).map (·.decoration) = as := by
  induction as with
  | nil => rfl
  | cons a as ih => exact List.cons_eq_cons.mpr ⟨rfl, ih⟩

theorem layersFor_bounds {o : Orchestrator} {as : List Decoration} {l : Layer}
    (h : l ∈ o.layersFor as) :
    o.memory.nextLayer ≤ l.id ∧ l.id < o.memory.nextLayer + as.length := by
  induction as with
  | nil => cases h
  | cons a as ih =>
    rw [List.length_cons]
    rcases List.mem_cons.mp h with rfl | inner
    · exact ⟨Nat.le_add_right _ _, Nat.lt_succ_self _⟩
    · have bounds := ih inner
      exact ⟨bounds.1, Nat.lt_succ_of_lt bounds.2⟩

theorem tidy_numbered {o : Orchestrator} (tidy : o.memory.Tidy) (n : Nat) :
    (o.numbered n).memory.Tidy where
  configured l h := tidy.configured l (Nat.le_trans (Nat.le_add_right _ n) h)
  descriptor l h := tidy.descriptor l (Nat.le_trans (Nat.le_add_right _ n) h)

end Orchestrator

namespace TaskFunction

theorem wrapAll_eq (as : List Decoration) (f : TaskFunction) (o : Orchestrator) :
    wrapAll as f o = (⟨o.layersFor as ++ f.layers, f.base⟩, o.numbered as.length) := by
  induction as with
  | nil => rfl
  | cons a as ih =>
    change wrap a (wrapAll as f o).1 (wrapAll as f o).2 = _
    rw [ih]
    rfl

/-- What decorating a function makes. -/
theorem decorate_eq (as : List Decoration) (f : TaskFunction) (o : Orchestrator) :
    decorate as f o =
      (⟨o.layersFor (as.flatMap Decoration.layers) ++ f.layers, f.base⟩,
        o.numbered (as.flatMap Decoration.layers).length) :=
  wrapAll_eq _ f o

end TaskFunction

/-- How an orchestrator comes about from the start, with the functions that there are: functions are
decorated, they are called, the session changes, and transforms are registered. -/
inductive Orchestrator.Reached : List TaskFunction → Orchestrator → Prop where
  | start (settings : Settings) (environment : Environment) :
      Reached [] (.start settings environment)
  | bare {fs : List TaskFunction} {o : Orchestrator} (reached : Reached fs o)
      (base : BareFunction) : Reached (.bare base :: fs) o
  | decorate {fs : List TaskFunction} {o : Orchestrator} (reached : Reached fs o)
      (as : List Decoration) {f : TaskFunction} (member : f ∈ fs) :
      Reached ((f.decorate as o).1 :: fs) (f.decorate as o).2
  | event {fs : List TaskFunction} {o : Orchestrator} {ι : Type} (reached : Reached fs o)
      {f : ι → TaskFunction} (members : ∀ i, f i ∈ fs) (e : Event ι) : Reached fs (e.apply f o)

namespace Orchestrator.Reached

variable {fs : List TaskFunction} {o : Orchestrator}

theorem replay {ι : Type} {f : ι → TaskFunction} (reached : Reached fs o)
    (members : ∀ i, f i ∈ fs) (history : List (Event ι)) :
    Reached fs (Event.replay f history o) := by
  induction history generalizing o with
  | nil => exact reached
  | cons e history ih => exact ih (reached.event members e)

/-- Nothing is remembered of layers that do not exist yet, and all layers of the functions that there
are exist. -/
theorem tidy_and_exist (reached : Reached fs o) :
    o.memory.Tidy ∧ ∀ f ∈ fs, ∀ l ∈ f.layers, l.id < o.memory.nextLayer := by
  induction reached with
  | start settings environment => exact ⟨Memory.tidy_fresh, fun f absent => nomatch absent⟩
  | bare _ base ih =>
    refine ⟨ih.1, List.forall_mem_cons.mpr ⟨fun l absent => (nomatch absent), ih.2⟩⟩
  | @decorate fs o _ as f member ih =>
    obtain ⟨tidy, exist⟩ := ih
    rw [TaskFunction.decorate_eq]
    refine ⟨tidy_numbered tidy _, List.forall_mem_cons.mpr ⟨fun l hl => ?_, fun g hg l hl => ?_⟩⟩
    · rcases List.mem_append.mp hl with new | old
      · exact (layersFor_bounds new).2
      · exact Nat.lt_add_right _ (exist f member l old)
    · exact Nat.lt_add_right _ (exist g hg l hl)
  | @event fs o ι _ f members e ih =>
    refine Event.apply_invariant
      (fun m => m.Tidy ∧ ∀ f ∈ fs, ∀ l ∈ f.layers, l.id < m.nextLayer) (fun which r o h => ?_) ih e
    refine ⟨TaskFunction.memoryAfter_tidy (h.2 (f which) (members which)) h.1 r, ?_⟩
    rw [TaskFunction.memoryAfter_nextLayer]
    exact h.2

theorem tidy (reached : Reached fs o) : o.memory.Tidy := reached.tidy_and_exist.1

end Orchestrator.Reached

theorem Orchestrator.reached_master : Reached [] .master :=
  (Reached.start .default .plain).event (f := fun i : Empty => nomatch i) (fun i => nomatch i)
    (.move ⟨⟨.master, false⟩, true⟩)

namespace TaskFunction

section Decorated

variable {as : List Decoration} {base : BareFunction} {o o₁ : Orchestrator} {f : TaskFunction}

theorem layers_of_decorate (decorated : decorate as (bare base) o = (f, o₁)) :
    f.base = base ∧ f.layers.map (·.decoration) = as.flatMap Decoration.layers := by
  rw [decorate_eq] at decorated
  obtain ⟨rfl, -⟩ := Prod.mk.inj decorated
  rw [List.map_append, Orchestrator.layersFor_decorations]
  exact ⟨rfl, List.append_nil _⟩

/-- The layers of a function that has just been decorated have no marks and keep nothing. -/
theorem untouched_of_decorate (tidy : o.memory.Tidy)
    (decorated : decorate as (bare base) o = (f, o₁)) : o₁.memory.Untouched f.layers := by
  rw [decorate_eq] at decorated
  obtain ⟨rfl, rfl⟩ := Prod.mk.inj decorated
  change o.memory.Untouched (o.layersFor (as.flatMap Decoration.layers) ++ [])
  rw [List.append_nil]
  exact tidy.untouched fun l hl => (Orchestrator.layersFor_bounds hl).1

end Decorated

end TaskFunction

end TaskDecoration
