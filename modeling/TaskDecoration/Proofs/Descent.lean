import TaskDecoration.Proofs.Preparation

/-!
# The way inwards

A call goes through layers until it meets a task or the function itself. On the way the layers
write a `Blueprint`, the descriptor and what belongs to it, and prepare the `Draft`. Only the
blueprint depends on what the layers remember; `walk` puts both together, and
`invokeLayers_effectOn` says that a call walks through the layers it reaches and then runs what
it has arrived at.
-/

set_option autoImplicit false

namespace TaskDecoration

/-- What a call carries of a descriptor: what has been written so far, the layers that are to be
marked, and whether it holds the gate of their stack. -/
structure Blueprint where
  element : Option Element
  deferred : List LayerId
  holds : Bool

/-- Nothing has been written. -/
def Blueprint.blank : Blueprint := ⟨none, [], false⟩

namespace Situation

def blueprint (s : Situation) : Blueprint :=
  ⟨s.call.element, s.call.deferred, s.call.holdsConfiguration⟩

/-- The situation with another blueprint. -/
def draw (s : Situation) (b : Blueprint) : Situation :=
  { s with call := { s.call with
    element := b.element, deferred := b.deferred, holdsConfiguration := b.holds } }

end Situation

/-- What lies within the layers that a call goes through. -/
inductive Ending where
  /-- The function itself. -/
  | body
  /-- A task layer, with the layers inside it. -/
  | task (l : Layer) (options : TaskOptions) (inner : List Layer)

/-- Where a call through layers arrives. -/
def ending : List Layer → Ending
  | [] => .body
  | l :: ls => match l.decoration with
    | .task _ options => .task l options ls
    | _ => ending ls

/-- The layers that a call goes through: all of them, or those up to the first task. -/
def reached : List Layer → List Layer
  | [] => []
  | l :: ls => match l.decoration with
    | .task _ _ => [l]
    | _ => l :: reached ls

/-- Runs what a call has arrived at. -/
def Ending.run (f : BareFunction) : Ending → Procedure Value
  | body => f.invoke
  | task l options inner => l.perform options inner f

/-- Annotations write into a descriptor one after another, the outermost first. -/
def Decoration.configureAll (f : Signature) (as : List Decoration) (e : Element) :
    Except ConfigurationError Element :=
  as.foldlM (fun e a => a.configure f e) e

/-- The layers without a mark. -/
def Memory.unmarked (m : Memory) (ls : List Layer) : List Layer :=
  ls.filter fun l => ¬ m.configured l.id

/-- What a layer writes into the blueprint: nothing where descriptors are not configured, and
nothing again once it is marked. -/
def Layer.contribute (m : Memory) (c : Context) (f : Signature) (l : Layer) (b : Blueprint) :
    Except ConfigurationError Blueprint :=
  if c.configures ∧ ¬ m.configured l.id then
    (l.decoration.configure f (b.element.getD .empty)).map fun e =>
      ⟨some e, b.deferred ++ [l.id], true⟩
  else .ok b

/-- The blueprint behind layers. -/
def drawUp (m : Memory) (c : Context) (f : Signature) (ls : List Layer) (b : Blueprint) :
    Except ConfigurationError Blueprint :=
  ls.foldlM (fun b l => l.contribute m c f b) b

/-- The draft behind layers whose blueprint is not refused. -/
def Draft.pass (c : Context) (registry : Dict Transform) (f : Signature) :
    List Decoration → Draft → Except TaskError Unit × Draft
  | [], d => (.ok (), d)
  | a :: as, d =>
    if c.admitsCalls then
      match d.prepare c registry f a with
      | (.ok (), d) => pass c registry f as (d.openFrame a.keepsMarks)
      | (.error e, d) => (.error e, d)
    else (.error (.outOfScope a.name), d)

/-- A draft that substitutes nothing and waits for nothing, whatever the layers declare. -/
structure Draft.Idle (d : Draft) : Prop where
  given : (d.transformationsTaken || d.transformations.isSome) = true
  nothing : d.transformations.getD [] = []
  waits : d.dependencies = []

/-- Blueprint and draft behind layers, or the first failure on the way. -/
def walk (m : Memory) (c : Context) (registry : Dict Transform) (f : Signature) :
    List Layer → Blueprint → Draft → Except TaskError Blueprint × Draft
  | [], b, d => (.ok b, d)
  | l :: ls, b, d =>
    if c.admitsCalls then
      match l.contribute m c f b with
      | .error e => (.error (.configuration e), d)
      | .ok b => match d.prepare c registry f l.decoration with
        | (.ok (), d) => walk m c registry f ls b (d.openFrame l.decoration.keepsMarks)
        | (.error e, d) => (.error e, d)
    else (.error (.outOfScope l.decoration.name), d)

def Decoration.isTask : Decoration → Bool
  | task _ _ => true
  | _ => false

theorem Decoration.isTask_iff {a : Decoration} :
    a.isTask = true ↔ ∃ arguments options, a = .task arguments options := by
  constructor
  · intro task
    cases a with
    | task arguments options => exact ⟨arguments, options, rfl⟩
    | _ => cases task
  · rintro ⟨arguments, options, rfl⟩
    rfl

theorem reached_cons {l : Layer} (other : l.decoration.isTask = false) (ls : List Layer) :
    reached (l :: ls) = l :: reached ls ∧ ending (l :: ls) = ending ls := by
  obtain ⟨id, decoration, context⟩ := l
  cases decoration with
  | task arguments options => cases other
  | _ => exact ⟨rfl, rfl⟩

theorem ending_cons_task {l : Layer} (task : l.decoration.isTask = true) (ls : List Layer) :
    ∃ options, reached (l :: ls) = [l] ∧ ending (l :: ls) = .task l options ls := by
  obtain ⟨arguments, options, decoration⟩ := Decoration.isTask_iff.mp task
  refine ⟨options, ?_, ?_⟩
  · unfold reached
    rw [decoration]
  · unfold ending
    rw [decoration]

/-- Layers without a task are gone through. -/
theorem reached_append {xs : List Layer} (noTask : ∀ l ∈ xs, l.decoration.isTask = false)
    (ys : List Layer) : reached (xs ++ ys) = xs ++ reached ys ∧ ending (xs ++ ys) = ending ys := by
  induction xs with
  | nil => exact ⟨rfl, rfl⟩
  | cons l xs ih =>
    obtain ⟨layers, arrival⟩ := ih fun x hx => noTask x (List.mem_cons_of_mem l hx)
    obtain ⟨layers', arrival'⟩ := reached_cons (noTask l List.mem_cons_self) (xs ++ ys)
    rw [List.cons_append, layers', arrival', layers, arrival]
    exact ⟨rfl, rfl⟩

/-- How a call goes inwards. -/
inductive Inwards (ls : List Layer) : Prop where
  /-- There is no task, and it goes through all layers. -/
  | body (noTask : ∀ l ∈ ls, l.decoration.isTask = false) (layers : reached ls = ls)
    (arrival : ending ls = .body)
  /-- It goes up to the first task. -/
  | task (outer : List Layer) (l : Layer) (inner : List Layer) (arguments : Arguments)
    (options : TaskOptions) (split : ls = outer ++ l :: inner)
    (noTask : ∀ x ∈ outer, x.decoration.isTask = false)
    (decoration : l.decoration = .task arguments options) (layers : reached ls = outer ++ [l])
    (arrival : ending ls = .task l options inner)

theorem Inwards.of_split {outer : List Layer} {l : Layer} {arguments : Arguments}
    {options : TaskOptions} (noTask : ∀ x ∈ outer, x.decoration.isTask = false)
    (decoration : l.decoration = .task arguments options) (inner : List Layer) :
    reached (outer ++ l :: inner) = outer ++ [l] ∧
      ending (outer ++ l :: inner) = .task l options inner := by
  rw [(reached_append noTask _).1, (reached_append noTask _).2]
  unfold reached ending
  rw [decoration]
  exact ⟨rfl, rfl⟩

theorem inwards (ls : List Layer) : Inwards ls := by
  induction ls with
  | nil => exact .body (fun l absent => nomatch absent) rfl rfl
  | cons x ls ih =>
    cases first : x.decoration.isTask with
    | true =>
      obtain ⟨arguments, options, decoration⟩ := Decoration.isTask_iff.mp first
      have noTask : ∀ y ∈ ([] : List Layer), y.decoration.isTask = false :=
        fun y absent => nomatch absent
      obtain ⟨layers, arrival⟩ := Inwards.of_split noTask decoration ls
      exact .task [] x ls arguments options rfl noTask decoration layers arrival
    | false =>
      obtain ⟨layers, arrival⟩ := reached_cons first ls
      cases ih with
      | body noTask layers' arrival' =>
        exact .body (List.forall_mem_cons.mpr ⟨first, noTask⟩) (by rw [layers, layers'])
          (arrival.trans arrival')
      | task outer l inner arguments options split noTask decoration layers' arrival' =>
        exact .task (x :: outer) l inner arguments options (by rw [split, List.cons_append])
          (List.forall_mem_cons.mpr ⟨first, noTask⟩) decoration
          (by rw [layers, layers', List.cons_append]) (arrival.trans arrival')

/-- A task that is reached stands behind layers without a task. -/
theorem split_of_ending {ls inner : List Layer} {l : Layer} {options : TaskOptions}
    (arrival : ending ls = .task l options inner) :
    ∃ outer arguments, ls = outer ++ l :: inner ∧ l.decoration = .task arguments options ∧
      (∀ x ∈ outer, x.decoration.isTask = false) ∧ reached ls = outer ++ [l] := by
  cases inwards ls with
  | body _ _ body => cases body.symm.trans arrival
  | task outer l' inner' arguments options' split noTask decoration layers task =>
    cases task.symm.trans arrival
    exact ⟨outer, arguments, split, decoration, noTask, layers⟩

/-- Layers of which only the innermost one is a task lead to that task. -/
theorem ending_of_innermost {ls : List Layer} {inner : List Decoration} {arguments : Arguments}
    {options : TaskOptions}
    (layers : ls.map (·.decoration) = inner ++ [.task arguments options])
    (noTask : ∀ a ∈ inner, a.isTask = false) :
    reached ls = ls ∧ ∃ l, ending ls = .task l options [] := by
  obtain ⟨xs, ys, rfl, around, within⟩ := List.map_eq_append_iff.mp layers
  obtain ⟨l, rfl, decoration⟩ := List.map_eq_singleton_iff.mp within
  have noTask' (x : Layer) (hx : x ∈ xs) : x.decoration.isTask = false := by
    refine noTask x.decoration ?_
    rw [← around]
    exact List.mem_map_of_mem hx
  obtain ⟨layers, arrival⟩ := Inwards.of_split noTask' decoration []
  exact ⟨layers, l, arrival⟩

/-- A task without layers inside it is the only one. -/
theorem innermost_of_ending {ls : List Layer} {l : Layer} {options : TaskOptions}
    (arrival : ending ls = .task l options []) :
    ∃ inner arguments, ls.map (·.decoration) = inner ++ [.task arguments options] ∧
      ∀ a ∈ inner, a.isTask = false := by
  obtain ⟨outer, arguments, rfl, decoration, noTask, -⟩ := split_of_ending arrival
  refine ⟨outer.map (·.decoration), arguments, ?_, List.forall_mem_map.mpr noTask⟩
  rw [List.map_append, List.map_singleton, decoration]

/-- Which layers are reached is a matter of their annotations. -/
theorem reached_decorations {ls ls' : List Layer}
    (h : ls.map (·.decoration) = ls'.map (·.decoration)) :
    (reached ls).map (·.decoration) = (reached ls').map (·.decoration) := by
  induction ls generalizing ls' with
  | nil =>
    obtain rfl : ls' = [] := List.map_eq_nil_iff.mp h.symm
    rfl
  | cons l ls ih =>
    cases ls' with
    | nil => cases h
    | cons l' ls' =>
      obtain ⟨first, rest⟩ := List.cons.inj h
      have decoration : l.decoration = l'.decoration := first
      unfold reached
      rw [← decoration]
      split
      · exact List.cons_eq_cons.mpr ⟨first, rfl⟩
      · exact List.cons_eq_cons.mpr ⟨first, ih rest⟩

/-- A task that is reached is one of the layers. -/
theorem mem_of_ending {ls inner : List Layer} {l : Layer} {options : TaskOptions}
    (h : ending ls = .task l options inner) : l ∈ ls := by
  obtain ⟨outer, _, rfl, -⟩ := split_of_ending h
  exact List.mem_append_right outer List.mem_cons_self

/-- The layers that are reached are the outer ones. -/
theorem exists_eq_reached_append (ls : List Layer) : ∃ rest, ls = reached ls ++ rest := by
  cases inwards ls with
  | body _ layers _ => exact ⟨[], by rw [layers, List.append_nil]⟩
  | task outer l inner _ _ split _ _ layers _ =>
    exact ⟨inner, by rw [layers, List.append_assoc, split, List.singleton_append]⟩

theorem mem_of_reached {ls : List Layer} {l : Layer} (h : l ∈ reached ls) : l ∈ ls := by
  obtain ⟨rest, split⟩ := exists_eq_reached_append ls
  rw [split]
  exact List.mem_append_left rest h

/-- A call that arrives at the function itself or at an innermost task has gone through all
layers. -/
theorem reached_eq_self {ls : List Layer}
    (h : ∀ l options inner, ending ls = .task l options inner → inner = []) : reached ls = ls := by
  cases inwards ls with
  | body _ layers _ => exact layers
  | task outer l inner _ options split _ _ layers arrival =>
    obtain rfl := h l options inner arrival
    rw [layers, split]

/-- Nothing is reached behind layers with a task. -/
theorem reached_append_task {xs : List Layer} (task : ∃ l ∈ xs, l.decoration.isTask = true)
    (ys : List Layer) :
    (∀ l ∈ reached (xs ++ ys), l ∈ xs) ∧
      ∀ l options inner, ending (xs ++ ys) = .task l options inner → l ∈ xs := by
  cases inwards xs with
  | body noTask _ _ =>
    obtain ⟨l, hl, task⟩ := task
    cases (noTask l hl).symm.trans task
  | task outer l inner _ options split noTask decoration _ _ =>
    obtain ⟨layers, arrival⟩ := Inwards.of_split noTask decoration (inner ++ ys)
    rw [split, List.append_assoc, List.cons_append, layers, arrival]
    constructor
    · rw [List.append_cons outer l inner]
      exact fun x hx => List.mem_append_left inner hx
    · intro l' _ _ same
      cases same
      exact List.mem_append_right outer List.mem_cons_self

/-- No annotation but the last one is a task. -/
def Decoration.Ordered (as : List Decoration) : Prop := ∀ a ∈ as.dropLast, a.isTask = false

theorem Decoration.ordered_append {as bs : List Decoration} (some : bs ≠ []) :
    Ordered (as ++ bs) ↔ (∀ a ∈ as, a.isTask = false) ∧ Ordered bs := by
  unfold Ordered
  rw [List.dropLast_append_of_ne_nil some]
  exact List.forall_mem_append

theorem Decoration.ordered_task_cons {arguments : Arguments} {options : TaskOptions}
    {as : List Decoration} : Ordered (task arguments options :: as) ↔ as = [] := by
  constructor
  · intro ordered
    cases as with
    | nil => rfl
    | cons a as => cases ordered (task arguments options) List.mem_cons_self
  · rintro rfl a absent
    cases absent

/-- Layers are in order exactly if the task that is reached, if any, has none inside it. -/
theorem ordered_iff {ls : List Layer} :
    Decoration.Ordered (ls.map (·.decoration)) ↔
      ∀ l options inner, ending ls = .task l options inner → inner = [] := by
  cases inwards ls with
  | body noTask _ arrival =>
    have noTask' : ∀ a ∈ ls.map (·.decoration), a.isTask = false := List.forall_mem_map.mpr noTask
    rw [arrival]
    exact ⟨fun _ _ _ _ same => (nomatch same),
      fun _ a member => noTask' a (List.dropLast_subset _ member)⟩
  | task outer l inner arguments options split noTask decoration _ arrival =>
    have noTask' : ∀ a ∈ outer.map (·.decoration), a.isTask = false :=
      List.forall_mem_map.mpr noTask
    rw [split, List.map_append, List.map_cons, decoration,
      Decoration.ordered_append (List.cons_ne_nil _ _), Decoration.ordered_task_cons,
      List.map_eq_nil_iff, ← split, arrival]
    constructor
    · rintro ⟨-, rfl⟩ _ _ _ same
      cases same
      rfl
    · exact fun innermost => ⟨noTask', innermost l options inner rfl⟩

/-- A call through layers without a task arrives at the function itself. -/
theorem ending_eq_body_iff {ls : List Layer} :
    ending ls = .body ↔ ∀ l ∈ ls, l.decoration.isTask = false := by
  cases inwards ls with
  | body noTask _ arrival => exact ⟨fun _ => noTask, fun _ => arrival⟩
  | task outer l inner _ _ split _ decoration _ arrival =>
    refine ⟨fun same => (nomatch arrival.symm.trans same), fun noTask => ?_⟩
    have other : l.decoration.isTask = false := by
      apply noTask
      rw [split]
      exact List.mem_append_right outer List.mem_cons_self
    rw [decoration] at other
    cases other

section Steps

open Change Procedure

variable {f : Signature} {l : Layer} {s : Situation}

theorem Layer.checkContext_runOn_admitted (admitted : s.call.context.admitsCalls = true) :
    l.checkContext.runOn s = (.ok (), s) := by
  unfold checkContext
  rw [runOn_get_bind, if_pos admitted]
  rfl

theorem Layer.checkContext_runOn_refused (refused : ¬ s.call.context.admitsCalls = true) :
    l.checkContext.runOn s = (.error (.outOfScope l.decoration.name), s) := by
  unfold checkContext
  rw [runOn_get_bind, if_neg refused]
  rfl

/-- A layer that is to write takes the gate and asks for the descriptor, also where its annotation
refuses to write. -/
theorem Layer.configure_runOn_due
    (due : s.call.context.configures = true ∧ ¬ s.host.memory.configured l.id = true) :
    (l.configure f).runOn s = match l.decoration.configure f s.call.descriptor with
      | .ok e => (.ok (), { s with call := (s.call.hold.withElement e).defer l.id })
      | .error cause => (.error (.configuration cause),
          { s with call := s.call.hold.withElement s.call.descriptor }) := by
  have ran := l.decoration.write_runOn f s.call.descriptor
  unfold configure
  rw [runOn_get_bind, if_pos due, runOn_bind_ok (runOn_modifyCall _ s)]
  cases written : l.decoration.configure f s.call.descriptor with
  | ok e =>
    rw [written] at ran
    exact runOn_bind_ok (runOn_onDescriptor_ok (s := { s with call := s.call.hold }) ran)
  | error cause =>
    rw [written] at ran
    exact runOn_bind_error (runOn_onDescriptor_error (s := { s with call := s.call.hold }) ran)

theorem Layer.configure_runOn_idle
    (idle : ¬ (s.call.context.configures = true ∧ ¬ s.host.memory.configured l.id = true)) :
    (l.configure f).runOn s = (.ok (), s) := by
  unfold configure
  rw [runOn_get_bind, if_neg idle]
  rfl

theorem Layer.configure_runOn {b : Blueprint}
    (h : l.contribute s.host.memory s.call.context f s.blueprint = .ok b) :
    (l.configure f).runOn s = (.ok (), s.draw b) := by
  unfold Layer.contribute at h
  by_cases due : s.call.context.configures = true ∧ ¬ s.host.memory.configured l.id = true
  · rw [if_pos due] at h
    rw [configure_runOn_due due]
    change (l.decoration.configure f s.call.descriptor).map _ = .ok b at h
    cases written : l.decoration.configure f s.call.descriptor with
    | error e =>
      rw [written] at h
      cases h
    | ok e =>
      rw [written] at h
      cases h
      rfl
  · rw [if_neg due] at h
    cases h
    exact configure_runOn_idle due

theorem Layer.configure_effectOn_error {e : ConfigurationError}
    (h : l.contribute s.host.memory s.call.context f s.blueprint = .error e) :
    (l.configure f).effectOn s = (.error (.configuration e), s.host) := by
  unfold Layer.contribute at h
  by_cases due : s.call.context.configures = true ∧ ¬ s.host.memory.configured l.id = true
  · rw [if_pos due] at h
    change (l.decoration.configure f s.call.descriptor).map _ = .error e at h
    cases refused : l.decoration.configure f s.call.descriptor with
    | error cause =>
      rw [refused] at h
      cases h
      refine effectOn_of_runOn (t := { s with call := s.call.hold.withElement s.call.descriptor }) ?_
      rw [configure_runOn_due due, refused]
    | ok e =>
      rw [refused] at h
      cases h
  · rw [if_neg due] at h
    cases h

/-- A layer that agrees to a call and prepares it. -/
theorem Layer.enter_runOn {b : Blueprint} {d : Draft}
    (admitted : s.call.context.admitsCalls = true)
    (written : l.contribute s.host.memory s.call.context f s.blueprint = .ok b)
    (prepared : s.draft.prepare s.call.context s.host.registry f l.decoration = (.ok (), d)) :
    (l.enter f).runOn s = (.ok (), (s.adopt d).draw b) := by
  unfold enter
  rw [runOn_bind_ok (checkContext_runOn_admitted admitted),
    runOn_bind_ok (configure_runOn written), Decoration.prepare_runOn]
  change ((s.draft.prepare s.call.context s.host.registry f l.decoration).1,
    (s.adopt (s.draft.prepare s.call.context s.host.registry f l.decoration).2).draw b) = _
  rw [prepared]

theorem Layer.enter_effectOn_refused (refused : ¬ s.call.context.admitsCalls = true) :
    (l.enter f).effectOn s = (.error (.outOfScope l.decoration.name), s.host) :=
  effectOn_bind_error (effectOn_of_runOn (checkContext_runOn_refused refused))

theorem Layer.enter_effectOn_unwritten {e : ConfigurationError}
    (admitted : s.call.context.admitsCalls = true)
    (unwritten : l.contribute s.host.memory s.call.context f s.blueprint = .error e) :
    (l.enter f).effectOn s = (.error (.configuration e), s.host) := by
  unfold enter
  rw [effectOn_bind_ok (checkContext_runOn_admitted admitted)]
  exact effectOn_bind_error (configure_effectOn_error unwritten)

theorem Layer.enter_effectOn_unprepared {b : Blueprint} {d : Draft} {e : TaskError}
    (admitted : s.call.context.admitsCalls = true)
    (written : l.contribute s.host.memory s.call.context f s.blueprint = .ok b)
    (prepared : s.draft.prepare s.call.context s.host.registry f l.decoration = (.error e, d)) :
    (l.enter f).effectOn s = (.error e, (s.adopt d).host) := by
  unfold enter
  rw [effectOn_bind_ok (checkContext_runOn_admitted admitted),
    effectOn_bind_ok (configure_runOn written)]
  refine effectOn_of_runOn (t := (s.adopt d).draw b) ?_
  rw [Decoration.prepare_runOn]
  change ((s.draft.prepare s.call.context s.host.registry f l.decoration).1,
    (s.adopt (s.draft.prepare s.call.context s.host.registry f l.decoration).2).draw b) = _
  rw [prepared]

end Steps

section Walks

variable {m m' : Memory} {c : Context} {registry : Dict Transform} {f : Signature}

theorem drawUp_cons (l : Layer) (ls : List Layer) (b : Blueprint) :
    drawUp m c f (l :: ls) b = l.contribute m c f b >>= drawUp m c f ls := rfl

theorem Layer.contribute_plain {l : Layer} {b : Blueprint} (plain : ¬ c.configures = true) :
    l.contribute m c f b = .ok b := if_neg fun writes => plain writes.1

theorem Layer.contribute_marked {l : Layer} {b : Blueprint} (marked : m.configured l.id = true) :
    l.contribute m c f b = .ok b := if_neg fun writes => writes.2 marked

theorem Layer.contribute_unmarked {l : Layer} {b : Blueprint} (configures : c.configures = true)
    (unmarked : ¬ m.configured l.id = true) :
    l.contribute m c f b = (l.decoration.configure f (b.element.getD .empty)).map fun e =>
      ⟨some e, b.deferred ++ [l.id], true⟩ := if_pos ⟨configures, unmarked⟩

/-- Nothing is written where descriptors are not configured. -/
theorem drawUp_plain (plain : ¬ c.configures = true) (ls : List Layer) (b : Blueprint) :
    drawUp m c f ls b = .ok b := by
  induction ls with
  | nil => rfl
  | cons l ls ih =>
    rw [drawUp_cons, Layer.contribute_plain plain]
    exact ih

/-- Where descriptors are configured, the layers without a mark write. -/
theorem drawUp_configures (configures : c.configures = true) (ls : List Layer) (b : Blueprint) :
    drawUp m c f ls b =
      if m.unmarked ls = [] then .ok b
      else (Decoration.configureAll f ((m.unmarked ls).map (·.decoration))
          (b.element.getD .empty)).map fun e =>
        ⟨some e, b.deferred ++ (m.unmarked ls).map (·.id), true⟩ := by
  induction ls generalizing b with
  | nil => rfl
  | cons l ls ih =>
    rw [drawUp_cons]
    by_cases marked : m.configured l.id = true
    · have skipped : m.unmarked (l :: ls) = m.unmarked ls :=
        List.filter_cons_of_neg (by simpa using marked)
      rw [Layer.contribute_marked marked, skipped]
      exact ih b
    · have written : m.unmarked (l :: ls) = l :: m.unmarked ls :=
        List.filter_cons_of_pos (by simpa using marked)
      rw [Layer.contribute_unmarked configures marked, written, if_neg (List.cons_ne_nil _ _),
        List.map_cons, List.map_cons]
      change (Except.map _ _ >>= _) =
        Except.map _ (l.decoration.configure f (b.element.getD .empty) >>= _)
      cases l.decoration.configure f (b.element.getD .empty) with
      | error e => rfl
      | ok e =>
        change drawUp m c f ls ⟨some e, b.deferred ++ [l.id], true⟩ = _
        rw [ih]
        by_cases last : m.unmarked ls = []
        · rw [if_pos last, last]
          rfl
        · rw [if_neg last, List.append_assoc]
          rfl

/-- A blueprint that is drawn up from nothing is what the layers without a mark write. -/
theorem drawUp_blank {ls : List Layer} {b : Blueprint} (configures : c.configures = true)
    (drawn : drawUp m c f ls .blank = .ok b) :
    (m.unmarked ls = [] ∧ b = .blank) ∨
      (m.unmarked ls ≠ [] ∧ ∃ e,
        Decoration.configureAll f ((m.unmarked ls).map (·.decoration)) .empty = .ok e ∧
        b = ⟨some e, (m.unmarked ls).map (·.id), true⟩) := by
  rw [drawUp_configures configures] at drawn
  by_cases none : m.unmarked ls = []
  · rw [if_pos none] at drawn
    exact .inl ⟨none, (Except.ok.inj drawn).symm⟩
  · rw [if_neg none] at drawn
    change (Decoration.configureAll f ((m.unmarked ls).map (·.decoration)) .empty).map _ = _
      at drawn
    cases written : Decoration.configureAll f ((m.unmarked ls).map (·.decoration)) .empty with
    | error e =>
      rw [written] at drawn
      cases drawn
    | ok e =>
      rw [written] at drawn
      exact .inr ⟨none, e, rfl, (Except.ok.inj drawn).symm⟩

/-- A blueprint marks none but the layers it has come through. -/
theorem mem_of_deferred {ls : List Layer} {b : Blueprint} {i : LayerId}
    (drawn : drawUp m c f ls .blank = .ok b) (h : i ∈ b.deferred) : ∃ l ∈ ls, l.id = i := by
  by_cases configures : c.configures = true
  · rcases drawUp_blank configures drawn with ⟨_, rfl⟩ | ⟨_, e, _, rfl⟩
    · cases h
    · obtain ⟨l, hl, rfl⟩ := List.mem_map.mp h
      exact ⟨l, (List.mem_filter.mp hl).1, rfl⟩
  · rw [drawUp_plain configures] at drawn
    cases drawn
    cases h

/-- Where the blueprint is not refused, the walk is that of the draft. -/
theorem walk_of_drawUp {ls : List Layer} {b b' : Blueprint} (d : Draft)
    (drawn : drawUp m c f ls b = .ok b') :
    walk m c registry f ls b d =
      ((d.pass c registry f (ls.map (·.decoration))).1.map fun _ => b',
        (d.pass c registry f (ls.map (·.decoration))).2) := by
  induction ls generalizing b d with
  | nil =>
    cases drawn
    rfl
  | cons l ls ih =>
    rw [drawUp_cons] at drawn
    unfold walk
    rw [List.map_cons]
    unfold Draft.pass
    by_cases admitted : c.admitsCalls = true
    · rw [if_pos admitted, if_pos admitted]
      cases written : l.contribute m c f b with
      | error e =>
        rw [written] at drawn
        cases drawn
      | ok b₁ =>
        rw [written] at drawn
        rcases d.prepare c registry f l.decoration with ⟨r, d⟩
        cases r with
        | error e => rfl
        | ok u => exact ih (d.openFrame l.decoration.keepsMarks) drawn
    · rw [if_neg admitted, if_neg admitted]
      rfl

/-- Behind a walk that succeeds, the blueprint has not been refused. -/
theorem drawUp_of_walk {ls : List Layer} {b b' : Blueprint} {d d' : Draft}
    (walked : walk m c registry f ls b d = (.ok b', d')) : drawUp m c f ls b = .ok b' := by
  induction ls generalizing b d with
  | nil =>
    cases walked
    rfl
  | cons l ls ih =>
    unfold walk at walked
    rw [drawUp_cons]
    by_cases admitted : c.admitsCalls = true
    · rw [if_pos admitted] at walked
      cases written : l.contribute m c f b with
      | error e =>
        rw [written] at walked
        cases walked
      | ok b₁ =>
        rw [written] at walked
        dsimp only at walked
        rcases prepared : d.prepare c registry f l.decoration with ⟨r, d₁⟩
        rw [prepared] at walked
        cases r with
        | error e => cases walked
        | ok u => exact ih walked
    · rw [if_neg admitted] at walked
      cases walked

/-- Where the blueprint is refused, the walk stops. -/
theorem walk_of_refused {ls : List Layer} {b : Blueprint} {e : ConfigurationError}
    (refused : drawUp m c f ls b = .error e) (registry : Dict Transform) (d : Draft) :
    ∃ e' d', walk m c registry f ls b d = (.error e', d') := by
  rcases walked : walk m c registry f ls b d with ⟨_ | b', d'⟩
  · exact ⟨_, _, rfl⟩
  · cases refused.symm.trans (drawUp_of_walk walked)

/-- Behind a walk that succeeds, the draft has passed. -/
theorem pass_of_walk {ls : List Layer} {b b' : Blueprint} {d d' : Draft}
    (walked : walk m c registry f ls b d = (.ok b', d')) :
    d.pass c registry f (ls.map (·.decoration)) = (.ok (), d') := by
  rw [walk_of_drawUp d (drawUp_of_walk walked)] at walked
  rcases passed : d.pass c registry f (ls.map (·.decoration)) with ⟨r, d₁⟩
  rw [passed] at walked
  cases r with
  | error e => cases walked
  | ok u =>
    cases walked
    exact passed

theorem Draft.prepare_idle {d : Draft} (c : Context) (registry : Dict Transform) (f : Signature)
    (idle : d.Idle) (a : Decoration) :
    ∃ d', d.prepare c registry f a = (.ok (), d') ∧ d'.Idle := by
  unfold prepare
  split
  · split
    · have nothing (declared : List Substitution) : d.due declared = [] := by
        unfold due
        rw [if_pos idle.given]
        exact idle.nothing
      rw [nothing]
      exact ⟨d.take, rfl, idle.given ▸ Bool.or_false _, rfl, idle.waits⟩
    · exact ⟨d, rfl, idle⟩
  · cases a.nodes? with
    | none => exact ⟨d, rfl, idle⟩
    | some nodes => exact ⟨_, rfl, idle.given, idle.nothing, idle.waits⟩

/-- An idle draft passes. -/
theorem Draft.pass_idle {d : Draft} (admitted : c.admitsCalls = true)
    (registry : Dict Transform) (f : Signature) (idle : d.Idle) (as : List Decoration) :
    ∃ d', d.pass c registry f as = (.ok (), d') ∧ d'.Idle := by
  induction as generalizing d with
  | nil => exact ⟨d, rfl, idle⟩
  | cons a as ih =>
    obtain ⟨d', prepared, idle'⟩ := d.prepare_idle c registry f idle a
    unfold pass
    rw [if_pos admitted, prepared]
    exact ih ⟨idle'.given, idle'.nothing, idle'.waits⟩

/-- The annotations of layers, each with whether its layer is marked. -/
def Memory.marks (m : Memory) (ls : List Layer) : List (Decoration × Bool) :=
  ls.map fun l => (l.decoration, m.configured l.id)

/-- Layers that all have the same mark. -/
theorem Memory.marks_of_forall {ls : List Layer} {mark : Bool}
    (h : ∀ l ∈ ls, m.configured l.id = mark) :
    m.marks ls = (ls.map (·.decoration)).map fun a => (a, mark) := by
  unfold marks
  rw [List.map_map]
  exact List.map_congr_left fun l hl => congrArg (Prod.mk l.decoration) (h l hl)

/-- A layer writes what its annotation and its mark say. -/
theorem Layer.contribute_congr {l l' : Layer} {b b' : Blueprint}
    (configure : l.decoration.configure f = l'.decoration.configure f)
    (mark : m.configured l.id = m'.configured l'.id) (element : b.element = b'.element) :
    (l.contribute m c f b).map (·.element) = (l'.contribute m' c f b').map (·.element) := by
  unfold contribute
  rw [mark, configure, element]
  by_cases writes : c.configures = true ∧ ¬ m'.configured l'.id = true
  · rw [if_pos writes, if_pos writes]
    cases l'.decoration.configure f (b'.element.getD .empty) with
    | error e => rfl
    | ok e => rfl
  · rw [if_neg writes, if_neg writes]
    change Except.ok b.element = Except.ok b'.element
    rw [element]

/-- Two walks that write alike and prepare alike, up to a change of the drafts, in their outermost
layers and behind them. -/
theorem walk_cons_congr {l l' : Layer} {ls ls' : List Layer} {b b' : Blueprint}
    {registry : Dict Transform} {d : Draft} (change : Draft → Draft)
    (name : l.decoration.name = l'.decoration.name)
    (configure : l.decoration.configure f = l'.decoration.configure f)
    (mark : m.configured l.id = m'.configured l'.id) (element : b.element = b'.element)
    (prepare : (change d).prepare c registry f l'.decoration =
      ((d.prepare c registry f l.decoration).1, change (d.prepare c registry f l.decoration).2))
    (behind : ∀ b b' d₁, b.element = b'.element →
      d.prepare c registry f l.decoration = (.ok (), d₁) →
      ((walk m c registry f ls b (d₁.openFrame l.decoration.keepsMarks)).1.map (·.element),
          change (walk m c registry f ls b (d₁.openFrame l.decoration.keepsMarks)).2) =
        ((walk m' c registry f ls' b' ((change d₁).openFrame l'.decoration.keepsMarks)).1.map
            (·.element),
          (walk m' c registry f ls' b' ((change d₁).openFrame l'.decoration.keepsMarks)).2)) :
    ((walk m c registry f (l :: ls) b d).1.map (·.element),
        change (walk m c registry f (l :: ls) b d).2) =
      ((walk m' c registry f (l' :: ls') b' (change d)).1.map (·.element),
        (walk m' c registry f (l' :: ls') b' (change d)).2) := by
  have written := Layer.contribute_congr (c := c) configure mark element
  unfold walk
  rw [← name, prepare]
  by_cases admitted : c.admitsCalls = true
  · rw [if_pos admitted, if_pos admitted]
    cases here : l.contribute m c f b with
    | error e =>
      cases there : l'.contribute m' c f b' with
      | error e' =>
        rw [here, there] at written
        cases written
        rfl
      | ok b₁' =>
        rw [here, there] at written
        cases written
    | ok b₁ =>
      cases there : l'.contribute m' c f b' with
      | error e' =>
        rw [here, there] at written
        cases written
      | ok b₁' =>
        rw [here, there] at written
        have element₁ : b₁.element = b₁'.element := Except.ok.inj written
        dsimp only
        rcases prepared : d.prepare c registry f l.decoration with ⟨r, d₁⟩
        cases r with
        | error e => rfl
        | ok u => exact behind b₁ b₁' d₁ element₁ prepared
  · rw [if_neg admitted, if_neg admitted]

/-- Two walks through the same annotations with the same marks go alike. -/
theorem walk_congr {ls ls' : List Layer} {b b' : Blueprint} (c : Context)
    (registry : Dict Transform) (f : Signature) (d : Draft)
    (marks : m.marks ls = m'.marks ls') (element : b.element = b'.element) :
    ((walk m c registry f ls b d).1.map (·.element), (walk m c registry f ls b d).2) =
      ((walk m' c registry f ls' b' d).1.map (·.element), (walk m' c registry f ls' b' d).2) := by
  induction ls generalizing ls' b b' d with
  | nil =>
    obtain rfl : ls' = [] := List.map_eq_nil_iff.mp marks.symm
    change (Except.ok b.element, d) = (Except.ok b'.element, d)
    rw [element]
  | cons l ls ih =>
    cases ls' with
    | nil => cases marks
    | cons l' ls' =>
      obtain ⟨first, rest⟩ := List.cons.inj marks
      obtain ⟨decoration, mark⟩ := Prod.mk.inj first
      refine walk_cons_congr id (congrArg Decoration.name decoration)
        (congrArg (·.configure f) decoration) mark element ?_ ?_
      · rw [← decoration]
        rfl
      · intro b b' d₁ element _
        rw [← decoration]
        exact ih _ rest element

/-- Behind the outer layers a walk goes on, unless it has stopped there. -/
theorem walk_append (xs ys : List Layer) (b : Blueprint) (d : Draft) :
    walk m c registry f (xs ++ ys) b d = match walk m c registry f xs b d with
      | (.ok b', d') => walk m c registry f ys b' d'
      | (.error e, d') => (.error e, d') := by
  induction xs generalizing b d with
  | nil => rfl
  | cons l xs ih =>
    rw [List.cons_append, walk, walk]
    by_cases admitted : c.admitsCalls = true
    · rw [if_pos admitted, if_pos admitted]
      cases l.contribute m c f b with
      | error e => rfl
      | ok b₁ =>
        dsimp only
        rcases d.prepare c registry f l.decoration with ⟨r, d₁⟩
        cases r with
        | error e => rfl
        | ok u => exact ih b₁ (d₁.openFrame l.decoration.keepsMarks)
    · rw [if_neg admitted, if_neg admitted]

/-- What had been started before a walk makes no difference to it. -/
theorem walk_after (m : Memory) (c : Context) (registry : Dict Transform) (f : Signature)
    (units : List UnitRecord) (ls : List Layer) (b : Blueprint) (d : Draft) :
    walk m c registry f ls b (d.after units) =
      ((walk m c registry f ls b d).1, (walk m c registry f ls b d).2.after units) := by
  induction ls generalizing b d with
  | nil => rfl
  | cons l ls ih =>
    unfold walk
    by_cases admitted : c.admitsCalls = true
    · rw [if_pos admitted, if_pos admitted]
      cases l.contribute m c f b with
      | error e => rfl
      | ok b =>
        dsimp only
        rw [Draft.prepare_after]
        rcases d.prepare c registry f l.decoration with ⟨r, d⟩
        cases r with
        | error e => rfl
        | ok u => exact ih b (d.openFrame l.decoration.keepsMarks)
    · rw [if_neg admitted, if_neg admitted]

end Walks

open Change Procedure in
/-- A call walks through the layers it reaches and runs what it has arrived at. -/
theorem TaskFunction.invokeLayers_effectOn (f : BareFunction) (ls : List Layer) (s : Situation) :
    (invokeLayers f ls).effectOn s =
      match walk s.host.memory s.call.context s.host.registry f.signature (reached ls)
        s.blueprint s.draft with
      | (.ok b, d) => ((ending ls).run f).effectOn ((s.adopt d).draw b)
      | (.error e, d) => (.error e, (s.adopt d).host) := by
  induction ls generalizing s with
  | nil => rfl
  | cons l ls ih =>
    -- Every case starts with the same layer, so the walk is opened before the layer is looked at.
    have opened : ∃ rest, reached (l :: ls) = l :: rest := by
      unfold reached
      split
      · exact ⟨[], rfl⟩
      · exact ⟨_, rfl⟩
    obtain ⟨rest, opened⟩ := opened
    rw [opened]
    unfold walk invokeLayers
    by_cases admitted : s.call.context.admitsCalls = true
    · rw [if_pos admitted]
      cases written : l.contribute s.host.memory s.call.context f.signature s.blueprint with
      | error e => exact effectOn_bind_error (Layer.enter_effectOn_unwritten admitted written)
      | ok b =>
        rcases prepared : s.draft.prepare s.call.context s.host.registry f.signature l.decoration
          with ⟨r, d⟩
        cases r with
        | error e =>
          exact effectOn_bind_error (Layer.enter_effectOn_unprepared admitted written prepared)
        | ok u =>
          dsimp only
          rw [effectOn_bind_ok (Layer.enter_runOn admitted written prepared), effectOn_inFrame]
          unfold reached at opened
          unfold ending
          split
          · next task =>
            rw [task] at opened
            obtain rfl : [] = rest := (List.cons.inj opened).2
            rw [task]
            rfl
          · next other =>
            split at opened
            · next task => exact absurd task (other _ _)
            · next other' =>
              obtain rfl : reached ls = rest := (List.cons.inj opened).2
              exact ih _
    · rw [if_neg admitted]
      exact effectOn_bind_error (Layer.enter_effectOn_refused admitted)

end TaskDecoration
