import Mathlib.Data.List.Forall2
import TaskDecoration.Proofs.Declared

/-!
# What software stands for

A software file describes a task by constraints, hooks and a primary annotation. Declaring each of
these by itself gives the annotations of `SoftwareFile.stack`. The layer of the software annotation
does to admitted calls what a layer of constraints does (`Decoration.StandsFor`), and the layers
inside it are those of the other annotations, so nobody who is admitted can tell the two stacks
apart, wherever they stand and whatever has happened before: `software_stands_for_stack`.
-/

set_option autoImplicit false

namespace TaskDecoration

/-- What a software file says, as annotations by themselves, the outermost first. -/
def SoftwareFile.stack (file : SoftwareFile) : List (DecorationType × Arguments) :=
  (.constraint, .ofDict (file.constraints.getD .empty)) ::
    ((file.prolog.map fun d => (DecorationType.prolog, Arguments.ofDict d)).toList ++
      (file.epilog.map fun d => (DecorationType.epilog, Arguments.ofDict d)).toList ++
      ((kindOf? file.kind).map fun k =>
        (DecorationType.primary k, Arguments.ofDict file.properties)).toList)

/-- The annotations that a software annotation stands for. -/
def Software.stack (s : Software) : List Decoration :=
  .constraint (.ofDict s.constraints) ::
    ((s.prolog.map .prolog).toList ++ (s.epilog.map .epilog).toList ++ [.primary s.described])

theorem Software.flatMap_layers_stack (s : Software) :
    s.stack.flatMap (·.layers) = s.stack := by
  obtain ⟨described, constraints, prolog, epilog⟩ := s
  cases prolog <;> cases epilog <;> rfl

/-- Declares annotations one after another. -/
def DecorationType.declareAll (files : Files) (xs : List (DecorationType × Arguments)) :
    Except ConfigurationError (List Decoration) :=
  xs.mapM fun x => x.1.declare files x.2

/-- An annotation may stand for itself, and software for its constraints. -/
inductive Decoration.StandsFor : Decoration → Decoration → Prop where
  | itself (x : Decoration) : x.StandsFor x
  | constraints (a : Arguments) (s : Software) :
      (software a s).StandsFor (constraint (.ofDict s.constraints))

/-- Layers with the same number, the annotation of the first standing for that of the second. -/
structure Layer.StandsFor (l l' : Layer) : Prop where
  id : l.id = l'.id
  decoration : l.decoration.StandsFor l'.decoration

namespace Decoration.StandsFor

variable {x y : Decoration}

theorem configure (h : x.StandsFor y) : x.configure = y.configure := by
  cases h <;> rfl

theorem keepsMarks (h : x.StandsFor y) : x.keepsMarks = y.keepsMarks := by
  cases h <;> rfl

theorem prepare (h : x.StandsFor y) (d : Draft) (c : Context) (registry : Dict Transform)
    (f : Signature) : d.prepare c registry f x = d.prepare c registry f y := by
  cases h <;> rfl

end Decoration.StandsFor

section Walking

variable {ls ls' : List Layer}

/-- What a layer writes depends on its number and its annotation only. -/
theorem Layer.StandsFor.contribute {l l' : Layer} (h : l.StandsFor l') (m : Memory) (c : Context)
    (f : Signature) (b : Blueprint) : l.contribute m c f b = l'.contribute m c f b := by
  unfold Layer.contribute
  rw [h.id, h.decoration.configure]

theorem walk_standsFor {c : Context} (h : List.Forall₂ Layer.StandsFor ls ls')
    (admitted : c.admitsCalls = true) (m : Memory) (registry : Dict Transform) (f : Signature)
    (b : Blueprint) (d : Draft) : walk m c registry f ls b d = walk m c registry f ls' b d := by
  induction h generalizing b d with
  | nil => rfl
  | cons first _ ih =>
    unfold walk
    rw [if_pos admitted, if_pos admitted, first.contribute, first.decoration.prepare,
      first.decoration.keepsMarks]
    simp only [ih]

/-- Where no calls are admitted, the outermost layer sends them back as they came. -/
theorem walk_refused (l : Layer) (ls : List Layer) {c : Context}
    (refused : ¬ c.admitsCalls = true) (m : Memory) (registry : Dict Transform) (f : Signature)
    (b : Blueprint) (d : Draft) :
    ∃ e, walk m c registry f (reached (l :: ls)) b d = (.error e, d) := by
  by_cases task : l.decoration.isTask = true
  · obtain ⟨options, layers, -⟩ := ending_cons_task task ls
    rw [layers]
    exact ⟨_, if_neg refused⟩
  · rw [(reached_cons (Bool.eq_false_iff.mpr task) ls).1]
    exact ⟨_, if_neg refused⟩

theorem reached_standsFor (h : List.Forall₂ Layer.StandsFor ls ls') :
    List.Forall₂ Layer.StandsFor (reached ls) (reached ls') := by
  induction h with
  | nil => exact .nil
  | @cons l l' ls ls' first rest ih =>
    obtain ⟨id, decoration, made⟩ := l
    obtain ⟨id', decoration', made'⟩ := l'
    obtain ⟨rfl, stands⟩ := first
    cases stands with
    | itself =>
      cases decoration with
      | task a options => exact .cons ⟨rfl, .itself _⟩ .nil
      | _ => exact .cons ⟨rfl, .itself _⟩ ih
    | constraints a s => exact .cons ⟨rfl, .constraints a s⟩ ih

/-- A task is performed alike, whatever stands for the layers around it. -/
theorem ending_standsFor (h : List.Forall₂ Layer.StandsFor ls ls') (f : BareFunction) :
    (ending ls).run f = (ending ls').run f := by
  induction h with
  | nil => rfl
  | @cons l l' ls ls' first rest ih =>
    obtain ⟨id, decoration, made⟩ := l
    obtain ⟨id', decoration', made'⟩ := l'
    obtain ⟨rfl, stands⟩ := first
    cases stands with
    | itself =>
      cases decoration with
      | task a options =>
        have empty : ls.isEmpty = ls'.isEmpty := by
          cases rest <;> rfl
        change Layer.perform _ options ls f = Layer.perform _ options ls' f
        unfold Layer.perform
        rw [empty]
        rfl
      | _ => exact ih
    | constraints a s => exact ih

end Walking

theorem Orchestrator.layersFor_standsFor (o : Orchestrator) {as bs : List Decoration}
    (h : List.Forall₂ Decoration.StandsFor as bs) :
    List.Forall₂ Layer.StandsFor (o.layersFor as) (o.layersFor bs) := by
  induction h with
  | nil => exact .nil
  | cons first rest ih =>
    unfold layersFor
    rw [rest.length_eq]
    exact .cons ⟨rfl, first⟩ ih

namespace TaskFunction

/-- A function some of whose layers stand for those of another. -/
structure StandsFor (f g : TaskFunction) : Prop where
  base : f.base = g.base
  layers : List.Forall₂ Layer.StandsFor f.layers g.layers

/-- The function with layers put around it. -/
def within (f : TaskFunction) (around : List Layer) : TaskFunction := ⟨around ++ f.layers, f.base⟩

/-- Functions of which some are a given one with layers put around it. -/
def among {ι : Type} (others : ι → TaskFunction ⊕ List Layer) (f : TaskFunction) (i : ι) :
    TaskFunction :=
  (others i).elim id f.within

section Standing

variable {f g : TaskFunction}

theorem standsFor_self (f : TaskFunction) : f.StandsFor f :=
  ⟨rfl, List.forall₂_same.mpr fun _ _ => ⟨rfl, .itself _⟩⟩

theorem StandsFor.within (h : f.StandsFor g) (around : List Layer) :
    (f.within around).StandsFor (g.within around) :=
  ⟨h.base, List.rel_append (List.forall₂_same.mpr fun _ _ => ⟨rfl, .itself _⟩) h.layers⟩

theorem StandsFor.among {ι : Type} (h : f.StandsFor g) (others : ι → TaskFunction ⊕ List Layer)
    (i : ι) : (f.among others i).StandsFor (g.among others i) := by
  unfold TaskFunction.among
  cases others i with
  | inl other => exact standsFor_self other
  | inr around => exact h.within around

/-- An admitted call has the same result and leaves the same behind. -/
theorem StandsFor.effectOn (h : f.StandsFor g) {r : Request}
    (admitted : r.context.admitsCalls = true) (o : Orchestrator) :
    f.invoke.effectOn ⟨r.call, o⟩ = g.invoke.effectOn ⟨r.call, o⟩ := by
  have context : (⟨r.call, o⟩ : Situation).call.context.admitsCalls = true := admitted
  unfold invoke
  rw [invokeLayers_effectOn, invokeLayers_effectOn, h.base, ending_standsFor h.layers,
    walk_standsFor (reached_standsFor h.layers) context]

/-- A call that is not admitted leaves nothing behind. -/
theorem serve_refused {l : Layer} {ls : List Layer} {base : BareFunction} {r : Request}
    (refused : ¬ r.context.admitsCalls = true) (o : Orchestrator) :
    TaskFunction.serve ⟨l :: ls, base⟩ r o = o := by
  obtain ⟨e, stopped⟩ :=
    walk_refused l ls refused o.memory o.registry base.signature .blank r.draft
  have crossing : TaskFunction.cross ⟨l :: ls, base⟩ r o = (.error e, r.draft) := stopped
  rw [serve_eq, report_of_stopped crossing]
  unfold memoryAfter
  rw [crossing]
  change { o with journal := o.journal ++ Journal.empty } = o
  rw [Journal.append_empty]

/-- Any call leaves the same behind. -/
theorem StandsFor.serve (h : f.StandsFor g) (r : Request) (o : Orchestrator) :
    f.serve r o = g.serve r o := by
  by_cases admitted : r.context.admitsCalls = true
  · exact congrArg Prod.snd (h.effectOn admitted o)
  · obtain ⟨layers, base⟩ := f
    obtain ⟨layers', base'⟩ := g
    obtain ⟨rfl, layered⟩ := h
    cases layered with
    | nil => rfl
    | cons _ _ => rw [serve_refused admitted, serve_refused admitted]

/-- A history leaves the same behind, whoever else takes part in it. -/
theorem StandsFor.replay {ι : Type} {f g : ι → TaskFunction} (h : ∀ i, (f i).StandsFor (g i))
    (history : List (Event ι)) (o : Orchestrator) :
    Event.replay f history o = Event.replay g history o := by
  induction history generalizing o with
  | nil => rfl
  | cons e history ih =>
    have step : Event.apply f o e = Event.apply g o e := by
      cases e with
      | call which r => exact (h which).serve r o
      | move session => rfl
      | register name transform => rfl
    change Event.replay f history (Event.apply f o e) = Event.replay g history (Event.apply g o e)
    rw [step, ih]

/-- Annotations that stand for others make a function that stands for theirs. -/
theorem decorate_standsFor {as bs : List Decoration}
    (h : List.Forall₂ Decoration.StandsFor (as.flatMap (·.layers)) (bs.flatMap (·.layers)))
    (f : TaskFunction) (o : Orchestrator) :
    (decorate as f o).1.StandsFor (decorate bs f o).1 ∧
      (decorate as f o).2 = (decorate bs f o).2 := by
  rw [decorate_eq, decorate_eq, h.length_eq]
  refine ⟨⟨rfl, ?_⟩, rfl⟩
  exact List.rel_append (o.layersFor_standsFor h) (standsFor_self f).layers

end Standing

end TaskFunction

/-- Open rules refuse nothing. -/
theorem Rules.check_all (a : Arguments) (label : String) : all.check a label = .ok () := by
  have known : a.keyword.keys.find? (!all.knows ·) = none :=
    List.find?_eq_none.mpr fun _ _ => Bool.false_ne_true
  unfold check
  rw [known]
  rfl

section Declaring

variable {files : Files} {file : SoftwareFile} {s : Software}

theorem DecorationType.declareAll_append {xs xs' : List (DecorationType × Arguments)}
    {ys ys' : List Decoration} (first : declareAll files xs = .ok ys)
    (rest : declareAll files xs' = .ok ys') : declareAll files (xs ++ xs') = .ok (ys ++ ys') := by
  unfold declareAll at *
  rw [List.mapM_append, first, rest]
  rfl

/-- A hook of a file by itself. -/
theorem SoftwareFile.declareAll_hook (t : DecorationType) (put : DeclaredHook → Decoration)
    {label : String}
    (alone : ∀ d, t.declare files (.ofDict d) = (DeclaredHook.declare label (.ofDict d)).map put)
    {d : Option (Dict Value)} {h : Option DeclaredHook} (declared : declareHook label d = .ok h) :
    DecorationType.declareAll files (d.map fun d => (t, Arguments.ofDict d)).toList =
      .ok (h.map put).toList := by
  cases d with
  | none =>
    cases declared
    rfl
  | some d =>
    change (DeclaredHook.declare label (.ofDict d)).map some = .ok h at declared
    cases made : DeclaredHook.declare label (.ofDict d) with
    | error e =>
      rw [made] at declared
      cases declared
    | ok hook =>
      rw [made] at declared
      cases declared
      unfold DecorationType.declareAll
      simp [alone, made, Except.map]

/-- What a file describes can be declared piece by piece. -/
theorem SoftwareFile.declareAll_stack (declared : file.declare = .ok s) :
    DecorationType.declareAll files file.stack = .ok s.stack := by
  have constraint : DecorationType.declareAll files
      [(.constraint, .ofDict (file.constraints.getD .empty))] =
        .ok [.constraint (.ofDict (file.constraints.getD .empty))] := by
    have accepted := Rules.check_all (.ofDict (file.constraints.getD .empty))
      DecorationType.constraint.name
    change DecorationType.constraint.rules.check _ _ = _ at accepted
    simp [DecorationType.declareAll, DecorationType.declare, accepted]
  unfold declare at declared
  split at declared
  · next k kind =>
    obtain ⟨described, primary, declared⟩ := Except.bind_eq_ok_iff.mp declared
    obtain ⟨prolog, before, declared⟩ := Except.bind_eq_ok_iff.mp declared
    obtain ⟨epilog, after, declared⟩ := Except.bind_eq_ok_iff.mp declared
    cases declared
    have primary : DecorationType.declareAll files ((kindOf? file.kind).map fun k =>
        (DecorationType.primary k, Arguments.ofDict file.properties)).toList =
          .ok [.primary described] := by
      rw [kind]
      simp [DecorationType.declareAll, DecorationType.declare, primary, Except.map]
    exact DecorationType.declareAll_append constraint (DecorationType.declareAll_append
      (DecorationType.declareAll_append
        (declareAll_hook .prolog .prolog (fun _ => rfl) before)
        (declareAll_hook .epilog .epilog (fun _ => rfl) after)) primary)
  · cases declared

end Declaring

/-- A software annotation that can be declared stands for the annotations of its file: each of
them can be declared by itself, and whoever is admitted cannot tell the two stacks apart, wherever
they stand, whatever layers are put around them later and whatever has been called before. -/
theorem DecorationType.software_stands_for_stack {files : Files} {a : Arguments} {x : Decoration}
    (declared : software.declare files a = .ok x) :
    ∃ path file stack,
      a.requiredText configFile software.name = .ok path ∧
      (files path).bind SoftwareFile.ofBytes? = some file ∧
      declareAll files file.stack = .ok stack ∧
      ∀ (outer inner : List Decoration) (f : TaskFunction) (o : Orchestrator),
        (TaskFunction.decorate (outer ++ x :: inner) f o).2 =
          (TaskFunction.decorate (outer ++ stack ++ inner) f o).2 ∧
        ∀ {ι : Type} (others : ι → TaskFunction ⊕ List Layer) (history : List (Event ι))
          (start : Orchestrator) (i : ι) (r : Request), r.context.admitsCalls = true →
          let one := (TaskFunction.decorate (outer ++ x :: inner) f o).1.among others
          let other := (TaskFunction.decorate (outer ++ stack ++ inner) f o).1.among others
          (one i).invoke.effectOn ⟨r.call, Event.replay one history start⟩ =
            (other i).invoke.effectOn ⟨r.call, Event.replay other history start⟩ := by
  obtain ⟨_, _, rest⟩ := Except.bind_eq_ok_iff.mp declared
  obtain ⟨path, named, rest⟩ := Except.bind_eq_ok_iff.mp rest
  split at rest
  · cases rest
  · next file read =>
    obtain ⟨s, described, rest⟩ := Except.bind_eq_ok_iff.mp rest
    cases rest
    refine ⟨path, file, s.stack, named, read, SoftwareFile.declareAll_stack described, ?_⟩
    intro outer inner f o
    have layers : List.Forall₂ Decoration.StandsFor
        ((outer ++ .software a s :: inner).flatMap (·.layers))
        ((outer ++ s.stack ++ inner).flatMap (·.layers)) := by
      rw [List.flatMap_append, List.flatMap_append, List.flatMap_append, List.flatMap_cons,
        s.flatMap_layers_stack, List.append_assoc]
      refine List.rel_append (List.forall₂_same.mpr fun _ _ => .itself _) ?_
      refine List.rel_append (.cons (.constraints a s) ?_) (List.forall₂_same.mpr fun _ _ => .itself _)
      exact List.forall₂_same.mpr fun _ _ => .itself _
    obtain ⟨stands, made⟩ := TaskFunction.decorate_standsFor layers f o
    refine ⟨made, fun others history start i r admitted => ?_⟩
    have family := stands.among others
    dsimp only
    rw [TaskFunction.StandsFor.replay family, (family i).effectOn admitted]

/-- A single file, which describes a parallel program with constraints and a hook behind it. -/
def Files.sample : Files := fun path =>
  if path = "solver.json" then
    some ("\x7b\"type\": \"MPI\", \"properties\": \x7b\"runner\": \"srun\"\x7d," ++
      "\"constraints\": \x7b\"computing_units\": 4\x7d," ++
      "\"epilog\": \x7b\"binary\": \"sync\"\x7d\x7d").toUTF8
  else none

/-- A described task, called a second time after a call by which it was registered. -/
theorem DecorationType.software_stands_for_stack_sample :
    let a : Arguments := .ofDict (.ofList [(configFile, .text "solver.json")])
    let r : Request := .plain ⟨.master, false⟩ ⟨[.int 1], .empty⟩
    let task : Decoration := .task .empty .standard
    ∃ x stack, software.declare .sample a = .ok x ∧ r.context.admitsCalls = true ∧
      let one := (TaskFunction.decorate [x, task] (.bare .echo) .master).1
      let other := (TaskFunction.decorate (stack ++ [task]) (.bare .echo) .master).1
      one.invoke.effectOn ⟨r.call, one.serve r .master⟩ =
        other.invoke.effectOn ⟨r.call, other.serve r .master⟩ := by
  intro a r task
  have accepted : (software.declare .sample a).isOk = true := by decide +kernel
  cases made : software.declare .sample a with
  | error e =>
    rw [made] at accepted
    cases accepted
  | ok x =>
    obtain ⟨path, file, stack, -, -, -, alike⟩ := software_stands_for_stack made
    refine ⟨x, stack, rfl, rfl, ?_⟩
    exact (alike [] [task] (.bare .echo) .master).2 (fun _ : Unit => .inr []) [.call () r] .master ()
      r rfl

end TaskDecoration
