import TaskDecoration.Proofs.History

/-!
# Balanced frames

Each layer opens a frame over the call and closes the innermost one in the end, also where something
inside fails. A procedure is `Balanced` when it leaves the open frames as it has found them, with any
result. Sequences keep this (`balanced_bind`), and so does a frame around a balanced procedure
(`balanced_inFrame`): the frame that is closed is then the one that was opened. Every procedure that
a call runs is made in this way, up to its whole way through the layers
(`TaskFunction.balanced_invokeLayers`).
-/

set_option autoImplicit false

namespace TaskDecoration

namespace Procedure

open Change

variable {α β : Type}

/-- The open frames are the same before and after, whether the procedure fails or not. -/
def Balanced (p : Procedure α) : Prop := ∀ s, (p.runOn s).2.call.frames = s.call.frames

theorem balanced_pure (x : α) : Balanced (pure x) := fun _ => rfl

theorem balanced_throw (e : TaskError) : Balanced (throw e : Procedure α) := fun _ => rfl

theorem balanced_ofExcept (r : Except TaskError α) : Balanced (Change.ofExcept r) := by
  intro s
  rw [runOn_ofExcept]

theorem balanced_modifyCall {g : Call → Call} (frames : ∀ c, (g c).frames = c.frames) :
    Balanced (modifyCall g) := fun s => frames s.call

theorem balanced_modifyHost (g : Orchestrator → Orchestrator) : Balanced (modifyHost g) :=
  fun _ => rfl

/-- The descriptor is not among the frames. -/
theorem balanced_onDescriptor (p : Change ConfigurationError Element α) :
    Balanced (onDescriptor p) := fun _ => rfl

/-- What follows a failure is not run, and what follows a success starts from the same frames. -/
theorem balanced_bind {p : Procedure α} {k : α → Procedure β} (first : p.Balanced)
    (rest : ∀ x, (k x).Balanced) : (p >>= k).Balanced := by
  intro s
  have before := first s
  rcases ran : p.runOn s with ⟨r, t⟩
  rw [ran] at before
  cases r with
  | ok x => rw [runOn_bind_ok ran, rest x t, before]
  | error e => rw [runOn_bind_error ran, before]

/-- A procedure may look at the situation and choose what to do. -/
theorem balanced_get_bind {k : Situation → Procedure α} (rest : ∀ s, (k s).Balanced) :
    (get >>= k).Balanced := balanced_bind (fun _ => rfl) rest

/-- The innermost frame in the end is the one that was opened, because the procedure in it is
balanced. -/
theorem balanced_inFrame (prependStrings : Bool) {p : Procedure α} (inner : p.Balanced) :
    (inFrame prependStrings p).Balanced := by
  intro s
  have inside := inner { s with call := s.call.enterFrame prependStrings }
  exact congrArg List.tail inside

/-- The frames of another call are not those of this one. -/
theorem balanced_inCall (c : Call) (p : Procedure α) : (inCall c p).Balanced := fun _ => rfl

end Procedure

open Change Procedure

theorem balanced_commitConfiguration : commitConfiguration.Balanced := fun _ => rfl

theorem balanced_resolveDependencies : resolveDependencies.Balanced := by
  refine balanced_get_bind fun s => ?_
  refine balanced_bind (balanced_modifyCall fun _ => rfl) fun _ => ?_
  exact balanced_ofExcept _

theorem BareFunction.balanced_invoke (f : BareFunction) : f.invoke.Balanced := by
  refine balanced_bind balanced_resolveDependencies fun _ => ?_
  refine balanced_bind balanced_commitConfiguration fun _ => ?_
  refine balanced_get_bind fun s => ?_
  refine balanced_bind (balanced_modifyHost _) fun _ => ?_
  exact balanced_ofExcept _

namespace Scheduler

theorem balanced_runHook (hook : Option Hook) : (runHook hook).Balanced := by
  refine balanced_get_bind fun s => ?_
  split
  · refine balanced_bind (balanced_modifyHost _) fun _ => ?_
    exact balanced_ofExcept _
  · exact balanced_pure ()

theorem balanced_register (r : TaskRequest) (f : BareFunction) : (register r f).Balanced := by
  refine balanced_get_bind fun s => ?_
  dsimp only
  split
  · exact balanced_throw _
  · refine balanced_bind (balanced_modifyHost _) fun _ => ?_
    refine balanced_bind (balanced_ofExcept _) fun _ => ?_
    refine balanced_bind (balanced_runHook _) fun _ => ?_
    refine balanced_bind (balanced_inCall _ _) fun _ => ?_
    refine balanced_bind (balanced_runHook _) fun _ => ?_
    exact balanced_pure _

end Scheduler

theorem Decoration.balanced_prepare (a : Decoration) (f : Signature) : (a.prepare f).Balanced := by
  intro s
  rw [prepare_runOn]
  exact Draft.frames_prepare _ _ f a s.draft

namespace Layer

variable (l : Layer) (f : Signature)

theorem balanced_checkContext : l.checkContext.Balanced := by
  refine balanced_get_bind fun s => ?_
  split
  · exact balanced_pure ()
  · exact balanced_throw _

theorem balanced_configure : (l.configure f).Balanced := by
  refine balanced_get_bind fun s => ?_
  split
  · refine balanced_bind (balanced_modifyCall fun _ => rfl) fun _ => ?_
    refine balanced_bind (balanced_onDescriptor _) fun _ => ?_
    exact balanced_modifyCall fun _ => rfl
  · exact balanced_pure ()

theorem balanced_enter : (l.enter f).Balanced := by
  refine balanced_bind l.balanced_checkContext fun _ => ?_
  refine balanced_bind (l.balanced_configure f) fun _ => ?_
  exact l.decoration.balanced_prepare f

theorem balanced_freeze : (l.freeze f).Balanced := by
  refine balanced_get_bind fun s => ?_
  split
  · refine balanced_bind (balanced_modifyCall fun _ => rfl) fun _ => ?_
    refine balanced_bind (balanced_modifyHost _) fun _ => ?_
    exact balanced_pure _
  · split
    · exact balanced_pure _
    · exact balanced_throw _

theorem balanced_perform (options : TaskOptions) (inner : List Layer) (f : BareFunction) :
    (l.perform options inner f).Balanced := by
  refine balanced_get_bind fun s => ?_
  split
  · exact balanced_throw _
  · split
    · exact f.balanced_invoke
    · refine balanced_bind (l.balanced_freeze f.signature) fun _ => ?_
      refine balanced_bind balanced_commitConfiguration fun _ => ?_
      refine balanced_get_bind fun s => ?_
      refine balanced_bind (balanced_modifyCall fun _ => rfl) fun _ => ?_
      exact Scheduler.balanced_register _ f

end Layer

namespace TaskFunction

/-- The way through layers, from the innermost outwards. -/
theorem balanced_invokeLayers (f : BareFunction) (ls : List Layer) :
    (invokeLayers f ls).Balanced := by
  induction ls with
  | nil => exact f.balanced_invoke
  | cons l inner ih =>
    refine balanced_bind (l.balanced_enter f.signature) fun _ => ?_
    refine balanced_inFrame _ ?_
    split
    · exact l.balanced_perform _ inner f
    · exact ih

/-- However a call ends, and whatever frames were open over it before: the same ones are open in the
end. So strings keep their marks or not as before, and the receiver has the attributes it had, as
long as the call has kept its first positional argument. -/
theorem frames_restored (f : TaskFunction) (s : Situation) :
    let c := (f.invoke.runOn s).2.call
    c.frames = s.call.frames ∧ c.prependStrings = s.call.prependStrings ∧
      (c.arguments.positional.head? = s.call.arguments.positional.head? →
        ∀ k, c.attribute? k = s.call.attribute? k) := by
  intro c
  have frames : c.frames = s.call.frames := balanced_invokeLayers f.base f.layers s
  refine ⟨frames, congrArg Frame.keepsMarks frames, fun first k => ?_⟩
  have receiver : c.arguments.receiver? = s.call.arguments.receiver? :=
    congrArg (·.bind Value.fields?) first
  unfold Call.attribute? Frame.attribute?
  rw [frames, receiver]

/-- A task that two descriptions want to implement, one inside the other. -/
def contested : TaskFunction :=
  let arguments : Arguments :=
    .ofDict (.ofList [("engine", .text "docker"), ("image", .text "base")])
  let described : Decoration := .software .empty ⟨⟨.container, arguments⟩, .empty, none, none⟩
  (decorate [described, described, .task .empty .standard] (bare .echo) .master).1

/-- A call of a method under a master, with a frame that is open already. -/
def framed : Situation where
  call := (Call.start ⟨.master, false⟩
    ⟨[.object [("x", .int 1)]], Dict.empty.insert "x" (.int 4)⟩).withFrame
      ⟨Dict.empty.insert "x" (.int 7), true⟩
  host := .master

/-- The call fails in the fourth layer, within three frames of which one takes the marks away. -/
theorem frames_restored_contested :
    let finish := contested.invoke.runOn framed
    finish.1 = .error (.configuration (.primaryConflict "@container" "@container")) ∧
      finish.2.call.arguments.positional.head? = framed.call.arguments.positional.head? ∧
      finish.2.call.prependStrings = true ∧ finish.2.call.attribute? "x" = some (.int 7) := by
  have failed : (contested.invoke.runOn framed).1 =
      .error (.configuration (.primaryConflict "@container" "@container")) := rfl
  have first : (contested.invoke.runOn framed).2.call.arguments.positional.head? =
      framed.call.arguments.positional.head? := rfl
  obtain ⟨-, marks, attributes⟩ := frames_restored contested framed
  exact ⟨failed, first, marks, attributes first "x"⟩

end TaskFunction

end TaskDecoration
