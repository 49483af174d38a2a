import TaskDecoration.Proofs.Revision

/-!
# What a body sees

A body sees a call through the frames of all layers, or through a single frame into which they
have been put; it cannot tell the two apart (`Frame.attribute?_collapse`). `Sight` is all that it
can see. The innermost frame shows the arguments with which the call leaves the layers
(`Draft.framed_of_pass`), and strings keep their marks unless one of the frames takes them away
(`Draft.keepsMarks_of_pass`).
-/

set_option autoImplicit false

namespace TaskDecoration

/-- What a body can see of a call. -/
structure Sight where
  signature : Signature
  context : Context
  arguments : Arguments
  attributes : String → Option Value
  prependStrings : Bool

def View.sight (v : View) : Sight :=
  ⟨v.signature, v.context, v.arguments, v.attribute?, v.prependStrings⟩

namespace Frame

variable {a : Arguments} {marks : Bool} {frames : List Frame}

@[simp] theorem prependStrings_ofArguments : (ofArguments a marks).prependStrings = marks := by
  unfold ofArguments
  cases a.receiver? with
  | none => rfl
  | some fields => rfl

/-- A frame holds the keyword arguments that name an attribute of the receiver. -/
theorem get?_ofArguments (a : Arguments) (marks : Bool) (k : String) :
    (ofArguments a marks).overrides.get? k =
      if (a.receiver?.bind (List.lookup k)).isSome then a.get? k else none := by
  unfold ofArguments
  cases a.receiver? with
  | none => rfl
  | some fields => exact Dict.get?_filterKeys _ _ k

/-- Of frames that have been put into one, the innermost to override an attribute wins. -/
theorem get?_collapse (frames : List Frame) (k : String) :
    (collapse frames).overrides.get? k = frames.findSome? (·.overrides.get? k) := by
  induction frames with
  | nil => rfl
  | cons frame outer ih =>
    have merged : (collapse (frame :: outer)).overrides =
        (collapse outer).overrides.union frame.overrides := rfl
    rw [merged, Dict.union, Dict.get?_insertMany, ih, List.findSome?_cons]
    cases frame.overrides.get? k with
    | none => rfl
    | some v => rfl

/-- Attributes look the same through frames and through the one that they have been put into. -/
theorem attribute?_collapse (frames : List Frame) (a : Arguments) (k : String) :
    attribute? [collapse frames] a k = attribute? frames a k := by
  have first : [collapse frames].findSome? (·.overrides.get? k) =
      frames.findSome? (·.overrides.get? k) := by
    rw [List.findSome?_singleton, get?_collapse]
  unfold attribute?
  rw [first]

theorem keepsMarks_collapse (frames : List Frame) :
    keepsMarks [collapse frames] = keepsMarks frames := by
  simp [keepsMarks, collapse]

end Frame

/-- Whether a body runs in the frames of the layers or in the one they have been put into, it
sees the same. -/
theorem View.sight_collapse (v : View) :
    ({ v with frames := [Frame.collapse v.frames] } : View).sight = v.sight := by
  have attributes : (fun k => Frame.attribute? [Frame.collapse v.frames] v.arguments k) =
      fun k => Frame.attribute? v.frames v.arguments k :=
    funext fun k => Frame.attribute?_collapse v.frames v.arguments k
  have marks := Frame.keepsMarks_collapse v.frames
  unfold sight attribute? prependStrings
  dsimp only
  rw [marks]
  exact congrArg (fun shown => Sight.mk _ _ _ shown _) attributes

namespace Draft

/-- The innermost frame of a draft has been opened over its arguments. -/
def Framed (d : Draft) : Prop :=
  ∃ marks outer, d.frames = .ofArguments d.arguments marks :: outer

section Passing

variable {c : Context} {registry : Dict Transform} {f : Signature} {d d' : Draft}

/-- A call that has been prepared has the frames that it had before. -/
theorem prepare_frames {x : Decoration} (prepared : d.prepare c registry f x = (.ok (), d')) :
    d'.frames = d.frames := by
  have kept := frames_prepare c registry f x d
  rw [prepared] at kept
  exact kept

/-- Behind at least one layer, the innermost frame shows the arguments as they are. -/
theorem framed_of_pass {xs : List Decoration} (some : xs ≠ [])
    (passed : d.pass c registry f xs = (.ok (), d')) : d'.Framed := by
  induction xs generalizing d with
  | nil => exact absurd rfl some
  | cons x xs ih =>
    obtain ⟨-, d₁, -, behind⟩ := pass_cons_iff.mp passed
    cases xs with
    | nil =>
      cases behind
      exact ⟨x.keepsMarks, d₁.frames, rfl⟩
    | cons y ys => exact ih (List.cons_ne_nil y ys) behind

/-- Strings keep their marks unless a layer or a frame from outside takes them away. -/
theorem keepsMarks_of_pass {xs : List Decoration}
    (passed : d.pass c registry f xs = (.ok (), d')) :
    Frame.keepsMarks d'.frames = (xs.all (·.keepsMarks) && Frame.keepsMarks d.frames) := by
  induction xs generalizing d with
  | nil =>
    cases passed
    simp
  | cons x xs ih =>
    obtain ⟨-, d₁, prepared, behind⟩ := pass_cons_iff.mp passed
    have opened : Frame.keepsMarks (d₁.openFrame x.keepsMarks).frames =
        (x.keepsMarks && Frame.keepsMarks d.frames) := by
      rw [← prepare_frames prepared]
      simp [openFrame, Frame.keepsMarks]
    rw [ih behind, opened, List.all_cons, ← Bool.and_assoc, Bool.and_comm (xs.all _)]

end Passing

end Draft

namespace TaskFunction

/-- A body that runs has come through all layers and sees what they have made of the call, with
the results of units. -/
theorem sight_of_run {f : TaskFunction} {r : Request} {o : Orchestrator} {x : BodyRun}
    (ran : x ∈ (f.outcome r o).journal.runs) :
    ∃ b d, f.cross r o = (.ok b, d) ∧ reached f.layers = f.layers ∧
      Dependency.resolve d.dependencies d.arguments = (.ok (), x.view.arguments) ∧
      x.view.attribute? = Frame.attribute? d.frames x.view.arguments := by
  rw [outcome_eq] at ran
  obtain ⟨b, d, crossing, all, resolved, frames⟩ := mem_report_runs ran
  refine ⟨b, d, crossing, all, resolved, funext fun k => ?_⟩
  unfold View.attribute?
  rcases frames with frames | frames
  · rw [frames]
  · rw [frames, Frame.attribute?_collapse]

end TaskFunction

end TaskDecoration
