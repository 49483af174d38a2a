import TaskDecoration.Proofs.Sight

/-!
# Calls with folded frames

A call that is handed over keeps one frame in place of those through which it was seen so far.
Nothing can be told from this: `Call.Folds` relates the call with all frames to the one that has
some of them folded, each further step keeps the relation (`Folds.perform`), and calls in this
relation look the same (`Folds.attribute?`, `Folds.prependStrings`, `Folds.effectiveFrame`).
-/

set_option autoImplicit false

namespace TaskDecoration

namespace Frame

/-- Outer frames can be folded before the inner ones are. -/
theorem collapse_fold (inner outer : List Frame) :
    collapse (inner ++ [collapse outer]) = collapse (inner ++ outer) := by
  have overrides : (collapse (inner ++ [collapse outer])).overrides =
      (collapse (inner ++ outer)).overrides := by
    apply Dict.ext
    intro k
    rw [get?_collapse, get?_collapse, List.findSome?_append, List.findSome?_append,
      List.findSome?_singleton, get?_collapse]
  have marks : keepsMarks (inner ++ [collapse outer]) = keepsMarks (inner ++ outer) := by
    have folded := keepsMarks_collapse outer
    unfold keepsMarks at folded ⊢
    rw [List.all_append, List.all_append, folded]
  exact congrArg₂ Frame.mk overrides marks

/-- There is nothing to fold in a single frame. -/
theorem collapse_singleton (frame : Frame) : collapse [frame] = frame := by
  have overrides : (collapse [frame]).overrides = frame.overrides := by
    apply Dict.ext
    intro k
    rw [get?_collapse, List.findSome?_singleton]
  have marks : keepsMarks [frame] = frame.prependStrings := Bool.and_true frame.prependStrings
  exact congrArg₂ Frame.mk overrides marks

/-- Frames that are folded into the same one show the same attributes. -/
theorem attribute?_congr {frames frames' : List Frame} (folded : collapse frames = collapse frames')
    (a : Arguments) (k : String) : attribute? frames a k = attribute? frames' a k := by
  rw [← attribute?_collapse frames, folded, attribute?_collapse]

end Frame

namespace Call

/-- What happens to a call on its further way: a frame is opened over it, or keyword and positional
arguments are updated, in whatever way. -/
inductive Action where
  | enter (prependStrings : Bool)
  | update (change : Arguments → Arguments)

def perform (c : Call) : Action → Call
  | .enter prependStrings => c.enterFrame prependStrings
  | .update change => { c with arguments := change c.arguments }

def performAll (c : Call) (actions : List Action) : Call := actions.foldl perform c

/-- A new call with the same arguments, seen through one frame in place of all open ones. -/
def seed (c : Call) (context : Context) : Call :=
  (start context c.arguments).withFrame c.effectiveFrame

/-- The second call has one frame in place of the outer frames of the first. -/
structure Folds (c d : Call) : Prop where
  arguments : d.arguments = c.arguments
  frames : ∃ inner outer, c.frames = inner ++ outer ∧ d.frames = inner ++ [Frame.collapse outer]

theorem folds_seed (c : Call) (context : Context) : c.Folds (c.seed context) where
  arguments := rfl
  frames := ⟨[], c.frames, rfl, rfl⟩

namespace Folds

variable {c d : Call}

/-- A frame that is opened over both calls is the same one, because they have the same
arguments. -/
theorem perform (h : c.Folds d) (action : Action) :
    (c.perform action).Folds (d.perform action) := by
  obtain ⟨inner, outer, opened, folded⟩ := h.frames
  cases action with
  | enter prependStrings =>
    refine ⟨h.arguments, .ofArguments c.arguments prependStrings :: inner, outer, ?_, ?_⟩
    · exact congrArg (Frame.ofArguments c.arguments prependStrings :: ·) opened
    · change Frame.ofArguments d.arguments prependStrings :: d.frames = _
      rw [h.arguments, folded]
      rfl
  | update change => exact ⟨congrArg change h.arguments, inner, outer, opened, folded⟩

theorem performAll (h : c.Folds d) (actions : List Action) :
    (c.performAll actions).Folds (d.performAll actions) := by
  induction actions generalizing c d with
  | nil => exact h
  | cons action actions ih => exact ih (h.perform action)

theorem effectiveFrame (h : c.Folds d) : d.effectiveFrame = c.effectiveFrame := by
  obtain ⟨inner, outer, opened, folded⟩ := h.frames
  unfold Call.effectiveFrame
  rw [opened, folded, Frame.collapse_fold]

theorem attribute? (h : c.Folds d) (k : String) : d.attribute? k = c.attribute? k := by
  unfold Call.attribute?
  rw [h.arguments]
  exact Frame.attribute?_congr h.effectiveFrame c.arguments k

theorem prependStrings (h : c.Folds d) : d.prependStrings = c.prependStrings :=
  congrArg Frame.prependStrings h.effectiveFrame

end Folds

/-- A call that has been seeded with the effective frame of another one looks the same, also after
the same further steps. -/
theorem seed_indistinguishable (c : Call) (context : Context) :
    (∀ actions, (∀ k, ((c.seed context).performAll actions).attribute? k =
        (c.performAll actions).attribute? k) ∧
      ((c.seed context).performAll actions).prependStrings =
        (c.performAll actions).prependStrings ∧
      ((c.seed context).performAll actions).effectiveFrame =
        (c.performAll actions).effectiveFrame) ∧
    (c.seed context).effectiveFrame = c.effectiveFrame := by
  have seeded := c.folds_seed context
  refine ⟨fun actions => ?_, Frame.collapse_singleton c.effectiveFrame⟩
  have after := seeded.performAll actions
  exact ⟨after.attribute?, after.prependStrings, after.effectiveFrame⟩

end Call

end TaskDecoration
