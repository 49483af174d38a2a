import TaskDecoration.Arguments

/-!
# Frames

Each annotation layer opens a frame over the call: keyword arguments that name an attribute of
the receiver override that attribute, and the layer may switch off the marshalling marks of
strings. A list of frames has the innermost one first. `Frame.collapse` puts a list of frames
into one with the same view.
-/

set_option autoImplicit false

namespace TaskDecoration

/-- The view one layer opens over the call. -/
structure Frame where
  overrides : Dict Value
  prependStrings : Bool

namespace Frame

/-- A frame that changes nothing. -/
def neutral : Frame := ⟨.empty, true⟩

instance : Inhabited Frame := ⟨neutral⟩

/-- The frame that a layer opens over the arguments of a call. -/
def ofArguments (a : Arguments) (prependStrings : Bool) : Frame :=
  match a.receiver? with
  | some fields => ⟨a.keyword.filterKeys fun k => (fields.lookup k).isSome, prependStrings⟩
  | none => ⟨.empty, prependStrings⟩

/-- The attribute of the receiver as seen through frames: the innermost override, or else the
receiver's own. -/
def attribute? (frames : List Frame) (a : Arguments) (name : String) : Option Value :=
  match frames.findSome? (·.overrides.get? name) with
  | some v => some v
  | none => a.receiver?.bind (List.lookup name)

/-- Strings keep their marks while no frame switches them off. -/
def keepsMarks (frames : List Frame) : Bool := frames.all (·.prependStrings)

/-- One frame for a list of them, inner overrides winning. -/
def collapse (frames : List Frame) : Frame :=
  ⟨frames.foldr (fun f outer => outer.union f.overrides) .empty, keepsMarks frames⟩

end Frame

end TaskDecoration
