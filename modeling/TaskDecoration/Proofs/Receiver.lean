import TaskDecoration.Proofs.Sight

/-!
# The receiver

A keyword argument that names an attribute of the receiver overrides that attribute. The frames
that do so are opened before the results of units have arrived, and are not opened again. Hence
`receiver_agrees`: a body sees its keyword arguments as attributes, except where a unit has
delivered one of them, or the receiver itself, behind the last layer. In `receiver_disagrees` it
still finds the null that held the place of the result.
-/

set_option autoImplicit false

namespace TaskDecoration

/-- A keyword argument names an attribute of the receiver. -/
def Arguments.Overrides (a : Arguments) (k : String) : Prop :=
  (a.receiver?.bind (List.lookup k)).isSome = true ∧ a.contains k = true

/-- The attributes of the receiver are the keyword arguments that name them. -/
def View.Agrees (v : View) : Prop :=
  ∀ k, v.arguments.Overrides k → v.attribute? k = v.arguments.get? k

/-- The result of a substitution takes the place of the receiver or of one of its attributes. -/
def Substitution.Touches (s : Substitution) (f : Signature) (a : Arguments) : Prop :=
  f.position? s.parameter = some 0 ∨ (a.receiver?.bind (List.lookup s.parameter)).isSome = true

/-- The arguments with which a call leaves its layers. Where the result of a unit is still to
arrive, there is null. -/
def TaskFunction.prepared (f : TaskFunction) (r : Request) (o : Orchestrator) : Arguments :=
  (f.cross r o).2.arguments

section Writing

variable {a a' : Arguments} {s : Slot} {k : String}

theorem Arguments.get?_set (other : s ≠ .keyword k) (v : Value) :
    (a.set s v).get? k = a.get? k := by
  cases s with
  | positional i => rfl
  | keyword name =>
    have different : k ≠ name := fun same => other (congrArg Slot.keyword same.symm)
    exact (Dict.get?_insert a.keyword name k v).trans (if_neg different)

theorem Arguments.receiver?_set (other : s ≠ .positional 0) (v : Value) :
    (a.set s v).receiver? = a.receiver? := by
  cases s with
  | keyword name => rfl
  | positional i =>
    cases i with
    | zero => exact absurd rfl other
    | succ i =>
      unfold receiver? set
      cases a.positional with
      | nil => rfl
      | cons x xs => rfl

namespace Dependency

variable {u : Dependency} {us : List Dependency}

theorem resolve_cons_ok (h : resolve (u :: us) a = (.ok (), a')) :
    ∃ v, resolve us (a.set u.slot v) = (.ok (), a') := by
  rw [resolve] at h
  cases waited : u.unit.wait with
  | error e =>
    rw [waited] at h
    cases h
  | ok v =>
    rw [waited] at h
    exact ⟨v, h⟩

/-- Results change the keyword arguments that wait for them and no others. -/
theorem get?_resolve (other : ∀ u ∈ us, u.slot ≠ .keyword k)
    (h : resolve us a = (.ok (), a')) : a'.get? k = a.get? k := by
  induction us generalizing a with
  | nil =>
    cases h
    rfl
  | cons u us ih =>
    obtain ⟨v, rest⟩ := resolve_cons_ok h
    rw [ih (fun w hw => other w (List.mem_cons_of_mem u hw)) rest]
    exact Arguments.get?_set (other u List.mem_cons_self) v

/-- The receiver is changed by a result for the first positional argument only. -/
theorem receiver?_resolve (other : ∀ u ∈ us, u.slot ≠ .positional 0)
    (h : resolve us a = (.ok (), a')) : a'.receiver? = a.receiver? := by
  induction us generalizing a with
  | nil =>
    cases h
    rfl
  | cons u us ih =>
    obtain ⟨v, rest⟩ := resolve_cons_ok h
    rw [ih (fun w hw => other w (List.mem_cons_of_mem u hw)) rest]
    exact Arguments.receiver?_set (other u List.mem_cons_self) v

end Dependency

end Writing

section Delivering

variable {registry : Dict Transform} {f : Signature} {xs : List Decoration} {r : Request}
  {d : Draft} {a : Arguments} {k : String}

namespace Draft.Revised

/-- A dependency of a draft belongs to a substitution that is awaited. -/
theorem serves (h : Revised registry f xs r.draft d) {u : Dependency} (hu : u ∈ d.dependencies) :
    ∃ s ∈ Decoration.awaited xs, u.Serves f d.arguments s := by
  obtain ⟨us, dependencies, serve⟩ := h.dependencies
  have same : d.dependencies = us := dependencies
  rw [same] at hu
  obtain ⟨i, bound, rfl⟩ := List.mem_iff_getElem.mp hu
  have bound' : i < (Decoration.awaited xs).length := serve.length_eq ▸ bound
  exact ⟨_, List.getElem_mem bound', serve.get bound bound'⟩

/-- A unit that delivers a keyword argument carries out the substitution of that name, and the
keyword argument has been there before. -/
theorem keyword (h : Revised registry f xs r.draft d) {u : Dependency} (hu : u ∈ d.dependencies)
    (slot : u.slot = .keyword k) :
    d.arguments.contains k = true ∧ ∃ s ∈ Decoration.awaited xs, s.parameter = k := by
  obtain ⟨s, hs, serves⟩ := h.serves hu
  rcases serves.slot with ⟨keyword, there⟩ | ⟨i, _, positional⟩
  · obtain rfl := Slot.keyword.inj (slot.symm.trans keyword)
    exact ⟨there, s, hs, rfl⟩
  · cases slot.symm.trans positional

/-- A unit that delivers a positional argument carries out the substitution of the parameter
there. -/
theorem positional (h : Revised registry f xs r.draft d) {u : Dependency} (hu : u ∈ d.dependencies)
    {i : Nat} (slot : u.slot = .positional i) :
    ∃ s ∈ Decoration.awaited xs, f.position? s.parameter = some i := by
  obtain ⟨s, hs, serves⟩ := h.serves hu
  rcases serves.slot with ⟨keyword, _⟩ | ⟨i', position, positional⟩
  · cases slot.symm.trans keyword
  · obtain rfl := Slot.positional.inj (slot.symm.trans positional)
    exact ⟨s, hs, position⟩

/-- Keyword arguments that are there when the results have arrived were there without them. -/
theorem contains_of_resolve (h : Revised registry f xs r.draft d)
    (resolved : Dependency.resolve d.dependencies d.arguments = (.ok (), a))
    (got : a.contains k = true) : d.arguments.contains k = true := by
  by_cases waits : ∃ u ∈ d.dependencies, u.slot = .keyword k
  · obtain ⟨u, hu, slot⟩ := waits
    exact (h.keyword hu slot).1
  · have same := Dependency.get?_resolve (fun u hu slot => waits ⟨u, hu, slot⟩) resolved (k := k)
    have present : (a.get? k).isSome = true := got
    rw [same] at present
    exact present

end Draft.Revised

end Delivering

/-- Through frames of which the innermost shows the arguments, so does the receiver. -/
theorem Draft.Framed.attribute?_eq {d : Draft} (framed : d.Framed) {k : String}
    (shown : d.arguments.Overrides k) (a : Arguments) :
    Frame.attribute? d.frames a k = d.arguments.get? k := by
  obtain ⟨marks, outer, frames⟩ := framed
  obtain ⟨named, there⟩ := shown
  obtain ⟨v, value⟩ := Option.isSome_iff_exists.mp there
  have given : d.arguments.get? k = some v := value
  have overridden : (Frame.ofArguments d.arguments marks).overrides.get? k = some v := by
    rw [Frame.get?_ofArguments, if_pos named, given]
  unfold Frame.attribute?
  rw [frames, List.findSome?_cons, overridden, given]

/-- As long as the receiver stays the same, a body that sees it through such frames finds the
keyword arguments there that it has got, exactly if they stay the same too. -/
theorem Draft.Framed.agrees_iff {d : Draft} {v : View} (framed : d.Framed)
    (attributes : v.attribute? = Frame.attribute? d.frames v.arguments)
    (there : ∀ k, v.arguments.contains k = true → d.arguments.contains k = true)
    (receivers : v.arguments.receiver? = d.arguments.receiver?) :
    v.Agrees ↔ ∀ k, v.arguments.Overrides k → v.arguments.get? k = d.arguments.get? k := by
  have shows (k : String) (overrides : v.arguments.Overrides k) :
      v.attribute? k = d.arguments.get? k := by
    rw [attributes]
    refine framed.attribute?_eq ⟨?_, there k overrides.2⟩ _
    rw [← receivers]
    exact overrides.1
  constructor
  · intro agrees k overrides
    rw [← agrees k overrides, shows k overrides]
  · intro unchanged k overrides
    rw [shows k overrides, unchanged k overrides]

namespace TaskFunction

/-- Where no unit delivers the receiver, the attributes that a body sees are the keyword
arguments as the layers have left them. They agree with what the body gets if no unit delivers
one of them either. -/
theorem receiver_agrees {f : TaskFunction} {r : Request} {o : Orchestrator} {x : BodyRun}
    (annotated : f.layers ≠ []) (ran : x ∈ (f.outcome r o).journal.runs) :
    (x.view.arguments.receiver? = (f.prepared r o).receiver? →
      (x.view.Agrees ↔ ∀ k, x.view.arguments.Overrides k →
        x.view.arguments.get? k = (f.prepared r o).get? k)) ∧
    ((∀ s ∈ Decoration.awaited (f.due r), ¬ s.Touches f.signature x.view.arguments) →
      x.view.Agrees) := by
  obtain ⟨b, d, crossing, all, resolved, attributes⟩ := sight_of_run ran
  have prepared : f.prepared r o = d.arguments := by
    unfold TaskFunction.prepared
    rw [crossing]
  have revised := revised_of_cross crossing all
  have framed : d.Framed := by
    have passed := pass_of_walk crossing
    rw [all] at passed
    exact Draft.framed_of_pass (fun none => annotated (List.map_eq_nil_iff.mp none)) passed
  have agreement := framed.agrees_iff attributes fun k => revised.contains_of_resolve resolved
  rw [prepared]
  refine ⟨agreement, fun apart => ?_⟩
  have receivers : x.view.arguments.receiver? = d.arguments.receiver? := by
    refine Dependency.receiver?_resolve (fun u hu slot => ?_) resolved
    obtain ⟨s, hs, first⟩ := revised.positional hu slot
    exact apart s hs (.inl first)
  refine (agreement receivers).mpr fun k overrides => ?_
  refine Dependency.get?_resolve (fun u hu slot => ?_) resolved
  obtain ⟨-, s, hs, rfl⟩ := revised.keyword hu slot
  exact apart s hs (.inr overrides.1)

theorem receiver_agrees_workflow :
    let doubled := Substitution.withWorkflow (.of "x" (.inline .twice)) true
    let f := (decorate [.dataTransformation [doubled], .task .empty .standard] (bare .echo)
      .master).1
    let r := Request.plain ⟨.master, false⟩
      ⟨[.object [("x", .int 1)]], Dict.empty.insert "x" (.int 4)⟩
    ∃ x ∈ (f.outcome r .master).journal.runs, x.view.Agrees := by
  intro doubled f r
  have ran : (f.outcome r .master).journal.runs ≠ [] := List.cons_ne_nil _ _
  obtain ⟨x, hx⟩ := List.exists_mem_of_ne_nil _ ran
  have annotated : f.layers ≠ [] := List.cons_ne_nil _ _
  have atOnce : Decoration.awaited (f.due r) = [] := rfl
  refine ⟨x, hx, (receiver_agrees annotated hx).2 ?_⟩
  rw [atOnce]
  intro s absent
  cases absent

/-- The result of a unit is a keyword argument by the time the body runs, but not an attribute. -/
theorem receiver_disagrees :
    let f := (decorate [.dataTransformation [.of "x" (.inline .twice)], .task .empty .standard]
      (bare .echo) .master).1
    let r := Request.plain ⟨.master, false⟩
      ⟨[.object [("x", .int 1)]], Dict.empty.insert "x" (.int 4)⟩
    ∃ x ∈ (f.outcome r .master).journal.runs,
      x.view.arguments.get? "x" = some (.list [.int 4, .int 4]) ∧
      x.view.attribute? "x" = some .null ∧ ¬ x.view.Agrees := by
  intro f r
  let first := (f.outcome r .master).journal.runs.head?
  have ran : first.isSome = true := rfl
  have named : (first.bind fun x => x.view.arguments.receiver?.bind (List.lookup "x")) =
    some (.int 1) := rfl
  have keyword : (first.bind fun x => x.view.arguments.get? "x") =
    some (.list [.int 4, .int 4]) := rfl
  have shows : (first.bind fun x => x.view.attribute? "x") = some .null := rfl
  obtain ⟨x, hx⟩ := Option.isSome_iff_exists.mp ran
  rw [hx] at named keyword shows
  change x.view.arguments.receiver?.bind (List.lookup "x") = _ at named
  change x.view.arguments.get? "x" = _ at keyword
  change x.view.attribute? "x" = _ at shows
  refine ⟨x, List.mem_of_head? hx, keyword, shows, fun agrees => ?_⟩
  have overrides : x.view.arguments.Overrides "x" :=
    ⟨by rw [named]; rfl, Arguments.contains_of_get? keyword⟩
  have same := agrees "x" overrides
  rw [keyword, shows] at same
  cases same

end TaskFunction

end TaskDecoration
