import TaskDecoration.Proofs.Spellings

/-!
# Arguments that are read late

Declaring a primary annotation checks its arguments, though not all of them: some type-arguments
are read for the first time when the annotation writes into a descriptor. Then one of them may turn
out to have no spelling (`Primary.Declared.fields_cases`). The arguments that were given decide
that, since all defaults have one (`Primary.legible_iff_given`).
-/

set_option autoImplicit false

namespace TaskDecoration

/-- The arguments of the layout that a declaration does not read. The failure policy is a text by
then. -/
def PrimaryKind.unread (k : PrimaryKind) : List String :=
  (k.layout.filterMap Entry.name?).filter fun name =>
    name ∉ k.reads.filterMap Entry.name? ∧ name ≠ Name.failByExitValue

example : PrimaryKind.mpi.unread =
    ["working_dir", "processes_per_node", "flags", "scale_by_cu", "params"] := by
  decide

/-- The error of reading an argument that the declaration has not read and that has no spelling. -/
def Primary.Flaw (p : Primary) (e : ConfigurationError) : Prop :=
  ∃ name ∈ p.kind.unread, ∃ v, p.arguments.get? name = some v ∧ v.spelling? = none ∧
    e = .invalidArgument p.kind.name name "a string" v.sort

/-- If there is an argument of the name, it has a spelling. -/
def Arguments.LegibleAt (a : Arguments) (name : String) : Prop :=
  ∀ v, a.get? name = some v → ∃ s, v.spelling? = some s

/-- All arguments that the declaration has not read have a spelling. -/
def Primary.Legible (p : Primary) : Prop := ∀ name ∈ p.kind.unread, p.arguments.LegibleAt name

/-- A layout asks for the failure policy only where a step makes it a text. -/
theorem PrimaryKind.policy_supplied (k : PrimaryKind) :
    Name.failByExitValue ∈ k.layout.filterMap Entry.name? → Step.failureText ∈ k.steps := by
  cases k <;> simp [layout, steps, Entry.name?, Name.failByExitValue, Name.binary]

namespace Primary

variable {p : Primary}

/-- What a declaration reads is readable from then on. -/
theorem Declared.read (declared : p.Declared) :
    ∀ entry ∈ p.kind.reads, ∃ text, entry.read p.kind.name p.arguments = .ok text := by
  obtain ⟨kind, arguments⟩ := p
  obtain ⟨a, declaration⟩ := declared
  obtain ⟨_, _, declaration⟩ := Except.bind_eq_ok_iff.mp declaration
  obtain ⟨b, _, declaration⟩ := Except.bind_eq_ok_iff.mp declaration
  obtain ⟨texts, read, declaration⟩ := Except.bind_eq_ok_iff.mp declaration
  cases declaration
  exact fun entry member => exists_of_mapM_ok read member

/-- The declaration has not read an argument of the layout that has no spelling. -/
theorem Declared.mem_unread (declared : p.Declared) {name : String} {v : Value}
    (listed : name ∈ p.kind.layout.filterMap Entry.name?)
    (given : p.arguments.get? name = some v) (illegible : v.spelling? = none) :
    name ∈ p.kind.unread := by
  -- Had it been read, the declaration would have failed. A failure policy has become a text.
  refine List.mem_filter.mpr ⟨listed, decide_eq_true ⟨fun read => ?_, fun policy => ?_⟩⟩
  · obtain ⟨entry, member, named⟩ := List.mem_filterMap.mp read
    obtain ⟨text, there⟩ := declared.read entry member
    rw [Entry.read_of_get? named given, illegible] at there
    cases there
  · subst policy
    obtain ⟨a, declaration⟩ := declared
    have done := (declare_canonical declaration).1 _ (p.kind.policy_supplied listed)
    obtain ⟨text, there⟩ := done
    cases given.symm.trans there
    cases illegible

/-- The type-arguments of a declared annotation can be read, or one of them is a flaw. -/
theorem Declared.layout_cases (declared : p.Declared) :
    (∃ texts, p.kind.layout.mapM (·.read p.kind.name p.arguments) = .ok texts) ∨
      ∃ e, p.Flaw e ∧ p.kind.layout.mapM (·.read p.kind.name p.arguments) = .error e := by
  cases layout : p.kind.layout.mapM (·.read p.kind.name p.arguments) with
  | ok texts => exact .inl ⟨texts, rfl⟩
  | error e =>
    obtain ⟨entry, member, failed⟩ := exists_of_mapM_error layout
    have there (name : String) (required : entry = .required name) :=
      declared.contains (.inl (required ▸ member))
    obtain ⟨name, named, v, given, illegible, error⟩ := Entry.read_error there failed
    have listed := List.mem_filterMap.mpr ⟨entry, member, named⟩
    have unread := declared.mem_unread listed given illegible
    exact .inr ⟨e, ⟨name, unread, v, given, illegible, error⟩, rfl⟩

/-- Legible arguments have no flaw. -/
theorem not_flaw_of_legible (legible : p.Legible) (e : ConfigurationError) : ¬ p.Flaw e := by
  rintro ⟨name, unread, v, given, illegible, -⟩
  obtain ⟨s, spelled⟩ := legible name unread v given
  cases illegible.symm.trans spelled

/-- The type-arguments can be read only where all arguments are legible. -/
theorem legible_of_layout {texts : List String}
    (read : p.kind.layout.mapM (·.read p.kind.name p.arguments) = .ok texts) : p.Legible := by
  intro name unread v given
  obtain ⟨entry, member, named⟩ := List.mem_filterMap.mp (List.mem_filter.mp unread).1
  obtain ⟨text, there⟩ := exists_of_mapM_ok read member
  rw [Entry.read_of_get? named given] at there
  cases spelled : v.spelling? with
  | some s => exact ⟨s, rfl⟩
  | none =>
    rw [spelled] at there
    cases there

/-- A declared annotation can write its field-set for every function, or for none, with one error
for all. -/
theorem Declared.fields_cases (declared : p.Declared) :
    (p.Legible ∧ ∀ f, ∃ fields, p.fields f = .ok fields) ∨
      (¬ p.Legible ∧ ∃ e, p.Flaw e ∧ ∀ f, p.fields f = .error e) := by
  rcases declared.layout_cases with ⟨texts, layout⟩ | ⟨e, flaw, layout⟩
  · refine .inl ⟨legible_of_layout layout, fun f => ?_⟩
    unfold fields
    rw [layout]
    cases named : p.kind.signature p.arguments f with
    | ok text => exact ⟨_, rfl⟩
    | error e =>
      obtain ⟨entry, member, failed⟩ := PrimaryKind.signature_error named
      obtain ⟨text, read⟩ := declared.read entry member
      cases failed.symm.trans read
  · refine .inr ⟨fun legible => not_flaw_of_legible legible e flaw, e, flaw, fun f => ?_⟩
    unfold fields
    rw [layout]
    rfl

end Primary

section Giving

variable {label name : String} {a a' : Arguments} {s : Step} {steps : List Step}

/-- The default that a step may bring in. -/
def Step.fallback? : Step → Option Value
  | respelling _ _ fallback => fallback
  | filling _ fallback => some fallback
  | failureText => none

/-- All defaults have a spelling. -/
theorem PrimaryKind.fallbacks_spelled (k : PrimaryKind) :
    ∀ s ∈ k.steps, ∀ v, s.fallback? = some v → ∃ text, v.spelling? = some text := by
  cases k <;>
    simp [steps, Step.workingDir, Step.computingNodes, Step.fallback?, Value.spelling?, Value.int]

theorem Arguments.legibleAt_congr (same : a'.get? name = a.get? name) :
    a'.LegibleAt name ↔ a.LegibleAt name := by
  unfold LegibleAt
  rw [same]

/-- An argument that may have a default in its place. -/
theorem Arguments.legibleAt_or {fallback : Option Value}
    (spelled : ∀ v, fallback = some v → ∃ text, v.spelling? = some text)
    (same : a'.get? name = (a.get? name).or fallback) : a'.LegibleAt name ↔ a.LegibleAt name := by
  unfold LegibleAt
  rw [same]
  cases a.get? name with
  | some v => rfl
  | none => exact iff_of_true spelled fun v absent => nomatch absent

/-- A step neither mends nor breaks an argument other than the failure policy. -/
theorem Step.run_legibleAt (ran : s.run label a = .ok a') (distinct : s.names.Nodup)
    (gone : ∀ q, s.spelling? = some q → a.get? q.2 = none)
    (spelled : ∀ v, s.fallback? = some v → ∃ text, v.spelling? = some text)
    (other : name ≠ Name.failByExitValue) : a'.LegibleAt name ↔ a.LegibleAt name := by
  cases s with
  | respelling canonical older fallback =>
    cases ran
    have different : canonical ≠ older := by simpa [names] using distinct
    -- A value under the older name could still move, so it has to be gone before.
    have absent : a.get? older = none := gone (canonical, older) rfl
    have result := Arguments.get?_resolveAlias different a fallback name
    by_cases dropped : name = older
    · subst dropped
      rw [if_pos rfl] at result
      exact Arguments.legibleAt_congr (result.trans absent.symm)
    · rw [if_neg dropped] at result
      by_cases here : name = canonical
      · subst here
        rw [if_pos rfl, absent, Option.or_none] at result
        exact Arguments.legibleAt_or spelled result
      · rw [if_neg here] at result
        exact Arguments.legibleAt_congr result
  | filling filled fallback =>
    by_cases here : name = filled
    · subst here
      have filled : a'.get? name = (a.get? name).or (some fallback) := by
        cases ran
        cases given : a.get? name with
        | some v =>
          rw [if_pos (Arguments.contains_of_get? given), given]
          rfl
        | none =>
          rw [if_neg (Arguments.not_contains_of_get? given), Arguments.get?_insert, if_pos rfl]
          rfl
      exact Arguments.legibleAt_or spelled filled
    · exact Arguments.legibleAt_congr (Step.run_frame ran (by simpa [names] using here))
  | failureText =>
    exact Arguments.legibleAt_congr (Step.run_frame ran (by simpa [names] using other))

/-- Neither do all steps together, where no older names are left. -/
theorem Step.runAll_legibleAt (ran : runAll label steps a = .ok a')
    (distinct : (steps.flatMap names).Nodup)
    (gone : ∀ s ∈ steps, ∀ q, s.spelling? = some q → a.get? q.2 = none)
    (spelled : ∀ s ∈ steps, ∀ v, s.fallback? = some v → ∃ text, v.spelling? = some text)
    (other : name ≠ Name.failByExitValue) : a'.LegibleAt name ↔ a.LegibleAt name := by
  induction steps generalizing a with
  | nil =>
    cases ran
    rfl
  | cons s steps ih =>
    rw [List.flatMap_cons, List.nodup_append] at distinct
    obtain ⟨own, others, apart⟩ := distinct
    rw [runAll_cons] at ran
    obtain ⟨b, first, rest⟩ := Except.bind_eq_ok_iff.mp ran
    have here := run_legibleAt first own (gone s List.mem_cons_self)
      (spelled s List.mem_cons_self) other
    have later (t : Step) (ht : t ∈ steps) (q : String × String) (known : t.spelling? = some q) :
        b.get? q.2 = none := by
      have named : q.2 ∈ t.names := by simp [mem_names_of_spelling? known]
      have foreign : q.2 ∉ s.names := fun own =>
        apart _ own _ (List.mem_flatMap.mpr ⟨t, ht, named⟩) rfl
      rw [run_frame first foreign]
      exact gone t (List.mem_cons_of_mem s ht) q known
    have behind := ih rest others later fun t ht => spelled t (List.mem_cons_of_mem s ht)
    exact behind.trans here

namespace Arguments

theorem renameAll_frame {spellings : List (String × String)}
    (other : ∀ q ∈ spellings, name ≠ q.1 ∧ name ≠ q.2) (a : Arguments) :
    (a.renameAll spellings).get? name = a.get? name := by
  induction spellings generalizing a with
  | nil => rfl
  | cons q spellings ih =>
    obtain ⟨hc, ho⟩ := other q List.mem_cons_self
    change ((a.rename q.1 q.2).renameAll spellings).get? name = _
    rw [ih (fun r hr => other r (List.mem_cons_of_mem q hr)), rename_eq,
      get?_resolveAlias_other hc ho]

/-- Renaming leaves no older names. -/
theorem renameAll_gone {spellings : List (String × String)}
    (distinct : (spellings.flatMap fun q => [q.1, q.2]).Nodup) (a : Arguments) :
    ∀ q ∈ spellings, (a.renameAll spellings).get? q.2 = none := by
  induction spellings generalizing a with
  | nil => simp
  | cons q spellings ih =>
    rw [List.flatMap_cons, List.nodup_append] at distinct
    obtain ⟨own, others, apart⟩ := distinct
    have different : q.1 ≠ q.2 := by simpa using own
    intro r hr
    rcases List.mem_cons.mp hr with rfl | later
    · change ((a.rename r.1 r.2).renameAll spellings).get? r.2 = none
      rw [renameAll_frame, get?_rename different, if_pos rfl]
      intro t ht
      have foreign (k : String) (hk : k ∈ [t.1, t.2]) : r.2 ≠ k :=
        apart r.2 (by simp) k (List.mem_flatMap.mpr ⟨t, ht, hk⟩)
      exact ⟨foreign _ (by simp), foreign _ (by simp)⟩
    · exact ih others (a.rename q.1 q.2) r later

end Arguments

theorem PrimaryKind.spellings_distinct (k : PrimaryKind) :
    ((k.steps.filterMap Step.spelling?).flatMap fun q => [q.1, q.2]).Nodup := by
  cases k <;> decide +kernel

/-- A declared annotation is legible if the arguments that it was given are: the defaults are. -/
theorem Primary.legible_iff_given {k : PrimaryKind} {p : Primary} (declared : declare k a = .ok p) :
    p.Legible ↔
      ∀ name ∈ k.unread, (a.renameAll (k.steps.filterMap Step.spelling?)).LegibleAt name := by
  rw [← declare_renameAll] at declared
  obtain ⟨_, _, rest⟩ := Except.bind_eq_ok_iff.mp declared
  obtain ⟨b, ran, rest⟩ := Except.bind_eq_ok_iff.mp rest
  obtain ⟨_, _, rest⟩ := Except.bind_eq_ok_iff.mp rest
  cases rest
  have gone (s : Step) (hs : s ∈ k.steps) (q : String × String) (known : s.spelling? = some q) :=
    Arguments.renameAll_gone k.spellings_distinct a q (List.mem_filterMap.mpr ⟨s, hs, known⟩)
  refine forall₂_congr fun name unread => ?_
  have other : name ≠ Name.failByExitValue :=
    (of_decide_eq_true (List.mem_filter.mp unread).2).2
  exact Step.runAll_legibleAt ran k.names_distinct gone k.fallbacks_spelled other

end Giving

end TaskDecoration
