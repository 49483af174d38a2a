import Mathlib.Data.List.Find
import TaskDecoration.Proofs.Declared

/-!
# Older spellings

An annotation understands older names of some of its arguments. `DecorationType.respell` is what a
careful writer would do about them: every older name gives way to the canonical one, and goes away
where that is given too. Declaring an annotation comes to the same with and without this, leaves
none of the older names, and changes nothing when it is done again (`spellings_equivalent`). All of
this holds because each step towards canonical arguments looks at names of its own.
-/

set_option autoImplicit false

namespace TaskDecoration

namespace Arguments

/-- Moves the argument of an older name to the canonical one. Where there is an argument of the
canonical name, the other one is dropped. -/
def rename (a : Arguments) (canonical older : String) : Arguments :=
  match a.get? older with
  | none => a
  | some v => if a.contains canonical then a.erase older else (a.erase older).insert canonical v

variable {a b : Arguments} {canonical older : String}

theorem ext_get? (positional : a.positional = b.positional) (keyword : ∀ k, a.get? k = b.get? k) :
    a = b := by
  obtain ⟨xs, d⟩ := a
  obtain ⟨ys, e⟩ := b
  obtain rfl : xs = ys := positional
  obtain rfl : d = e := Dict.ext keyword
  rfl

@[simp] theorem get?_insert (a : Arguments) (k l : String) (v : Value) :
    (a.insert k v).get? l = if l = k then some v else a.get? l :=
  a.keyword.get?_insert k l v

@[simp] theorem get?_erase (a : Arguments) (k l : String) :
    (a.erase k).get? l = if l = k then none else a.get? l :=
  a.keyword.get?_erase k l

theorem contains_eq (a : Arguments) (k : String) : a.contains k = (a.get? k).isSome := rfl

theorem get?_resolveAlias (different : canonical ≠ older) (a : Arguments) (fallback : Option Value)
    (k : String) :
    (a.resolveAlias canonical older fallback).get? k =
      if k = older then none
      else if k = canonical then ((a.get? canonical).or (a.get? older)).or fallback
      else a.get? k := by
  unfold resolveAlias
  rw [contains_eq]
  cases first : a.get? canonical with
  | some v =>
    by_cases there : k = canonical <;> simp [there, first, different]
  | none =>
    by_cases there : k = canonical
    · cases a.get? older <;> cases fallback <;> simp [there, first, different]
    · by_cases gone : k = older <;> cases second : a.get? older <;> cases fallback <;>
        simp [there, gone, second, different.symm]

@[simp] theorem positional_resolveAlias (a : Arguments) (canonical older : String)
    (fallback : Option Value) :
    (a.resolveAlias canonical older fallback).positional = a.positional := by
  unfold resolveAlias
  split
  · rfl
  · split <;> rfl

theorem rename_eq (a : Arguments) (canonical older : String) :
    a.rename canonical older = a.resolveAlias canonical older none := by
  unfold rename resolveAlias
  cases given : a.get? older with
  | some v => rfl
  | none =>
    have unchanged : a.erase older = a := by
      refine ext_get? rfl fun k => ?_
      by_cases same : k = older <;> simp [same, given]
    simp [unchanged]

theorem get?_rename (different : canonical ≠ older) (a : Arguments) (k : String) :
    (a.rename canonical older).get? k =
      if k = older then none
      else if k = canonical then (a.get? canonical).or (a.get? older)
      else a.get? k := by
  rw [rename_eq, get?_resolveAlias different, Option.or_none]

@[simp] theorem positional_rename (a : Arguments) (canonical older : String) :
    (a.rename canonical older).positional = a.positional := by
  rw [rename_eq, positional_resolveAlias]

theorem get?_resolveAlias_other {k : String} (hc : k ≠ canonical) (ho : k ≠ older) (a : Arguments)
    (fallback : Option Value) : (a.resolveAlias canonical older fallback).get? k = a.get? k := by
  unfold resolveAlias
  split
  · simp [ho]
  · split <;> simp [hc, ho]

theorem erase_of_absent {k : String} (absent : a.get? k = none) : a.erase k = a := by
  refine ext_get? rfl fun l => ?_
  by_cases same : l = k <;> simp [same, absent]

theorem insert_of_present {k : String} {v : Value} (there : a.get? k = some v) :
    a.insert k v = a := by
  refine ext_get? rfl fun l => ?_
  by_cases same : l = k <;> simp [same, there]

/-- An argument of another name can be written before or after. -/
theorem rename_insert (different : canonical ≠ older) {k : String} (hc : k ≠ canonical)
    (ho : k ≠ older) (a : Arguments) (v : Value) :
    (a.insert k v).rename canonical older = (a.rename canonical older).insert k v := by
  apply ext_get?
  · simp [insert]
  · intro l
    by_cases there : l = k
    · simp [get?_rename different, there, hc, ho]
    · simp [get?_rename different, there, hc.symm, ho.symm]

/-- Moves the arguments of older names, each behind its canonical one, one after another. -/
def renameAll (a : Arguments) (spellings : List (String × String)) : Arguments :=
  spellings.foldl (fun a p => a.rename p.1 p.2) a

end Arguments

/-- The names that a step looks at. It changes no arguments of other names. -/
def Step.names : Step → List String
  | respelling canonical older _ => [canonical, older]
  | filling name _ => [name]
  | failureText => [Name.failByExitValue]

/-- The step has nothing left to do. -/
def Step.Done (a : Arguments) : Step → Prop
  | respelling canonical older fallback =>
    a.get? older = none ∧ (fallback.isSome → a.contains canonical = true)
  | filling name _ => a.contains name = true
  | failureText => ∃ text, a.get? Name.failByExitValue = some (.text text)

namespace Step

variable {label : String} {a a' : Arguments} {s : Step} {steps : List Step}

theorem run_failureText (ran : failureText.run label a = .ok a') :
    ∃ text, a' = a.insert Name.failByExitValue (.text text) := by
  change (Arguments.failureText label _).map _ = _ at ran
  cases policy : Arguments.failureText label (a.get? Name.failByExitValue) with
  | error e =>
    rw [policy] at ran
    cases ran
  | ok text =>
    rw [policy] at ran
    cases ran
    exact ⟨text, rfl⟩

/-- A step leaves the arguments of other names as they are. -/
theorem run_frame (ran : s.run label a = .ok a') {k : String} (other : k ∉ s.names) :
    a'.get? k = a.get? k := by
  cases s with
  | respelling canonical older fallback =>
    cases ran
    obtain ⟨hc, ho⟩ : k ≠ canonical ∧ k ≠ older := by simpa [names] using other
    exact Arguments.get?_resolveAlias_other hc ho a fallback
  | filling name fallback =>
    cases ran
    have different : k ≠ name := by simpa [names] using other
    split <;> simp [different]
  | failureText =>
    obtain ⟨text, rfl⟩ := run_failureText ran
    have different : k ≠ Name.failByExitValue := by simpa [names] using other
    simp [different]

theorem run_done (distinct : s.names.Nodup) (ran : s.run label a = .ok a') : s.Done a' := by
  cases s with
  | respelling canonical older fallback =>
    cases ran
    have different : canonical ≠ older := by simpa [names] using distinct
    constructor
    · simp [Arguments.get?_resolveAlias different]
    · intro some
      simp [Arguments.contains_eq, Arguments.get?_resolveAlias different, different, some]
  | filling name fallback =>
    exact run_supplies ran rfl (by simp [older?])
  | failureText =>
    obtain ⟨text, rfl⟩ := run_failureText ran
    exact ⟨text, by simp⟩

/-- What is done stays done while nobody touches the names of the step. -/
theorem Done.congr (done : s.Done a) (same : ∀ k ∈ s.names, a'.get? k = a.get? k) : s.Done a' := by
  cases s with
  | respelling canonical older fallback =>
    obtain ⟨gone, supplied⟩ := done
    rw [Arguments.contains_eq] at supplied
    constructor
    · rw [same older (by simp [names]), gone]
    · rw [Arguments.contains_eq, same canonical (by simp [names])]
      exact supplied
  | filling name fallback =>
    change (a'.get? name).isSome = true
    rw [same name (by simp [names])]
    exact done
  | failureText =>
    obtain ⟨text, there⟩ := done
    exact ⟨text, (same _ (by simp [names])).trans there⟩

/-- A step that is done changes nothing. -/
theorem Done.run (done : s.Done a) (label : String) : s.run label a = .ok a := by
  cases s with
  | respelling canonical older fallback =>
    obtain ⟨gone, supplied⟩ := done
    change Except.ok (a.resolveAlias canonical older fallback) = .ok a
    unfold Arguments.resolveAlias
    by_cases there : a.contains canonical = true
    · rw [if_pos there, Arguments.erase_of_absent gone]
    · obtain rfl : fallback = none := by
        cases fallback with
        | none => rfl
        | some v => exact absurd (supplied rfl) there
      rw [if_neg there, gone]
  | filling name fallback =>
    change Except.ok (if a.contains name then a else a.insert name fallback) = .ok a
    rw [if_pos (show a.contains name = true from done)]
  | failureText =>
    obtain ⟨text, there⟩ := done
    change (Arguments.failureText label (a.get? Name.failByExitValue)).map
      (fun s => a.insert Name.failByExitValue (.text s)) = .ok a
    rw [there]
    exact congrArg Except.ok (Arguments.insert_of_present there)

theorem runAll_cons (label : String) (s : Step) (steps : List Step) (a : Arguments) :
    runAll label (s :: steps) a = s.run label a >>= runAll label steps :=
  List.foldlM_cons

theorem runAll_frame (ran : runAll label steps a = .ok a') {k : String}
    (other : k ∉ steps.flatMap names) : a'.get? k = a.get? k := by
  induction steps generalizing a with
  | nil =>
    cases ran
    rfl
  | cons s steps ih =>
    rw [List.flatMap_cons, List.mem_append, not_or] at other
    rw [runAll_cons] at ran
    obtain ⟨b, first, rest⟩ := Except.bind_eq_ok_iff.mp ran
    rw [ih rest other.2, run_frame first other.1]

/-- Behind steps with names of their own, each of them is done. -/
theorem runAll_done (distinct : (steps.flatMap names).Nodup) (ran : runAll label steps a = .ok a') :
    ∀ s ∈ steps, s.Done a' := by
  induction steps generalizing a with
  | nil => simp
  | cons s steps ih =>
    rw [List.flatMap_cons, List.nodup_append] at distinct
    obtain ⟨own, others, apart⟩ := distinct
    rw [runAll_cons] at ran
    obtain ⟨b, first, rest⟩ := Except.bind_eq_ok_iff.mp ran
    intro t ht
    rcases List.mem_cons.mp ht with rfl | later
    · refine (run_done own first).congr fun k hk => runAll_frame rest fun hk' => ?_
      exact apart k hk k hk' rfl
    · exact ih others rest t later

theorem runAll_of_done (done : ∀ s ∈ steps, s.Done a) (label : String) :
    runAll label steps a = .ok a := by
  induction steps with
  | nil => rfl
  | cons s steps ih =>
    rw [runAll_cons, (done s List.mem_cons_self).run label]
    exact ih fun t ht => done t (List.mem_cons_of_mem s ht)

section Renaming

variable {canonical older : String}

/-- A step that knows an older name does with it what renaming would have done. -/
theorem run_rename_self (distinct : s.names.Nodup) (spelled : s.spelling? = some (canonical, older))
    (label : String) (a : Arguments) : s.run label (a.rename canonical older) = s.run label a := by
  cases s with
  | respelling canonical' older' fallback =>
    cases spelled
    have different : canonical ≠ older := by simpa [names] using distinct
    refine congrArg Except.ok (Arguments.ext_get? (by simp) fun k => ?_)
    simp only [Arguments.get?_resolveAlias different, Arguments.get?_rename different]
    by_cases there : k = canonical <;> by_cases gone : k = older <;> simp [there, gone, different]
  | filling name fallback => cases spelled
  | failureText => cases spelled

/-- Renaming is none of the business of a step with other names. -/
theorem run_rename_other (different : canonical ≠ older) (hc : canonical ∉ s.names)
    (ho : older ∉ s.names) (distinct : s.names.Nodup) (label : String) (a : Arguments) :
    s.run label (a.rename canonical older) = (s.run label a).map (·.rename canonical older) := by
  cases s with
  | respelling canonical' older' fallback =>
    have different' : canonical' ≠ older' := by simpa [names] using distinct
    simp only [names, List.mem_cons, List.not_mem_nil, or_false, not_or] at hc ho
    refine congrArg Except.ok (Arguments.ext_get? (by simp) fun k => ?_)
    simp only [Arguments.get?_resolveAlias different', Arguments.get?_rename different]
    grind
  | filling name fallback =>
    simp only [names, List.mem_singleton] at hc ho
    have same : (a.rename canonical older).contains name = a.contains name := by
      simp [Arguments.contains_eq, Arguments.get?_rename different, Ne.symm hc, Ne.symm ho]
    refine congrArg Except.ok ?_
    rw [same]
    split
    · rfl
    · exact (Arguments.rename_insert different (Ne.symm hc) (Ne.symm ho) a fallback).symm
  | failureText =>
    simp only [names, List.mem_singleton] at hc ho
    change (Arguments.failureText label ((a.rename canonical older).get? _)).map _ =
      ((Arguments.failureText label (a.get? _)).map _).map _
    rw [Arguments.get?_rename different, if_neg (Ne.symm ho), if_neg (Ne.symm hc)]
    cases Arguments.failureText label (a.get? Name.failByExitValue) with
    | error e => rfl
    | ok text =>
      exact congrArg Except.ok (Arguments.rename_insert different (Ne.symm hc) (Ne.symm ho) a _).symm

theorem run_renameAll {spellings : List (String × String)} (distinct : s.names.Nodup)
    (different : ∀ p ∈ spellings, p.1 ≠ p.2 ∧ p.1 ∉ s.names ∧ p.2 ∉ s.names) (label : String)
    (a : Arguments) : s.run label (a.renameAll spellings) =
      (s.run label a).map (·.renameAll spellings) := by
  induction spellings generalizing a with
  | nil =>
    change s.run label a = _
    cases s.run label a <;> rfl
  | cons p spellings ih =>
    obtain ⟨apart, hc, ho⟩ := different p List.mem_cons_self
    change s.run label ((a.rename p.1 p.2).renameAll spellings) = _
    rw [ih (fun q hq => different q (List.mem_cons_of_mem p hq)),
      run_rename_other apart hc ho distinct]
    cases s.run label a <;> rfl

theorem mem_names_of_spelling? (spelled : s.spelling? = some (canonical, older)) :
    s.names = [canonical, older] := by
  cases s with
  | respelling canonical' older' fallback =>
    cases spelled
    rfl
  | filling name fallback => cases spelled
  | failureText => cases spelled

/-- Steps with names of their own make the same of arguments whose older names have been
replaced. -/
theorem runAll_renameAll (distinct : (steps.flatMap names).Nodup) (label : String) (a : Arguments) :
    runAll label steps (a.renameAll (steps.filterMap spelling?)) = runAll label steps a := by
  induction steps generalizing a with
  | nil => rfl
  | cons s steps ih =>
    rw [List.flatMap_cons, List.nodup_append] at distinct
    obtain ⟨own, others, apart⟩ := distinct
    have different (p : String × String) (hp : p ∈ steps.filterMap spelling?) :
        p.1 ≠ p.2 ∧ p.1 ∉ s.names ∧ p.2 ∉ s.names := by
      obtain ⟨t, ht, spelled⟩ := List.mem_filterMap.mp hp
      have names : t.names = [p.1, p.2] := mem_names_of_spelling? spelled
      have here : t.names.Nodup := (List.nodup_flatMap.mp others).1 t ht
      have foreign (k : String) (hk : k ∈ t.names) : k ∉ s.names := fun hs =>
        apart k hs k (List.mem_flatMap.mpr ⟨t, ht, hk⟩) rfl
      refine ⟨?_, foreign _ (by simp [names]), foreign _ (by simp [names])⟩
      simpa [names] using here
    have behind (a : Arguments) :
        s.run label (a.renameAll (steps.filterMap spelling?)) >>= runAll label steps =
          s.run label a >>= runAll label steps := by
      rw [run_renameAll own different]
      cases s.run label a with
      | error e => rfl
      | ok b => exact ih others b
    rw [runAll_cons, runAll_cons]
    cases spelled : s.spelling? with
    | none => rw [List.filterMap_cons_none spelled, behind]
    | some p =>
      rw [List.filterMap_cons_some spelled]
      change s.run label ((a.rename p.1 p.2).renameAll _) >>= _ = _
      rw [behind, run_rename_self own spelled]

end Renaming

end Step

/-- The first key that passes a test is the first one of those that do. -/
theorem Dict.find?_keys {α : Type} (p : String → Bool) (d : Dict α) :
    d.keys.find? p = (d.filterKeys p).keys.head? := by
  unfold keys filterKeys
  rw [← List.head?_filter, List.filter_map]
  rfl

namespace Rules

/-- The rules know both names, and ask for the canonical one in both spellings if at all. -/
def Understand (r : Rules) (canonical older : String) : Prop :=
  r.knows canonical = true ∧ r.knows older = true ∧
    ∀ m ∈ r.mandatory,
      (m = canonical ∧ camelCase m = older ∧ older ∈ r.deprecated) ∨
        (canonical ≠ m ∧ older ≠ m ∧ canonical ≠ camelCase m ∧ older ≠ camelCase m)

instance (r : Rules) (canonical older : String) : Decidable (r.Understand canonical older) :=
  inferInstanceAs (Decidable (_ ∧ _ ∧ _))

variable {r : Rules} {a : Arguments} {canonical older label : String}

theorem check_eq_ok_iff : r.check a label = .ok () ↔
    (∀ m ∈ r.mandatory, r.given a m = true) ∧ ∀ k, a.contains k = true → r.knows k = true := by
  unfold check
  constructor
  · intro accepted
    split at accepted
    · cases accepted
    · next given =>
      split at accepted
      · cases accepted
      · next known =>
        rw [List.find?_eq_none] at given known
        refine ⟨fun m hm => by simpa using given m hm, fun k hk => ?_⟩
        simpa using known k (Dict.mem_keys_iff.mpr hk)
  · rintro ⟨given, known⟩
    rw [List.find?_eq_none.mpr (by simpa using given), List.find?_eq_none.mpr]
    intro k hk
    simp [known k (Dict.mem_keys_iff.mp hk)]

theorem given_rename (understood : r.Understand canonical older) (different : canonical ≠ older)
    {m : String} (mandatory : m ∈ r.mandatory) (a : Arguments) :
    r.given (a.rename canonical older) m = r.given a m := by
  obtain ⟨-, -, names⟩ := understood
  unfold given
  simp only [Arguments.contains_eq, Arguments.get?_rename different]
  rcases names m mandatory with ⟨rfl, rfl, listed⟩ | ⟨hc, ho, hc', ho'⟩
  · simp [different, listed, Option.isSome_or]
  · simp [hc.symm, ho.symm, hc'.symm, ho'.symm]

/-- Rules that understand two names judge arguments alike when one is replaced by the other. -/
theorem check_rename (understood : r.Understand canonical older) (different : canonical ≠ older)
    (a : Arguments) (label : String) :
    r.check (a.rename canonical older) label = r.check a label := by
  have unknown : (a.rename canonical older).keyword.filterKeys (!r.knows ·) =
      a.keyword.filterKeys (!r.knows ·) := by
    apply Dict.ext
    intro k
    rw [Dict.get?_filterKeys, Dict.get?_filterKeys]
    split
    · next foreign =>
      have hc : k ≠ canonical := fun same => by simp [same, understood.1] at foreign
      have ho : k ≠ older := fun same => by simp [same, understood.2.1] at foreign
      exact (Arguments.get?_rename different a k).trans (by rw [if_neg ho, if_neg hc]; rfl)
    · rfl
  have mandatory : r.mandatory.find? (!r.given (a.rename canonical older) ·) =
      r.mandatory.find? (!r.given a ·) := by
    refine List.find?_congr fun m hm => ?_
    rw [given_rename understood different hm]
  unfold check
  rw [mandatory, Dict.find?_keys, Dict.find?_keys, unknown]

theorem check_renameAll {spellings : List (String × String)}
    (understood : ∀ p ∈ spellings, r.Understand p.1 p.2 ∧ p.1 ≠ p.2) (a : Arguments)
    (label : String) : r.check (a.renameAll spellings) label = r.check a label := by
  induction spellings generalizing a with
  | nil => rfl
  | cons p spellings ih =>
    obtain ⟨here, different⟩ := understood p List.mem_cons_self
    change r.check ((a.rename p.1 p.2).renameAll spellings) label = _
    rw [ih fun q hq => understood q (List.mem_cons_of_mem p hq), check_rename here different]

end Rules

namespace PrimaryKind

/-- No name is the business of two steps, or has two parts in one. -/
theorem names_distinct (k : PrimaryKind) : (k.steps.flatMap Step.names).Nodup := by
  cases k <;> decide +kernel

theorem rules_understand (k : PrimaryKind) :
    ∀ p ∈ k.steps.filterMap Step.spelling?, k.rules.Understand p.1 p.2 ∧ p.1 ≠ p.2 := by
  cases k <;> decide +kernel

theorem rules_know (k : PrimaryKind) :
    ∀ name ∈ k.steps.flatMap Step.names, k.rules.knows name = true := by
  cases k <;> decide +kernel

theorem mandatory_read (k : PrimaryKind) :
    ∀ name ∈ k.rules.mandatory, Entry.required name ∈ k.reads := by
  cases k <;> decide +kernel

end PrimaryKind

namespace Primary

variable {k : PrimaryKind} {a : Arguments} {p : Primary}

theorem declare_renameAll (k : PrimaryKind) (a : Arguments) :
    declare k (a.renameAll (k.steps.filterMap Step.spelling?)) = declare k a := by
  unfold declare
  rw [Rules.check_renameAll k.rules_understand, Step.runAll_renameAll k.names_distinct]

/-- The arguments of a declared annotation are canonical: no step has anything left to do. -/
theorem declare_canonical (declared : declare k a = .ok p) :
    (∀ s ∈ k.steps, s.Done p.arguments) ∧ declare k p.arguments = .ok p := by
  obtain ⟨_, accepted, rest⟩ := Except.bind_eq_ok_iff.mp declared
  obtain ⟨b, ran, rest⟩ := Except.bind_eq_ok_iff.mp rest
  obtain ⟨texts, read, rest⟩ := Except.bind_eq_ok_iff.mp rest
  cases rest
  have done := Step.runAll_done k.names_distinct ran
  refine ⟨done, ?_⟩
  have again : k.rules.check b k.name = .ok () := by
    rw [Rules.check_eq_ok_iff] at accepted ⊢
    constructor
    · intro m mandatory
      obtain ⟨text, there⟩ := exists_of_mapM_ok read (k.mandatory_read m mandatory)
      unfold Rules.given
      rw [Arguments.contains_of_requiredText there, Bool.true_or]
    · intro name there
      by_cases own : name ∈ k.steps.flatMap Step.names
      · exact k.rules_know name own
      · rw [Arguments.contains_eq, Step.runAll_frame ran own] at there
        exact accepted.2 name there
  unfold declare
  rw [again, Step.runAll_of_done done]
  change (k.reads.mapM fun x => x.read k.name b) >>= _ = _
  rw [read]
  rfl

/-- None of the older names is left in a declared annotation. -/
theorem not_contains_older (declared : declare k a = .ok p) {canonical older : String}
    (spelling : (canonical, older) ∈ k.steps.filterMap Step.spelling?) :
    p.arguments.contains older = false := by
  obtain ⟨s, hs, spelled⟩ := List.mem_filterMap.mp spelling
  have done := (declare_canonical declared).1 s hs
  cases s with
  | respelling canonical' older' fallback =>
    cases spelled
    exact congrArg Option.isSome done.1
  | filling name fallback => cases spelled
  | failureText => cases spelled

end Primary

/-- A declared hook can be declared again and stays what it is. -/
theorem DeclaredHook.declare_canonical {label : String} {a : Arguments} {h : DeclaredHook}
    (declared : declare label a = .ok h) : declare label h.arguments = .ok h := by
  obtain ⟨_, accepted, rest⟩ := Except.bind_eq_ok_iff.mp declared
  obtain ⟨b, ran, rest⟩ := Except.bind_eq_ok_iff.mp rest
  obtain ⟨binary, first, rest⟩ := Except.bind_eq_ok_iff.mp rest
  obtain ⟨params, second, rest⟩ := Except.bind_eq_ok_iff.mp rest
  obtain ⟨policy, third, rest⟩ := Except.bind_eq_ok_iff.mp rest
  cases rest
  have ran : Step.failureText.run label a = .ok b := ran
  have done : Step.failureText.Done b := Step.run_done (by simp [Step.names]) ran
  have again : rules.check b label = .ok () := by
    rw [Rules.check_eq_ok_iff] at accepted ⊢
    constructor
    · intro m mandatory
      obtain rfl : m = Name.binary := by simpa [rules, Rules.closed] using mandatory
      unfold Rules.given
      rw [Arguments.contains_of_requiredText first, Bool.true_or]
    · intro name there
      by_cases own : name ∈ Step.failureText.names
      · obtain rfl : name = Name.failByExitValue := by simpa [Step.names] using own
        decide
      · rw [Arguments.contains_eq, Step.run_frame ran own] at there
        exact accepted.2 name there
  unfold declare
  rw [again]
  change Step.failureText.run label b >>= _ = _
  rw [done.run]
  change b.requiredText Name.binary label >>= _ = _
  rw [first]
  change b.optionalText Name.params label >>= _ = _
  rw [second]
  change b.requiredText Name.failByExitValue label >>= _ = _
  rw [third]
  rfl

namespace DecorationType

/-- The arguments with canonical names in place of the older ones that are understood. -/
def respell (t : DecorationType) (a : Arguments) : Arguments := a.renameAll t.spellings

/-- The rules list those older names that are understood. -/
theorem mem_deprecated_iff (t : DecorationType) (older : String) :
    older ∈ t.rules.deprecated ↔ ∃ canonical, (canonical, older) ∈ t.spellings := by
  have listed : t.rules.deprecated.Perm (t.spellings.map (·.2)) := by
    cases t with
    | primary kind => cases kind <;> decide +kernel
    | _ => decide +kernel
  rw [listed.mem_iff]
  simp

/-- Older names and canonical ones say the same, and declaring what has been declared changes
nothing. -/
theorem spellings_equivalent {t : DecorationType} (described : t ≠ .software) (files : Files)
    (a : Arguments) :
    (∀ older, older ∈ t.rules.deprecated ↔ ∃ canonical, (canonical, older) ∈ t.spellings) ∧
      t.declare files (t.respell a) = t.declare files a ∧
      ∀ x, t.declare files a = .ok x →
        (∀ p ∈ t.spellings, x.arguments.contains p.2 = false) ∧
          t.declare files x.arguments = .ok x := by
  refine ⟨t.mem_deprecated_iff, ?_⟩
  cases t with
  | task =>
    refine ⟨rfl, fun x declared => ⟨by simp [spellings], ?_⟩⟩
    have declaration := declared
    obtain ⟨_, accepted, rest⟩ := Except.bind_eq_ok_iff.mp declared
    obtain ⟨options, read, rest⟩ := Except.bind_eq_ok_iff.mp rest
    cases rest
    exact declaration
  | prolog =>
    refine ⟨rfl, fun x declared => ⟨by simp [spellings], ?_⟩⟩
    obtain ⟨h, made, rfl⟩ := Except.map_eq_ok_iff.mp declared
    exact Except.map_eq_ok_iff.mpr ⟨h, DeclaredHook.declare_canonical made, rfl⟩
  | epilog =>
    refine ⟨rfl, fun x declared => ⟨by simp [spellings], ?_⟩⟩
    obtain ⟨h, made, rfl⟩ := Except.map_eq_ok_iff.mp declared
    exact Except.map_eq_ok_iff.mpr ⟨h, DeclaredHook.declare_canonical made, rfl⟩
  | constraint =>
    refine ⟨rfl, fun x declared => ⟨by simp [spellings], ?_⟩⟩
    have declaration := declared
    obtain ⟨_, accepted, rest⟩ := Except.bind_eq_ok_iff.mp declared
    cases rest
    exact declaration
  | primary kind =>
    constructor
    · exact congrArg (Except.map Decoration.primary) (Primary.declare_renameAll kind a)
    · intro x declared
      obtain ⟨p, made, rfl⟩ := Except.map_eq_ok_iff.mp declared
      refine ⟨fun q hq => Primary.not_contains_older made hq, ?_⟩
      exact Except.map_eq_ok_iff.mpr ⟨p, (Primary.declare_canonical made).2, rfl⟩
  | software => exact absurd rfl described

example : (primary .mpi).spellings =
    [("computing_nodes", "computingNodes"), ("working_dir", "workingDir"),
      ("processes_per_node", "processesPerNode"), ("scale_by_cu", "scaleByCU")] := by
  decide

/-- A parallel program with two older names, one of them beside its canonical one. -/
theorem spellings_equivalent_mpi :
    let t := primary .mpi
    let files : Files := fun _ => none
    let a : Arguments := .ofDict (.ofList [("runner", .text "srun"), ("processesPerNode", .int 2),
      ("computingNodes", .int 3), ("computing_nodes", .int 4)])
    t ≠ .software ∧ ∃ x, t.declare files a = .ok x ∧ t.declare files (t.respell a) = .ok x ∧
      x.arguments.contains "processesPerNode" = false ∧ t.declare files x.arguments = .ok x := by
  intro t files a
  have described : t ≠ .software := by decide
  obtain ⟨-, same, settled⟩ := spellings_equivalent described files a
  have accepted : (t.declare files a).isOk = true := by decide +kernel
  cases made : t.declare files a with
  | error e =>
    rw [made] at accepted
    cases accepted
  | ok x =>
    obtain ⟨gone, again⟩ := settled x made
    exact ⟨described, x, rfl, same.trans made, gone ("processes_per_node", _) (by decide), again⟩

end DecorationType

end TaskDecoration
