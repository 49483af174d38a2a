import Mathlib.Logic.Function.Basic
import TaskDecoration.Proofs.Teardown

/-!
# What a session remembers

A session keeps its context and whether it has been entered. Both can be read off what has happened to
it: it counts as entered when a bootstrap has succeeded that no reset came after (`Entered`), and its
context is the one that the last success has set (`lastContext`). Each action keeps this
(`Session.Follows.step`), and so does every sequence of actions through handles on any orchestrators
(`Handles.performAll_follows`). In `Handles.session_determined` it is put together with what the next
action will lead to.
-/

set_option autoImplicit false

namespace TaskDecoration

/-- An action with its answer. -/
structure Deed where
  action : Action
  answer : Answer

/-- The context that an action sets if it succeeds. -/
def Action.context? : Action → Option Context
  | bootstrap scope nesting => some ⟨scope, nesting⟩
  | teardown => some .outside
  | reset context => some context
  | call _ _ => none

namespace Deed

/-- The context that has been set. -/
def context? (x : Deed) : Option Context :=
  if x.answer.isOk then x.action.context? else none

/-- A bootstrap has succeeded. -/
def Enters (x : Deed) : Prop :=
  (∃ scope nesting, x.action = .bootstrap scope nesting) ∧ x.answer.isOk = true

def Resets (x : Deed) : Prop := ∃ context, x.action = .reset context

end Deed

/-- A bootstrap has succeeded, and there has been no reset since. -/
def Entered (history : List Deed) : Prop :=
  ∃ before x after, history = before ++ x :: after ∧ x.Enters ∧ ∀ y ∈ after, ¬ y.Resets

/-- The context that the last success has set, or else the one that a session starts from. -/
def lastContext (settings : Settings) (history : List Deed) : Context :=
  (history.filterMap Deed.context?).getLast?.getD ⟨.outOfScope, settings.nesting⟩

/-- How a session comes about: it waits to be entered, or it enters the scope of its settings. -/
inductive Opening where
  | waiting
  | entering

namespace Opening

def session (settings : Settings) : Opening → Except BootstrapError Session
  | waiting => .ok (.start settings.nesting)
  | entering => Session.ofSettings settings

/-- Entering the scope of the settings counts as a bootstrap. -/
def deeds (settings : Settings) : Opening → List Deed
  | waiting => []
  | entering =>
    if settings.scope = .outOfScope then []
    else [⟨.bootstrap settings.scope settings.nesting, .ok none⟩]

end Opening

section Histories

variable {history : List Deed} {x : Deed}

theorem entered_snoc : Entered (history ++ [x]) ↔ x.Enters ∨ ¬ x.Resets ∧ Entered history := by
  constructor
  · rintro ⟨before, y, after, split, enters, noReset⟩
    rcases List.eq_nil_or_concat after with rfl | ⟨after, z, rfl⟩
    · obtain ⟨-, same⟩ := List.append_inj' split rfl
      obtain rfl := (List.cons.inj same).1
      exact .inl enters
    · rw [List.concat_eq_append, ← List.cons_append, ← List.append_assoc] at split
      obtain ⟨rfl, same⟩ := List.append_inj' split rfl
      obtain rfl := (List.cons.inj same).1
      refine .inr ⟨noReset x (by simp), before, y, after, rfl, enters, fun z hz => ?_⟩
      exact noReset z (by simp [hz])
  · rintro (enters | ⟨noReset, before, y, after, rfl, enters, later⟩)
    · exact ⟨history, x, [], rfl, enters, by simp⟩
    · refine ⟨before, y, after ++ [x], by simp, enters, fun z hz => ?_⟩
      rcases List.mem_append.mp hz with old | new
      · exact later z old
      · obtain rfl := List.mem_singleton.mp new
        exact noReset

theorem lastContext_snoc (settings : Settings) :
    lastContext settings (history ++ [x]) = x.context?.getD (lastContext settings history) := by
  unfold lastContext
  rw [List.filterMap_append]
  cases set : x.context? with
  | none => simp [set]
  | some c => simp [set]

end Histories

/-- How an action ends, and the session it leaves behind. -/
inductive Action.Leads (s : Session) : Action → Bool → Session → Prop where
  | entered {scope : Scope} {nesting : Bool} (inside : scope ≠ .outOfScope)
      (new : s.bootstrapped = false) :
      Leads s (.bootstrap scope nesting) true ⟨⟨scope, nesting⟩, true⟩
  | notEntered {scope : Scope} {nesting : Bool}
      (refused : scope = .outOfScope ∨ s.bootstrapped = true) :
      Leads s (.bootstrap scope nesting) false s
  | left (entered : s.bootstrapped = true) : Leads s .teardown true ⟨.outside, true⟩
  | notLeft (new : s.bootstrapped = false) : Leads s .teardown false s
  | reset {context : Context} : Leads s (.reset context) true ⟨context, false⟩
  | called {f : TaskFunction} {a : Arguments} {success : Bool} : Leads s (.call f a) success s

namespace Action.Leads

variable {s t : Session} {success : Bool}

theorem bootstrap_iff {scope : Scope} {nesting : Bool}
    (leads : Leads s (.bootstrap scope nesting) success t) :
    success = true ↔ scope ≠ .outOfScope ∧ ¬ s.bootstrapped = true := by
  cases leads with
  | entered inside new => simp [inside, new]
  | notEntered refused => simpa using refused.resolve_left

theorem teardown_iff (leads : Leads s .teardown success t) :
    success = true ↔ s.bootstrapped = true := by
  cases leads with
  | left entered => simp [entered]
  | notLeft new => simp [new]

theorem eq_of_failure {x : Action} (leads : x.Leads s false t) : t = s := by
  cases leads with
  | notEntered => rfl
  | notLeft => rfl
  | called => rfl

end Action.Leads

theorem Orchestrator.perform_leads (o : Orchestrator) (x : Action) :
    x.Leads o.session (o.perform x).1.isOk (o.perform x).2.session := by
  cases x with
  | bootstrap scope nesting =>
    rw [perform_bootstrap_eq, Session.bootstrap_eq]
    by_cases outside : scope = .outOfScope
    · rw [if_pos outside]
      exact .notEntered (.inl outside)
    · rw [if_neg outside]
      by_cases entered : o.session.bootstrapped = true
      · rw [if_pos entered]
        exact .notEntered (.inr entered)
      · rw [if_neg entered]
        exact .entered outside (Bool.eq_false_iff.mpr entered)
  | teardown =>
    rw [perform_teardown_eq, Session.teardown_eq]
    by_cases entered : o.session.bootstrapped = true
    · rw [if_pos entered, entered]
      exact .left entered
    · rw [if_neg entered]
      exact .notLeft (Bool.eq_false_iff.mpr entered)
  | reset context => exact .reset
  | call f a =>
    have kept : (f.call a o).2.session = o.session :=
      (f.serve_alike (.plain o.session.context a) o).session
    unfold perform
    rw [kept]
    exact .called

/-- What a history says of a session: whether it has been entered, and its context. -/
structure Session.Follows (settings : Settings) (history : List Deed) (s : Session) : Prop where
  bootstrapped : s.bootstrapped = true ↔ Entered history
  context : s.context = lastContext settings history

namespace Session.Follows

variable {settings : Settings} {history : List Deed}

/-- An action that succeeds sets the context it is to set, and one that fails changes nothing. -/
theorem step {s t : Session} {x : Deed} (follows : s.Follows settings history)
    (leads : x.action.Leads s x.answer.isOk t) : t.Follows settings (history ++ [x]) := by
  obtain ⟨action, answer⟩ := x
  dsimp only at leads
  generalize success : answer.isOk = ok at leads
  cases leads with
  | entered inside new =>
    constructor
    · simp [entered_snoc, Deed.Enters, success]
    · simp [lastContext_snoc, Deed.context?, Action.context?, success]
  | notEntered refused =>
    constructor
    · simp [entered_snoc, Deed.Enters, Deed.Resets, success, follows.bootstrapped]
    · simp [lastContext_snoc, Deed.context?, success, follows.context]
  | left entered =>
    constructor
    · simpa [entered_snoc, Deed.Enters, Deed.Resets] using follows.bootstrapped.mp entered
    · simp [lastContext_snoc, Deed.context?, Action.context?, success]
  | notLeft new =>
    constructor
    · simp [entered_snoc, Deed.Enters, Deed.Resets, success, follows.bootstrapped]
    · simp [lastContext_snoc, Deed.context?, success, follows.context]
  | reset =>
    constructor
    · simp [entered_snoc, Deed.Enters, Deed.Resets]
    · simp [lastContext_snoc, Deed.context?, Action.context?, success]
  | called =>
    constructor
    · simp [entered_snoc, Deed.Enters, Deed.Resets, follows.bootstrapped]
    · simp [lastContext_snoc, Deed.context?, Action.context?, follows.context]

end Session.Follows

/-- A session can be set up with any settings, and follows from what this counts as. -/
theorem Opening.session_follows (opening : Opening) (settings : Settings) :
    ∃ s, opening.session settings = .ok s ∧ s.Follows settings (opening.deeds settings) := by
  have start : (Session.start settings.nesting).Follows settings [] := by
    constructor
    · simp [Session.start, Entered]
    · rfl
  cases opening with
  | waiting => exact ⟨.start settings.nesting, rfl, start⟩
  | entering =>
    unfold session deeds Session.ofSettings
    by_cases outside : settings.scope = .outOfScope
    · dsimp only
      rw [if_pos outside, if_pos outside]
      exact ⟨.start settings.nesting, rfl, start⟩
    · have entered : (Session.start settings.nesting).bootstrap settings.scope settings.nesting =
          .ok ⟨⟨settings.scope, settings.nesting⟩, true⟩ := by
        rw [Session.bootstrap_eq, if_neg outside]
        rfl
      dsimp only
      rw [if_neg outside, if_neg outside]
      refine ⟨_, entered, ?_, rfl⟩
      rw [← List.nil_append [_], entered_snoc]
      exact iff_of_true rfl (.inl ⟨⟨_, _, rfl⟩, rfl⟩)

/-- Handles on orchestrators. The clones of a handle refer to the same one. -/
structure Handles where
  refers : Nat → Nat
  orchestrator : Nat → Orchestrator

/-- An action through a handle. -/
structure Errand where
  handle : Nat
  action : Action

namespace Handles

/-- Carries out an errand on the orchestrator that its handle refers to. -/
def perform (hs : Handles) (x : Errand) : Answer × Handles :=
  let n := hs.refers x.handle
  let (answer, o) := (hs.orchestrator n).perform x.action
  (answer, { hs with orchestrator := Function.update hs.orchestrator n o })

/-- Carries out errands in order, and keeps what has been done through each handle. -/
def performAll (hs : Handles) : List Errand → List (Nat × Deed) × Handles
  | [] => ([], hs)
  | x :: xs =>
    let (answer, hs) := hs.perform x
    let (done, hs) := hs.performAll xs
    ((x.handle, ⟨x.action, answer⟩) :: done, hs)

/-- What has been done through a handle and its clones. -/
def deedsThrough (hs : Handles) (handle : Nat) (done : List (Nat × Deed)) : List Deed :=
  (done.filter (hs.refers ·.1 = hs.refers handle)).map Prod.snd

/-- The session that a handle and its clones share. -/
def session (hs : Handles) (handle : Nat) : Session := (hs.orchestrator (hs.refers handle)).session

variable {hs : Handles} {settings : Settings} {history : List Deed} {handle : Nat}

/-- An errand through a clone leads to what its action leads to. -/
theorem perform_leads {x : Errand} (shared : hs.refers x.handle = hs.refers handle) :
    x.action.Leads (hs.session handle) (hs.perform x).1.isOk ((hs.perform x).2.session handle) := by
  have performed : (hs.perform x).2.orchestrator (hs.refers x.handle) =
      ((hs.orchestrator (hs.refers x.handle)).perform x.action).2 := Function.update_self ..
  have after : (hs.perform x).2.session handle =
      ((hs.orchestrator (hs.refers x.handle)).perform x.action).2.session := by
    rw [← performed, shared]
    rfl
  rw [after, session, ← shared]
  exact (hs.orchestrator (hs.refers x.handle)).perform_leads x.action

/-- Any other errand leaves the session alone. -/
theorem session_perform_other {x : Errand} (other : hs.refers x.handle ≠ hs.refers handle) :
    (hs.perform x).2.session handle = hs.session handle :=
  congrArg Orchestrator.session (Function.update_of_ne (Ne.symm other) ..)

/-- The session behind a handle follows from what has been done through the handle and its clones. -/
theorem performAll_follows (follows : (hs.session handle).Follows settings history)
    (xs : List Errand) :
    ((hs.performAll xs).2.session handle).Follows settings
      (history ++ hs.deedsThrough handle (hs.performAll xs).1) := by
  induction xs generalizing hs history with
  | nil =>
    rw [performAll, deedsThrough, List.filter_nil, List.map_nil, List.append_nil]
    exact follows
  | cons x xs ih =>
    change (((hs.perform x).2.performAll xs).2.session handle).Follows settings
      (history ++ hs.deedsThrough handle
        ((x.handle, ⟨x.action, (hs.perform x).1⟩) :: ((hs.perform x).2.performAll xs).1))
    by_cases shared : hs.refers x.handle = hs.refers handle
    · -- The errand becomes part of the history that the rest goes on from.
      have step := follows.step (x := ⟨x.action, (hs.perform x).1⟩) (perform_leads shared)
      have rest := ih step
      rw [List.append_assoc] at rest
      rw [deedsThrough, List.filter_cons_of_pos (by simp [shared])]
      exact rest
    · rw [← session_perform_other shared] at follows
      rw [deedsThrough, List.filter_cons_of_neg (by simp [shared])]
      exact ih follows

/-- What is fixed of the session behind a handle, and of what can be done with it, by a history. -/
structure Determined (settings : Settings) (history : List Deed) (hs : Handles) (handle : Nat) :
    Prop where
  follows : (hs.session handle).Follows settings history
  bootstrap : ∀ scope nesting, (hs.perform ⟨handle, .bootstrap scope nesting⟩).1.isOk = true ↔
    scope ≠ .outOfScope ∧ ¬ Entered history
  teardown : (hs.perform ⟨handle, .teardown⟩).1.isOk = true ↔ Entered history
  failure : ∀ x, (hs.perform ⟨handle, x⟩).1.isOk = false →
    (hs.perform ⟨handle, x⟩).2.session handle = hs.session handle

theorem determined_of_follows (follows : (hs.session handle).Follows settings history) :
    Determined settings history hs handle := by
  have leads (x : Action) : x.Leads (hs.session handle) (hs.perform ⟨handle, x⟩).1.isOk
      ((hs.perform ⟨handle, x⟩).2.session handle) := perform_leads (x := ⟨handle, x⟩) rfl
  refine ⟨follows, fun scope nesting => ?_, ?_, fun x failed => ?_⟩
  · rw [← follows.bootstrapped]
    exact (leads (.bootstrap scope nesting)).bootstrap_iff
  · rw [← follows.bootstrapped]
    exact (leads .teardown).teardown_iff
  · have leads := leads x
    rw [failed] at leads
    exact leads.eq_of_failure

/-- A session is a function of its history. Whatever it is set up with, and whatever is done through
handles on any orchestrators: what has been done through a handle and its clones determines the session
that they share, which attempts to enter and to leave it succeed, and a failure changes nothing. -/
theorem session_determined (settings : Settings) (opening : Opening) :
    ∃ session, opening.session settings = .ok session ∧
      ∀ (hs : Handles) (handle : Nat), hs.session handle = session → ∀ xs : List Errand,
        Determined settings
          (opening.deeds settings ++ hs.deedsThrough handle (hs.performAll xs).1)
          (hs.performAll xs).2 handle := by
  obtain ⟨session, opened, follows⟩ := opening.session_follows settings
  refine ⟨session, opened, fun hs handle starts xs => ?_⟩
  rw [← starts] at follows
  exact determined_of_follows (performAll_follows follows xs)

/-- A session that entered the scope of its settings is left through one handle. A clone cannot enter
it until it has been reset, and can then. -/
theorem session_determined_clones :
    let settings := { Settings.default with scope := .master, nesting := true }
    let o := { Orchestrator.start settings .plain with
      session := ⟨⟨.master, true⟩, true⟩ }
    let hs : Handles := ⟨fun _ => 0, fun _ => o⟩
    let left := (hs.performAll [⟨0, .teardown⟩]).2
    let reset := (hs.performAll [⟨0, .teardown⟩, ⟨0, .reset .outside⟩]).2
    (left.session 1).context = .outside ∧ (left.perform ⟨1, .bootstrap .worker false⟩).1.isOk = false ∧
      (reset.perform ⟨1, .bootstrap .worker false⟩).1.isOk = true := by
  intro settings o hs left reset
  obtain ⟨session, opened, determined⟩ := session_determined settings .entering
  obtain rfl : (⟨⟨.master, true⟩, true⟩ : Session) = session := Except.ok.inj opened
  have afterTeardown := determined hs 1 rfl [⟨0, .teardown⟩]
  have afterReset := determined hs 1 rfl [⟨0, .teardown⟩, ⟨0, .reset .outside⟩]
  refine ⟨afterTeardown.follows.context, ?_, ?_⟩
  · rw [← Bool.not_eq_true, afterTeardown.bootstrap, ← afterTeardown.follows.bootstrapped]
    exact fun allowed => allowed.2 rfl
  · rw [afterReset.bootstrap, ← afterReset.follows.bootstrapped]
    exact ⟨by decide, Bool.false_ne_true⟩

end Handles

end TaskDecoration
