import TaskDecoration.Proofs.Caching

/-!
# Functions that share layers

Functions may be built around the same inner layers. The marks of these layers, and the
descriptor that a task among them keeps, then belong to all of them, while each has outer layers
and marks of its own. The function whose call is the first to finish a configuration leads: from
then on the others register the descriptor of the leader or, on their own first call, what their
outer layers write without the shared ones. `sharing_harmless_iff` says for which annotations
nobody can tell.
-/

set_option autoImplicit false

namespace TaskDecoration

open Decoration (configureAll)

/-- Functions around the same layers, with layers of their own. -/
structure Sharing {ι : Type} (fs : ι → TaskFunction) (own : ι → List Layer)
    (shared : List Layer) : Prop where
  layers : ∀ i, (fs i).layers = own i ++ shared
  base : ∀ i j, (fs i).base = (fs j).base
  nonempty : shared ≠ []
  apart : ∀ i j, i ≠ j → ∀ x ∈ own i, ∀ y ∈ (fs j).layers, y.id ≠ x.id

/-- Where a function stands when another one has configured the layers that both share. -/
inductive Memory.Follower (m : Memory) (f : TaskFunction) (own : List Layer) : Prop where
  /-- A task of its own keeps its calls away from the shared layers. -/
  | blocked (disordered : ¬ f.Ordered) (pristine : m.Pristine f.layers)
  /-- None of its calls has finished a configuration. -/
  | waiting (ordered : f.Ordered) (some : own ≠ [])
      (unmarked : ∀ l ∈ own, m.configured l.id = false)
  /-- Its own layers have configured without the shared ones. -/
  | joined (ordered : f.Ordered) (marked : ∀ l ∈ own, m.configured l.id = true) (x : Element)
      (written : configureAll f.signature (own.map (·.decoration)) .empty = .ok x)

/-- What functions that share layers leave behind. -/
inductive Memory.Phase {ι : Type} (m : Memory) (fs : ι → TaskFunction)
    (own : ι → List Layer) : Prop where
  /-- No call has finished a configuration. -/
  | untouched (pristine : ∀ i, m.Pristine (fs i).layers)
  /-- A call of the leader was the first to do so. -/
  | led (leader : ι) (ordered : (fs leader).Ordered)
      (settled : m.Settled (fs leader).signature (fs leader).layers)
      (others : ∀ i, i ≠ leader → m.Follower (fs i) (own i))

namespace Sharing

variable {ι : Type} {fs : ι → TaskFunction} {own : ι → List Layer} {shared : List Layer}

section Routes

variable {i j : ι}

theorem signature (h : Sharing fs own shared) (i j : ι) : (fs i).signature = (fs j).signature :=
  congrArg BareFunction.signature (h.base i j)

theorem ordered_iff (h : Sharing fs own shared) (i : ι) :
    (fs i).Ordered ↔
      (∀ l ∈ own i, l.decoration.isTask = false) ∧
        Decoration.Ordered (shared.map (·.decoration)) := by
  unfold TaskFunction.Ordered
  rw [h.layers i, List.map_append, Decoration.ordered_append (by simpa using h.nonempty)]
  exact and_congr_left fun _ => List.forall_mem_map

/-- Calls go through the own layers and the shared ones. -/
theorem route (h : Sharing fs own shared) (ordered : (fs i).Ordered) :
    reached (fs i).layers = own i ++ shared ∧ ending (fs i).layers = ending shared := by
  have all := reached_eq_self (TaskDecoration.ordered_iff.mp ordered)
  rw [all, h.layers i]
  exact ⟨rfl, (reached_append ((h.ordered_iff i).mp ordered).1 shared).2⟩

/-- Where another function gets through the shared layers, a function that is not in order has
a task among its own, and none of its calls gets any further. -/
theorem route_blocked (h : Sharing fs own shared) (ordered : (fs i).Ordered)
    (disordered : ¬ (fs j).Ordered) :
    (∀ l ∈ reached (fs j).layers, l ∈ own j) ∧
      ∀ l options inner, ending (fs j).layers = .task l options inner → l ∈ own j := by
  rw [h.layers j]
  apply reached_append_task
  apply Classical.byContradiction
  intro none
  apply disordered
  apply (h.ordered_iff j).mpr
  refine ⟨?_, ((h.ordered_iff i).mp ordered).2⟩
  intro l hl
  exact Bool.eq_false_iff.mpr fun task => none ⟨l, hl, task⟩

end Routes

section Frames

variable {i k : ι} {o : Orchestrator}

/-- A call leaves the own layers of the other functions alone. -/
theorem configured_of_other (h : Sharing fs own shared) (other : k ≠ i) (r : Request)
    (o : Orchestrator) {l : Layer} (hl : l ∈ own k) :
    ((fs i).memoryAfter r o).configured l.id = o.memory.configured l.id :=
  TaskFunction.memoryAfter_configured (h.apart k i other l hl) r o

theorem pristine_of_other (h : Sharing fs own shared) (other : k ≠ i) (r : Request)
    (ordered : (fs i).Ordered) (disordered : ¬ (fs k).Ordered)
    (pristine : o.memory.Pristine (fs k).layers) :
    ((fs i).memoryAfter r o).Pristine (fs k).layers := by
  obtain ⟨reaches, arrives⟩ := h.route_blocked ordered disordered
  constructor
  · intro l hl
    rw [h.configured_of_other other r o (reaches l hl)]
    exact pristine.unmarked l hl
  · rw [← pristine.kept]
    refine Ending.kept_congr fun l options inner arrival => ?_
    have foreign := h.apart k i other l (arrives l options inner arrival)
    exact TaskFunction.memoryAfter_descriptor
      (fun x _ _ arrival' => foreign x (mem_of_ending arrival')) r o

theorem follower_of_other (h : Sharing fs own shared) (other : k ≠ i) (r : Request)
    (ordered : (fs i).Ordered) (follower : o.memory.Follower (fs k) (own k)) :
    ((fs i).memoryAfter r o).Follower (fs k) (own k) := by
  cases follower with
  | blocked disordered pristine =>
    exact .blocked disordered (h.pristine_of_other other r ordered disordered pristine)
  | waiting ordered some unmarked =>
    refine .waiting ordered some fun l hl => ?_
    rw [h.configured_of_other other r o hl]
    exact unmarked l hl
  | joined ordered marked x written =>
    refine .joined ordered (fun l hl => ?_) x written
    rw [h.configured_of_other other r o hl]
    exact marked l hl

end Frames

section Marks

variable {i j : ι} {m : Memory} {b : Blueprint}

/-- An untouched function follows whoever configures first. -/
theorem follower_of_pristine (h : Sharing fs own shared) (pristine : m.Pristine (fs i).layers) :
    m.Follower (fs i) (own i) := by
  by_cases ordered : (fs i).Ordered
  · by_cases bare : own i = []
    · refine .joined ordered (fun l hl => ?_) .empty ?_
      · rw [bare] at hl
        cases hl
      · rw [bare]
        rfl
    · refine .waiting ordered bare fun l hl => pristine.unmarked l ?_
      rw [(h.route ordered).1]
      exact List.mem_append_left shared hl
  · exact .blocked ordered pristine

/-- The leader has marked the shared layers. -/
theorem shared_marked (h : Sharing fs own shared) (ordered : (fs i).Ordered)
    (settled : m.Settled (fs i).signature (fs i).layers) {l : Layer} (hl : l ∈ shared) :
    m.configured l.id = true := by
  refine settled.marked l ?_
  rw [(h.route ordered).1]
  exact List.mem_append_right (own i) hl

/-- A function that waits configures its own layers only. -/
theorem unmarked_waiting (h : Sharing fs own shared) (ordered : (fs i).Ordered)
    (behind : ∀ l ∈ shared, m.configured l.id = true)
    (unmarked : ∀ l ∈ own i, m.configured l.id = false) :
    m.unmarked (reached (fs i).layers) = own i := by
  rw [(h.route ordered).1]
  unfold Memory.unmarked
  have all : (own i).filter (fun l => ¬ m.configured l.id) = own i :=
    List.filter_eq_self.mpr fun l hl => by simpa using unmarked l hl
  have none : shared.filter (fun l => ¬ m.configured l.id) = [] :=
    List.filter_eq_nil_iff.mpr fun l hl => by simpa using behind l hl
  rw [List.filter_append, all, none, List.append_nil]

/-- A function that has joined has nothing left to configure. -/
theorem unmarked_joined (h : Sharing fs own shared) (ordered : (fs i).Ordered)
    (behind : ∀ l ∈ shared, m.configured l.id = true)
    (marked : ∀ l ∈ own i, m.configured l.id = true) :
    m.unmarked (reached (fs i).layers) = [] := by
  rw [(h.route ordered).1]
  apply List.filter_eq_nil_iff.mpr
  intro l hl
  rcases List.mem_append.mp hl with own | shared
  · simpa using marked l own
  · simpa using behind l shared

/-- The first blueprint of a function that waits. -/
theorem drawUp_waiting (h : Sharing fs own shared) (ordered : (fs i).Ordered)
    (behind : ∀ l ∈ shared, m.configured l.id = true) (nonempty : own i ≠ [])
    (unmarked : ∀ l ∈ own i, m.configured l.id = false) {c : Context}
    (configures : c.configures = true) {x : Element}
    (written : configureAll (fs i).signature ((own i).map (·.decoration)) .empty = .ok x) :
    drawUp m c (fs i).signature (reached (fs i).layers) .blank =
      .ok ⟨some x, (own i).map (·.id), true⟩ := by
  rw [drawUp_configures configures, h.unmarked_waiting ordered behind unmarked, if_neg nonempty]
  change (configureAll (fs i).signature ((own i).map (·.decoration)) .empty).map _ = _
  rw [written]
  rfl

theorem drawUp_joined (h : Sharing fs own shared) (ordered : (fs i).Ordered)
    (behind : ∀ l ∈ shared, m.configured l.id = true)
    (marked : ∀ l ∈ own i, m.configured l.id = true) {c : Context}
    (configures : c.configures = true) :
    drawUp m c (fs i).signature (reached (fs i).layers) .blank = .ok .blank := by
  rw [drawUp_configures configures, if_pos (h.unmarked_joined ordered behind marked)]

/-- The task among the shared layers keeps what the leader has written. -/
theorem kept_of_settled (h : Sharing fs own shared) (ordered : (fs i).Ordered)
    (ordered' : (fs j).Ordered) (settled : m.Settled (fs i).signature (fs i).layers)
    {e : Element}
    (leads : configureAll (fs i).signature ((reached (fs i).layers).map (·.decoration)) .empty =
      .ok e)
    (task : (ending (fs j).layers).shape ≠ none) :
    (ending (fs j).layers).kept m = some e := by
  have same : ending (fs j).layers = ending (fs i).layers :=
    (h.route ordered').2.trans (h.route ordered).2.symm
  obtain ⟨e', written, kept⟩ := settled.written
  obtain rfl := Except.ok.inj (leads.symm.trans written)
  rw [same] at task ⊢
  exact kept task

/-- What others configure does not unsettle the leader. -/
theorem settled_commit (h : Sharing fs own shared) (ordered : (fs i).Ordered)
    (ordered' : (fs j).Ordered) (settled : m.Settled (fs i).signature (fs i).layers) :
    ((ending (fs j).layers).commit m b).Settled (fs i).signature (fs i).layers := by
  obtain ⟨e, written, kept⟩ := settled.written
  refine ⟨?_, e, written, ?_⟩
  · intro l hl
    rw [Ending.commit_configured, settled.marked l hl, Bool.true_or]
  · intro task
    have same : ending (fs i).layers = ending (fs j).layers :=
      (h.route ordered).2.trans (h.route ordered').2.symm
    rw [same] at task kept ⊢
    rw [Ending.kept_commit task, kept task]
    rfl

end Marks

/-- Whatever a call does, one function leads and the others follow. -/
theorem memoryAfter_phase (h : Sharing fs own shared) (i : ι) (r : Request) (o : Orchestrator)
    (phase : o.memory.Phase fs own) : ((fs i).memoryAfter r o).Phase fs own := by
  by_cases ordered : (fs i).Ordered
  · rcases (fs i).memoryAfter_cases r o with unchanged | ⟨configures, b, drawn, committed⟩
    · rw [unchanged]
      exact phase
    · cases phase with
      | untouched pristine =>
        refine .led i ordered ?_ fun k other =>
          h.follower_of_other other r ordered (h.follower_of_pristine (pristine k))
        rw [committed]
        exact (pristine i).commit configures drawn
      | led leader leads settled others =>
        have remains : ((fs i).memoryAfter r o).Settled (fs leader).signature
            (fs leader).layers := by
          rw [committed]
          exact h.settled_commit leads ordered settled
        refine .led leader leads remains fun k other => ?_
        by_cases caller : k = i
        · subst caller
          have behind := fun l (hl : l ∈ shared) => h.shared_marked leads settled hl
          cases others k other with
          | blocked disordered pristine => exact absurd ordered disordered
          | waiting _ some unmarked =>
            have mine := h.unmarked_waiting ordered behind unmarked
            rcases drawUp_blank configures drawn with ⟨none, _⟩ | ⟨_, x, written, rfl⟩
            · exact absurd (mine.symm.trans none) some
            · rw [mine] at written committed
              refine .joined ordered (fun l hl => ?_) x written
              rw [committed, Ending.commit_configured, Bool.or_eq_true]
              exact .inr (List.contains_iff_mem.mpr (List.mem_map_of_mem hl))
          | joined _ marked x written =>
            refine .joined ordered (fun l hl => ?_) x written
            rw [committed, Ending.commit_configured, marked l hl, Bool.true_or]
        · exact h.follower_of_other caller r ordered (others k other)
  · rw [TaskFunction.memoryAfter_of_disordered ordered]
    exact phase

end Sharing

/-- Calls of a function with the outer annotations `own` do not show whether a function with the
outer annotations `other` has configured the shared ones first. Unless one of the two never gets
so far, `own` fits onto the shared annotations as well, and around a task both functions are
described alike, by what `own` writes, if anything, without the shared annotations. -/
def Decoration.Undisturbed (f : Signature) (own other shared : List Decoration) : Prop :=
  Ordered (own ++ shared) → Ordered (other ++ shared) → ∀ x e,
    configureAll f own .empty = .ok x → configureAll f (other ++ shared) .empty = .ok e →
    ∃ y, configureAll f (own ++ shared) .empty = .ok y ∧
      ((∃ a ∈ shared, a.isTask = true) → y = e ∧ (own ≠ [] → x = e))

namespace Sharing

variable {ι : Type} {fs : ι → TaskFunction} {own : ι → List Layer} {shared : List Layer}
  {i j : ι} {o o' : Orchestrator}

/-- What the layers of a function that is in order write. -/
theorem written_iff (h : Sharing fs own shared) (ordered : (fs i).Ordered) (f : Signature)
    (e : Element) :
    configureAll f ((reached (fs i).layers).map (·.decoration)) .empty = .ok e ↔
      configureAll f ((own i).map (·.decoration) ++ shared.map (·.decoration)) .empty = .ok e := by
  rw [(h.route ordered).1, List.map_append]

theorem decorations (h : Sharing fs own shared) (i : ι) :
    (fs i).layers.map (·.decoration) =
      (own i).map (·.decoration) ++ shared.map (·.decoration) := by
  rw [h.layers i, List.map_append]

/-- What a function finds that another one leads, and what it would have written itself. -/
theorem agreement (h : Sharing fs own shared) (ordered : (fs i).Ordered)
    (ordered' : (fs j).Ordered) {m : Memory}
    (settled : m.Settled (fs i).signature (fs i).layers)
    (undisturbed : Decoration.Undisturbed (fs j).signature ((own j).map (·.decoration))
      ((own i).map (·.decoration)) (shared.map (·.decoration)))
    {x : Element}
    (written : configureAll (fs j).signature ((own j).map (·.decoration)) .empty = .ok x) :
    ∃ y, configureAll (fs j).signature ((reached (fs j).layers).map (·.decoration)) .empty =
        .ok y ∧
      ((ending (fs j).layers).shape ≠ none →
        (ending (fs j).layers).kept m = some y ∧ (own j ≠ [] → x = y)) := by
  obtain ⟨e, leads, kept⟩ := settled.written
  rw [h.written_iff ordered, h.signature i j] at leads
  unfold TaskFunction.Ordered at ordered ordered'
  rw [h.decorations] at ordered ordered'
  obtain ⟨y, follows, described⟩ := undisturbed ordered' ordered x e written leads
  rw [← h.decorations] at ordered ordered'
  refine ⟨y, (h.written_iff ordered' _ y).mpr follows, fun task => ?_⟩
  rw [(h.route ordered').2] at task ⊢
  rw [(h.route ordered).2] at kept
  obtain ⟨rfl, agrees⟩ := described (Ending.shape_ne_none.mp task)
  exact ⟨kept task, fun some => agrees (by simpa using some)⟩

/-- A call whose own layers do not fit together is refused, whatever the shared layers say. -/
theorem conduct_of_refused (h : Sharing fs own shared) (ordered : (fs i).Ordered) {r : Request}
    (configures : r.context.configures = true) (alike : o.Alike o')
    (unmarked : ∀ l ∈ own i, o.memory.configured l.id = false)
    (pristine : o'.memory.Pristine (fs i).layers) {e : ConfigurationError}
    (refused : configureAll (fs i).signature ((own i).map (·.decoration)) .empty = .error e) :
    (fs i).conduct r o = (fs i).conduct r o' := by
  have layers := (h.route ordered).1
  have unmarked' (l : Layer) (hl : l ∈ own i) : o'.memory.configured l.id = false := by
    refine pristine.unmarked l ?_
    rw [layers]
    exact List.mem_append_left shared hl
  have marks : o.memory.marks (own i) = o'.memory.marks (own i) := by
    rw [Memory.marks_of_forall unmarked, Memory.marks_of_forall unmarked']
  have walks := walk_congr r.context o.registry (fs i).signature r.draft marks
    (show Blueprint.blank.element = Blueprint.blank.element from rfl)
  have refuses (m : Memory) (all : ∀ l ∈ own i, m.configured l.id = false) :
      drawUp m r.context (fs i).signature (own i) .blank = .error e := by
    have every : m.unmarked (own i) = own i :=
      List.filter_eq_self.mpr fun l hl => by simpa using all l hl
    have some : own i ≠ [] := by
      intro none
      rw [none] at refused
      cases refused
    rw [drawUp_configures configures, every, if_neg some]
    change (configureAll (fs i).signature ((own i).map (·.decoration)) .empty).map _ = _
    rw [refused]
    rfl
  obtain ⟨x, d, here⟩ := walk_of_refused (refuses _ unmarked) o.registry r.draft
  obtain ⟨x', d', there⟩ := walk_of_refused (refuses _ unmarked') o.registry r.draft
  rw [here, there] at walks
  obtain ⟨errors, rfl⟩ := Prod.mk.inj walks
  obtain rfl : x = x' := Except.error.inj errors
  -- Both walks stop within the own layers, so that they never get to the shared ones.
  have crossed : (fs i).cross r o = (.error x, d) := by
    unfold TaskFunction.cross
    rw [layers, walk_append, here]
  have crossed' : (fs i).cross r o' = (.error x, d) := by
    unfold TaskFunction.cross
    rw [layers, walk_append, ← alike.registry, there]
  refine TaskFunction.conduct_of_cross rfl rfl alike ?_ ?_
  · rw [crossed, crossed']
  · intro b b' d d' _ through _
    cases crossed.symm.trans through

/-- A call of a function that does not get disturbed goes like its very first call. -/
theorem conduct_of_phase (h : Sharing fs own shared) (r : Request) (alike : o.Alike o')
    (phase : o.memory.Phase fs own) (pristine : o'.memory.Pristine (fs j).layers)
    (undisturbed : ∀ i, j ≠ i →
      Decoration.Undisturbed (fs j).signature ((own j).map (·.decoration))
        ((own i).map (·.decoration)) (shared.map (·.decoration))) :
    (fs j).conduct r o = (fs j).conduct r o' := by
  cases phase with
  | untouched untouched =>
    exact TaskFunction.conduct_of_pristine r rfl rfl alike (untouched j) pristine
  | led leader leads settled others =>
    by_cases caller : j = leader
    · subst caller
      exact TaskFunction.conduct_of_settled r rfl rfl alike settled pristine
    · have behind := fun l (hl : l ∈ shared) => h.shared_marked leads settled hl
      cases others j caller with
      | blocked _ here => exact TaskFunction.conduct_of_pristine r rfl rfl alike here pristine
      | joined ordered marked x written =>
        obtain ⟨y, whole, described⟩ :=
          h.agreement leads ordered settled (undisturbed leader caller) written
        refine TaskFunction.conduct_of_settled r rfl rfl alike ⟨fun l hl => ?_, y, whole, ?_⟩
          pristine
        · rw [(h.route ordered).1] at hl
          rcases List.mem_append.mp hl with own | shared
          · exact marked l own
          · exact behind l shared
        · exact fun task => (described task).1
      | waiting ordered some unmarked =>
        by_cases configures : r.context.configures = true
        · cases written : configureAll (fs j).signature ((own j).map (·.decoration)) .empty with
          | error e => exact h.conduct_of_refused ordered configures alike unmarked pristine written
          | ok x =>
            obtain ⟨y, whole, described⟩ :=
              h.agreement leads ordered settled (undisturbed leader caller) written
            obtain ⟨b, drawn, element⟩ := pristine.drawUp_ok configures whole
            have drawn' := h.drawUp_waiting ordered behind some unmarked configures written
            refine TaskFunction.conduct_of_drawUp rfl rfl alike drawn' drawn fun _ => ?_
            by_cases body : (ending (fs j).layers).shape = none
            · rw [Ending.carried_of_body body, Ending.carried_of_body body]
            · rw [Ending.carried_of_some body (element body), Ending.carried_of_some body rfl]
              exact congrArg Option.some ((described body).2 some)
        · exact TaskFunction.conduct_of_drawUp rfl rfl alike (drawUp_plain configures _ _)
            (drawUp_plain configures _ _) fun yes => absurd yes configures

end Sharing

/-- Nobody can tell from the calls of one function whether the others have been called too. -/
def TaskFunction.Harmless {ι : Type} [DecidableEq ι] (fs : ι → TaskFunction)
    (o : Orchestrator) : Prop :=
  ∀ history : List (Event ι),
    (∀ i r, .call i r ∈ history → r.context.configures = true) →
    ∀ i r, r.context.configures = true →
      (fs i).conduct r (Event.replay fs history o) =
        (fs i).conduct r (Event.replay (fun _ => fs i) (Event.alone i history) o)

/-- A call by which one can tell what a function registers: it comes from the master and brings
its own transformations, of which there are none. -/
def Request.trial : Request := ⟨⟨.master, false⟩, .empty, [], some []⟩

theorem Request.trial_idle : Request.trial.draft.Idle := ⟨rfl, rfl, rfl⟩

theorem TaskFunction.Harmless.of_trials {ι : Type} [DecidableEq ι] {fs : ι → TaskFunction}
    {o : Orchestrator} (harmless : Harmless fs o) (callers : List ι) (j : ι) :
    (fs j).conduct .trial (Event.replay fs (callers.map (.call · .trial)) o) =
      (fs j).conduct .trial
        (Event.replay (fun _ => fs j) (Event.alone j (callers.map (.call · .trial))) o) := by
  refine harmless _ (fun i r called => ?_) j .trial rfl
  obtain ⟨i', _, same⟩ := List.mem_map.mp called
  cases same
  rfl

/-- What a trial registers, or that it gets to the function itself, says what the layers of the
function write together. -/
theorem TaskFunction.written_of_trial {f : TaskFunction} {o o' : Orchestrator} {b : Blueprint}
    (ordered : f.Ordered)
    (drawn : drawUp o.memory Request.trial.context f.signature (reached f.layers) .blank = .ok b)
    (carried : (ending f.layers).shape ≠ none →
      ∃ e, (ending f.layers).carried o.memory b = some e)
    (known : o'.memory.Pristine f.layers ∨ o'.memory.Settled f.signature f.layers)
    (same : f.conduct .trial o = f.conduct .trial o') :
    ∃ y, configureAll f.signature ((reached f.layers).map (·.decoration)) .empty = .ok y ∧
      ((ending f.layers).shape ≠ none → (ending f.layers).carried o.memory b = some y) := by
  obtain ⟨outcomes, elements⟩ := Prod.mk.inj same
  by_cases body : (ending f.layers).shape = none
  · have runs := runs_of_idle Request.trial_idle rfl body drawn
    rw [f.outcome_eq, f.outcome_eq] at outcomes
    have entries : (f.report .trial o).journal.runs = (f.report .trial o').journal.runs :=
      congrArg (fun p => p.journal.runs) outcomes
    rw [entries] at runs
    obtain ⟨x, hx⟩ := List.exists_mem_of_ne_nil _ runs
    obtain ⟨b', d, crossing, _⟩ := mem_report_runs hx
    obtain ⟨y, written⟩ := written_of_drawUp rfl known (drawUp_of_walk crossing)
    exact ⟨y, written, fun task => absurd body task⟩
  · rw [handed_of_idle Request.trial_idle rfl ordered drawn] at elements
    obtain ⟨y, registers⟩ := carried body
    rw [registers] at elements
    obtain ⟨q, handed, rfl⟩ := Option.map_eq_some_iff.mp elements.symm
    exact ⟨_, written_of_handed known handed, fun _ => registers⟩

namespace Sharing

variable {ι : Type} {fs : ι → TaskFunction} {own : ι → List Layer} {shared : List Layer}
  {i j : ι} {o o' : Orchestrator} {e x : Element}

/-- A trial of an untouched function settles it. -/
theorem settled_of_trial (ordered : (fs i).Ordered) (pristine : o.memory.Pristine (fs i).layers)
    (leads : configureAll (fs i).signature ((reached (fs i).layers).map (·.decoration)) .empty =
      .ok e) :
    ((fs i).serve .trial o).memory.Settled (fs i).signature (fs i).layers := by
  obtain ⟨b, drawn, element⟩ := pristine.drawUp_ok (c := Request.trial.context) rfl leads
  rw [TaskFunction.serve_memory, TaskFunction.memoryAfter_of_idle Request.trial_idle rfl ordered
    drawn fun task => ⟨e, Ending.carried_of_some task (element task)⟩]
  exact pristine.commit rfl drawn

/-- A function that has joined registers in a trial what the leader has written. -/
theorem written_of_joined (h : Sharing fs own shared) (ordered : (fs i).Ordered)
    (ordered' : (fs j).Ordered) (settled : o.memory.Settled (fs i).signature (fs i).layers)
    (leads : configureAll (fs i).signature ((reached (fs i).layers).map (·.decoration)) .empty =
      .ok e)
    (marked : ∀ l ∈ own j, o.memory.configured l.id = true)
    (known : o'.memory.Pristine (fs j).layers ∨ o'.memory.Settled (fs j).signature (fs j).layers)
    (same : (fs j).conduct .trial o = (fs j).conduct .trial o') :
    ∃ y, configureAll (fs j).signature ((reached (fs j).layers).map (·.decoration)) .empty =
        .ok y ∧ ((ending (fs j).layers).shape ≠ none → y = e) := by
  have behind := fun l (hl : l ∈ shared) => h.shared_marked ordered settled hl
  have drawn := h.drawUp_joined ordered' behind marked (c := Request.trial.context) rfl
  have carried (task : (ending (fs j).layers).shape ≠ none) :
      (ending (fs j).layers).carried o.memory .blank = some e :=
    (Ending.carried_of_none rfl).trans (h.kept_of_settled ordered ordered' settled leads task)
  obtain ⟨y, whole, registers⟩ := TaskFunction.written_of_trial ordered' drawn
    (fun task => ⟨e, carried task⟩) known same
  exact ⟨y, whole, fun task => Option.some.inj ((registers task).symm.trans (carried task))⟩

section Waiting

variable (h : Sharing fs own shared) (ordered : (fs i).Ordered) (ordered' : (fs j).Ordered)
  (settled : o.memory.Settled (fs i).signature (fs i).layers) (nonempty : own j ≠ [])
  (unmarked : ∀ l ∈ own j, o.memory.configured l.id = false)
  (written : configureAll (fs j).signature ((own j).map (·.decoration)) .empty = .ok x)

include h ordered ordered' settled nonempty unmarked written

/-- A function that waits registers in a trial what its own layers write. -/
theorem written_of_waiting
    (known : o'.memory.Pristine (fs j).layers ∨ o'.memory.Settled (fs j).signature (fs j).layers)
    (same : (fs j).conduct .trial o = (fs j).conduct .trial o') :
    ∃ y, configureAll (fs j).signature ((reached (fs j).layers).map (·.decoration)) .empty =
        .ok y ∧ ((ending (fs j).layers).shape ≠ none → y = x) := by
  have behind := fun l (hl : l ∈ shared) => h.shared_marked ordered settled hl
  have drawn := h.drawUp_waiting ordered' behind nonempty unmarked (c := Request.trial.context) rfl
    written
  have carried (task : (ending (fs j).layers).shape ≠ none) :
      (ending (fs j).layers).carried o.memory ⟨some x, (own j).map (·.id), true⟩ = some x :=
    Ending.carried_of_some task rfl
  obtain ⟨y, whole, registers⟩ := TaskFunction.written_of_trial ordered' drawn
    (fun task => ⟨x, carried task⟩) known same
  exact ⟨y, whole, fun task => Option.some.inj ((registers task).symm.trans (carried task))⟩

/-- After a trial it has joined, and the leader still leads. -/
theorem joined_of_trial :
    ((fs j).serve .trial o).memory.Settled (fs i).signature (fs i).layers ∧
      ∀ l ∈ own j, ((fs j).serve .trial o).memory.configured l.id = true := by
  have behind := fun l (hl : l ∈ shared) => h.shared_marked ordered settled hl
  have drawn := h.drawUp_waiting ordered' behind nonempty unmarked (c := Request.trial.context) rfl
    written
  rw [TaskFunction.serve_memory, TaskFunction.memoryAfter_of_idle Request.trial_idle rfl ordered'
    drawn fun task => ⟨x, Ending.carried_of_some task rfl⟩]
  refine ⟨h.settled_commit ordered ordered' settled, fun l hl => ?_⟩
  rw [Ending.commit_configured, Bool.or_eq_true]
  exact .inr (List.contains_iff_mem.mpr (List.mem_map_of_mem hl))

end Waiting

/-- Two trials tell whether a function gets disturbed: its first call after one of the other
function, and its second one. -/
theorem undisturbed_of_harmless [DecidableEq ι] (h : Sharing fs own shared)
    (pristine : ∀ i, o.memory.Pristine (fs i).layers) (harmless : TaskFunction.Harmless fs o)
    (other : j ≠ i) :
    Decoration.Undisturbed (fs j).signature ((own j).map (·.decoration))
      ((own i).map (·.decoration)) (shared.map (·.decoration)) := by
  intro ordered' ordered x e written leads
  rw [← h.decorations] at ordered ordered'
  rw [h.signature j i, ← h.written_iff ordered] at leads
  have settled := settled_of_trial ordered (pristine i) leads
  have once : (fs j).conduct .trial ((fs i).serve .trial o) = (fs j).conduct .trial o := by
    have same := harmless.of_trials [i] j
    rwa [List.map_cons, Event.alone_call_other other.symm] at same
  by_cases bare : own j = []
  · -- The function has nothing of its own to write and registers what the leader has written.
    obtain ⟨y, whole, described⟩ := h.written_of_joined ordered ordered' settled leads
      (by simp [bare]) (.inl (pristine j)) once
    refine ⟨y, (h.written_iff ordered' _ y).mp whole, fun task => ?_⟩
    rw [← Ending.shape_ne_none, ← (h.route ordered').2] at task
    exact ⟨described task, fun some => absurd (List.map_eq_nil_iff.mpr bare) some⟩
  · -- Its first call registers what its own layers write, its second one what the leader has
    -- written.
    have unmarked (l : Layer) (hl : l ∈ own j) :
        ((fs i).serve .trial o).memory.configured l.id = false := by
      rw [TaskFunction.serve_memory, h.configured_of_other other .trial o hl]
      refine (pristine j).unmarked l ?_
      rw [(h.route ordered').1]
      exact List.mem_append_left shared hl
    obtain ⟨y, whole, first⟩ := h.written_of_waiting ordered ordered' settled bare unmarked written
      (.inl (pristine j)) once
    obtain ⟨settled', marked⟩ :=
      h.joined_of_trial ordered ordered' settled bare unmarked written
    have twice : (fs j).conduct .trial ((fs j).serve .trial ((fs i).serve .trial o)) =
        (fs j).conduct .trial ((fs j).serve .trial o) := by
      have same := harmless.of_trials [i, j] j
      rwa [List.map_cons, List.map_cons, Event.alone_call_other other.symm,
        Event.alone_call_self] at same
    have known := (fs j).memoryAfter_invariant .trial o (.inl (pristine j))
    rw [← TaskFunction.serve_memory] at known
    obtain ⟨y', whole', second⟩ := h.written_of_joined ordered ordered' settled' leads marked
      known twice
    obtain rfl : y = y' := Except.ok.inj (whole.symm.trans whole')
    refine ⟨y, (h.written_iff ordered' _ y).mp whole, fun task => ?_⟩
    rw [← Ending.shape_ne_none, ← (h.route ordered').2] at task
    exact ⟨second task, fun _ => (first task).symm.trans (second task)⟩

/-- Functions that do not disturb one another. -/
theorem harmless_of_undisturbed [DecidableEq ι] (h : Sharing fs own shared)
    (pristine : ∀ i, o.memory.Pristine (fs i).layers)
    (undisturbed : ∀ i j, j ≠ i →
      Decoration.Undisturbed (fs j).signature ((own j).map (·.decoration))
        ((own i).map (·.decoration)) (shared.map (·.decoration))) :
    TaskFunction.Harmless fs o := by
  intro history _ i r _
  -- Both calls are compared with the very first one.
  let late := Event.replay (fun _ => fs i) (Event.alone i history) o
  have joint : (fs i).conduct r (Event.replay fs history o) =
      (fs i).conduct r { late with memory := .fresh } := by
    have phase := Event.replay_invariant (fun m => m.Phase fs own)
      h.memoryAfter_phase history (.untouched pristine)
    have alike := Event.replay_alone fs i history (show o.Alike o from ⟨rfl, rfl, rfl⟩)
    exact h.conduct_of_phase r ⟨alike.session, alike.registry, alike.scheduler⟩ phase
      (Memory.pristine_fresh _) fun j other => undisturbed j i other
  have alone : (fs i).conduct r late = (fs i).conduct r { late with memory := .fresh } :=
    TaskFunction.conduct_fresh r <| Event.replay_invariant
      (fun m => m.Pristine (fs i).layers ∨
        m.Settled (fs i).signature (fs i).layers)
      (fun _ => (fs i).memoryAfter_invariant) (Event.alone i history) (.inl (pristine i))
  exact joint.trans alone.symm

end Sharing

/-- One of two functions. -/
inductive Side where
  | left
  | right
deriving DecidableEq

def Side.pick {α : Type} (x y : α) : Side → α
  | left => x
  | right => y

namespace TaskFunction

section Making

variable {o : Orchestrator} (base : BareFunction) (shared left right : List Decoration)

/-- Layers made one after another are told apart by their numbers. -/
theorem sharing_of_layersFor (nonempty : shared ≠ []) :
    let C := o.layersFor shared
    let A := (o.numbered shared.length).layersFor left
    let B := ((o.numbered shared.length).numbered left.length).layersFor right
    Sharing (Side.pick ⟨A ++ C, base⟩ ⟨B ++ C, base⟩) (Side.pick A B) C := by
  intro C A B
  have inner (l : Layer) (hl : l ∈ C) : l.id < (o.numbered shared.length).memory.nextLayer :=
    (Orchestrator.layersFor_bounds hl).2
  have outer (l : Layer) (hl : l ∈ A) := Orchestrator.layersFor_bounds hl
  have last (l : Layer) (hl : l ∈ B) :
      ((o.numbered shared.length).numbered left.length).memory.nextLayer ≤ l.id :=
    (Orchestrator.layersFor_bounds hl).1
  constructor
  · rintro (_ | _)
    · rfl
    · rfl
  · rintro (_ | _) (_ | _)
    all_goals rfl
  · intro none
    have made := o.layersFor_decorations shared
    rw [show o.layersFor shared = [] from none] at made
    exact nonempty made.symm
  · rintro (_ | _) (_ | _) different x hx y hy
    · exact absurd rfl different
    · rcases List.mem_append.mp hy with theirs | common
      · exact Nat.ne_of_gt (Nat.lt_of_lt_of_le (outer x hx).2 (last y theirs))
      · exact Nat.ne_of_lt (Nat.lt_of_lt_of_le (inner y common) (outer x hx).1)
    · rcases List.mem_append.mp hy with theirs | common
      · exact Nat.ne_of_lt (Nat.lt_of_lt_of_le (outer y theirs).2 (last x hx))
      · have made := Nat.lt_of_lt_of_le (inner y common) (Nat.le_add_right _ left.length)
        exact Nat.ne_of_lt (Nat.lt_of_lt_of_le made (last x hx))
    · exact absurd rfl different

/-- None of them has been called. -/
theorem pristine_of_layersFor (tidy : o.memory.Tidy) (i : Side) :
    let C := o.layersFor shared
    let A := (o.numbered shared.length).layersFor left
    let B := ((o.numbered shared.length).numbered left.length).layersFor right
    o.memory.Pristine (Side.pick (⟨A ++ C, base⟩ : TaskFunction) ⟨B ++ C, base⟩ i).layers := by
  intro C A B
  have inner (l : Layer) (hl : l ∈ C) : o.memory.nextLayer ≤ l.id :=
    (Orchestrator.layersFor_bounds hl).1
  have outer (l : Layer) (hl : l ∈ A) : o.memory.nextLayer ≤ l.id :=
    Nat.le_trans (Nat.le_add_right _ shared.length) (Orchestrator.layersFor_bounds hl).1
  have last (l : Layer) (hl : l ∈ B) : o.memory.nextLayer ≤ l.id :=
    Nat.le_trans (Nat.le_trans (Nat.le_add_right _ shared.length) (Nat.le_add_right _ left.length))
      (Orchestrator.layersFor_bounds hl).1
  cases i with
  | left => exact tidy.pristine fun l hl => (List.mem_append.mp hl).elim (outer l) (inner l)
  | right => exact tidy.pristine fun l hl => (List.mem_append.mp hl).elim (last l) (inner l)

end Making

/-- Whatever calls two functions get that have been decorated around a common one, nobody can
tell from the calls of one whether the other has been called, exactly if neither disturbs the
other. -/
theorem sharing_harmless_iff {shared left right : List Decoration} {base : BareFunction}
    {o o₀ o₁ o₂ : Orchestrator} {h f g : TaskFunction} (tidy : o.memory.Tidy)
    (decorated : shared ≠ []) (common : decorate shared (bare base) o = (h, o₀))
    (leftward : decorate left h o₀ = (f, o₁)) (rightward : decorate right h o₁ = (g, o₂)) :
    Harmless (Side.pick f g) o₂ ↔
      Decoration.Undisturbed base.signature (left.flatMap Decoration.layers)
          (right.flatMap Decoration.layers) (shared.flatMap Decoration.layers) ∧
        Decoration.Undisturbed base.signature (right.flatMap Decoration.layers)
          (left.flatMap Decoration.layers) (shared.flatMap Decoration.layers) := by
  have nonempty : shared.flatMap Decoration.layers ≠ [] := by
    obtain ⟨a, as, rfl⟩ := List.exists_cons_of_ne_nil decorated
    intro none
    obtain ⟨first, _⟩ := List.append_eq_nil_iff.mp none
    cases a with
    | _ => cases first
  rw [decorate_eq] at common
  obtain ⟨rfl, rfl⟩ := Prod.mk.inj common
  rw [decorate_eq] at leftward
  obtain ⟨rfl, rfl⟩ := Prod.mk.inj leftward
  rw [decorate_eq] at rightward
  obtain ⟨rfl, rfl⟩ := Prod.mk.inj rightward
  have inner : o.layersFor (shared.flatMap Decoration.layers) ++ (bare base).layers =
      o.layersFor (shared.flatMap Decoration.layers) := List.append_nil _
  rw [inner]
  have shares := sharing_of_layersFor (o := o) base _ (left.flatMap Decoration.layers)
    (right.flatMap Decoration.layers) nonempty
  have made := pristine_of_layersFor base (shared.flatMap Decoration.layers)
    (left.flatMap Decoration.layers) (right.flatMap Decoration.layers) tidy
  have pristine := fun i => (((made i).numbered (shared.flatMap Decoration.layers).length).numbered
    (left.flatMap Decoration.layers).length).numbered (right.flatMap Decoration.layers).length
  constructor
  · intro harmless
    have leftmost := shares.undisturbed_of_harmless pristine harmless
      (show Side.left ≠ .right by decide)
    have rightmost := shares.undisturbed_of_harmless pristine harmless
      (show Side.right ≠ .left by decide)
    simp only [Side.pick, Orchestrator.layersFor_decorations] at leftmost rightmost
    exact ⟨leftmost, rightmost⟩
  · rintro ⟨leftmost, rightmost⟩
    refine shares.harmless_of_undisturbed pristine ?_
    rintro (_ | _) (_ | _) different
    · exact absurd rfl different
    · simp only [Side.pick, Orchestrator.layersFor_decorations]
      exact rightmost
    · simp only [Side.pick, Orchestrator.layersFor_decorations]
      exact leftmost
    · exact absurd rfl different

theorem sharing_harmless_iff_constraint :
    let units : Decoration := .constraint ⟨[], Dict.empty.insert "computing_units" (.int 1)⟩
    let h := decorate [.task .empty .standard] (bare .echo) .master
    let g := decorate [units] h.1 h.2
    [Decoration.task .empty .standard] ≠ [] ∧
      (Harmless (Side.pick h.1 g.1) g.2 ↔
        Decoration.Undisturbed BareFunction.echo.signature [] [units]
            [.task .empty .standard] ∧
          Decoration.Undisturbed BareFunction.echo.signature [units] []
            [.task .empty .standard]) := by
  intro units h g
  have decorated : [Decoration.task .empty .standard] ≠ [] := List.cons_ne_nil _ _
  have common : decorate [.task .empty .standard] (bare .echo) .master = (h.1, h.2) := rfl
  have leftward : decorate [] h.1 h.2 = (h.1, h.2) := rfl
  have rightward : decorate [units] h.1 h.2 = (g.1, g.2) := rfl
  exact ⟨decorated,
    sharing_harmless_iff Memory.tidy_fresh decorated common leftward rightward⟩

/-- A task registers what it has kept for the layers outside it, or what they write without it:
once the task has been called by itself, the first call with a constraint around it has no
implementation. -/
theorem registration_disturbed :
    let units : Decoration := .constraint ⟨[], Dict.empty.insert "computing_units" (.int 1)⟩
    let h := decorate [.task .empty .standard] (bare .echo) .master
    let g := decorate [units] h.1 h.2
    let r := Request.plain ⟨.master, false⟩ .empty
    let history : List (Event Side) := [.call .left r]
    let joint := Event.replay (Side.pick h.1 g.1) history g.2
    let alone := Event.replay (fun _ => g.1) (Event.alone .right history) g.2
    (g.1.outcome r joint).result = .error (.registration (.noImplementation "m.f")) ∧
      (g.1.outcome r alone).result = .ok (.list []) :=
  ⟨rfl, rfl⟩

end TaskFunction

end TaskDecoration
