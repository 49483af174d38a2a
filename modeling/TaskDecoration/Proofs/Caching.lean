import TaskDecoration.Proofs.Solitude

/-!
# Caching is transparent

The layers of a function write a descriptor once and reuse it from then on. Nobody can tell: a
call has the same outcome as it would have as the very first one. What carries this over any
history is that either no layer is marked and the task keeps nothing (`Memory.Pristine`), or all
layers are marked and the task keeps what they would write (`Memory.Settled`). This holds of every
solitary function (`TaskFunction.Solitary.pristine_or_settled`).
-/

set_option autoImplicit false

namespace TaskDecoration

/-- The layers that a call reaches have never configured, and their task keeps no descriptor. -/
structure Memory.Pristine (m : Memory) (ls : List Layer) : Prop where
  unmarked : ∀ l ∈ reached ls, m.configured l.id = false
  kept : (ending ls).kept m = none

/-- The layers that a call reaches have all configured, and their task keeps the descriptor that
they write together. -/
structure Memory.Settled (m : Memory) (f : Signature) (ls : List Layer) : Prop where
  marked : ∀ l ∈ reached ls, m.configured l.id = true
  written : ∃ e, Decoration.configureAll f ((reached ls).map (·.decoration)) .empty = .ok e ∧
    ((ending ls).shape ≠ none → (ending ls).kept m = some e)

namespace Memory

variable {m m' : Memory} {c : Context} {f : Signature} {ls : List Layer} {b : Blueprint}

theorem Pristine.unmarked_eq (pristine : m.Pristine ls) : m.unmarked (reached ls) = reached ls :=
  List.filter_eq_self.mpr fun l hl => by simpa using pristine.unmarked l hl

theorem Untouched.pristine (untouched : m.Untouched ls) : m.Pristine ls := by
  refine ⟨fun l hl => (untouched l (mem_of_reached hl)).1, ?_⟩
  cases arrival : ending ls with
  | body => rfl
  | task l options inner =>
    exact congrArg (Option.map _) (untouched l (mem_of_ending arrival)).2

/-- Layers that have just been made are untouched. -/
theorem Tidy.pristine (tidy : m.Tidy) (unused : ∀ l ∈ ls, m.nextLayer ≤ l.id) :
    m.Pristine ls :=
  (tidy.untouched unused).pristine

theorem Same.kept_eq (same : m.Same m' ls) : (ending ls).kept m' = (ending ls).kept m :=
  Ending.kept_congr fun l _ _ arrival => (same l (mem_of_ending arrival)).2

theorem Same.pristine (same : m.Same m' ls) (pristine : m.Pristine ls) : m'.Pristine ls where
  unmarked l hl := (same l (mem_of_reached hl)).1.trans (pristine.unmarked l hl)
  kept := same.kept_eq.trans pristine.kept

theorem Same.settled (same : m.Same m' ls) (settled : m.Settled f ls) : m'.Settled f ls where
  marked l hl := (same l (mem_of_reached hl)).1.trans (settled.marked l hl)
  written := by
    obtain ⟨e, written, keeps⟩ := settled.written
    exact ⟨e, written, fun task => same.kept_eq.trans (keeps task)⟩

/-- Making further layers touches none. -/
theorem Pristine.numbered {o : Orchestrator} (pristine : o.memory.Pristine ls) (n : Nat) :
    (o.numbered n).memory.Pristine ls :=
  ⟨pristine.unmarked, pristine.kept⟩

theorem pristine_fresh (ls : List Layer) : Memory.fresh.Pristine ls :=
  tidy_fresh.pristine fun l _ => Nat.zero_le l.id

/-- A first call draws up what the layers write together. -/
theorem Pristine.drawUp_ok {e : Element} (pristine : m.Pristine ls)
    (configures : c.configures = true)
    (written : Decoration.configureAll f ((reached ls).map (·.decoration)) .empty = .ok e) :
    ∃ b, drawUp m c f (reached ls) .blank = .ok b ∧
      ((ending ls).shape ≠ none → b.element = some e) := by
  rw [drawUp_configures configures, pristine.unmarked_eq]
  by_cases bare : reached ls = []
  · rw [if_pos bare]
    exact ⟨.blank, rfl, fun task => absurd (Ending.shape_of_reached_nil bare) task⟩
  · rw [if_neg bare]
    change ∃ b, (Decoration.configureAll f ((reached ls).map (·.decoration)) .empty).map _ =
      .ok b ∧ _
    rw [written]
    exact ⟨_, rfl, fun _ => rfl⟩

/-- The blueprint of a later call. -/
theorem Settled.drawUp_eq (settled : m.Settled f ls) :
    drawUp m c f (reached ls) .blank = .ok .blank := by
  by_cases configures : c.configures = true
  · have none : m.unmarked (reached ls) = [] :=
      List.filter_eq_nil_iff.mpr fun l hl => by simpa using settled.marked l hl
    rw [drawUp_configures configures, if_pos none]
  · exact drawUp_plain configures _ _

/-- The first configuration that is finished settles the layers. -/
theorem Pristine.commit (pristine : m.Pristine ls) (configures : c.configures = true)
    (drawn : drawUp m c f (reached ls) .blank = .ok b) :
    ((ending ls).commit m b).Settled f ls := by
  rcases drawUp_blank configures drawn with ⟨none, rfl⟩ | ⟨_, e, written, rfl⟩
  · have bare : reached ls = [] := pristine.unmarked_eq.symm.trans none
    refine ⟨?_, .empty, ?_, ?_⟩
    · intro l hl
      rw [bare] at hl
      cases hl
    · rw [bare]
      rfl
    · intro task
      exact absurd (Ending.shape_of_reached_nil bare) task
  · rw [pristine.unmarked_eq] at written ⊢
    refine ⟨?_, e, written, ?_⟩
    · intro l hl
      rw [Ending.commit_configured, Bool.or_eq_true]
      exact .inr (List.contains_iff_mem.mpr (List.mem_map_of_mem hl))
    · intro task
      rw [Ending.kept_commit task, pristine.kept]
      rfl

/-- Later configurations leave settled layers as they are. -/
theorem Settled.commit (settled : m.Settled f ls)
    (drawn : drawUp m c f (reached ls) .blank = .ok b) : (ending ls).commit m b = m := by
  obtain rfl := Except.ok.inj (settled.drawUp_eq.symm.trans drawn)
  exact Ending.commit_blank (ending ls) m

end Memory

namespace TaskFunction

/-- Whatever a call does, it leaves the layers untouched or settled. -/
theorem memoryAfter_invariant (f : TaskFunction) (r : Request) (o : Orchestrator)
    (h : o.memory.Pristine f.layers ∨ o.memory.Settled f.signature f.layers) :
    (f.memoryAfter r o).Pristine f.layers ∨ (f.memoryAfter r o).Settled f.signature f.layers := by
  rcases f.memoryAfter_cases r o with unchanged | ⟨configures, b, drawn, committed⟩
  · rw [unchanged]
    exact h
  · rw [committed]
    rcases h with pristine | settled
    · exact .inr (pristine.commit configures drawn)
    · rw [settled.commit drawn]
      exact .inr settled

/-- A blueprint that is not refused is not refused to the layers together. -/
theorem written_of_drawUp {f : TaskFunction} {m : Memory} {c : Context} {b : Blueprint}
    (configures : c.configures = true)
    (h : m.Pristine f.layers ∨ m.Settled f.signature f.layers)
    (drawn : drawUp m c f.signature (reached f.layers) .blank = .ok b) :
    ∃ e, Decoration.configureAll f.signature ((reached f.layers).map (·.decoration)) .empty =
      .ok e := by
  rcases h with pristine | settled
  · rcases drawUp_blank configures drawn with ⟨none, _⟩ | ⟨_, e, written, _⟩
    · rw [pristine.unmarked_eq.symm.trans none]
      exact ⟨.empty, rfl⟩
    · rw [pristine.unmarked_eq] at written
      exact ⟨e, written⟩
  · obtain ⟨e, written, _⟩ := settled.written
    exact ⟨e, written⟩

/-- The descriptor of a task that is handed in is what the layers write together. -/
theorem written_of_handed {f : TaskFunction} {r : Request} {o : Orchestrator} {q : TaskRequest}
    (h : o.memory.Pristine f.layers ∨ o.memory.Settled f.signature f.layers)
    (handed : f.handed r o = some q) :
    Decoration.configureAll f.signature ((reached f.layers).map (·.decoration)) .empty =
      .ok q.descriptor.element := by
  obtain ⟨b, d, l, options, descriptor, crossing, arrival, configures, delivered, rfl⟩ :=
    handed_eq_some handed
  have drawn := drawUp_of_walk crossing
  have task : (ending f.layers).shape ≠ none := by
    rw [arrival]
    exact Option.some_ne_none _
  -- What is delivered is what the call has drawn up or what the layer keeps.
  have carried : (ending f.layers).carried o.memory b = some descriptor.element := by
    rw [arrival]
    exact congrArg (Option.map (·.element)) delivered
  rcases h with pristine | settled
  · rcases drawUp_blank configures drawn with ⟨none, _⟩ | ⟨_, e, written, rfl⟩
    · exact absurd (Ending.shape_of_reached_nil (pristine.unmarked_eq.symm.trans none)) task
    · have same := (Ending.carried_of_some task rfl).symm.trans carried
      rw [pristine.unmarked_eq] at written
      exact written.trans (congrArg Except.ok (Option.some.inj same))
  · obtain rfl := Except.ok.inj (settled.drawUp_eq.symm.trans drawn)
    obtain ⟨e, written, kept⟩ := settled.written
    rw [Ending.carried_of_none rfl, kept task] at carried
    exact written.trans (congrArg Except.ok (Option.some.inj carried))

section Comparison

variable {f f' : TaskFunction} {o o' : Orchestrator}

/-- A call through settled layers goes like a first call. -/
theorem conduct_of_settled (r : Request) (base : f.base = f'.base)
    (decorations : f.layers.map (·.decoration) = f'.layers.map (·.decoration))
    (alike : o.Alike o') (settled : o.memory.Settled f.signature f.layers)
    (pristine : o'.memory.Pristine f'.layers) : f.conduct r o = f'.conduct r o' := by
  obtain ⟨e, written, kept⟩ := settled.written
  by_cases configures : r.context.configures = true
  · -- The first call draws up what the later one finds.
    have signature : f.signature = f'.signature := congrArg BareFunction.signature base
    rw [signature, reached_decorations decorations] at written
    obtain ⟨b, drawn, element⟩ := pristine.drawUp_ok configures written
    refine conduct_of_drawUp base decorations alike
      settled.drawUp_eq drawn fun _ => ?_
    have shape := Ending.shape_congr decorations
    by_cases body : (ending f.layers).shape = none
    · rw [Ending.carried_of_body body, Ending.carried_of_body (shape.symm.trans body)]
    · rw [Ending.carried_of_none rfl, kept body]
      have task : (ending f'.layers).shape ≠ none := shape ▸ body
      exact (Ending.carried_of_some task (element task)).symm
  · exact conduct_of_drawUp base decorations alike
      settled.drawUp_eq (drawUp_plain configures _ _) (fun yes => absurd yes configures)

/-- A call through untouched layers is a first call. -/
theorem conduct_of_pristine (r : Request) (base : f.base = f'.base)
    (decorations : f.layers.map (·.decoration) = f'.layers.map (·.decoration))
    (alike : o.Alike o') (here : o.memory.Pristine f.layers)
    (there : o'.memory.Pristine f'.layers) : f.conduct r o = f'.conduct r o' := by
  refine conduct_congr base decorations alike ?_
    (here.kept.trans there.kept.symm)
  rw [Memory.marks_of_forall here.unmarked, Memory.marks_of_forall there.unmarked,
    reached_decorations decorations]

/-- What the layers remember makes no difference. -/
theorem conduct_fresh (r : Request)
    (h : o.memory.Pristine f.layers ∨ o.memory.Settled f.signature f.layers) :
    f.conduct r o = f.conduct r { o with memory := .fresh } := by
  rcases h with pristine | settled
  · exact conduct_of_pristine r rfl rfl ⟨rfl, rfl, rfl⟩ pristine (Memory.pristine_fresh f.layers)
  · exact conduct_of_settled r rfl rfl ⟨rfl, rfl, rfl⟩ settled (Memory.pristine_fresh f.layers)

end Comparison

/-- The layers of a solitary function are untouched or settled. -/
theorem Solitary.pristine_or_settled {f : TaskFunction} {o : Orchestrator}
    (solitary : f.Solitary o) :
    o.memory.Pristine f.layers ∨ o.memory.Settled f.signature f.layers :=
  solitary.invariant (P := fun m => m.Pristine f.layers ∨ m.Settled f.signature f.layers)
    (fun _ untouched => .inl untouched.pristine) (fun r o h => f.memoryAfter_invariant r o h)
    fun _ _ same h => h.imp same.pristine same.settled

/-- After any history of its calls, a decorated function is untouched or settled. -/
theorem replay_invariant {as : List Decoration} {base : BareFunction} {o o₁ : Orchestrator}
    {f : TaskFunction} (tidy : o.memory.Tidy) (decorated : decorate as (bare base) o = (f, o₁))
    (history : List (Event Unit)) :
    (Event.replay (fun _ => f) history o₁).memory.Pristine f.layers ∨
      (Event.replay (fun _ => f) history o₁).memory.Settled f.signature f.layers :=
  ((Solitary.decorated tidy decorated).replay history).pristine_or_settled

/-- What a function remembers after any history of its calls makes no difference: a call has the
outcome it would have as the first call of a copy, decorated anew in an orchestrator with the
same session, transforms and scheduler. -/
theorem caching_transparent {as : List Decoration} {base : BareFunction}
    {o o' o₁ o₁' : Orchestrator} {f copy : TaskFunction} (tidy : o.memory.Tidy)
    (tidy' : o'.memory.Tidy) (decorated : decorate as (bare base) o = (f, o₁))
    (copied : decorate as (bare base) o' = (copy, o₁')) (history : List (Event Unit))
    (alike : (Event.replay (fun _ => f) history o₁).Alike o₁') (r : Request) :
    f.outcome r (Event.replay (fun _ => f) history o₁) = copy.outcome r o₁' := by
  suffices conducted : f.conduct r (Event.replay (fun _ => f) history o₁) = copy.conduct r o₁' from
    congrArg Prod.fst conducted
  have fresh := (untouched_of_decorate tidy' copied).pristine
  have invariant := replay_invariant tidy decorated history
  obtain ⟨here, layers⟩ := layers_of_decorate decorated
  obtain ⟨there, layers'⟩ := layers_of_decorate copied
  have base := here.trans there.symm
  have same := layers.trans layers'.symm
  rcases invariant with pristine | settled
  · exact conduct_of_pristine r base same alike pristine fresh
  · exact conduct_of_settled r base same alike settled fresh

/-- The function is decorated when another one has been called already. -/
theorem caching_transparent_second_call :
    let as := [Decoration.task .empty .standard]
    let r := Request.plain ⟨.master, false⟩ .empty
    let other := decorate as (bare .echo) .master
    let o := Event.replay (fun _ => other.1) [.call () r] other.2
    let made := decorate as (bare .echo) o
    let late := Event.replay (fun _ => made.1) [.call () r] made.2
    let copied := decorate as (bare .echo) { late with memory := .fresh }
    made.1.outcome r late = copied.1.outcome r copied.2 := by
  intro as r other o made late copied
  have reached : Orchestrator.Reached [other.1, bare .echo] o :=
    ((Orchestrator.reached_master.bare .echo).decorate as List.mem_cons_self).replay
      (fun _ => List.mem_cons_self) [.call () r]
  exact caching_transparent reached.tidy Memory.tidy_fresh rfl rfl [.call () r] ⟨rfl, rfl, rfl⟩ r

end TaskFunction

end TaskDecoration
