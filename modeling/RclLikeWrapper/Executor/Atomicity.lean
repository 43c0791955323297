/-
  RclLikeWrapper.Executor.Atomicity
  ─────────────────────────────────
  **THE POLLING CYCLE IS ATOMIC: THE SMALL STEPS REFINE THE EXECUTOR WORLD.**

  `Executor/Spin.lean` takes one polling cycle of `spin()` as a single step of the
  executor world, between whole `stop`, `add_node` and `remove_node` calls of other
  threads; `Executor/Lock.lean` takes the same cycle apart into the spinning thread's
  small steps, with the owner of `mutex_` explicit.  This module connects the two levels.
  When no callback calls back into the executor, every interleaving of the small steps
  with other threads' calls is, seen through `absCycle`, a run of the executor world over
  the labels that took effect: the spinning thread's lock is the world's polling-cycle
  step, and its other steps, like the calls that find `mutex_` held and wait, stutter.

  Main results:
    * `absCycle_spinnerStep`, `absCycle_otherStep` — each small step is one world step or
      none;
    * `absCycle_cycleRun` — so every run is the world run over its effective labels
      (`effectiveLabels`): the spinning thread's lock, and the calls that find `mutex_`
      free;
    * `polling_cycle_is_atomic` — from the start of a cycle, every interleaving leaves the
      executor and the effects where the world leaves them when the other threads' calls
      that went through run whole and the cycle runs whole at its lock.
-/
import RclLikeWrapper.Executor.Lock
import RclLikeWrapper.Executor.Spin

namespace RclLikeWrapper

/-! ## §1. The world step a label is. -/

/-- An executor call run whole is the world step of the same name. -/
def ExecutorCall.toStep : ExecutorCall → Step
  | .addNode p => .addNode p
  | .removeNode p => .removeNode p
  | .stop => .stop

/-- The world step a label is: the spinning thread's next statement, or the other
    thread's whole call. -/
def CycleLabel.toStep : CycleLabel → Step
  | .spinner => .spinStep
  | .other _ c => c.toStep

/-- A call run whole as a world step does to the executor what its body does. -/
theorem World.step_toStep (w : World) (c : ExecutorCall) :
    w.step c.toStep = ({ w with exec := (c.apply w.exec).1 }, (c.apply w.exec).2) := by
  cases c <;> rfl

/-- A run of the executor world over some labels, what it did appended to what was done
    before. -/
def worldRun (x : World × List Effect) (σ : List CycleLabel) : World × List Effect :=
  (World.steps x.1 (σ.map CycleLabel.toStep),
    x.2 ++ World.effectsIn x.1 (σ.map CycleLabel.toStep))

theorem worldRun_nil (x : World × List Effect) : worldRun x [] = x := by
  simp [worldRun, World.effectsIn]

theorem worldRun_cons (x : World × List Effect) (l : CycleLabel) (σ : List CycleLabel) :
    worldRun x (l :: σ) = worldRun (worldRun x [l]) σ := by
  simp [worldRun, World.effectsIn]

theorem worldRun_append (x : World × List Effect) (σ σ' : List CycleLabel) :
    worldRun x (σ ++ σ') = worldRun (worldRun x σ) σ' := by
  induction σ generalizing x with
  | nil => rw [List.nil_append, worldRun_nil]
  | cons l σ ih => rw [List.cons_append, worldRun_cons, ih, ← worldRun_cons]

/-! ## §2. Inside a cycle whose callbacks leave the executor alone. -/

/-- The callbacks still to run make no call on the executor. -/
def QuietPc : CyclePc → Prop
  | .dispatch cbs _ => ∀ cb ∈ cbs, cb = []
  | .running calls cbs _ => calls = [] ∧ ∀ cb ∈ cbs, cb = []
  | .deadlocked => False
  | _ => True

/-- The rest of the cycle's effects, from a position inside the locked block. -/
def remaining : CyclePc → List Effect
  | .visit rest | .dispatch _ rest | .running _ _ rest => Executor.forEachNode spinSome rest
  | _ => []

/-- The executor world a cycle state stands for, `g` being `global_stop_flag`, and what was
    done: before the lock the spinning thread is about to run the cycle; from the lock on
    the cycle has run whole, and the thread is back at its loop test. -/
def absCycle (g : Bool) (s : CycleState) : World × List Effect :=
  (⟨s.exec, g, if s.pc = .lock then .cycle else .test⟩, s.effects ++ remaining s.pc)

section Atomic

variable (t : Nat) (pending : Int → List Callback)

/-- The world steps a label is from the state it is taken in: the spinning thread's step
    at its lock is the polling cycle; another thread's call is that call when it finds
    `mutex_` free; every other step stands for none. -/
def effective (s : CycleState) : CycleLabel → List CycleLabel
  | .spinner => if s.pc = .lock then [.spinner] else []
  | .other u c => if u ≠ t ∧ s.owner = none then [.other u c] else []

/-- The labels of an interleaving that take effect in the executor world, in order: the
    cycle at the spinning thread's lock, and the other threads' calls that find `mutex_`
    free; the spinning thread's other steps and the calls that find `mutex_` held drop. -/
def effectiveLabels : CycleState → List CycleLabel → List CycleLabel
  | _, [] => []
  | s, l :: ρ => effective t s l ++ effectiveLabels (cycleStep t pending s l) ρ

theorem effectiveLabels_sublist (s : CycleState) (ρ : List CycleLabel) :
    (effectiveLabels t pending s ρ).Sublist ρ := by
  induction ρ generalizing s with
  | nil => exact .slnil
  | cons l ρ ih =>
    have hl : effective t s l = [] ∨ effective t s l = [l] := by
      cases l <;> simp only [effective] <;> split_ifs <;> simp
    rcases hl with hl | hl
    · rw [effectiveLabels, hl, List.nil_append]; exact (ih _).cons l
    · rw [effectiveLabels, hl, List.singleton_append]; exact (ih _).cons₂ l

/-- The invariant of a cycle whose callbacks leave the executor alone: who owns `mutex_`,
    and that no callback still to run calls back. -/
structure AtomicInv (s : CycleState) : Prop where
  owner : OwnerInv t s
  quiet : QuietPc s.pc

theorem atomicInv_start (e : Executor) : AtomicInv t (cycleStart e) :=
  ⟨ownerInv_start t e, trivial⟩

/-- With `mutex_` free, the cycle stands before its lock or after its release. -/
theorem remaining_of_owner_none {s : CycleState} (h : OwnerInv t s) (ho : s.owner = none) :
    remaining s.pc = [] := by
  obtain ⟨e, o, pc, effs⟩ := s
  simp only at ho
  subst ho
  cases pc <;> simp_all [OwnerInv, remaining]

variable {pending} in
theorem atomicInv_spinnerStep (hq : ∀ p, ∀ cb ∈ pending p, cb = []) {s : CycleState}
    (h : AtomicInv t s) : AtomicInv t (spinnerStep t pending s) := by
  refine ⟨ownerInv_spinnerStep t pending h.owner, ?_⟩
  obtain ⟨e, o, pc, effs⟩ := s
  obtain ⟨hown, hquiet⟩ := h
  cases pc with
  | lock =>
    simp only [OwnerInv] at hown
    subst hown
    trivial
  | visit rest =>
    cases rest with
    | nil => trivial
    | cons p rest =>
      by_cases hp : p = 0
      · simp [spinnerStep, QuietPc, hp]
      · simpa [spinnerStep, QuietPc, hp] using hq p
  | dispatch cbs rest =>
    cases cbs with
    | nil => trivial
    | cons cb cbs => simpa [spinnerStep, QuietPc] using hquiet
  | running calls cbs rest =>
    obtain ⟨rfl, hcbs⟩ := hquiet
    exact hcbs
  | unlock | done => trivial
  | deadlocked => exact hquiet.elim

theorem atomicInv_otherStep {s : CycleState} (h : AtomicInv t s) (u : Nat) (c : ExecutorCall) :
    AtomicInv t (otherStep t u c s) :=
  ⟨ownerInv_otherStep t h.owner u c, by rw [otherStep_pc]; exact h.quiet⟩

/-! ## §3. Each small step is one world step or none. -/

/-- **The spinning thread's step.** Its lock is the world's polling-cycle step; every other
    step of it stutters. -/
theorem absCycle_spinnerStep (g : Bool) {s : CycleState} (h : AtomicInv t s) :
    absCycle g (spinnerStep t pending s) =
      if s.pc = .lock then worldRun (absCycle g s) [.spinner] else absCycle g s := by
  obtain ⟨e, o, pc, effs⟩ := s
  obtain ⟨hown, hquiet⟩ := h
  cases pc with
  | lock =>
    simp only [OwnerInv] at hown
    subst hown
    simp [spinnerStep, absCycle, worldRun, remaining, World.effectsIn, World.step,
      CycleLabel.toStep, Executor.pollingCycle]
  | visit rest =>
    cases rest with
    | nil => simp [spinnerStep, absCycle, remaining, Executor.forEachNode]
    | cons p rest =>
      by_cases hp : p = 0 <;> simp [spinnerStep, absCycle, remaining, Executor.forEachNode, hp]
  | dispatch cbs rest => cases cbs <;> simp [spinnerStep, absCycle, remaining]
  | running calls cbs rest =>
    obtain ⟨rfl, -⟩ := hquiet
    simp [spinnerStep, absCycle, remaining]
  | unlock | done => simp [spinnerStep, absCycle, remaining]
  | deadlocked => exact hquiet.elim

/-- **Another thread's call.** With `mutex_` free it is the world step of the same call;
    with `mutex_` held it waits, and stutters. -/
theorem absCycle_otherStep (g : Bool) {s : CycleState} (h : AtomicInv t s) (u : Nat)
    (c : ExecutorCall) :
    absCycle g (otherStep t u c s) =
      if u ≠ t ∧ s.owner = none then worldRun (absCycle g s) [.other u c] else absCycle g s := by
  by_cases hu : u = t
  · simp [otherStep, hu]
  cases ho : s.owner with
  | none =>
    have hrem := remaining_of_owner_none t h.owner ho
    simp [otherStep, hu, ho, absCycle, worldRun, hrem, World.effectsIn, CycleLabel.toStep,
      World.step_toStep]
  | some o =>
    have hs : otherStep t u c s = s := by
      unfold otherStep lockGuard
      rw [if_neg hu, ho]
      by_cases hou : o = u <;> simp [hou]
    simp [hs]

/-- One labelled step is the world run over the labels it makes effective. -/
theorem absCycle_cycleStep (hq : ∀ p, ∀ cb ∈ pending p, cb = []) (g : Bool) {s : CycleState}
    (h : AtomicInv t s) (l : CycleLabel) :
    AtomicInv t (cycleStep t pending s l) ∧
      absCycle g (cycleStep t pending s l) = worldRun (absCycle g s) (effective t s l) := by
  cases l with
  | spinner =>
    refine ⟨atomicInv_spinnerStep t hq h, ?_⟩
    rw [cycleStep, absCycle_spinnerStep t pending g h, effective]
    split_ifs <;> simp [worldRun_nil]
  | other u c =>
    refine ⟨atomicInv_otherStep t h u c, ?_⟩
    rw [cycleStep, absCycle_otherStep t g h, effective]
    split_ifs <;> simp [worldRun_nil]

/-- **Every run is the world run over its effective labels.** -/
theorem absCycle_cycleRun (hq : ∀ p, ∀ cb ∈ pending p, cb = []) (g : Bool) {s : CycleState}
    (h : AtomicInv t s) (ρ : List CycleLabel) :
    absCycle g (cycleRun t pending s ρ) =
      worldRun (absCycle g s) (effectiveLabels t pending s ρ) := by
  induction ρ generalizing s with
  | nil => exact (worldRun_nil _).symm
  | cons l ρ ih =>
    obtain ⟨h', hstep⟩ := absCycle_cycleStep t pending hq g h l
    rw [effectiveLabels, worldRun_append, ← hstep]
    exact ih h'

/-- **The polling cycle is atomic.** For every executor, every value of
    `global_stop_flag`, every set of pending callbacks none of which calls back into the
    executor, and every interleaving of the spinning thread's small steps with other
    threads' `add_node`, `remove_node` and `stop` calls from the start of a cycle: the
    executor world run, from the spinning thread's polling-cycle step, over the
    interleaving's effective labels (the cycle at the spinning thread's lock, and the
    calls that find `mutex_` free; the calls that find it held wait and drop) leaves the
    world and the effects that the small steps stand for; once the cycle is over, they
    are the executor and the effects themselves. -/
theorem polling_cycle_is_atomic (hq : ∀ p, ∀ cb ∈ pending p, cb = []) (e : Executor) (g : Bool)
    (ρ : List CycleLabel) :
    (effectiveLabels t pending (cycleStart e) ρ).Sublist ρ ∧
      absCycle g (cycleRun t pending (cycleStart e) ρ) =
        (World.steps ⟨e, g, .cycle⟩
            ((effectiveLabels t pending (cycleStart e) ρ).map CycleLabel.toStep),
          World.effectsIn ⟨e, g, .cycle⟩
            ((effectiveLabels t pending (cycleStart e) ρ).map CycleLabel.toStep)) := by
  refine ⟨effectiveLabels_sublist t pending _ ρ, ?_⟩
  rw [absCycle_cycleRun t pending hq g (atomicInv_start t e) ρ]
  simp [worldRun, absCycle, cycleStart, remaining]

end Atomic

/-- Another thread adds a node before the lock, calls `stop()` inside the block, where it
    waits, and again after the release; the spinning thread runs the whole cycle over the
    three nodes, each dispatching one callback that leaves the executor alone. -/
def stopDuringCycle : List CycleLabel :=
  [.other 1 (.addNode 3), .spinner, .spinner, .other 1 .stop] ++ List.replicate 13 .spinner ++
    [.other 1 .stop]

/-- The theorem on `stopDuringCycle`, from an executor running nodes `1` and `2`. -/
theorem polling_cycle_is_atomic_stop_during_cycle :
    (∀ p, ∀ cb ∈ (fun _ => [[]] : Int → List Callback) p, cb = []) ∧
      ((effectiveLabels 0 (fun _ => [[]]) (cycleStart ⟨true, [1, 2]⟩) stopDuringCycle).Sublist
          stopDuringCycle ∧
        absCycle false (cycleRun 0 (fun _ => [[]]) (cycleStart ⟨true, [1, 2]⟩) stopDuringCycle) =
          (World.steps ⟨⟨true, [1, 2]⟩, false, .cycle⟩
              ((effectiveLabels 0 (fun _ => [[]]) (cycleStart ⟨true, [1, 2]⟩)
                stopDuringCycle).map CycleLabel.toStep),
            World.effectsIn ⟨⟨true, [1, 2]⟩, false, .cycle⟩
              ((effectiveLabels 0 (fun _ => [[]]) (cycleStart ⟨true, [1, 2]⟩)
                stopDuringCycle).map CycleLabel.toStep))) :=
  ⟨fun _ _ h => List.mem_singleton.mp h,
    polling_cycle_is_atomic 0 _ (fun _ _ h => List.mem_singleton.mp h) _ _ _⟩

/-- On `stopDuringCycle` the labels that take effect are the first `add_node`, the cycle at
    the lock and the `stop()` after the release: the `stop()` inside the block waited. -/
example : effectiveLabels 0 (fun _ => [[]]) (cycleStart ⟨true, [1, 2]⟩) stopDuringCycle =
    [.other 1 (.addNode 3), .spinner, .other 1 .stop] := by
  decide

/-- On `stopDuringCycle` the cycle completes over the three nodes before any `stop_spin`:
    the `stop()` made inside the block has waited, and the one after the release stops
    every node. -/
example : (cycleRun 0 (fun _ => [[]]) (cycleStart ⟨true, [1, 2]⟩) stopDuringCycle).effects =
    [.node .spinSome 1, .node .spinSome 2, .node .spinSome 3,
      .node .stopSpin 1, .node .stopSpin 2, .node .stopSpin 3] := by
  decide

end RclLikeWrapper
