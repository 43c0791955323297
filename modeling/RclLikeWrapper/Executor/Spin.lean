/-
  RclLikeWrapper.Executor.Spin
  ────────────────────────────
  **`Executor::spin()` INTERLEAVED WITH `stop`, `add_node`, `remove_node` AND SIGNALS.**

  The thread that runs `spin()` executes

      running_ = true;
      while (running_ && !global_stop_flag.load()) {
        { std::lock_guard<std::mutex> lock(mutex_); for (node : nodes_) spin_some(node); }
        std::this_thread::sleep_for(1us);
      }

  and every other thread may, between any two of its statements, run the whole body of
  `stop`, `add_node` or `remove_node` (each under `mutex_`, so each is one step), or a
  signal handler may execute its `global_stop_flag = true`; the handler's other
  statements, its lock on `global_mutex` included, are composed in by `Process.lean`.
  A `World` is the executor, `global_stop_flag` and where the spinning thread stands; a
  run is any list of `Step`s, i.e. any interleaving.

  Main results:
    * `steps_nodes` — along every run, `nodes_` is the run's `add_node`/`remove_node`
      calls applied in order (`registeredNodes`), and holds no zero handle;
    * `stop_before_running_assignment_is_lost` — a `stop()` that lands after `spin()` is
      entered but before `running_ = true` is overwritten: `spin()` then polls forever;
    * `stop_after_running_assignment_is_honoured` — a `stop()` that lands after that
      assignment lets at most one further polling cycle start, and `spin()` returns within
      two of its own steps;
    * `signalled_steps` — once `global_stop_flag` is set, at most the cycle ahead starts
      for the rest of the run, and `spin()` returns within two of its own steps;
      `Process.lean` sets the flag by `signal_handler`'s statements.
-/
import RclLikeWrapper.Executor.Basic

namespace RclLikeWrapper

/-! ## §1. Worlds, steps and runs. -/

/-- Where the thread that runs `Executor::spin()` stands. -/
inductive SpinPc
  /-- Not inside `spin()`. -/
  | idle
  /-- `spin()` entered; `running_ = true` not yet executed. -/
  | start
  /-- About to evaluate `running_ && !global_stop_flag.load()`. -/
  | test
  /-- The test passed: next comes one polling cycle, then the sleep. -/
  | cycle
  deriving Repr, DecidableEq

/-- The executor, the process-wide `global_stop_flag` and the spinning thread. -/
structure World where
  exec : Executor
  globalStopFlag : Bool
  pc : SpinPc
  deriving Repr, DecidableEq

/-- One atomic step of some thread. -/
inductive Step
  /-- The spinning thread calls `spin()`. -/
  | spinCall
  /-- The spinning thread executes its next statement. -/
  | spinStep
  /-- Another thread runs `stop()` (its body under `mutex_`). -/
  | stop
  /-- Another thread runs `add_node(p)`. -/
  | addNode (p : Int)
  /-- Another thread runs `remove_node(p)`. -/
  | removeNode (p : Int)
  /-- `signal_handler(sig)` takes effect: for SIGINT and SIGTERM its
      `global_stop_flag = true`, and nothing for any other signal. -/
  | signal (sig : Int)
  deriving Repr, DecidableEq

namespace World

/-- A freshly constructed executor, no signal yet, nobody spinning. -/
def init : World := ⟨Executor.init, false, .idle⟩

/-- One step: the next world and what the step did. -/
def step (w : World) : Step → World × List Effect
  | .spinCall => ({ w with pc := if w.pc = .idle then .start else w.pc }, [])
  | .spinStep =>
    match w.pc with
    | .idle => (w, [])
    | .start => ({ w with exec := { w.exec with running := true }, pc := .test }, [])
    | .test =>
      ({ w with pc := if w.exec.running && !w.globalStopFlag then .cycle else .idle }, [])
    | .cycle => ({ w with pc := .test }, w.exec.pollingCycle)
  | .stop => ({ w with exec := w.exec.stop.1 }, w.exec.stop.2)
  | .addNode p => ({ w with exec := (w.exec.addNode p).1 }, (w.exec.addNode p).2)
  | .removeNode p => ({ w with exec := w.exec.removeNode p }, [])
  | .signal sig => ({ w with globalStopFlag := signalHandler w.globalStopFlag sig }, [])

/-- The world after a run. -/
def steps (w : World) (ρ : List Step) : World :=
  ρ.foldl (fun w s => (w.step s).1) w

/-- The polling cycles that start along a run. -/
def cyclesIn : World → List Step → Nat
  | _, [] => 0
  | w, s :: ρ => (if s = .spinStep ∧ w.pc = .cycle then 1 else 0) + cyclesIn (w.step s).1 ρ

/-- What a run did, in order. -/
def effectsIn : World → List Step → List Effect
  | _, [] => []
  | w, s :: ρ => (w.step s).2 ++ effectsIn (w.step s).1 ρ

@[simp] theorem steps_nil (w : World) : steps w [] = w := rfl

@[simp] theorem steps_cons (w : World) (s : Step) (ρ : List Step) :
    steps w (s :: ρ) = steps (w.step s).1 ρ := rfl

theorem steps_append (w : World) (ρ ρ' : List Step) :
    steps w (ρ ++ ρ') = steps (steps w ρ) ρ' := List.foldl_append _ _ _ _

/-! ## §2. The node list along every run. -/

/-- What one step does to the node list, stated without the executor: `add_node(p)`
    appends `p` iff `p ≠ 0`, `remove_node(p)` deletes every occurrence of `p` keeping the
    others' order, and no other step touches it. -/
def applyRegistration (l : List Int) : Step → List Int
  | .addNode p => if p ≠ 0 then l ++ [p] else l
  | .removeNode p => l.filter (· ≠ p)
  | _ => l

/-- The run's `add_node` and `remove_node` calls applied in order to the empty list. -/
def registeredNodes (ρ : List Step) : List Int :=
  ρ.foldl applyRegistration []

theorem step_nodes (w : World) (s : Step) :
    (w.step s).1.exec.nodes = applyRegistration w.exec.nodes s := by
  cases s with
  | spinStep => cases h : w.pc <;> simp [step, h, applyRegistration]
  | _ => simp [step, applyRegistration]

theorem step_noZero {w : World} (h : w.exec.NoZero) (s : Step) : (w.step s).1.exec.NoZero := by
  cases s with
  | spinStep => cases hpc : w.pc <;> simpa [step, hpc] using h
  | stop => exact h.stop
  | addNode p => exact h.addNode p
  | removeNode p => exact h.removeNode p
  | _ => exact h

/-- **Simulation.** Along every run, `nodes_` is the registrations applied in order. -/
theorem steps_nodes (w : World) (ρ : List Step) :
    (steps w ρ).exec.nodes = ρ.foldl applyRegistration w.exec.nodes := by
  induction ρ generalizing w with
  | nil => rfl
  | cons s ρ ih => rw [steps_cons, ih, step_nodes]; rfl

theorem steps_noZero {w : World} (h : w.exec.NoZero) (ρ : List Step) :
    (steps w ρ).exec.NoZero := by
  induction ρ generalizing w with
  | nil => exact h
  | cons s ρ ih => exact ih (step_noZero h s)

theorem init_nodes (ρ : List Step) : (steps init ρ).exec.nodes = registeredNodes ρ :=
  steps_nodes init ρ

/-- Steps other than an `add_node` of `p` never bring `p` into the list. -/
theorem not_mem_foldl_applyRegistration {p : Int} :
    ∀ {l : List Int} {ρ : List Step}, p ∉ l → (∀ s ∈ ρ, s ≠ .addNode p) →
      p ∉ ρ.foldl applyRegistration l
  | _, [], hl, _ => hl
  | l, s :: ρ, hl, hρ => by
    rw [List.foldl_cons]
    refine not_mem_foldl_applyRegistration ?_ fun s' hs' => hρ s' (List.mem_cons_of_mem s hs')
    have hs : s ≠ .addNode p := hρ s (List.mem_cons_self s ρ)
    cases s with
    | addNode q =>
      have hq : q ≠ p := fun e => hs (e ▸ rfl)
      by_cases hq0 : q = 0 <;> simp [applyRegistration, hq0, hl, Ne.symm hq]
    | removeNode q => simp [applyRegistration, hl]
    | _ => exact hl

/-- A removal deletes every occurrence, and only an `add_node` of the same handle brings
    it back. -/
theorem not_mem_registeredNodes_of_removed (p : Int) (ρ₁ ρ₂ : List Step)
    (h : ∀ s ∈ ρ₂, s ≠ .addNode p) : p ∉ registeredNodes (ρ₁ ++ .removeNode p :: ρ₂) := by
  rw [registeredNodes, List.foldl_append, List.foldl_cons]
  exact not_mem_foldl_applyRegistration (by simp [applyRegistration]) h

/-- A step of the spinning thread does something only in a polling cycle. -/
theorem step_spinStep_effects (w : World) :
    (w.step .spinStep).2 = if w.pc = .cycle then w.exec.pollingCycle else [] := by
  cases h : w.pc <;> simp [step, h]

/-- **The executor spins exactly the registered nodes.** For every interleaving `ρ` from a
    freshly constructed executor: the next polling cycle calls `spin_some` on exactly
    `registeredNodes ρ`, in order; an effective `stop()` calls `stop_spin` on exactly
    that list; `nodes_` never holds `0` (no "node pointer is invalid!" branch is taken);
    and a handle removed before the cycle, and not added since, is not spun in it. -/
theorem cycles_spin_registered_nodes (ρ : List Step) :
    ((steps init ρ).step .spinStep).2 =
        (if (steps init ρ).pc = .cycle then (registeredNodes ρ).map (.node .spinSome)
          else []) ∧
      ((steps init ρ).step .stop).2 =
        (if (steps init ρ).exec.running then (registeredNodes ρ).map (.node .stopSpin)
          else []) ∧
      (0 : Int) ∉ (steps init ρ).exec.nodes ∧
      ∀ p ρ₁ ρ₂, ρ = ρ₁ ++ .removeNode p :: ρ₂ → (∀ s ∈ ρ₂, s ≠ .addNode p) →
        Effect.node .spinSome p ∉ ((steps init ρ).step .spinStep).2 := by
  have hz := steps_noZero (w := init) Executor.noZero_init ρ
  have cycle : ((steps init ρ).step .spinStep).2 =
      (if (steps init ρ).pc = .cycle then (registeredNodes ρ).map (.node .spinSome)
        else []) := by
    rw [step_spinStep_effects, Executor.pollingCycle_of_noZero hz, init_nodes]
  refine ⟨cycle, ?_, fun h0 => hz 0 h0 rfl, ?_⟩
  · show (steps init ρ).exec.stop.2 = _
    rw [Executor.stop_of_noZero hz, init_nodes]
  · rintro p ρ₁ ρ₂ rfl hρ₂
    have hp := not_mem_registeredNodes_of_removed p ρ₁ ρ₂ hρ₂
    rw [cycle]
    split <;> simp [hp]

/-! ## §3. Stop while spinning. -/

theorem cyclesIn_append (w : World) (ρ ρ' : List Step) :
    cyclesIn w (ρ ++ ρ') = cyclesIn w ρ + cyclesIn (steps w ρ) ρ' := by
  induction ρ generalizing w with
  | nil => simp [cyclesIn]
  | cons s ρ ih => rw [List.cons_append, cyclesIn, cyclesIn, ih, steps_cons]; omega

/-- While `running_` stays set and no signal arrives, each test-and-cycle pair of the
    spinning thread starts one polling cycle and comes back to the test. -/
theorem spin_pairs_from_test {w : World} (hpc : w.pc = .test) (hrun : w.exec.running = true)
    (hflag : w.globalStopFlag = false) (n : Nat) :
    steps w (List.replicate (2 * n) .spinStep) = w ∧
      cyclesIn w (List.replicate (2 * n) .spinStep) = n := by
  have pair : steps w [.spinStep, .spinStep] = w ∧ cyclesIn w [.spinStep, .spinStep] = 1 := by
    obtain ⟨⟨r, ns⟩, g, pc⟩ := w
    simp only at hpc hrun hflag
    subst hpc hrun hflag
    exact ⟨rfl, rfl⟩
  induction n with
  | zero => exact ⟨rfl, rfl⟩
  | succ n ih =>
    rw [show 2 * (n + 1) = 2 + 2 * n by omega, List.replicate_add, steps_append,
      cyclesIn_append]
    simp only [List.replicate, pair.1, ih.1, pair.2, ih.2]
    exact ⟨trivial, Nat.add_comm 1 n⟩

/-- From a fresh executor, the spinning thread enters `spin()` and another thread runs
    `stop()` before the spinning thread's first statement. -/
theorem stop_before_assignment_world :
    ((steps init [.spinCall]).step .stop).1 = ⟨Executor.init, false, .start⟩ := rfl

/-- **A `stop()` that lands before `running_ = true` is lost.** In that interleaving, for
    every `n`, after `2n + 1` further steps of the spinning thread `n` polling cycles have
    started since `stop()` returned, `running_` is set again and `spin()` is still
    looping. -/
theorem stop_before_running_assignment_is_lost (n : Nat) :
    cyclesIn ((steps init [.spinCall]).step .stop).1 (List.replicate (2 * n + 1) .spinStep) = n ∧
      (steps ((steps init [.spinCall]).step .stop).1
        (List.replicate (2 * n + 1) .spinStep)).pc = .test ∧
      (steps ((steps init [.spinCall]).step .stop).1
        (List.replicate (2 * n + 1) .spinStep)).exec.running = true := by
  have hstart : ((⟨Executor.init, false, .start⟩ : World).step .spinStep).1 =
      ⟨⟨true, []⟩, false, .test⟩ := rfl
  have h := spin_pairs_from_test (w := ⟨⟨true, []⟩, false, .test⟩) rfl rfl rfl n
  rw [stop_before_assignment_world, List.replicate_succ]
  simp only [cyclesIn, steps_cons, hstart, h.1, h.2]
  simp [step]

/-- `running_` is clear and the spinning thread is past `running_ = true`: the state a
    `stop()` leaves when it lands after that assignment. -/
def Quiet (w : World) : Prop := w.exec.running = false ∧ w.pc ≠ .start

/-- How many of its own steps the spinning thread still takes before it returns, once
    `running_` is clear for good. -/
def stepsToReturn : SpinPc → Nat
  | .idle => 0
  | .start => 3
  | .test => 1
  | .cycle => 2

/-- One step keeps `Quiet` (no new `spin()` call), each step of the spinning thread
    brings it one step closer to returning, and a polling cycle starts only by spending
    the two steps left from inside the loop. -/
theorem quiet_step {w : World} (hq : w.Quiet) {s : Step} (hs : s ≠ .spinCall) :
    (w.step s).1.Quiet ∧
      stepsToReturn (w.step s).1.pc = stepsToReturn w.pc - (if s = .spinStep then 1 else 0) ∧
      (if s = .spinStep ∧ w.pc = .cycle then 1 else 0) + stepsToReturn (w.step s).1.pc / 2 ≤
        stepsToReturn w.pc / 2 := by
  obtain ⟨⟨r, ns⟩, g, pc⟩ := w
  obtain ⟨hr, hpc⟩ := hq
  simp only at hr hpc
  subst hr
  cases s with
  | spinCall => exact absurd rfl hs
  | spinStep => cases pc <;> simp_all [step, Quiet, stepsToReturn]
  | _ => simp_all [step, Quiet, Executor.stop]

/-- Along a run without a new `spin()` call, `Quiet` holds throughout, the spinning thread
    comes one step closer to returning with each of its steps, and at most
    `stepsToReturn / 2` polling cycles start. -/
theorem quiet_steps {w : World} (hq : w.Quiet) {ρ : List Step} (hρ : .spinCall ∉ ρ) :
    (steps w ρ).Quiet ∧
      stepsToReturn (steps w ρ).pc = stepsToReturn w.pc - ρ.count .spinStep ∧
      cyclesIn w ρ ≤ stepsToReturn w.pc / 2 := by
  induction ρ generalizing w with
  | nil => exact ⟨hq, rfl, Nat.zero_le _⟩
  | cons s ρ ih =>
    have hs : s ≠ .spinCall := fun e => hρ (e ▸ List.mem_cons_self s ρ)
    obtain ⟨hq', hb, hc⟩ := quiet_step hq hs
    obtain ⟨hfin, hbfin, hcyc⟩ := ih hq' fun h => hρ (List.mem_cons_of_mem s h)
    refine ⟨hfin, ?_, ?_⟩
    · rw [steps_cons, hbfin, hb, List.count_cons]
      by_cases h : s = .spinStep
      · simp [h]; omega
      · simp [h]
    · rw [cyclesIn]; omega

/-- **A `stop()` that lands after `running_ = true` is honoured.** If the spinning thread
    is at the loop test or inside the loop when `stop()` runs, then along every run
    without a new `spin()` call at most one further polling cycle starts, and once the
    spinning thread has taken two more steps `spin()` has returned. -/
theorem stop_after_running_assignment_is_honoured {w : World}
    (hpc : w.pc = .test ∨ w.pc = .cycle) {ρ : List Step} (hρ : .spinCall ∉ ρ) :
    cyclesIn (w.step .stop).1 ρ ≤ 1 ∧
      (2 ≤ ρ.count .spinStep → (steps (w.step .stop).1 ρ).pc = .idle) := by
  have hstop : (w.step .stop).1.pc = w.pc := rfl
  have hq : (w.step .stop).1.Quiet :=
    ⟨Executor.stop_running _, by rw [hstop]; rcases hpc with h | h <;> simp [h]⟩
  have hb : stepsToReturn (w.step .stop).1.pc ≤ 2 := by
    rw [hstop]; rcases hpc with h | h <;> simp [h, stepsToReturn]
  obtain ⟨-, hbfin, hcyc⟩ := quiet_steps hq hρ
  refine ⟨by omega, fun h2 => ?_⟩
  have h0 : stepsToReturn (steps (w.step .stop).1 ρ).pc = 0 := by omega
  revert h0
  cases (steps (w.step .stop).1 ρ).pc <;> simp [stepsToReturn]

/-- The guarantee at a concrete world: a stop while the spinning thread is inside the loop,
    followed by its next two steps. -/
theorem stop_after_running_assignment_is_honoured_in_cycle :
    (⟨⟨true, [1]⟩, false, .cycle⟩ : World).pc = .cycle ∧
      cyclesIn ((⟨⟨true, [1]⟩, false, .cycle⟩ : World).step .stop).1 [.spinStep, .spinStep] ≤ 1 ∧
      (2 ≤ [Step.spinStep, .spinStep].count .spinStep →
        (steps ((⟨⟨true, [1]⟩, false, .cycle⟩ : World).step .stop).1
          [.spinStep, .spinStep]).pc = .idle) :=
  ⟨rfl, stop_after_running_assignment_is_honoured (.inr rfl) (by decide)⟩

/-! ## §4. Once `global_stop_flag` is set. -/

/-- The polling cycle the spinning thread is about to start, if it stands before one. -/
def cycleAhead (pc : SpinPc) : Nat := if pc = .cycle then 1 else 0

/-- How many of its own steps the spinning thread still takes before it returns, once
    `global_stop_flag` is set. -/
def stepsToReturnSignalled : SpinPc → Nat
  | .idle => 0
  | .start => 2
  | .test => 1
  | .cycle => 2

/-- Once `global_stop_flag` is set, every step keeps it set, a polling cycle starts only by
    spending the one ahead, and every step of the spinning thread but a new `spin()` call
    brings it one step closer to returning. -/
theorem signalled_step {w : World} (hg : w.globalStopFlag = true) (s : Step) :
    (w.step s).1.globalStopFlag = true ∧
      (if s = .spinStep ∧ w.pc = .cycle then 1 else 0) + cycleAhead (w.step s).1.pc ≤
        cycleAhead w.pc ∧
      (s ≠ .spinCall → stepsToReturnSignalled (w.step s).1.pc =
        stepsToReturnSignalled w.pc - if s = .spinStep then 1 else 0) := by
  obtain ⟨e, g, pc⟩ := w
  simp only at hg
  subst hg
  cases s with
  | spinCall => cases pc <;> simp [step, cycleAhead]
  | spinStep => cases pc <;> simp [step, cycleAhead, stepsToReturnSignalled]
  | signal sig => simp [step, signalHandler, cycleAhead]
  | _ => simp [step, cycleAhead]

/-- Along every run from a world whose `global_stop_flag` is set, the flag stays set, at
    most the cycle ahead starts, and without a new `spin()` call each step of the
    spinning thread brings it one step closer to returning. -/
theorem signalled_steps {w : World} (hg : w.globalStopFlag = true) (ρ : List Step) :
    (steps w ρ).globalStopFlag = true ∧ cyclesIn w ρ ≤ cycleAhead w.pc ∧
      (.spinCall ∉ ρ → stepsToReturnSignalled (steps w ρ).pc =
        stepsToReturnSignalled w.pc - ρ.count .spinStep) := by
  induction ρ generalizing w with
  | nil => exact ⟨hg, Nat.zero_le _, fun _ => rfl⟩
  | cons s ρ ih =>
    obtain ⟨hg', hc, hb⟩ := signalled_step hg s
    obtain ⟨hfin, hcyc, hbfin⟩ := ih hg'
    refine ⟨hfin, by rw [cyclesIn]; omega, fun hρ => ?_⟩
    have hs : s ≠ .spinCall := fun e => hρ (e ▸ List.mem_cons_self s ρ)
    rw [steps_cons, hbfin fun h => hρ (List.mem_cons_of_mem s h), hb hs, List.count_cons]
    by_cases h : s = .spinStep
    · simp [h]; omega
    · simp [h]

end World

end RclLikeWrapper
