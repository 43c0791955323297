/-
  RclLikeWrapper.Process
  ──────────────────────
  **THE PROCESS: THE THREADS AND `signal_handler`, SHARING `global_stop_flag`.**

  `Executor/Spin.lean` and `RclwNode.lean` take a signal as one step of their worlds, the
  write of `global_stop_flag`; `Signal.lean` takes `signal_handler` apart, with its lock on
  `global_mutex` and deliveries that interrupt a running handler.  This module composes the
  two.  A process is a thread world next to the handlers' frames, and a run is any
  interleaving of the threads' steps with signal deliveries and handler statements.  A
  handler statement reaches the thread world only through `global_stop_flag = true`, which
  is the world's signal step, at the moment it executes; the threads' own steps are the
  world's other steps.

  Main results:
    * `procSteps_eq` — a process run is the handlers' run next to the world's run over the
      threads' steps, with each handler's assignment in its place (`worldStepsIn`);
    * `procSteps_globalStopFlag` — along every run, the flag the threads read is the flag
      the handlers write;
    * `handler_assignment_stops_spin` — once a handler executes its assignment, at most the
      polling cycle ahead starts, and `Executor::spin()` returns within two of its steps;
    * `rclw_stop_is_never_lost` — after `stop()` or such an assignment no loop test of
      `RCLWNode::spin()` passes, and its supervisor calls `stop_spin` within two steps;
    * `nested_signals_never_stop_spin`, `nested_signals_never_stop_rclw_spin` — once a
      SIGINT reaches a thread inside its own SIGTERM handler past the lock, no handler
      records a stop again, and both `spin()` loops poll for as long as nobody calls
      `stop()`.
-/
import RclLikeWrapper.Executor.Atomicity
import RclLikeWrapper.RclwNode
import RclLikeWrapper.Signal

namespace RclLikeWrapper

/-! ## §1. Processes and their runs. -/

/-- One step of a process: a step of one of its threads, or a signal delivery or handler
    statement of `Signal.lean`. -/
inductive ProcStep (T : Type)
  | thread (s : T)
  | handler (s : SigStep)
  deriving Repr, DecidableEq

/-- The threads' steps of a process run, in order. -/
def threadStepsOf {T : Type} : List (ProcStep T) → List T
  | [] => []
  | .thread s :: ρ => s :: threadStepsOf ρ
  | .handler _ :: ρ => threadStepsOf ρ

/-- The handlers' steps of a process run, in order. -/
def handlerStepsOf {T : Type} : List (ProcStep T) → List SigStep
  | [] => []
  | .thread _ :: ρ => handlerStepsOf ρ
  | .handler s :: ρ => s :: handlerStepsOf ρ

/-- The handlers' frames after a process step: a thread's step leaves them alone. -/
def handlersAfter {T : Type} (h : SigWorld) : ProcStep T → SigWorld
  | .thread _ => h
  | .handler s => h.step s

namespace SigWorld

theorem screened_steps {w : SigWorld} (h : w.Screened) (ρ : List SigStep) :
    (w.steps ρ).Screened := by
  induction ρ generalizing w with
  | nil => exact h
  | cons s ρ ih => exact ih (screened_step h s)

/-- A handler statement records one signal at most, and from screened frames a SIGINT or
    a SIGTERM. -/
theorem recordedBy_cases {w : SigWorld} (h : w.Screened) (s : SigStep) :
    w.recordedBy s = [] ∨ ∃ sig, (sig = SIGINT ∨ sig = SIGTERM) ∧ w.recordedBy s = [sig] := by
  have hone : w.recordedBy s = [] ∨ ∃ sig, w.recordedBy s = [sig] := by
    cases s with
    | deliver => exact .inl rfl
    | handlerStep t =>
      simp only [recordedBy]
      split
      · split <;> simp
      · simp
  rcases hone with hr | ⟨sig, hr⟩
  · exact .inl hr
  · exact .inr ⟨sig, (globalStopFlag_step h s).1 sig (by simp [hr]), hr⟩

/-- While a thread waits for itself, no handler statement records a signal: the only frame
    that could reach the assignment holds `global_mutex`, so it is that thread's, and it
    sits below the waiting frame. -/
theorem recordedBy_of_hung {w : SigWorld} (h : w.Inv) {t : Nat} (hh : w.Hung t)
    (s : SigStep) : w.recordedBy s = [] := by
  obtain ⟨g, hg, hd⟩ := hh
  cases s with
  | deliver => rfl
  | handlerStep u =>
    cases hfu : w.frames u with
    | nil => simp [recordedBy, hfu]
    | cons f fs =>
      by_cases hf : f.pc = .set
      · exfalso
        have hu : w.owner = some u := (h u).holds_iff.1 ⟨f, by simp [hfu], .inl hf⟩
        obtain rfl : u = t := Option.some.inj (hu.symm.trans ((h t).deadlocked_owns g hg hd))
        have hpw := (h u).holder_above
        rw [hfu] at hpw hg
        rcases List.mem_cons.mp hg with rfl | hg
        · rw [hf] at hd; cases hd
        · exact (List.pairwise_cons.mp hpw).1 g hg (.inl hf) hd
      · simp [recordedBy, hfu, hf]

end SigWorld

/-- A world of threads that shares `global_stop_flag` with `signal_handler`: its step
    function, the world step each of its threads' steps is, the world step by which a
    handler's assignment takes effect, and the flag.  The threads' steps are distinct and
    none is a signal; no thread writes the flag, and a signal step applies `signalHandler`
    to it. -/
structure Threads (W T S : Type) where
  step : W → S → W × List Effect
  thread : T → S
  signal : Int → S
  globalStopFlag : W → Bool
  thread_injective : Function.Injective thread
  thread_ne_signal : ∀ t sig, thread t ≠ signal sig
  globalStopFlag_thread : ∀ w t, globalStopFlag (step w (thread t)).1 = globalStopFlag w
  globalStopFlag_signal :
    ∀ w sig, globalStopFlag (step w (signal sig)).1 = signalHandler (globalStopFlag w) sig

/-- A process: the thread world, and the handlers' frames with `global_mutex`. -/
structure Process (W : Type) where
  world : W
  handlers : SigWorld

namespace Threads

variable {W T S : Type} (M : Threads W T S)

/-- The world after a list of its steps. -/
def steps (w : W) (σ : List S) : W :=
  σ.foldl (fun w s => (M.step w s).1) w

/-- The world steps a process step is, the handlers' frames being `h`: a thread's step is
    its world step; a handler statement is the world's signal step for the signal whose
    assignment it executes, and no world step otherwise. -/
def worldSteps (h : SigWorld) : ProcStep T → List S
  | .thread s => [M.thread s]
  | .handler s => (h.recordedBy s).map M.signal

/-- One step of the process. -/
def procStep (p : Process W) (s : ProcStep T) : Process W :=
  ⟨M.steps p.world (M.worldSteps p.handlers s), handlersAfter p.handlers s⟩

/-- The process after a run. -/
def procSteps (p : Process W) (ρ : List (ProcStep T)) : Process W :=
  ρ.foldl M.procStep p

/-- The world steps of a process run, in order. -/
def worldStepsIn : SigWorld → List (ProcStep T) → List S
  | _, [] => []
  | h, s :: ρ => M.worldSteps h s ++ worldStepsIn (handlersAfter h s) ρ

@[simp] theorem procSteps_cons (p : Process W) (s : ProcStep T) (ρ : List (ProcStep T)) :
    M.procSteps p (s :: ρ) = M.procSteps (M.procStep p s) ρ := rfl

theorem steps_append (w : W) (σ σ' : List S) :
    M.steps w (σ ++ σ') = M.steps (M.steps w σ) σ' :=
  List.foldl_append _ _ _ _

/-- **A process run projects to its parts**: the handlers run the run's handler steps, and
    the thread world runs its world steps. -/
theorem procSteps_eq (p : Process W) (ρ : List (ProcStep T)) :
    M.procSteps p ρ =
      ⟨M.steps p.world (M.worldStepsIn p.handlers ρ), p.handlers.steps (handlerStepsOf ρ)⟩ := by
  induction ρ generalizing p with
  | nil => rfl
  | cons s ρ ih =>
    rw [procSteps_cons, ih, worldStepsIn, steps_append]
    cases s <;> rfl

/-- The handlers of every process reached from none running keep every frame past the
    signal test a SIGINT or SIGTERM frame. -/
theorem screened_procSteps (w : W) (ρ : List (ProcStep T)) :
    (M.procSteps ⟨w, .init⟩ ρ).handlers.Screened := by
  rw [procSteps_eq]
  exact SigWorld.screened_steps SigWorld.screened_init _

/-! ## §2. `global_stop_flag` is one flag. -/

/-- Signal steps apply `signalHandler` to the flag, one after the other. -/
theorem globalStopFlag_steps_signal (w : W) (sigs : List Int) :
    M.globalStopFlag (M.steps w (sigs.map M.signal)) =
      sigs.foldl signalHandler (M.globalStopFlag w) := by
  induction sigs generalizing w with
  | nil => rfl
  | cons sig sigs ih => exact (ih _).trans (by rw [M.globalStopFlag_signal]; rfl)

/-- A handler statement that executes `global_stop_flag = true` sets the threads' flag. -/
theorem globalStopFlag_procStep_handler {p : Process W} (hs : p.handlers.Screened)
    {s : SigStep} (hr : p.handlers.recordedBy s ≠ []) :
    M.globalStopFlag (M.procStep p (.handler s)).world = true := by
  obtain ⟨sig, hsig, hrec⟩ := (SigWorld.recordedBy_cases hs s).resolve_left hr
  show M.globalStopFlag (M.steps p.world ((p.handlers.recordedBy s).map M.signal)) = true
  rw [globalStopFlag_steps_signal, hrec]
  simp [signalHandler, hsig]

/-! ## §3. Counting the threads' steps. -/

section Count

variable [DecidableEq T] [DecidableEq S]

/-- A process run holds each thread step as often as its world steps do. -/
theorem count_worldStepsIn (h : SigWorld) (ρ : List (ProcStep T)) (t : T) :
    (M.worldStepsIn h ρ).count (M.thread t) = ρ.count (.thread t) := by
  induction ρ generalizing h with
  | nil => rfl
  | cons s ρ ih =>
    rw [worldStepsIn, List.count_append, ih, List.count_cons]
    cases s with
    | thread s => simp [worldSteps, List.count_singleton, M.thread_injective.eq_iff, Nat.add_comm]
    | handler s =>
      have : M.thread t ∉ (h.recordedBy s).map M.signal := by
        simpa using fun sig _ e => M.thread_ne_signal t sig e.symm
      simp [worldSteps, List.count_eq_zero.2 this]

theorem not_mem_worldStepsIn {t : T} {ρ : List (ProcStep T)} (hρ : .thread t ∉ ρ)
    (h : SigWorld) : M.thread t ∉ M.worldStepsIn h ρ := by
  rwa [← List.count_eq_zero, count_worldStepsIn, List.count_eq_zero]

end Count

/-! ## §4. A hung handler. -/

/-- While a thread waits for itself in a handler, no handler statement reaches the world:
    its world steps are its threads' steps. -/
theorem worldStepsIn_of_hung {h : SigWorld} (hi : h.Inv) {t : Nat} (hh : h.Hung t)
    (ρ : List (ProcStep T)) : M.worldStepsIn h ρ = (threadStepsOf ρ).map M.thread := by
  induction ρ generalizing h with
  | nil => rfl
  | cons s ρ ih =>
    cases s with
    | thread s => exact congrArg (M.thread s :: ·) (ih hi hh)
    | handler s =>
      rw [worldStepsIn, worldSteps, SigWorld.recordedBy_of_hung hi hh s, List.map_nil,
        List.nil_append]
      exact ih (SigWorld.inv_step hi s) (SigWorld.hung_step hi hh s).1

/-- After `nestedDelivery` the thread world is untouched, and from then on its world steps
    are its threads' steps: thread `0` waits for itself inside its SIGINT handler. -/
theorem worldStepsIn_after_nestedDelivery (w : W) (ρ : List (ProcStep T)) :
    let p := M.procSteps ⟨w, .init⟩ (SigWorld.nestedDelivery.map .handler)
    p.world = w ∧ M.worldStepsIn p.handlers ρ = (threadStepsOf ρ).map M.thread := by
  intro p
  have hp : p = ⟨w, SigWorld.init.steps SigWorld.nestedDelivery⟩ := (M.procSteps_eq _ _).trans rfl
  have hh : (SigWorld.init.steps SigWorld.nestedDelivery).Hung 0 :=
    ⟨⟨SIGINT, .deadlocked⟩, by decide, rfl⟩
  rw [hp]
  exact ⟨rfl, M.worldStepsIn_of_hung (SigWorld.inv_steps SigWorld.inv_init _) hh ρ⟩

end Threads

theorem count_threadStepsOf {T : Type} [DecidableEq T] (ρ : List (ProcStep T)) (t : T) :
    (threadStepsOf ρ).count t = ρ.count (.thread t) := by
  induction ρ with
  | nil => rfl
  | cons s ρ ih => cases s <;> simp [threadStepsOf, List.count_cons, ih]

/-! ## §5. The executor's threads. -/

/-- A step of a thread of the executor world: the spinning thread's `spin()` call and
    statements, and other threads' whole `stop`, `add_node` and `remove_node` calls. -/
inductive ExecThreadStep
  | spinCall
  | spinStep
  | call (c : ExecutorCall)
  deriving Repr, DecidableEq

/-- The world step a thread's step is. -/
def ExecThreadStep.toStep : ExecThreadStep → Step
  | .spinCall => .spinCall
  | .spinStep => .spinStep
  | .call c => c.toStep

/-- The executor world, as the threads of the process. -/
def execThreads : Threads World ExecThreadStep Step where
  step := World.step
  thread := ExecThreadStep.toStep
  signal := .signal
  globalStopFlag := World.globalStopFlag
  thread_injective := by
    rintro (_ | _ | (_ | _ | _)) (_ | _ | (_ | _ | _)) h <;>
      simp_all [ExecThreadStep.toStep, ExecutorCall.toStep]
  thread_ne_signal := by
    rintro (_ | _ | (_ | _ | _)) _ h <;> simp [ExecThreadStep.toStep, ExecutorCall.toStep] at h
  globalStopFlag_thread := by
    rintro w (_ | _ | c)
    · rfl
    · simp only [ExecThreadStep.toStep, World.step]; split <;> rfl
    · rw [ExecThreadStep.toStep, World.step_toStep]
  globalStopFlag_signal := fun _ _ => rfl

@[simp] theorem execThreads_thread : execThreads.thread = ExecThreadStep.toStep := rfl

theorem execThreads_procSteps_world (p : Process World) (ρ : List (ProcStep ExecThreadStep)) :
    (execThreads.procSteps p ρ).world =
      World.steps p.world (execThreads.worldStepsIn p.handlers ρ) := by
  rw [Threads.procSteps_eq]; rfl

theorem World.eq_idle_of_stepsToReturnSignalled {pc : SpinPc}
    (h : World.stepsToReturnSignalled pc = 0) : pc = .idle := by
  cases pc <;> simp_all [World.stepsToReturnSignalled]

theorem World.stepsToReturnSignalled_le_two (pc : SpinPc) :
    World.stepsToReturnSignalled pc ≤ 2 := by
  cases pc <;> decide

/-- **A handler's assignment stops `spin()`.** In every process reached from a world `w`
    with no handler running, once a handler statement executes
    `global_stop_flag = true`, at most the polling cycle ahead starts along any
    continuation, and without a new `spin()` call the spinning thread returns within two of
    its own steps. -/
theorem handler_assignment_stops_spin (w : World) (ρ₀ : List (ProcStep ExecThreadStep))
    (s : SigStep) (hs : (execThreads.procSteps ⟨w, .init⟩ ρ₀).handlers.recordedBy s ≠ [])
    (ρ : List (ProcStep ExecThreadStep)) :
    let p := execThreads.procStep (execThreads.procSteps ⟨w, .init⟩ ρ₀) (.handler s)
    World.cyclesIn p.world (execThreads.worldStepsIn p.handlers ρ) ≤
        World.cycleAhead p.world.pc ∧
      (.thread .spinCall ∉ ρ → 2 ≤ ρ.count (.thread .spinStep) →
        (execThreads.procSteps p ρ).world.pc = .idle) := by
  intro p
  have hg : p.world.globalStopFlag = true :=
    execThreads.globalStopFlag_procStep_handler (execThreads.screened_procSteps w ρ₀) hs
  obtain ⟨-, hc, hb⟩ := World.signalled_steps hg (execThreads.worldStepsIn p.handlers ρ)
  refine ⟨hc, fun hρ h2 => ?_⟩
  have hcount : (execThreads.worldStepsIn p.handlers ρ).count .spinStep =
      ρ.count (.thread .spinStep) := execThreads.count_worldStepsIn p.handlers ρ .spinStep
  have hret := hb (execThreads.not_mem_worldStepsIn hρ p.handlers)
  have hle := World.stepsToReturnSignalled_le_two p.world.pc
  rw [execThreads_procSteps_world]
  exact World.eq_idle_of_stepsToReturnSignalled (by rw [hret, hcount]; omega)

/-- The theorem with SIGINT reaching thread `0` while `spin()` stands before a polling
    cycle: the handler takes `global_mutex` and records the stop, and the spinning thread
    runs the cycle ahead and returns. -/
theorem handler_assignment_stops_spin_in_cycle :
    (execThreads.procSteps ⟨⟨⟨true, [1]⟩, false, .cycle⟩, .init⟩
        [.handler (.deliver 0 SIGINT), .handler (.handlerStep 0), .handler (.handlerStep 0)]
      ).handlers.recordedBy (.handlerStep 0) ≠ [] ∧
    let p := execThreads.procStep (execThreads.procSteps ⟨⟨⟨true, [1]⟩, false, .cycle⟩, .init⟩
        [.handler (.deliver 0 SIGINT), .handler (.handlerStep 0), .handler (.handlerStep 0)])
      (.handler (.handlerStep 0))
    World.cyclesIn p.world (execThreads.worldStepsIn p.handlers
        [.thread .spinStep, .thread .spinStep]) ≤ World.cycleAhead p.world.pc ∧
      ((.thread .spinCall : ProcStep ExecThreadStep) ∉ [.thread .spinStep, .thread .spinStep] →
        2 ≤ ([.thread .spinStep, .thread .spinStep] : List (ProcStep ExecThreadStep)).count
          (.thread .spinStep) →
        (execThreads.procSteps p [.thread .spinStep, .thread .spinStep]).world.pc = .idle) :=
  ⟨by decide, handler_assignment_stops_spin _ _ _ (by decide) _⟩

/-- `spin()` is polling: `running_` set, no stop recorded, the spinning thread in its loop. -/
def World.Looping (w : World) : Prop :=
  w.exec.running = true ∧ w.globalStopFlag = false ∧ (w.pc = .test ∨ w.pc = .cycle)

/-- Every thread step but `stop()` keeps `spin()` polling; a polling cycle starts on the
    spinning thread's step from the cycle position, so two of its steps make one cycle. -/
theorem World.looping_step {w : World} (h : w.Looping) {s : ExecThreadStep}
    (hs : s ≠ .call .stop) :
    (w.step s.toStep).1.Looping ∧
      2 * (if s.toStep = .spinStep ∧ w.pc = .cycle then 1 else 0) +
          World.cycleAhead (w.step s.toStep).1.pc =
        (if s = .spinStep then 1 else 0) + World.cycleAhead w.pc := by
  obtain ⟨hr, hg, hpc⟩ := h
  cases s with
  | spinCall =>
    rcases hpc with hpc | hpc <;>
      simp [World.step, ExecThreadStep.toStep, World.Looping, hr, hg, hpc]
  | spinStep =>
    rcases hpc with hpc | hpc <;>
      simp [World.step, ExecThreadStep.toStep, World.Looping, World.cycleAhead, hr, hg, hpc]
  | call c =>
    cases c with
    | stop => exact absurd rfl hs
    | _ => simp [World.step, ExecThreadStep.toStep, ExecutorCall.toStep, World.Looping, hr, hg, hpc]

/-- Along every run of thread steps without `stop()`, `spin()` keeps polling, and twice the
    cycles started, with the one ahead, count the spinning thread's steps. -/
theorem World.looping_steps {w : World} (h : w.Looping) {σ : List ExecThreadStep}
    (hσ : .call .stop ∉ σ) :
    (World.steps w (σ.map ExecThreadStep.toStep)).Looping ∧
      2 * World.cyclesIn w (σ.map ExecThreadStep.toStep) +
          World.cycleAhead (World.steps w (σ.map ExecThreadStep.toStep)).pc =
        σ.count .spinStep + World.cycleAhead w.pc := by
  induction σ generalizing w with
  | nil => exact ⟨h, by simp [World.cyclesIn]⟩
  | cons s σ ih =>
    obtain ⟨h', hc⟩ := World.looping_step h fun e => hσ (e ▸ List.mem_cons_self _ _)
    obtain ⟨hfin, hcyc⟩ := ih h' fun e => hσ (List.mem_cons_of_mem _ e)
    refine ⟨hfin, ?_⟩
    rw [List.map_cons, World.cyclesIn, World.steps_cons, List.count_cons]
    simp only [beq_iff_eq] at hc ⊢
    omega

theorem World.cycleAhead_le_one (pc : SpinPc) : World.cycleAhead pc ≤ 1 := by
  unfold World.cycleAhead; split <;> omega

/-- **Nested signals keep `spin()` polling.** Take an executor polling with no stop
    recorded, and deliver SIGTERM to thread `0`, whose handler takes `global_mutex`, then
    SIGINT to the same thread before that handler records the stop (`nestedDelivery`).
    Along every continuation without `stop()`, whatever signals reach whichever threads,
    `global_stop_flag` stays clear, `spin()` never returns, and the spinning thread runs
    one polling cycle for every two of its steps. -/
theorem nested_signals_never_stop_spin (w : World) (hw : w.exec.running = true)
    (hpc : w.pc = .test) (hg : w.globalStopFlag = false)
    (ρ : List (ProcStep ExecThreadStep)) (hρ : .thread (.call .stop) ∉ ρ) :
    let p := execThreads.procSteps ⟨w, .init⟩ (SigWorld.nestedDelivery.map .handler)
    (execThreads.procSteps p ρ).world.globalStopFlag = false ∧
      (execThreads.procSteps p ρ).world.pc ≠ .idle ∧
      World.cyclesIn p.world (execThreads.worldStepsIn p.handlers ρ) =
        ρ.count (.thread .spinStep) / 2 := by
  intro p
  obtain ⟨hpw, hsteps⟩ := execThreads.worldStepsIn_after_nestedDelivery w ρ
  have hσ : .call .stop ∉ threadStepsOf ρ := by
    rwa [← List.count_eq_zero, count_threadStepsOf, List.count_eq_zero]
  obtain ⟨⟨-, hfl, hloop⟩, hcyc⟩ := World.looping_steps ⟨hw, hg, .inl hpc⟩ hσ
  have hle :=
    World.cycleAhead_le_one (World.steps w ((threadStepsOf ρ).map ExecThreadStep.toStep)).pc
  rw [execThreads_procSteps_world, hsteps, hpw, execThreads_thread]
  refine ⟨hfl, by rcases hloop with h | h <;> simp [h], ?_⟩
  rw [count_threadStepsOf, hpc, show World.cycleAhead .test = 0 from rfl] at hcyc
  omega

/-- The theorem with SIGTERM then reaching thread `1`, whose handler waits at its lock for
    good, while the spinning thread runs one more polling cycle. -/
theorem nested_signals_never_stop_spin_then_sigterm :
    let p := execThreads.procSteps ⟨⟨⟨true, [1]⟩, false, .test⟩, .init⟩
      (SigWorld.nestedDelivery.map .handler)
    (execThreads.procSteps p [.thread .spinStep, .handler (.deliver 1 SIGTERM),
        .handler (.handlerStep 1), .handler (.handlerStep 1),
        .thread .spinStep]).world.globalStopFlag = false ∧
      (execThreads.procSteps p [.thread .spinStep, .handler (.deliver 1 SIGTERM),
        .handler (.handlerStep 1), .handler (.handlerStep 1), .thread .spinStep]).world.pc ≠ .idle ∧
      World.cyclesIn p.world (execThreads.worldStepsIn p.handlers [.thread .spinStep,
          .handler (.deliver 1 SIGTERM), .handler (.handlerStep 1), .handler (.handlerStep 1),
          .thread .spinStep]) =
        [(.thread .spinStep : ProcStep ExecThreadStep), .handler (.deliver 1 SIGTERM),
          .handler (.handlerStep 1), .handler (.handlerStep 1), .thread .spinStep].count
          (.thread .spinStep) / 2 :=
  nested_signals_never_stop_spin _ rfl rfl rfl _ (by decide)

/-! ## §6. `RCLWNode`'s threads. -/

/-- A step of a thread of the node world: the supervisor's `spin()` call and statements,
    the started thread's, the return of the node's own `spin()`, and another thread's
    `stop()`. -/
inductive NodeThreadStep
  | spinCall
  | supervisorStep
  | spinThreadStep
  | nodeSpinReturns
  | stop
  deriving Repr, DecidableEq

/-- The world step a thread's step is. -/
def NodeThreadStep.toStep : NodeThreadStep → NodeStep
  | .spinCall => .spinCall
  | .supervisorStep => .supervisorStep
  | .spinThreadStep => .spinThreadStep
  | .nodeSpinReturns => .nodeSpinReturns
  | .stop => .stop

/-- The node world, as the threads of the process. -/
def nodeThreads : Threads NodeWorld NodeThreadStep NodeStep where
  step := NodeWorld.step
  thread := NodeThreadStep.toStep
  signal := .signal
  globalStopFlag := NodeWorld.globalStopFlag
  thread_injective := by
    rintro (_ | _ | _ | _ | _) (_ | _ | _ | _ | _) h <;> first | rfl | cases h
  thread_ne_signal := by rintro (_ | _ | _ | _ | _) _ h <;> cases h
  globalStopFlag_thread := by
    rintro w (_ | _ | _ | _ | _)
    case stop => rfl
    all_goals exact (NodeWorld.step_flags_of_thread (by decide) fun _ h => by cases h).2
  globalStopFlag_signal := fun _ _ => rfl

@[simp] theorem nodeThreads_thread : nodeThreads.thread = NodeThreadStep.toStep := rfl

/-- **A stop request is never lost.** In every process reached from a node world `n` with
    no handler running, after another thread's `stop()`, or a handler statement that
    executes `global_stop_flag = true`, no loop test of `spin()` passes along any
    continuation, and a supervisor at its loop test with a non-zero handle calls
    `stop_spin(node_ptr_)` within two of its own steps. -/
theorem rclw_stop_is_never_lost (n : NodeWorld) (ρ₀ : List (ProcStep NodeThreadStep))
    (s : ProcStep NodeThreadStep)
    (hs : s = .thread .stop ∨
      ∃ h, s = .handler h ∧ (nodeThreads.procSteps ⟨n, .init⟩ ρ₀).handlers.recordedBy h ≠ [])
    (ρ : List (ProcStep NodeThreadStep)) :
    let p := nodeThreads.procStep (nodeThreads.procSteps ⟨n, .init⟩ ρ₀) s
    NodeWorld.passesIn p.world (nodeThreads.worldStepsIn p.handlers ρ) = 0 ∧
      (p.world.supervisor = .test → p.world.node.nodePtr ≠ 0 →
        2 ≤ ρ.count (.thread .supervisorStep) →
        Effect.node .stopSpin p.world.node.nodePtr ∈
          NodeWorld.effectsIn p.world (nodeThreads.worldStepsIn p.handlers ρ)) := by
  have hst : (nodeThreads.procStep (nodeThreads.procSteps ⟨n, .init⟩ ρ₀) s).world.Stopped := by
    rcases hs with rfl | ⟨h, rfl, hr⟩
    · exact (NodeWorld.stopped_step_iff _ .stop).2 (.inr (.inl rfl))
    · exact .inr (nodeThreads.globalStopFlag_procStep_handler
        (nodeThreads.screened_procSteps n ρ₀) hr)
  intro p
  replace hst : p.world.Stopped := hst
  refine ⟨NodeWorld.passesIn_of_stopped hst _, fun hsup hptr h2 => ?_⟩
  have hcount : (nodeThreads.worldStepsIn p.handlers ρ).count .supervisorStep =
      ρ.count (.thread .supervisorStep) :=
    nodeThreads.count_worldStepsIn p.handlers ρ .supervisorStep
  exact NodeWorld.stopSpin_mem_effectsIn hst hptr (by simp [hsup, NodeWorld.toStopSpin])
    (by rw [hsup, hcount]; exact h2)

/-- The theorem with SIGTERM reaching thread `0` while the supervisor of node `1` stands at
    its loop test: the handler records the stop, and two supervisor steps later the node
    receives `stop_spin`. -/
theorem rclw_stop_is_never_lost_on_sigterm :
    let p := nodeThreads.procStep
      (nodeThreads.procSteps ⟨⟨⟨1, false⟩, false, .test, .started⟩, .init⟩
        [.handler (.deliver 0 SIGTERM), .handler (.handlerStep 0), .handler (.handlerStep 0)])
      (.handler (.handlerStep 0))
    NodeWorld.passesIn p.world (nodeThreads.worldStepsIn p.handlers
        [.thread .supervisorStep, .thread .supervisorStep]) = 0 ∧
      (p.world.supervisor = .test → p.world.node.nodePtr ≠ 0 →
        2 ≤ ([.thread .supervisorStep, .thread .supervisorStep] :
          List (ProcStep NodeThreadStep)).count (.thread .supervisorStep) →
        Effect.node .stopSpin p.world.node.nodePtr ∈ NodeWorld.effectsIn p.world
          (nodeThreads.worldStepsIn p.handlers
            [.thread .supervisorStep, .thread .supervisorStep])) :=
  rclw_stop_is_never_lost _ _ _ (.inr ⟨_, rfl, by decide⟩) _

/-- `RCLWNode::spin()` is polling: the supervisor at its loop test, and neither flag set. -/
def NodeWorld.Polling (w : NodeWorld) : Prop :=
  w.supervisor = .test ∧ w.node.rclwNodeStopFlag = false ∧ w.globalStopFlag = false

/-- Every thread step but `stop()` keeps the supervisor polling; its own step is a loop
    test that passes, and no step calls `stop_spin`. -/
theorem NodeWorld.polling_step {w : NodeWorld} (h : w.Polling) {s : NodeThreadStep}
    (hs : s ≠ .stop) :
    (w.step s.toStep).1.Polling ∧
      (if s.toStep = .supervisorStep ∧ w.supervisor = .test ∧ w.loopContinues then 1 else 0) =
        (if s = .supervisorStep then 1 else 0) ∧
      ∀ q, Effect.node .stopSpin q ∉ (w.step s.toStep).2 := by
  obtain ⟨hsup, hn, hg⟩ := h
  cases s with
  | stop => exact absurd rfl hs
  | spinThreadStep =>
    simp only [NodeWorld.step, NodeThreadStep.toStep]
    split
    · simp [NodeWorld.Polling, spin, guardHandle, hsup, hn, hg]
      split <;> simp
    · simp [NodeWorld.Polling, hsup, hn, hg]
  | nodeSpinReturns =>
    simp only [NodeWorld.step, NodeThreadStep.toStep]
    split <;> simp [NodeWorld.Polling, hsup, hn, hg]
  | _ =>
    simp [NodeWorld.step, NodeThreadStep.toStep, NodeWorld.Polling, NodeWorld.loopContinues,
      hsup, hn, hg]

/-- Along every run of thread steps without `stop()`, the supervisor keeps polling, every
    one of its steps is a loop test that passes, and nobody calls `stop_spin`. -/
theorem NodeWorld.polling_steps {w : NodeWorld} (h : w.Polling) {σ : List NodeThreadStep}
    (hσ : .stop ∉ σ) :
    (NodeWorld.steps w (σ.map NodeThreadStep.toStep)).Polling ∧
      NodeWorld.passesIn w (σ.map NodeThreadStep.toStep) = σ.count .supervisorStep ∧
      ∀ q, Effect.node .stopSpin q ∉ NodeWorld.effectsIn w (σ.map NodeThreadStep.toStep) := by
  induction σ generalizing w with
  | nil => exact ⟨h, rfl, by simp [NodeWorld.effectsIn]⟩
  | cons s σ ih =>
    obtain ⟨h', hp, he⟩ := NodeWorld.polling_step h fun e => hσ (e ▸ List.mem_cons_self _ _)
    obtain ⟨hfin, hpass, heff⟩ := ih h' fun e => hσ (List.mem_cons_of_mem _ e)
    refine ⟨hfin, ?_, fun q => ?_⟩
    · rw [List.map_cons, NodeWorld.passesIn, hp, hpass, List.count_cons]
      simp only [beq_iff_eq]
      omega
    · rw [List.map_cons, NodeWorld.effectsIn, List.mem_append, not_or]
      exact ⟨he q, heff q⟩

/-- **Nested signals keep `RCLWNode::spin()` polling.** Take a supervisor at its loop test
    with neither flag set, and deliver SIGTERM to thread `0`, whose handler takes
    `global_mutex`, then SIGINT to the same thread before that handler records the stop
    (`nestedDelivery`).  Along every continuation without `stop()`, whatever signals reach
    whichever threads, the supervisor stays in its loop, every one of its steps is a loop
    test that passes, and the node never receives `stop_spin`. -/
theorem nested_signals_never_stop_rclw_spin (n : NodeWorld) (hsup : n.supervisor = .test)
    (hstop : n.node.rclwNodeStopFlag = false) (hg : n.globalStopFlag = false)
    (ρ : List (ProcStep NodeThreadStep)) (hρ : .thread .stop ∉ ρ) :
    let p := nodeThreads.procSteps ⟨n, .init⟩ (SigWorld.nestedDelivery.map .handler)
    (nodeThreads.procSteps p ρ).world.supervisor = .test ∧
      NodeWorld.passesIn p.world (nodeThreads.worldStepsIn p.handlers ρ) =
        ρ.count (.thread .supervisorStep) ∧
      ∀ q, Effect.node .stopSpin q ∉
        NodeWorld.effectsIn p.world (nodeThreads.worldStepsIn p.handlers ρ) := by
  intro p
  obtain ⟨hpw, hsteps⟩ := nodeThreads.worldStepsIn_after_nestedDelivery n ρ
  have hσ : .stop ∉ threadStepsOf ρ := by
    rwa [← List.count_eq_zero, count_threadStepsOf, List.count_eq_zero]
  obtain ⟨⟨hfin, -, -⟩, hpass, heff⟩ := NodeWorld.polling_steps ⟨hsup, hstop, hg⟩ hσ
  rw [count_threadStepsOf] at hpass
  have hworld : (nodeThreads.procSteps p ρ).world =
      NodeWorld.steps p.world (nodeThreads.worldStepsIn p.handlers ρ) := by
    rw [Threads.procSteps_eq]; rfl
  rw [hworld, hsteps, hpw, nodeThreads_thread]
  exact ⟨hfin, hpass, heff⟩

/-- The theorem with SIGINT then reaching thread `1`, whose handler waits at its lock for
    good, while the node's own `spin()` returns and the supervisor polls on. -/
theorem nested_signals_never_stop_rclw_spin_then_sigint :
    let p := nodeThreads.procSteps ⟨⟨⟨1, false⟩, false, .test, .nodeSpinning⟩, .init⟩
      (SigWorld.nestedDelivery.map .handler)
    (nodeThreads.procSteps p [.thread .supervisorStep, .handler (.deliver 1 SIGINT),
        .handler (.handlerStep 1), .handler (.handlerStep 1), .thread .nodeSpinReturns,
        .thread .supervisorStep]).world.supervisor = .test ∧
      NodeWorld.passesIn p.world (nodeThreads.worldStepsIn p.handlers
          [.thread .supervisorStep, .handler (.deliver 1 SIGINT), .handler (.handlerStep 1),
            .handler (.handlerStep 1), .thread .nodeSpinReturns, .thread .supervisorStep]) =
        [(.thread .supervisorStep : ProcStep NodeThreadStep), .handler (.deliver 1 SIGINT),
          .handler (.handlerStep 1), .handler (.handlerStep 1), .thread .nodeSpinReturns,
          .thread .supervisorStep].count (.thread .supervisorStep) ∧
      ∀ q, Effect.node .stopSpin q ∉ NodeWorld.effectsIn p.world (nodeThreads.worldStepsIn
        p.handlers [.thread .supervisorStep, .handler (.deliver 1 SIGINT),
          .handler (.handlerStep 1), .handler (.handlerStep 1), .thread .nodeSpinReturns,
          .thread .supervisorStep]) :=
  nested_signals_never_stop_rclw_spin _ rfl rfl rfl _ (by decide)

end RclLikeWrapper
