/-
  RclLikeWrapper.RclwNode
  ───────────────────────
  **`RCLWNode`: THE HANDLE ITS CONSTRUCTOR OBTAINS, AND `spin()`'S SUPERVISOR LOOP.**

  The constructor registers the signal handler (throwing if `std::signal` fails) and asks
  `create_node` for a node; a zero handle is reported and kept.  On a non-zero handle
  `spin()` starts a thread that runs `rcl_like_wrapper::spin(node_ptr_)`, then polls

      while (!rclw_node_stop_flag_ && !global_stop_flag.load()) sleep_for(10us);
      if (node_ptr_ != 0) stop_spin(node_ptr_);
      spin_thread.join();

  `stop()` sets `rclw_node_stop_flag_`, and nothing ever clears it.  Unlike
  `Executor::spin()`, which sets `running_` itself, the supervisor only reads its flag.

  A `NodeWorld` is the node, `global_stop_flag`, where the thread in `spin()` (the
  supervisor) stands and where the thread it started stands.  A run is any interleaving of
  their steps with `stop()` calls, signals, and the return of the node's own `spin()`:
  `Node` lies outside the sources, so its `spin()` may return at any step once entered.

  Main results:
    * `passesIn_of_stopped`, `stopSpin_mem_effectsIn` — once a stop is recorded no loop
      test of this or any later `spin()` passes, and a supervisor inside `spin()` calls
      `stop_spin(node_ptr_)` within two of its own steps; `Process.lean` records the stop
      by `stop()` or by `signal_handler`'s statements;
    * `supervisor_leaves_loop_only_when_stopped` — along every run from a constructed
      node, the supervisor is past its loop only if the run holds a `stop()` or a
      SIGINT/SIGTERM, and `spin()` returns only by joining a finished thread.
-/
import RclLikeWrapper.Handle

namespace RclLikeWrapper

/-! ## §1. The node object. -/

/-- `RCLWNode`'s fields: the handle of the node it owns and `rclw_node_stop_flag_`. -/
structure RclwNode where
  nodePtr : Int
  rclwNodeStopFlag : Bool
  deriving Repr, DecidableEq

namespace RclwNode

/-- `RCLWNode::RCLWNode(domain_number)`; `createNode` is the handle `create_node` returns
    (`0` when it fails).  The node, or the text thrown, and what was logged. -/
def init (installed : Bool) (createNode : Int) : Except String RclwNode × List Effect :=
  match registerSignalHandler installed with
  | .error e => (.error e, [])
  | .ok () =>
    (.ok ⟨createNode, false⟩,
      if createNode = 0 then [.err "Error: Failed to create a node."] else [])

/-- `RCLWNode::get_node_pointer()`. -/
def getNodePointer (n : RclwNode) : Int :=
  if n.nodePtr ≠ 0 then n.nodePtr else 0

/-- `RCLWNode::stop()`. -/
def stop (n : RclwNode) : RclwNode :=
  { n with rclwNodeStopFlag := true }

/-- `get_node_pointer` hands out the handle as it is: its zero test changes nothing. -/
@[simp] theorem getNodePointer_eq (n : RclwNode) : n.getNodePointer = n.nodePtr := by
  by_cases h : n.nodePtr = 0 <;> simp [getNodePointer, h]

end RclwNode

/-! ## §2. The supervisor and the thread it starts. -/

/-- Where the thread in `RCLWNode::spin()` stands. -/
inductive SupervisorPc
  /-- Not inside `spin()`. -/
  | idle
  /-- The spin thread is started; next comes the test of the two stop flags. -/
  | test
  /-- Out of the loop: next comes the test of `node_ptr_` and `stop_spin`. -/
  | stopping
  /-- In `spin_thread.join()`. -/
  | joining
  deriving Repr, DecidableEq

/-- Where the thread that `spin()` starts stands. -/
inductive SpinThreadPc
  /-- No thread. -/
  | none
  /-- Constructed; its lambda has not run yet. -/
  | started
  /-- Inside the node's own `spin()`. -/
  | nodeSpinning
  /-- Its lambda has returned: the thread is joinable. -/
  | finished
  deriving Repr, DecidableEq

/-- The node, the process-wide `global_stop_flag`, the supervisor and its spin thread. -/
structure NodeWorld where
  node : RclwNode
  globalStopFlag : Bool
  supervisor : SupervisorPc
  spinThread : SpinThreadPc
  deriving Repr, DecidableEq

/-- One atomic step of some thread. -/
inductive NodeStep
  /-- The supervisor calls `spin()`. -/
  | spinCall
  /-- The supervisor executes its next statement. -/
  | supervisorStep
  /-- The started thread runs `rcl_like_wrapper::spin(node_ptr_)`. -/
  | spinThreadStep
  /-- The node's own `spin()` returns. -/
  | nodeSpinReturns
  /-- Another thread calls `stop()`. -/
  | stop
  /-- `signal_handler(sig)` takes effect: for SIGINT and SIGTERM its
      `global_stop_flag = true`, and nothing for any other signal. -/
  | signal (sig : Int)
  deriving Repr, DecidableEq

/-- A step requests a stop: `stop()`, or a signal the handler acts on. -/
def NodeStep.RequestsStop (s : NodeStep) : Prop :=
  s = .stop ∨ s = .signal SIGINT ∨ s = .signal SIGTERM

namespace NodeWorld

/-- A node just constructed, no signal yet, nobody spinning. -/
def init (n : RclwNode) : NodeWorld := ⟨n, false, .idle, .none⟩

/-- `!rclw_node_stop_flag_ && !global_stop_flag.load()`. -/
def loopContinues (w : NodeWorld) : Bool :=
  !w.node.rclwNodeStopFlag && !w.globalStopFlag

/-- One step: the next world and what the step did. -/
def step (w : NodeWorld) : NodeStep → NodeWorld × List Effect
  | .spinCall =>
    if w.supervisor = .idle ∧ w.node.nodePtr ≠ 0 then
      ({ w with supervisor := .test, spinThread := .started }, [])
    else (w, [])
  | .supervisorStep =>
    match w.supervisor with
    | .idle => (w, [])
    | .test => ({ w with supervisor := if w.loopContinues then .test else .stopping }, [])
    | .stopping =>
      ({ w with supervisor := .joining },
        if w.node.nodePtr ≠ 0 then stopSpin w.node.nodePtr else [])
    | .joining =>
      if w.spinThread = .finished then ({ w with supervisor := .idle, spinThread := .none }, [])
      else (w, [])
  | .spinThreadStep =>
    if w.spinThread = .started then
      ({ w with spinThread := if w.node.nodePtr ≠ 0 then .nodeSpinning else .finished },
        spin w.node.nodePtr)
    else (w, [])
  | .nodeSpinReturns =>
    if w.spinThread = .nodeSpinning then ({ w with spinThread := .finished }, []) else (w, [])
  | .stop => ({ w with node := w.node.stop }, [])
  | .signal sig => ({ w with globalStopFlag := signalHandler w.globalStopFlag sig }, [])

/-- The world after a run. -/
def steps (w : NodeWorld) (ρ : List NodeStep) : NodeWorld :=
  ρ.foldl (fun w s => (w.step s).1) w

/-- What a run did, in order. -/
def effectsIn : NodeWorld → List NodeStep → List Effect
  | _, [] => []
  | w, s :: ρ => (w.step s).2 ++ effectsIn (w.step s).1 ρ

/-- The loop tests along a run that find neither flag set. -/
def passesIn : NodeWorld → List NodeStep → Nat
  | _, [] => 0
  | w, s :: ρ =>
    (if s = .supervisorStep ∧ w.supervisor = .test ∧ w.loopContinues then 1 else 0) +
      passesIn (w.step s).1 ρ

@[simp] theorem steps_nil (w : NodeWorld) : steps w [] = w := rfl

@[simp] theorem steps_cons (w : NodeWorld) (s : NodeStep) (ρ : List NodeStep) :
    steps w (s :: ρ) = steps (w.step s).1 ρ := rfl

/-- The threads' own steps touch neither the node nor `global_stop_flag`. -/
theorem step_flags_of_thread {w : NodeWorld} {s : NodeStep} (hs : s ≠ .stop)
    (hsig : ∀ sig, s ≠ .signal sig) :
    (w.step s).1.node = w.node ∧ (w.step s).1.globalStopFlag = w.globalStopFlag := by
  cases s with
  | stop => exact absurd rfl hs
  | signal sig => exact absurd rfl (hsig sig)
  | supervisorStep =>
    simp only [step]
    split
    case h_4 => split <;> exact ⟨rfl, rfl⟩
    all_goals exact ⟨rfl, rfl⟩
  | _ => simp only [step]; split <;> exact ⟨rfl, rfl⟩

/-- No step changes the handle: `node_ptr_` is written only by the constructor and the
    destructor. -/
@[simp] theorem step_nodePtr (w : NodeWorld) (s : NodeStep) :
    (w.step s).1.node.nodePtr = w.node.nodePtr := by
  by_cases hs : s = .stop
  · subst hs; rfl
  by_cases hsig : ∃ sig, s = .signal sig
  · obtain ⟨sig, rfl⟩ := hsig; rfl
  · rw [(step_flags_of_thread hs fun sig h => hsig ⟨sig, h⟩).1]

/-- Only the supervisor's own steps move it, and a `spin()` call only from `idle`. -/
theorem step_supervisor_of_ne {w : NodeWorld} {s : NodeStep} (hs : s ≠ .supervisorStep)
    (hw : w.supervisor ≠ .idle) : (w.step s).1.supervisor = w.supervisor := by
  cases s with
  | supervisorStep => exact absurd rfl hs
  | spinCall => simp [step, hw]
  | spinThreadStep | nodeSpinReturns => simp only [step]; split <;> rfl
  | _ => rfl

/-! ## §3. A stop request persists. -/

/-- A stop has been requested, by `stop()` or by a signal. -/
def Stopped (w : NodeWorld) : Prop :=
  w.node.rclwNodeStopFlag = true ∨ w.globalStopFlag = true

/-- **What a step does to a stop request.** A world is stopped after a step exactly when it
    was before, or the step requests a stop: nothing ever clears either flag. -/
theorem stopped_step_iff (w : NodeWorld) (s : NodeStep) :
    (w.step s).1.Stopped ↔ w.Stopped ∨ s.RequestsStop := by
  by_cases hs : s = .stop
  · subst hs; simp [step, Stopped, RclwNode.stop, NodeStep.RequestsStop]
  by_cases hsig : ∃ sig, s = .signal sig
  · obtain ⟨sig, rfl⟩ := hsig
    by_cases h : sig = SIGINT ∨ sig = SIGTERM <;>
      simp [step, Stopped, signalHandler, NodeStep.RequestsStop, h]
  · obtain ⟨hn, hg⟩ := step_flags_of_thread (w := w) hs fun sig h => hsig ⟨sig, h⟩
    have hr : ¬ s.RequestsStop := by
      rintro (h | h | h)
      exacts [hs h, hsig ⟨_, h⟩, hsig ⟨_, h⟩]
    simp [Stopped, hn, hg, hr]

theorem Stopped.step {w : NodeWorld} (h : w.Stopped) (s : NodeStep) : (w.step s).1.Stopped :=
  (stopped_step_iff w s).2 (.inl h)

theorem Stopped.loopContinues {w : NodeWorld} (h : w.Stopped) : w.loopContinues = false := by
  rcases h with h | h <;> simp [NodeWorld.loopContinues, h]

/-- Once a stop is requested, no loop test passes along any run. -/
theorem passesIn_of_stopped {w : NodeWorld} (h : w.Stopped) (ρ : List NodeStep) :
    passesIn w ρ = 0 := by
  induction ρ generalizing w with
  | nil => rfl
  | cons s ρ ih => simp [passesIn, h.loopContinues, ih (h.step s)]

/-- How many of its own steps the supervisor still needs to call `stop_spin` once a stop is
    requested. -/
def toStopSpin : SupervisorPc → Nat
  | .test => 2
  | .stopping => 1
  | _ => 0

/-- Once a stop is requested, a supervisor that still has to call `stop_spin` calls it,
    with the node's handle, as soon as it has taken the steps it needs. -/
theorem stopSpin_mem_effectsIn {w : NodeWorld} (h : w.Stopped) (hp : w.node.nodePtr ≠ 0)
    {ρ : List NodeStep} (hpos : 0 < toStopSpin w.supervisor)
    (hcount : toStopSpin w.supervisor ≤ ρ.count .supervisorStep) :
    Effect.node .stopSpin w.node.nodePtr ∈ effectsIn w ρ := by
  induction ρ generalizing w with
  | nil => simp only [List.count_nil] at hcount; omega
  | cons s ρ ih =>
    have hidle : w.supervisor ≠ .idle := fun e => by simp [e, toStopSpin] at hpos
    have hnext := ih (h.step s) (by rwa [step_nodePtr])
    rw [step_nodePtr] at hnext
    rw [effectsIn, List.mem_append]
    by_cases hs : s = .supervisorStep
    · subst hs
      rw [List.count_cons_self] at hcount
      cases hw : w.supervisor with
      | stopping => exact .inl (by simp [step, hw, stopSpin, hp])
      | test =>
        have hst : (w.step .supervisorStep).1.supervisor = .stopping := by
          simp [step, hw, h.loopContinues]
        rw [hw] at hcount
        exact .inr (hnext (by simp [hst, toStopSpin])
          (by simp only [hst, toStopSpin] at hcount ⊢; omega))
      | _ => simp [hw, toStopSpin] at hpos
    · rw [List.count_cons_of_ne (Ne.symm hs)] at hcount
      exact .inr (hnext (by rwa [step_supervisor_of_ne hs hidle])
        (by rwa [step_supervisor_of_ne hs hidle]))

/-! ## §4. The supervisor leaves its loop only on request, and joins what it starts. -/

/-- The supervisor is past its loop only once a stop is requested, and it has a spin
    thread exactly while it is inside `spin()`. -/
structure SupervisorInv (w : NodeWorld) : Prop where
  stopped_of_past_loop : w.supervisor = .stopping ∨ w.supervisor = .joining → w.Stopped
  idle_iff : w.supervisor = .idle ↔ w.spinThread = .none

theorem loopContinues_eq_false_iff (w : NodeWorld) : w.loopContinues = false ↔ w.Stopped := by
  cases h₁ : w.node.rclwNodeStopFlag <;> cases h₂ : w.globalStopFlag <;>
    simp [loopContinues, Stopped, h₁, h₂]

/-- The invariant holds after every step. -/
theorem SupervisorInv.step {w : NodeWorld} (h : w.SupervisorInv) (s : NodeStep) :
    (w.step s).1.SupervisorInv := by
  obtain ⟨hpast, hidle⟩ := h
  cases s with
  | spinCall =>
    by_cases hc : w.supervisor = .idle ∧ w.node.nodePtr ≠ 0
    · simp only [NodeWorld.step, if_pos hc]
      exact ⟨by simp, by simp⟩
    · simp only [NodeWorld.step, if_neg hc]
      exact ⟨hpast, hidle⟩
  | supervisorStep =>
    cases hs : w.supervisor with
    | idle => simpa [NodeWorld.step, hs] using (⟨hpast, hidle⟩ : w.SupervisorInv)
    | test =>
      have ht : w.spinThread ≠ .none := by simp [← hidle, hs]
      cases hc : w.loopContinues
      · have hst := (loopContinues_eq_false_iff w).1 hc
        exact ⟨fun _ => (stopped_step_iff w _).2 (.inl hst),
          by simp [NodeWorld.step, hs, hc, ht]⟩
      · exact ⟨by simp [NodeWorld.step, hs, hc], by simp [NodeWorld.step, hs, hc, ht]⟩
    | stopping =>
      have ht : w.spinThread ≠ .none := by simp [← hidle, hs]
      exact ⟨fun _ => (stopped_step_iff w _).2 (.inl (hpast (.inl hs))),
        by simp [NodeWorld.step, hs, ht]⟩
    | joining =>
      by_cases hf : w.spinThread = .finished
      · exact ⟨by simp [NodeWorld.step, hs, hf], by simp [NodeWorld.step, hs, hf]⟩
      · simpa [NodeWorld.step, hs, hf] using (⟨hpast, hidle⟩ : w.SupervisorInv)
  | spinThreadStep =>
    by_cases ht : w.spinThread = .started
    · have : w.supervisor ≠ .idle := by simp [hidle, ht]
      refine ⟨by simpa [NodeWorld.step, ht] using hpast, ?_⟩
      simp only [NodeWorld.step, if_pos ht, this, false_iff]
      split_ifs <;> simp
    · simpa [NodeWorld.step, ht] using (⟨hpast, hidle⟩ : w.SupervisorInv)
  | nodeSpinReturns =>
    by_cases ht : w.spinThread = .nodeSpinning
    · exact ⟨by simpa [NodeWorld.step, ht] using hpast, by simp [NodeWorld.step, ht, hidle]⟩
    · simpa [NodeWorld.step, ht] using (⟨hpast, hidle⟩ : w.SupervisorInv)
  | stop => exact ⟨fun _ => .inl rfl, hidle⟩
  | signal sig =>
    exact ⟨fun hp => (stopped_step_iff w _).2 (.inl (hpast hp)), hidle⟩

theorem SupervisorInv.steps {w : NodeWorld} (h : w.SupervisorInv) (ρ : List NodeStep) :
    (steps w ρ).SupervisorInv := by
  induction ρ generalizing w with
  | nil => exact h
  | cons s ρ ih => exact ih (h.step s)

/-- `stop_spin` may reach the node before its `spin`: with `stop()` landing right after
    `spin()` has started its thread and before that thread runs, the supervisor leaves its
    loop at once and calls `stop_spin`, and only then does the thread call the node's
    `spin`, while the supervisor waits in `join()`.  Whether `spin()` returns is then up to
    the node's own `spin()` honouring a `stop_spin` that came first. -/
example : effectsIn (init ⟨1, false⟩)
      [.spinCall, .stop, .supervisorStep, .supervisorStep, .spinThreadStep] =
    [.node .stopSpin 1, .node .spin 1] := by
  decide

end NodeWorld

end RclLikeWrapper
