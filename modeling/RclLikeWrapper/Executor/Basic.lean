/-
  RclLikeWrapper.Executor.Basic
  ─────────────────────────────
  **THE EXECUTOR'S NODE LIST: `add_node`, `remove_node`, `stop`, one polling cycle.**

  `Executor` keeps `running_` and `nodes_` (a `std::vector<intptr_t>` of node handles).
  Each method below is the body its `std::lock_guard<std::mutex>` protects, so between
  the mutex-protected sections these functions are atomic; where the lock itself matters
  (who holds it while user callbacks run) see `Executor/Lock.lean`.

  `stop` and the polling cycle of `spin` walk `nodes_` with the same loop: a zero handle is
  reported, any other is passed on (to `stop_spin`, resp. `spin_some`).  That loop is
  `forEachNode`.

  Main results:
    * `NoZero` (no zero handle in `nodes_`) holds initially and is kept by `add_node` and
      `remove_node`;
    * under it, a polling cycle calls `spin_some` on exactly `nodes_`, in order, and an
      effective `stop` calls `stop_spin` on exactly `nodes_` (`pollingCycle_of_noZero`,
      `stop_of_noZero`).
-/
import RclLikeWrapper.Handle

namespace RclLikeWrapper

/-! ## §1. State and methods. -/

/-- The fields of `Executor` its methods read and write. -/
structure Executor where
  /-- `running_`. -/
  running : Bool
  /-- `nodes_`, the registered node handles in registration order. -/
  nodes : List Int
  deriving Repr, DecidableEq

namespace Executor

/-- `Executor::Executor()`'s initialisers: not running, no nodes. -/
def init : Executor := ⟨false, []⟩

/-- `Executor::Executor()`: the initialisers, then `register_signal_handler()`, whose
    failure the constructor lets through. -/
def create (installed : Bool) : Except String Executor :=
  (registerSignalHandler installed).map fun _ => init

/-- The loop `stop` and `spin` share: `for (auto node_ptr : nodes_)`, reporting a zero
    handle and passing any other to `f`. -/
def forEachNode (f : Int → List Effect) (nodes : List Int) : List Effect :=
  nodes.flatMap fun p => if p = 0 then [.err "node pointer is invalid!"] else f p

/-- `Executor::add_node(node_ptr)`. -/
def addNode (e : Executor) (p : Int) : Executor × List Effect :=
  if p ≠ 0 then ({ e with nodes := e.nodes ++ [p] }, [])
  else (e, [.err "Error: Node pointer is null, cannot add to executor."])

/-- `Executor::remove_node(node_ptr)`: the erase-remove idiom; `std::remove` keeps the
    other handles in their order and `erase` drops the tail it leaves. -/
def removeNode (e : Executor) (p : Int) : Executor :=
  { e with nodes := e.nodes.filter (· ≠ p) }

/-- `Executor::stop()`: when running, clear `running_` and call `stop_spin` on every node;
    otherwise nothing. -/
def stop (e : Executor) : Executor × List Effect :=
  if e.running then ({ e with running := false }, forEachNode stopSpin e.nodes) else (e, [])

/-- One polling cycle of `Executor::spin()`: the block under `mutex_` that calls
    `spin_some` on every node. -/
def pollingCycle (e : Executor) : List Effect :=
  forEachNode spinSome e.nodes

@[simp] theorem addNode_nodes (e : Executor) (p : Int) :
    (e.addNode p).1.nodes = if p ≠ 0 then e.nodes ++ [p] else e.nodes := by
  unfold addNode; split <;> rfl

@[simp] theorem addNode_running (e : Executor) (p : Int) :
    (e.addNode p).1.running = e.running := by
  unfold addNode; split <;> rfl

@[simp] theorem removeNode_nodes (e : Executor) (p : Int) :
    (e.removeNode p).nodes = e.nodes.filter (· ≠ p) := rfl

@[simp] theorem removeNode_running (e : Executor) (p : Int) :
    (e.removeNode p).running = e.running := rfl

@[simp] theorem stop_nodes (e : Executor) : e.stop.1.nodes = e.nodes := by
  unfold stop; split <;> rfl

@[simp] theorem stop_running (e : Executor) : e.stop.1.running = false := by
  unfold stop; split <;> simp_all

/-! ## §2. No zero handle is ever registered. -/

/-- `nodes_` holds no zero handle. -/
def NoZero (e : Executor) : Prop := ∀ p ∈ e.nodes, p ≠ 0

theorem noZero_init : NoZero init := by simp [NoZero, init]

theorem NoZero.addNode {e : Executor} (h : NoZero e) (p : Int) : NoZero (e.addNode p).1 := by
  intro q hq
  by_cases hp : p = 0
  · simp [hp] at hq; exact h q hq
  · simp only [addNode_nodes, ne_eq, hp, not_false_eq_true, if_true, List.mem_append,
      List.mem_singleton] at hq
    rcases hq with hq | rfl
    · exact h q hq
    · exact hp

theorem NoZero.removeNode {e : Executor} (h : NoZero e) (p : Int) : NoZero (e.removeNode p) :=
  fun q hq => h q (List.mem_of_mem_filter hq)

theorem NoZero.stop {e : Executor} (h : NoZero e) : NoZero e.stop.1 := by
  intro q hq; rw [stop_nodes] at hq; exact h q hq

/-- Over a list without zero handles, the shared loop with a function that forwards
    method `m` on its handle forwards `m` on every node, in order. -/
theorem forEachNode_of_forward (m : NodeMethod) {f : Int → List Effect}
    (hf : ∀ p, p ≠ 0 → f p = [.node m p]) :
    ∀ {nodes : List Int}, (∀ p ∈ nodes, p ≠ 0) → forEachNode f nodes = nodes.map (.node m)
  | [], _ => rfl
  | p :: ps, h => by
    have hp : p ≠ 0 := h p (List.mem_cons_self p ps)
    have ih := forEachNode_of_forward m hf fun q hq => h q (List.mem_cons_of_mem p hq)
    simp only [forEachNode, List.flatMap_cons, List.map_cons] at ih ⊢
    rw [if_neg hp, hf p hp, ih]; rfl

/-- Under `NoZero`, a polling cycle calls `spin_some` on exactly `nodes_`, in order, and
    reports nothing. -/
theorem pollingCycle_of_noZero {e : Executor} (h : NoZero e) :
    e.pollingCycle = e.nodes.map (Effect.node .spinSome) :=
  forEachNode_of_forward .spinSome (fun _ hp => by simp [spinSome, hp]) h

/-- Under `NoZero`, an effective `stop` calls `stop_spin` on exactly `nodes_`, in order. -/
theorem stop_of_noZero {e : Executor} (h : NoZero e) :
    e.stop.2 = if e.running then e.nodes.map (Effect.node .stopSpin) else [] := by
  unfold stop
  split
  · exact forEachNode_of_forward .stopSpin (fun _ hp => by simp [stopSpin, hp]) h
  · rfl

end Executor

end RclLikeWrapper
