/-
  RclLikeWrapper.Handle
  ─────────────────────
  **THE HANDLE BOUNDARY of `rcl_like_wrapper.cpp`.**

  Every object the wrapper hands out crosses the API as an `intptr_t` (a raw pointer cast
  to an integer, `0` for "absent").  The free functions `spin`, `spin_once`, `spin_some`,
  `stop_spin`, `publish`, `get_subscriber_count`, `get_publisher_count` and `create_timer`
  all open with the same guard: a zero handle is reported on `std::cerr` and the function
  returns its sentinel without touching any object.  They are one definition here,
  `guardHandle`, and each member is that guard applied to its own kind, sentinel and
  forwarded call.  `destroy_node` is the member without the guard.

  What the wrapper does is recorded as a list of `Effect`s: the calls it forwards to the
  object behind a handle (whose classes, `node.hpp` and friends, are not part of the
  sources) and the lines it writes to `std::cerr`.

  Main results:
    * `guardHandle_never_forwards_zero` — no guarded function forwards a call on the
      zero handle, whatever the handle;
    * `destroyNode_forwards_zero` — `destroy_node` does, the one member without the guard;
    * `rclwNodeDestroy_never_forwards_zero` — `RCLWNode`'s destructor guards it itself.
-/
import Mathlib.Data.List.Basic

namespace RclLikeWrapper

/-! ## §1. Effects. -/

/-- The `Node` methods the free functions forward to. -/
inductive NodeMethod
  | spin
  | spinOnce
  | spinSome
  | stopSpin
  | destroy
  | createTimer
  deriving Repr, DecidableEq

/-- One observable effect of the wrapper. -/
inductive Effect
  /-- `reinterpret_cast<Node *>(ptr)->m(...)`. -/
  | node (m : NodeMethod) (ptr : Int)
  /-- `reinterpret_cast<Publisher *>(ptr)->publish(message)`. -/
  | publish (ptr : Int)
  /-- `reinterpret_cast<Publisher *>(ptr)->get_subscriber_count()`. -/
  | getSubscriberCount (ptr : Int)
  /-- `reinterpret_cast<Subscriber *>(ptr)->get_publisher_count()`. -/
  | getPublisherCount (ptr : Int)
  /-- One line written to `std::cerr`. -/
  | err (msg : String)
  deriving Repr, DecidableEq

/-- The handle an effect dereferences, if it forwards a call. -/
def Effect.target : Effect → Option Int
  | .node _ ptr | .publish ptr | .getSubscriberCount ptr | .getPublisherCount ptr => some ptr
  | .err _ => none

/-- The effect list dereferences the zero handle: it forwards a call on `0`. -/
def ForwardsZero (effs : List Effect) : Prop := ∃ e ∈ effs, e.target = some 0

/-! ## §2. The zero-handle guard and its members. -/

/-- The guard the handle functions open with: a zero handle of the given kind is reported
    and the function returns `dflt`; any other handle goes on to `body`. -/
def guardHandle {β : Type} (kind : String) (ptr : Int) (dflt : β)
    (body : β × List Effect) : β × List Effect :=
  if ptr = 0 then (dflt, [.err (kind ++ " pointer is invalid!")]) else body

@[simp] theorem guardHandle_zero {β : Type} (kind : String) (dflt : β)
    (body : β × List Effect) :
    guardHandle kind 0 dflt body = (dflt, [.err (kind ++ " pointer is invalid!")]) := rfl

@[simp] theorem guardHandle_of_ne {β : Type} {ptr : Int} (h : ptr ≠ 0) (kind : String)
    (dflt : β) (body : β × List Effect) : guardHandle kind ptr dflt body = body := by
  simp [guardHandle, h]

/-- `spin(node_ptr)`. -/
def spin (ptr : Int) : List Effect :=
  (guardHandle "node" ptr () ((), [.node .spin ptr])).2

/-- `spin_once(node_ptr)`. -/
def spinOnce (ptr : Int) : List Effect :=
  (guardHandle "node" ptr () ((), [.node .spinOnce ptr])).2

/-- `spin_some(node_ptr)`. -/
def spinSome (ptr : Int) : List Effect :=
  (guardHandle "node" ptr () ((), [.node .spinSome ptr])).2

/-- `stop_spin(node_ptr)`. -/
def stopSpin (ptr : Int) : List Effect :=
  (guardHandle "node" ptr () ((), [.node .stopSpin ptr])).2

/-- `publish(publisher_ptr, message)`. -/
def publish (ptr : Int) : List Effect :=
  (guardHandle "publisher" ptr () ((), [.publish ptr])).2

/-- `get_subscriber_count(publisher_ptr)`; `count` is what the publisher behind a handle
    reports. -/
def getSubscriberCount (count : Int → Int) (ptr : Int) : Int × List Effect :=
  guardHandle "publisher" ptr 0 (count ptr, [.getSubscriberCount ptr])

/-- `get_publisher_count(subscriber_ptr)`; `count` is what the subscriber behind a handle
    reports. -/
def getPublisherCount (count : Int → Int) (ptr : Int) : Int × List Effect :=
  guardHandle "subscriber" ptr 0 (count ptr, [.getPublisherCount ptr])

/-- `create_timer(node_ptr, period, callback)`; `newTimer` is `Node::create_timer` on the
    node behind a handle, `0` when it fails. -/
def createTimer (newTimer : Int → Int) (ptr : Int) : Int × List Effect :=
  guardHandle "node" ptr 0 (if newTimer ptr = 0 then 0 else newTimer ptr, [.node .createTimer ptr])

/-- `destroy_node(node_ptr)`: casts and calls `destroy()` with no check of the handle. -/
def destroyNode (ptr : Int) : List Effect :=
  [.node .destroy ptr]

/-- `RCLWNode::~RCLWNode()` on the handle it holds: destroys the node only when the
    handle is non-zero, and leaves the handle `0`. -/
def rclwNodeDestroy (nodePtr : Int) : Int × List Effect :=
  if nodePtr ≠ 0 then (0, destroyNode nodePtr) else (nodePtr, [])

/-! ## §3. No guarded function dereferences the zero handle. -/

/-- A guarded body that only forwards on its own handle never forwards on `0`. -/
theorem guardHandle_not_forwardsZero {β : Type} (kind : String) (ptr : Int) (dflt : β)
    (body : β × List Effect) (hbody : ptr ≠ 0 → ¬ ForwardsZero body.2) :
    ¬ ForwardsZero (guardHandle kind ptr dflt body).2 := by
  by_cases h : ptr = 0
  · subst h; simp [ForwardsZero, Effect.target]
  · simpa [h] using hbody h

/-- **No guarded handle function forwards a call on the zero handle**, for every handle:
    `spin`, `spin_once`, `spin_some`, `stop_spin`, `publish`, `get_subscriber_count`,
    `get_publisher_count` and `create_timer`. -/
theorem guardHandle_never_forwards_zero (ptr : Int) (count newTimer : Int → Int) :
    ¬ ForwardsZero (spin ptr) ∧ ¬ ForwardsZero (spinOnce ptr) ∧
    ¬ ForwardsZero (spinSome ptr) ∧ ¬ ForwardsZero (stopSpin ptr) ∧
    ¬ ForwardsZero (publish ptr) ∧ ¬ ForwardsZero (getSubscriberCount count ptr).2 ∧
    ¬ ForwardsZero (getPublisherCount count ptr).2 ∧
    ¬ ForwardsZero (createTimer newTimer ptr).2 := by
  refine ⟨?_, ?_, ?_, ?_, ?_, ?_, ?_, ?_⟩ <;>
    refine guardHandle_not_forwardsZero _ _ _ _ fun h => ?_ <;>
    simp [ForwardsZero, Effect.target, h]

/-- `destroy_node` is the member without the guard: it forwards `destroy()` on the zero
    handle. -/
theorem destroyNode_forwards_zero : ForwardsZero (destroyNode 0) :=
  ⟨.node .destroy 0, List.mem_singleton_self _, rfl⟩

/-- `RCLWNode`'s destructor makes up for it: whatever handle it holds, it never forwards a
    call on `0`, and afterwards it holds `0`. -/
theorem rclwNodeDestroy_never_forwards_zero (nodePtr : Int) :
    ¬ ForwardsZero (rclwNodeDestroy nodePtr).2 ∧ (rclwNodeDestroy nodePtr).1 = 0 := by
  by_cases h : nodePtr = 0
  · simp [rclwNodeDestroy, h, ForwardsZero]
  · simp [rclwNodeDestroy, destroyNode, h, ForwardsZero, Effect.target]

/-! ## §4. The process-wide stop flag. -/

/-- `SIGINT`'s number on the POSIX systems the wrapper builds for. -/
def SIGINT : Int := 2

/-- `SIGTERM`'s number on the POSIX systems the wrapper builds for. -/
def SIGTERM : Int := 15

/-- `signal_handler(signal)` on `global_stop_flag`: `SIGINT` and `SIGTERM` set it, any
    other signal leaves it as it is; nothing ever clears it. -/
def signalHandler (globalStopFlag : Bool) (sig : Int) : Bool :=
  if sig = SIGINT ∨ sig = SIGTERM then true else globalStopFlag

/-- `register_signal_handler()`, which both `RCLWNode` and `Executor` constructors call;
    `installed` says whether both `std::signal` calls succeeded. -/
def registerSignalHandler (installed : Bool) : Except String Unit :=
  if installed then .ok () else .error "Failed to set signal handler."

/-- The flag is monotone: once set, no signal clears it. -/
theorem signalHandler_mono (sig : Int) : signalHandler true sig = true := by
  simp [signalHandler]

end RclLikeWrapper
