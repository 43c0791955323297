/-
  RclLikeWrapper.Executor.Lock
  ────────────────────────────
  **WHO HOLDS `mutex_` WHILE `Executor::spin()` RUNS USER CALLBACKS.**

  One polling cycle of `spin()` is the block

      { std::lock_guard<std::mutex> lock(mutex_);
        for (auto node_ptr : nodes_) { if (!node_ptr) ...; else spin_some(node_ptr); } }

  and `spin_some(p)` runs the callbacks pending on the node behind `p` on the spinning
  thread itself.  A callback may call back into the executor (`add_node`, `remove_node`,
  `stop`), and each of those opens with its own `std::lock_guard` on the same non-recursive
  `std::mutex`.  Here the cycle is taken apart into the spinning thread's small steps, with
  the mutex's owner explicit, interleaved with other threads' whole calls.

  `Node::spin_some` is not part of the sources: which callbacks it runs for a handle is the
  parameter `pending`, each callback given by the executor calls it makes.

  Main results:
    * `ownerInv_cycleRun` — in every reachable state the spinning thread owns `mutex_` from
      the moment it locks until the end of the block, callbacks included;
    * `callback_runs_under_spin_mutex` — so a callback's first call on the same executor
      finds `mutex_` held by its own thread, the self-deadlock state, and other threads'
      calls wait at every position inside the block;
    * `cycle_refines_pollingCycle` — a cycle whose callbacks make no such call ends with
      the effects of the atomic `Executor.pollingCycle`, and other threads wait meanwhile;
    * `cycle_deadlocks_iff_callback_calls_back` — the spinning thread deadlocks in a cycle
      exactly when a callback of a registered handle calls back, and otherwise completes
      the cycle.
-/
import RclLikeWrapper.Executor.Basic

namespace RclLikeWrapper

/-! ## §1. The mutex and calls on the executor. -/

/-- A call a user callback makes on the executor that dispatched it. -/
inductive ExecutorCall
  | addNode (p : Int)
  | removeNode (p : Int)
  | stop
  deriving Repr, DecidableEq

/-- The body of the called method, under its own `std::lock_guard`. -/
def ExecutorCall.apply (e : Executor) : ExecutorCall → Executor × List Effect
  | .addNode p => e.addNode p
  | .removeNode p => (e.removeNode p, [])
  | .stop => e.stop

/-- What `std::lock_guard` meets when thread `t` locks a non-recursive `std::mutex`. -/
inductive LockOutcome
  /-- The mutex was free: `t` now owns it. -/
  | acquired
  /-- Another thread owns it: `t` waits. -/
  | waits
  /-- `t` owns it already: it waits for itself, forever. -/
  | selfDeadlock
  deriving Repr, DecidableEq

/-- Locking a mutex owned by `owner` from thread `t`. -/
def lockGuard (owner : Option Nat) (t : Nat) : LockOutcome :=
  match owner with
  | none => .acquired
  | some o => if o = t then .selfDeadlock else .waits

@[simp] theorem lockGuard_none (t : Nat) : lockGuard none t = .acquired := rfl

@[simp] theorem lockGuard_self (t : Nat) : lockGuard (some t) t = .selfDeadlock := by
  simp [lockGuard]

theorem lockGuard_other {t u : Nat} (h : u ≠ t) : lockGuard (some t) u = .waits := by
  simp [lockGuard, Ne.symm h]

/-! ## §2. One polling cycle, step by step. -/

/-- A pending callback, given by the calls it makes on the executor. -/
abbrev Callback := List ExecutorCall

/-- Where the spinning thread stands inside one polling cycle. -/
inductive CyclePc
  /-- Constructing the `lock_guard` on `mutex_`. -/
  | lock
  /-- In the `for` loop, with these handles still to visit. -/
  | visit (rest : List Int)
  /-- Inside `spin_some`, with these callbacks still to run. -/
  | dispatch (cbs : List Callback) (rest : List Int)
  /-- A user callback runs, with these executor calls still to make. -/
  | running (calls : Callback) (cbs : List Callback) (rest : List Int)
  /-- Leaving the block: the `lock_guard` releases `mutex_`. -/
  | unlock
  /-- The cycle is over. -/
  | done
  /-- Waiting forever on `mutex_`, which this very thread holds. -/
  | deadlocked
  deriving Repr, DecidableEq

/-- The executor, the owner of `mutex_`, the spinning thread's position and what it did. -/
structure CycleState where
  exec : Executor
  owner : Option Nat
  pc : CyclePc
  effects : List Effect
  deriving Repr, DecidableEq

/-- Who moves: the spinning thread, or thread `u` running a whole executor call. -/
inductive CycleLabel
  | spinner
  | other (u : Nat) (c : ExecutorCall)
  deriving Repr, DecidableEq

section Cycle

variable (t : Nat) (pending : Int → List Callback)

/-- The spinning thread `t`'s next step. -/
def spinnerStep (s : CycleState) : CycleState :=
  match s.pc with
  | .lock =>
    match lockGuard s.owner t with
    | .acquired => { s with owner := some t, pc := .visit s.exec.nodes }
    | .waits => s
    | .selfDeadlock => { s with pc := .deadlocked }
  | .visit [] => { s with pc := .unlock }
  | .visit (p :: rest) =>
    if p = 0 then
      { s with pc := .visit rest, effects := s.effects ++ [.err "node pointer is invalid!"] }
    else { s with pc := .dispatch (pending p) rest, effects := s.effects ++ spinSome p }
  | .dispatch [] rest => { s with pc := .visit rest }
  | .dispatch (cb :: cbs) rest => { s with pc := .running cb cbs rest }
  | .running [] cbs rest => { s with pc := .dispatch cbs rest }
  | .running (c :: cs) cbs rest =>
    match lockGuard s.owner t with
    | .acquired =>
      { s with exec := (c.apply s.exec).1, effects := s.effects ++ (c.apply s.exec).2,
               pc := .running cs cbs rest }
    | .waits => s
    | .selfDeadlock => { s with pc := .deadlocked }
  | .unlock => { s with owner := none, pc := .done }
  | .done => s
  | .deadlocked => s

/-- Thread `u ≠ t` runs a whole executor call: it goes through only when `mutex_` is free. -/
def otherStep (u : Nat) (c : ExecutorCall) (s : CycleState) : CycleState :=
  if u = t then s
  else
    match lockGuard s.owner u with
    | .acquired => { s with exec := (c.apply s.exec).1, effects := s.effects ++ (c.apply s.exec).2 }
    | _ => s

/-- One labelled step. -/
def cycleStep (s : CycleState) : CycleLabel → CycleState
  | .spinner => spinnerStep t pending s
  | .other u c => otherStep t u c s

/-- The state after an interleaving. -/
def cycleRun (s : CycleState) (ρ : List CycleLabel) : CycleState :=
  ρ.foldl (cycleStep t pending) s

/-- The cycle as it starts: nobody holds `mutex_`, nothing done yet. -/
def cycleStart (e : Executor) : CycleState := ⟨e, none, .lock, []⟩

/-! ## §3. The spinning thread owns `mutex_` for the whole block. -/

/-- Who owns `mutex_` at each position: nobody before the lock and after the release, the
    spinning thread in between, callbacks included. -/
def OwnerInv (s : CycleState) : Prop :=
  match s.pc with
  | .lock | .done => s.owner = none
  | _ => s.owner = some t

theorem ownerInv_start (e : Executor) : OwnerInv t (cycleStart e) := rfl

theorem ownerInv_spinnerStep {s : CycleState} (h : OwnerInv t s) :
    OwnerInv t (spinnerStep t pending s) := by
  obtain ⟨e, o, pc, effs⟩ := s
  unfold OwnerInv at h
  cases pc with
  | lock => simp only at h; subst h; rfl
  | visit rest =>
    cases rest with
    | nil => exact h
    | cons p rest => by_cases hp : p = 0 <;> simp [spinnerStep, OwnerInv, hp, h]
  | dispatch cbs rest => cases cbs <;> exact h
  | running calls cbs rest =>
    simp only at h; subst h
    cases calls <;> simp [spinnerStep, OwnerInv]
  | unlock => rfl
  | done => exact h
  | deadlocked => exact h

@[simp] theorem otherStep_pc (u : Nat) (c : ExecutorCall) (s : CycleState) :
    (otherStep t u c s).pc = s.pc := by
  unfold otherStep; split
  · rfl
  · split <;> rfl

@[simp] theorem otherStep_owner (u : Nat) (c : ExecutorCall) (s : CycleState) :
    (otherStep t u c s).owner = s.owner := by
  unfold otherStep; split
  · rfl
  · split <;> rfl

theorem ownerInv_otherStep {s : CycleState} (h : OwnerInv t s) (u : Nat) (c : ExecutorCall) :
    OwnerInv t (otherStep t u c s) := by
  unfold OwnerInv at h ⊢
  rwa [otherStep_pc, otherStep_owner]

/-- Running callbacks that make no executor call brings `spin_some` to its end. -/
theorem dispatch_quiet_callbacks (e : Executor) (effs : List Effect) (rest : List Int) :
    ∀ cbs : List Callback, (∀ cb ∈ cbs, cb = []) →
      ∃ n, (spinnerStep t pending)^[n] ⟨e, some t, .dispatch cbs rest, effs⟩ =
        ⟨e, some t, .visit rest, effs⟩
  | [], _ => ⟨1, rfl⟩
  | cb :: cbs, h => by
    obtain ⟨n, hn⟩ := dispatch_quiet_callbacks e effs rest cbs
      fun cb' hcb' => h cb' (List.mem_cons_of_mem cb hcb')
    obtain rfl := h cb (List.mem_cons_self cb cbs)
    exact ⟨n + 2, by rw [Function.iterate_add_apply]; exact hn⟩

/-- Some non-zero handle of the list has a pending callback that calls the executor. -/
def CallsBack (nodes : List Int) : Prop :=
  ∃ p ∈ nodes, p ≠ 0 ∧ ∃ cb ∈ pending p, cb ≠ []

/-- The `for` loop over handles none of whose callbacks calls back into the executor ends
    with the effects of `forEachNode spinSome`. -/
theorem visit_of_not_callsBack (e : Executor) :
    ∀ (rest : List Int) (effs : List Effect), ¬ CallsBack pending rest →
      ∃ n, (spinnerStep t pending)^[n] ⟨e, some t, .visit rest, effs⟩ =
        ⟨e, some t, .unlock, effs ++ Executor.forEachNode spinSome rest⟩
  | [], effs, _ => ⟨1, by simp [Executor.forEachNode]; rfl⟩
  | p :: rest, effs, hq => by
    have hrest : ¬ CallsBack pending rest := fun ⟨q, hq', h⟩ =>
      hq ⟨q, List.mem_cons_of_mem p hq', h⟩
    by_cases hp : p = 0
    · obtain ⟨n, hn⟩ := visit_of_not_callsBack e rest (effs ++ [.err "node pointer is invalid!"])
        hrest
      refine ⟨n + 1, ?_⟩
      rw [Function.iterate_add_apply]
      simp only [Function.iterate_one, spinnerStep, hp, if_true]
      simpa [Executor.forEachNode, hp] using hn
    · have hcbs : ∀ cb ∈ pending p, cb = [] := fun cb hcb => by
        by_contra hne; exact hq ⟨p, List.mem_cons_self p rest, hp, cb, hcb, hne⟩
      obtain ⟨m, hm⟩ := dispatch_quiet_callbacks t pending e (effs ++ spinSome p) rest
        (pending p) hcbs
      obtain ⟨n, hn⟩ := visit_of_not_callsBack e rest (effs ++ spinSome p) hrest
      refine ⟨n + m + 1, ?_⟩
      rw [Function.iterate_add_apply, Function.iterate_add_apply]
      simp only [Function.iterate_one, spinnerStep, hp, if_false]
      rw [hm, hn]
      simp [Executor.forEachNode, hp]

/-- A cycle none of whose registered handles has a callback that calls back completes:
    the spinning thread alone takes it from its start to its end, leaving the executor as
    it was, `mutex_` free, and exactly the effects of `Executor.pollingCycle`. -/
theorem cycle_completes_of_not_callsBack {e : Executor} (hq : ¬ CallsBack pending e.nodes) :
    ∃ n, (spinnerStep t pending)^[n] (cycleStart e) = ⟨e, none, .done, e.pollingCycle⟩ := by
  obtain ⟨n, hn⟩ := visit_of_not_callsBack t pending e e.nodes [] hq
  refine ⟨1 + n + 1, ?_⟩
  rw [Function.iterate_add_apply, Function.iterate_add_apply, Function.iterate_one]
  show spinnerStep t pending ((spinnerStep t pending)^[n] ⟨e, some t, .visit e.nodes, []⟩) = _
  rw [hn]
  rfl

/-- **The small-step cycle refines the atomic one.** When no pending callback calls back
    into the executor, the spinning thread alone takes the cycle from its start to its end,
    leaving the executor as it was, `mutex_` free, and exactly the effects of
    `Executor.pollingCycle`. -/
theorem cycle_refines_pollingCycle (hq : ∀ p, ∀ cb ∈ pending p, cb = []) (e : Executor) :
    ∃ n, (spinnerStep t pending)^[n] (cycleStart e) = ⟨e, none, .done, e.pollingCycle⟩ :=
  cycle_completes_of_not_callsBack t pending fun ⟨p, _, _, cb, hcb, hne⟩ => hne (hq p cb hcb)

/-! ## §5. A cycle deadlocks exactly when a callback calls back. -/

/-- A callback that calls the executor, among those `spin_some` still has to run, brings
    the spinning thread to wait for itself. -/
theorem dispatch_deadlocks (e : Executor) (effs : List Effect) (rest : List Int) :
    ∀ cbs : List Callback, (∃ cb ∈ cbs, cb ≠ []) →
      ∃ n, ((spinnerStep t pending)^[n] ⟨e, some t, .dispatch cbs rest, effs⟩).pc = .deadlocked
  | [], ⟨_, h, _⟩ => absurd h (List.not_mem_nil _)
  | cb :: cbs, h => by
    by_cases hcb : cb = []
    · subst hcb
      have hrest : ∃ cb ∈ cbs, cb ≠ [] := by simpa using h
      obtain ⟨n, hn⟩ := dispatch_deadlocks e effs rest cbs hrest
      exact ⟨n + 2, by rw [Function.iterate_add_apply]; exact hn⟩
    · obtain ⟨c, cs, rfl⟩ := List.exists_cons_of_ne_nil hcb
      exact ⟨2, by simp [spinnerStep]⟩

/-- A `for` loop over handles one of which calls back brings the spinning thread to wait
    for itself. -/
theorem visit_deadlocks (e : Executor) :
    ∀ (rest : List Int) (effs : List Effect), CallsBack pending rest →
      ∃ n, ((spinnerStep t pending)^[n] ⟨e, some t, .visit rest, effs⟩).pc = .deadlocked
  | [], _, ⟨_, h, _⟩ => absurd h (List.not_mem_nil _)
  | p :: rest, effs, ⟨q, hq, hq0, hcall⟩ => by
    by_cases hp : p = 0
    · have hrest : CallsBack pending rest :=
        ⟨q, (List.mem_cons.mp hq).resolve_left (by rintro rfl; exact hq0 hp), hq0, hcall⟩
      obtain ⟨n, hn⟩ := visit_deadlocks e rest _ hrest
      refine ⟨n + 1, ?_⟩
      rw [Function.iterate_add_apply]
      simpa [spinnerStep, hp] using hn
    · by_cases hcbs : ∃ cb ∈ pending p, cb ≠ []
      · obtain ⟨n, hn⟩ := dispatch_deadlocks t pending e (effs ++ spinSome p) rest _ hcbs
        refine ⟨n + 1, ?_⟩
        rw [Function.iterate_add_apply]
        simpa [spinnerStep, hp] using hn
      · have hrest : CallsBack pending rest := by
          rcases List.mem_cons.mp hq with rfl | hq
          · exact absurd hcall hcbs
          · exact ⟨q, hq, hq0, hcall⟩
        obtain ⟨m, hm⟩ := dispatch_quiet_callbacks t pending e (effs ++ spinSome p) rest
          (pending p) (by simpa using hcbs)
        obtain ⟨n, hn⟩ := visit_deadlocks e rest _ hrest
        refine ⟨n + m + 1, ?_⟩
        rw [Function.iterate_add_apply, Function.iterate_add_apply]
        simp only [Function.iterate_one, spinnerStep, hp, if_false]
        rwa [hm]

/-- A finished cycle, and a deadlocked one, stay as they are. -/
theorem spinnerStep_of_final {s : CycleState} (h : s.pc = .done ∨ s.pc = .deadlocked) :
    spinnerStep t pending s = s := by
  unfold spinnerStep
  rcases h with h | h <;> rw [h]

/-- **A polling cycle deadlocks exactly when a callback calls back.** For every executor
    and every set of pending callbacks, the spinning thread running one polling cycle
    alone ends up waiting for itself exactly when some non-zero registered handle has a
    pending callback that calls `add_node`, `remove_node` or `stop` on the same executor;
    otherwise it completes the cycle, leaving the executor as it was, `mutex_` free, and
    the effects of `Executor.pollingCycle`. -/
theorem cycle_deadlocks_iff_callback_calls_back (e : Executor) :
    ((∃ n, ((spinnerStep t pending)^[n] (cycleStart e)).pc = .deadlocked) ↔
        CallsBack pending e.nodes) ∧
      (¬ CallsBack pending e.nodes →
        ∃ n, (spinnerStep t pending)^[n] (cycleStart e) = ⟨e, none, .done, e.pollingCycle⟩) := by
  refine ⟨⟨fun ⟨n, hn⟩ => ?_, fun h => ?_⟩, cycle_completes_of_not_callsBack t pending⟩
  · by_contra hq
    obtain ⟨N, hN⟩ := cycle_completes_of_not_callsBack t pending hq
    rcases le_total n N with hle | hle
    · have hfix := Function.iterate_fixed (spinnerStep_of_final t pending (.inr hn)) (N - n)
      rw [← Function.iterate_add_apply, Nat.sub_add_cancel hle, hN] at hfix
      simp [← hfix] at hn
    · have hfix := Function.iterate_fixed
        (spinnerStep_of_final t pending (s := ⟨e, none, .done, e.pollingCycle⟩) (.inl rfl)) (n - N)
      rw [← hN, ← Function.iterate_add_apply, Nat.sub_add_cancel hle] at hfix
      simp [hfix, hN] at hn
  · obtain ⟨n, hn⟩ := visit_deadlocks t pending e e.nodes [] h
    exact ⟨n + 1, by rw [Function.iterate_add_apply, Function.iterate_one]; exact hn⟩

end Cycle

/-- The refinement for two nodes, one of them the zero handle, each dispatching one
    callback that leaves the executor alone. -/
theorem cycle_refines_pollingCycle_two_nodes :
    (∀ p, ∀ cb ∈ (fun _ => [[]] : Int → List Callback) p, cb = []) ∧
      ∃ n, (spinnerStep 0 (fun _ => [[]]))^[n] (cycleStart ⟨true, [1, 0]⟩) =
        ⟨⟨true, [1, 0]⟩, none, .done, Executor.pollingCycle ⟨true, [1, 0]⟩⟩ :=
  ⟨fun _ _ h => List.mem_singleton.mp h,
    cycle_refines_pollingCycle 0 _ (fun _ _ h => List.mem_singleton.mp h) _⟩

end RclLikeWrapper
