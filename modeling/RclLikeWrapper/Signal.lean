/-
  RclLikeWrapper.Signal
  ─────────────────────
  **`signal_handler` UNDER NESTED DELIVERY: `global_mutex` IS TAKEN IN A SIGNAL HANDLER.**

  `signal_handler(signal)` sets `global_stop_flag` under a `std::lock_guard` on
  `global_mutex`:

      if (signal == SIGINT || signal == SIGTERM) {
        std::lock_guard<std::mutex> lock(global_mutex);
        global_stop_flag = true;
      }

  A signal interrupts whatever the thread it is delivered to is doing, a running
  `signal_handler` included: `std::signal` blocks only the signal being handled, so a
  SIGINT can reach a thread inside its own SIGTERM handler, and the other way round.  Each
  thread here carries the stack of its `signal_handler` frames, innermost first; only the
  innermost frame runs, and the mutex is the non-recursive `std::mutex` of
  `Executor/Lock.lean`.

  Main results:
    * `inv_steps` — along every run, a thread owns `global_mutex` exactly when one of its
      frames is past the lock, one frame at most, and no frame holding it sits above a
      frame that waits for its own thread;
    * `handler_deadlocks_only_when_nested` — a handler waits for its own thread only when
      it interrupted a handler of the same thread that holds `global_mutex`;
    * `deadlocked_handler_hangs_forever` — from then on, along every continuation, the
      thread keeps `global_mutex`, so no SIGINT or SIGTERM handler of any thread gets past
      its lock, and `global_stop_flag` never changes: a stop that was not yet recorded is
      lost;
    * `handler_refines_atomic_signalHandler` — taken at its assignment, every handler is
      the atomic `signalHandler` the executor and node models use: along every run the flag
      is that function folded over the SIGINT and SIGTERM handlers that got there.
-/
import RclLikeWrapper.Executor.Lock

namespace RclLikeWrapper

/-! ## §1. Handler frames, threads and steps. -/

/-- Where one frame of `signal_handler` stands. -/
inductive HandlerPc
  /-- Entered: `signal == SIGINT || signal == SIGTERM` comes next. -/
  | test
  /-- Constructing the `lock_guard` on `global_mutex`. -/
  | lock
  /-- Holding `global_mutex`: `global_stop_flag = true` comes next. -/
  | set
  /-- Leaving the block: the `lock_guard` releases `global_mutex`. -/
  | unlock
  /-- Waiting forever on `global_mutex`, which this very thread holds. -/
  | deadlocked
  deriving Repr, DecidableEq

/-- One running `signal_handler(sig)`. -/
structure HandlerFrame where
  sig : Int
  pc : HandlerPc
  deriving Repr, DecidableEq

/-- The frame holds `global_mutex`: its `lock_guard` is constructed and not yet destroyed. -/
def HandlerFrame.holds (f : HandlerFrame) : Prop := f.pc = .set ∨ f.pc = .unlock

instance (f : HandlerFrame) : Decidable f.holds := inferInstanceAs (Decidable (_ ∨ _))

/-- `global_mutex`'s owner, `global_stop_flag`, and each thread's `signal_handler` frames,
    innermost first. -/
structure SigWorld where
  owner : Option Nat
  globalStopFlag : Bool
  frames : Nat → List HandlerFrame

/-- One step of the process. -/
inductive SigStep
  /-- Signal `sig` is delivered to thread `t`, which enters `signal_handler(sig)`. -/
  | deliver (t : Nat) (sig : Int)
  /-- Thread `t`'s innermost handler frame executes its next statement. -/
  | handlerStep (t : Nat)
  deriving Repr, DecidableEq

namespace SigWorld

/-- No handler running, `global_mutex` free, no stop recorded. -/
def init : SigWorld := ⟨none, false, fun _ => []⟩

/-- The world with thread `t`'s frames replaced. -/
def setFrames (w : SigWorld) (t : Nat) (fs : List HandlerFrame) : SigWorld :=
  { w with frames := Function.update w.frames t fs }

@[simp] theorem setFrames_owner (w : SigWorld) (t : Nat) (fs : List HandlerFrame) :
    (w.setFrames t fs).owner = w.owner := rfl

@[simp] theorem setFrames_globalStopFlag (w : SigWorld) (t : Nat) (fs : List HandlerFrame) :
    (w.setFrames t fs).globalStopFlag = w.globalStopFlag := rfl

@[simp] theorem setFrames_frames (w : SigWorld) (t u : Nat) (fs : List HandlerFrame) :
    (w.setFrames t fs).frames u = if u = t then fs else w.frames u := by
  by_cases h : u = t
  · subst h; simp [setFrames]
  · simp [setFrames, h]

/-- `sig` is blocked on thread `t`: `std::signal` blocks a signal while its handler runs. -/
def Blocked (w : SigWorld) (t : Nat) (sig : Int) : Prop := ∃ f ∈ w.frames t, f.sig = sig

instance (w : SigWorld) (t : Nat) (sig : Int) : Decidable (w.Blocked t sig) :=
  inferInstanceAs (Decidable (∃ f ∈ w.frames t, f.sig = sig))

/-- The next statement of thread `t`'s innermost `signal_handler` frame, which handles
    `sig` and stands at `pc`, over the frames `fs` it interrupted. -/
def frameStep (w : SigWorld) (t : Nat) (sig : Int) (pc : HandlerPc) (fs : List HandlerFrame) :
    SigWorld :=
  match pc with
  | .test =>
    if sig = SIGINT ∨ sig = SIGTERM then w.setFrames t (⟨sig, .lock⟩ :: fs)
    else w.setFrames t fs
  | .lock =>
    match lockGuard w.owner t with
    | .acquired => { w.setFrames t (⟨sig, .set⟩ :: fs) with owner := some t }
    | .waits => w
    | .selfDeadlock => w.setFrames t (⟨sig, .deadlocked⟩ :: fs)
  | .set => { w.setFrames t (⟨sig, .unlock⟩ :: fs) with globalStopFlag := true }
  | .unlock => { w.setFrames t fs with owner := none }
  | .deadlocked => w

/-- One step. -/
def step (w : SigWorld) : SigStep → SigWorld
  | .deliver t sig =>
    if w.Blocked t sig then w else w.setFrames t (⟨sig, .test⟩ :: w.frames t)
  | .handlerStep t =>
    match w.frames t with
    | [] => w
    | f :: fs => w.frameStep t f.sig f.pc fs

theorem step_handlerStep_nil {w : SigWorld} {t : Nat} (h : w.frames t = []) :
    w.step (.handlerStep t) = w := by
  simp [step, h]

theorem step_handlerStep_cons {w : SigWorld} {t : Nat} {f : HandlerFrame}
    {fs : List HandlerFrame} (h : w.frames t = f :: fs) :
    w.step (.handlerStep t) = w.frameStep t f.sig f.pc fs := by
  simp [step, h]

/-- The world after a run. -/
def steps (w : SigWorld) (ρ : List SigStep) : SigWorld :=
  ρ.foldl step w

/-! ## §2. Who holds `global_mutex`. -/

/-- One thread's frames, `owns` saying whether it owns `global_mutex`: it owns it exactly
    when one of its frames holds it, and one frame at most does; a frame that waits for its
    own thread implies that the thread owns it; and no frame holding it sits above a frame
    that waits. -/
structure StackInv (fs : List HandlerFrame) (owns : Prop) : Prop where
  holds_iff : (∃ f ∈ fs, f.holds) ↔ owns
  single : fs.countP (fun f => decide f.holds) ≤ 1
  deadlocked_owns : ∀ f ∈ fs, f.pc = .deadlocked → owns
  holder_above : fs.Pairwise fun f g => f.holds → g.pc ≠ .deadlocked

theorem StackInv.congr {fs : List HandlerFrame} {P Q : Prop} (h : StackInv fs P)
    (hPQ : P ↔ Q) : StackInv fs Q :=
  ⟨h.holds_iff.trans hPQ, h.single, fun f hf hd => hPQ.1 (h.deadlocked_owns f hf hd),
    h.holder_above⟩

theorem stackInv_nil : StackInv [] False :=
  ⟨by simp, by simp, by simp, .nil⟩

/-- A frame that neither holds the mutex nor waits may go on top, or be replaced by another
    such frame. -/
theorem StackInv.cons_idle {fs : List HandlerFrame} {P : Prop} (h : StackInv fs P)
    {f : HandlerFrame} (hf : f.pc = .test ∨ f.pc = .lock) : StackInv (f :: fs) P := by
  have hnh : ¬ f.holds := by rcases hf with hf | hf <;> simp [HandlerFrame.holds, hf]
  have hnd : f.pc ≠ .deadlocked := by rcases hf with hf | hf <;> simp [hf]
  refine ⟨?_, ?_, ?_, List.Pairwise.cons (fun _ _ hh => absurd hh hnh) h.holder_above⟩
  · simpa [hnh] using h.holds_iff
  · simpa [List.countP_cons, hnh] using h.single
  · intro g hg hd
    rcases List.mem_cons.mp hg with rfl | hg
    · exact absurd hd hnd
    · exact h.deadlocked_owns g hg hd

theorem StackInv.tail {f : HandlerFrame} {fs : List HandlerFrame} {P : Prop}
    (h : StackInv (f :: fs) P) (hf : ¬ f.holds) : StackInv fs P := by
  refine ⟨?_, ?_, fun g hg => h.deadlocked_owns g (List.mem_cons_of_mem f hg),
    (List.pairwise_cons.mp h.holder_above).2⟩
  · simpa [hf] using h.holds_iff
  · simpa [List.countP_cons, hf] using h.single

/-- Locking a free mutex: the top frame now holds it, and its thread owns it. -/
theorem StackInv.acquire {s : Int} {fs : List HandlerFrame}
    (h : StackInv (⟨s, .lock⟩ :: fs) False) : StackInv (⟨s, .set⟩ :: fs) True := by
  have hnh : ∀ g ∈ fs, ¬ g.holds := fun g hg hh =>
    h.holds_iff.1 ⟨g, List.mem_cons_of_mem _ hg, hh⟩
  have hnd : ∀ g ∈ fs, g.pc ≠ .deadlocked := fun g hg hd =>
    h.deadlocked_owns g (List.mem_cons_of_mem _ hg) hd
  refine ⟨⟨fun _ => trivial, fun _ => ⟨_, List.mem_cons_self _ _, .inl rfl⟩⟩, ?_, ?_, ?_⟩
  · rw [List.countP_cons, List.countP_eq_zero.2 fun g hg => by simpa using hnh g hg]
    simp [HandlerFrame.holds]
  · exact fun _ _ _ => trivial
  · exact List.Pairwise.cons (fun g hg _ => hnd g hg) (List.pairwise_cons.mp h.holder_above).2

/-- Locking a mutex the thread owns: the top frame waits for its own thread. -/
theorem StackInv.selfDeadlock {s : Int} {fs : List HandlerFrame}
    (h : StackInv (⟨s, .lock⟩ :: fs) True) : StackInv (⟨s, .deadlocked⟩ :: fs) True := by
  refine ⟨?_, ?_, fun _ _ _ => trivial, ?_⟩
  · simpa [HandlerFrame.holds] using h.holds_iff
  · simpa [List.countP_cons, HandlerFrame.holds] using h.single
  · exact List.Pairwise.cons (fun _ _ hh => by simp [HandlerFrame.holds] at hh)
      (List.pairwise_cons.mp h.holder_above).2

/-- `global_stop_flag = true` keeps the mutex held. -/
theorem StackInv.setFlag {s : Int} {fs : List HandlerFrame} {P : Prop}
    (h : StackInv (⟨s, .set⟩ :: fs) P) : StackInv (⟨s, .unlock⟩ :: fs) P := by
  refine ⟨?_, ?_, ?_, ?_⟩
  · simpa [HandlerFrame.holds] using h.holds_iff
  · simpa [List.countP_cons, HandlerFrame.holds] using h.single
  · intro g hg hd
    rcases List.mem_cons.mp hg with rfl | hg
    · cases hd
    · exact h.deadlocked_owns g (List.mem_cons_of_mem _ hg) hd
  · have hp := List.pairwise_cons.mp h.holder_above
    exact List.Pairwise.cons (fun g hg _ => hp.1 g hg (.inl rfl)) hp.2

/-- The `lock_guard`'s destructor: the top frame returns, and its thread owns nothing. -/
theorem StackInv.release {s : Int} {fs : List HandlerFrame} {P : Prop}
    (h : StackInv (⟨s, .unlock⟩ :: fs) P) : StackInv fs False := by
  have htop : (⟨s, .unlock⟩ : HandlerFrame).holds := .inr rfl
  have hnh : ∀ g ∈ fs, ¬ g.holds := by
    have := h.single
    rw [List.countP_cons, if_pos (by simpa using htop)] at this
    intro g hg hh
    have h0 : fs.countP (fun f => decide f.holds) = 0 := by omega
    exact (List.countP_eq_zero.1 h0 g hg) (by simpa using hh)
  have hnd : ∀ g ∈ fs, g.pc ≠ .deadlocked := fun g hg =>
    (List.pairwise_cons.mp h.holder_above).1 g hg htop
  refine ⟨⟨fun ⟨g, hg, hh⟩ => hnh g hg hh, False.elim⟩, ?_, fun g hg hd => hnd g hg hd,
    (List.pairwise_cons.mp h.holder_above).2⟩
  rw [List.countP_eq_zero.2 fun g hg => by simpa using hnh g hg]
  omega

/-- The invariant of every run: each thread's frames, with whether it owns `global_mutex`. -/
def Inv (w : SigWorld) : Prop := ∀ t, StackInv (w.frames t) (w.owner = some t)

theorem inv_init : init.Inv := fun _ => stackInv_nil.congr (by simp [init])

/-- A step that changes thread `t`'s frames, and the owner only between `none` and
    `some t`, leaves every other thread's part of the invariant as it was. -/
theorem inv_setFrames {w : SigWorld} (h : w.Inv) {t : Nat} {fs : List HandlerFrame}
    {o : Option Nat} (ho : ∀ u, u ≠ t → (o = some u ↔ w.owner = some u))
    (ht : StackInv fs (o = some t)) : Inv { w.setFrames t fs with owner := o } := by
  intro u
  by_cases hu : u = t
  · subst hu; simpa using ht
  · simpa [hu] using (h u).congr (ho u hu).symm

/-- **One step keeps the invariant.** -/
theorem inv_step {w : SigWorld} (h : w.Inv) (s : SigStep) : (w.step s).Inv := by
  cases s with
  | deliver t sig =>
    by_cases hb : w.Blocked t sig
    · simpa [step, hb] using h
    · simp only [step, if_neg hb]
      exact inv_setFrames (o := w.owner) h (fun _ _ => Iff.rfl) ((h t).cons_idle (.inl rfl))
  | handlerStep t =>
    have ht := h t
    cases hft : w.frames t with
    | nil => rw [step_handlerStep_nil hft]; exact h
    | cons f fs =>
      rw [step_handlerStep_cons hft]
      rw [hft] at ht
      obtain ⟨sig, pc⟩ := f
      cases pc with
      | test =>
        have htail := ht.tail (by simp [HandlerFrame.holds])
        by_cases hs : sig = SIGINT ∨ sig = SIGTERM
        · simp only [frameStep, if_pos hs]
          exact inv_setFrames (o := w.owner) h (fun _ _ => Iff.rfl) (htail.cons_idle (.inr rfl))
        · simp only [frameStep, if_neg hs]
          exact inv_setFrames (o := w.owner) h (fun _ _ => Iff.rfl) htail
      | lock =>
        cases ho : w.owner with
        | none =>
          simp only [frameStep, ho, lockGuard_none]
          refine inv_setFrames h (fun u hu => by simp [ho, Ne.symm hu]) ?_
          exact (StackInv.acquire (ht.congr (by simp [ho]))).congr (by simp)
        | some o =>
          by_cases hot : o = t
          · subst hot
            simp only [frameStep, ho, lockGuard_self]
            exact inv_setFrames (o := w.owner) h (fun _ _ => Iff.rfl)
              ((StackInv.selfDeadlock (ht.congr (by simp [ho]))).congr (by simp [ho]))
          · simp only [frameStep, ho, lockGuard_other (Ne.symm hot)]
            exact h
      | set =>
        simp only [frameStep]
        exact inv_setFrames (o := w.owner) h (fun _ _ => Iff.rfl) ht.setFlag
      | unlock =>
        have hown : w.owner = some t := ht.holds_iff.1 ⟨_, List.mem_cons_self _ _, .inr rfl⟩
        simp only [frameStep]
        exact inv_setFrames h (fun u hu => by simp [hown, Ne.symm hu])
          (ht.release.congr (by simp))
      | deadlocked => exact h

/-- Along every run the invariant holds throughout. -/
theorem inv_steps {w : SigWorld} (h : w.Inv) (ρ : List SigStep) : (w.steps ρ).Inv := by
  induction ρ generalizing w with
  | nil => exact h
  | cons s ρ ih => exact ih (inv_step h s)

/-! ## §3. A handler waits for its own thread only by nesting, and then forever. -/

/-- **A handler deadlocks only when nested.** In every state reachable from the start, a
    `signal_handler` frame of thread `t` waits for its own thread only when `t` owns
    `global_mutex` through another of its frames: the deadlocked handler interrupted a
    handler of the same thread past its lock. -/
theorem handler_deadlocks_only_when_nested (ρ : List SigStep) (t : Nat) :
    ∀ f ∈ (init.steps ρ).frames t, f.pc = .deadlocked →
      (init.steps ρ).owner = some t ∧
        ∃ g ∈ (init.steps ρ).frames t, g.pc = .set ∨ g.pc = .unlock := by
  intro f hf hd
  have h := inv_steps inv_init ρ t
  have hown := h.deadlocked_owns f hf hd
  exact ⟨hown, h.holds_iff.2 hown⟩

/-- A world in which thread `t` waits for itself. -/
def Hung (w : SigWorld) (t : Nat) : Prop := ∃ f ∈ w.frames t, f.pc = .deadlocked

/-- A frame of `t` stays when thread `u`'s frames are replaced by a list that keeps it. -/
theorem mem_setFrames {w : SigWorld} {t u : Nat} {f : HandlerFrame} {fs : List HandlerFrame}
    (hf : f ∈ w.frames t) (hfs : t = u → f ∈ fs) : f ∈ (w.setFrames u fs).frames t := by
  by_cases hu : t = u
  · simpa [hu] using hfs hu
  · simpa [hu] using hf

/-- **One step from a hung world.** The thread still waits for itself, the owner of
    `global_mutex` does not change, and neither does `global_stop_flag`. -/
theorem hung_step {w : SigWorld} (h : w.Inv) {t : Nat} (hh : w.Hung t) (s : SigStep) :
    (w.step s).Hung t ∧ (w.step s).owner = w.owner ∧
      (w.step s).globalStopFlag = w.globalStopFlag := by
  obtain ⟨f, hf, hd⟩ := hh
  have hown : w.owner = some t := (h t).deadlocked_owns f hf hd
  cases s with
  | deliver u sig =>
    by_cases hb : w.Blocked u sig
    · rw [step, if_pos hb]; exact ⟨⟨f, hf, hd⟩, rfl, rfl⟩
    · rw [step, if_neg hb]
      exact ⟨⟨f, mem_setFrames hf fun htu => htu ▸ List.mem_cons_of_mem _ hf, hd⟩, rfl, rfl⟩
  | handlerStep u =>
    cases hgu : w.frames u with
    | nil => rw [step_handlerStep_nil hgu]; exact ⟨⟨f, hf, hd⟩, rfl, rfl⟩
    | cons g gs =>
      rw [step_handlerStep_cons hgu]
      -- below a top frame that is not deadlocked, the deadlocked frame of `t` stays
      have below : g.pc ≠ .deadlocked → t = u → f ∈ gs := fun hg htu => by
        subst htu; rw [hgu] at hf
        exact (List.mem_cons.mp hf).resolve_left fun hfg => hg (hfg ▸ hd)
      -- a top frame that holds the mutex is `t`'s, whose innermost frame cannot hold it
      have noHolder : ¬ g.holds := fun hg => by
        have hu : w.owner = some u :=
          (h u).holds_iff.1 ⟨g, by rw [hgu]; exact List.mem_cons_self _ _, hg⟩
        obtain rfl : u = t := Option.some.inj (hu.symm.trans hown)
        have ht := h u
        rw [hgu] at hf ht
        rcases List.mem_cons.mp hf with rfl | hf
        · rcases hg with hg | hg <;> simp [hg] at hd
        · exact (List.pairwise_cons.mp ht.holder_above).1 f hf hg hd
      obtain ⟨sig, pc⟩ := g
      cases pc with
      | test =>
        by_cases hs : sig = SIGINT ∨ sig = SIGTERM
        · simp only [frameStep, if_pos hs]
          exact ⟨⟨f, mem_setFrames hf fun htu =>
            List.mem_cons_of_mem _ (below (by simp) htu), hd⟩, rfl, rfl⟩
        · simp only [frameStep, if_neg hs]
          exact ⟨⟨f, mem_setFrames hf (below (by simp)), hd⟩, rfl, rfl⟩
      | lock =>
        by_cases hut : u = t
        · subst hut
          have hlg : lockGuard w.owner u = .selfDeadlock := by rw [hown]; exact lockGuard_self u
          simp only [frameStep, hlg]
          exact ⟨⟨⟨sig, .deadlocked⟩, by simp, rfl⟩, rfl, rfl⟩
        · have hlg : lockGuard w.owner u = .waits := by rw [hown]; exact lockGuard_other hut
          simp only [frameStep, hlg, and_true]
          exact ⟨f, hf, hd⟩
      | set => exact absurd (.inl rfl) noHolder
      | unlock => exact absurd (.inr rfl) noHolder
      | deadlocked => exact ⟨⟨f, hf, hd⟩, rfl, rfl⟩

/-- Along every run from a hung world, the thread waits for itself throughout, and neither
    the owner of `global_mutex` nor `global_stop_flag` changes. -/
theorem hung_steps {w : SigWorld} (h : w.Inv) {t : Nat} (hh : w.Hung t) (ρ : List SigStep) :
    (w.steps ρ).Hung t ∧ (w.steps ρ).owner = w.owner ∧
      (w.steps ρ).globalStopFlag = w.globalStopFlag := by
  induction ρ generalizing w with
  | nil => exact ⟨hh, rfl, rfl⟩
  | cons s ρ ih =>
    obtain ⟨hh', ho, hg⟩ := hung_step h hh s
    obtain ⟨hh'', ho', hg'⟩ := ih (inv_step h s) hh'
    exact ⟨hh'', ho'.trans ho, hg'.trans hg⟩

/-- SIGTERM reaches thread `0`, whose handler takes `global_mutex`; before it records the
    stop, SIGINT reaches the same thread, and its handler tries to lock. -/
def nestedDelivery : List SigStep :=
  [.deliver 0 SIGTERM, .handlerStep 0, .handlerStep 0, .deliver 0 SIGINT, .handlerStep 0,
    .handlerStep 0]

/-- The theorem at the end of `nestedDelivery`: the SIGINT handler waits for its thread,
    whose SIGTERM handler holds `global_mutex`. -/
theorem handler_deadlocks_only_when_nested_at_nestedDelivery :
    (⟨SIGINT, .deadlocked⟩ : HandlerFrame) ∈ (init.steps nestedDelivery).frames 0 ∧
      ((init.steps nestedDelivery).owner = some 0 ∧
        ∃ g ∈ (init.steps nestedDelivery).frames 0, g.pc = .set ∨ g.pc = .unlock) :=
  ⟨by decide, handler_deadlocks_only_when_nested nestedDelivery 0 ⟨SIGINT, .deadlocked⟩
    (by decide) rfl⟩

/-- **A deadlocked handler hangs for good.** In every state reachable from the start in
    which a handler of thread `t` waits for its own thread, along every continuation: the
    thread still waits for itself and owns `global_mutex`, so no SIGINT or SIGTERM handler
    of any thread gets past its lock again, and `global_stop_flag` keeps the value it had:
    a stop whose handler was interrupted before recording it is lost. -/
theorem deadlocked_handler_hangs_forever (ρ₀ : List SigStep) {t : Nat}
    (hh : ∃ f ∈ (init.steps ρ₀).frames t, f.pc = .deadlocked) (ρ : List SigStep) :
    (∃ f ∈ ((init.steps ρ₀).steps ρ).frames t, f.pc = .deadlocked) ∧
      ((init.steps ρ₀).steps ρ).owner = some t ∧
      ((init.steps ρ₀).steps ρ).globalStopFlag = (init.steps ρ₀).globalStopFlag := by
  have h := inv_steps inv_init ρ₀
  obtain ⟨hh', ho, hg⟩ := hung_steps h hh ρ
  obtain ⟨f, hf, hd⟩ := hh
  exact ⟨hh', ho.trans ((h t).deadlocked_owns f hf hd), hg⟩

/-- The theorem after `nestedDelivery`, where `global_stop_flag` was never set, and a
    SIGINT then reaching thread `1`, whose handler waits at its lock. -/
theorem deadlocked_handler_hangs_forever_nested :
    (∃ f ∈ (init.steps nestedDelivery).frames 0, f.pc = .deadlocked) ∧
      ((∃ f ∈ ((init.steps nestedDelivery).steps
          [.deliver 1 SIGINT, .handlerStep 1, .handlerStep 1]).frames 0, f.pc = .deadlocked) ∧
        ((init.steps nestedDelivery).steps
          [.deliver 1 SIGINT, .handlerStep 1, .handlerStep 1]).owner = some 0 ∧
        ((init.steps nestedDelivery).steps
          [.deliver 1 SIGINT, .handlerStep 1, .handlerStep 1]).globalStopFlag =
          (init.steps nestedDelivery).globalStopFlag) :=
  ⟨by decide, deadlocked_handler_hangs_forever nestedDelivery (by decide) _⟩

/-- After `nestedDelivery` neither stop was recorded. -/
example : (init.steps nestedDelivery).globalStopFlag = false := rfl

/-! ## §4. The assignment is the handler's linearization point. -/

/-- The signal whose `global_stop_flag = true` a step executes: the innermost frame of the
    stepping thread, when it stands at the assignment. -/
def recordedBy (w : SigWorld) : SigStep → List Int
  | .deliver _ _ => []
  | .handlerStep t =>
    match w.frames t with
    | f :: _ => if f.pc = .set then [f.sig] else []
    | [] => []

/-- The signals a run records, in order. -/
def recordedIn : SigWorld → List SigStep → List Int
  | _, [] => []
  | w, s :: ρ => w.recordedBy s ++ recordedIn (w.step s) ρ

/-- Every frame past `signal == SIGINT || signal == SIGTERM` handles SIGINT or SIGTERM. -/
def Screened (w : SigWorld) : Prop :=
  ∀ t, ∀ f ∈ w.frames t, f.pc ≠ .test → f.sig = SIGINT ∨ f.sig = SIGTERM

/-- A world whose frames are `w`'s with thread `t`'s replaced by screened frames. -/
theorem Screened.setFrames {w w' : SigWorld} (h : w.Screened) {t : Nat}
    {fs : List HandlerFrame} (hw : w'.frames = (w.setFrames t fs).frames)
    (hfs : ∀ f ∈ fs, f.pc ≠ .test → f.sig = SIGINT ∨ f.sig = SIGTERM) : w'.Screened := by
  intro u f hf
  rw [hw, setFrames_frames] at hf
  split_ifs at hf
  · exact hfs f hf
  · exact h u f hf

theorem screened_init : init.Screened := fun _ _ hf => by simp [init] at hf

/-- One step keeps every frame past the test a SIGINT or SIGTERM frame. -/
theorem screened_step {w : SigWorld} (h : w.Screened) (s : SigStep) : (w.step s).Screened := by
  cases s with
  | deliver t sig =>
    by_cases hb : w.Blocked t sig
    · rw [step, if_pos hb]; exact h
    · rw [step, if_neg hb]
      refine h.setFrames rfl fun f hf hp => ?_
      rcases List.mem_cons.mp hf with rfl | hf
      · exact absurd rfl hp
      · exact h t f hf hp
  | handlerStep t =>
    cases hft : w.frames t with
    | nil => rw [step_handlerStep_nil hft]; exact h
    | cons f fs =>
      rw [step_handlerStep_cons hft]
      have hfs : ∀ g ∈ fs, g.pc ≠ .test → g.sig = SIGINT ∨ g.sig = SIGTERM :=
        fun g hg => h t g (by rw [hft]; exact List.mem_cons_of_mem _ hg)
      -- the top frame, moved on with its own signal, stays screened
      have hcons : (f.sig = SIGINT ∨ f.sig = SIGTERM) → ∀ pc : HandlerPc,
          ∀ g ∈ (⟨f.sig, pc⟩ :: fs : List HandlerFrame), g.pc ≠ .test →
            g.sig = SIGINT ∨ g.sig = SIGTERM := fun hs _ g hg hp => by
        rcases List.mem_cons.mp hg with rfl | hg
        · exact hs
        · exact hfs g hg hp
      have htop : f.pc ≠ .test → f.sig = SIGINT ∨ f.sig = SIGTERM :=
        h t f (by rw [hft]; exact List.mem_cons_self _ _)
      obtain ⟨sig, pc⟩ := f
      cases pc with
      | test =>
        by_cases hs : sig = SIGINT ∨ sig = SIGTERM
        · simp only [frameStep, if_pos hs]; exact h.setFrames rfl (hcons hs .lock)
        · simp only [frameStep, if_neg hs]; exact h.setFrames rfl hfs
      | lock =>
        simp only [frameStep]
        split
        · exact h.setFrames rfl (hcons (htop (by simp)) .set)
        · exact h
        · exact h.setFrames rfl (hcons (htop (by simp)) .deadlocked)
      | set => exact h.setFrames rfl (hcons (htop (by simp)) .unlock)
      | unlock => exact h.setFrames rfl hfs
      | deadlocked => exact h

/-- **One step.** The flag after a step is the atomic `signalHandler` applied, over the
    flag before it, to the signal the step records, and only a SIGINT or SIGTERM is
    recorded. -/
theorem globalStopFlag_step {w : SigWorld} (h : w.Screened) (s : SigStep) :
    (∀ sig ∈ w.recordedBy s, sig = SIGINT ∨ sig = SIGTERM) ∧
      (w.step s).globalStopFlag = (w.recordedBy s).foldl signalHandler w.globalStopFlag := by
  cases s with
  | deliver t sig => by_cases hb : w.Blocked t sig <;> simp [step, recordedBy, hb]
  | handlerStep t =>
    cases hft : w.frames t with
    | nil => simp [step_handlerStep_nil hft, recordedBy, hft]
    | cons f fs =>
      rw [step_handlerStep_cons hft]
      obtain ⟨sig, pc⟩ := f
      cases pc with
      | set =>
        have hs := h t _ (by rw [hft]; exact List.mem_cons_self _ _) (by simp)
        simp [frameStep, recordedBy, hft, signalHandler, hs]
      | test => by_cases hs : sig = SIGINT ∨ sig = SIGTERM <;> simp [frameStep, recordedBy, hft, hs]
      | lock => simp only [frameStep]; split <;> simp [recordedBy, hft]
      | unlock => simp [frameStep, recordedBy, hft]
      | deadlocked => simp [frameStep, recordedBy, hft]

/-- Along every run from a screened world, the flag is the atomic `signalHandler` folded
    over the recorded signals, all of them SIGINT or SIGTERM. -/
theorem globalStopFlag_steps {w : SigWorld} (h : w.Screened) (ρ : List SigStep) :
    (∀ sig ∈ w.recordedIn ρ, sig = SIGINT ∨ sig = SIGTERM) ∧
      (w.steps ρ).globalStopFlag = (w.recordedIn ρ).foldl signalHandler w.globalStopFlag := by
  induction ρ generalizing w with
  | nil => exact ⟨by simp [recordedIn], rfl⟩
  | cons s ρ ih =>
    obtain ⟨hstop, hflag⟩ := globalStopFlag_step h s
    obtain ⟨hstop', hflag'⟩ := ih (screened_step h s)
    refine ⟨fun sig hsig => ?_, ?_⟩
    · rcases List.mem_append.mp hsig with hsig | hsig
      · exact hstop sig hsig
      · exact hstop' sig hsig
    · rw [recordedIn, List.foldl_append, ← hflag]
      exact hflag'

/-- **The statement-level handler is the atomic one, taking effect at its assignment.**
    Along every run from the start, nested deliveries and hung threads included: only
    SIGINT and SIGTERM handlers execute `global_stop_flag = true`, and `global_stop_flag`
    is the atomic `signalHandler` of the executor and node models folded, from `false`, over
    the signals whose handlers executed it, in order.  A delivery whose handler never gets
    there changes nothing. -/
theorem handler_refines_atomic_signalHandler (ρ : List SigStep) :
    (∀ sig ∈ init.recordedIn ρ, sig = SIGINT ∨ sig = SIGTERM) ∧
      (init.steps ρ).globalStopFlag = (init.recordedIn ρ).foldl signalHandler false :=
  globalStopFlag_steps screened_init ρ

/-- After `nestedDelivery` the SIGTERM handler holds `global_mutex` before its assignment,
    and the SIGINT handler hangs before its lock: nothing is recorded. -/
example : init.recordedIn nestedDelivery = [] := rfl

end SigWorld

end RclLikeWrapper
