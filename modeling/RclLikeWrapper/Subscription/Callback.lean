/-
  RclLikeWrapper.Subscription.Callback
  ────────────────────────────────────
  **ONE SUBSCRIPTION'S BUFFER: `on_data_available` AND `SubscriptionCallback::invoke`.**

  `SubscriberListener<T>` owns `message_ptr_buffer_`.  When the transport has data,
  `on_data_available` takes one sample; if the take returns `RETCODE_OK` with
  `valid_data`, the message is appended to the buffer and the listener's one
  `SubscriptionCallback` is produced into the node's channel.  The consumer later takes an
  entry and calls `invoke()`, which passes the buffer's front to the user callback and
  erases it, all inside one `try`: when the callback throws, the `catch` logs and the
  erase is skipped.

  The subscription's state is its buffer and the number of its entries produced into the
  channel and not yet taken; a run is any sequence of deliveries and dispatches, entries of
  other subscriptions being invisible here.

  Main results:
    * `run_spec` — along every run, the buffer is the delivered messages minus as many
      as invokes whose callback returned normally, and every invoke passes the delivered
      message at that count: a throwing callback leaves its message at the front, to be
      passed again by the next invoke (when none throws, the `k`-th invoke passes the
      `k`-th message; `Subscription/Interleaving.lean` proves that over every interleaving);
    * `throw_passes_message_twice` — with one throw, the second invoke gets the first
      message again and the last message is left behind.
-/
import Mathlib.Data.List.Basic
import Mathlib.Data.List.GetD

namespace RclLikeWrapper

/-! ## §1. The two functions. -/

/-- What the user callback did on one call. -/
inductive CallbackOutcome
  /-- It returned normally. -/
  | returned
  /-- It threw a `std::exception` whose `what()` is the string. -/
  | threwException (what : String)
  /-- It threw something else. -/
  | threwOther
  deriving Repr, DecidableEq

/-- The `ReturnCode_t` of `take_next_sample`. -/
inductive ReturnCode
  | ok
  | noData
  | error
  deriving Repr, DecidableEq

/-- What `reader->take_next_sample(&temp_instance, &sample_info_)` delivered. -/
structure Sample (α : Type) where
  retcode : ReturnCode
  /-- `sample_info_.valid_data`. -/
  validData : Bool
  /-- `temp_instance`. -/
  data : α
  deriving Repr, DecidableEq

/-- One `invoke()` as observed: the buffer it leaves, the message the user callback was
    called with, and the lines written to `std::cerr`. -/
structure Invoked (α : Type) where
  buffer : List α
  passed : Option α
  log : List String
  deriving Repr, DecidableEq

variable {α : Type}

/-- The lines the two `catch` clauses of `invoke()` write for a callback that behaved as
    `o`; nothing when it returned. -/
def catchLog : CallbackOutcome → List String
  | .returned => []
  | .threwException w => ["Exception during callback invocation: " ++ w]
  | .threwOther => ["Unknown exception during callback invocation."]

/-- `SubscriptionCallback<T>::invoke()` on `*message_buffer_`, the callback behaving as
    `o` on this call: on a non-empty buffer the front is passed, and erased only if the
    callback returned. -/
def invoke (buf : List α) (o : CallbackOutcome) : Invoked α :=
  match buf with
  | [] => ⟨[], none, ["Error: Vector is empty"]⟩
  | m :: rest => ⟨if o = .returned then rest else m :: rest, some m, catchLog o⟩

/-- Whether `take_next_sample` gave a message the listener keeps. -/
def Sample.accepted (smp : Sample α) : Bool :=
  smp.retcode = .ok && smp.validData

/-- `SubscriberListener<T>::on_data_available` on `message_ptr_buffer_`: the buffer after,
    and whether the `SubscriptionCallback` was produced into the channel. -/
def onDataAvailable (buf : List α) (smp : Sample α) : List α × Bool :=
  if smp.accepted then (buf ++ [smp.data], true) else (buf, false)

/-- An invoke erases the front exactly when it found a message and the callback
    returned normally. -/
def Invoked.erased (r : Invoked α) (o : CallbackOutcome) : Bool :=
  r.passed.isSome && o = .returned

/-! ## §2. One subscription along a run. -/

/-- A subscription: `message_ptr_buffer_`, and how many of its entries are in the channel
    and not yet taken by the consumer. -/
structure SubscriptionState (α : Type) where
  messagePtrBuffer : List α
  produced : Nat
  deriving Repr, DecidableEq

/-- One event of a subscription's life. -/
inductive SubEvent (α : Type)
  /-- The transport calls `on_data_available`, and the take yields this sample. -/
  | dataAvailable (smp : Sample α)
  /-- The consumer takes one of this subscription's entries, if there is one, and runs
      `invoke()` on it; the user callback behaves as given. -/
  | dispatch (o : CallbackOutcome)
  deriving Repr, DecidableEq

/-- One invoke of a run: how the callback behaved and what was observed. -/
structure InvokeRecord (α : Type) where
  outcome : CallbackOutcome
  invoked : Invoked α
  deriving Repr, DecidableEq

namespace SubscriptionState

/-- A new subscription: empty buffer, no entries. -/
def init : SubscriptionState α := ⟨[], 0⟩

@[simp] theorem init_messagePtrBuffer : (init : SubscriptionState α).messagePtrBuffer = [] := rfl

@[simp] theorem init_produced : (init : SubscriptionState α).produced = 0 := rfl

/-- One event: the next state, and the invoke it ran, if any. -/
def step (s : SubscriptionState α) : SubEvent α → SubscriptionState α × Option (InvokeRecord α)
  | .dataAvailable smp =>
    (⟨(onDataAvailable s.messagePtrBuffer smp).1,
      s.produced + if (onDataAvailable s.messagePtrBuffer smp).2 then 1 else 0⟩, none)
  | .dispatch o =>
    if s.produced = 0 then (s, none)
    else (⟨(invoke s.messagePtrBuffer o).buffer, s.produced - 1⟩,
      some ⟨o, invoke s.messagePtrBuffer o⟩)

/-- The state after a run, and its invokes in order. -/
def run (s : SubscriptionState α) : List (SubEvent α) → SubscriptionState α × List (InvokeRecord α)
  | [] => (s, [])
  | e :: ρ =>
    ((s.step e).1.run ρ |>.1, (s.step e).2.toList ++ ((s.step e).1.run ρ).2)

end SubscriptionState

/-- The messages the listener accepted along a run, in delivery order. -/
def delivered : List (SubEvent α) → List α
  | [] => []
  | .dataAvailable smp :: ρ => (if smp.accepted then [smp.data] else []) ++ delivered ρ
  | .dispatch _ :: ρ => delivered ρ

/-- How many of these invokes erased the front of the buffer. -/
def erasures (tr : List (InvokeRecord α)) : Nat :=
  tr.countP fun r => r.invoked.erased r.outcome

/-! ## §3. The buffer along a run. -/

namespace SubscriptionState

@[simp] theorem run_nil (s : SubscriptionState α) : s.run [] = (s, []) := rfl

theorem run_cons (s : SubscriptionState α) (e : SubEvent α) (ρ : List (SubEvent α)) :
    s.run (e :: ρ) = (((s.step e).1.run ρ).1, (s.step e).2.toList ++ ((s.step e).1.run ρ).2) :=
  rfl

/-- The subscription invariant: at least as many buffered messages as entries in the
    channel. -/
def Inv (s : SubscriptionState α) : Prop := s.produced ≤ s.messagePtrBuffer.length

theorem delivered_cons (e : SubEvent α) (ρ : List (SubEvent α)) :
    delivered (e :: ρ) = delivered [e] ++ delivered ρ := by
  cases e <;> simp [delivered]

theorem erasures_append (tr tr' : List (InvokeRecord α)) :
    erasures (tr ++ tr') = erasures tr + erasures tr' := List.countP_append _ _ _

theorem erasures_cons (r : InvokeRecord α) (tr : List (InvokeRecord α)) :
    erasures (r :: tr) = erasures [r] + erasures tr := by
  rw [← erasures_append]; rfl

/-- **One step.** The buffer after, followed by anything, is the buffer before with the
    message the step delivered and that same suffix, minus the front if the step's invoke
    erased it; the invoke found a message and passed the front; entries produced or taken
    balance messages delivered; and the invariant is kept. -/
theorem step_spec {s : SubscriptionState α} (hs : s.Inv) (e : SubEvent α) :
    (∀ D, (s.step e).1.messagePtrBuffer ++ D =
        (s.messagePtrBuffer ++ delivered [e] ++ D).drop (erasures (s.step e).2.toList)) ∧
      (∀ r ∈ (s.step e).2, r.invoked.passed = s.messagePtrBuffer.head? ∧
        s.messagePtrBuffer ≠ []) ∧
      (s.step e).1.produced + (s.step e).2.toList.length =
        s.produced + (delivered [e]).length ∧
      (s.step e).1.Inv := by
  obtain ⟨buf, prod⟩ := s
  unfold Inv at hs ⊢
  simp only at hs
  cases e with
  | dataAvailable smp =>
    by_cases h : smp.accepted <;>
      simp [step, onDataAvailable, delivered, erasures, h] <;> omega
  | dispatch o =>
    by_cases hp : prod = 0
    · simp [step, hp, delivered, erasures]
    · obtain _ | ⟨m, rest⟩ := buf
      · simp at hs; omega
      · by_cases ho : o = .returned <;>
          simp [step, invoke, hp, delivered, erasures, Invoked.erased, ho] at hs ⊢ <;> omega

/-- **Every run.** From any state with the invariant: the buffer is the messages buffered
    before and delivered since, minus one front message per invoke whose callback returned
    normally; the `i`-th invoke passed the message of that sequence at the number of
    erasures before it; every invoke found a message; entries balance messages; and the
    invariant holds at the end. -/
theorem run_spec {s : SubscriptionState α} (hs : s.Inv) (ρ : List (SubEvent α)) :
    (s.run ρ).1.messagePtrBuffer =
        (s.messagePtrBuffer ++ delivered ρ).drop (erasures (s.run ρ).2) ∧
      (∀ i r, (s.run ρ).2[i]? = some r →
        r.invoked.passed = (s.messagePtrBuffer ++ delivered ρ)[erasures ((s.run ρ).2.take i)]?) ∧
      (∀ r ∈ (s.run ρ).2, r.invoked.passed.isSome) ∧
      (s.run ρ).1.produced + (s.run ρ).2.length = s.produced + (delivered ρ).length ∧
      (s.run ρ).1.Inv := by
  induction ρ generalizing s with
  | nil => simp [delivered, erasures, hs]
  | cons e ρ ih =>
    obtain ⟨hb₁, hp₁, hc₁, hinv₁⟩ := step_spec hs e
    obtain ⟨hb, hp, hsome, hc, hinv⟩ := ih hinv₁
    have hB : ∀ D, (s.step e).1.messagePtrBuffer ++ D =
        (s.messagePtrBuffer ++ (delivered [e] ++ D)).drop (erasures (s.step e).2.toList) := by
      intro D; rw [hb₁, List.append_assoc]
    rw [run_cons, delivered_cons]
    refine ⟨?_, ?_, ?_, ?_, hinv⟩
    · rw [hb, hB, List.drop_drop, erasures_append]
    · intro i r hi
      cases h₁ : (s.step e).2 with
      | none =>
        rw [h₁] at hB
        simp only [h₁, Option.toList_none, List.nil_append] at hi ⊢
        rw [hp i r hi, hB]; rfl
      | some r₁ =>
        obtain ⟨hpass, hne⟩ := hp₁ r₁ (by rw [h₁]; rfl)
        rw [h₁] at hB
        simp only [h₁, Option.toList_some, List.singleton_append] at hi ⊢
        cases i with
        | zero =>
          obtain rfl : r₁ = r := by simpa using hi
          obtain ⟨m, rest, hmr⟩ := List.exists_cons_of_ne_nil hne
          simp [hpass, hmr, erasures]
        | succ j =>
          rw [List.getElem?_cons_succ] at hi
          rw [hp j r hi, hB, List.getElem?_drop, List.take_succ_cons, erasures_cons]; rfl
    · intro r hr
      rcases List.mem_append.mp hr with hr | hr
      · obtain ⟨hpass, hne⟩ := hp₁ r (Option.mem_toList.mp hr)
        obtain ⟨m, rest, hmr⟩ := List.exists_cons_of_ne_nil hne
        simp [hpass, hmr]
      · exact hsome r hr
    · simp only [List.length_append] at hc₁ hc ⊢
      omega

/-- Two messages arrive; the first callback throws and the second returns. -/
def throwSchedule : List (SubEvent Nat) :=
  [.dataAvailable ⟨.ok, true, 1⟩, .dataAvailable ⟨.ok, true, 2⟩,
    .dispatch .threwOther, .dispatch .returned]

/-- **A throwing callback's message is passed again.** On `throwSchedule` both invokes
    pass message `1`, message `2` is never passed, and once both entries are taken the
    buffer still holds `2`. -/
theorem throw_passes_message_twice :
    (init.run throwSchedule).2.map (·.invoked.passed) = [some 1, some 1] ∧
      (init.run throwSchedule).1 = ⟨[2], 0⟩ := by
  decide

/-- The run invariant on `throwSchedule`, from a new subscription. -/
theorem run_spec_throwSchedule :
    (init : SubscriptionState Nat).Inv ∧
      ((init.run throwSchedule).1.messagePtrBuffer =
          ((init : SubscriptionState Nat).messagePtrBuffer ++ delivered throwSchedule).drop (erasures (init.run throwSchedule).2) ∧
        (∀ i r, (init.run throwSchedule).2[i]? = some r →
          r.invoked.passed = ((init : SubscriptionState Nat).messagePtrBuffer ++ delivered throwSchedule)[erasures
            ((init.run throwSchedule).2.take i)]?) ∧
        (∀ r ∈ (init.run throwSchedule).2, r.invoked.passed.isSome) ∧
        (init.run throwSchedule).1.produced + (init.run throwSchedule).2.length =
          (init : SubscriptionState Nat).produced + (delivered throwSchedule).length ∧
        (init.run throwSchedule).1.Inv) :=
  ⟨le_rfl, run_spec le_rfl throwSchedule⟩

end SubscriptionState

end RclLikeWrapper
