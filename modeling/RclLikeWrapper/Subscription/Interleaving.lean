/-
  RclLikeWrapper.Subscription.Interleaving
  ────────────────────────────────────────
  **THE TRANSPORT THREAD AGAINST THE CONSUMING THREAD, STATEMENT BY STATEMENT.**

  `on_data_available` runs on the transport's thread and `invoke()` on the thread that
  drains the node's channel, with nothing between them but the channel.  Here each vector
  or channel operation is one atomic step:

      transport:  take_next_sample + check  ·  emplace_back  ·  channel_.produce
      consumer:   take an entry  ·  empty() test  ·  callback returns or throws  ·  erase(begin())

  and a run is any interleaving of the two threads' steps (steps of other subscriptions do
  not touch this one).  A step that its thread is not ready for leaves the state as it is.

  Main results:
    * `steps_inv` / `never_vector_empty` — in every reachable state the buffer holds at
      least as many messages as this subscription's entries whose invoke has not yet passed
      its emptiness test, so "Error: Vector is empty" is never logged;
    * `steps_actionsOf` — run one event at a time, the fine model computes exactly the
      per-subscription model of `Subscription/Callback.lean` (buffer, entries and log),
      with both threads idle again;
    * `fifo_over_interleavings` — on every interleaving whose callbacks all return, the
      messages passed to the callback followed by those still waiting are exactly the
      messages appended, and at rest the buffer is empty;
    * `no_message_lost` — on every interleaving, throwing callbacks included, every appended
      message is still buffered or was erased, and was passed to the callback before its
      erase;
    * `throwing_callbacks_strand_messages` — on every interleaving the buffer holds one
      message per owed entry, per message not yet produced and per callback that threw, so
      at rest it holds exactly the last messages appended, one per throw.
-/
import RclLikeWrapper.Subscription.Callback

namespace RclLikeWrapper

/-! ## §1. The two threads' positions and steps. -/

/-- Where the transport thread stands in `on_data_available`. -/
inductive TransportPc (α : Type)
  /-- Outside `on_data_available`. -/
  | idle
  /-- Took a sample that passed the check; `emplace_back` comes next. -/
  | sampled (m : α)
  /-- Appended; `channel_.produce` comes next. -/
  | appended
  deriving Repr, DecidableEq

/-- A message appended whose entry is not produced yet. -/
def TransportPc.unproduced {α : Type} : TransportPc α → Nat
  | .appended => 1
  | _ => 0

/-- Where the consuming thread stands with respect to this subscription. -/
inductive ConsumerPc
  /-- Not in this subscription's `invoke()`. -/
  | idle
  /-- Took one of its entries; the `empty()` test comes next. -/
  | took
  /-- The test passed; the user callback runs on the front. -/
  | calling
  /-- The callback returned; `erase(begin())` comes next. -/
  | erasing
  deriving Repr, DecidableEq

/-- One subscription's buffer and channel entries, the two threads' positions, and the
    lines written to `std::cerr` by `invoke()`. -/
structure Interleaved (α : Type) where
  buffer : List α
  produced : Nat
  transport : TransportPc α
  consumer : ConsumerPc
  log : List String
  deriving Repr, DecidableEq

/-- One atomic step of one of the two threads. -/
inductive Action (α : Type)
  /-- Transport: `take_next_sample` yields this sample, and the check on it. -/
  | take (smp : Sample α)
  /-- Transport: `message_ptr_buffer_.emplace_back(data_ptr)`. -/
  | append
  /-- Transport: `channel_.produce(subscription_callback_.get())`. -/
  | produce
  /-- Consumer: takes one of this subscription's entries from the channel. -/
  | consume
  /-- Consumer: `!message_buffer_->empty()`. -/
  | test
  /-- Consumer: the user callback ends, returning or throwing. -/
  | callbackEnds (o : CallbackOutcome)
  /-- Consumer: `message_buffer_->erase(message_buffer_->begin())`. -/
  | erase
  deriving Repr, DecidableEq

namespace Interleaved

variable {α : Type}

/-- A new subscription, both threads elsewhere. -/
def init : Interleaved α := ⟨[], 0, .idle, .idle, []⟩

/-- One step. -/
def step (s : Interleaved α) : Action α → Interleaved α
  | .take smp =>
    match s.transport with
    | .idle => if smp.accepted then { s with transport := .sampled smp.data } else s
    | _ => s
  | .append =>
    match s.transport with
    | .sampled m => { s with buffer := s.buffer ++ [m], transport := .appended }
    | _ => s
  | .produce =>
    match s.transport with
    | .appended => { s with produced := s.produced + 1, transport := .idle }
    | _ => s
  | .consume =>
    match s.consumer with
    | .idle => if s.produced = 0 then s else { s with produced := s.produced - 1, consumer := .took }
    | _ => s
  | .test =>
    match s.consumer with
    | .took =>
      if s.buffer.isEmpty then
        { s with consumer := .idle, log := s.log ++ ["Error: Vector is empty"] }
      else { s with consumer := .calling }
    | _ => s
  | .callbackEnds o =>
    match s.consumer with
    | .calling =>
      if o = .returned then { s with consumer := .erasing }
      else { s with consumer := .idle, log := s.log ++ catchLog o }
    | _ => s
  | .erase =>
    match s.consumer with
    | .erasing => { s with buffer := s.buffer.tail, consumer := .idle }
    | _ => s

/-- The state after an interleaving. -/
def steps (s : Interleaved α) (ρ : List (Action α)) : Interleaved α :=
  ρ.foldl step s

/-! ## §2. The buffer never runs short. -/

/-- The empty branch's text is none of the `catch` clauses' texts. -/
theorem vectorEmpty_not_mem_catchLog (o : CallbackOutcome) :
    "Error: Vector is empty" ∉ catchLog o := by
  cases o with
  | returned => simp [catchLog]
  | threwException w =>
    simp only [catchLog, List.mem_singleton]
    intro h
    have h2 := congrArg (fun s => (String.toList s).take 2) h
    simp [String.toList] at h2
  | threwOther => simp [catchLog]

/-- This subscription's entries whose invoke has not yet passed its emptiness test. -/
def untested (s : Interleaved α) : Nat :=
  s.produced + if s.consumer = .took then 1 else 0

/-- Entries the consumer still owes a message to: those not yet tested, and the one whose
    callback runs or whose erase is pending. -/
def owed (s : Interleaved α) : Nat :=
  s.produced + if s.consumer = .idle then 0 else 1

/-- The invariant: the buffer covers every owed entry and the message the transport has
    appended but not yet produced an entry for; and the empty branch was never taken. -/
def Inv (s : Interleaved α) : Prop :=
  s.owed + s.transport.unproduced ≤ s.buffer.length ∧
    "Error: Vector is empty" ∉ s.log

theorem inv_init : (init : Interleaved α).Inv := by
  simp [Inv, init, owed, TransportPc.unproduced]

/-- **One step keeps the invariant.** -/
theorem inv_step {s : Interleaved α} (h : s.Inv) (a : Action α) : (s.step a).Inv := by
  obtain ⟨buf, prod, tr, co, log⟩ := s
  obtain ⟨hlen, hlog⟩ := h
  simp only [owed] at hlen hlog
  cases a with
  | take smp =>
    cases tr <;> by_cases hs : smp.accepted <;> simp_all [step, Inv, owed, TransportPc.unproduced]
  | append => cases tr <;> simp_all [step, Inv, owed, TransportPc.unproduced]
  | produce => cases tr <;> simp_all [step, Inv, owed, TransportPc.unproduced]; omega
  | consume =>
    cases co <;> by_cases hp : prod = 0 <;> simp_all [step, Inv, owed]
    omega
  | test =>
    cases co <;> simp_all [step, Inv, owed]
    obtain _ | ⟨m, rest⟩ := buf
    · simp at hlen
    · simp_all
  | callbackEnds o =>
    cases co <;> by_cases ho : o = .returned <;> simp_all [step, Inv, owed]
    exact ⟨by omega, vectorEmpty_not_mem_catchLog o⟩
  | erase =>
    cases co <;> simp_all [step, Inv, owed]
    omega

theorem steps_inv {s : Interleaved α} (h : s.Inv) (ρ : List (Action α)) : (s.steps ρ).Inv := by
  induction ρ generalizing s with
  | nil => exact h
  | cons a ρ ih => exact ih (inv_step h a)

/-- **The "Error: Vector is empty" branch is never taken.** In every state reachable from
    a new subscription, by any interleaving of the transport thread's and the consuming
    thread's steps with callbacks returning or throwing, the buffer holds at least as many
    messages as this subscription's entries whose invoke has not yet passed its emptiness
    test, and the empty branch has never logged. -/
theorem never_vector_empty (ρ : List (Action α)) :
    (init.steps ρ).untested ≤ (init.steps ρ).buffer.length ∧
      "Error: Vector is empty" ∉ (init.steps ρ).log := by
  obtain ⟨hlen, hlog⟩ := steps_inv inv_init ρ
  refine ⟨?_, hlog⟩
  unfold untested
  unfold owed at hlen
  split <;> split at hlen <;> simp_all <;> omega

/-! ## §3. Unbroken events are the per-subscription model. -/

/-- The steps that carry out one event of the per-subscription model, unbroken. -/
def actionsOf : SubEvent α → List (Action α)
  | .dataAvailable smp => [.take smp, .append, .produce]
  | .dispatch o => [.consume, .test, .callbackEnds o, .erase]

/-- The per-subscription state a fine state stands for. -/
def abstract (s : Interleaved α) : SubscriptionState α := ⟨s.buffer, s.produced⟩

theorem steps_append (s : Interleaved α) (ρ ρ' : List (Action α)) :
    s.steps (ρ ++ ρ') = (s.steps ρ).steps ρ' := List.foldl_append _ _ _ _

/-- **One event.** From a state where both threads are outside this subscription's code,
    the event's steps end there again, in the state the per-subscription step computes,
    having logged what its invoke logged. -/
theorem steps_actionsOf_one {s : Interleaved α} (hs : s.transport = .idle)
    (hc : s.consumer = .idle) (e : SubEvent α) :
    (s.steps (actionsOf e)).transport = .idle ∧ (s.steps (actionsOf e)).consumer = .idle ∧
      (s.steps (actionsOf e)).abstract = (s.abstract.step e).1 ∧
      (s.steps (actionsOf e)).log =
        s.log ++ ((s.abstract.step e).2.map (·.invoked.log)).getD [] := by
  obtain ⟨buf, prod, tr, co, log⟩ := s
  simp only at hs hc
  subst hs hc
  cases e with
  | dataAvailable smp =>
    by_cases h : smp.accepted <;>
      simp [steps, step, actionsOf, abstract, SubscriptionState.step, onDataAvailable, h]
  | dispatch o =>
    by_cases hp : prod = 0
    · simp [steps, step, actionsOf, abstract, SubscriptionState.step, hp]
    · obtain _ | ⟨m, rest⟩ := buf <;> by_cases ho : o = .returned <;>
        simp [steps, step, actionsOf, abstract, SubscriptionState.step, invoke, catchLog, hp, ho]

/-- **The fine model refines the per-subscription model.** Running the events of any run
    one after another, each unbroken, leaves the fine model in the state the
    per-subscription run computes, with both threads idle and the log of all its
    invokes. -/
theorem steps_actionsOf {s : Interleaved α} (hs : s.transport = .idle)
    (hc : s.consumer = .idle) (ρ : List (SubEvent α)) :
    (s.steps (ρ.flatMap actionsOf)).transport = .idle ∧
      (s.steps (ρ.flatMap actionsOf)).consumer = .idle ∧
      (s.steps (ρ.flatMap actionsOf)).abstract = (s.abstract.run ρ).1 ∧
      (s.steps (ρ.flatMap actionsOf)).log =
        s.log ++ (s.abstract.run ρ).2.flatMap (·.invoked.log) := by
  induction ρ generalizing s with
  | nil => simp [steps, abstract, hs, hc]
  | cons e ρ ih =>
    obtain ⟨ht, hc', habs, hlog⟩ := steps_actionsOf_one hs hc e
    obtain ⟨ht', hc'', habs', hlog'⟩ := ih ht hc'
    rw [List.flatMap_cons, steps_append, SubscriptionState.run_cons, ← habs]
    refine ⟨ht', hc'', habs', ?_⟩
    rw [hlog', hlog, habs, List.flatMap_append, List.append_assoc]
    cases (s.abstract.step e).2 <;> simp

/-- The refinement on `throwSchedule`, from a new subscription. -/
theorem steps_actionsOf_throwSchedule :
    (init : Interleaved Nat).transport = .idle ∧ (init : Interleaved Nat).consumer = .idle ∧
      ((init.steps (SubscriptionState.throwSchedule.flatMap actionsOf)).transport = .idle ∧
        (init.steps (SubscriptionState.throwSchedule.flatMap actionsOf)).consumer = .idle ∧
        (init.steps (SubscriptionState.throwSchedule.flatMap actionsOf)).abstract =
          ((init : Interleaved Nat).abstract.run SubscriptionState.throwSchedule).1 ∧
        (init.steps (SubscriptionState.throwSchedule.flatMap actionsOf)).log =
          (init : Interleaved Nat).log ++
            ((init : Interleaved Nat).abstract.run SubscriptionState.throwSchedule).2.flatMap
              (·.invoked.log)) :=
  ⟨rfl, rfl, steps_actionsOf rfl rfl _⟩

/-! ## §4. First in, first out, over every interleaving. -/

/-- The message a step appends to the buffer: the sample the transport holds, at its
    `emplace_back`. -/
def appendedBy (s : Interleaved α) : Action α → List α
  | .append =>
    match s.transport with
    | .sampled m => [m]
    | _ => []
  | _ => []

/-- The message a step passes to the user callback: the front, at an emptiness test that
    finds the buffer non-empty. -/
def passedBy (s : Interleaved α) : Action α → List α
  | .test =>
    match s.consumer, s.buffer with
    | .took, m :: _ => [m]
    | _, _ => []
  | _ => []

/-- The messages appended along a run, in order. -/
def appendedIn : Interleaved α → List (Action α) → List α
  | _, [] => []
  | s, a :: ρ => s.appendedBy a ++ appendedIn (s.step a) ρ

/-- The messages passed to the user callback along a run, in order. -/
def passedIn : Interleaved α → List (Action α) → List α
  | _, [] => []
  | s, a :: ρ => s.passedBy a ++ passedIn (s.step a) ρ

/-- The buffered messages the callback has not been passed yet: all of them, except the
    front while its callback runs or its erase is pending. -/
def waiting (s : Interleaved α) : List α :=
  if s.consumer = .calling ∨ s.consumer = .erasing then s.buffer.drop 1 else s.buffer

/-- The invariant of runs whose callbacks all return, from messages `appended` and
    `passed` so far: the buffer holds exactly one message per owed entry and per message
    appended but not yet produced, and what was passed, followed by what is waiting, is
    what was appended. -/
structure FifoInv (s : Interleaved α) (appended passed : List α) : Prop where
  counted : s.buffer.length = s.owed + s.transport.unproduced
  passed_waiting : passed ++ s.waiting = appended

theorem fifoInv_iff {s : Interleaved α} {A P : List α} :
    s.FifoInv A P ↔ s.buffer.length = s.owed + s.transport.unproduced ∧ P ++ s.waiting = A :=
  ⟨fun h => ⟨h.1, h.2⟩, fun h => ⟨h.1, h.2⟩⟩

/-- **One step keeps the FIFO invariant**, unless it is a callback that throws. -/
theorem fifoInv_step {s : Interleaved α} {A P : List α} (h : s.FifoInv A P) {a : Action α}
    (ha : ∀ o, a = .callbackEnds o → o = .returned) :
    (s.step a).FifoInv (A ++ s.appendedBy a) (P ++ s.passedBy a) := by
  obtain ⟨buf, prod, tr, co, log⟩ := s
  obtain ⟨hcount, hpw⟩ := h
  simp only [owed] at hcount
  subst hpw
  cases a with
  | take smp =>
    cases tr <;> by_cases hs : smp.accepted <;>
      simp_all [fifoInv_iff, step, appendedBy, passedBy, owed, waiting, TransportPc.unproduced]
  | append =>
    cases tr with
    | sampled m =>
      have hne : co = .calling ∨ co = .erasing → buf ≠ [] := by
        rintro (rfl | rfl) rfl <;> simp [TransportPc.unproduced] at hcount
      refine ⟨by simp_all [step, owed, TransportPc.unproduced], ?_⟩
      by_cases hc : co = .calling ∨ co = .erasing
      · obtain ⟨x, xs, rfl⟩ := List.exists_cons_of_ne_nil (hne hc)
        simp [step, appendedBy, passedBy, waiting, hc]
      · simp [step, appendedBy, passedBy, waiting, hc]
    | _ => simp_all [fifoInv_iff, step, appendedBy, passedBy, owed]
  | produce =>
    cases tr with
    | appended =>
      simp_all [fifoInv_iff, step, appendedBy, passedBy, owed, waiting, TransportPc.unproduced]
      omega
    | _ => simp_all [fifoInv_iff, step, appendedBy, passedBy, owed]
  | consume =>
    cases co <;> by_cases hp : prod = 0 <;>
      simp_all [fifoInv_iff, step, appendedBy, passedBy, owed, waiting]
    omega
  | test =>
    cases co with
    | took =>
      obtain _ | ⟨m, rest⟩ := buf
      · simp only [List.length_nil, if_neg (show ConsumerPc.took ≠ .idle by decide)] at hcount
        omega
      · simp_all [fifoInv_iff, step, appendedBy, passedBy, owed, waiting]
    | _ => simp_all [fifoInv_iff, step, appendedBy, passedBy, owed]
  | callbackEnds o =>
    obtain rfl := ha o rfl
    cases co <;> simp_all [fifoInv_iff, step, appendedBy, passedBy, owed, waiting]
  | erase =>
    cases co with
    | erasing =>
      obtain _ | ⟨m, rest⟩ := buf
      · simp only [List.length_nil, if_neg (show ConsumerPc.erasing ≠ .idle by decide)] at hcount
        omega
      · simp_all [fifoInv_iff, step, appendedBy, passedBy, owed, waiting]
        omega
    | _ => simp_all [fifoInv_iff, step, appendedBy, passedBy, owed]

/-- Along a run whose callbacks all return, the FIFO invariant holds throughout. -/
theorem fifoInv_steps {s : Interleaved α} {A P : List α} (h : s.FifoInv A P)
    {ρ : List (Action α)} (hρ : ∀ o, Action.callbackEnds o ∈ ρ → o = .returned) :
    (s.steps ρ).FifoInv (A ++ s.appendedIn ρ) (P ++ s.passedIn ρ) := by
  induction ρ generalizing s A P with
  | nil => simpa [appendedIn, passedIn] using h
  | cons a ρ ih =>
    have ha : ∀ o, a = .callbackEnds o → o = .returned :=
      fun o e => hρ o (e ▸ List.mem_cons_self a ρ)
    have := ih (fifoInv_step h ha) fun o ho => hρ o (List.mem_cons_of_mem a ho)
    simpa [appendedIn, passedIn, steps] using this

/-- **First in, first out, over every interleaving.** On every interleaving of the
    transport thread's and the consuming thread's steps, from a new subscription, in which
    every user callback returns normally: the messages passed to the callback, followed by
    the buffered messages not yet passed, are exactly the messages appended, in order (none
    passed twice, none skipped); and once both threads are idle and every produced entry
    is taken, the buffer is empty and every appended message has been passed. -/
theorem fifo_over_interleavings (ρ : List (Action α))
    (hρ : ∀ o, Action.callbackEnds o ∈ ρ → o = .returned) :
    init.passedIn ρ ++ (init.steps ρ).waiting = init.appendedIn ρ ∧
      ((init.steps ρ).produced = 0 → (init.steps ρ).consumer = .idle →
        (init.steps ρ).transport = .idle →
        (init.steps ρ).buffer = [] ∧ init.passedIn ρ = init.appendedIn ρ) := by
  have h0 : (init : Interleaved α).FifoInv [] [] := ⟨rfl, rfl⟩
  obtain ⟨hcount, hpw⟩ := fifoInv_steps h0 hρ
  simp only [List.nil_append] at hpw
  refine ⟨hpw, fun hp hc ht => ?_⟩
  have hbuf : (init.steps ρ).buffer = [] := by
    simpa [owed, hp, hc, ht, TransportPc.unproduced] using hcount
  refine ⟨hbuf, ?_⟩
  simpa [waiting, hc, hbuf] using hpw

/-- Two deliveries, the second taken and appended while the first message's callback runs;
    both callbacks return. -/
def overlapSchedule : List (Action Nat) :=
  [.take ⟨.ok, true, 1⟩, .append, .produce, .consume, .test, .take ⟨.ok, true, 2⟩, .append,
    .callbackEnds .returned, .produce, .erase, .consume, .test, .callbackEnds .returned, .erase]

/-- FIFO on `overlapSchedule`: both messages passed, in order, and the buffer drained. -/
theorem fifo_over_interleavings_overlap :
    (∀ o, Action.callbackEnds o ∈ overlapSchedule → o = .returned) ∧
      (init.passedIn overlapSchedule ++ (init.steps overlapSchedule).waiting =
          init.appendedIn overlapSchedule ∧
        ((init.steps overlapSchedule).produced = 0 → (init.steps overlapSchedule).consumer = .idle →
          (init.steps overlapSchedule).transport = .idle →
          (init.steps overlapSchedule).buffer = [] ∧
            init.passedIn overlapSchedule = init.appendedIn overlapSchedule)) := by
  have h : ∀ o, Action.callbackEnds o ∈ overlapSchedule → o = .returned := by
    intro o ho
    simp only [overlapSchedule, List.mem_cons, Action.callbackEnds.injEq, reduceCtorEq,
      false_or, or_false, List.mem_nil_iff] at ho
    rcases ho with rfl | rfl <;> rfl
  exact ⟨h, fifo_over_interleavings overlapSchedule h⟩

example : (init : Interleaved Nat).passedIn overlapSchedule = [1, 2] := rfl

/-! ## §5. No message is lost, throwing callbacks included. -/

/-- The message a step erases: the front, at `erase(begin())`. -/
def erasedBy (s : Interleaved α) : Action α → List α
  | .erase =>
    match s.consumer, s.buffer with
    | .erasing, m :: _ => [m]
    | _, _ => []
  | _ => []

/-- The messages erased along a run, in order. -/
def erasedIn : Interleaved α → List (Action α) → List α
  | _, [] => []
  | s, a :: ρ => s.erasedBy a ++ erasedIn (s.step a) ρ

/-- What a step erases, followed by the buffer after it, is the buffer before it followed by
    what the step appends: no step drops a message or adds one unaccounted for. -/
theorem erasedBy_append_buffer (s : Interleaved α) (a : Action α) :
    s.erasedBy a ++ (s.step a).buffer = s.buffer ++ s.appendedBy a := by
  obtain ⟨buf, prod, tr, co, log⟩ := s
  cases a with
  | take smp => cases tr <;> by_cases hs : smp.accepted <;> simp [step, hs, erasedBy, appendedBy]
  | append | produce => cases tr <;> simp [step, erasedBy, appendedBy]
  | consume => cases co <;> by_cases hp : prod = 0 <;> simp [step, hp, erasedBy, appendedBy]
  | test => cases co <;> by_cases hb : buf.isEmpty <;> simp [step, hb, erasedBy, appendedBy]
  | callbackEnds o =>
    cases co <;> by_cases ho : o = .returned <;> simp [step, ho, erasedBy, appendedBy]
  | erase => cases co <;> obtain _ | ⟨m, rest⟩ := buf <;> simp [step, erasedBy, appendedBy]

/-- The front while its callback runs or its erase is pending: passed, not yet erased. -/
def inCallback (s : Interleaved α) : List α :=
  if s.consumer = .calling ∨ s.consumer = .erasing then s.buffer.take 1 else []

/-- The invariant of every run, from messages `appended`, `passed` and `erased` so far: what
    was appended is what was erased followed by the buffer, and what was erased, followed by
    the front whose callback runs, was passed to the callback, in that order. -/
structure NoLossInv (s : Interleaved α) (appended passed erased : List α) : Prop where
  conserved : appended = erased ++ s.buffer
  erased_passed : (erased ++ s.inCallback).Sublist passed

/-- **One step keeps the no-loss invariant**, throwing callbacks included. -/
theorem noLossInv_step {s : Interleaved α} {A P E : List α} (h : s.NoLossInv A P E)
    (hi : s.Inv) (a : Action α) :
    (s.step a).NoLossInv (A ++ s.appendedBy a) (P ++ s.passedBy a) (E ++ s.erasedBy a) := by
  refine ⟨by rw [h.conserved, List.append_assoc, ← erasedBy_append_buffer, List.append_assoc], ?_⟩
  obtain ⟨buf, prod, tr, co, log⟩ := s
  have hEP := h.erased_passed
  obtain ⟨hlen, -⟩ := hi
  simp only [owed] at hlen
  have hne : co ≠ .idle → buf ≠ [] := by
    rintro hc rfl; simp [hc] at hlen
  cases a with
  | take smp =>
    cases tr <;> by_cases hs : smp.accepted <;>
      simpa [step, hs, passedBy, erasedBy, inCallback] using hEP
  | append =>
    cases tr with
    | sampled m =>
      by_cases hc : co = .calling ∨ co = .erasing
      · obtain ⟨x, xs, rfl⟩ := List.exists_cons_of_ne_nil (hne (by rcases hc with rfl | rfl <;> simp))
        simpa [step, passedBy, erasedBy, inCallback, hc] using hEP
      · simpa [step, passedBy, erasedBy, inCallback, hc] using hEP
    | _ => simpa [step, passedBy, erasedBy, inCallback] using hEP
  | produce => cases tr <;> simpa [step, passedBy, erasedBy, inCallback] using hEP
  | consume =>
    cases co <;> by_cases hp : prod = 0 <;>
      simpa [step, hp, passedBy, erasedBy, inCallback] using hEP
  | test =>
    cases co with
    | took =>
      obtain _ | ⟨m, rest⟩ := buf
      · simpa [step, passedBy, erasedBy, inCallback] using hEP
      · simpa [step, passedBy, erasedBy, inCallback] using hEP.append_right [m]
    | _ => simpa [step, passedBy, erasedBy, inCallback] using hEP
  | callbackEnds o =>
    cases co with
    | calling =>
      by_cases ho : o = .returned
      · simpa [step, ho, passedBy, erasedBy, inCallback] using hEP
      · simpa [step, ho, passedBy, erasedBy, inCallback] using
          (List.sublist_append_left E _).trans hEP
    | _ => simpa [step, passedBy, erasedBy, inCallback] using hEP
  | erase =>
    cases co with
    | erasing =>
      obtain _ | ⟨m, rest⟩ := buf
      · exact absurd rfl (hne (by simp))
      · simpa [step, passedBy, erasedBy, inCallback] using hEP
    | _ => simpa [step, passedBy, erasedBy, inCallback] using hEP

/-- Along every run from a reachable state the no-loss invariant holds throughout. -/
theorem noLossInv_steps {s : Interleaved α} {A P E : List α} (h : s.NoLossInv A P E)
    (hi : s.Inv) (ρ : List (Action α)) :
    (s.steps ρ).NoLossInv (A ++ s.appendedIn ρ) (P ++ s.passedIn ρ) (E ++ s.erasedIn ρ) := by
  induction ρ generalizing s A P E with
  | nil => simpa [appendedIn, passedIn, erasedIn] using h
  | cons a ρ ih =>
    simpa [appendedIn, passedIn, erasedIn, steps] using
      ih (noLossInv_step h hi a) (inv_step hi a)

/-- **No message is lost, over every interleaving.** On every interleaving of the two
    threads' steps from a new subscription, callbacks that throw included: the messages
    appended are the messages erased, in order, followed by those still buffered; and the
    messages erased were passed to the user callback first, in the same order. -/
theorem no_message_lost (ρ : List (Action α)) :
    init.appendedIn ρ = init.erasedIn ρ ++ (init.steps ρ).buffer ∧
      (init.erasedIn ρ).Sublist (init.passedIn ρ) := by
  have h0 : (init : Interleaved α).NoLossInv [] [] [] := ⟨rfl, by simp [inCallback, init]⟩
  obtain ⟨hA, hEP⟩ := noLossInv_steps h0 inv_init ρ
  simp only [List.nil_append] at hA hEP
  exact ⟨hA, (List.sublist_append_left _ _).trans hEP⟩


/-! ## §6. Each callback that throws strands one message. -/

/-- A callback that throws: the consumer leaves `invoke()` with the front still buffered. -/
def thrownBy (s : Interleaved α) : Action α → Nat
  | .callbackEnds o => if s.consumer = .calling ∧ o ≠ .returned then 1 else 0
  | _ => 0

/-- The callbacks that threw along a run. -/
def thrownIn : Interleaved α → List (Action α) → Nat
  | _, [] => 0
  | s, a :: ρ => s.thrownBy a + thrownIn (s.step a) ρ

/-- **One step keeps the count**: the buffer holds one message per owed entry, one per
    message appended and not yet produced, and one per callback that threw. -/
theorem buffer_length_step {s : Interleaved α} {k : Nat}
    (h : s.buffer.length = s.owed + s.transport.unproduced + k) (a : Action α) :
    (s.step a).buffer.length =
      (s.step a).owed + (s.step a).transport.unproduced + (k + s.thrownBy a) := by
  obtain ⟨buf, prod, tr, co, log⟩ := s
  simp only [owed] at h
  cases a with
  | take smp =>
    cases tr <;> by_cases hs : smp.accepted <;>
      simp_all [step, owed, thrownBy, TransportPc.unproduced]
  | append | produce =>
    cases tr <;> simp_all [step, owed, thrownBy, TransportPc.unproduced]
    omega
  | consume =>
    cases co <;> by_cases hp : prod = 0 <;> simp_all [step, owed, thrownBy]
    omega
  | test =>
    cases co with
    | took =>
      obtain _ | ⟨m, rest⟩ := buf
      · simp at h; omega
      · simpa [step, owed, thrownBy] using h
    | _ => simpa [step, owed, thrownBy] using h
  | callbackEnds o =>
    cases co <;> by_cases ho : o = .returned <;> simp_all [step, owed, thrownBy]
    omega
  | erase =>
    cases co <;> simp_all [step, owed, thrownBy]
    omega

/-- Along every run the count holds throughout, the callbacks that threw added up. -/
theorem buffer_length_steps {s : Interleaved α} {k : Nat}
    (h : s.buffer.length = s.owed + s.transport.unproduced + k) (ρ : List (Action α)) :
    (s.steps ρ).buffer.length =
      (s.steps ρ).owed + (s.steps ρ).transport.unproduced + (k + s.thrownIn ρ) := by
  induction ρ generalizing s k with
  | nil => simpa [thrownIn] using h
  | cons a ρ ih =>
    have := ih (buffer_length_step h a)
    rw [Nat.add_assoc k] at this
    exact this

/-- **Each callback that throws strands one message.** On every interleaving of the two
    threads' steps from a new subscription, the buffer holds one message per entry still
    owed, one per message appended and not yet produced, and one per callback that threw;
    so whenever both threads are idle and no entry is left, the buffer holds exactly the
    last `k` messages appended, `k` the number of callbacks that threw so far: the backlog
    the throws leave is never drained. -/
theorem throwing_callbacks_strand_messages (ρ : List (Action α)) :
    (init.steps ρ).buffer.length =
        (init.steps ρ).owed + (init.steps ρ).transport.unproduced + init.thrownIn ρ ∧
      ((init.steps ρ).produced = 0 → (init.steps ρ).consumer = .idle →
        (init.steps ρ).transport = .idle →
        (init.steps ρ).buffer =
          (init.appendedIn ρ).drop ((init.appendedIn ρ).length - init.thrownIn ρ)) := by
  have hlen := buffer_length_steps (s := init) (k := 0)
    (by simp [init, owed, TransportPc.unproduced]) ρ
  rw [Nat.zero_add] at hlen
  refine ⟨hlen, fun hp hc ht => ?_⟩
  have h0 : (init : Interleaved α).NoLossInv [] [] [] := ⟨rfl, by simp [inCallback, init]⟩
  obtain ⟨hA, -⟩ := noLossInv_steps h0 inv_init ρ
  simp only [List.nil_append] at hA
  have hk : (init.steps ρ).buffer.length = init.thrownIn ρ := by
    simpa [owed, hp, hc, ht, TransportPc.unproduced] using hlen
  rw [hA, List.length_append, hk, Nat.add_sub_cancel, List.drop_left]

/-- Two deliveries; the first invoke's callback throws and the second's returns: the
    second invoke is passed message `1` again and erases it, and message `2`, appended
    last, is the one left behind. -/
example : ((init : Interleaved Nat).steps
    [.take ⟨.ok, true, 1⟩, .append, .produce, .take ⟨.ok, true, 2⟩, .append, .produce,
      .consume, .test, .callbackEnds .threwOther, .consume, .test, .callbackEnds .returned,
      .erase]).buffer = [2] := rfl

end Interleaved

end RclLikeWrapper
