/-
  RclLikeWrapper.Subscription.Linearization
  ─────────────────────────────────────────
  **EVERY INTERLEAVING IS A SEQUENTIAL RUN OF WHOLE EVENTS.**

  `Subscription/Interleaving.lean` lets the transport thread's and the consuming thread's
  statements interleave in any order; `Subscription/Callback.lean` runs whole
  `on_data_available` and `invoke()` calls one after the other.  Here every interleaving
  is shown to be such a sequential run.  Each `on_data_available` that keeps its sample
  takes effect at its `emplace_back`, and each `invoke()` at the moment its user callback
  returns or throws.  Between those points the fine state stands for the per-subscription
  state `linAbs`: an entry whose `produce` is still to come, or whose invoke is under way,
  is still in the channel, and a front whose erase is pending is already gone.

  Main results:
    * `linAbs_step` — each step completes one per-subscription event or none, and the
      per-subscription step over it is what the fine step does;
    * `interleavings_are_linearizable` — on every interleaving from a new subscription,
      the per-subscription run over the events the steps completed, in order, leaves the
      state the fine state stands for, has written the same lines and has passed the
      callback the same messages (the one whose callback still runs aside), and its
      deliveries are exactly the messages appended.  What `run_spec` says of every run of
      the per-subscription model thus holds of every interleaving.
-/
import RclLikeWrapper.Subscription.Interleaving

namespace RclLikeWrapper

/-- The messages delivered by two runs one after the other. -/
theorem delivered_append {α : Type} (ρ ρ' : List (SubEvent α)) :
    delivered (ρ ++ ρ') = delivered ρ ++ delivered ρ' := by
  induction ρ with
  | nil => rfl
  | cons e ρ ih =>
    rw [List.cons_append, SubscriptionState.delivered_cons, ih,
      SubscriptionState.delivered_cons e ρ, List.append_assoc]

/-- Two runs one after the other: the state after both, and the invokes of both in order. -/
theorem SubscriptionState.run_append {α : Type} (s : SubscriptionState α)
    (ρ ρ' : List (SubEvent α)) :
    s.run (ρ ++ ρ') = (((s.run ρ).1.run ρ').1, (s.run ρ).2 ++ ((s.run ρ).1.run ρ').2) := by
  induction ρ generalizing s with
  | nil => simp
  | cons e ρ ih => simp [run_cons, ih]

namespace Interleaved

variable {α : Type}

/-! ## §1. The linearization points. -/

/-- The per-subscription event a step completes: an `emplace_back` completes the
    `on_data_available` whose sample it appends, and the end of a user callback completes
    its `invoke()`. -/
def eventOf (s : Interleaved α) : Action α → Option (SubEvent α)
  | .append =>
    match s.transport with
    | .sampled m => some (.dataAvailable ⟨.ok, true, m⟩)
    | _ => none
  | .callbackEnds o => if s.consumer = .calling then some (.dispatch o) else none
  | _ => none

/-- The events a run completes, in order. -/
def eventsIn : Interleaved α → List (Action α) → List (SubEvent α)
  | _, [] => []
  | s, a :: ρ => (s.eventOf a).toList ++ eventsIn (s.step a) ρ

/-- The per-subscription state a fine state stands for: a front whose erase is pending is
    gone, and an entry whose `produce` is still to come or whose invoke is under way is in
    the channel. -/
def linAbs (s : Interleaved α) : SubscriptionState α :=
  ⟨if s.consumer = .erasing then s.buffer.tail else s.buffer,
    s.produced + s.transport.unproduced +
      if s.consumer = .took ∨ s.consumer = .calling then 1 else 0⟩

/-- The message whose user callback is running, if one is. -/
def calledWith (s : Interleaved α) : List α :=
  if s.consumer = .calling then s.buffer.take 1 else []

/-- The deliveries of the completed events are the messages appended. -/
theorem delivered_eventsIn (s : Interleaved α) (ρ : List (Action α)) :
    delivered (s.eventsIn ρ) = s.appendedIn ρ := by
  induction ρ generalizing s with
  | nil => rfl
  | cons a ρ ih =>
    rw [eventsIn, appendedIn, delivered_append, ih]
    congr 1
    cases a with
    | append =>
      cases h : s.transport <;> simp [eventOf, appendedBy, h, delivered, Sample.accepted]
    | callbackEnds o =>
      by_cases hc : s.consumer = .calling <;> simp [eventOf, appendedBy, hc, delivered]
    | _ => rfl

/-! ## §2. Each step is one event or none. -/

/-- **One step.** From a state with the invariant, the per-subscription run over the event
    the step completes ends in the state the fine step's result stands for, writes what the
    fine step writes, and passes the callback what the fine step passes, the message whose
    callback runs accounted for. -/
theorem linAbs_step {s : Interleaved α} (h : s.Inv) (a : Action α) :
    (s.linAbs.run (s.eventOf a).toList).1 = (s.step a).linAbs ∧
      (s.step a).log = s.log ++ (s.linAbs.run (s.eventOf a).toList).2.flatMap (·.invoked.log) ∧
      s.calledWith ++ s.passedBy a =
        (s.linAbs.run (s.eventOf a).toList).2.filterMap (·.invoked.passed) ++
          (s.step a).calledWith := by
  obtain ⟨buf, prod, tr, co, log⟩ := s
  obtain ⟨hlen, -⟩ := h
  simp only [owed] at hlen
  have hne : co ≠ .idle → buf ≠ [] := by
    rintro hc rfl; simp [hc] at hlen
  cases a with
  | take smp =>
    cases tr <;> by_cases hs : smp.accepted <;>
      simp [step, eventOf, linAbs, passedBy, calledWith, hs, TransportPc.unproduced]
  | append =>
    cases tr with
    | sampled m =>
      obtain _ | ⟨x, xs⟩ := buf
      · obtain rfl : co = .idle := by by_contra hc; exact hne hc rfl
        simp [step, eventOf, linAbs, passedBy, calledWith, SubscriptionState.run_cons,
          SubscriptionState.step, onDataAvailable, Sample.accepted, TransportPc.unproduced]
      · cases co <;>
          simp [step, eventOf, linAbs, passedBy, calledWith, SubscriptionState.run_cons,
            SubscriptionState.step, onDataAvailable, Sample.accepted, TransportPc.unproduced]
    | _ => simp [step, eventOf, linAbs, passedBy, calledWith]
  | produce =>
    cases tr <;> simp [step, eventOf, linAbs, passedBy, calledWith, TransportPc.unproduced]
  | consume =>
    cases co <;> by_cases hp : prod = 0 <;>
      simp [step, eventOf, linAbs, passedBy, calledWith, hp]
    omega
  | test =>
    cases co with
    | took =>
      obtain _ | ⟨m, rest⟩ := buf
      · exact absurd rfl (hne (by simp))
      · simp [step, eventOf, linAbs, passedBy, calledWith]
    | _ => simp [step, eventOf, linAbs, passedBy, calledWith]
  | callbackEnds o =>
    cases co with
    | calling =>
      obtain _ | ⟨m, rest⟩ := buf
      · exact absurd rfl (hne (by simp))
      · by_cases ho : o = .returned <;>
          simp [step, eventOf, linAbs, passedBy, calledWith, SubscriptionState.run_cons,
            SubscriptionState.step, invoke, catchLog, ho]
    | _ => simp [step, eventOf, linAbs, passedBy, calledWith]
  | erase => cases co <;> simp [step, eventOf, linAbs, passedBy, calledWith]

/-- Along every run from a state with the invariant, the per-subscription run over the
    completed events keeps pace with the fine run. -/
theorem linAbs_steps {s : Interleaved α} (h : s.Inv) (ρ : List (Action α)) :
    (s.linAbs.run (s.eventsIn ρ)).1 = (s.steps ρ).linAbs ∧
      (s.steps ρ).log = s.log ++ (s.linAbs.run (s.eventsIn ρ)).2.flatMap (·.invoked.log) ∧
      s.calledWith ++ s.passedIn ρ =
        (s.linAbs.run (s.eventsIn ρ)).2.filterMap (·.invoked.passed) ++ (s.steps ρ).calledWith := by
  induction ρ generalizing s with
  | nil => simp [eventsIn, passedIn, steps]
  | cons a ρ ih =>
    obtain ⟨habs, hlog, hpass⟩ := linAbs_step h a
    obtain ⟨habs', hlog', hpass'⟩ := ih (inv_step h a)
    rw [eventsIn, SubscriptionState.run_append, habs]
    refine ⟨habs', ?_, ?_⟩
    · rw [List.flatMap_append, ← List.append_assoc, ← hlog]
      exact hlog'
    · rw [passedIn, ← List.append_assoc, hpass, List.append_assoc, hpass',
        List.filterMap_append, List.append_assoc]
      rfl

/-- **Every interleaving is linearizable.** For every interleaving of the transport
    thread's and the consuming thread's steps from a new subscription, callbacks that throw
    included: the per-subscription run, from a new subscription, over the events the steps
    completed, each `on_data_available` at its `emplace_back` and each `invoke()` at the end
    of its callback, leaves the state the fine state stands for; the lines its invokes
    wrote are the lines written; the messages its invokes passed, followed by the one whose
    callback still runs, are the messages passed; and the messages it delivered are the
    messages appended. -/
theorem interleavings_are_linearizable (ρ : List (Action α)) :
    (SubscriptionState.init.run (init.eventsIn ρ)).1 = (init.steps ρ).linAbs ∧
      (init.steps ρ).log =
        (SubscriptionState.init.run (init.eventsIn ρ)).2.flatMap (·.invoked.log) ∧
      init.passedIn ρ =
        (SubscriptionState.init.run (init.eventsIn ρ)).2.filterMap (·.invoked.passed) ++
          (init.steps ρ).calledWith ∧
      delivered (init.eventsIn ρ) = init.appendedIn ρ := by
  obtain ⟨habs, hlog, hpass⟩ := linAbs_steps inv_init ρ
  have h0 : (init : Interleaved α).linAbs = SubscriptionState.init := rfl
  rw [h0] at habs hlog hpass
  exact ⟨habs, by simpa [init] using hlog, by simpa [init, calledWith] using hpass,
    delivered_eventsIn init ρ⟩

/-- On `overlapSchedule` the second delivery's `emplace_back` comes while the first
    message's callback runs: it is linearized before that invoke, which ends later. -/
example : (init : Interleaved Nat).eventsIn overlapSchedule =
    [.dataAvailable ⟨.ok, true, 1⟩, .dataAvailable ⟨.ok, true, 2⟩, .dispatch .returned,
      .dispatch .returned] := rfl

end Interleaved

end RclLikeWrapper
