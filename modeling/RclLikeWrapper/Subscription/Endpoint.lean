/-
  RclLikeWrapper.Subscription.Endpoint
  ────────────────────────────────────
  **`Subscriber<T>`'S CONSTRUCTOR AND DESTRUCTOR: THE DDS ENTITIES IT BINDS AND RELEASES.**

  The constructor registers the message type with the participant, binds `topic_` to the
  topic `lookup_topicdescription` finds or else to a newly created one, then creates a DDS
  subscriber and a data reader with the listener attached.  Each creation may return a null
  pointer; on each failure the constructor deletes by hand what it has bound so far and
  throws.  The destructor deletes the reader, the subscriber and the topic, each when
  non-null.

  The participant lies outside the sources: its answers are an input (`ParticipantReplies`),
  and what the constructor and the destructor do is the list of calls they make, each with
  what it returned (`DdsCall`).  Over that faithful layer sits the generic program the
  hand-written failure paths implement, `acquireAll`: run the stages in order, and at the
  first failure release everything bound so far, most recent first.

  Main results:
    * `subscriberConstruct_refines` — the constructor is `acquireAll` over its three stages,
      behind the type registration;
    * `subscriberConstruct_failures` — at most one of its calls fails, and it throws exactly
      that call's text; a topic the lookup does not find is no failure;
    * `subscriber_lifecycle_bracketed` — over every reply pattern, a construction (followed
      by the destruction when it returned) binds, then releases exactly what it bound in the
      reverse order: nothing leaks, the reader goes before the subscriber and the subscriber
      before the topic;
    * `looked_up_topic_is_deleted` — a topic found by `lookup_topicdescription` is bound
      like a created one, so the lifecycle deletes a topic it never created.
-/
import RclLikeWrapper.Subscription.Callback

namespace RclLikeWrapper

/-! ## §1. The participant's side. -/

/-- `reader_qos.endpoint().history_memory_policy`. -/
inductive HistoryMemoryPolicy
  | preallocated
  | preallocatedWithRealloc
  | dynamicReserve
  | dynamicReusable
  deriving Repr, DecidableEq

/-- `reader_qos.reliability().kind`. -/
inductive ReliabilityKind
  | bestEffort
  | reliable
  deriving Repr, DecidableEq

/-- The fields of `reader_qos` the constructor sets on top of `DATAREADER_QOS_DEFAULT`. -/
structure DataReaderQos where
  historyMemoryPolicy : HistoryMemoryPolicy
  historyDepth : Nat
  reliability : ReliabilityKind
  dataSharingAutomatic : Bool
  deriving Repr, DecidableEq

/-- `reader_qos` as the constructor builds it. -/
def readerQos : DataReaderQos := ⟨.preallocatedWithRealloc, 10, .reliable, true⟩

/-- One call on the participant or the DDS subscriber, with what it returned; a pointer is
    a `Nat` and `0` is `nullptr`. -/
inductive DdsCall
  /-- `message_type->get_type_support().register_type(participant_)`. -/
  | registerType (ret : ReturnCode)
  /-- `dynamic_cast<Topic *>(participant->lookup_topicdescription(topic))`. -/
  | lookupTopicDescription (topic : String) (ret : Nat)
  /-- `participant_->create_topic(topic, type name, qos)`. -/
  | createTopic (topic : String) (ret : Nat)
  /-- `participant_->create_subscriber(SUBSCRIBER_QOS_DEFAULT)`. -/
  | createSubscriber (ret : Nat)
  /-- `subscriber_->create_datareader(topic_, reader_qos, &listener_)`. -/
  | createDatareader (subscriber topic : Nat) (qos : DataReaderQos) (ret : Nat)
  /-- `subscriber_->delete_datareader(reader_)`. -/
  | deleteDatareader (subscriber reader : Nat)
  /-- `participant_->delete_subscriber(subscriber_)`. -/
  | deleteSubscriber (subscriber : Nat)
  /-- `participant_->delete_topic(topic_)`. -/
  | deleteTopic (topic : Nat)
  deriving Repr, DecidableEq

/-- What the participant answers to each call the constructor makes. -/
structure ParticipantReplies where
  registerType : ReturnCode
  lookupTopicDescription : Nat
  createTopic : Nat
  createSubscriber : Nat
  createDatareader : Nat
  deriving Repr, DecidableEq

/-- `topic_`, `subscriber_` and `reader_` of a constructed `Subscriber<T>`. -/
structure SubscriberFields where
  topic : Nat
  subscriber : Nat
  reader : Nat
  deriving Repr, DecidableEq

/-! ## §2. The constructor and the destructor. -/

/-- The constructor once `topic_` is bound: the DDS subscriber, then the data reader, each
    failure deleting by hand what is bound and throwing. -/
def subscriberConstructFrom (r : ParticipantReplies) (topic : Nat) (calls : List DdsCall) :
    Except String SubscriberFields × List DdsCall :=
  let calls := calls ++ [.createSubscriber r.createSubscriber]
  if r.createSubscriber = 0 then
    (.error "Failed to create subscriber", calls ++ [.deleteTopic topic])
  else
    let calls := calls ++ [.createDatareader r.createSubscriber topic readerQos r.createDatareader]
    if r.createDatareader = 0 then
      (.error "Failed to create datareader",
        calls ++ [.deleteSubscriber r.createSubscriber, .deleteTopic topic])
    else (.ok ⟨topic, r.createSubscriber, r.createDatareader⟩, calls)

/-- `Subscriber<T>::Subscriber(participant, message_type, topic, qos, callback, channel)`:
    the fields it leaves, or the text of the `std::runtime_error` it throws, and the calls
    it made. -/
def subscriberConstruct (topic : String) (r : ParticipantReplies) :
    Except String SubscriberFields × List DdsCall :=
  if r.registerType ≠ .ok then
    (.error "Failed to register message type", [.registerType r.registerType])
  else
    let calls := [DdsCall.registerType r.registerType,
      .lookupTopicDescription topic r.lookupTopicDescription]
    if r.lookupTopicDescription = 0 then
      if r.createTopic = 0 then
        (.error "Failed to create topic", calls ++ [.createTopic topic r.createTopic])
      else subscriberConstructFrom r r.createTopic (calls ++ [.createTopic topic r.createTopic])
    else subscriberConstructFrom r r.lookupTopicDescription calls

/-- `Subscriber<T>::~Subscriber()`. -/
def subscriberDestruct (f : SubscriberFields) : List DdsCall :=
  (if f.reader ≠ 0 then [.deleteDatareader f.subscriber f.reader] else []) ++
    (if f.subscriber ≠ 0 then [.deleteSubscriber f.subscriber] else []) ++
    (if f.topic ≠ 0 then [.deleteTopic f.topic] else [])

/-- A `Subscriber<T>`'s whole life: the constructor, then the destructor if the
    constructor returned (one that throws leaves no object to destroy). -/
def subscriberLifecycle (topic : String) (r : ParticipantReplies) : List DdsCall :=
  match subscriberConstruct topic r with
  | (.ok f, calls) => calls ++ subscriberDestruct f
  | (.error _, calls) => calls

/-- The `std::runtime_error` text the constructor throws when this call fails; a lookup
    that finds nothing is no failure. -/
def DdsCall.failure : DdsCall → Option String
  | .registerType ret => if ret = .ok then none else some "Failed to register message type"
  | .createTopic _ t => if t = 0 then some "Failed to create topic" else none
  | .createSubscriber s => if s = 0 then some "Failed to create subscriber" else none
  | .createDatareader _ _ _ d => if d = 0 then some "Failed to create datareader" else none
  | _ => none

/-- The text a result throws, if any. -/
def thrown {α : Type} : Except String α → List String
  | .ok _ => []
  | .error e => [e]

@[simp] theorem thrown_map {α β : Type} (f : α → β) (x : Except String α) :
    thrown (x.map f) = thrown x := by
  cases x <;> rfl

/-! ## §3. Acquire or roll back. -/

/-- A DDS entity the constructor binds to one of its fields. -/
inductive Entity
  | topic (t : Nat)
  | subscriber (s : Nat)
  | dataReader (s d : Nat)
  deriving Repr, DecidableEq

/-- The pointer that names an entity. -/
def Entity.ptr : Entity → Nat
  | .topic t => t
  | .subscriber s => s
  | .dataReader _ d => d

/-- The call that deletes an entity. -/
def Entity.release : Entity → DdsCall
  | .topic t => .deleteTopic t
  | .subscriber s => .deleteSubscriber s
  | .dataReader s d => .deleteDatareader s d

/-- The entity a call binds: a non-null topic found or created, subscriber or reader
    created. -/
def DdsCall.binds : DdsCall → Option Entity
  | .lookupTopicDescription _ t => if t = 0 then none else some (.topic t)
  | .createTopic _ t => if t = 0 then none else some (.topic t)
  | .createSubscriber s => if s = 0 then none else some (.subscriber s)
  | .createDatareader s _ _ d => if d = 0 then none else some (.dataReader s d)
  | _ => none

/-- The entity a call deletes. -/
def DdsCall.releases : DdsCall → Option Entity
  | .deleteDatareader s d => some (.dataReader s d)
  | .deleteSubscriber s => some (.subscriber s)
  | .deleteTopic t => some (.topic t)
  | _ => none

@[simp] theorem release_releases (e : Entity) : e.release.releases = some e := by
  cases e <;> rfl

@[simp] theorem release_binds (e : Entity) : e.release.binds = none := by
  cases e <;> rfl

@[simp] theorem release_failure (e : Entity) : e.release.failure = none := by
  cases e <;> rfl

/-- Only a non-null pointer is bound. -/
theorem binds_ptr {c : DdsCall} {e : Entity} (h : c.binds = some e) : e.ptr ≠ 0 := by
  cases c <;> simp only [DdsCall.binds, ite_eq_right_iff, reduceCtorEq] at h <;>
    split_ifs at h with h0 <;> cases h <;> exact h0

/-- Release a list of bound entities, most recent first. -/
def teardown (bound : List Entity) : List DdsCall :=
  bound.reverse.map Entity.release

/-- A call list binds entities and releases none of them, then releases exactly what it
    bound, most recent first. -/
def Bracketed (calls : List DdsCall) : Prop :=
  ∃ pre, pre.filterMap DdsCall.releases = [] ∧
    calls = pre ++ teardown (pre.filterMap DdsCall.binds)

/-- One stage of a constructor: the calls it makes, the pointer it obtains (`0` when the
    participant failed it), the entity that pointer names, and the text thrown on failure.
    Its calls bind that entity when the pointer is non-null, release nothing, and fail
    with that text exactly when the pointer is null. -/
structure Stage where
  calls : List DdsCall
  ptr : Nat
  entity : Entity
  failure : String
  binds_calls : calls.filterMap DdsCall.binds = if ptr = 0 then [] else [entity]
  releases_calls : calls.filterMap DdsCall.releases = []
  failure_calls : calls.filterMap DdsCall.failure = if ptr = 0 then [failure] else []

/-- Run the stages in order; at the first failing one, release everything bound so far
    and throw its text. -/
def acquireAll : List Stage → List Entity → Except String (List Entity) × List DdsCall
  | [], bound => (.ok bound, [])
  | st :: sts, bound =>
    if st.ptr = 0 then (.error st.failure, st.calls ++ teardown bound)
    else ((acquireAll sts (bound ++ [st.entity])).1,
      st.calls ++ (acquireAll sts (bound ++ [st.entity])).2)

theorem acquireAll_cons_of_eq {st : Stage} (h : st.ptr = 0) (sts : List Stage)
    (bound : List Entity) :
    acquireAll (st :: sts) bound = (.error st.failure, st.calls ++ teardown bound) :=
  if_pos h

theorem acquireAll_cons_of_ne {st : Stage} (h : st.ptr ≠ 0) (sts : List Stage)
    (bound : List Entity) :
    acquireAll (st :: sts) bound = ((acquireAll sts (bound ++ [st.entity])).1,
      st.calls ++ (acquireAll sts (bound ++ [st.entity])).2) :=
  if_neg h

/-- What `acquireAll` leaves, from entities `bound` already: on success, calls that release
    nothing and whose bindings extend `bound` to the result; on failure, calls that bind,
    then release everything bound, most recent first. -/
def AcquireSpec (bound : List Entity) : Except String (List Entity) × List DdsCall → Prop
  | (.ok b, calls) =>
    calls.filterMap DdsCall.releases = [] ∧ b = bound ++ calls.filterMap DdsCall.binds
  | (.error _, calls) =>
    ∃ pre, pre.filterMap DdsCall.releases = [] ∧
      calls = pre ++ teardown (bound ++ pre.filterMap DdsCall.binds)

theorem acquireAll_spec (sts : List Stage) (bound : List Entity) :
    AcquireSpec bound (acquireAll sts bound) := by
  induction sts generalizing bound with
  | nil => exact ⟨rfl, by simp⟩
  | cons st sts ih =>
    have hb := st.binds_calls
    have hr := st.releases_calls
    by_cases h0 : st.ptr = 0
    · rw [acquireAll_cons_of_eq h0]
      exact ⟨st.calls, hr, by simp [hb, h0]⟩
    · rw [if_neg h0] at hb
      rw [acquireAll_cons_of_ne h0]
      have := ih (bound ++ [st.entity])
      revert this
      rcases acquireAll sts (bound ++ [st.entity]) with ⟨_ | b, calls⟩
      · rintro ⟨pre, hpre, rfl⟩
        exact ⟨st.calls ++ pre, by simp [hr, hpre], by simp [hb]⟩
      · rintro ⟨hrel, rfl⟩
        exact ⟨by simp [hr, hrel], by simp [hb]⟩

/-- Along an `acquireAll` run at most one call fails: none on success, and on failure the
    one whose text is thrown. -/
theorem acquireAll_failures (sts : List Stage) (bound : List Entity) :
    (acquireAll sts bound).2.filterMap DdsCall.failure = thrown (acquireAll sts bound).1 := by
  induction sts generalizing bound with
  | nil => rfl
  | cons st sts ih =>
    have hf := st.failure_calls
    by_cases h0 : st.ptr = 0
    · rw [acquireAll_cons_of_eq h0]
      simp [hf, h0, teardown, List.filterMap_map, thrown, Function.comp_def]
    · rw [acquireAll_cons_of_ne h0, List.filterMap_append, hf, if_neg h0, ih]
      rfl

/-- Every entity a successful `acquireAll` run from nothing returns is non-null. -/
theorem acquireAll_ok_ptr {sts : List Stage} {b : List Entity}
    (h : (acquireAll sts []).1 = .ok b) : ∀ e ∈ b, e.ptr ≠ 0 := by
  have hspec := acquireAll_spec sts []
  revert hspec
  rw [show acquireAll sts [] = (.ok b, (acquireAll sts []).2) from Prod.ext h rfl]
  rintro ⟨-, rfl⟩ e he
  obtain ⟨c, -, hc⟩ := List.mem_filterMap.mp (by simpa using he)
  exact binds_ptr hc

/-! ## §4. The constructor is acquire-or-roll-back. -/

/-- The entities a constructed subscriber holds, in the order it bound them. -/
def SubscriberFields.bound (f : SubscriberFields) : List Entity :=
  [.topic f.topic, .subscriber f.subscriber, .dataReader f.subscriber f.reader]

/-- The topic stage: the lookup, and `create_topic` when the lookup finds nothing. -/
def topicStage (topic : String) (r : ParticipantReplies) : Stage where
  calls := .lookupTopicDescription topic r.lookupTopicDescription ::
    if r.lookupTopicDescription = 0 then [.createTopic topic r.createTopic] else []
  ptr := if r.lookupTopicDescription = 0 then r.createTopic else r.lookupTopicDescription
  entity := .topic (if r.lookupTopicDescription = 0 then r.createTopic else r.lookupTopicDescription)
  failure := "Failed to create topic"
  binds_calls := by split_ifs <;> simp_all [DdsCall.binds]
  releases_calls := by split_ifs <;> rfl
  failure_calls := by split_ifs <;> simp_all [DdsCall.failure]

/-- The subscriber stage. -/
def subscriberStage (r : ParticipantReplies) : Stage where
  calls := [.createSubscriber r.createSubscriber]
  ptr := r.createSubscriber
  entity := .subscriber r.createSubscriber
  failure := "Failed to create subscriber"
  binds_calls := by split_ifs <;> simp_all [DdsCall.binds]
  releases_calls := rfl
  failure_calls := by split_ifs <;> simp_all [DdsCall.failure]

/-- The data-reader stage, on the bound topic. -/
def readerStage (r : ParticipantReplies) (topic : Nat) : Stage where
  calls := [.createDatareader r.createSubscriber topic readerQos r.createDatareader]
  ptr := r.createDatareader
  entity := .dataReader r.createSubscriber r.createDatareader
  failure := "Failed to create datareader"
  binds_calls := by split_ifs <;> simp_all [DdsCall.binds]
  releases_calls := rfl
  failure_calls := by split_ifs <;> simp_all [DdsCall.failure]

/-- The constructor's three stages. -/
def constructorStages (topic : String) (r : ParticipantReplies) : List Stage :=
  [topicStage topic r, subscriberStage r, readerStage r (topicStage topic r).ptr]

/-- Once `topic_` is bound, the constructor is `acquireAll` over the subscriber and reader
    stages with the topic bound. -/
theorem subscriberConstructFrom_refines (r : ParticipantReplies) (t : Nat)
    (calls : List DdsCall) :
    (subscriberConstructFrom r t calls).1.map SubscriberFields.bound =
        (acquireAll [subscriberStage r, readerStage r t] [.topic t]).1 ∧
      (subscriberConstructFrom r t calls).2 =
        calls ++ (acquireAll [subscriberStage r, readerStage r t] [.topic t]).2 := by
  by_cases hs : r.createSubscriber = 0
  · rw [acquireAll_cons_of_eq hs]
    simp [subscriberConstructFrom, hs, subscriberStage, teardown, Entity.release, Except.map]
  · rw [acquireAll_cons_of_ne hs]
    by_cases hd : r.createDatareader = 0
    · rw [acquireAll_cons_of_eq hd]
      simp [subscriberConstructFrom, hs, hd, subscriberStage, readerStage, teardown,
        Entity.release, Except.map]
    · rw [acquireAll_cons_of_ne hd]
      simp [subscriberConstructFrom, hs, hd, subscriberStage, readerStage, acquireAll,
        Except.map, SubscriberFields.bound]

/-- **Refinement.** Once the type registers, the hand-written constructor is `acquireAll`
    over its three stages: the same calls, the same text thrown, and on success fields
    holding exactly the entities bound. -/
theorem subscriberConstruct_refines (topic : String) (r : ParticipantReplies)
    (h : r.registerType = .ok) :
    (subscriberConstruct topic r).1.map SubscriberFields.bound =
        (acquireAll (constructorStages topic r) []).1 ∧
      (subscriberConstruct topic r).2 =
        .registerType .ok :: (acquireAll (constructorStages topic r) []).2 := by
  by_cases hl : r.lookupTopicDescription = 0
  · by_cases hc : r.createTopic = 0
    · rw [constructorStages, acquireAll_cons_of_eq (by simp [topicStage, hl, hc])]
      simp [subscriberConstruct, topicStage, h, hl, hc, teardown, Except.map]
    · rw [constructorStages, acquireAll_cons_of_ne (by simp [topicStage, hl, hc])]
      have := subscriberConstructFrom_refines r r.createTopic
        [.registerType .ok, .lookupTopicDescription topic 0, .createTopic topic r.createTopic]
      simp_all [subscriberConstruct, topicStage]
  · rw [constructorStages, acquireAll_cons_of_ne (by simp [topicStage, hl])]
    have := subscriberConstructFrom_refines r r.lookupTopicDescription
      [.registerType .ok, .lookupTopicDescription topic r.lookupTopicDescription]
    simp_all [subscriberConstruct, topicStage]

/-- A type that does not register: one call, nothing bound. -/
theorem subscriberConstruct_of_register_fails (topic : String) {r : ParticipantReplies}
    (h : r.registerType ≠ .ok) :
    subscriberConstruct topic r =
      (.error "Failed to register message type", [.registerType r.registerType]) := by
  simp [subscriberConstruct, h]

/-- **Every error names its call.** Along the constructor's calls at most one fails: none
    when it returns, and when it throws, exactly the call whose text it throws. -/
theorem subscriberConstruct_failures (topic : String) (r : ParticipantReplies) :
    (subscriberConstruct topic r).2.filterMap DdsCall.failure =
      thrown (subscriberConstruct topic r).1 := by
  by_cases h : r.registerType = .ok
  · obtain ⟨hres, hcalls⟩ := subscriberConstruct_refines topic r h
    rw [hcalls, ← thrown_map SubscriberFields.bound, hres, List.filterMap_cons,
      acquireAll_failures]
    rfl
  · rw [subscriberConstruct_of_register_fails topic h]
    simp [DdsCall.failure, h, thrown]

/-- A constructor that returns leaves every field non-null, so the destructor's three null
    checks all pass. -/
theorem subscriberConstruct_ok_ne_zero {topic : String} {r : ParticipantReplies}
    {f : SubscriberFields} (h : (subscriberConstruct topic r).1 = .ok f) :
    f.topic ≠ 0 ∧ f.subscriber ≠ 0 ∧ f.reader ≠ 0 := by
  have hreg : r.registerType = .ok := by
    by_contra hn
    rw [subscriberConstruct_of_register_fails topic hn] at h
    cases h
  have hb := (subscriberConstruct_refines topic r hreg).1
  rw [h] at hb
  have hptr := acquireAll_ok_ptr hb.symm
  exact ⟨hptr (.topic f.topic) (by simp [SubscriberFields.bound]),
    hptr (.subscriber f.subscriber) (by simp [SubscriberFields.bound]),
    hptr (.dataReader f.subscriber f.reader) (by simp [SubscriberFields.bound])⟩

/-- The destructor of a subscriber whose fields are all non-null tears down what it holds.
-/
theorem subscriberDestruct_of_ne_zero {f : SubscriberFields} (ht : f.topic ≠ 0)
    (hs : f.subscriber ≠ 0) (hr : f.reader ≠ 0) :
    subscriberDestruct f = teardown f.bound := by
  simp [subscriberDestruct, teardown, SubscriberFields.bound, Entity.release, ht, hs, hr]

/-! ## §5. The whole life of a subscriber. -/

/-- A call that neither binds nor releases keeps a call list bracketed. -/
theorem Bracketed.cons {calls : List DdsCall} (h : Bracketed calls) {c : DdsCall}
    (hb : c.binds = none) (hr : c.releases = none) : Bracketed (c :: calls) := by
  obtain ⟨pre, hpre, rfl⟩ := h
  exact ⟨c :: pre, by simp [hr, hpre], by simp [hb]⟩

/-- An `acquireAll` run from nothing bound, followed by the teardown of what it returns
    when it succeeds, is bracketed. -/
theorem bracketed_of_acquireSpec {x : Except String (List Entity) × List DdsCall}
    (h : AcquireSpec [] x) :
    Bracketed (x.2 ++ match x.1 with
      | .ok b => teardown b
      | .error _ => []) := by
  obtain ⟨_ | b, calls⟩ := x
  · obtain ⟨pre, hpre, rfl⟩ := h
    exact ⟨pre, hpre, by simp⟩
  · obtain ⟨hrel, rfl⟩ := h
    exact ⟨calls, hrel, by simp⟩

/-- Once the type registers, a subscriber's life is the constructor's `acquireAll`,
    followed by the teardown of what it bound when it succeeded. -/
theorem subscriberLifecycle_eq (topic : String) {r : ParticipantReplies}
    (h : r.registerType = .ok) :
    subscriberLifecycle topic r =
      .registerType .ok :: ((acquireAll (constructorStages topic r) []).2 ++
        match (acquireAll (constructorStages topic r) []).1 with
        | .ok b => teardown b
        | .error _ => []) := by
  obtain ⟨hres, hcalls⟩ := subscriberConstruct_refines topic r h
  unfold subscriberLifecycle
  rw [← List.cons_append]
  rcases hc : subscriberConstruct topic r with ⟨_ | f, calls⟩ <;>
    simp only [hc] at hres hcalls ⊢ <;> rw [← hres, ← hcalls]
  · simp [Except.map]
  · obtain ⟨ht, hs, hr⟩ := subscriberConstruct_ok_ne_zero (by rw [hc])
    simp [Except.map, subscriberDestruct_of_ne_zero ht hs hr]

/-- In a bracketed call list, every entity bound is released. -/
theorem Bracketed.release_mem {calls : List DdsCall} (h : Bracketed calls) {c : DdsCall}
    (hc : c ∈ calls) {e : Entity} (he : c.binds = some e) : e.release ∈ calls := by
  obtain ⟨pre, hpre, rfl⟩ := h
  have hmem : c ∈ pre := by
    rcases List.mem_append.mp hc with hc | hc
    · exact hc
    · obtain ⟨e', -, rfl⟩ := List.mem_map.mp hc
      simp at he
  exact List.mem_append_right _
    (List.mem_map_of_mem _ (List.mem_reverse.mpr (List.mem_filterMap.mpr ⟨c, hmem, he⟩)))

/-- Once the type registers, a subscriber's life is bracketed. -/
theorem subscriberLifecycle_bracketed_of_ok (topic : String) {r : ParticipantReplies}
    (h : r.registerType = .ok) : Bracketed (subscriberLifecycle topic r) := by
  rw [subscriberLifecycle_eq topic h]
  exact (bracketed_of_acquireSpec (acquireAll_spec _ [])).cons rfl rfl

/-- **No leak, and teardown in dependency order.** For every reply pattern of the
    participant, a `Subscriber<T>`'s construction, followed by its destruction when the
    constructor returned, first binds entities and deletes none, then deletes exactly the
    entities it bound, most recent first: the reader before the subscriber, the
    subscriber before the topic. -/
theorem subscriber_lifecycle_bracketed (topic : String) (r : ParticipantReplies) :
    Bracketed (subscriberLifecycle topic r) := by
  by_cases hreg : r.registerType = .ok
  · exact subscriberLifecycle_bracketed_of_ok topic hreg
  · rw [subscriberLifecycle, subscriberConstruct_of_register_fails topic hreg]
    exact ⟨[.registerType r.registerType], rfl, by simp [DdsCall.binds, teardown]⟩

example : subscriberLifecycle "tf" ⟨.ok, 0, 5, 3, 9⟩ =
    [.registerType .ok, .lookupTopicDescription "tf" 0, .createTopic "tf" 5,
      .createSubscriber 3, .createDatareader 3 5 readerQos 9,
      .deleteDatareader 3 9, .deleteSubscriber 3, .deleteTopic 5] := rfl

/-- **A looked-up topic is deleted as if created.** When the type registers and
    `lookup_topicdescription` finds topic `t`, the subscriber's life never calls
    `create_topic`, yet it calls `delete_topic(t)`: on the failure of a later stage, or
    in the destructor. -/
theorem looked_up_topic_is_deleted (topic : String) {r : ParticipantReplies}
    (hreg : r.registerType = .ok) (hl : r.lookupTopicDescription ≠ 0) :
    (∀ name t, DdsCall.createTopic name t ∉ subscriberLifecycle topic r) ∧
      DdsCall.deleteTopic r.lookupTopicDescription ∈ subscriberLifecycle topic r := by
  have hlookup : DdsCall.lookupTopicDescription topic r.lookupTopicDescription ∈
      subscriberLifecycle topic r := by
    rw [subscriberLifecycle_eq topic hreg]
    simp [constructorStages, topicStage, acquireAll, hl]
  have hbinds : DdsCall.binds (.lookupTopicDescription topic r.lookupTopicDescription) =
      some (.topic r.lookupTopicDescription) := by simp [DdsCall.binds, hl]
  refine ⟨fun name t hmem => ?_,
    (subscriberLifecycle_bracketed_of_ok topic hreg).release_mem hlookup hbinds⟩
  rw [subscriberLifecycle_eq topic hreg] at hmem
  simp [constructorStages, topicStage, subscriberStage, readerStage, acquireAll, hl,
    teardown] at hmem
  split_ifs at hmem <;> simp_all [Entity.release]

/-- The topic `7` found by the lookup is deleted when the data reader cannot be created. -/
example : (∀ name t, DdsCall.createTopic name t ∉ subscriberLifecycle "tf" ⟨.ok, 7, 0, 3, 0⟩) ∧
      DdsCall.deleteTopic 7 ∈ subscriberLifecycle "tf" ⟨.ok, 7, 0, 3, 0⟩ :=
  looked_up_topic_is_deleted "tf" rfl (by decide)

end RclLikeWrapper
