/-
  RclLikeWrapper.Registry
  ───────────────────────
  **THE PROCESS-WIDE MESSAGE-TYPE REGISTRY AND THE CALLS THAT READ IT.**

  `message_types` maps type names to `MessageType`s (each wrapping a `TopicDataType *`).
  `rcl_like_wrapper_init(types)` walks `types` and inserts each name not yet present;
  `create_publisher` and `create_subscription` check the node handle, look the type name up,
  and ask the node for the endpoint with the registered `MessageType` and the topic
  prefixed by `"rt/"`.  The two are one definition, `createEndpoint`, applied to the node's
  own method.

  A map's keys are distinct: `MessageTypes` carries that as a field, and the one insertion
  the code makes proves it again.

  Main results:
    * `rclLikeWrapperInit_find` — after `rcl_like_wrapper_init(types)` a name maps to what
      it mapped to before if anything, and otherwise to what `types` maps it to;
    * `registry_is_left_biased_union` — along every run of initialisations and endpoint
      creations, the registry is the left-biased union of the maps passed so far, and an
      endpoint creation on a non-zero node handle reaches the node exactly for a name in
      that union, with the first-registered `MessageType` and `"rt/"` before the topic.
-/
import Mathlib.Data.List.Nodup
import RclLikeWrapper.Handle

namespace RclLikeWrapper

/-! ## §1. Message types and the registry. -/

/-- `MessageType`: the `TopicDataType *type_support` it wraps, as an address. -/
structure MessageType where
  typeSupport : Nat
  deriving Repr, DecidableEq

/-- `MessageTypes`: a map from type names to `MessageType`s, listed in iteration order;
    its keys are distinct. -/
structure MessageTypes where
  entries : List (String × MessageType)
  nodup : (entries.map Prod.fst).Nodup

namespace MessageTypes

/-- The empty map (the global `message_types` before any initialisation). -/
def empty : MessageTypes := ⟨[], List.nodup_nil⟩

/-- `find(name)`, with `at(name)` when found. -/
def find (m : MessageTypes) (name : String) : Option MessageType :=
  m.entries.lookup name

/-- `message_types[name] = t` for a name not present: the map grows by one entry. -/
def insertNew (m : MessageTypes) (name : String) (t : MessageType) (h : m.find name = none) :
    MessageTypes :=
  ⟨m.entries ++ [(name, t)], by
    rw [List.map_append]
    refine m.nodup.append (List.nodup_singleton _) ?_
    simp only [List.map_cons, List.map_nil, List.disjoint_singleton, List.mem_map]
    rintro ⟨p, hp, rfl⟩
    have := List.lookup_eq_none_iff.mp h p hp
    simp at this⟩

@[simp] theorem empty_find (name : String) : empty.find name = none := rfl

theorem insertNew_find (m : MessageTypes) (name : String) (t : MessageType)
    (h : m.find name = none) (n : String) :
    (m.insertNew name t h).find n = (m.find n).or ([(name, t)].lookup n) :=
  List.lookup_append

end MessageTypes

/-- One round of `rcl_like_wrapper_init`'s loop: insert the pair unless its name is
    already registered. -/
def registerIfAbsent (g : MessageTypes) (p : String × MessageType) : MessageTypes :=
  if h : g.find p.1 = none then g.insertNew p.1 p.2 h else g

/-- `rcl_like_wrapper_init(types)` on the global `message_types`. -/
def rclLikeWrapperInit (g types : MessageTypes) : MessageTypes :=
  types.entries.foldl registerIfAbsent g

theorem registerIfAbsent_find (g : MessageTypes) (p : String × MessageType) (n : String) :
    (registerIfAbsent g p).find n = (g.find n).or ([p].lookup n) := by
  unfold registerIfAbsent
  split
  · exact MessageTypes.insertNew_find _ _ _ _ n
  · rename_i h
    obtain ⟨k, t⟩ := p
    by_cases hn : n = k
    · subst hn
      obtain ⟨t', ht⟩ := Option.ne_none_iff_exists'.mp h
      simp [ht]
    · simp [List.lookup_cons, beq_false_of_ne hn]

/-- **One initialisation.** After `rcl_like_wrapper_init(types)` a name maps to what it
    mapped to before if anything, and otherwise to what `types` maps it to: nothing is
    overwritten, nothing removed. -/
theorem rclLikeWrapperInit_find (g types : MessageTypes) (n : String) :
    (rclLikeWrapperInit g types).find n = (g.find n).or (types.find n) := by
  suffices ∀ (l : List (String × MessageType)) (g : MessageTypes),
      (l.foldl registerIfAbsent g).find n = (g.find n).or (l.lookup n) from this _ g
  intro l
  induction l with
  | nil => intro g; simp
  | cons p l ih =>
    intro g
    rw [List.foldl_cons, ih, registerIfAbsent_find, Option.or_assoc, ← List.lookup_append]
    rfl

/-! ## §2. Creating endpoints. -/

/-- What a node was asked to build: the registered `MessageType` and the topic. -/
structure NodeRequest where
  messageType : MessageType
  topic : String
  deriving Repr, DecidableEq

/-- The shape `create_publisher` and `create_subscription` share.  `newEndpoint` is the
    node's method on the node behind a handle (outside the sources), returning the new
    object's address or `0`.  The result is the handle returned, the request the node got
    if any, and what was logged. -/
def createEndpoint (reg : MessageTypes) (newEndpoint : Int → NodeRequest → Int)
    (nodePtr : Int) (name topic : String) : (Int × Option NodeRequest) × List Effect :=
  guardHandle "node" nodePtr (0, none)
    (match reg.find name with
      | none => ((0, none), [])
      | some mt =>
        let req : NodeRequest := ⟨mt, "rt/" ++ topic⟩
        ((if newEndpoint nodePtr req = 0 then 0 else newEndpoint nodePtr req, some req), []))

/-- `create_publisher(node_ptr, message_type_name, topic, qos)`. -/
def createPublisher (reg : MessageTypes) (newPublisher : Int → NodeRequest → Int)
    (nodePtr : Int) (name topic : String) : (Int × Option NodeRequest) × List Effect :=
  createEndpoint reg newPublisher nodePtr name topic

/-- `create_subscription(node_ptr, message_type_name, topic, qos, callback)`; the callback
    goes to the node with the request. -/
def createSubscription (reg : MessageTypes) (newSubscription : Int → NodeRequest → Int)
    (nodePtr : Int) (name topic : String) : (Int × Option NodeRequest) × List Effect :=
  createEndpoint reg newSubscription nodePtr name topic

/-- On a non-zero node handle, the node is asked exactly when the name is registered, with
    its `MessageType` and the prefixed topic; an unregistered name returns `0`. -/
theorem createEndpoint_of_ne_zero (reg : MessageTypes) (newEndpoint : Int → NodeRequest → Int)
    {nodePtr : Int} (h : nodePtr ≠ 0) (name topic : String) :
    (createEndpoint reg newEndpoint nodePtr name topic).1.2 =
        (reg.find name).map (fun mt => ⟨mt, "rt/" ++ topic⟩) ∧
      (reg.find name = none → (createEndpoint reg newEndpoint nodePtr name topic).1.1 = 0) := by
  unfold createEndpoint
  rw [guardHandle_of_ne h]
  cases reg.find name <;> simp

/-! ## §3. The registry along a run. -/

/-- A call on the registry's side of the API. -/
inductive RegistryEvent
  | init (types : MessageTypes)
  | createPublisher (nodePtr : Int) (name topic : String)
  | createSubscription (nodePtr : Int) (name topic : String)

/-- What one call does to `message_types`: only `rcl_like_wrapper_init` changes it. -/
def RegistryEvent.apply (g : MessageTypes) : RegistryEvent → MessageTypes
  | .init types => rclLikeWrapperInit g types
  | .createPublisher .. => g
  | .createSubscription .. => g

/-- `message_types` after a run. -/
def registryAfter (ρ : List RegistryEvent) : MessageTypes :=
  ρ.foldl RegistryEvent.apply .empty

/-- The maps passed to `rcl_like_wrapper_init` along a run, in order. -/
def initsOf : List RegistryEvent → List MessageTypes
  | [] => []
  | .init types :: ρ => types :: initsOf ρ
  | _ :: ρ => initsOf ρ

/-- The left-biased union of maps, stated without the loop: a name maps to what the first
    map containing it maps it to. -/
def leftBiasedUnion (ms : List MessageTypes) (name : String) : Option MessageType :=
  (ms.find? fun m => (m.find name).isSome).bind (·.find name)

theorem leftBiasedUnion_cons (m : MessageTypes) (ms : List MessageTypes) (name : String) :
    leftBiasedUnion (m :: ms) name = (m.find name).or (leftBiasedUnion ms name) := by
  unfold leftBiasedUnion
  cases h : m.find name <;> simp [List.find?_cons, h]

theorem foldl_apply_find (ρ : List RegistryEvent) (g : MessageTypes) (name : String) :
    (ρ.foldl RegistryEvent.apply g).find name =
      (g.find name).or (leftBiasedUnion (initsOf ρ) name) := by
  induction ρ generalizing g with
  | nil => simp [initsOf, leftBiasedUnion]
  | cons e ρ ih =>
    rw [List.foldl_cons, ih]
    cases e with
    | init types =>
      rw [RegistryEvent.apply, rclLikeWrapperInit_find, initsOf, leftBiasedUnion_cons,
        Option.or_assoc]
    | createPublisher => rfl
    | createSubscription => rfl

/-- **The registry is the left-biased union, and endpoint creation reads it.** Along every
    run of `rcl_like_wrapper_init` and endpoint creations, `message_types` maps each name to
    what the first map passed containing it maps it to; and a `create_publisher` or
    `create_subscription` on a non-zero node handle asks the node exactly for a name in that
    union, with the first-registered `MessageType` and the topic prefixed by `"rt/"`, and
    otherwise returns `0` without asking it. -/
theorem registry_is_left_biased_union (ρ : List RegistryEvent) :
    (∀ name, (registryAfter ρ).find name = leftBiasedUnion (initsOf ρ) name) ∧
      ∀ (newEndpoint : Int → NodeRequest → Int) (nodePtr : Int) (name topic : String),
        nodePtr ≠ 0 →
        (createPublisher (registryAfter ρ) newEndpoint nodePtr name topic).1.2 =
            (leftBiasedUnion (initsOf ρ) name).map (fun mt => ⟨mt, "rt/" ++ topic⟩) ∧
          (createSubscription (registryAfter ρ) newEndpoint nodePtr name topic).1.2 =
            (leftBiasedUnion (initsOf ρ) name).map (fun mt => ⟨mt, "rt/" ++ topic⟩) ∧
          (leftBiasedUnion (initsOf ρ) name = none →
            (createPublisher (registryAfter ρ) newEndpoint nodePtr name topic).1.1 = 0 ∧
              (createSubscription (registryAfter ρ) newEndpoint nodePtr name topic).1.1 = 0) := by
  have hfind : ∀ name, (registryAfter ρ).find name = leftBiasedUnion (initsOf ρ) name := by
    intro name
    rw [registryAfter, foldl_apply_find, MessageTypes.empty_find, Option.none_or]
  refine ⟨hfind, fun newEndpoint nodePtr name topic h => ?_⟩
  obtain ⟨hreq, hzero⟩ := createEndpoint_of_ne_zero (registryAfter ρ) newEndpoint h name topic
  rw [hfind] at hreq hzero
  exact ⟨hreq, hreq, fun hn => ⟨hzero hn, hzero hn⟩⟩

end RclLikeWrapper
