import Mathlib.Data.Finset.Lattice.Lemmas
import Mathlib.Data.Finset.SDiff
import RealtimeOps.Multiplicity

/-!
# What a message subscribes to

`subscribe` and `unsubscribe` take from the channels of a message those under which
`CHANNEL_TO_ROOM` has anything. Under a name of `Object.prototype` every object has something, so
such a name is taken for a channel : the client is told so, and joins or leaves a room that is no
room's name. Exactly if a message has no such name, it is about the known channels in it and about
nothing else (`exact_subscriptions`).
-/

set_option autoImplicit false

namespace RealtimeOps

/-! ## Several rooms at once -/

namespace Server

variable {s : Server} {client : SocketId}

theorem modify_modify (f g : Socket → Socket) :
    (s.modify client f).modify client g = s.modify client (g ∘ f) := by
  simp only [modify, mk.injEq, and_true]
  funext i
  split_ifs
  · rw [Option.map_map]
  · rfl

theorem modify_id : s.modify client id = s := by
  simp only [modify, Option.map_id_fun, id_eq, ite_self]

end Server

namespace RealtimeEventsGateway

section Channels

variable {client : SocketId} {channels : List String} {s : Server}

/-- The client is told of the channels there is a room for, as often as it has named them. -/
theorem forChannels_fst (move : SocketId → Room → Server → Server) :
    ∀ (channels : List String) (s : Server), (forChannels move client channels s).1 =
      channels.filter fun channel => (roomOf channel).isSome
  | [], _ => rfl
  | channel :: channels, s => by
    rw [forChannels]
    cases hroom : roomOf channel with
    | none =>
      rw [List.filter_cons_of_neg (by simp [hroom])]
      exact forChannels_fst move channels s
    | some room =>
      rw [List.filter_cons_of_pos (by simp [hroom])]
      exact congrArg _ (forChannels_fst move channels _)

/-- What moving through rooms one after the other does at once. -/
theorem forChannels_snd {move : SocketId → Room → Server → Server}
    (all : Finset Room → Socket → Socket) (hnone : all ∅ = id)
    (hmore : ∀ room rooms s,
      (move client room s).modify client (all rooms) = s.modify client (all (insert room rooms))) :
    ∀ (channels : List String) (s : Server), (forChannels move client channels s).2 =
      s.modify client (all (channels.filterMap roomOf).toFinset)
  | [], s => by
    rw [List.filterMap_nil, List.toFinset_nil, hnone, Server.modify_id]
    rfl
  | channel :: channels, s => by
    rw [forChannels]
    cases hroom : roomOf channel with
    | none =>
      rw [List.filterMap_cons_none hroom]
      exact forChannels_snd all hnone hmore channels s
    | some room =>
      rw [List.filterMap_cons_some hroom, List.toFinset_cons, ← hmore]
      exact forChannels_snd all hnone hmore channels _

theorem subscribe_eq (client : SocketId) (channels : List String) (s : Server) :
    subscribe client (some channels) s = (channels.filter fun channel => (roomOf channel).isSome,
      s.modify client fun c =>
        { c with rooms := c.rooms ∪ (channels.filterMap roomOf).toFinset }) := by
  refine Prod.ext (forChannels_fst _ _ _) (forChannels_snd
    (fun rooms c => { c with rooms := c.rooms ∪ rooms }) ?_ (fun room rooms s => ?_) _ _)
  · simp only [Finset.union_empty]
    rfl
  · rw [Server.join, Server.modify_modify]
    simp only [Function.comp_def, Finset.insert_union, Finset.union_insert]

theorem unsubscribe_eq (client : SocketId) (channels : List String) (s : Server) :
    unsubscribe client (some channels) s = (channels.filter fun channel => (roomOf channel).isSome,
      s.modify client fun c =>
        { c with rooms := c.rooms \ (channels.filterMap roomOf).toFinset }) := by
  refine Prod.ext (forChannels_fst _ _ _) (forChannels_snd
    (fun rooms c => { c with rooms := c.rooms \ rooms }) ?_ (fun room rooms s => ?_) _ _)
  · simp only [Finset.sdiff_empty]
    rfl
  · rw [Server.leave, Server.modify_modify]
    simp only [Function.comp_def, Finset.sdiff_insert, Finset.erase_sdiff_comm]

end Channels

/-! ## Known channels -/

/-- The known channels among these, in order and as often. -/
def known (channels : List String) : List String :=
  channels.filter fun channel => channel ∈ CHANNEL_TO_ROOM.map Prod.fst

/-- The rooms of these names. -/
def roomsNamed (names : List String) : Finset Room :=
  (names.map Room.named).toFinset

/-- The client is told of the known channels and joins their rooms, and that is all. -/
def SubscribesExactly (client : SocketId) (channels : List String) (s : Server) : Prop :=
  subscribe client (some channels) s = (known channels,
    s.modify client fun c => { c with rooms := c.rooms ∪ roomsNamed (known channels) })

/-- The client is told of the known channels and leaves their rooms, and that is all. -/
def UnsubscribesExactly (client : SocketId) (channels : List String) (s : Server) : Prop :=
  unsubscribe client (some channels) s = (known channels,
    s.modify client fun c => { c with rooms := c.rooms \ roomsNamed (known channels) })

section Known

variable {channel : String} {channels : List String}

theorem roomOf_known (h : channel ∈ CHANNEL_TO_ROOM.map Prod.fst) :
    roomOf channel = some (.named channel) :=
  roomOf_eq_named.mpr ⟨rfl, h⟩

/-- Under an unknown name there is what every object has there. -/
theorem roomOf_unknown (h : channel ∉ CHANNEL_TO_ROOM.map Prod.fst) :
    roomOf channel = if channel ∈ objectPrototype then some (.inherited channel) else none := by
  have hnone : CHANNEL_TO_ROOM.lookup channel = none := by
    refine List.lookup_eq_none_iff.mpr fun p hp => ?_
    have hne : channel ≠ p.1 := fun heq => h (heq ▸ List.mem_map_of_mem hp)
    simpa using hne
  rw [roomOf, hnone]

/-- Without a name that every object has, the rooms are those of the known channels. -/
theorem filterMap_roomOf : ∀ {channels : List String},
    (∀ channel ∈ channels, channel ∉ objectPrototype) →
      channels.filterMap roomOf = (known channels).map .named
  | [], _ => rfl
  | channel :: channels, h => by
    obtain ⟨hfirst, hrest⟩ := List.forall_mem_cons.mp h
    unfold known
    by_cases hknown : channel ∈ CHANNEL_TO_ROOM.map Prod.fst
    · rw [List.filterMap_cons_some (roomOf_known hknown), filterMap_roomOf hrest,
        List.filter_cons_of_pos (by simpa using hknown), List.map_cons]
      rfl
    · have hnone : roomOf channel = none := by rw [roomOf_unknown hknown, if_neg hfirst]
      rw [List.filterMap_cons_none hnone, filterMap_roomOf hrest,
        List.filter_cons_of_neg (by simpa using hknown)]
      rfl

/-- The client is told of the known channels exactly if it has named nothing that every object
has. -/
theorem filter_roomOf_eq_known :
    (channels.filter fun channel => (roomOf channel).isSome) = known channels ↔
      ∀ channel ∈ channels, channel ∉ objectPrototype := by
  constructor
  · intro h channel hmem hinherited
    have hunknown : ∀ channel ∈ objectPrototype, channel ∉ CHANNEL_TO_ROOM.map Prod.fst := by
      decide
    have htold : channel ∈ channels.filter fun channel => (roomOf channel).isSome := by
      refine List.mem_filter.mpr ⟨hmem, ?_⟩
      rw [roomOf_unknown (hunknown channel hinherited), if_pos hinherited]
      rfl
    rw [h, known] at htold
    exact hunknown channel hinherited (of_decide_eq_true (List.mem_filter.mp htold).2)
  · intro h
    refine List.filter_congr fun channel hmem => ?_
    by_cases hknown : channel ∈ CHANNEL_TO_ROOM.map Prod.fst
    · rw [roomOf_known hknown, decide_eq_true hknown]
      rfl
    · rw [roomOf_unknown hknown, if_neg (h channel hmem), decide_eq_false hknown]
      rfl

end Known

/-- Whatever the names in a message, it is about the known channels among them and nothing else,
exactly if none of them is a name that every object has. -/
theorem exact_subscriptions (client : SocketId) (channels : List String) (s : Server) :
    (SubscribesExactly client channels s ↔ ∀ channel ∈ channels, channel ∉ objectPrototype) ∧
      (UnsubscribesExactly client channels s ↔
        ∀ channel ∈ channels, channel ∉ objectPrototype) := by
  rw [SubscribesExactly, UnsubscribesExactly, subscribe_eq, unsubscribe_eq, Prod.mk.injEq,
    Prod.mk.injEq, filter_roomOf_eq_known, and_iff_left_iff_imp, and_iff_left_iff_imp]
  exact ⟨fun h => by rw [filterMap_roomOf h, roomsNamed], fun h => by
    rw [filterMap_roomOf h, roomsNamed]⟩

/-- Every object has a `constructor`. -/
theorem not_exact_subscriptions :
    ¬SubscribesExactly "a" ["jobs", "constructor"] (Server.init.accept "a") := by
  intro h
  have htold := congrArg Prod.fst h
  revert htold
  decide

end RealtimeEventsGateway

end RealtimeOps
