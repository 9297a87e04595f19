import ClipRelay.Proofs.Relay.Sound

/-!
# ClipRelay.Proofs.Relay.Stores

What becomes of the stores and of the queues.

The stores keep everything under the key of a room.  Each write to them is a
change to what is kept of one room (`kept_append`, `kept_put`, `kept_insertText`,
`kept_insertPointer`), and the queues change in two ways only: a broadcast is
offered to the members of a room, and a session that enters one is sent what
greets it.
-/

namespace ClipRelay

namespace Relay

/-! ## Settings -/

theorem sameSettings_enter (r : Relay) (id : SessionId) (s : Session) (key : RoomKey) :
    r.SameSettings (r.enter id s key) := by
  unfold enter
  split
  · exact ⟨rfl, rfl, rfl⟩
  · have h := (sameCast_converge { r with groups := r.groups.join key id s.outbound } s key)
    exact ⟨h.account, h.capacity, h.maxSize⟩

theorem sameSettings_join (r : Relay) (id : SessionId) (s : Session) (roomId secret : String) :
    r.SameSettings (r.join id s roomId secret).2 := by
  refine join_cases r id s roomId secret (motive := fun result => r.SameSettings result.2)
    ?_ ?_ ?_ ?_
  · exact fun _ _ _ => ⟨rfl, rfl, rfl⟩
  · exact fun _ _ _ _ _ _ => ⟨rfl, rfl, rfl⟩
  · intro wanted secrets b _ _ _
    have h := sameSettings_enter { r with secrets } id s wanted.key
    exact ⟨h.account, h.capacity, h.maxSize⟩
  · intro wanted secrets _ _
    have h := sameSettings_enter ({ r with secrets }.bind id s wanted) id
      { s with binding := some wanted } wanted.key
    exact ⟨h.account, h.capacity, h.maxSize⟩

theorem sameSettings_perform (r : Relay) (now : Timestamp) (id : SessionId) (request : Request) :
    r.SameSettings (r.perform now id request).2 := by
  cases hs : r.sessions.get? id with
  | none =>
      rw [perform_of_absent hs]
      exact .refl r
  | some s =>
      refine perform_cases hs (motive := fun _ result => r.SameSettings result.2)
        ?_ ?_ ?_ ?_ ?_ ?_ ?_ request
      · exact fun roomId secret => sameSettings_join r id s roomId secret
      · exact fun _ _ _ => .refl r
      · exact fun b p _ => (sameCast_publishText r b now p).toSameSettings
      · exact fun b p _ => (sameCast_publishPointer r b p).toSameSettings
      · exact fun b p _ => (sameCast_publishFile r b now p).toSameSettings
      · exact fun _ _ _ => .refl r
      · exact fun _ _ _ => .refl r

theorem sameSettings_step (r : Relay) (a : Action) : r.SameSettings (r.step a).2 := by
  cases a with
  | connect principal capacity => exact ⟨rfl, rfl, rfl⟩
  | call now id request => exact sameSettings_perform r now id request
  | read id count => exact (sameCast_read r id count).toSameSettings
  | dropQueue id => exact (sameCast_dropQueue r id).toSameSettings
  | disconnect id =>
      simp only [step, disconnect]
      cases r.sessions.get? id with
      | none => exact .refl r
      | some s => exact ⟨rfl, rfl, rfl⟩
  | ask now provider request => exact .refl r

/-- A run never changes the settings. -/
theorem Reachable.sameSettings {account : AccountSettings} {capacity : Nat} {r : Relay}
    (h : Reachable account capacity r) : (Relay.empty account capacity).SameSettings r := by
  induction h with
  | empty => exact .refl _
  | step a _ ih => exact ih.trans (sameSettings_step _ a)

/-! ## What becomes of what is kept -/

namespace Kept

/-- What a session is sent on joining: the latest pointer, then the latest text. -/
def greeting (k : Kept) : List RelayFrame :=
  (k.pointer.map fun p => RelayFrame.event (.pointerChanged p)).toList ++
    (k.text.map fun t => RelayFrame.event (.textChanged t)).toList

/-- An item is added to the history, with its text if it has one. -/
def record (capacity : Nat) (item : HistoryItem) (text : Option String) (k : Kept) : Kept :=
  let items := item :: k.items
  let kept := items.take capacity
  let dropped := items.drop capacity
  let texts := match text with
    | some t => fun id => if item.id = id then some t else k.itemTexts id
    | none => k.itemTexts
  { k with
    items := kept
    itemTexts := fun id =>
      if RoomHistory.holds dropped id && !RoomHistory.holds kept id then none else texts id }

/-- A payload is stored under the name of an item. -/
def store (itemId : String) (bytes : Bytes) (k : Kept) : Kept :=
  { k with files := fun id => if itemId = id then some bytes else k.files id }

end Kept

/-- The history of a room after an item was added to the history of one room. -/
theorem kept_append (r : Relay) (key key' : RoomKey) (item : HistoryItem) (text : Option String) :
    { r with histories := r.histories.append key item text }.kept key' =
      if key = key' then (r.kept key').record r.histories.capacity item text else r.kept key' := by
  by_cases hk : key = key'
  · rw [if_pos hk]
    ext1
    · rfl
    · rfl
    · rfl
    · simp only [kept, Histories.room_append, if_pos hk]
      rfl
    · funext id
      simp only [kept, Histories.room_append, if_pos hk, RoomHistory.append, Kept.record]
      rw [RoomHistory.get?_forget]
      cases text with
      | none => rfl
      | some t =>
          simp only [Table.get?_insert]
          rfl
    · rfl
  · rw [if_neg hk]
    simp only [kept, Histories.room_append, if_neg hk]

theorem kept_insertText (r : Relay) (key key' : RoomKey) (change : TextChange) :
    { r with texts := r.texts.insert key change }.kept key' =
      if key = key' then { r.kept key' with text := some change } else r.kept key' := by
  by_cases hk : key = key' <;> simp [kept, Table.get?_insert, hk]

theorem kept_insertPointer (r : Relay) (key key' : RoomKey) (p : Pointer) :
    { r with pointers := r.pointers.insert key p }.kept key' =
      if key = key' then { r.kept key' with pointer := some p } else r.kept key' := by
  by_cases hk : key = key' <;> simp [kept, Table.get?_insert, hk]

theorem kept_put {r : Relay} {key : RoomKey} {itemId : String} {bytes : Bytes} {files : Payloads}
    (h : r.files.put key itemId bytes = .ok files) (key' : RoomKey) :
    { r with files }.kept key' =
      if key = key' then (r.kept key').store itemId bytes else r.kept key' := by
  have hfiles : files.get? key' = fun id =>
      if key = key' ∧ itemId = id then some bytes else r.files.get? key' id :=
    funext (Payloads.get?_of_put h key')
  by_cases hk : key = key'
  · simp only [kept, hfiles, hk, true_and, if_true, Kept.store]
  · simp only [kept, hfiles, hk, false_and, if_false]

/-- The events that a text brings. -/
def textNews (roomId : String) (change : TextChange) : List Event :=
  [.textChanged change, .historyItemAdded (textItem roomId change)]

/-! ## Broadcasts -/

/-- Offers some events to the members of a room, one after the other. -/
def broadcastAll (r : Relay) (key : RoomKey) (events : List Event) : Relay :=
  events.foldl (fun r e => r.broadcast key e) r

theorem sameCast_broadcast (r : Relay) (key : RoomKey) (e : Event) :
    r.SameCast (r.broadcast key e) := ⟨⟨rfl, rfl, rfl⟩, rfl, rfl, rfl⟩

/-- Every member of a room listens on the queue of its own name. -/
theorem Sound.queues_group {r : Relay} (h : r.Sound) (key : RoomKey) :
    (r.groups.group key).entries.map Prod.snd = (r.groups.group key).keys := by
  refine List.map_congr_left fun ⟨id, queue⟩ hm => ?_
  have hget := Table.mem_entries_iff.mp hm
  rw [h.get?_group] at hget
  by_cases hk : r.roomOf? id = some key
  · rw [if_pos hk] at hget
    exact (Option.some.inj hget).symm
  · rw [if_neg hk] at hget
    contradiction

theorem Sound.nodup_queues_group {r : Relay} (h : r.Sound) (key : RoomKey) :
    ((r.groups.group key).entries.map Prod.snd).Nodup := by
  rw [h.queues_group]
  exact (r.groups.group key).nodup_keys

/-- Just the members of a room are offered what is broadcast in it. -/
theorem Sound.get?_broadcast {r : Relay} (h : r.Sound) (key : RoomKey) (e : Event)
    (id : SessionId) :
    (r.broadcast key e).queues.get? id =
      if r.roomOf? id = some key then (r.queues.get? id).map (Queue.offer (.event e))
      else r.queues.get? id := by
  have hmem : id ∈ (r.groups.group key).keys ↔ r.roomOf? id = some key := by
    rw [Table.mem_keys_iff, h.get?_group]
    by_cases hk : r.roomOf? id = some key <;> simp [hk]
  have hbroadcast : (r.broadcast key e).queues =
      (Membership.offerAll (.event e) (r.groups.group key).entries r.queues).1 := rfl
  rw [hbroadcast, Membership.get?_offerAll (h.nodup_queues_group key), h.queues_group]
  simp only [hmem]

theorem Sound.get?_broadcastAll {r : Relay} (h : r.Sound) (key : RoomKey) (events : List Event)
    (id : SessionId) :
    (r.broadcastAll key events).queues.get? id =
      if r.roomOf? id = some key then (r.queues.get? id).map (Queue.offers events)
      else r.queues.get? id := by
  induction events generalizing r with
  | nil => cases hq : r.queues.get? id <;> simp [broadcastAll, Queue.offers, hq]
  | cons e events ih =>
      have hcons : r.broadcastAll key (e :: events) = (r.broadcast key e).broadcastAll key events :=
        rfl
      have hsame := sameCast_broadcast r key e
      rw [hcons, ih (h.of_sameCast hsame), hsame.roomOf?, h.get?_broadcast]
      by_cases hk : r.roomOf? id = some key
      · simp only [if_pos hk, Option.map_map]
        rfl
      · simp only [if_neg hk]

theorem sameCast_broadcastAll (r : Relay) (key : RoomKey) (events : List Event) :
    r.SameCast (r.broadcastAll key events) := by
  induction events generalizing r with
  | nil => exact .refl r
  | cons e events ih => exact (sameCast_broadcast r key e).trans (ih (r.broadcast key e))

theorem kept_broadcastAll (r : Relay) (key key' : RoomKey) (events : List Event) :
    (r.broadcastAll key events).kept key' = r.kept key' := by
  induction events generalizing r with
  | nil => rfl
  | cons e events ih => exact ih (r.broadcast key e)

/-! ## Entering a room -/

/-- On joining, a session is sent what greets it; nobody else is sent anything. -/
theorem get?_queues_converge (r : Relay) (s : Session) (key : RoomKey) (queue : QueueId) :
    (r.converge s key).queues.get? queue =
      if s.outbound = queue then (r.queues.get? queue).map (Queue.sendAll (r.kept key).greeting)
      else r.queues.get? queue := by
  have hpointer : (r.kept key).pointer = r.pointers.get? key := rfl
  have htext : (r.kept key).text = r.texts.get? key := rfl
  unfold converge push send Kept.greeting
  rw [hpointer, htext]
  by_cases hq : s.outbound = queue
  · simp only [if_pos hq]
    cases r.pointers.get? key <;> cases r.texts.get? key <;>
      simp [hq, Table.get?_modify, Queue.sendAll_nil, Queue.sendAll_cons]
  · simp only [if_neg hq]
    cases r.pointers.get? key <;> cases r.texts.get? key <;> simp [hq, Table.get?_modify]

/-- A session that has ended is greeted no more. -/
theorem get?_queues_enter (r : Relay) (id : SessionId) (s : Session) (key : RoomKey)
    (queue : QueueId) :
    (r.enter id s key).queues.get? queue =
      if s.outbound = queue then
        (r.queues.get? queue).map fun q =>
          if s.closed then q else q.sendAll (r.kept key).greeting
      else r.queues.get? queue := by
  unfold enter
  cases hc : s.closed with
  | true => simp
  | false =>
      have hroom : ({ r with groups := r.groups.join key id s.outbound }.kept key).greeting =
          (r.kept key).greeting := rfl
      simp only [Bool.false_eq_true, if_false, get?_queues_converge, hroom]

theorem kept_converge (r : Relay) (s : Session) (key key' : RoomKey) :
    (r.converge s key).kept key' = r.kept key' := by
  unfold converge push send
  cases r.pointers.get? key <;> cases ht : r.texts.get? key <;> simp only [ht] <;> rfl

theorem kept_enter (r : Relay) (id : SessionId) (s : Session) (key key' : RoomKey) :
    (r.enter id s key).kept key' = r.kept key' := by
  unfold enter
  split
  · rfl
  · exact kept_converge _ s key key'

/-- Only calls change what is kept of a room. -/
theorem kept_step_of_not_call (r : Relay) {a : Action}
    (h : ∀ now id request, a ≠ .call now id request) (key : RoomKey) :
    (r.step a).2.kept key = r.kept key := by
  cases a with
  | connect principal capacity => rfl
  | call now id request => exact absurd rfl (h now id request)
  | read id count =>
      simp only [step, read]
      cases r.sessions.get? id <;> rfl
  | dropQueue id =>
      simp only [step, dropQueue]
      cases r.sessions.get? id <;> rfl
  | disconnect id =>
      simp only [step, disconnect]
      cases r.sessions.get? id <;> rfl
  | ask now provider request => rfl

end Relay

end ClipRelay
