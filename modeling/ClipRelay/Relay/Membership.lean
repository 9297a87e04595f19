import ClipRelay.Relay.Queue
import ClipRelay.RoomKey

/-!
# ClipRelay.Relay.Membership

Who hears what happens in a room.

Each room with members has a group: its sessions, with their queues.  A group
that loses its last member is gone.  `broadcast` offers an event to every
member and counts those that took it.
-/

namespace ClipRelay

/-- The name of a session. -/
abbrev SessionId := Nat

/-- The members of a room and the queues they listen on. -/
abbrev Group := Table SessionId QueueId

/-- The groups of all rooms that have members. -/
structure Membership where
  table : Table RoomKey Group := ∅

namespace Membership

/-- The members of a room. -/
def group (g : Membership) (key : RoomKey) : Group := (g.table.get? key).getD ∅

/-- Adds a member to a room, or moves it to another queue. -/
def join (g : Membership) (key : RoomKey) (session : SessionId) (queue : QueueId) : Membership :=
  ⟨g.table.insert key ((g.group key).insert session queue)⟩

/-- Takes a member out of a room, and the room out if it was the last. -/
def leave (g : Membership) (key : RoomKey) (session : SessionId) : Membership :=
  match g.table.get? key with
  | none => g
  | some group =>
    let rest := group.erase session
    if rest.isEmpty then ⟨g.table.erase key⟩ else ⟨g.table.insert key rest⟩

/-- Whether a session is a member of a room. -/
def isMember (g : Membership) (key : RoomKey) (session : SessionId) : Bool :=
  ((g.group key).get? session).isSome

/-- The number of members of a room. -/
def memberCount (g : Membership) (key : RoomKey) : Nat := (g.group key).size

/-- The number of rooms with members. -/
def count (g : Membership) : Nat := g.table.size

/-- Whether the queue of a member takes a frame. -/
def accepts (queues : Queues) (queue : QueueId) : Bool :=
  ((queues.get? queue).map (·.hasRoom)).getD false

/-- Offers a frame to the members of a room one after the other. -/
def offerAll (frame : RelayFrame) : List (SessionId × QueueId) → Queues → Queues × Nat
  | [], queues => (queues, 0)
  | (_, queue) :: members, queues =>
    let (after, n) := offerAll frame members (queues.modify queue (Queue.offer frame))
    (after, if accepts queues queue then n + 1 else n)

/-- Offers an event to the members of a room, and counts those that took it. -/
def broadcast (g : Membership) (key : RoomKey) (event : Event) (queues : Queues) : Queues × Nat :=
  offerAll (.event event) (g.group key).entries queues

/-! ## Groups after joining and leaving -/

theorem group_join (g : Membership) (key key' : RoomKey) (session : SessionId) (queue : QueueId) :
    (g.join key session queue).group key' =
      if key = key' then (g.group key').insert session queue else g.group key' := by
  by_cases h : key = key'
  · subst h
    simp [join, group]
  · simp [join, group, Table.get?_insert, h]

/-- Leaving takes one member out of one group, whether or not the group goes. -/
theorem group_leave (g : Membership) (key key' : RoomKey) (session : SessionId) :
    (g.leave key session).group key' =
      if key = key' then (g.group key').erase session else g.group key' := by
  unfold leave
  by_cases h : key = key'
  · subst h
    cases hg : g.table.get? key with
    | none => simp only [group, hg, if_pos]; rfl
    | some members =>
        by_cases he : (members.erase session).isEmpty
        · have hrest := Table.eq_empty_of_isEmpty he
          simp only [he, if_true, group, hg, Option.getD_some]
          simp only [hrest, Table.get?_erase, if_true, Option.getD_none]
        · simp [group, hg, he]
  · cases hg : g.table.get? key with
    | none => simp only [if_neg h]
    | some members =>
        by_cases he : (members.erase session).isEmpty
        · simp [group, he, Table.get?_erase, h]
        · simp [group, he, Table.get?_insert, h]

/-- No group is kept that has no member. -/
def Tidy (g : Membership) : Prop :=
  ∀ key members, g.table.get? key = some members → members.isEmpty = false

theorem tidy_empty : Tidy {} := by
  intro key members h
  contradiction

theorem Tidy.join {g : Membership} (h : g.Tidy) (key : RoomKey) (session : SessionId)
    (queue : QueueId) : (g.join key session queue).Tidy := by
  intro key' members hm
  rw [Membership.join, Table.get?_insert] at hm
  by_cases hk : key = key'
  · rw [if_pos hk] at hm
    cases hm
    refine Bool.eq_false_iff.mpr fun he => ?_
    have hnone := Table.isEmpty_iff.mp he session
    rw [Table.get?_insert_self] at hnone
    contradiction
  · rw [if_neg hk] at hm
    exact h key' members hm

theorem Tidy.leave {g : Membership} (h : g.Tidy) (key : RoomKey) (session : SessionId) :
    (g.leave key session).Tidy := by
  unfold Membership.leave
  cases hg : g.table.get? key with
  | none => exact h
  | some rest =>
      intro key' members hm
      by_cases he : (rest.erase session).isEmpty
      · simp only [he, if_true, Table.get?_erase] at hm
        by_cases hk : key = key'
        · rw [if_pos hk] at hm; contradiction
        · rw [if_neg hk] at hm; exact h key' members hm
      · simp only [he, Bool.false_eq_true, if_false, Table.get?_insert] at hm
        by_cases hk : key = key'
        · rw [if_pos hk] at hm
          cases hm
          exact Bool.eq_false_iff.mpr he
        · rw [if_neg hk] at hm; exact h key' members hm

/-- A member that joins again, on the same queue, is a member as before. -/
theorem join_eq_self {g : Membership} {key : RoomKey} {session : SessionId} {queue : QueueId}
    (h : (g.group key).get? session = some queue) : g.join key session queue = g := by
  cases hg : g.table.get? key with
  | none =>
      rw [group, hg] at h
      contradiction
  | some members =>
      rw [group, hg, Option.getD_some] at h
      rw [join, group, hg, Option.getD_some, Table.insert_self h, Table.insert_self hg]

/-- Whoever joins and leaves again has changed nothing. -/
theorem Tidy.leave_join {g : Membership} (h : g.Tidy) {key : RoomKey} {session : SessionId}
    (hnew : (g.group key).get? session = none) (queue : QueueId) :
    (g.join key session queue).leave key session = g := by
  have hjoined : (g.join key session queue).table.get? key =
      some ((g.group key).insert session queue) := Table.get?_insert_self _ _ _
  simp only [Membership.leave, hjoined, Table.erase_insert hnew]
  cases hg : g.table.get? key with
  | none =>
      have hempty : (g.group key).isEmpty := by
        rw [group, hg]
        rfl
      rw [if_pos hempty, Membership.join, Table.erase_insert hg]
  | some members =>
      have hgroup : g.group key = members := by rw [group, hg, Option.getD_some]
      have hmember : (g.group key).isEmpty = false := hgroup ▸ h key members hg
      rw [hmember, if_neg Bool.false_ne_true, Membership.join, Table.insert_insert, hgroup,
        Table.insert_self hg]

/-! ## Queues after a broadcast -/

/-- Each queue that is listened on gets the frame once, if no two members share
a queue; no other queue changes. -/
theorem get?_offerAll {members : List (SessionId × QueueId)}
    (h : (members.map Prod.snd).Nodup) (frame : RelayFrame) (queues : Queues) (queue : QueueId) :
    (offerAll frame members queues).1.get? queue =
      if queue ∈ members.map Prod.snd then (queues.get? queue).map (Queue.offer frame)
      else queues.get? queue := by
  induction members generalizing queues with
  | nil => simp [offerAll]
  | cons m members ih =>
      obtain ⟨session, first⟩ := m
      rw [List.map_cons, List.nodup_cons] at h
      simp only [offerAll, ih h.2, Table.get?_modify, List.map_cons, List.mem_cons]
      by_cases hq : first = queue
      · subst hq
        simp [h.1]
      · have hq' : ¬queue = first := fun h => hq h.symm
        simp only [if_neg hq, hq', false_or]

/-- As many members are counted as have room for the frame, if no two share a
queue. -/
theorem snd_offerAll {members : List (SessionId × QueueId)}
    (h : (members.map Prod.snd).Nodup) (frame : RelayFrame) (queues : Queues) :
    (offerAll frame members queues).2 = (members.filter fun m => accepts queues m.2).length := by
  induction members generalizing queues with
  | nil => rfl
  | cons m members ih =>
      obtain ⟨session, first⟩ := m
      rw [List.map_cons, List.nodup_cons] at h
      -- What the first member is offered makes no difference to the others.
      have hothers :
          (members.filter fun m => accepts (queues.modify first (Queue.offer frame)) m.2) =
            members.filter fun m => accepts queues m.2 := by
        refine List.filter_congr fun m hm => ?_
        have hne : first ≠ m.2 := fun heq => h.1 (List.mem_map.mpr ⟨m, hm, heq.symm⟩)
        simp [accepts, Table.get?_modify, hne]
      have hrest := ih h.2 (queues.modify first (Queue.offer frame))
      rw [hothers] at hrest
      cases haccepts : accepts queues first <;> simp [offerAll, haccepts, hrest]

end Membership

end ClipRelay
