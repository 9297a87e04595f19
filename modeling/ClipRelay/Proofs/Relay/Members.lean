import ClipRelay.Proofs.Relay.Effects
import Mathlib.Data.List.Dedup

/-!
# ClipRelay.Proofs.Relay.Members

Who is a member of which room, and how many there are.

In a sound relay the members of a room are the open sessions that are bound to
it (`Sound.isMember_iff`), no group is kept for a room without one, and the two
counts of the relay count what they should: the members of a room, and the
rooms with members.  The sessions that have ended are those that were
disconnected (`Sound.ended_run`).  `members_after_run` says so of the relay
after any run.
-/

namespace ClipRelay.Relay

/-- The sessions that have not ended and are bound to a room. -/
def openSessions (r : Relay) (key : RoomKey) : List (SessionId × Session) :=
  r.sessions.entries.filter fun e => e.2.roomKey? = some key

/-- The rooms to which a session is bound that has not ended, each once. -/
def openRooms (r : Relay) : List RoomKey :=
  (r.sessions.entries.filterMap fun e => e.2.roomKey?).dedup

theorem roomOf?_eq_some_iff {r : Relay} {id : SessionId} {key : RoomKey} :
    r.roomOf? id = some key ↔
      ∃ s b, r.sessions.get? id = some s ∧ s.closed = false ∧ s.binding = some b ∧ b.key = key := by
  rw [roomOf?, Option.bind_eq_some_iff]
  constructor
  · rintro ⟨s, hs, hkey⟩
    rw [Session.roomKey?] at hkey
    cases hc : s.closed with
    | true => rw [hc, if_pos rfl] at hkey; contradiction
    | false =>
        rw [hc, if_neg Bool.false_ne_true, Option.map_eq_some_iff] at hkey
        obtain ⟨b, hb, hk⟩ := hkey
        exact ⟨s, b, hs, hc, hb, hk⟩
  · rintro ⟨s, b, hs, hc, hb, hk⟩
    refine ⟨s, hs, ?_⟩
    rw [Session.roomKey?, hc, if_neg Bool.false_ne_true, hb, Option.map_some, hk]

theorem mem_keys_openSessions {r : Relay} {key : RoomKey} {id : SessionId} :
    id ∈ (r.openSessions key).map Prod.fst ↔ r.roomOf? id = some key := by
  rw [openSessions, List.mem_map, roomOf?, Option.bind_eq_some_iff]
  constructor
  · rintro ⟨⟨id', s⟩, hm, rfl⟩
    obtain ⟨hs, hk⟩ := List.mem_filter.mp hm
    exact ⟨s, Table.mem_entries_iff.mp hs, of_decide_eq_true hk⟩
  · rintro ⟨s, hs, hk⟩
    exact ⟨(id, s), List.mem_filter.mpr ⟨Table.mem_entries_iff.mpr hs, decide_eq_true hk⟩, rfl⟩

/-- The members of a room are the open sessions bound to it, in some order. -/
theorem Sound.keys_group_perm {r : Relay} (h : r.Sound) (key : RoomKey) :
    (r.groups.group key).keys.Perm ((r.openSessions key).map Prod.fst) := by
  have hmembers : (r.groups.group key).keys.Nodup := (r.groups.group key).nodup_keys
  have hsessions : ((r.openSessions key).map Prod.fst).Nodup :=
    r.sessions.nodup_keys.sublist (List.filter_sublist.map _)
  rw [List.perm_ext_iff_of_nodup hmembers hsessions]
  intro id
  rw [Table.mem_keys_iff, mem_keys_openSessions]
  exact h.isMember_iff key id

/-- A room has as many members as there are open sessions bound to it. -/
theorem Sound.memberCount_eq {r : Relay} (h : r.Sound) (key : RoomKey) :
    r.groups.memberCount key = (r.openSessions key).length := by
  rw [Membership.memberCount, ← Table.length_keys, (h.keys_group_perm key).length_eq,
    List.length_map]

theorem mem_openRooms {r : Relay} {key : RoomKey} :
    key ∈ r.openRooms ↔ ∃ id, r.roomOf? id = some key := by
  rw [openRooms, List.mem_dedup, List.mem_filterMap]
  constructor
  · rintro ⟨⟨id, s⟩, hm, hk⟩
    refine ⟨id, ?_⟩
    rw [roomOf?, Table.mem_entries_iff.mp hm]
    exact hk
  · rintro ⟨id, hid⟩
    obtain ⟨s, hs, hk⟩ := Option.bind_eq_some_iff.mp hid
    exact ⟨(id, s), Table.mem_entries_iff.mpr hs, hk⟩

/-- A group is kept for just the rooms that have a member. -/
theorem Sound.mem_keys_groups {r : Relay} (h : r.Sound) (key : RoomKey) :
    key ∈ r.groups.table.keys ↔ ∃ id, r.roomOf? id = some key := by
  rw [Table.mem_keys_iff]
  constructor
  · intro hkey
    obtain ⟨members, hm⟩ := Option.isSome_iff_exists.mp hkey
    have hsome : ¬∀ id, members.get? id = none := fun hnone => by
      have hempty := Table.isEmpty_iff.mpr hnone
      rw [h.tidy key members hm] at hempty
      contradiction
    obtain ⟨id, hid⟩ := not_forall.mp hsome
    refine ⟨id, (h.isMember_iff key id).mp ?_⟩
    rw [Membership.isMember, Membership.group, hm, Option.getD_some]
    exact Option.isSome_iff_ne_none.mpr hid
  · rintro ⟨id, hid⟩
    have hmember := (h.isMember_iff key id).mpr hid
    rw [Membership.isMember, Membership.group] at hmember
    cases hm : r.groups.table.get? key with
    | none => rw [hm] at hmember; contradiction
    | some members => rfl

/-- There are as many groups as rooms with open sessions. -/
theorem Sound.count_eq {r : Relay} (h : r.Sound) : r.groups.count = r.openRooms.length := by
  have hgroups : r.groups.table.keys.Nodup := r.groups.table.nodup_keys
  have hrooms : r.openRooms.Nodup := List.nodup_dedup _
  have hperm : r.groups.table.keys.Perm r.openRooms := by
    rw [List.perm_ext_iff_of_nodup hgroups hrooms]
    intro key
    rw [h.mem_keys_groups, mem_openRooms]
  rw [Membership.count, ← Table.length_keys, hperm.length_eq]

/-! ## Sessions that have ended -/

/-- A session was opened, and has ended. -/
def Ended (r : Relay) (id : SessionId) : Prop :=
  (r.sessions.get? id).map Session.closed = some true

/-- One action ends just the session that it disconnects. -/
theorem Sound.ended_step {r : Relay} (h : r.Sound) (a : Action) (id : SessionId) :
    (r.step a).2.Ended id ↔ r.Ended id ∨ a = .disconnect id ∧ (r.sessions.get? id).isSome := by
  cases a with
  | connect principal capacity =>
      simp only [Ended, Relay.step, Relay.connect, Table.get?_insert]
      by_cases hi : r.nextSession = id
      · simp [hi, h.unused id (Nat.le_of_eq hi)]
      · simp [hi]
  | call now id' request =>
      simp [Ended, Relay.step, h.map_session_perform (f := Session.closed) (fun _ _ => rfl)]
  | read id' count => simp [Ended, Relay.step, (sameCast_read r id' count).sessions]
  | dropQueue id' => simp [Ended, Relay.step, (sameCast_dropQueue r id').sessions]
  | disconnect id' =>
      simp only [Ended, Relay.step, Relay.disconnect]
      by_cases hi : id' = id
      · cases hs : r.sessions.get? id <;> simp [hi, hs]
      · cases hs : r.sessions.get? id' <;> simp [hi, Table.get?_insert]
  | ask now provider request => simp [Ended, Relay.step]

/-- A run ends just the sessions that it disconnects while they are there. -/
theorem Sound.ended_run {r : Relay} (h : r.Sound) (actions : List Action) (id : SessionId) :
    (r.run actions).Ended id ↔ r.Ended id ∨
      ∃ before after, actions = before ++ .disconnect id :: after ∧
        ((r.run before).sessions.get? id).isSome := by
  induction actions generalizing r with
  | nil => simp [Relay.run]
  | cons a actions ih =>
      rw [Relay.run, ih (h.step a), h.ended_step, or_assoc]
      refine or_congr_right ⟨?_, ?_⟩
      · rintro (⟨rfl, hid⟩ | ⟨before, after, rfl, hid⟩)
        · exact ⟨[], actions, rfl, hid⟩
        · exact ⟨a :: before, after, rfl, hid⟩
      · rintro ⟨before, after, heq, hid⟩
        cases before with
        | nil =>
            obtain ⟨rfl, rfl⟩ := List.cons.inj heq
            exact .inl ⟨rfl, hid⟩
        | cons b before =>
            obtain ⟨rfl, rfl⟩ := List.cons.inj heq
            exact .inr ⟨before, after, rfl, hid⟩

/-- **Membership**: after any run, the members of a room are the sessions bound
to it that have not ended, where those that ended are just those that the run
disconnected; a session is a member of one room at most; no group is empty; and
the counts are those of the open sessions of a room and of the rooms with open
sessions. -/
theorem members_after_run (account : AccountSettings) (capacity : Nat) (actions : List Action) :
    let r := (empty account capacity).run actions
    (∀ key id, r.groups.isMember key id ↔
      ∃ s b, r.sessions.get? id = some s ∧ s.closed = false ∧ s.binding = some b ∧ b.key = key) ∧
    (∀ id, r.Ended id ↔ ∃ before after, actions = before ++ .disconnect id :: after ∧
      (((empty account capacity).run before).sessions.get? id).isSome) ∧
    (∀ key key' id, r.groups.isMember key id → r.groups.isMember key' id → key = key') ∧
    (∀ key members, r.groups.table.get? key = some members → 0 < members.size) ∧
    (∀ key, r.groups.memberCount key = (r.openSessions key).length) ∧
    r.groups.count = r.openRooms.length := by
  intro r
  have hsound : r.Sound := (Reachable.empty.run actions).sound
  refine ⟨?_, ?_, ?_, ?_, hsound.memberCount_eq, hsound.count_eq⟩
  · intro key id
    rw [hsound.isMember_iff, roomOf?_eq_some_iff]
  · intro id
    have hnone : ¬(empty account capacity).Ended id := nofun
    rw [Reachable.empty.sound.ended_run, or_iff_right hnone]
  · intro key key' id hkey hkey'
    rw [hsound.isMember_iff] at hkey hkey'
    rw [hkey] at hkey'
    exact Option.some.inj hkey'
  · intro key members hm
    have hne := hsound.tidy key members hm
    rw [Table.isEmpty, List.isEmpty_eq_false_iff] at hne
    exact List.length_pos_iff.mpr hne

end ClipRelay.Relay
