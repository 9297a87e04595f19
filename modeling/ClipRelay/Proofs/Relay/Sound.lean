import ClipRelay.Relay.Run

/-!
# ClipRelay.Proofs.Relay.Sound

The invariant of the relay: who is in which room.

Who hears a room is kept twice.  A session knows the room it is bound to and
whether it has ended; the groups know which sessions are their members.
`Relay.Sound` says that the two agree: the groups are what the sessions make of
them (`Sound.get?_group`).  Every action keeps the relay sound
(`Sound.step`), so every reachable relay is (`Reachable.sound`).

Only joining and ending touch the sessions and the groups.  All other calls
leave both alone, which `SameCast` records.
-/

namespace ClipRelay

/-- The room that a session is heard in: the one it is bound to, until it ends. -/
def Session.roomKey? (s : Session) : Option RoomKey :=
  if s.closed then none else s.binding.map (·.key)

namespace Relay

/-- The room that the session of a name is heard in. -/
def roomOf? (r : Relay) (id : SessionId) : Option RoomKey :=
  (r.sessions.get? id).bind Session.roomKey?

/-- Sessions listen on queues of their own, names are not given twice, and the
groups hold just the sessions that are heard in their rooms. -/
structure Sound (r : Relay) : Prop where
  outbound_eq : ∀ id s, r.sessions.get? id = some s → s.outbound = id
  unused : ∀ id, r.nextSession ≤ id → r.sessions.get? id = none
  get?_group : ∀ key id,
    (r.groups.group key).get? id = if r.roomOf? id = some key then some id else none
  tidy : r.groups.Tidy

theorem sound_empty (account : AccountSettings) (capacity : Nat) :
    (empty account capacity).Sound where
  outbound_eq _ _ h := by cases h
  unused _ _ := rfl
  get?_group _ _ := rfl
  tidy := Membership.tidy_empty

/-- The members of a room, with what waits for them. -/
theorem Sound.members_eq {r : Relay} (h : r.Sound) (key : RoomKey) (id : SessionId) :
    (r.room key).members id = if r.roomOf? id = some key then r.queues.get? id else none := by
  have hmembers : (r.room key).members id =
      ((r.groups.group key).get? id).bind r.queues.get? := rfl
  rw [hmembers, h.get?_group]
  by_cases hk : r.roomOf? id = some key
  · rw [if_pos hk, if_pos hk, Option.bind_some]
  · rw [if_neg hk, if_neg hk, Option.bind_none]

/-- The members of a room are the sessions that are heard in it. -/
theorem Sound.isMember_iff {r : Relay} (h : r.Sound) (key : RoomKey) (id : SessionId) :
    r.groups.isMember key id ↔ r.roomOf? id = some key := by
  rw [Membership.isMember, h.get?_group]
  by_cases hk : r.roomOf? id = some key
  · simp [hk]
  · simp [hk]

theorem Sound.queueOf_eq {r : Relay} (h : r.Sound) {id : SessionId} {s : Session}
    (hs : r.sessions.get? id = some s) : r.queueOf id = r.queues.get? id := by
  rw [queueOf, hs, Option.bind_some, h.outbound_eq id s hs]

/-! ## Calls that leave sessions and groups alone -/

/-- Two relays with the same settings. -/
structure SameSettings (r r' : Relay) : Prop where
  account : r'.account = r.account
  capacity : r'.histories.capacity = r.histories.capacity
  maxSize : r'.files.maxSize = r.files.maxSize

theorem SameSettings.refl (r : Relay) : r.SameSettings r := ⟨rfl, rfl, rfl⟩

theorem SameSettings.trans {r₁ r₂ r₃ : Relay} (h : r₁.SameSettings r₂) (h' : r₂.SameSettings r₃) :
    r₁.SameSettings r₃ :=
  ⟨h'.account.trans h.account, h'.capacity.trans h.capacity, h'.maxSize.trans h.maxSize⟩

/-- Two relays with the same sessions in the same rooms. -/
structure SameCast (r r' : Relay) : Prop extends SameSettings r r' where
  sessions : r'.sessions = r.sessions
  groups : r'.groups = r.groups
  nextSession : r'.nextSession = r.nextSession

theorem SameCast.refl (r : Relay) : r.SameCast r := ⟨.refl r, rfl, rfl, rfl⟩

theorem SameCast.trans {r₁ r₂ r₃ : Relay} (h : r₁.SameCast r₂) (h' : r₂.SameCast r₃) :
    r₁.SameCast r₃ :=
  ⟨h.toSameSettings.trans h'.toSameSettings, h'.sessions.trans h.sessions,
    h'.groups.trans h.groups, h'.nextSession.trans h.nextSession⟩

theorem SameCast.roomOf? {r r' : Relay} (h : r.SameCast r') : r'.roomOf? = r.roomOf? := by
  funext id
  rw [Relay.roomOf?, Relay.roomOf?, h.sessions]

theorem Sound.of_sameCast {r r' : Relay} (h : r.Sound) (same : r.SameCast r') : r'.Sound where
  outbound_eq id s hs := h.outbound_eq id s (same.sessions ▸ hs)
  unused id hid := by
    rw [same.sessions]
    exact h.unused id (same.nextSession ▸ hid)
  get?_group key id := by
    rw [same.groups, same.roomOf?]
    exact h.get?_group key id
  tidy := by
    rw [same.groups]
    exact h.tidy

theorem sameCast_publishText (r : Relay) (b : Binding) (now : Timestamp) (p : TextPublish) :
    r.SameCast (r.publishText b now p).2 := by
  unfold publishText
  cases acceptText now p with
  | error e => exact .refl r
  | ok change => exact ⟨⟨rfl, rfl, rfl⟩, rfl, rfl, rfl⟩

theorem sameCast_publishPointer (r : Relay) (b : Binding) (p : Pointer) :
    r.SameCast (r.publishPointer b p).2 := by
  unfold publishPointer
  cases acceptPointer r.account b p with
  | error e => exact .refl r
  | ok p => exact ⟨⟨rfl, rfl, rfl⟩, rfl, rfl, rfl⟩

theorem sameCast_publishFile (r : Relay) (b : Binding) (now : Timestamp) (p : FilePublish) :
    r.SameCast (r.publishFile b now p).2 := by
  unfold publishFile
  cases acceptFile b.roomId now p with
  | error e => exact .refl r
  | ok item =>
      cases hput : r.files.put b.key item.id p.bytes with
      | error e => simp only [hput]; exact .refl r
      | ok files =>
          simp only [hput]
          exact ⟨⟨rfl, rfl, Payloads.maxSize_of_put hput⟩, rfl, rfl, rfl⟩

/-! ## Joining -/

/-- The relay after a session was bound to a room. -/
def bind (r : Relay) (id : SessionId) (s : Session) (b : Binding) : Relay :=
  { r with sessions := r.sessions.insert id { s with binding := some b } }

/-- The four ways in which joining can go: the caller may not enter the room, is
bound to another one, is bound to it already, or was bound to none. -/
theorem join_cases (r : Relay) (id : SessionId) (s : Session) (roomId secret : String)
    {motive : Result Unit → Prop}
    (refused : ∀ e secrets, r.grant s roomId secret = (.error e, secrets) →
      motive (.error e, { r with secrets }))
    (elsewhere : ∀ wanted secrets b, r.grant s roomId secret = (.ok wanted, secrets) →
      s.binding = some b → b.key ≠ wanted.key →
      motive (.error .joinedElsewhere, { r with secrets }))
    (again : ∀ wanted secrets b, r.grant s roomId secret = (.ok wanted, secrets) →
      s.binding = some b → b.key = wanted.key →
      motive (.ok (), { r with secrets }.enter id s wanted.key))
    (first : ∀ wanted secrets, r.grant s roomId secret = (.ok wanted, secrets) →
      s.binding = none →
      motive (.ok (), ({ r with secrets }.bind id s wanted).enter id
        { s with binding := some wanted } wanted.key)) :
    motive (r.join id s roomId secret) := by
  unfold join
  cases hg : r.grant s roomId secret with
  | mk granted secrets =>
      cases granted with
      | error e => exact refused e secrets hg
      | ok wanted =>
          cases hb : s.binding with
          | none => exact first wanted secrets hg hb
          | some b =>
              by_cases hk : b.key = wanted.key
              · simp only [hk, if_true]
                exact again wanted secrets b hg hb hk
              · simp only [hk, if_false]
                exact elsewhere wanted secrets b hg hb hk

/-- What is sent on joining changes nothing but the queues. -/
theorem sameCast_converge (r : Relay) (s : Session) (key : RoomKey) :
    r.SameCast (r.converge s key) := by
  unfold converge push send
  cases r.pointers.get? key <;> cases ht : r.texts.get? key <;> simp only [ht] <;>
    exact ⟨⟨rfl, rfl, rfl⟩, rfl, rfl, rfl⟩

@[simp] theorem sessions_enter (r : Relay) (id : SessionId) (s : Session) (key : RoomKey) :
    (r.enter id s key).sessions = r.sessions := by
  unfold enter
  split
  · rfl
  · rw [(sameCast_converge _ s key).sessions]

@[simp] theorem nextSession_enter (r : Relay) (id : SessionId) (s : Session) (key : RoomKey) :
    (r.enter id s key).nextSession = r.nextSession := by
  unfold enter
  split
  · rfl
  · rw [(sameCast_converge _ s key).nextSession]

/-- An open session becomes a member of the room it enters, one that has ended
does not stay one. -/
theorem get?_group_enter (r : Relay) (id id' : SessionId) (s : Session) (key key' : RoomKey) :
    ((r.enter id s key).groups.group key').get? id' =
      if key = key' ∧ id = id' then (if s.closed then none else some s.outbound)
      else (r.groups.group key').get? id' := by
  unfold enter
  by_cases hc : s.closed
  · simp only [hc, if_true, Membership.group_leave, Membership.group_join]
    by_cases hk : key = key' <;> by_cases hi : id = id' <;>
      simp [hk, hi, Table.get?_erase, Table.get?_insert]
  · simp only [hc, Bool.false_eq_true, if_false, (sameCast_converge _ s key).groups,
      Membership.group_join]
    by_cases hk : key = key' <;> by_cases hi : id = id' <;> simp [hk, hi, Table.get?_insert]

theorem tidy_enter {r : Relay} (h : r.groups.Tidy) (id : SessionId) (s : Session)
    (key : RoomKey) : (r.enter id s key).groups.Tidy := by
  unfold enter
  split
  · exact (h.join key id s.outbound).leave key id
  · rw [(sameCast_converge _ s key).groups]
    exact h.join key id s.outbound

/-- A session that is bound to a room may enter it again at any time. -/
theorem Sound.enter_again {r : Relay} (h : r.Sound) {id : SessionId} {s : Session} {b : Binding}
    (hs : r.sessions.get? id = some s) (hb : s.binding = some b) : (r.enter id s b.key).Sound := by
  have hroom : (r.enter id s b.key).roomOf? = r.roomOf? := by
    funext id'
    rw [roomOf?, roomOf?, sessions_enter]
  refine ⟨?_, ?_, ?_, tidy_enter h.tidy id s b.key⟩
  · rw [sessions_enter]
    exact h.outbound_eq
  · rw [sessions_enter, nextSession_enter]
    exact h.unused
  · intro key id'
    rw [get?_group_enter, hroom]
    by_cases hki : b.key = key ∧ id = id'
    · obtain ⟨rfl, rfl⟩ := hki
      have hof : r.roomOf? id = s.roomKey? := by rw [roomOf?, hs, Option.bind_some]
      rw [if_pos ⟨rfl, rfl⟩, hof, Session.roomKey?, hb, h.outbound_eq id s hs]
      cases s.closed <;> simp
    · rw [if_neg hki]
      exact h.get?_group key id'

theorem roomOf?_bind (r : Relay) (id id' : SessionId) (s : Session) (b : Binding) :
    (r.bind id s b).roomOf? id' =
      if id = id' then (if s.closed then none else some b.key) else r.roomOf? id' := by
  rw [roomOf?, bind, Table.get?_insert]
  by_cases hi : id = id'
  · simp [hi, Session.roomKey?]
  · simp [hi, roomOf?]

/-- A session that is bound to no room may be bound to one and enter it. -/
theorem Sound.enter_first {r : Relay} (h : r.Sound) {id : SessionId} {s : Session}
    (hs : r.sessions.get? id = some s) (hb : s.binding = none) (b : Binding) :
    ((r.bind id s b).enter id { s with binding := some b } b.key).Sound := by
  have hout := h.outbound_eq id s hs
  -- A session that is bound nowhere is a member nowhere.
  have hnone : r.roomOf? id = none := by
    simp [roomOf?, hs, Session.roomKey?, hb]
  have htidy : (r.bind id s b).groups.Tidy := h.tidy
  refine ⟨?_, ?_, ?_, tidy_enter htidy id _ b.key⟩
  · intro id' s' hs'
    rw [sessions_enter, bind, Table.get?_insert] at hs'
    by_cases hi : id = id'
    · rw [if_pos hi] at hs'
      cases hs'
      rw [← hi]
      exact hout
    · rw [if_neg hi] at hs'
      exact h.outbound_eq id' s' hs'
  · intro id' hid'
    rw [nextSession_enter] at hid'
    rw [sessions_enter, bind, Table.get?_insert]
    have hfresh := h.unused id' hid'
    by_cases hi : id = id'
    · rw [← hi, hs] at hfresh
      contradiction
    · rw [if_neg hi]
      exact hfresh
  · intro key id'
    have hroom : ((r.bind id s b).enter id { s with binding := some b } b.key).roomOf? id' =
        (r.bind id s b).roomOf? id' := by
      rw [roomOf?, roomOf?, sessions_enter]
    have hgroups : (r.bind id s b).groups = r.groups := rfl
    rw [get?_group_enter, hroom, roomOf?_bind, hgroups, h.get?_group]
    by_cases hi : id = id'
    · subst hi
      by_cases hk : b.key = key
      · cases s.closed <;> simp [hk, hout]
      · cases s.closed <;> simp [hk, hnone]
    · simp [hi]

theorem Sound.join {r : Relay} (h : r.Sound) {id : SessionId} {s : Session}
    (hs : r.sessions.get? id = some s) (roomId secret : String) :
    (r.join id s roomId secret).2.Sound := by
  have hsecrets : ∀ secrets, { r with secrets }.Sound :=
    fun _ => h.of_sameCast ⟨⟨rfl, rfl, rfl⟩, rfl, rfl, rfl⟩
  refine join_cases r id s roomId secret (motive := fun result => result.2.Sound) ?_ ?_ ?_ ?_
  · intro e secrets _
    exact hsecrets secrets
  · intro wanted secrets b _ _ _
    exact hsecrets secrets
  · intro wanted secrets b _ hb hk
    rw [← hk]
    exact (hsecrets secrets).enter_again hs hb
  · intro wanted secrets _ hb
    exact (hsecrets secrets).enter_first hs hb wanted

/-! ## All actions -/

theorem Sound.perform {r : Relay} (h : r.Sound) (now : Timestamp) (id : SessionId)
    (request : Request) : (r.perform now id request).2.Sound := by
  cases hs : r.sessions.get? id with
  | none =>
      rw [perform_of_absent hs]
      exact h
  | some s =>
      refine perform_cases hs (motive := fun _ result => result.2.Sound)
        ?_ ?_ ?_ ?_ ?_ ?_ ?_ request
      · exact fun roomId secret => h.join hs roomId secret
      · exact fun _ _ _ => h
      · exact fun b p _ => h.of_sameCast (sameCast_publishText r b now p)
      · exact fun b p _ => h.of_sameCast (sameCast_publishPointer r b p)
      · exact fun b p _ => h.of_sameCast (sameCast_publishFile r b now p)
      · exact fun _ _ _ => h
      · exact fun _ _ _ => h

/-- A new session gets a name that was not in use, and is in no room. -/
theorem roomOf?_connect {r : Relay} (h : r.Sound) (principal : Option Principal) (capacity : Nat) :
    (r.connect principal capacity).2.roomOf? = r.roomOf? := by
  funext id
  simp only [roomOf?, connect, Table.get?_insert]
  by_cases hi : r.nextSession = id
  · rw [if_pos hi, h.unused id (Nat.le_of_eq hi)]
    rfl
  · rw [if_neg hi]

theorem Sound.connect {r : Relay} (h : r.Sound) (principal : Option Principal) (capacity : Nat) :
    (r.connect principal capacity).2.Sound := by
  refine ⟨?_, ?_, ?_, h.tidy⟩
  · intro id s hs
    simp only [Relay.connect, Table.get?_insert] at hs
    by_cases hi : r.nextSession = id
    · rw [if_pos hi] at hs
      cases hs
      exact hi
    · rw [if_neg hi] at hs
      exact h.outbound_eq id s hs
  · intro id hid
    simp only [Relay.connect] at hid
    simp only [Relay.connect, Table.get?_insert]
    rw [if_neg (Nat.ne_of_lt hid)]
    exact h.unused id (Nat.le_of_succ_le hid)
  · intro key id
    rw [roomOf?_connect h]
    exact h.get?_group key id

theorem roomOf?_disconnect (r : Relay) (id id' : SessionId) :
    (r.disconnect id).roomOf? id' = if id = id' then none else r.roomOf? id' := by
  unfold disconnect
  cases hs : r.sessions.get? id with
  | none =>
      by_cases hi : id = id'
      · simp [← hi, roomOf?, hs]
      · rw [if_neg hi]
  | some s =>
      simp only [roomOf?, Table.get?_insert]
      by_cases hi : id = id'
      · simp [hi, Session.roomKey?]
      · simp [hi]

/-- An ended session is a member nowhere. -/
theorem get?_group_disconnect {r : Relay} (h : r.Sound) (id id' : SessionId) (key : RoomKey) :
    ((r.disconnect id).groups.group key).get? id' =
      if id = id' then none else (r.groups.group key).get? id' := by
  have hown := h.get?_group key id
  cases hs : r.sessions.get? id with
  | none =>
      have hroom : r.roomOf? id = none := by simp only [roomOf?, hs, Option.bind_none]
      have hgroups : (r.disconnect id).groups = r.groups := by simp only [disconnect, hs]
      rw [hgroups]
      by_cases hi : id = id'
      · rw [if_pos hi, ← hi, hown, hroom, if_neg (Option.some_ne_none key).symm]
      · rw [if_neg hi]
  | some s =>
      have hroom : r.roomOf? id = s.roomKey? := by simp only [roomOf?, hs, Option.bind_some]
      cases hb : s.binding with
      | none =>
          have hgroups : (r.disconnect id).groups = r.groups := by simp only [disconnect, hs, hb]
          rw [hgroups]
          by_cases hi : id = id'
          · subst hi
            simp [hown, hroom, Session.roomKey?, hb]
          · rw [if_neg hi]
      | some b =>
          have hgroups : (r.disconnect id).groups = r.groups.leave b.key id := by
            simp only [disconnect, hs, hb]
          rw [hgroups, Membership.group_leave]
          by_cases hk : b.key = key
          · rw [if_pos hk, Table.get?_erase]
          · rw [if_neg hk]
            by_cases hi : id = id'
            · subst hi
              simp [hown, hroom, Session.roomKey?, hb, hk]
            · rw [if_neg hi]

theorem Sound.disconnect {r : Relay} (h : r.Sound) (id : SessionId) : (r.disconnect id).Sound where
  outbound_eq id' s' hs' := by
    unfold Relay.disconnect at hs'
    cases hs : r.sessions.get? id with
    | none => simp only [hs] at hs'; exact h.outbound_eq id' s' hs'
    | some s =>
        simp only [hs, Table.get?_insert] at hs'
        by_cases hi : id = id'
        · rw [if_pos hi] at hs'
          cases hs'
          rw [← hi]
          exact h.outbound_eq id s hs
        · rw [if_neg hi] at hs'
          exact h.outbound_eq id' s' hs'
  unused id' hid' := by
    unfold Relay.disconnect at hid' ⊢
    cases hs : r.sessions.get? id with
    | none => simp only [hs] at hid' ⊢; exact h.unused id' hid'
    | some s =>
        simp only [hs, Table.get?_insert] at hid' ⊢
        have hfresh := h.unused id' hid'
        by_cases hi : id = id'
        · rw [← hi, hs] at hfresh
          contradiction
        · rw [if_neg hi]
          exact hfresh
  get?_group key id' := by
    rw [get?_group_disconnect h, roomOf?_disconnect]
    by_cases hi : id = id'
    · simp [hi]
    · simp only [hi, if_false]
      exact h.get?_group key id'
  tidy := by
    unfold Relay.disconnect
    cases hs : r.sessions.get? id with
    | none => exact h.tidy
    | some s =>
        cases hb : s.binding with
        | none => simp only [hb]; exact h.tidy
        | some b => simp only [hb]; exact h.tidy.leave b.key id

theorem sameCast_read (r : Relay) (id : SessionId) (count : Nat) :
    r.SameCast (r.read id count).2 := by
  unfold read
  cases r.sessions.get? id with
  | none => exact .refl r
  | some s => exact ⟨⟨rfl, rfl, rfl⟩, rfl, rfl, rfl⟩

theorem sameCast_dropQueue (r : Relay) (id : SessionId) : r.SameCast (r.dropQueue id) := by
  unfold dropQueue
  cases r.sessions.get? id with
  | none => exact .refl r
  | some s => exact ⟨⟨rfl, rfl, rfl⟩, rfl, rfl, rfl⟩

/-- Every action keeps the relay sound. -/
theorem Sound.step {r : Relay} (h : r.Sound) (a : Action) : (r.step a).2.Sound := by
  cases a with
  | connect principal capacity => exact h.connect principal capacity
  | call now id request => exact h.perform now id request
  | read id count => exact h.of_sameCast (sameCast_read r id count)
  | dropQueue id => exact h.of_sameCast (sameCast_dropQueue r id)
  | disconnect id => exact h.disconnect id
  | ask now provider request => exact h

/-- Every reachable relay is sound. -/
theorem Reachable.sound {account : AccountSettings} {capacity : Nat} {r : Relay}
    (h : Reachable account capacity r) : r.Sound := by
  induction h with
  | empty => exact sound_empty account capacity
  | step a _ ih => exact ih.step a

end Relay

end ClipRelay
