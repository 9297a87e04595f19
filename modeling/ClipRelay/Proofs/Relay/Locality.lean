import ClipRelay.Proofs.Relay.Effects

/-!
# ClipRelay.Proofs.Relay.Locality

A call reads and writes its own room, and no other.

`perform_local` compares rooms and queues before and after a call, and the same
call on two relays.  All rooms but the one that the call is about stay as they
were, members and their queues included; nobody but the caller and the members
of that room is sent anything; and neither the answer nor what becomes of the
room depends on anything outside it.
-/

namespace ClipRelay.Relay

/-! ## One call -/

section
variable {r : Relay} {id : SessionId} {key : RoomKey} {e : Effect} {result : Result Response}

/-- The queue of a session outside the room is left alone, the caller's included
if nothing greets it. -/
theorem TakesEffect.queue_of_outside (h : r.TakesEffect id key e result) {id' : SessionId}
    (hcaller : id = id' → e.greeting = []) (hroom : r.roomOf? id' ≠ some key) :
    result.2.queues.get? id' = r.queues.get? id' := by
  rw [h.queue]
  have hdeliver : e.deliver (id = id') (r.roomOf? id' = some key) = fun q => q :=
    funext fun q => Effect.deliver_of_outside _ _ q hcaller hroom
  rw [hdeliver, Option.map_id']

/-- A member other than the caller is offered the news, and stays a member. -/
theorem TakesEffect.members_of_ne (h : r.TakesEffect id key e result) (hr : r.Sound)
    (hafter : result.2.Sound) {id' : SessionId} (hi : id ≠ id') :
    (result.2.room key).members id' = ((r.room key).members id').map (Queue.offers e.news) := by
  rw [hafter.members_eq, hr.members_eq, h.roomOf?, if_neg hi]
  by_cases hin : r.roomOf? id' = some key
  · rw [if_pos hin, if_pos hin, h.queue]
    refine congrArg (Option.map · _) (funext fun q => ?_)
    rw [Effect.deliver, if_neg hi, if_pos hin]
  · rw [if_neg hin, if_neg hin, Option.map_none]

/-- The queue of a session before and after a call. -/
theorem TakesEffect.queueOf (h : r.TakesEffect id key e result) (hr : r.Sound)
    (hafter : result.2.Sound) {s : Session} (hs : r.sessions.get? id = some s) (id' : SessionId) :
    result.2.queueOf id' =
      (r.queueOf id').map (e.deliver (id = id') (r.roomOf? id' = some key)) := by
  have hsome : (result.2.sessions.get? id').isSome = (r.sessions.get? id').isSome := by
    rw [h.session]
    by_cases hi : id = id'
    · rw [if_pos hi, ← hi, hs]
      rfl
    · rw [if_neg hi]
  cases hb : r.sessions.get? id' with
  | none =>
      rw [hb, Option.isSome_none, Option.isSome_eq_false_iff, Option.isNone_iff_eq_none] at hsome
      rw [Relay.queueOf, Relay.queueOf, hb, hsome]
      rfl
  | some before =>
      rw [hb, Option.isSome_some, Option.isSome_iff_exists] at hsome
      obtain ⟨after, ha⟩ := hsome
      rw [hafter.queueOf_eq ha, hr.queueOf_eq hb, h.queue]

end

theorem roomKey?_eq_some {s : Session} {key : RoomKey} (h : s.roomKey? = some key) :
    ∃ b, s.binding = some b ∧ b.key = key := by
  rw [Session.roomKey?] at h
  cases hc : s.closed with
  | true =>
      rw [hc, if_pos rfl] at h
      contradiction
  | false =>
      rw [hc, if_neg Bool.false_ne_true] at h
      exact Option.map_eq_some_iff.mp h

/-- A call makes nobody a member of another room, and takes nobody out of one. -/
theorem roomKey?_effect {account : AccountSettings} {capacity maxSize : Nat} {b : Binding}
    {key : RoomKey} (hk : b.key ≠ key) (now : Timestamp) (request : Request) (s : Session)
    (k : Kept) :
    (effect account capacity maxSize b now request s k).session.roomKey? = some key ↔
      s.roomKey? = some key := by
  obtain hsame | ⟨hb, hbound⟩ := session_effect account capacity maxSize b now request s k
  · rw [hsame]
  · rw [hbound, Session.roomKey?, Session.roomKey?, hb]
    cases s.closed <;> simp [hk]

/-- A call leaves all rooms alone but the one that it is about. -/
theorem Sound.room_perform_of_ne {r : Relay} (h : r.Sound) {id : SessionId} {s : Session}
    (hs : r.sessions.get? id = some s) {request : Request} {b : Binding}
    (ht : target? r.account s request = some b) (now : Timestamp) {key : RoomKey}
    (hk : b.key ≠ key) : (r.perform now id request).2.room key = r.room key := by
  have heffect := h.takesEffect_perform hs ht now
  have hcaller : r.roomOf? id = s.roomKey? := by rw [roomOf?, hs, Option.bind_some]
  refine Room.ext ?_ fun id' => ?_
  · have hkept := heffect.kept key
    rw [if_neg hk] at hkept
    exact hkept
  · rw [(h.perform now id request).members_eq, h.members_eq]
    have hmember : (r.perform now id request).2.roomOf? id' = some key ↔
        r.roomOf? id' = some key := by
      rw [heffect.roomOf?]
      by_cases hi : id = id'
      · rw [if_pos hi, ← hi, hcaller]
        exact roomKey?_effect hk now request s (r.kept b.key)
      · rw [if_neg hi]
    by_cases hin : r.roomOf? id' = some key
    · rw [if_pos hin, if_pos (hmember.mpr hin)]
      have hother : r.roomOf? id' ≠ some b.key := by
        rw [hin]
        exact fun heq => hk (Option.some.inj heq).symm
      refine heffect.queue_of_outside (fun hi => ?_) hother
      -- The caller is a member of another room, so nothing greets it here.
      rw [← hi, hcaller] at hin
      obtain ⟨b', hb', hkey⟩ := roomKey?_eq_some hin
      exact greeting_effect ht hb' (fun heq => hk (heq ▸ hkey)) now (r.kept b.key)
    · rw [if_neg hin, if_neg fun hafter => hin (hmember.mp hafter)]

/-- A call leaves the queues of all sessions alone but the caller's and those of
the members of the room that it is about. -/
theorem Sound.queueOf_perform_of_outside {r : Relay} (h : r.Sound) {id id' : SessionId}
    {s : Session} (hs : r.sessions.get? id = some s) {request : Request} {b : Binding}
    (ht : target? r.account s request = some b) (now : Timestamp) (hi : id ≠ id')
    (houtside : r.roomOf? id' ≠ some b.key) :
    (r.perform now id request).2.queueOf id' = r.queueOf id' := by
  have heffect := h.takesEffect_perform hs ht now
  rw [heffect.queueOf h (h.perform now id request) hs]
  cases r.queueOf id' with
  | none => rfl
  | some q =>
      rw [Option.map_some, Effect.deliver_of_outside _ _ q (fun heq => absurd heq hi) houtside]

/-! ## The same call on two relays -/

section
variable {r r₂ : Relay} {id : SessionId} {s : Session} {request : Request} {b : Binding}

/-- A call on two relays of the same settings has the same effect on both, if
the caller's session and what is kept of the room are the same. -/
theorem Sound.takesEffect_perform_of_same (h₂ : r₂.Sound) (hsettings : r.SameSettings r₂)
    (hs₂ : r₂.sessions.get? id = some s) (ht : target? r.account s request = some b)
    (hkept : r₂.kept b.key = r.kept b.key) (now : Timestamp) :
    r₂.TakesEffect id b.key
      (effect r.account r.histories.capacity r.files.maxSize b now request s (r.kept b.key))
      (r₂.perform now id request) := by
  rw [← hsettings.account, ← hsettings.capacity, ← hsettings.maxSize, ← hkept]
  rw [← hsettings.account] at ht
  exact h₂.takesEffect_perform hs₂ ht now

/-- What becomes of a room depends on the room and the caller only. -/
theorem Sound.room_perform_of_same (h : r.Sound) (h₂ : r₂.Sound) (hsettings : r.SameSettings r₂)
    (hs : r.sessions.get? id = some s) (hs₂ : r₂.sessions.get? id = some s)
    (hqueue : r₂.queueOf id = r.queueOf id) (ht : target? r.account s request = some b)
    (hroom : r₂.room b.key = r.room b.key) (now : Timestamp) :
    (r₂.perform now id request).2.room b.key = (r.perform now id request).2.room b.key := by
  have hkept : r₂.kept b.key = r.kept b.key := congrArg Room.toKept hroom
  have heffect := h.takesEffect_perform hs ht now
  have heffect₂ := h₂.takesEffect_perform_of_same hsettings hs₂ ht hkept now
  have hafter := h.perform now id request
  have hafter₂ := h₂.perform now id request
  refine Room.ext ?_ fun id' => ?_
  · have hkept' := heffect.kept b.key
    have hkept₂' := heffect₂.kept b.key
    rw [if_pos rfl] at hkept' hkept₂'
    exact hkept₂'.trans hkept'.symm
  · by_cases hi : id = id'
    · subst hi
      have hcaller : r.roomOf? id = s.roomKey? := by rw [roomOf?, hs, Option.bind_some]
      have hcaller₂ : r₂.roomOf? id = s.roomKey? := by rw [roomOf?, hs₂, Option.bind_some]
      rw [h.queueOf_eq hs, h₂.queueOf_eq hs₂] at hqueue
      rw [hafter₂.members_eq, hafter.members_eq, heffect₂.roomOf?, heffect.roomOf?,
        heffect₂.queue, heffect.queue, hcaller₂, hcaller, hqueue]
    · rw [heffect₂.members_of_ne h₂ hafter₂ hi, heffect.members_of_ne h hafter hi, hroom]

/-- What a session is sent depends on its queue and its room only. -/
theorem Sound.queueOf_perform_of_same (h : r.Sound) (h₂ : r₂.Sound)
    (hsettings : r.SameSettings r₂) (hs : r.sessions.get? id = some s)
    (hs₂ : r₂.sessions.get? id = some s) (ht : target? r.account s request = some b)
    (hkept : r₂.kept b.key = r.kept b.key) {id' : SessionId}
    (hqueue : r₂.queueOf id' = r.queueOf id') (hroom : r₂.roomOf? id' = r.roomOf? id')
    (now : Timestamp) :
    (r₂.perform now id request).2.queueOf id' = (r.perform now id request).2.queueOf id' := by
  have heffect := h.takesEffect_perform hs ht now
  have heffect₂ := h₂.takesEffect_perform_of_same hsettings hs₂ ht hkept now
  rw [heffect₂.queueOf h₂ (h₂.perform now id request) hs₂,
    heffect.queueOf h (h.perform now id request) hs, hqueue, hroom]

/-- A session that a room has a queue for is a member, and the queue is its own. -/
theorem Sound.roomOf?_of_members (h : r.Sound) {key : RoomKey} {q : Queue}
    (hm : (r.room key).members id = some q) :
    r.roomOf? id = some key ∧ r.queueOf id = some q := by
  rw [h.members_eq] at hm
  by_cases hin : r.roomOf? id = some key
  · rw [if_pos hin] at hm
    obtain ⟨s, hs, -⟩ := Option.bind_eq_some_iff.mp hin
    exact ⟨hin, (h.queueOf_eq hs).trans hm⟩
  · rw [if_neg hin] at hm
    contradiction

end

/-- What waits for a session before and after a call. -/
theorem TakesEffect.exists_waiting {r : Relay} {id : SessionId} {key : RoomKey} {e : Effect}
    {result : Result Response} (h : r.TakesEffect id key e result) (hr : r.Sound)
    (hafter : result.2.Sound) {s : Session} (hs : r.sessions.get? id = some s) (id' : SessionId) :
    ∃ frames, result.2.waiting id' = r.waiting id' ++ frames := by
  rw [waiting, waiting, h.queueOf hr hafter hs]
  cases r.queueOf id' with
  | none => exact ⟨[], rfl⟩
  | some q => exact Effect.exists_deliver _ _ q

section
variable {r r₂ : Relay} {id : SessionId} {s : Session} {request : Request} {b : Binding}

/-- A session with the same queue in the same room is sent the same. -/
theorem Sound.waiting_perform_of_same (h : r.Sound) (h₂ : r₂.Sound)
    (hsettings : r.SameSettings r₂) (hs : r.sessions.get? id = some s)
    (hs₂ : r₂.sessions.get? id = some s) (ht : target? r.account s request = some b)
    (hkept : r₂.kept b.key = r.kept b.key) {id' : SessionId}
    (hqueue : r₂.queueOf id' = r.queueOf id') (hroom : r₂.roomOf? id' = r.roomOf? id')
    (now : Timestamp) :
    ∃ frames, (r.perform now id request).2.waiting id' = r.waiting id' ++ frames ∧
      (r₂.perform now id request).2.waiting id' = r₂.waiting id' ++ frames := by
  obtain ⟨frames, hframes⟩ :=
    (h.takesEffect_perform hs ht now).exists_waiting h (h.perform now id request) hs id'
  have hafter := h.queueOf_perform_of_same h₂ hsettings hs hs₂ ht hkept hqueue hroom now
  refine ⟨frames, hframes, ?_⟩
  rw [waiting, hafter, ← waiting, hframes, waiting, waiting, hqueue]

end

theorem Reachable.sameSettings_of {account : AccountSettings} {capacity : Nat} {r r₂ : Relay}
    (h : Reachable account capacity r) (h₂ : Reachable account capacity r₂) :
    r.SameSettings r₂ :=
  ⟨h₂.sameSettings.account.trans h.sameSettings.account.symm,
    h₂.sameSettings.capacity.trans h.sameSettings.capacity.symm,
    h₂.sameSettings.maxSize.trans h.sameSettings.maxSize.symm⟩

/-- Two relays with the same room have the same members there, with the same queues. -/
theorem Reachable.members_of_same {account : AccountSettings} {capacity : Nat} {r r₂ : Relay}
    (h : Reachable account capacity r) (h₂ : Reachable account capacity r₂) {key : RoomKey}
    (hroom : r₂.room key = r.room key) {id : SessionId} (hin : r.roomOf? id = some key) :
    r₂.queueOf id = r.queueOf id ∧ r₂.roomOf? id = r.roomOf? id := by
  obtain ⟨s, hs, -⟩ := Option.bind_eq_some_iff.mp hin
  obtain ⟨q, hq⟩ := Option.isSome_iff_exists.mp
    (h.queued id (Option.isSome_iff_exists.mpr ⟨s, hs⟩))
  have hm : (r.room key).members id = some q := by
    rw [h.sound.members_eq, if_pos hin, hq]
  have hm₂ : (r₂.room key).members id = some q := by
    rw [hroom, hm]
  obtain ⟨hin₂, hq₂⟩ := h₂.sound.roomOf?_of_members hm₂
  exact ⟨hq₂.trans (h.sound.roomOf?_of_members hm).2.symm, hin₂.trans hin.symm⟩

/-- The caller and the members of the same room are sent the same. -/
theorem Reachable.waiting_of_same {account : AccountSettings} {capacity : Nat} {r r₂ : Relay}
    (h : Reachable account capacity r) (h₂ : Reachable account capacity r₂) {id : SessionId}
    {s : Session} (hs : r.sessions.get? id = some s) (hs₂ : r₂.sessions.get? id = some s)
    (hqueue : r₂.queueOf id = r.queueOf id) {request : Request} {b : Binding}
    (ht : target? r.account s request = some b) (hroom : r₂.room b.key = r.room b.key)
    (now : Timestamp) {id' : SessionId} (hid' : id' = id ∨ r.groups.isMember b.key id') :
    ∃ frames, (r.perform now id request).2.waiting id' = r.waiting id' ++ frames ∧
      (r₂.perform now id request).2.waiting id' = r₂.waiting id' ++ frames := by
  have hkept : r₂.kept b.key = r.kept b.key := congrArg Room.toKept hroom
  have hboth : r₂.queueOf id' = r.queueOf id' ∧ r₂.roomOf? id' = r.roomOf? id' := by
    obtain rfl | hmember := hid'
    · rw [roomOf?, roomOf?, hs, hs₂]
      exact ⟨hqueue, rfl⟩
    · exact h.members_of_same h₂ hroom ((h.sound.isMember_iff b.key id').mp hmember)
  exact h.sound.waiting_perform_of_same h₂.sound (h.sameSettings_of h₂) hs hs₂ ht hkept
    hboth.1 hboth.2 now

/-! ## Non-interference -/

/-- **Non-interference of calls**: let `key?` be the room that a call is about.
All other rooms, and the queues of all sessions but the caller and the members
of that room, are left as they were.  And on any other relay with the same room
and the same caller, the call gives the same answer, makes the same of the room
and sends the same to the caller and to the members. -/
theorem perform_local {account : AccountSettings} {capacity : Nat} {r : Relay}
    (h : Reachable account capacity r) (now : Timestamp) {id : SessionId} {s : Session}
    (hs : r.sessions.get? id = some s) (request : Request) :
    let key? := (target? account s request).map Binding.key
    let after := (r.perform now id request).2
    (∀ key, key? ≠ some key → after.room key = r.room key) ∧
    (∀ id', id' ≠ id → (∀ key, key? = some key → r.groups.isMember key id' = false) →
      after.queueOf id' = r.queueOf id') ∧
    ∀ r₂, Reachable account capacity r₂ → r₂.sessions.get? id = some s →
      r₂.queueOf id = r.queueOf id → (∀ key, key? = some key → r₂.room key = r.room key) →
      let after₂ := (r₂.perform now id request).2
      (r₂.perform now id request).1 = (r.perform now id request).1 ∧
      (∀ key, key? = some key → after₂.room key = after.room key) ∧
      ∀ id', (id' = id ∨ ∃ key, key? = some key ∧ r.groups.isMember key id') →
        ∃ frames, after.waiting id' = r.waiting id' ++ frames ∧
          after₂.waiting id' = r₂.waiting id' ++ frames := by
  intro key? after
  have hsound := h.sound
  have haccount : r.account = account := h.sameSettings.account
  cases ht : target? account s request with
  | none =>
      -- The call is about no room: it is refused, on all relays alike.
      have hrefused := perform_of_target?_none hs (haccount ▸ ht) now
      have hafter : after = r := congrArg Prod.snd hrefused
      rw [hafter]
      refine ⟨fun _ _ => rfl, fun _ _ _ => rfl, ?_⟩
      intro r₂ h₂ hs₂ _ _ after₂
      have haccount₂ : r₂.account = account := h₂.sameSettings.account
      have hrefused₂ := perform_of_target?_none hs₂ (haccount₂ ▸ ht) now
      have hafter₂ : after₂ = r₂ := congrArg Prod.snd hrefused₂
      rw [hrefused, hrefused₂, hafter₂]
      refine ⟨rfl, fun key hkey => ?_, fun id' _ => ⟨[], ?_, ?_⟩⟩
      · have hnone : key? = none := congrArg (Option.map Binding.key) ht
        rw [hnone] at hkey
        contradiction
      · exact (List.append_nil _).symm
      · exact (List.append_nil _).symm
  | some b =>
      have hkey : key? = some b.key := congrArg (Option.map Binding.key) ht
      rw [← haccount] at ht
      rw [hkey]
      refine ⟨?_, ?_, ?_⟩
      · intro key hne
        exact hsound.room_perform_of_ne hs ht now fun heq => hne (congrArg some heq)
      · intro id' hi hmember
        have houtside : r.roomOf? id' ≠ some b.key := by
          rw [Ne, ← hsound.isMember_iff, hmember b.key rfl]
          exact Bool.false_ne_true
        exact hsound.queueOf_perform_of_outside hs ht now hi.symm houtside
      · intro r₂ h₂ hs₂ hqueue hroom after₂
        have hsettings := h.sameSettings_of h₂
        have hsame := hroom b.key rfl
        have hkept : r₂.kept b.key = r.kept b.key := congrArg Room.toKept hsame
        have heffect := hsound.takesEffect_perform hs ht now
        have heffect₂ := h₂.sound.takesEffect_perform_of_same hsettings hs₂ ht hkept now
        refine ⟨heffect₂.answer.trans heffect.answer.symm, ?_, ?_⟩
        · rintro key ⟨⟩
          exact hsound.room_perform_of_same h₂.sound hsettings hs hs₂ hqueue ht hsame now
        · intro id' hid'
          refine h.waiting_of_same h₂ hs hs₂ hqueue ht hsame now (hid'.imp_right ?_)
          rintro ⟨key, ⟨⟩, hmember⟩
          exact hmember

/-! ## Sample publishes -/

/-- A text that a device publishes. -/
def note : TextPublish where
  deviceId := { octets := List.replicate 16 1 }
  clientItemId := { octets := List.replicate 16 2 }
  clientTime := 0
  text := "note"
  textHash := []

/-- The note as the relay passes it on. -/
def noteChange : TextChange := ⟨note.deviceId, 1, note.text, textHash note.text⟩

/-- A pointer to a note. -/
def notePointer : Pointer where
  roomId := "home"
  origin := note.deviceId
  time := 1
  objectKey := "clips/home/note"
  providerFileId := none
  contentHash := List.replicate 32 0
  sizeBytes := 4
  contentType := plainText

/-- Texts were published in `home` and in `office`.  A pointer that is published in `home`, once
while a session is in `office` and once after that one has ended, leaves `office` alone, and
the answers are the same. -/
theorem perform_local_home :
    let actions : List Action :=
      [.connect none 8, .connect none 8, .call 1 0 (.joinRoom "home" "sesame"),
        .call 1 1 (.joinRoom "office" "mine"), .call 1 0 (.publishText note),
        .call 1 1 (.publishText note)]
    let r := (empty {} 10).run actions
    let r₂ := (empty {} 10).run (actions ++ [.disconnect 1])
    let publish := Request.publishPointer notePointer
    (r.room (.shared "home")).text = some noteChange ∧
      (r.room (.shared "office")).text = some noteChange ∧
      (r.perform 2 0 publish).2.room (.shared "office") = r.room (.shared "office") ∧
      (r₂.perform 2 0 publish).1 = (r.perform 2 0 publish).1 ∧
      ((r₂.perform 2 0 publish).2.room (.shared "home")).pointer =
        ((r.perform 2 0 publish).2.room (.shared "home")).pointer := by
  intro actions r r₂ publish
  let home : Binding := ⟨"home", .shared "home"⟩
  have hs : r.sessions.get? 0 = some ⟨none, 0, some home, false⟩ := rfl
  obtain ⟨hother, -, hsame⟩ := perform_local (.run .empty actions) 2 hs publish
  have hroom : ∀ key, (target? {} ⟨none, 0, some home, false⟩ publish).map Binding.key = some key →
      r₂.room key = r.room key := by
    intro key hkey
    cases hkey
    rfl
  obtain ⟨hanswer, hafter, -⟩ := hsame r₂ (.run .empty _) rfl rfl hroom
  refine ⟨rfl, rfl, hother (.shared "office") (by decide), hanswer, ?_⟩
  rw [hafter (.shared "home") rfl]

end ClipRelay.Relay
