import ClipRelay.Proofs.Relay.Locality

/-!
# ClipRelay.Proofs.Relay.Isolation

What the accounts see of each other.

In account mode all that a session does is about rooms whose keys begin with
its subject (`Owned`).  Two runs are compared, one of them without anything that
was done on behalf of one subject: `Alike` relates the relays of the two while
another subject cannot tell them apart.  It does not follow the queues of third
parties, who may share keys with both.  Where the keys of the two subjects never
coincide, an action of the first keeps the relays alike (`Owned.alike_hidden`),
and so does any other action taken on both (`Alike.step`).

So a subject sees the same in both runs (`Alike.view_without`).
-/

namespace ClipRelay.Relay

/-! ## What is done for a subject, and what it sees -/

/-- The subject who opened a session. -/
def subjectOf? (r : Relay) (id : SessionId) : Option String :=
  (r.sessions.get? id).bind fun x => x.principal.map Principal.subject

/-- The subject on whose behalf an action is taken, as the session or the token
says.  A connection that opens acts for nobody yet. -/
def actor? (r : Relay) : Action → Option String
  | .connect _ _ => none
  | .call _ id _ | .read id _ | .dropQueue id | .disconnect id => r.subjectOf? id
  | .ask now _ request => (Http.callerOf r.account now request).toOption.map Principal.subject

/-- What comes to light in a run for a subject: the answers that it gets, the
frames that its sessions receive and the pages that it is shown. -/
def view (s : String) (r : Relay) : List Action → List Observation
  | [] => []
  | a :: as =>
    let rest := view s (r.step a).2 as
    if r.actor? a = some s then (r.step a).1 :: rest else rest

/-- The actions of a run but those on behalf of a subject. -/
def without (t : String) (r : Relay) : List Action → List Action
  | [] => []
  | a :: as =>
    let rest := without t (r.step a).2 as
    if r.actor? a = some t then rest else a :: rest

/-! ## Rooms have owners -/

/-- A sound relay in account mode, where every session that is bound to a room
is bound to one of its subject's own. -/
structure Owned (r : Relay) : Prop extends Sound r where
  enabled : r.account.enabled
  owner : ∀ id x b, r.sessions.get? id = some x → x.binding = some b →
    ∃ p, x.principal = some p ∧ b.key = .forSubject p.subject b.roomId

theorem owned_empty {account : AccountSettings} (h : account.enabled) (capacity : Nat) :
    (empty account capacity).Owned where
  toSound := sound_empty account capacity
  enabled := h
  owner _ _ _ hs _ := by cases hs

section
variable {r : Relay} {id : SessionId} {x : Session} {request : Request} {b : Binding}

theorem subjectOf?_of_session (hx : r.sessions.get? id = some x) {p : Principal}
    (hp : x.principal = some p) : r.subjectOf? id = some p.subject := by
  rw [subjectOf?, hx, Option.bind_some, hp, Option.map_some]

/-- What a session does is about a room of its subject's own. -/
theorem Owned.target (h : r.Owned) (hx : r.sessions.get? id = some x)
    (ht : target? r.account x request = some b) :
    ∃ p, x.principal = some p ∧ b.key = .forSubject p.subject b.roomId := by
  cases request with
  | joinRoom roomId secret =>
      rw [target?, wanted?, if_pos h.enabled] at ht
      obtain ⟨p, hp, hb⟩ := Option.map_eq_some_iff.mp ht
      exact ⟨p, hp, hb ▸ rfl⟩
  | _ => exact h.owner id x b hx ht

theorem Owned.key_of_target (h : r.Owned) (hx : r.sessions.get? id = some x)
    (ht : target? r.account x request = some b) {s : String} (hid : r.subjectOf? id = some s) :
    b.key = .forSubject s b.roomId := by
  obtain ⟨p, hp, hk⟩ := h.target hx ht
  rw [subjectOf?_of_session hx hp, Option.some.injEq] at hid
  rw [hk, hid]

theorem Owned.key_of_roomOf? (h : r.Owned) {key : RoomKey} (hroom : r.roomOf? id = some key) :
    ∃ subject roomId, r.subjectOf? id = some subject ∧ key = .forSubject subject roomId := by
  obtain ⟨x, hx, hkey⟩ := Option.bind_eq_some_iff.mp hroom
  obtain ⟨b, hb, rfl⟩ := roomKey?_eq_some hkey
  obtain ⟨p, hp, hk⟩ := h.owner id x b hx hb
  exact ⟨p.subject, b.roomId, subjectOf?_of_session hx hp, hk⟩

/-- In account mode what a call makes of its session does not depend on what is
kept of the room. -/
theorem session_effect_of_enabled {account : AccountSettings} (h : account.enabled)
    (capacity maxSize : Nat) (b : Binding) (now : Timestamp) (request : Request) (x : Session)
    (k k' : Kept) :
    (effect account capacity maxSize b now request x k).session =
      (effect account capacity maxSize b now request x k').session := by
  cases request with
  | joinRoom roomId secret =>
      simp only [effect, joinEffect, admission, if_pos h, if_true]
      cases x.binding with
      | none => rfl
      | some b' =>
          by_cases hk : b'.key = b.key
          · simp only [if_pos hk]
          · simp only [if_neg hk]
  | publishText p =>
      simp only [effect, textEffect]
      cases acceptText now p <;> rfl
  | publishPointer p =>
      simp only [effect, pointerEffect]
      cases acceptPointer account b p <;> rfl
  | publishFile p =>
      simp only [effect, fileEffect]
      cases acceptFile b.roomId now p with
      | error e => rfl
      | ok item =>
          simp only
          cases Payloads.fault? maxSize p.bytes <;> rfl
  | getHistory limit => rfl
  | getHistoryText itemId => rfl

end

theorem Owned.perform {r : Relay} (h : r.Owned) (now : Timestamp) (id : SessionId)
    (request : Request) : (r.perform now id request).2.Owned := by
  cases hx : r.sessions.get? id with
  | none =>
      rw [perform_of_absent hx]
      exact h
  | some x =>
      cases ht : target? r.account x request with
      | none =>
          rw [perform_of_target?_none hx ht]
          exact h
      | some b =>
          have heffect := h.takesEffect_perform hx ht now
          refine ⟨h.toSound.perform now id request, ?_, ?_⟩
          · rw [heffect.account]
            exact h.enabled
          · intro id' x' b' hx' hb'
            rw [heffect.session] at hx'
            by_cases hi : id = id'
            · rw [if_pos hi, Option.some.injEq] at hx'
              obtain hsame | ⟨-, hbound⟩ := session_effect r.account r.histories.capacity
                r.files.maxSize b now request x (r.kept b.key)
              · rw [hsame] at hx'
                subst hx'
                exact h.owner id x b' hx hb'
              · obtain ⟨p, hp, hk⟩ := h.target hx ht
                rw [hbound] at hx'
                subst hx'
                cases hb'
                exact ⟨p, hp, hk⟩
            · rw [if_neg hi] at hx'
              exact h.owner id' x' b' hx' hb'

theorem Owned.of_sameCast {r r' : Relay} (h : r.Owned) (same : r.SameCast r') : r'.Owned where
  toSound := h.toSound.of_sameCast same
  enabled := by
    rw [same.account]
    exact h.enabled
  owner id x b hx := h.owner id x b (same.sessions ▸ hx)

theorem Owned.step {r : Relay} (h : r.Owned) (a : Action) : (r.step a).2.Owned := by
  cases a with
  | connect principal capacity =>
      refine ⟨h.connect principal capacity, h.enabled, ?_⟩
      intro id x b hx hb
      simp only [Relay.step, Relay.connect, Table.get?_insert] at hx
      by_cases hi : r.nextSession = id
      · -- A new session is bound to no room.
        rw [if_pos hi] at hx
        cases hx
        contradiction
      · rw [if_neg hi] at hx
        exact h.owner id x b hx hb
  | call now id request => exact h.perform now id request
  | read id count => exact h.of_sameCast (sameCast_read r id count)
  | dropQueue id => exact h.of_sameCast (sameCast_dropQueue r id)
  | disconnect id =>
      have hsound := h.disconnect id
      simp only [Relay.step, Relay.disconnect] at hsound ⊢
      cases hx : r.sessions.get? id with
      | none => exact h
      | some x =>
          rw [hx] at hsound
          refine ⟨hsound, h.enabled, ?_⟩
          intro id' x' b hx' hb
          simp only [Table.get?_insert] at hx'
          by_cases hi : id = id'
          · rw [if_pos hi] at hx'
            cases hx'
            exact h.owner id x b hx hb
          · rw [if_neg hi] at hx'
            exact h.owner id' x' b hx' hb
  | ask now provider request => exact h

/-! ## Relays that a subject cannot tell apart -/

/-- Two relays in which the sessions of all subjects but `t` are the same, the
rooms of `s` hold the same, and the same waits for the sessions of `s`. -/
structure Alike (s t : String) (r r₂ : Relay) : Prop extends SameSettings r r₂ where
  nextSession : r₂.nextSession = r.nextSession
  principal : ∀ id,
    (r₂.sessions.get? id).map Session.principal = (r.sessions.get? id).map Session.principal
  session : ∀ id, r.subjectOf? id ≠ some t →
    r₂.sessions.get? id = r.sessions.get? id
  kept : ∀ roomId, r₂.kept (.forSubject s roomId) = r.kept (.forSubject s roomId)
  queue : ∀ id, r.subjectOf? id = some s →
    r₂.queues.get? id = r.queues.get? id

section
variable {s t : String} {r r₂ r₃ : Relay}

theorem subjectOf?_of_map_eq (h : ∀ id,
    (r₂.sessions.get? id).map Session.principal = (r.sessions.get? id).map Session.principal)
    (id : SessionId) : r₂.subjectOf? id = r.subjectOf? id := by
  have hmap (r : Relay) : r.subjectOf? id =
      ((r.sessions.get? id).map Session.principal).bind (Option.map Principal.subject) := by
    rw [subjectOf?]
    cases r.sessions.get? id <;> rfl
  rw [hmap, hmap, h]

theorem Alike.subjectOf? (h : Alike s t r r₂) (id : SessionId) :
    r₂.subjectOf? id = r.subjectOf? id := subjectOf?_of_map_eq h.principal id

theorem Alike.actor? (h : Alike s t r r₂) (a : Action) : r₂.actor? a = r.actor? a := by
  cases a with
  | ask now provider request => simp only [Relay.actor?, h.account]
  | connect principal capacity => rfl
  | _ => simp only [Relay.actor?, h.subjectOf?]

theorem Alike.refl (s t : String) (r : Relay) : Alike s t r r :=
  ⟨.refl r, rfl, fun _ => rfl, fun _ _ => rfl, fun _ => rfl, fun _ _ => rfl⟩

/-- A relay `r'` that is like `r` for `s` is like any other relay that `r` is like. -/
theorem Alike.of_left (h' : Alike s t r r₃) (h : Alike s t r r₂) : Alike s t r₃ r₂ where
  account := h.account.trans h'.account.symm
  capacity := h.capacity.trans h'.capacity.symm
  maxSize := h.maxSize.trans h'.maxSize.symm
  nextSession := h.nextSession.trans h'.nextSession.symm
  principal id := (h.principal id).trans (h'.principal id).symm
  session id hid := by
    rw [h'.subjectOf?] at hid
    exact (h.session id hid).trans (h'.session id hid).symm
  kept roomId := (h.kept roomId).trans (h'.kept roomId).symm
  queue id hid := by
    rw [h'.subjectOf?] at hid
    exact (h.queue id hid).trans (h'.queue id hid).symm

/-- The sessions of `s` are in rooms with keys of `s` only. -/
theorem Owned.roomOf?_ne (h : r.Owned) {key : RoomKey}
    (hkey : ∀ roomId, key ≠ .forSubject s roomId) {id : SessionId}
    (hid : r.subjectOf? id = some s) : r.roomOf? id ≠ some key := by
  intro hroom
  obtain ⟨subject, roomId, hsubject, rfl⟩ := h.key_of_roomOf? hroom
  rw [hsubject, Option.some.injEq] at hid
  exact hkey roomId (hid ▸ rfl)

/-- A call about a room that has no key of `s` is not noticed by `s`. -/
theorem Owned.unnoticed (h : r.Owned) {id : SessionId} {x : Session}
    (hx : r.sessions.get? id = some x) {request : Request} {b : Binding}
    (ht : target? r.account x request = some b) (now : Timestamp)
    (hkey : ∀ roomId, b.key ≠ .forSubject s roomId) :
    (∀ roomId, (r.perform now id request).2.kept (.forSubject s roomId) =
      r.kept (.forSubject s roomId)) ∧
    ∀ id', r.subjectOf? id' = some s →
      (r.perform now id request).2.queues.get? id' = r.queues.get? id' := by
  have heffect := h.takesEffect_perform hx ht now
  refine ⟨fun roomId => ?_, fun id' hid' => ?_⟩
  · rw [heffect.kept, if_neg (hkey roomId)]
  · refine heffect.queue_of_outside (fun hi => ?_) (h.roomOf?_ne hkey hid')
    -- The caller is another subject's session, as what it does is about another key.
    rw [← hi] at hid'
    exact absurd (h.key_of_target hx ht hid') (hkey b.roomId)

/-- Who opened a session is settled once and for all. -/
theorem Sound.principal_perform (h : r.Sound) (now : Timestamp) (id id' : SessionId)
    (request : Request) :
    ((r.perform now id request).2.sessions.get? id').map Session.principal =
      (r.sessions.get? id').map Session.principal :=
  h.map_session_perform (fun _ _ => rfl) now id id' request

theorem Sound.subjectOf?_perform (h : r.Sound) (now : Timestamp) (id id' : SessionId)
    (request : Request) :
    (r.perform now id request).2.subjectOf? id' = r.subjectOf? id' :=
  subjectOf?_of_map_eq (fun id' => h.principal_perform now id id' request) id'

/-- Nor does a call change on whose behalf an action is taken. -/
theorem Sound.actor?_perform (h : r.Sound) (now : Timestamp) (id : SessionId) (request : Request)
    (a : Action) : (r.perform now id request).2.actor? a = r.actor? a := by
  cases a with
  | ask now provider request => simp only [Relay.actor?, (sameSettings_perform r _ id _).account]
  | connect principal capacity => rfl
  | _ => simp only [Relay.actor?, h.subjectOf?_perform]

/-- The relay after something was done to the queue of a session. -/
def touch (r : Relay) (id : SessionId) (f : Queue → Queue) : Relay :=
  match r.sessions.get? id with
  | none => r
  | some x => { r with queues := r.queues.modify x.outbound f }

/-! ## Actions that are hidden -/

/-- What is done to the queue of another subject's session is not noticed. -/
theorem Sound.alike_touch (h : r.Sound) {id : SessionId}
    (hid : r.subjectOf? id = some t) (hst : s ≠ t)
    (f : Queue → Queue) : Alike s t r (r.touch id f) := by
  unfold touch
  cases hx : r.sessions.get? id with
  | none => exact .refl s t r
  | some x =>
      refine ⟨⟨rfl, rfl, rfl⟩, rfl, fun _ => rfl, fun _ _ => rfl, fun _ => rfl, ?_⟩
      intro id' hid'
      simp only [Table.get?_modify, h.outbound_eq id x hx]
      have hi : id ≠ id' := fun hi => by
        rw [← hi, hid, Option.some.injEq] at hid'
        exact hst hid'.symm
      rw [if_neg hi]

theorem alike_disconnect {id : SessionId}
    (hid : r.subjectOf? id = some t) : Alike s t r (r.disconnect id) := by
  unfold disconnect
  cases hx : r.sessions.get? id with
  | none => exact .refl s t r
  | some x =>
      refine ⟨⟨rfl, rfl, rfl⟩, rfl, ?_, ?_, fun _ => rfl, fun _ _ => rfl⟩
      · intro id'
        simp only [Table.get?_insert]
        by_cases hi : id = id'
        · rw [if_pos hi, ← hi, hx, Option.map_some, Option.map_some]
        · rw [if_neg hi]
      · intro id' hid'
        simp only [Table.get?_insert]
        have hi : id ≠ id' := fun hi => hid' (hi ▸ hid)
        rw [if_neg hi]

theorem Owned.alike_perform (h : r.Owned) (hkeys : ∀ x y, RoomKey.forSubject s x ≠ .forSubject t y)
    {id : SessionId} (hid : r.subjectOf? id = some t) (now : Timestamp)
    (request : Request) : Alike s t r (r.perform now id request).2 := by
  cases hx : r.sessions.get? id with
  | none =>
      rw [perform_of_absent hx]
      exact .refl s t r
  | some x =>
      cases ht : target? r.account x request with
      | none =>
          rw [perform_of_target?_none hx ht]
          exact .refl s t r
      | some b =>
          have heffect := h.takesEffect_perform hx ht now
          have hkey (roomId : String) : b.key ≠ .forSubject s roomId := by
            rw [h.key_of_target hx ht hid]
            exact (hkeys roomId b.roomId).symm
          obtain ⟨hkept, hqueue⟩ := h.unnoticed hx ht now hkey
          refine ⟨heffect.toSameSettings, heffect.nextSession, ?_, ?_, hkept, hqueue⟩
          · exact fun id' => h.principal_perform now id id' request
          · intro id' hid'
            have hi : id ≠ id' := fun hi => hid' (hi ▸ hid)
            rw [heffect.session, if_neg hi]

/-- What is done on behalf of another subject is not noticed, if the two have no
keys in common. -/
theorem Owned.alike_hidden (h : r.Owned)
    (hkeys : ∀ x y, RoomKey.forSubject s x ≠ .forSubject t y) {a : Action}
    (ha : r.actor? a = some t) : Alike s t r (r.step a).2 := by
  have hst : s ≠ t := fun hst => hkeys "" "" (hst ▸ rfl)
  cases a with
  | connect principal capacity => contradiction
  | call now id request => exact h.alike_perform hkeys ha now request
  | read id count => exact h.alike_touch ha hst (Queue.dropFront count)
  | dropQueue id => exact h.alike_touch ha hst Queue.closed
  | disconnect id => exact alike_disconnect ha
  | ask now provider request => exact .refl s t r

/-! ## Actions that are not hidden -/

theorem Alike.connect (h : Alike s t r r₂) (principal : Option Principal) (capacity : Nat) :
    Alike s t (r.connect principal capacity).2 (r₂.connect principal capacity).2 := by
  have hnext := h.nextSession
  refine ⟨⟨h.account, h.capacity, h.maxSize⟩, ?_, ?_, ?_, h.kept, ?_⟩
  · simp only [Relay.connect, hnext]
  · intro id
    simp only [Relay.connect, hnext, Table.get?_insert]
    by_cases hi : r.nextSession = id
    · rw [if_pos hi, if_pos hi]
    · rw [if_neg hi, if_neg hi, h.principal]
  · intro id hid
    simp only [Relay.connect, hnext, Relay.subjectOf?, Table.get?_insert] at hid ⊢
    by_cases hi : r.nextSession = id
    · rw [if_pos hi, if_pos hi]
    · rw [if_neg hi] at hid
      rw [if_neg hi, if_neg hi, h.session id hid]
  · intro id hid
    simp only [Relay.connect, hnext, Relay.subjectOf?, Table.get?_insert] at hid ⊢
    by_cases hi : r.nextSession = id
    · rw [if_pos hi, if_pos hi]
    · rw [if_neg hi] at hid
      rw [if_neg hi, if_neg hi, h.queue id hid]

theorem Alike.touch (h : Alike s t r r₂) {id : SessionId}
    (hid : r.subjectOf? id ≠ some t) (f : Queue → Queue) :
    Alike s t (r.touch id f) (r₂.touch id f) := by
  unfold Relay.touch
  rw [h.session id hid]
  cases r.sessions.get? id with
  | none => exact h
  | some x =>
      refine ⟨⟨h.account, h.capacity, h.maxSize⟩, h.nextSession, h.principal, h.session, h.kept, ?_⟩
      intro id' hid'
      simp only [Table.get?_modify]
      rw [h.queue id' hid']

theorem Alike.disconnect (h : Alike s t r r₂) {id : SessionId}
    (hid : r.subjectOf? id ≠ some t) :
    Alike s t (r.disconnect id) (r₂.disconnect id) := by
  have hsame := h.session id hid
  unfold Relay.disconnect
  rw [hsame]
  cases hx : r.sessions.get? id with
  | none => exact h
  | some x =>
      have hsubject (id' : SessionId) : Relay.subjectOf?
          { r with sessions := r.sessions.insert id { x with closed := true } } id' =
            r.subjectOf? id' := by
        refine subjectOf?_of_map_eq (fun id' => ?_) id'
        simp only [Table.get?_insert]
        by_cases hi : id = id'
        · rw [if_pos hi, ← hi, hx, Option.map_some, Option.map_some]
        · rw [if_neg hi]
      refine ⟨⟨h.account, h.capacity, h.maxSize⟩, h.nextSession, ?_, ?_, h.kept, ?_⟩
      · intro id'
        simp only [Table.get?_insert]
        by_cases hi : id = id'
        · rw [if_pos hi, if_pos hi]
        · rw [if_neg hi, if_neg hi, h.principal]
      · intro id' hid'
        simp only [Table.get?_insert]
        by_cases hi : id = id'
        · rw [if_pos hi, if_pos hi]
        · rw [if_neg hi, if_neg hi]
          exact h.session id' (hsubject id' ▸ hid')
      · intro id' hid'
        exact h.queue id' (hsubject id' ▸ hid')

/-- A call about a room of `s` has the same effect on relays that are alike for `s`. -/
theorem Alike.takesEffect (h : Alike s t r r₂) (h₂ : r₂.Sound) {id : SessionId} {x : Session}
    (hx₂ : r₂.sessions.get? id = some x) {request : Request} {b : Binding}
    (ht : target? r.account x request = some b) (now : Timestamp)
    (hkey : ∃ roomId, b.key = .forSubject s roomId) :
    r₂.TakesEffect id b.key
      (effect r.account r.histories.capacity r.files.maxSize b now request x (r.kept b.key))
      (r₂.perform now id request) := by
  obtain ⟨roomId, hk⟩ := hkey
  have hkept : r₂.kept b.key = r.kept b.key := by rw [hk, h.kept]
  exact h₂.takesEffect_perform_of_same h.toSameSettings hx₂ ht hkept now

section
variable {id : SessionId} {x : Session} {request : Request} {b : Binding}

/-- The sessions after the same call on both relays. -/
theorem Alike.session_perform (h : Alike s t r r₂) (hr : r.Owned) (h₂ : r₂.Owned)
    (hx : r.sessions.get? id = some x) (hx₂ : r₂.sessions.get? id = some x)
    (ht : target? r.account x request = some b) (ht₂ : target? r₂.account x request = some b)
    (now : Timestamp) {id' : SessionId}
    (hid' : r.subjectOf? id' ≠ some t) :
    (r₂.perform now id request).2.sessions.get? id' =
      (r.perform now id request).2.sessions.get? id' := by
  rw [(h₂.takesEffect_perform hx₂ ht₂ now).session, (hr.takesEffect_perform hx ht now).session,
    h.session id' hid', h.account, h.capacity, h.maxSize,
    session_effect_of_enabled hr.enabled _ _ b now request x (r₂.kept b.key) (r.kept b.key)]

/-- What is kept of the rooms of `s` after the same call on both relays. -/
theorem Alike.kept_perform (h : Alike s t r r₂) (hr : r.Owned) (h₂ : r₂.Owned)
    (hx : r.sessions.get? id = some x) (hx₂ : r₂.sessions.get? id = some x)
    (ht : target? r.account x request = some b) (ht₂ : target? r₂.account x request = some b)
    (now : Timestamp) (roomId : String) :
    (r₂.perform now id request).2.kept (.forSubject s roomId) =
      (r.perform now id request).2.kept (.forSubject s roomId) := by
  by_cases hkey : ∃ roomId, b.key = .forSubject s roomId
  · rw [(h.takesEffect h₂.toSound hx₂ ht now hkey).kept,
      (hr.takesEffect_perform hx ht now).kept, h.kept]
  · have houtside (roomId : String) : b.key ≠ .forSubject s roomId := fun hk => hkey ⟨roomId, hk⟩
    rw [(h₂.unnoticed hx₂ ht₂ now houtside).1, (hr.unnoticed hx ht now houtside).1, h.kept]

/-- The queues of the sessions of `s` after the same call on both relays. -/
theorem Alike.queue_perform (h : Alike s t r r₂) (hr : r.Owned) (h₂ : r₂.Owned) (hst : s ≠ t)
    (hx : r.sessions.get? id = some x) (hx₂ : r₂.sessions.get? id = some x)
    (ht : target? r.account x request = some b) (ht₂ : target? r₂.account x request = some b)
    (now : Timestamp) {id' : SessionId}
    (hid' : r.subjectOf? id' = some s) :
    (r₂.perform now id request).2.queues.get? id' =
      (r.perform now id request).2.queues.get? id' := by
  by_cases hkey : ∃ roomId, b.key = .forSubject s roomId
  · have hnot : r.subjectOf? id' ≠ some t := by
      rw [hid', Ne, Option.some.injEq]
      exact hst
    have hroom : r₂.roomOf? id' = r.roomOf? id' := by
      rw [roomOf?, roomOf?, h.session id' hnot]
    rw [(h.takesEffect h₂.toSound hx₂ ht now hkey).queue,
      (hr.takesEffect_perform hx ht now).queue, hroom, h.queue id' hid']
  · have houtside (roomId : String) : b.key ≠ .forSubject s roomId := fun hk => hkey ⟨roomId, hk⟩
    rw [(h₂.unnoticed hx₂ ht₂ now houtside).2 id' (h.subjectOf? id' ▸ hid'),
      (hr.unnoticed hx ht now houtside).2 id' hid', h.queue id' hid']

end

/-- A call that is not made for `t` keeps relays alike. -/
theorem Alike.perform (h : Alike s t r r₂) (hr : r.Owned) (h₂ : r₂.Owned) (hst : s ≠ t)
    {id : SessionId} (hid : r.subjectOf? id ≠ some t) (now : Timestamp)
    (request : Request) :
    Alike s t (r.perform now id request).2 (r₂.perform now id request).2 := by
  have hsame := h.session id hid
  cases hx : r.sessions.get? id with
  | none =>
      rw [hx] at hsame
      rw [perform_of_absent hx, perform_of_absent hsame]
      exact h
  | some x =>
      rw [hx] at hsame
      cases ht : target? r.account x request with
      | none =>
          have ht₂ : target? r₂.account x request = none := h.account.symm ▸ ht
          rw [perform_of_target?_none hx ht, perform_of_target?_none hsame ht₂]
          exact h
      | some b =>
          have ht₂ : target? r₂.account x request = some b := h.account.symm ▸ ht
          have heffect := hr.takesEffect_perform hx ht now
          have heffect₂ := h₂.takesEffect_perform hsame ht₂ now
          have hsubject (id' : SessionId) := hr.subjectOf?_perform now id id' request
          refine ⟨⟨?_, ?_, ?_⟩, ?_, ?_, fun id' hid' => ?_, ?_, fun id' hid' => ?_⟩
          · rw [heffect₂.account, heffect.account, h.account]
          · rw [heffect₂.capacity, heffect.capacity, h.capacity]
          · rw [heffect₂.maxSize, heffect.maxSize, h.maxSize]
          · rw [heffect₂.nextSession, heffect.nextSession, h.nextSession]
          · intro id'
            rw [h₂.principal_perform, hr.principal_perform, h.principal]
          · rw [hsubject] at hid'
            exact h.session_perform hr h₂ hx hsame ht ht₂ now hid'
          · exact h.kept_perform hr h₂ hx hsame ht ht₂ now
          · rw [hsubject] at hid'
            exact h.queue_perform hr h₂ hst hx hsame ht ht₂ now hid'

/-- A call of `s` is answered alike. -/
theorem Alike.answer (h : Alike s t r r₂) (hr : r.Owned) (h₂ : r₂.Owned) (hst : s ≠ t)
    {id : SessionId} (hid : r.subjectOf? id = some s) (now : Timestamp)
    (request : Request) : (r₂.perform now id request).1 = (r.perform now id request).1 := by
  have hsame := h.session id (by rw [hid, Ne, Option.some.injEq]; exact hst)
  cases hx : r.sessions.get? id with
  | none =>
      rw [hx] at hsame
      rw [perform_of_absent hx, perform_of_absent hsame]
  | some x =>
      rw [hx] at hsame
      cases ht : target? r.account x request with
      | none =>
          have ht₂ : target? r₂.account x request = none := h.account.symm ▸ ht
          rw [perform_of_target?_none hx ht, perform_of_target?_none hsame ht₂]
      | some b =>
          have hkey : ∃ roomId, b.key = .forSubject s roomId :=
            ⟨b.roomId, hr.key_of_target hx ht hid⟩
          rw [(h.takesEffect h₂.toSound hsame ht now hkey).answer,
            (hr.takesEffect_perform hx ht now).answer]

/-- The sessions of `s` receive alike. -/
theorem Alike.waiting (h : Alike s t r r₂) (hr : r.Owned) (h₂ : r₂.Owned) (hst : s ≠ t)
    {id : SessionId} (hid : r.subjectOf? id = some s) :
    r₂.waiting id = r.waiting id := by
  have hsame := h.session id (by rw [hid, Ne, Option.some.injEq]; exact hst)
  rw [Relay.waiting, Relay.waiting]
  cases hx : r.sessions.get? id with
  | none =>
      rw [hx] at hsame
      rw [queueOf, queueOf, hx, hsame]
      rfl
  | some x =>
      rw [hx] at hsame
      rw [h₂.queueOf_eq hsame, hr.queueOf_eq hx, h.queue id hid]

/-- In account mode a page depends on the files of the caller's own rooms only. -/
theorem answer_eq_of_files {account : AccountSettings} (he : account.enabled)
    (hr : r.account = account) (h₂ : r₂.account = account) {now : Timestamp}
    {provider : Lookup → Http.Reply} {request : Http.Request}
    (hfiles : ∀ p roomId, Http.callerOf account now request = .ok p →
      r₂.files.get? (.forSubject p.subject roomId) = r.files.get? (.forSubject p.subject roomId)) :
    Http.answer r₂ now provider request = Http.answer r now provider request := by
  have hdownload (roomId itemId : String) :
      Http.download r₂ now request roomId itemId = Http.download r now request roomId itemId := by
    simp only [Http.download, hr, h₂, if_pos he]
    cases Http.segment? roomId with
    | none => rfl
    | some roomId =>
        cases Http.segment? itemId with
        | none => rfl
        | some itemId =>
            cases hcaller : Http.callerOf account now request with
            | error e => rfl
            | ok p =>
                have hp := hfiles p roomId hcaller
                simp only [Except.map, Http.payload, hp]
  have hroute (route : Http.Route) : Http.answerAt r₂ now provider request route =
      Http.answerAt r now provider request route := by
    cases route with
    | download roomId itemId => exact hdownload roomId itemId
    | _ => simp only [Http.answerAt, hr, h₂]
  simp only [Http.answer, hroute]

/-- An action that is not hidden keeps relays alike, and brings the same to
light for `s`. -/
theorem Alike.step (h : Alike s t r r₂) (hr : r.Owned) (h₂ : r₂.Owned) (hst : s ≠ t) {a : Action}
    (ha : r.actor? a ≠ some t) :
    Alike s t (r.step a).2 (r₂.step a).2 ∧
      (r.actor? a = some s → (r₂.step a).1 = (r.step a).1) := by
  cases a with
  | connect principal capacity => exact ⟨h.connect principal capacity, nofun⟩
  | call now id request =>
      refine ⟨h.perform hr h₂ hst ha now request, fun hs => ?_⟩
      exact congrArg Observation.answered (h.answer hr h₂ hst hs now request)
  | read id count =>
      refine ⟨h.touch ha (Queue.dropFront count), fun hs => ?_⟩
      exact congrArg (Observation.received <| List.take count ·) (h.waiting hr h₂ hst hs)
  | dropQueue id => exact ⟨h.touch ha Queue.closed, fun _ => rfl⟩
  | disconnect id => exact ⟨h.disconnect ha, fun _ => rfl⟩
  | ask now provider request =>
      refine ⟨h, fun hs => congrArg Observation.shown ?_⟩
      refine answer_eq_of_files hr.enabled rfl h.account fun p roomId hcaller => ?_
      rw [Relay.actor?, hcaller] at hs
      have hp : p.subject = s := Option.some.inj hs
      exact congrArg Kept.files (hp ▸ h.kept roomId)

/-- What comes to light for a subject does not depend on what is done on behalf
of another one, if the two have no keys in common. -/
theorem Alike.view_without (hkeys : ∀ x y, RoomKey.forSubject s x ≠ .forSubject t y)
    (h : Alike s t r r₂) (hr : r.Owned) (h₂ : r₂.Owned) (actions : List Action) :
    view s r₂ (without t r actions) = view s r actions := by
  have hst : s ≠ t := fun hst => hkeys "" "" (hst ▸ rfl)
  induction actions generalizing r r₂ with
  | nil => rfl
  | cons a as ih =>
      by_cases ha : r.actor? a = some t
      · have hs : r.actor? a ≠ some s := by
          rw [ha, Ne, Option.some.injEq]
          exact hst.symm
        simp only [view, without, if_pos ha, if_neg hs]
        exact ih ((hr.alike_hidden hkeys ha).of_left h) (hr.step a) h₂
      · obtain ⟨hafter, hseen⟩ := h.step hr h₂ hst ha
        simp only [view, without, if_neg ha, h.actor?, ih hafter (hr.step a) (h₂.step a)]
        by_cases hs : r.actor? a = some s
        · rw [if_pos hs, if_pos hs, hseen hs]
        · rw [if_neg hs, if_neg hs]

end

end ClipRelay.Relay
