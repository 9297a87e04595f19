import ClipRelay.Device.LocalChange
import ClipRelay.Proofs.Binary.Messages
import ClipRelay.Proofs.Relay.Convergence
import ClipRelay.Proofs.Relay.Deliveries
import ClipRelay.Proofs.Relay.FanOut
import ClipRelay.Proofs.Relay.Postings

/-!
# ClipRelay.Proofs.Device.AtRelay

Devices at a relay: what a device does to it through its session, and what it is sent.

A device that publishes something is told so just if the relay accepts it, and then the
sessions in its room are sent nothing but the news of that (`mem_news_of_eventsSince`); one whose
queue has room is sent the first of them at least (`eventsSince_of_hears`).

Two devices share a room (`Together`) either as those of one account or by its name and
secret.  Once both were let in, the relay has them in one room, and both call it by the name
that they joined with (`Together.exists_room`).
-/

namespace ClipRelay

/-- A call that a device makes through a session, at a time of the relay's clock. -/
def throughSession (now : Timestamp) (id : SessionId) (request : Request) :
    Action Relay Response := fun r =>
  ((r.perform now id request).1.mapError fun e => .rpc e.toCallError,
    (r.perform now id request).2)

/-- An action on one part of the surroundings of a device. -/
def Action.onFirst {σ τ α : Type} (act : Action σ α) : Action (σ × τ) α := fun w =>
  ((act w.1).1, (act w.1).2, w.2)

/-- An action on the other part of the surroundings of a device. -/
def Action.onSecond {σ τ α : Type} (act : Action τ α) : Action (σ × τ) α := fun w =>
  ((act w.2).1, w.1, (act w.2).2)

namespace Relay

/-- The events that were queued for a session from one state of a relay to another. -/
def eventsSince (r r' : Relay) (id : SessionId) : List Event :=
  ((r'.waiting id).drop (r.waiting id).length).filterMap RelayFrame.event?

/-- A session is in a room, and its queue has room. -/
structure Hears (r : Relay) (id : SessionId) (key : RoomKey) : Prop where
  room : r.roomOf? id = some key
  queue : ∃ q, r.queueOf id = some q ∧ q.hasRoom

section
variable {r : Relay} {key : RoomKey} {id : SessionId} {p : Publication}

theorem filterMap_event?_map (events : List Event) :
    (events.map RelayFrame.event).filterMap RelayFrame.event? = events := by
  rw [List.filterMap_map]
  exact List.filterMap_some

/-- What a session is sent when something is published: as many of the news as its queue
has room for, if it is in the room. -/
theorem Sound.eventsSince_of_published (h : r.Sound) {q : Queue} (hq : r.queueOf id = some q) :
    r.eventsSince ((p.store r key).broadcastAll key p.news) id =
      if r.roomOf? id = some key ∧ q.receiving then
        p.news.take (q.capacity - q.frames.length)
      else [] := by
  have hafter := h.queueOf_of_published key p id
  rw [hq, Option.map_some] at hafter
  rw [eventsSince, waiting, waiting, hafter, hq]
  by_cases hroom : r.roomOf? id = some key
  · by_cases hreceiving : q.receiving
    · simp only [hroom, hreceiving, Queue.offers_eq, if_true, Option.map_some, Option.getD_some,
        List.drop_left, filterMap_event?_map, and_self]
    · simp [hroom, hreceiving, Queue.offers_eq]
  · simp [hroom]

/-- Whatever a session is sent when something is published is news of that. -/
theorem Sound.mem_news_of_eventsSince (h : r.Sound) {e : Event}
    (he : e ∈ r.eventsSince ((p.store r key).broadcastAll key p.news) id) : e ∈ p.news := by
  cases hq : r.queueOf id with
  | none =>
      have hafter := h.queueOf_of_published key p id
      rw [hq, Option.map_none] at hafter
      simp [eventsSince, waiting, hafter] at he
  | some q =>
      rw [h.eventsSince_of_published hq] at he
      split at he
      · exact List.mem_of_mem_take he
      · cases he

/-- A session in the room whose queue has room is sent the first of the news. -/
theorem Sound.eventsSince_of_hears (h : r.Sound) (hears : r.Hears id key) {first : Event}
    {rest : List Event} (hnews : p.news = first :: rest) :
    ∃ more, r.eventsSince ((p.store r key).broadcastAll key p.news) id = first :: more ∧
      ∀ e ∈ more, e ∈ rest := by
  obtain ⟨hroom, q, hq, hfree⟩ := hears
  simp only [Queue.hasRoom, Bool.and_eq_true, decide_eq_true_eq] at hfree
  obtain ⟨hreceiving, hless⟩ := hfree
  rw [h.eventsSince_of_published hq, if_pos ⟨hroom, hreceiving⟩, hnews]
  obtain ⟨n, hn⟩ : ∃ n, q.capacity - q.frames.length = n + 1 :=
    ⟨q.capacity - q.frames.length - 1, by omega⟩
  exact ⟨rest.take n, by rw [hn, List.take_succ_cons], fun e => List.mem_of_mem_take⟩

/-- An open session in a room is bound to it. -/
theorem exists_binding_of_roomOf? (hroom : r.roomOf? id = some key) :
    ∃ b, r.bindingOf? id = some b ∧ b.key = key := by
  obtain ⟨s, hs, hkey⟩ := Option.bind_eq_some_iff.mp hroom
  obtain ⟨b, hb, hk⟩ := roomKey?_eq_some hkey
  exact ⟨b, (bindingOf?_of_session hs).trans hb, hk⟩

end

/-- A pointer that nothing is wrong with is published as it is in the room that it is for. -/
theorem published?_pointer {r : Relay} {id : SessionId} {b : Binding}
    (hb : r.bindingOf? id = some b) (now : Timestamp) {p : Pointer} (hroom : p.roomId = b.roomId)
    (hsound : pointerFault? p = none) :
    r.published? (.call now id (.publishPointer p)) = some (b.key, .pointer p) := by
  have haccept : acceptPointer r.account b p = .ok p := by
    have hsame : { p with roomId := b.roomId } = p := by rw [← hroom]
    simp only [acceptPointer, hroom, ne_eq, not_true_eq_false, false_and, if_false, hsame, hsound]
  simp only [published?, hb, Publication.ofRequest?, haccept, Except.toOption, Option.bind_some,
    Option.map_some]

/-! ## Who has joined -/

/-- What a session may enter depends on whose it is, and different rooms have different keys. -/
theorem eq_of_wanted? {account : AccountSettings} {s s' : Session} {roomId roomId' : String}
    {b b' : Binding} (hprincipal : s'.principal = s.principal)
    (hb : wanted? account s roomId = some b) (hb' : wanted? account s' roomId' = some b')
    (hkey : b'.key = b.key) : b' = b := by
  unfold wanted? at hb hb'
  by_cases henabled : account.enabled
  · rw [if_pos henabled] at hb hb'
    rw [hprincipal] at hb'
    obtain ⟨p, hp, rfl⟩ := Option.map_eq_some_iff.mp hb
    obtain ⟨p', hp', rfl⟩ := Option.map_eq_some_iff.mp hb'
    rw [hp, Option.some.injEq] at hp'
    subst hp'
    have hroom := RoomKey.forSubject_injective p.subject hkey
    simp only [hroom]
  · rw [if_neg henabled] at hb hb'
    cases hb
    cases hb'
    have hroom : roomId' = roomId := congrArg RoomKey.text hkey
    rw [hroom]

/-- Who is let in is bound to the room that was asked for. -/
theorem Reachable.bindingOf?_of_joined {account : AccountSettings} {capacity : Nat} {r : Relay}
    (h : Reachable account capacity r) {now : Timestamp} {id : SessionId} {roomId secret : String}
    (hjoined : (r.perform now id (.joinRoom roomId secret)).1 = .ok .joined) :
    ∃ s b, r.sessions.get? id = some s ∧ wanted? account s roomId = some b ∧
      (r.perform now id (.joinRoom roomId secret)).2.bindingOf? id = some b := by
  have haccount : r.account = account := h.sameSettings.account
  cases hs : r.sessions.get? id with
  | none =>
      rw [perform_of_absent hs] at hjoined
      cases hjoined
  | some s =>
      cases ht : target? r.account s (.joinRoom roomId secret) with
      | none =>
          rw [perform_of_target?_none hs ht now] at hjoined
          cases hjoined
      | some b =>
          have heffect : r.TakesEffect id b.key (joinEffect r.account b secret s (r.kept b.key))
              (r.perform now id (.joinRoom roomId secret)) := h.sound.takesEffect_perform hs ht now
          obtain ⟨⟨b', hb', hkey⟩, -⟩ := joinEffect_of_joined (heffect.answer.symm.trans hjoined)
          have hbound : (r.perform now id (.joinRoom roomId secret)).2.bindingOf? id = some b' := by
            rw [heffect.bindingOf?, if_pos rfl, hb']
          -- A session that was bound before has the name that it gave the room then.
          obtain ⟨s', hs', hb''⟩ := Option.bind_eq_some_iff.mp hbound
          obtain ⟨roomId', hwanted⟩ := (h.step (.call now id _)).granted id s' b' hs' hb''
          rw [(h.step (.call now id _)).sameSettings.account] at hwanted
          have hprincipal := h.sound.principal_perform now id id (.joinRoom roomId secret)
          rw [hs', hs, Option.map_some, Option.map_some, Option.some.injEq] at hprincipal
          have hb : wanted? account s roomId = some b := by
            rw [← haccount]
            exact ht
          rw [eq_of_wanted? hprincipal hb hwanted hkey] at hbound
          exact ⟨s, b, rfl, hb, hbound⟩

/-- A session that was let in with the room and the secret of a device, and is still open. -/
structure JoinedBy (r : Relay) (account : AccountSettings) (capacity : Nat) (c : DeviceSettings)
    (id : SessionId) : Prop where
  joined : ∃ before now actions, Reachable account capacity before ∧
    (before.perform now id (.joinRoom c.roomToJoin.1 c.roomToJoin.2)).1 = .ok .joined ∧
    r = (before.perform now id (.joinRoom c.roomToJoin.1 c.roomToJoin.2)).2.run actions
  isOpen : (r.roomOf? id).isSome

theorem JoinedBy.exists_binding {account : AccountSettings} {capacity : Nat} {r : Relay}
    {c : DeviceSettings} {id : SessionId} (h : r.JoinedBy account capacity c id) :
    Reachable account capacity r ∧ ∃ s b, r.sessions.get? id = some s ∧
      wanted? account s c.roomToJoin.1 = some b ∧ r.bindingOf? id = some b ∧
      r.roomOf? id = some b.key := by
  obtain ⟨before, now, actions, hbefore, hjoined, rfl⟩ := h.joined
  obtain ⟨s, b, hs, hwanted, hbound⟩ := hbefore.bindingOf?_of_joined hjoined
  have hafter : Reachable account capacity
      (before.perform now id (.joinRoom c.roomToJoin.1 c.roomToJoin.2)).2 :=
    hbefore.step (.call now id _)
  have hb := hafter.sound.bindingOf?_run hbound actions
  obtain ⟨s', hs', hprincipal⟩ := hbefore.sound.principal_run hs
    (.call now id (.joinRoom c.roomToJoin.1 c.roomToJoin.2) :: actions)
  refine ⟨hafter.run actions, s', b, hs', ?_, hb, ?_⟩
  · rw [← hwanted, wanted?, wanted?, hprincipal]
  · obtain ⟨key, hkey⟩ := Option.isSome_iff_exists.mp h.isOpen
    obtain ⟨b', hb', rfl⟩ := exists_binding_of_roomOf? hkey
    rw [hb, Option.some.injEq] at hb'
    rw [hkey, hb']

/-- Two devices share a room: both are in account mode, with sessions of one subject, or they
join with the same room id and secret. -/
inductive Together (r : Relay) (account : AccountSettings) (c c' : DeviceSettings)
    (id id' : SessionId) : Prop where
  | account (henabled : account.enabled) (h : c.bearerToken.isSome) (h' : c'.bearerToken.isSome)
      (hsubject : r.subjectOf? id = r.subjectOf? id')
  | secret (hdisabled : account.enabled = false) (hsame : c.roomToJoin = c'.roomToJoin)

/-- A room that is not blank is entered under its own name. -/
theorem roomId_of_wanted? {account : AccountSettings} {s : Session} {roomId : String} {b : Binding}
    (hb : wanted? account s roomId = some b) (hroom : Text.isBlank roomId = false) :
    b.roomId = roomId := by
  unfold wanted? at hb
  split at hb
  · obtain ⟨p, -, rfl⟩ := Option.map_eq_some_iff.mp hb
    simp only [hroom, Bool.false_eq_true, if_false]
  · cases hb
    rfl

/-- Devices that share a room are in it, and both call it by the name that they joined with. -/
theorem Together.exists_room {r : Relay} {account : AccountSettings} {capacity : Nat}
    {c c' : DeviceSettings} {id id' : SessionId} (h : r.Together account c c' id id')
    (hjoined : r.JoinedBy account capacity c id) (hjoined' : r.JoinedBy account capacity c' id')
    (hroom : Text.isBlank c.roomId = false) :
    c'.roomToJoin.1 = c.roomToJoin.1 ∧ ∃ b, r.bindingOf? id = some b ∧
      b.roomId = c.roomToJoin.1 ∧ r.roomOf? id = some b.key ∧ r.roomOf? id' = some b.key := by
  obtain ⟨-, s, b, hs, hwanted, hbound, hin⟩ := hjoined.exists_binding
  obtain ⟨-, s', b', hs', hwanted', -, hin'⟩ := hjoined'.exists_binding
  have hsame : c'.roomToJoin.1 = c.roomToJoin.1 := by
    cases h with
    | account henabled htoken htoken' hsubject =>
        rw [DeviceSettings.roomToJoin_of_account htoken,
          DeviceSettings.roomToJoin_of_account htoken']
    | secret hdisabled hsame => rw [hsame]
  have hkey : b'.key = b.key := by
    rw [hsame] at hwanted'
    unfold wanted? at hwanted hwanted'
    cases h with
    | account henabled htoken htoken' hsubject =>
        rw [if_pos henabled] at hwanted hwanted'
        obtain ⟨p, hp, rfl⟩ := Option.map_eq_some_iff.mp hwanted
        obtain ⟨p', hp', rfl⟩ := Option.map_eq_some_iff.mp hwanted'
        rw [subjectOf?_of_session hs hp, subjectOf?_of_session hs' hp', Option.some.injEq]
          at hsubject
        simp only [hsubject]
    | secret hdisabled hsame =>
        rw [hdisabled, if_neg Bool.false_ne_true] at hwanted hwanted'
        cases hwanted
        cases hwanted'
        rfl
  refine ⟨hsame, b, hbound, ?_, hin, hkey ▸ hin'⟩
  exact roomId_of_wanted? hwanted (DeviceSettings.isBlank_roomToJoin hroom)

end Relay

/-- A device is told of what it publishes just that. -/
theorem throughSession_of_published {r : Relay} (hmax : r.files.maxSize = maxFileSize)
    {now : Timestamp} {id : SessionId} {request : Request} {key : RoomKey} {p : Publication}
    (h : r.published? (.call now id request) = some (key, p)) :
    throughSession now id request r =
      (.ok .published, (p.store r key).broadcastAll key p.news) := by
  rw [throughSession, Relay.perform_of_published hmax h]
  rfl

end ClipRelay
