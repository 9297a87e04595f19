import ClipRelay.Proofs.Relay.Clash
import ClipRelay.Proofs.Relay.Members
import ClipRelay.Proofs.Relay.Publications

/-!
# ClipRelay.Proofs.Relay.FanOut

Who hears of a publication.

The news of a publication are offered to the open sessions in its room, one
event after the other.  Each of them takes what its own queue has room for
(`Queue.offers_eq`), whatever becomes of the others; nobody else hears anything
(`Sound.queueOf_of_published`), and no queue can make a publish fail.  The count
that a broadcast gives is that of the sessions that took the event
(`Sound.snd_broadcast`).
-/

namespace ClipRelay

namespace Relay

/-! ## One broadcast -/

/-- A queue that takes an event has it behind what waits already. -/
theorem map_offer (queues : Queues) (id : QueueId) (frame : RelayFrame) :
    (queues.get? id).map (Queue.offer frame) =
      if Membership.accepts queues id then
        (queues.get? id).map fun q => { q with frames := q.frames ++ [frame] }
      else queues.get? id := by
  cases hq : queues.get? id with
  | none => simp
  | some q => cases hroom : q.hasRoom <;> simp [Membership.accepts, hq, Queue.offer, hroom]

/-- Whatever the queues hold, just the open sessions in a room are offered an
event, and those whose queue has room take it. -/
theorem Sound.fst_broadcast {r : Relay} (h : r.Sound) (key : RoomKey) (e : Event)
    (queues : Queues) (id : SessionId) :
    (r.groups.broadcast key e queues).1.get? id =
      if r.roomOf? id = some key ∧ Membership.accepts queues id then
        (queues.get? id).map fun q => { q with frames := q.frames ++ [.event e] }
      else queues.get? id := by
  have hsame : r.SameCast { r with queues } := ⟨⟨rfl, rfl, rfl⟩, rfl, rfl, rfl⟩
  have hoffered := (h.of_sameCast hsame).get?_broadcast key e id
  have hbroadcast :
      (r.groups.broadcast key e queues).1 = ({ r with queues }.broadcast key e).queues := rfl
  rw [hsame.roomOf?, map_offer, ← hbroadcast] at hoffered
  by_cases hk : r.roomOf? id = some key
  · simpa [hk] using hoffered
  · simpa [hk] using hoffered

/-- Just the open sessions in a room whose queue has room for an event are counted. -/
theorem Sound.snd_broadcast {r : Relay} (h : r.Sound) (key : RoomKey) (e : Event)
    (queues : Queues) :
    (r.groups.broadcast key e queues).2 =
      ((r.openSessions key).filter fun m => Membership.accepts queues m.1).length := by
  let entries := (r.groups.group key).entries
  calc (r.groups.broadcast key e queues).2
      = (entries.filter fun m => Membership.accepts queues m.2).length :=
        Membership.snd_offerAll (h.nodup_queues_group key) (.event e) queues
    _ = ((entries.map Prod.snd).filter (Membership.accepts queues)).length := by
        rw [List.filter_map, List.length_map]
        rfl
    _ = (((r.openSessions key).map Prod.fst).filter (Membership.accepts queues)).length := by
        rw [h.queues_group, ((h.keys_group_perm key).filter _).length_eq]
    _ = _ := by
        rw [List.filter_map, List.length_map]
        rfl

/-! ## One publication -/

theorem sameCast_store (r : Relay) (key : RoomKey) (p : Publication) :
    r.SameCast (p.store r key) := by
  cases p <;> exact ⟨⟨rfl, rfl, rfl⟩, rfl, rfl, rfl⟩

theorem queues_store (r : Relay) (key : RoomKey) (p : Publication) :
    (p.store r key).queues = r.queues := by
  cases p <;> rfl

/-- The open sessions in its room are offered the news of a publication, and
nobody else is. -/
theorem Sound.queueOf_of_published {r : Relay} (h : r.Sound) (key : RoomKey) (p : Publication)
    (id : SessionId) :
    ((p.store r key).broadcastAll key p.news).queueOf id =
      (r.queueOf id).map fun q => if r.roomOf? id = some key then q.offers p.news else q := by
  have hstored := sameCast_store r key p
  have hafter := hstored.trans (sameCast_broadcastAll (p.store r key) key p.news)
  have hqueue := (h.of_sameCast hstored).get?_broadcastAll key p.news id
  rw [hstored.roomOf?, queues_store] at hqueue
  cases hs : r.sessions.get? id with
  | none => simp [queueOf, hafter.sessions, hs]
  | some s =>
      have hs' : ((p.store r key).broadcastAll key p.news).sessions.get? id = some s := by
        rw [hafter.sessions, hs]
      rw [(h.of_sameCast hafter).queueOf_eq hs', h.queueOf_eq hs, hqueue]
      by_cases hk : r.roomOf? id = some key
      · simp [hk]
      · simp [hk]

/-- **Fan-out**: let a call of a reachable relay be answered `published`.  Its
session is bound to a room, and every open session there whose queue is received
and has enough room gets the news, all of them, in order and once, behind what
waits already.  A queue with less room gets as many as fit, one that is not
received gets none, and nobody else gets anything.  The answer is the same
whatever the queues hold.  And of whatever is broadcast, just the sessions that
took it are counted. -/
theorem news_of_published {account : AccountSettings} {capacity : Nat} {r : Relay}
    (h : Reachable account capacity r) {now : Timestamp} {id : SessionId} {request : Request}
    (hpublished : (r.perform now id request).1 = .ok .published) :
    let after := (r.perform now id request).2
    (∃ b p, r.bindingOf? id = some b ∧
      Publication.ofRequest? account b now request = some p ∧
      (∀ id' q, r.roomOf? id' = some b.key → r.queueOf id' = some q → q.receiving →
        q.frames.length + p.news.length ≤ q.capacity →
        after.queueOf id' = some { q with frames := q.frames ++ p.news.map .event }) ∧
      (∀ id' q, r.roomOf? id' = some b.key → r.queueOf id' = some q →
        after.queueOf id' = some (if q.receiving then
          { q with
            frames := q.frames ++ (p.news.take (q.capacity - q.frames.length)).map .event }
          else q)) ∧
      ∀ id', r.roomOf? id' ≠ some b.key → after.queueOf id' = r.queueOf id') ∧
    (∀ queues, ({ r with queues }.perform now id request).1 = .ok .published) ∧
    ∀ key e queues,
      let broadcast := r.groups.broadcast key e queues
      broadcast.2 = ((r.openSessions key).filter fun m => Membership.accepts queues m.1).length ∧
      ∀ id', broadcast.1.get? id' =
        if r.roomOf? id' = some key ∧ Membership.accepts queues id' then
          (queues.get? id').map fun q => { q with frames := q.frames ++ [.event e] }
        else queues.get? id' := by
  intro after
  have hmax : r.files.maxSize = maxFileSize := h.sameSettings.maxSize
  obtain ⟨key, p, hp, hperform⟩ := (perform_eq_published_iff hmax).mp hpublished
  obtain ⟨s, b, hs, hb, rfl, hrequest⟩ := published?_eq_some hp
  have hqueue (id' : SessionId) : after.queueOf id' = (r.queueOf id').map fun q =>
      if r.roomOf? id' = some b.key then q.offers p.news else q := by
    have hafter : after = (p.store r b.key).broadcastAll b.key p.news :=
      congrArg Prod.snd hperform
    rw [hafter, h.sound.queueOf_of_published]
  refine ⟨⟨b, p, (bindingOf?_of_session hs).trans hb, ?_, ?_, ?_, ?_⟩, ?_, ?_⟩
  · have haccount : r.account = account := h.sameSettings.account
    rw [← haccount]
    exact hrequest
  · intro id' q hroom hq hreceiving hfree
    have hall : p.news.take (q.capacity - q.frames.length) = p.news :=
      List.take_of_length_le (by omega)
    rw [hqueue, hq, Option.map_some, if_pos hroom, Queue.offers_eq, if_pos hreceiving, hall]
  · intro id' q hroom hq
    simp [hqueue, hq, hroom, Queue.offers_eq]
  · intro id' hroom
    simp [hqueue, hroom]
  · intro queues
    have hp' : { r with queues }.published? (.call now id request) = some (b.key, p) := hp
    exact congrArg Prod.fst (@perform_of_published { r with queues } hmax now id request _ _ hp')
  · intro key e queues
    exact ⟨h.sound.snd_broadcast key e queues, h.sound.fst_broadcast key e queues⟩

/-- A note is published in a room of two: the one who published it gets both news,
the other one, whose queue has a single place, gets the first. -/
theorem news_of_published_home :
    let r := (empty { enabled := true } 10).run
      [.connect (some ⟨"ada", none⟩) 8, .connect (some ⟨"ada", none⟩) 1,
        .call 1 0 (.joinRoom "home" ""), .call 1 1 (.joinRoom "home" "")]
    let published := r.perform 1 0 (.publishText note)
    published.1 = .ok .published ∧
      published.2.queueOf 0 = some
        { capacity := 8, frames := (textNews "home" noteChange).map .event } ∧
      published.2.queueOf 1 = some
        { capacity := 1, frames := [.event (.textChanged noteChange)] } := by
  intro r published
  have hr : Reachable { enabled := true } 10 r := .run .empty _
  have hpublished : published.1 = .ok .published := rfl
  obtain ⟨⟨b, p, hb, hp, hroomy, hqueue, -⟩, -, -⟩ := news_of_published hr hpublished
  cases hb
  cases hp
  refine ⟨hpublished, ?_, ?_⟩
  · exact hroomy 0 { capacity := 8 } rfl rfl rfl (by decide)
  · exact hqueue 1 { capacity := 1 } rfl rfl

end Relay

end ClipRelay
