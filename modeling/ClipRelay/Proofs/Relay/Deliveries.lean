import ClipRelay.Proofs.Relay.FanOut
import ClipRelay.Proofs.Relay.Retrieval

/-!
# ClipRelay.Proofs.Relay.Deliveries

What a session is told, and what it could ask for.

A session in a room hears of what is published there, and can also ask what the
room holds.  Both come to the same: whoever has received all that was broadcast
in a room knows its history, its latest text and its latest pointer
(`pulled_eq_pushed`).

Frames that wait for a session were broadcast in its room or greeted it there,
and look alike.  A `Delivery` says which; `taken` follows the deliveries of a
session through its queue, until they are received.
-/

namespace ClipRelay

/-- The event that a frame carries. -/
def RelayFrame.event? : RelayFrame → Option Event
  | .event e => some e
  | .completion .. => none

/-- The item that an event says was added. -/
def itemOf? : Event → Option HistoryItem
  | .historyItemAdded item => some item
  | _ => none

/-- A frame on its way to a session, and whether it was broadcast. -/
structure Delivery where
  frame : RelayFrame
  broadcast : Bool

namespace Delivery

/-- The event that was broadcast, if one was. -/
def news? (d : Delivery) : Option Event := if d.broadcast then d.frame.event? else none

/-- Nothing but broadcasts says that an item was added. -/
def Faithful (d : Delivery) : Prop := d.broadcast = false → d.frame.event?.bind itemOf? = none

/-- Of faithful deliveries, those that were broadcast tell all items. -/
theorem items_of_faithful {ds : List Delivery} (h : ∀ d ∈ ds, d.Faithful) :
    (ds.filterMap news?).filterMap itemOf? =
      ((ds.map frame).filterMap RelayFrame.event?).filterMap itemOf? := by
  have hitem : ∀ d ∈ ds, d.news?.bind itemOf? = d.frame.event?.bind itemOf? := by
    intro d hd
    cases hb : d.broadcast with
    | true => simp [news?, hb]
    | false => simp [news?, hb, h d hd hb]
  rw [List.filterMap_filterMap, List.filterMap_filterMap, List.filterMap_map]
  exact List.filterMap_congr hitem

end Delivery

namespace Relay

/-! ## Following a session -/

/-- What a call adds to what waits for a session.  It is broadcast if the call
publishes something. -/
def queuedBy (r : Relay) (id : SessionId) : Action → List Delivery
  | .call now id' request =>
    (((r.perform now id' request).2.waiting id).drop (r.waiting id).length).map
      fun frame => ⟨frame, (r.published? (.call now id' request)).isSome⟩
  | _ => []

/-- What waits for a session after an action, if `pending` did before. -/
def pendingAfter (r : Relay) (id : SessionId) (pending : List Delivery) (a : Action) :
    List Delivery :=
  match a with
  | .read id' count => if id' = id then pending.drop count else pending
  | .dropQueue id' => if id' = id then [] else pending
  | _ => pending ++ r.queuedBy id a

/-- What a session receives with an action, if `pending` waits for it. -/
def takenBy (id : SessionId) (pending : List Delivery) : Action → List Delivery
  | .read id' count => if id' = id then pending.take count else []
  | _ => []

/-- All that a session receives over a run, if `pending` waits for it. -/
def taken (id : SessionId) (pending : List Delivery) (r : Relay) : List Action → List Delivery
  | [] => []
  | a :: as => takenBy id pending a ++ taken id (r.pendingAfter id pending a) (r.step a).2 as

/-- All that is queued for a session over a run. -/
def queued (id : SessionId) (r : Relay) : List Action → List Delivery
  | [] => []
  | a :: as => r.queuedBy id a ++ queued id (r.step a).2 as

/-- The frames that come to light when a session receives. -/
def receivedBy (r : Relay) (id : SessionId) (a : Action) : List RelayFrame :=
  match a, (r.step a).1 with
  | .read id' _, .received frames => if id' = id then frames else []
  | _, _ => []

/-- All frames that a session receives over a run. -/
def received (id : SessionId) (r : Relay) : List Action → List RelayFrame
  | [] => []
  | a :: as => r.receivedBy id a ++ received id (r.step a).2 as

/-! ## What waits for a session -/

section
variable {r : Relay}

/-- What is done to the queue of one session is not done to any other. -/
theorem Sound.queueOf_touch (h : r.Sound) (id id' : SessionId) (f : Queue → Queue) :
    (r.touch id f).queueOf id' = if id = id' then (r.queueOf id').map f else r.queueOf id' := by
  cases hs : r.sessions.get? id with
  | none =>
      by_cases hi : id = id'
      · simp [touch, queueOf, hs, ← hi]
      · simp [touch, hs, hi]
  | some s =>
      have hout := h.outbound_eq id s hs
      cases hs' : r.sessions.get? id' with
      | none =>
          have hne : id ≠ id' := fun hi => by simp [← hi, hs] at hs'
          simp [touch, queueOf, hs, hs', hne]
      | some s' =>
          have hout' := h.outbound_eq id' s' hs'
          by_cases hi : id = id'
          · simp [touch, queueOf, hs', hout', Table.get?_modify, hi]
          · simp [touch, queueOf, hs, hs', hout, hout', Table.get?_modify, hi]

theorem Sound.waiting_touch (h : r.Sound) (id id' : SessionId) (f : Queue → Queue) :
    (r.touch id f).waiting id' =
      if id = id' then ((r.queueOf id').map fun q => (f q).frames).getD [] else r.waiting id' := by
  rw [waiting, waiting, h.queueOf_touch]
  by_cases hi : id = id'
  · rw [if_pos hi, if_pos hi, Option.map_map]
    rfl
  · rw [if_neg hi, if_neg hi]

theorem Sound.waiting_connect (h : r.Sound) (principal : Option Principal) (capacity : Nat)
    (id : SessionId) : (r.connect principal capacity).2.waiting id = r.waiting id := by
  by_cases hi : r.nextSession = id
  · have hnone := h.unused id (Nat.le_of_eq hi)
    simp [waiting, queueOf, Relay.connect, Table.get?_insert, hi, hnone]
  · cases hs : r.sessions.get? id with
    | none => simp [waiting, queueOf, Relay.connect, Table.get?_insert, hi, hs]
    | some s =>
        have hout := h.outbound_eq id s hs
        simp [waiting, queueOf, Relay.connect, Table.get?_insert, hi, hs, hout]

theorem waiting_disconnect (r : Relay) (id id' : SessionId) :
    (r.disconnect id).waiting id' = r.waiting id' := by
  cases hs : r.sessions.get? id with
  | none => simp [disconnect, hs]
  | some s =>
      by_cases hi : id = id'
      · simp [waiting, queueOf, disconnect, hs, ← hi]
      · simp [waiting, queueOf, disconnect, hs, Table.get?_insert, hi]

/-- A call takes nothing off any queue. -/
theorem Sound.exists_waiting_perform (h : r.Sound) (now : Timestamp) (id : SessionId)
    (request : Request) (id' : SessionId) :
    ∃ frames, (r.perform now id request).2.waiting id' = r.waiting id' ++ frames := by
  obtain hsame | ⟨s, b, hs, -, heffect⟩ := h.perform_eq_or_takesEffect now id request
  · exact ⟨[], by simp [hsame]⟩
  · exact heffect.exists_waiting h (h.perform now id request) hs id'

/-- What is followed of a session is what waits for it, after every action. -/
theorem Sound.map_frame_pendingAfter (h : r.Sound) {id : SessionId} {pending : List Delivery}
    (hpending : pending.map Delivery.frame = r.waiting id) (a : Action) :
    (r.pendingAfter id pending a).map Delivery.frame = (r.step a).2.waiting id := by
  cases a with
  | call now id' request =>
      obtain ⟨frames, hframes⟩ := h.exists_waiting_perform now id' request id
      have hqueued : (r.queuedBy id (.call now id' request)).map Delivery.frame = frames := by
        simp only [queuedBy, hframes, List.drop_left, List.map_map, Function.comp_def, List.map_id']
      rw [pendingAfter, List.map_append, hpending, hqueued, ← hframes]
      · rfl
      all_goals simp
  | connect principal capacity =>
      simp [pendingAfter, queuedBy, Relay.step, h.waiting_connect, hpending]
  | disconnect id' => simp [pendingAfter, queuedBy, Relay.step, waiting_disconnect, hpending]
  | ask now provider request => simp [pendingAfter, queuedBy, Relay.step, hpending]
  | read id' count =>
      have hwaiting := h.waiting_touch id' id (Queue.dropFront count)
      have hread : (r.step (.read id' count)).2 = r.touch id' (Queue.dropFront count) := rfl
      by_cases hi : id' = id
      · rw [hread, hwaiting, if_pos hi, pendingAfter, if_pos hi, List.map_drop, hpending, waiting]
        cases r.queueOf id <;> simp [Queue.dropFront]
      · rw [hread, hwaiting, if_neg hi, pendingAfter, if_neg hi, hpending]
  | dropQueue id' =>
      have hwaiting := h.waiting_touch id' id Queue.closed
      have hdrop : (r.step (.dropQueue id')).2 = r.touch id' Queue.closed := rfl
      by_cases hi : id' = id
      · rw [hdrop, hwaiting, if_pos hi, pendingAfter, if_pos hi]
        cases r.queueOf id <;> simp [Queue.closed]
      · rw [hdrop, hwaiting, if_neg hi, pendingAfter, if_neg hi, hpending]

theorem map_frame_takenBy {id : SessionId} {pending : List Delivery}
    (hpending : pending.map Delivery.frame = r.waiting id) (a : Action) :
    (takenBy id pending a).map Delivery.frame = r.receivedBy id a := by
  cases a with
  | read id' count =>
      by_cases hi : id' = id
      · simp [takenBy, receivedBy, Relay.step, Relay.read, hi, hpending]
      · simp [takenBy, receivedBy, Relay.step, hi]
  | _ => rfl

/-- What is followed of a session is what it receives, in every run. -/
theorem Sound.map_frame_taken (h : r.Sound) {id : SessionId} {pending : List Delivery}
    (hpending : pending.map Delivery.frame = r.waiting id) (actions : List Action) :
    (taken id pending r actions).map Delivery.frame = received id r actions := by
  induction actions generalizing r pending with
  | nil => rfl
  | cons a as ih =>
      have hafter := h.map_frame_pendingAfter hpending a
      rw [taken, received, List.map_append, map_frame_takenBy hpending, ih (h.step a) hafter]

end

/-! ## What is queued -/

section
variable {account : AccountSettings} {capacity maxSize : Nat} {b : Binding} {now : Timestamp}
  {request : Request} {s : Session} {k : Kept}

/-- Only what is published is heard by a whole room. -/
theorem news_effect
    (h : (effect account capacity maxSize b now request s k).answer ≠ .ok .published) :
    (effect account capacity maxSize b now request s k).news = [] := by
  cases request with
  | joinRoom roomId secret =>
      simp only [effect, joinEffect]
      repeat' split
      all_goals rfl
  | publishText p =>
      simp only [effect, textEffect] at h ⊢
      cases haccept : acceptText now p with
      | error e => rfl
      | ok change => simp [haccept] at h
  | publishPointer p =>
      simp only [effect, pointerEffect] at h ⊢
      cases haccept : acceptPointer account b p with
      | error e => rfl
      | ok p => simp [haccept] at h
  | publishFile p =>
      simp only [effect, fileEffect] at h ⊢
      cases haccept : acceptFile b.roomId now p with
      | error e => rfl
      | ok item =>
          simp only [haccept] at h ⊢
          cases hfault : Payloads.fault? maxSize p.bytes with
          | some e => rfl
          | none => simp [hfault] at h
  | getHistory limit => rfl
  | getHistoryText itemId => rfl

/-- What greets a session tells it of no item. -/
theorem event?_greeting {f : RelayFrame}
    (h : f ∈ (effect account capacity maxSize b now request s k).greeting) :
    f.event?.bind itemOf? = none := by
  have hgreeting {k : Kept} (h : f ∈ k.greeting) : f.event?.bind itemOf? = none := by
    simp only [Kept.greeting, List.mem_append, Option.mem_toList, Option.map_eq_some_iff] at h
    obtain ⟨p, -, rfl⟩ | ⟨t, -, rfl⟩ := h <;> rfl
  have hgreetingFor {s : Session} {k : Kept} (h : f ∈ greetingFor s k) :
      f.event?.bind itemOf? = none := by
    rw [greetingFor] at h
    split at h
    · simp at h
    · exact hgreeting h
  cases request with
  | joinRoom roomId secret =>
      simp only [effect, joinEffect] at h
      repeat' split at h
      all_goals first | exact hgreetingFor h | simp at h
  | _ =>
      rw [(effect_of_call fun _ _ heq => by cases heq).2.1] at h
      simp at h

end

section
variable {r : Relay}

/-- An action that publishes something queues some of its news, in order, for a
session in the room, and nothing for any other. -/
theorem Sound.news?_queuedBy (h : r.Sound) (hmax : r.files.maxSize = maxFileSize)
    (id : SessionId) {a : Action} {key : RoomKey} {p : Publication}
    (hp : r.published? a = some (key, p)) :
    ((r.queuedBy id a).filterMap Delivery.news?).Sublist
      (if r.roomOf? id = some key then p.news else []) := by
  cases a with
  | call now id' request =>
      have hqueue : (r.perform now id' request).2.queueOf id =
          (r.queueOf id).map fun q =>
            if r.roomOf? id = some key then q.offers p.news else q := by
        rw [perform_of_published hmax hp]
        exact h.queueOf_of_published key p id
      have hnews : ((r.queuedBy id (.call now id' request)).filterMap Delivery.news?) =
          (((r.perform now id' request).2.waiting id).drop (r.waiting id).length).filterMap
            RelayFrame.event? := by
        simp only [queuedBy, hp, Option.isSome_some, List.filterMap_map]
        rfl
      have hevent : RelayFrame.event? ∘ RelayFrame.event = some := rfl
      rw [hnews, waiting, waiting, hqueue]
      cases hq : r.queueOf id with
      | none => simp
      | some q =>
          by_cases hroom : r.roomOf? id = some key
          · cases hreceiving : q.receiving with
            | false => simp [hroom, Queue.offers_eq, hreceiving]
            | true =>
                simp only [Option.map_some, Option.getD_some, if_pos hroom, Queue.offers_eq,
                  hreceiving, if_true, List.drop_left, List.filterMap_map, hevent,
                  List.filterMap_some]
                exact List.take_sublist _ _
          · simp [hroom]
  | _ => cases hp

/-- A call that publishes nothing queues nothing that tells of an item. -/
theorem Sound.event?_waiting_perform (h : r.Sound) {now : Timestamp} {id' : SessionId}
    {request : Request} (hnone : r.published? (.call now id' request) = none) (id : SessionId)
    {f : RelayFrame}
    (hf : f ∈ ((r.perform now id' request).2.waiting id).drop (r.waiting id).length) :
    f.event?.bind itemOf? = none := by
  obtain hsame | ⟨s, b, hs, -, heffect⟩ := h.perform_eq_or_takesEffect now id' request
  · simp [hsame] at hf
  · have hanswer := (perform_of_not_published hnone).1
    rw [heffect.answer] at hanswer
    rw [waiting, waiting, heffect.queueOf h (h.perform now id' request) hs] at hf
    cases hq : r.queueOf id with
    | none => simp [hq] at hf
    | some q =>
        simp only [hq, Option.map_some, Option.getD_some,
          Effect.deliver_of_news_nil _ _ _ (news_effect hanswer)] at hf
        by_cases hi : id' = id
        · rw [if_pos hi, Queue.sendAll_eq] at hf
          cases hreceiving : q.receiving with
          | false => simp [hreceiving] at hf
          | true =>
              simp only [hreceiving, if_true, List.drop_left] at hf
              exact event?_greeting hf
        · simp [hi] at hf

/-- Nothing but broadcasts tells of an item. -/
theorem Sound.faithful_queuedBy (h : r.Sound) (id : SessionId) (a : Action) :
    ∀ d ∈ r.queuedBy id a, d.Faithful := by
  intro d hd hb
  cases a with
  | call now id' request =>
      obtain ⟨f, hf, rfl⟩ := List.mem_map.mp hd
      have hnone : r.published? (.call now id' request) = none := by simpa using hb
      exact h.event?_waiting_perform hnone id hf
  | _ => simp [queuedBy] at hd

/-! ## Whole runs -/

/-- Unless its receiver goes away, what waits for a session is received or waits on. -/
theorem takenBy_append_pendingAfter (id : SessionId) (pending : List Delivery) {a : Action}
    (ha : a ≠ .dropQueue id) :
    takenBy id pending a ++ r.pendingAfter id pending a = pending ++ r.queuedBy id a := by
  cases a with
  | read id' count => by_cases hi : id' = id <;> simp [takenBy, pendingAfter, queuedBy, hi]
  | dropQueue id' =>
      have hi : id' ≠ id := fun hi => ha (hi ▸ rfl)
      simp [takenBy, pendingAfter, queuedBy, hi]
  | _ => simp [takenBy, pendingAfter]

/-- A session receives what waits for it or is queued for it, in order, and none of
it twice. -/
theorem taken_sublist (id : SessionId) (pending : List Delivery) (actions : List Action) :
    (taken id pending r actions).Sublist (pending ++ queued id r actions) := by
  induction actions generalizing r pending with
  | nil => simp [taken]
  | cons a as ih =>
      have hstep : (takenBy id pending a ++ r.pendingAfter id pending a).Sublist
          (pending ++ r.queuedBy id a) := by
        by_cases ha : a = .dropQueue id
        · simp [ha, takenBy, pendingAfter]
        · rw [takenBy_append_pendingAfter id pending ha]
      have hlater := (ih (r := (r.step a).2) (r.pendingAfter id pending a)).append_left
        (takenBy id pending a)
      rw [← List.append_assoc] at hlater
      rw [taken, queued, ← List.append_assoc]
      exact hlater.trans (hstep.append_right _)

theorem Sound.faithful_queued (h : r.Sound) (id : SessionId) (actions : List Action) :
    ∀ d ∈ queued id r actions, d.Faithful := by
  induction actions generalizing r with
  | nil => simp [queued]
  | cons a as ih =>
      intro d hd
      obtain hnow | hlater := List.mem_append.mp hd
      · exact h.faithful_queuedBy id a d hnow
      · exact ih (h.step a) d hlater

/-- A session that is bound to a room in the end is queued nothing from broadcasts
but what was broadcast there, in order and once. -/
theorem Sound.news_queued (h : r.Sound) (hmax : r.files.maxSize = maxFileSize) {id : SessionId}
    {b : Binding} {actions : List Action} (hb : (r.run actions).bindingOf? id = some b) :
    ((queued id r actions).filterMap Delivery.news?).Sublist (heard b.key r actions) := by
  induction actions generalizing r with
  | nil => simp [queued]
  | cons a as ih =>
      have hmax' : (r.step a).2.files.maxSize = maxFileSize :=
        (sameSettings_step r a).maxSize.trans hmax
      have hstep : ((r.queuedBy id a).filterMap Delivery.news?).Sublist (r.newsOf b.key a) := by
        cases hp : r.published? a with
        | none =>
            have hnone : (r.queuedBy id a).filterMap Delivery.news? = [] := by
              cases a with
              | call now id' request =>
                  simp only [queuedBy, hp, Option.isSome_none, List.filterMap_map]
                  exact List.filterMap_eq_nil_iff.mpr fun f _ => rfl
              | _ => rfl
            simp [hnone]
        | some keyed =>
            obtain ⟨key, p⟩ := keyed
            have hnews := h.news?_queuedBy hmax id hp
            by_cases hroom : r.roomOf? id = some key
            · -- The room of a session is the one that it is bound to in the end.
              obtain ⟨s, b', hs, -, hb', hkey⟩ := roomOf?_eq_some_iff.mp hroom
              have hbound := (bindingOf?_of_session hs).trans hb'
              have hlater := h.bindingOf?_run hbound (a :: as)
              rw [hb, Option.some.injEq] at hlater
              rw [if_pos hroom] at hnews
              simpa [newsOf, hp, hlater, hkey] using hnews
            · rw [if_neg hroom, List.sublist_nil] at hnews
              simp [hnews]
      rw [queued, heard, List.filterMap_append]
      exact hstep.append (ih (h.step a) hmax' hb)

end

/-! ## The history of a room -/

theorem logged_append (key : RoomKey) (log log' : List Addition) :
    Histories.logged key (log ++ log') = Histories.logged key log ++ Histories.logged key log' := by
  simp [Histories.logged]

/-- The items that are added to a room are those that are heard of in it. -/
theorem logged_additions (r : Relay) (key : RoomKey) (actions : List Action) :
    Histories.logged key (r.additions actions) = (heard key r actions).filterMap itemOf? := by
  induction actions generalizing r with
  | nil => rfl
  | cons a as ih =>
      have hstep : Histories.logged key (r.added a) = (r.newsOf key a).filterMap itemOf? := by
        rw [added, newsOf]
        cases r.published? a with
        | none => rfl
        | some keyed =>
            obtain ⟨key', p⟩ := keyed
            by_cases hk : key' = key <;> cases p <;>
              simp [Publication.addition?, Publication.news, Histories.logged, textNews, itemOf?,
                List.filterMap_cons, hk]
      rw [additions, heard, logged_append, List.filterMap_append, hstep, ih]

/-- After a run from the empty relay, the newest items of a room are the last that
were heard of in it. -/
theorem recent_run (account : AccountSettings) (capacity : Nat) (actions : List Action)
    (key : RoomKey) (limit : Int32) :
    ((empty account capacity).run actions).histories.recent key limit =
      ((heard key (empty account capacity) actions).filterMap itemOf?).reverse.take
        (min (max capacity 1) (max 1 (min 100 limit.toInt)).toNat) := by
  have hmax : (empty account capacity).files.maxSize = maxFileSize := rfl
  have hcapacity : (empty account capacity).histories.capacity = max capacity 1 := rfl
  have hitems : ((empty account capacity).histories.room key).items = [] := rfl
  have hbounded : ((empty account capacity).histories.room key).items.length ≤
      (empty account capacity).histories.capacity := by simp [hitems]
  rw [histories_run hmax, Histories.recent, Histories.items_addAll hbounded, hitems, hcapacity,
    List.append_nil, logged_additions, List.take_take, Histories.effectiveLimit_eq, Nat.min_comm]

/-- The answer to a session in a room that asks for its history. -/
theorem answer_getHistory {r : Relay} {id : SessionId} {b : Binding}
    (hb : r.bindingOf? id = some b) (now : Timestamp) (limit : Int32) :
    (r.perform now id (.getHistory limit)).1 =
      .ok (.history ⟨b.roomId, r.histories.recent b.key limit⟩) := by
  obtain ⟨s, hs, hbound⟩ := Option.bind_eq_some_iff.mp hb
  simp [perform, hs, hbound, recentItems]

/-- **Pushed and pulled**: let a session be bound to a room after a run, and have
received all that was broadcast there, each event as often as it was.  Then it
received just that from broadcasts, in order.  Whoever is in the room and asks
for its history gets the items that the session was told of, newest first, as
many as are asked for and kept.  And the latest text and pointer of the room are
the last that the session received from broadcasts, which are the news of the
calls that were answered `published`, as they were stored and broadcast. -/
theorem pulled_eq_pushed (account : AccountSettings) (capacity : Nat) (actions : List Action)
    {id : SessionId} {b : Binding}
    (hb : ((empty account capacity).run actions).bindingOf? id = some b)
    (hall : (heard b.key (empty account capacity) actions).Subperm
      ((taken id [] (empty account capacity) actions).filterMap Delivery.news?)) :
    let r := (empty account capacity).run actions
    let deliveries := taken id [] (empty account capacity) actions
    let frames := received id (empty account capacity) actions
    let news := deliveries.filterMap Delivery.news?
    let items := (frames.filterMap RelayFrame.event?).filterMap itemOf?
    deliveries.map Delivery.frame = frames ∧
    news = heard b.key (empty account capacity) actions ∧
    (∀ id' b', r.bindingOf? id' = some b' → b'.key = b.key → ∀ now limit,
      (r.perform now id' (.getHistory limit)).1 = .ok (.history ⟨b'.roomId, items.reverse.take
        (min (max capacity 1) (max 1 (min 100 limit.toInt)).toNat)⟩)) ∧
    r.texts.get? b.key = (news.filterMap textOf?).getLast? ∧
    r.pointers.get? b.key = (news.filterMap pointerOf?).getLast? ∧
    ∀ before, Reachable account capacity before → ∀ now id request,
      (before.perform now id request).1 = .ok .published ↔
        ∃ key p, before.published? (.call now id request) = some (key, p) ∧
          before.perform now id request =
            (.ok .published, (p.store before key).broadcastAll key p.news) := by
  intro r deliveries frames news items
  have hsound : (empty account capacity).Sound := sound_empty account capacity
  have hframes : deliveries.map Delivery.frame = frames := hsound.map_frame_taken rfl actions
  have hnews : news = heard b.key (empty account capacity) actions := by
    have htaken : news.Sublist ((queued id (empty account capacity) actions).filterMap
        Delivery.news?) := (taken_sublist id [] actions).filterMap Delivery.news?
    have hheard := htaken.trans (hsound.news_queued rfl hb)
    exact hheard.eq_of_length_le hall.length_le
  have hitems : items = news.filterMap itemOf? := by
    have hfaithful : ∀ d ∈ deliveries, d.Faithful := fun d hd =>
      hsound.faithful_queued id actions d ((taken_sublist id [] actions).subset hd)
    rw [Delivery.items_of_faithful hfaithful, hframes]
  refine ⟨hframes, hnews, ?_, ?_, ?_, ?_⟩
  · intro id' b' hb' hkey now limit
    rw [answer_getHistory hb', hkey, recent_run, hitems, hnews]
  · rw [hnews]
    exact latestText_run account capacity actions b.key
  · rw [hnews]
    exact latestPointer_run account capacity actions b.key
  · intro before hbefore now id request
    exact perform_eq_published_iff hbefore.sameSettings.maxSize

/-- A session publishes a pointer and a note, joins its room once more, publishes
a file and receives everything: its own pointer and note, the greeting and the
file. -/
theorem pulled_eq_pushed_home :
    let actions : List Action :=
      [.connect (some ⟨"ada", none⟩) 8, .call 1 0 (.joinRoom "home" ""),
        .call 1 0 (.publishPointer notePointer), .call 1 0 (.publishText note),
        .call 2 0 (.joinRoom "home" ""), .call 2 0 (.publishFile noteFile), .read 0 8]
    let r := (empty { enabled := true } 10).run actions
    let frames := received 0 (empty { enabled := true } 10) actions
    let items := (frames.filterMap RelayFrame.event?).filterMap itemOf?
    frames.length = 6 ∧ items.length = 2 ∧
      (r.perform 3 0 (.getHistory 10)).1 = .ok (.history ⟨"home", items.reverse⟩) ∧
      r.texts.get? (.forSubject "ada" "home") = some noteChange ∧
      r.pointers.get? (.forSubject "ada" "home") = some notePointer := by
  intro actions r frames items
  have hb : r.bindingOf? 0 = some ⟨"home", .forSubject "ada" "home"⟩ := rfl
  obtain ⟨-, -, hpulled, htext, hpointer, -⟩ :=
    pulled_eq_pushed { enabled := true } 10 actions hb (List.Subperm.refl _)
  refine ⟨rfl, rfl, ?_, htext, hpointer⟩
  exact hpulled 0 _ hb rfl 3 10

end Relay

end ClipRelay
