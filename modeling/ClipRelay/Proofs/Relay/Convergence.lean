import ClipRelay.Proofs.Relay.Clash
import ClipRelay.Proofs.Relay.Publications

/-!
# ClipRelay.Proofs.Relay.Convergence

Late joiners catch up.

Whoever joins a room is sent the last pointer and the last text that were
broadcast in it, whenever that was and whoever published them
(`greeting_run`): what was refused meanwhile, what happened in other rooms, and
who came and went makes no difference.  Nobody else is sent anything.
-/

namespace ClipRelay.Relay

/-- The last pointer and the last text among some events, in that order. -/
def lastNews (events : List Event) : List Event :=
  ((events.filterMap pointerOf?).getLast?.map Event.pointerChanged).toList ++
    ((events.filterMap textOf?).getLast?.map Event.textChanged).toList

/-- What greets a session in a room is the last that was heard there. -/
theorem greeting_run (account : AccountSettings) (capacity : Nat) (actions : List Action)
    (key : RoomKey) : (((empty account capacity).run actions).kept key).greeting =
      (lastNews ((empty account capacity).heard key actions)).map .event := by
  let r := (empty account capacity).run actions
  let heard := (empty account capacity).heard key actions
  have htext : (r.kept key).text = (heard.filterMap textOf?).getLast? :=
    latestText_run account capacity actions key
  have hpointer : (r.kept key).pointer = (heard.filterMap pointerOf?).getLast? :=
    latestPointer_run account capacity actions key
  rw [Kept.greeting, htext, hpointer, lastNews]
  cases (heard.filterMap pointerOf?).getLast? <;>
    cases (heard.filterMap textOf?).getLast? <;> rfl

/-- A join that succeeds leaves its session bound to the room that it asked for,
and greets it unless it has ended. -/
theorem joinEffect_of_joined {account : AccountSettings} {b : Binding} {secret : String}
    {s : Session} {k : Kept} (h : (joinEffect account b secret s k).answer = .ok .joined) :
    (∃ b', (joinEffect account b secret s k).session.binding = some b' ∧ b'.key = b.key) ∧
      (joinEffect account b secret s k).greeting = (if s.closed then [] else k.greeting) ∧
      (joinEffect account b secret s k).news = [] := by
  unfold joinEffect at h ⊢
  cases hadmitted : (admission account b secret k.secret).1 with
  | false => simp [hadmitted] at h
  | true =>
      cases hb : s.binding with
      | none => simp [greetingFor, Kept.greeting]
      | some b' =>
          by_cases hk : b'.key = b.key
          · simp [hk, hb, greetingFor, Kept.greeting]
          · simp [hadmitted, hb, hk] at h

/-- A session that joins is bound to a room, and sent what greets it there unless
it has ended.  Nobody else is sent anything. -/
theorem Sound.queueOf_of_joined {r : Relay} (h : r.Sound) {now : Timestamp} {id : SessionId}
    {s : Session} {roomId secret : String} (hs : r.sessions.get? id = some s)
    (hjoined : (r.perform now id (.joinRoom roomId secret)).1 = .ok .joined) :
    ∃ b, (r.perform now id (.joinRoom roomId secret)).2.bindingOf? id = some b ∧
      ∀ id', (r.perform now id (.joinRoom roomId secret)).2.queueOf id' =
        (r.queueOf id').map fun q =>
          if id = id' ∧ s.closed = false then q.sendAll (r.kept b.key).greeting else q := by
  cases ht : target? r.account s (.joinRoom roomId secret) with
  | none =>
      have hrefused := perform_of_target?_none hs ht now
      have hanswer := hjoined.symm.trans (congrArg Prod.fst hrefused)
      contradiction
  | some b =>
      have heffect : r.TakesEffect id b.key (joinEffect r.account b secret s (r.kept b.key))
          (r.perform now id (.joinRoom roomId secret)) := h.takesEffect_perform hs ht now
      obtain ⟨⟨b', hb', hkey⟩, hgreeting, hnews⟩ :=
        joinEffect_of_joined (heffect.answer.symm.trans hjoined)
      refine ⟨b', ?_, fun id' => ?_⟩
      · rw [heffect.bindingOf?, if_pos rfl, hb']
      · have hqueue := heffect.queueOf h (h.perform now id (.joinRoom roomId secret)) hs id'
        rw [hqueue, hkey]
        refine congrArg (Option.map · _) (funext fun q => ?_)
        rw [Effect.deliver_of_news_nil _ _ _ hnews, hgreeting]
        cases s.closed <;> simp [Queue.sendAll_nil]

/-- **Convergence**: let a session join a room after any run, and `heard` be all
that was broadcast there, which is the news of the calls that were answered
`published`, as they were stored and broadcast.  If the session is open and its
queue is received, just the last pointer and then the last text that were heard
are queued for it, behind what waits already; otherwise nothing is.  Nobody else
is sent anything. -/
theorem joined_after_run (account : AccountSettings) (capacity : Nat) (actions : List Action)
    (now : Timestamp) {id : SessionId} {s : Session} {roomId secret : String}
    (hs : ((empty account capacity).run actions).sessions.get? id = some s)
    (hjoined : (((empty account capacity).run actions).perform now id
      (.joinRoom roomId secret)).1 = .ok .joined) :
    let r := (empty account capacity).run actions
    let after := (r.perform now id (.joinRoom roomId secret)).2
    (∃ b q, after.bindingOf? id = some b ∧ r.queueOf id = some q ∧
      let heard := (empty account capacity).heard b.key actions
      after.queueOf id = some (if s.closed ∨ q.receiving = false then q
        else { q with frames := q.frames ++ (lastNews heard).map .event })) ∧
    (∀ id', id' ≠ id → after.queueOf id' = r.queueOf id') ∧
    ∀ before, Reachable account capacity before → ∀ now id request,
      (before.perform now id request).1 = .ok .published ↔
        ∃ key p, before.published? (.call now id request) = some (key, p) ∧
          before.perform now id request =
            (.ok .published, (p.store before key).broadcastAll key p.news) := by
  intro r after
  have hr : Reachable account capacity r := .run .empty actions
  obtain ⟨b, hb, hqueue⟩ := hr.sound.queueOf_of_joined hs hjoined
  refine ⟨?_, ?_, ?_⟩
  · obtain ⟨q, hq⟩ := Option.isSome_iff_exists.mp
      (hr.queued id (Option.isSome_iff_exists.mpr ⟨s, hs⟩))
    have hown : r.queueOf id = some q := (hr.sound.queueOf_eq hs).trans hq
    have hgreeting := greeting_run account capacity actions b.key
    refine ⟨b, q, hb, hown, ?_⟩
    rw [hqueue, hown, Option.map_some, hgreeting, Queue.sendAll_eq]
    cases s.closed <;> cases q.receiving <;> simp
  · intro id' hi
    rw [hqueue]
    simp [hi.symm]
  · intro before hbefore now id request
    exact perform_eq_published_iff hbefore.sameSettings.maxSize

/-- A session joins after another one of its account has published a pointer and
a note, and is sent both. -/
theorem joined_after_run_late :
    let r := (empty { enabled := true } 10).run
      [.connect (some ⟨"ada", none⟩) 8, .connect (some ⟨"ada", none⟩) 8,
        .call 1 0 (.joinRoom "home" ""), .call 1 0 (.publishPointer notePointer),
        .call 1 0 (.publishText note)]
    let joined := r.perform 2 1 (.joinRoom "home" "")
    joined.1 = .ok .joined ∧ joined.2.queueOf 1 = some
      { capacity := 8
        frames := [.event (.pointerChanged notePointer), .event (.textChanged noteChange)] } := by
  intro r joined
  have hs : r.sessions.get? 1 = some ⟨some ⟨"ada", none⟩, 1, none, false⟩ := rfl
  have hjoined : joined.1 = .ok .joined := rfl
  obtain ⟨⟨b, q, hb, hq, hqueue⟩, -, -⟩ := joined_after_run _ 10 _ 2 hs hjoined
  refine ⟨hjoined, hqueue.trans ?_⟩
  cases hb
  cases hq
  rfl

end ClipRelay.Relay
