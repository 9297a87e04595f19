import ClipRelay.Proofs.Relay.Isolation

/-!
# ClipRelay.Proofs.Relay.Clash

When accounts are isolated from each other, and when they are not.

Two accounts can have keys in common just if one subject begins with the other
and a bar.  If they do, each account can read what the other publishes:
`leak` is a run in which it does (`view_leak`).  Together with the isolation
of accounts that have no keys in common, that settles for each two subjects
whether they are isolated (`isolated_iff`).
-/

namespace ClipRelay.Relay

/-! ## A run that leaks -/

/-- The second of two accounts publishes a note in a room `y` of its own; then
the first joins a room `x` of its own and asks for the history. -/
def leak (s t x y : String) : List Action :=
  [.connect (some ⟨s, none⟩) 8, .connect (some ⟨t, none⟩) 8,
    .call 1 1 (.joinRoom y ""), .call 1 1 (.publishText note),
    .call 1 0 (.joinRoom x ""), .call 1 0 (.getHistory 1)]

section
variable {s t : String} {r : Relay} {a : Action}

theorem actor?_connect_ne (r : Relay) (principal : Option Principal) (capacity : Nat) (s : String) :
    r.actor? (.connect principal capacity) ≠ some s := by
  rw [actor?]
  exact (Option.some_ne_none s).symm

theorem view_cons_of_seen (h : r.actor? a = some s) (as : List Action) :
    view s r (a :: as) = (r.step a).1 :: view s (r.step a).2 as := by
  rw [view, if_pos h]

theorem view_cons_of_unseen (h : r.actor? a ≠ some s) (as : List Action) :
    view s r (a :: as) = view s (r.step a).2 as := by
  rw [view, if_neg h]

theorem without_cons_of_hidden (h : r.actor? a = some t) (as : List Action) :
    without t r (a :: as) = without t (r.step a).2 as := by
  rw [without, if_pos h]

theorem without_cons_of_kept (h : r.actor? a ≠ some t) (as : List Action) :
    without t r (a :: as) = a :: without t (r.step a).2 as := by
  rw [without, if_neg h]

end

section
variable {r : Relay} {id : SessionId} {x : Session}

/-- In account mode a session may join any room of its own. -/
theorem Owned.takesEffect_join_first (h : r.Owned) (hx : r.sessions.get? id = some x)
    (hb : x.binding = none) {p : Principal} (hp : x.principal = some p) {roomId : String}
    (hroom : Text.isBlank roomId = false) (now : Timestamp) (secret : String) :
    let b : Binding := ⟨roomId, .forSubject p.subject roomId⟩
    r.TakesEffect id b.key
      ⟨.ok .joined, { x with binding := some b }, r.kept b.key,
        greetingFor { x with binding := some b } (r.kept b.key), []⟩
      (r.perform now id (.joinRoom roomId secret)) := by
  intro b
  have ht : target? r.account x (.joinRoom roomId secret) = some b := by
    rw [target?, wanted?, if_pos h.enabled, hp, Option.map_some]
    simp only [hroom, Bool.false_eq_true, if_false]
    rfl
  have heffect := h.takesEffect_perform hx ht now
  simp only [effect, joinEffect, admission, if_pos h.enabled, if_true, hb] at heffect
  exact heffect

/-- What the history of a room answers. -/
theorem Owned.answer_history (h : r.Owned) (hx : r.sessions.get? id = some x) {b : Binding}
    (hb : x.binding = some b) (now : Timestamp) (limit : Int32) :
    (r.perform now id (.getHistory limit)).1 =
      .ok (.history (historyAnswer b limit (r.kept b.key))) := by
  have ht : target? r.account x (.getHistory limit) = some b := hb
  exact (h.takesEffect_perform hx ht now).answer

/-- A session that joins a room and asks for its history gets what is kept there. -/
theorem Owned.join_and_read (h : r.Owned) (hx : r.sessions.get? id = some x)
    (hb : x.binding = none) {p : Principal} (hp : x.principal = some p) {roomId : String}
    (hroom : Text.isBlank roomId = false) :
    let b : Binding := ⟨roomId, .forSubject p.subject roomId⟩
    let joined := r.perform 1 id (.joinRoom roomId "")
    joined.1 = .ok .joined ∧
      (joined.2.perform 1 id (.getHistory 1)).1 =
        .ok (.history (historyAnswer b 1 (r.kept b.key))) := by
  intro b joined
  have heffect := h.takesEffect_join_first hx hb hp hroom 1 ""
  have hsession := heffect.session id
  have hkept := heffect.kept b.key
  rw [if_pos rfl] at hsession hkept
  refine ⟨heffect.answer, ?_⟩
  rw [(h.perform 1 id _).answer_history hsession rfl, hkept]

/-- A note that is published in a room is the newest item there, and no other
session is changed. -/
theorem Owned.join_and_publish (h : r.Owned) (hx : r.sessions.get? id = some x)
    (hb : x.binding = none) {p : Principal} (hp : x.principal = some p) {roomId : String}
    (hroom : Text.isBlank roomId = false) :
    let b : Binding := ⟨roomId, .forSubject p.subject roomId⟩
    let joined := (r.perform 1 id (.joinRoom roomId "")).2
    let published := (joined.perform 1 id (.publishText note)).2
    (historyAnswer b 1 (published.kept b.key)).items = [textItem roomId noteChange] ∧
      ∀ id', id ≠ id' → published.sessions.get? id' = r.sessions.get? id' := by
  intro b joined published
  have hjoin := h.takesEffect_join_first hx hb hp hroom 1 ""
  have hbound := hjoin.session id
  rw [if_pos rfl] at hbound
  have ht : target? joined.account { x with binding := some b } (.publishText note) = some b := rfl
  have hpublish := (h.perform 1 id (.joinRoom roomId "")).takesEffect_perform hbound ht 1
  refine ⟨?_, fun id' hi => ?_⟩
  · have hkept := hpublish.kept b.key
    have haccepted : acceptText 1 note = .ok noteChange := rfl
    have hlimit : Histories.effectiveLimit 1 = 1 := by decide
    have hcapacity : min 1 joined.histories.capacity = 1 :=
      Nat.min_eq_left joined.histories.one_le_capacity
    simp only [if_true, effect, textEffect, haccepted] at hkept
    simp only [historyAnswer, published, joined, hkept, hlimit, Kept.record, List.take_take]
    rw [hcapacity]
    rfl
  · have hafter := hpublish.session id'
    have hbefore := hjoin.session id'
    rw [if_neg hi] at hafter hbefore
    exact hafter.trans hbefore

end

section
variable {account : AccountSettings} {s t x y : String}

/-- A relay with a session of each of two subjects. -/
def opened (account : AccountSettings) (capacity : Nat) (s t : String) : Relay :=
  (empty account capacity).run [.connect (some ⟨s, none⟩) 8, .connect (some ⟨t, none⟩) 8]

theorem owned_opened (he : account.enabled) (capacity : Nat) (s t : String) :
    (opened account capacity s t).Owned :=
  ((owned_empty he capacity).step _).step _

theorem session_opened (account : AccountSettings) (capacity : Nat) (s t : String) :
    (opened account capacity s t).sessions.get? 0 = some ⟨some ⟨s, none⟩, 0, none, false⟩ ∧
      (opened account capacity s t).sessions.get? 1 = some ⟨some ⟨t, none⟩, 1, none, false⟩ :=
  ⟨rfl, rfl⟩

/-- The relay once the second account has joined its room. -/
def hosted (account : AccountSettings) (capacity : Nat) (s t y : String) : Relay :=
  ((opened account capacity s t).perform 1 1 (.joinRoom y "")).2

/-- The relay once the second account has published the note there. -/
def published (account : AccountSettings) (capacity : Nat) (s t y : String) : Relay :=
  ((hosted account capacity s t y).perform 1 1 (.publishText note)).2

theorem owned_hosted (he : account.enabled) (capacity : Nat) (s t y : String) :
    (hosted account capacity s t y).Owned := (owned_opened he capacity s t).perform 1 1 _

theorem owned_published (he : account.enabled) (capacity : Nat) (s t y : String) :
    (published account capacity s t y).Owned := (owned_hosted he capacity s t y).perform 1 1 _

theorem actor?_hosted (he : account.enabled) (capacity : Nat) (s t y : String) (a : Action) :
    (hosted account capacity s t y).actor? a = (opened account capacity s t).actor? a :=
  (owned_opened he capacity s t).actor?_perform 1 1 _ a

theorem actor?_published (he : account.enabled) (capacity : Nat) (s t y : String) (a : Action) :
    (published account capacity s t y).actor? a = (opened account capacity s t).actor? a :=
  ((owned_hosted he capacity s t y).actor?_perform 1 1 _ a).trans
    (actor?_hosted he capacity s t y a)

/-- What the first account sees of joining its room and asking for the history
is what is kept there. -/
theorem Owned.view_join_and_read {r : Relay} (h : r.Owned)
    (hs : r.sessions.get? 0 = some ⟨some ⟨s, none⟩, 0, none, false⟩)
    (hx : Text.isBlank x = false) :
    view s r [.call 1 0 (.joinRoom x ""), .call 1 0 (.getHistory 1)] =
      [.answered (.ok .joined),
        .answered (.ok (.history
          (historyAnswer ⟨x, .forSubject s x⟩ 1 (r.kept (.forSubject s x)))))] := by
  let r₁ := (r.perform 1 0 (.joinRoom x "")).2
  have hactor (request : Request) : r.actor? (.call 1 0 request) = some s := by
    exact subjectOf?_of_session hs rfl
  have hactor₁ (request : Request) : r₁.actor? (.call 1 0 request) = some s :=
    (h.actor?_perform 1 0 _ _).trans (hactor request)
  obtain ⟨hjoined, hread⟩ := h.join_and_read hs rfl rfl hx
  calc view s r [.call 1 0 (.joinRoom x ""), .call 1 0 (.getHistory 1)]
      = .answered (r.perform 1 0 (.joinRoom x "")).1 :: view s r₁ [.call 1 0 (.getHistory 1)] :=
        view_cons_of_seen (hactor _) _
    _ = [.answered (r.perform 1 0 (.joinRoom x "")).1,
          .answered (r₁.perform 1 0 (.getHistory 1)).1] :=
        congrArg (List.cons _) (view_cons_of_seen (hactor₁ _) _)
    _ = _ := by rw [hjoined, hread]

/-- In the run that leaks, the first account is told of the note. -/
theorem view_leak (he : account.enabled) (capacity : Nat) (hst : s ≠ t)
    (hkey : RoomKey.forSubject s x = .forSubject t y) (hx : Text.isBlank x = false)
    (hy : Text.isBlank y = false) :
    view s (empty account capacity) (leak s t x y) =
      [.answered (.ok .joined), .answered (.ok (.history ⟨x, [textItem y noteChange]⟩))] := by
  let r := opened account capacity s t
  let r₁ := hosted account capacity s t y
  let r₂ := published account capacity s t y
  have hother (request : Request) : r.actor? (.call 1 1 request) ≠ some s :=
    fun h => hst (Option.some.inj h).symm
  have hother₁ (request : Request) : r₁.actor? (.call 1 1 request) ≠ some s :=
    fun h => hother request ((actor?_hosted he capacity s t y _).symm.trans h)
  obtain ⟨hitems, hsessions⟩ := (owned_opened he capacity s t).join_and_publish
    (session_opened account capacity s t).2 rfl rfl hy
  have hsession : r₂.sessions.get? 0 = some ⟨some ⟨s, none⟩, 0, none, false⟩ :=
    hsessions 0 (by decide)
  have hhistory : historyAnswer ⟨x, .forSubject s x⟩ 1 (r₂.kept (.forSubject s x)) =
      ⟨x, [textItem y noteChange]⟩ := by
    rw [hkey, ← hitems]
    rfl
  calc view s (empty account capacity) (leak s t x y)
      = view s r [.call 1 1 (.joinRoom y ""), .call 1 1 (.publishText note),
          .call 1 0 (.joinRoom x ""), .call 1 0 (.getHistory 1)] :=
        (view_cons_of_unseen (actor?_connect_ne _ _ _ s) _).trans
          (view_cons_of_unseen (actor?_connect_ne _ _ _ s) _)
    _ = view s r₁ [.call 1 1 (.publishText note), .call 1 0 (.joinRoom x ""),
          .call 1 0 (.getHistory 1)] := view_cons_of_unseen (hother _) _
    _ = view s r₂ [.call 1 0 (.joinRoom x ""), .call 1 0 (.getHistory 1)] :=
        view_cons_of_unseen (hother₁ _) _
    _ = _ := by
        rw [(owned_published he capacity s t y).view_join_and_read hsession hx, hhistory]

/-- What is left of the run that leaks without what the second account did. -/
theorem without_leak (he : account.enabled) (capacity : Nat) (hst : s ≠ t) :
    without t (empty account capacity) (leak s t x y) =
      [.connect (some ⟨s, none⟩) 8, .connect (some ⟨t, none⟩) 8,
        .call 1 0 (.joinRoom x ""), .call 1 0 (.getHistory 1)] := by
  let r := opened account capacity s t
  let r₂ := published account capacity s t y
  let r₃ := (r₂.perform 1 0 (.joinRoom x "")).2
  have hactor₂ (a : Action) : r₂.actor? a = r.actor? a := actor?_published he capacity s t y a
  have hactor₃ (a : Action) : r₃.actor? a = r.actor? a :=
    ((owned_published he capacity s t y).actor?_perform 1 0 _ a).trans (hactor₂ a)
  have hother (request : Request) : r.actor? (.call 1 0 request) ≠ some t :=
    fun h => hst (Option.some.inj h)
  calc without t (empty account capacity) (leak s t x y)
      = .connect (some ⟨s, none⟩) 8 :: .connect (some ⟨t, none⟩) 8 ::
          without t r [.call 1 1 (.joinRoom y ""), .call 1 1 (.publishText note),
            .call 1 0 (.joinRoom x ""), .call 1 0 (.getHistory 1)] :=
        (without_cons_of_kept (actor?_connect_ne _ _ _ t) _).trans
          (congrArg (List.cons _) (without_cons_of_kept (actor?_connect_ne _ _ _ t) _))
    _ = .connect (some ⟨s, none⟩) 8 :: .connect (some ⟨t, none⟩) 8 ::
          without t r₂ [.call 1 0 (.joinRoom x ""), .call 1 0 (.getHistory 1)] :=
        congrArg (fun as => _ :: _ :: as) <| (without_cons_of_hidden rfl _).trans
          (without_cons_of_hidden ((actor?_hosted he capacity s t y _).trans rfl) _)
    _ = _ := congrArg (fun as => _ :: _ :: as) <|
        (without_cons_of_kept (fun h => hother _ ((hactor₂ _).symm.trans h)) _).trans
          (congrArg (List.cons _)
            (without_cons_of_kept (fun h => hother _ ((hactor₃ _).symm.trans h)) _))

/-- Without what the second account did, the first is told of nothing. -/
theorem view_without_leak (he : account.enabled) (capacity : Nat) (hst : s ≠ t)
    (hx : Text.isBlank x = false) :
    view s (empty account capacity) (without t (empty account capacity) (leak s t x y)) =
      [.answered (.ok .joined), .answered (.ok (.history ⟨x, []⟩))] := by
  rw [without_leak he capacity hst]
  calc view s (empty account capacity) [.connect (some ⟨s, none⟩) 8, .connect (some ⟨t, none⟩) 8,
        .call 1 0 (.joinRoom x ""), .call 1 0 (.getHistory 1)]
      = view s (opened account capacity s t)
          [.call 1 0 (.joinRoom x ""), .call 1 0 (.getHistory 1)] :=
        (view_cons_of_unseen (actor?_connect_ne _ _ _ s) _).trans
          (view_cons_of_unseen (actor?_connect_ne _ _ _ s) _)
    _ = _ := (owned_opened he capacity s t).view_join_and_read
        (session_opened account capacity s t).1 hx

end

/-! ## Isolation -/

/-- Two subjects that clash have rooms with the same key that can be joined. -/
theorem exists_common_room {s t : String} (hst : s ≠ t) (h : RoomKey.Clash s t) :
    ∃ x y, RoomKey.forSubject s x = .forSubject t y ∧
      Text.isBlank x = false ∧ Text.isBlank y = false := by
  obtain ⟨x, y, hkey⟩ := (RoomKey.exists_forSubject_eq_iff hst).mpr h
  have happend (s x : String) :
      RoomKey.forSubject s (x ++ "!") = ⟨(RoomKey.forSubject s x).text ++ "!"⟩ := by
    simp only [RoomKey.forSubject, String.append_assoc]
  have hblank (x : String) : Text.isBlank (x ++ "!") = false := by
    rw [Text.isBlank, String.toList_append, List.all_append, Bool.and_eq_false_iff]
    exact .inr (by decide)
  exact ⟨x ++ "!", y ++ "!", by rw [happend, happend, hkey], hblank x, hblank y⟩

/-- **Isolation of accounts**: nothing that comes to light for a subject, in any
run, depends on what was done on behalf of another one, just if neither subject
begins with the other and a bar; and just then no two room ids give the two the
same key.  So it is with all subjects without bars. -/
theorem isolated_iff {account : AccountSettings} (he : account.enabled) {s t : String}
    (hst : s ≠ t) :
    ((∀ capacity actions,
        view s (empty account capacity) (without t (empty account capacity) actions) =
          view s (empty account capacity) actions) ↔ ¬RoomKey.Clash s t) ∧
    ((∀ x y, RoomKey.forSubject s x ≠ .forSubject t y) ↔ ¬RoomKey.Clash s t) ∧
    ('|' ∉ s.toList → '|' ∉ t.toList → ¬RoomKey.Clash s t) := by
  have hkeys : (∀ x y, RoomKey.forSubject s x ≠ .forSubject t y) ↔ ¬RoomKey.Clash s t := by
    rw [← RoomKey.exists_forSubject_eq_iff hst]
    simp only [not_exists, ne_eq]
  refine ⟨⟨fun hview hclash => ?_, fun hclash capacity actions => ?_⟩, hkeys, RoomKey.not_clash⟩
  · obtain ⟨x, y, hkey, hx, hy⟩ := exists_common_room hst hclash
    have hleak := hview 1 (leak s t x y)
    rw [view_leak he 1 hst hkey hx hy, view_without_leak he 1 hst hx] at hleak
    simp at hleak
  · have howned := owned_empty he capacity
    exact (Alike.refl s t _).view_without (hkeys.mpr hclash) howned howned actions

/-- The subjects `a|b` and `a|c` both clash with `a`, but are isolated from each
other. -/
theorem isolated_siblings :
    "a|b" ≠ "a|c" ∧ RoomKey.Clash "a" "a|b" ∧ RoomKey.Clash "a" "a|c" ∧
      ∀ capacity actions,
        view "a|b" (empty { enabled := true } capacity)
            (without "a|c" (empty { enabled := true } capacity) actions) =
          view "a|b" (empty { enabled := true } capacity) actions := by
  have hne : "a|b" ≠ "a|c" := by decide
  -- They are of one length, and what begins with the other and a bar is longer.
  have hlonger (s rest : String) : s.length < (s ++ "|" ++ rest).length := by
    have hbar : "|".length = 1 := by decide
    rw [String.length_append, String.length_append, hbar]
    omega
  have hclash : ¬RoomKey.Clash "a|b" "a|c" := by
    rintro (⟨rest, h⟩ | ⟨rest, h⟩)
    · have hless := hlonger "a|b" rest
      rw [← h] at hless
      exact absurd hless (by decide)
    · have hless := hlonger "a|c" rest
      rw [← h] at hless
      exact absurd hless (by decide)
  exact ⟨hne, .inl ⟨"b", rfl⟩, .inl ⟨"c", rfl⟩, (isolated_iff rfl hne).1.mpr hclash⟩

/-- The subjects `a` and `a|b` are not: a room of the one has the key of a room
of the other, and `a` is told of what `a|b` publishes there. -/
theorem not_isolated_bar :
    "a" ≠ "a|b" ∧ RoomKey.forSubject "a" "b|default" = .forSubject "a|b" "default" ∧
      view "a" (empty { enabled := true } 10)
          (without "a|b" (empty { enabled := true } 10) (leak "a" "a|b" "b|default" "default")) ≠
        view "a" (empty { enabled := true } 10) (leak "a" "a|b" "b|default" "default") := by
  have hne : "a" ≠ "a|b" := by decide
  have hkey : RoomKey.forSubject "a" "b|default" = .forSubject "a|b" "default" := by decide
  refine ⟨hne, hkey, ?_⟩
  rw [view_leak rfl 10 hne hkey (by decide) (by decide),
    view_without_leak rfl 10 hne (by decide)]
  simp

end ClipRelay.Relay
