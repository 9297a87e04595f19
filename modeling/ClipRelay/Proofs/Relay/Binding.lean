import ClipRelay.Proofs.Relay.Admission
import ClipRelay.Proofs.Relay.Locality

/-!
# ClipRelay.Proofs.Relay.Binding

A session stays in the room that it joined first.

No action binds a session anew (`Sound.bindingOf?_run`).  A session that joins
its room again finds everything as it is, its own membership included, and is
only greeted once more (`Sound.join_again`): the room has the secret that it
brings (`Secured`), it is a member already if it is open, and it leaves again at
once if it is not.  Whatever else it asks to join, it is turned away
(`join_elsewhere`), and all its other calls are about its room.
-/

namespace ClipRelay.Relay

/-! ## Bindings are kept -/

theorem SameCast.bindingOf? {r r' : Relay} (h : r.SameCast r') :
    r'.bindingOf? = r.bindingOf? := by
  funext id
  rw [Relay.bindingOf?, Relay.bindingOf?, h.sessions]

/-- A new session is bound to no room, and had no name before. -/
theorem Sound.bindingOf?_connect {r : Relay} (h : r.Sound) (principal : Option Principal)
    (capacity : Nat) : (r.connect principal capacity).2.bindingOf? = r.bindingOf? := by
  funext id
  simp only [Relay.bindingOf?, Relay.connect, Table.get?_insert]
  by_cases hi : r.nextSession = id
  · rw [if_pos hi, h.unused id (Nat.le_of_eq hi)]
    rfl
  · rw [if_neg hi]

/-- A session that ends stays bound to its room. -/
theorem bindingOf?_disconnect (r : Relay) (id : SessionId) :
    (r.disconnect id).bindingOf? = r.bindingOf? := by
  funext id'
  unfold disconnect
  cases hs : r.sessions.get? id with
  | none => rfl
  | some s =>
      simp only [bindingOf?, Table.get?_insert]
      by_cases hi : id = id'
      · rw [if_pos hi, ← hi, hs]
        rfl
      · rw [if_neg hi]

theorem TakesEffect.bindingOf? {r : Relay} {id : SessionId} {key : RoomKey} {e : Effect}
    {result : Result Response} (h : r.TakesEffect id key e result) (id' : SessionId) :
    result.2.bindingOf? id' = if id = id' then e.session.binding else r.bindingOf? id' := by
  rw [Relay.bindingOf?, h.session]
  by_cases hi : id = id'
  · rw [if_pos hi, if_pos hi, Option.bind_some]
  · rw [if_neg hi, if_neg hi, Relay.bindingOf?]

/-- No call binds a session anew. -/
theorem Sound.bindingOf?_perform {r : Relay} (h : r.Sound) {id : SessionId} {b : Binding}
    (hb : r.bindingOf? id = some b) (now : Timestamp) (id' : SessionId) (request : Request) :
    (r.perform now id' request).2.bindingOf? id = some b := by
  obtain hsame | ⟨s, b', hs, -, heffect⟩ := h.perform_eq_or_takesEffect now id' request
  · rw [hsame]
    exact hb
  · rw [heffect.bindingOf?]
    by_cases hi : id' = id
    · rw [← hi, bindingOf?_of_session hs] at hb
      rw [if_pos hi]
      obtain hsession | ⟨hnone, -⟩ := session_effect r.account r.histories.capacity
        r.files.maxSize b' now request s (r.kept b'.key)
      · rw [hsession, hb]
      · rw [hnone] at hb
        contradiction
    · rw [if_neg hi]
      exact hb

/-- Only calls bind sessions. -/
theorem Sound.bindingOf?_step_of_not_call {r : Relay} (h : r.Sound) {a : Action}
    (ha : ∀ now id request, a ≠ .call now id request) :
    (r.step a).2.bindingOf? = r.bindingOf? := by
  cases a with
  | connect principal capacity => exact h.bindingOf?_connect principal capacity
  | call now id request => exact absurd rfl (ha now id request)
  | read id count => exact (sameCast_read r id count).bindingOf?
  | dropQueue id => exact (sameCast_dropQueue r id).bindingOf?
  | disconnect id => exact bindingOf?_disconnect r id
  | ask now provider request => rfl

/-- No action binds a session anew. -/
theorem Sound.bindingOf?_step {r : Relay} (h : r.Sound) {id : SessionId} {b : Binding}
    (hb : r.bindingOf? id = some b) (a : Action) : (r.step a).2.bindingOf? id = some b := by
  cases a with
  | call now id' request => exact h.bindingOf?_perform hb now id' request
  | _ =>
      rw [h.bindingOf?_step_of_not_call fun _ _ _ heq => by cases heq]
      exact hb

/-- A session that is bound to a room stays so in every run. -/
theorem Sound.bindingOf?_run {r : Relay} (h : r.Sound) {id : SessionId} {b : Binding}
    (hb : r.bindingOf? id = some b) (actions : List Action) :
    (r.run actions).bindingOf? id = some b := by
  induction actions generalizing r with
  | nil => exact hb
  | cons a actions ih => exact ih (h.step a) (h.bindingOf?_step hb a)

/-! ## The rooms of sessions have secrets -/

/-- A room that has a secret keeps one. -/
theorem isSome_admission {known : Option Bytes} (h : known.isSome) (account : AccountSettings)
    (b : Binding) (secret : String) : (admission account b secret known).2.isSome := by
  obtain ⟨hash, rfl⟩ := Option.isSome_iff_exists.mp h
  unfold admission RoomSecrets.verdict
  split
  · exact h
  · split <;> exact h

/-- Without account mode, a room that is entered has a secret. -/
theorem isSome_of_admission {account : AccountSettings} (he : account.enabled = false)
    {b : Binding} {secret : String} {known : Option Bytes}
    (h : (admission account b secret known).1 = true) :
    (admission account b secret known).2.isSome := by
  unfold admission RoomSecrets.verdict at h ⊢
  rw [he, if_neg Bool.false_ne_true] at h ⊢
  by_cases hb : (Text.isBlank b.roomId || Text.isBlank secret) = true
  · rw [if_pos hb] at h
    contradiction
  · rw [if_neg hb]
    cases known <;> rfl

section
variable {account : AccountSettings} {capacity maxSize : Nat} {b : Binding} {now : Timestamp}
  {request : Request} {s : Session} {k : Kept}

/-- Only a join binds its session, greets it or touches a secret. -/
theorem effect_of_call (h : ∀ roomId secret, request ≠ .joinRoom roomId secret) :
    (effect account capacity maxSize b now request s k).session = s ∧
      (effect account capacity maxSize b now request s k).greeting = [] ∧
      (effect account capacity maxSize b now request s k).kept.secret = k.secret := by
  cases request with
  | joinRoom roomId secret => exact absurd rfl (h roomId secret)
  | publishText p =>
      simp only [effect, textEffect]
      cases acceptText now p <;> exact ⟨rfl, rfl, rfl⟩
  | publishPointer p =>
      simp only [effect, pointerEffect]
      cases acceptPointer account b p <;> exact ⟨rfl, rfl, rfl⟩
  | publishFile p =>
      simp only [effect, fileEffect]
      cases acceptFile b.roomId now p with
      | error e => exact ⟨rfl, rfl, rfl⟩
      | ok item =>
          simp only
          cases Payloads.fault? maxSize p.bytes <;> exact ⟨rfl, rfl, rfl⟩
  | getHistory limit => exact ⟨rfl, rfl, rfl⟩
  | getHistoryText itemId => exact ⟨rfl, rfl, rfl⟩

/-- A room that has a secret still has one after any call. -/
theorem isSome_secret_effect (h : k.secret.isSome) :
    (effect account capacity maxSize b now request s k).kept.secret.isSome := by
  cases request with
  | joinRoom roomId secret =>
      simp only [effect, kept_joinEffect]
      exact isSome_admission h account b secret
  | _ =>
      rw [(effect_of_call fun _ _ heq => by cases heq).2.2]
      exact h

/-- Without account mode, a call that binds its session leaves the room with a
secret. -/
theorem isSome_secret_of_bound (he : account.enabled = false) (hs : s.binding = none)
    {b' : Binding}
    (hb : (effect account capacity maxSize b now request s k).session.binding = some b') :
    b' = b ∧ (effect account capacity maxSize b now request s k).kept.secret.isSome := by
  cases request with
  | joinRoom roomId secret =>
      simp only [effect, kept_joinEffect]
      simp only [effect, joinEffect, hs] at hb
      cases hadmitted : (admission account b secret k.secret).1 with
      | false =>
          rw [hadmitted, if_neg Bool.false_ne_true, hs] at hb
          contradiction
      | true =>
          rw [hadmitted, if_pos rfl] at hb
          exact ⟨(Option.some.inj hb).symm, isSome_of_admission he hadmitted⟩
  | _ =>
      rw [(effect_of_call fun _ _ heq => by cases heq).1, hs] at hb
      contradiction

end

/-- Without account mode, every room that a session is bound to has a secret. -/
def Secured (r : Relay) : Prop :=
  r.account.enabled = false → ∀ id b, r.bindingOf? id = some b → (r.kept b.key).secret.isSome

theorem TakesEffect.isSome_secret {r : Relay} {id : SessionId} {key key' : RoomKey} {e : Effect}
    {result : Result Response} (h : r.TakesEffect id key e result)
    (heffect : (r.kept key).secret.isSome → e.kept.secret.isSome)
    (hsecret : (r.kept key').secret.isSome) : (result.2.kept key').secret.isSome := by
  rw [h.kept]
  by_cases hk : key = key'
  · rw [if_pos hk]
    exact heffect (hk ▸ hsecret)
  · rw [if_neg hk]
    exact hsecret

theorem Secured.perform {r : Relay} (hr : r.Secured) (h : r.Sound) (now : Timestamp)
    (id : SessionId) (request : Request) : (r.perform now id request).2.Secured := by
  obtain hsame | ⟨s, b, hs, -, heffect⟩ := h.perform_eq_or_takesEffect now id request
  · rw [hsame]
    exact hr
  · intro he id' b' hb'
    rw [heffect.account] at he
    -- What was a session's room before has kept its secret.
    have hkeeps (id' : SessionId) (hb' : r.bindingOf? id' = some b') :=
      heffect.isSome_secret isSome_secret_effect (hr he id' b' hb')
    rw [heffect.bindingOf?] at hb'
    by_cases hi : id = id'
    · rw [if_pos hi] at hb'
      cases hbound : s.binding with
      | none =>
          obtain ⟨rfl, hsecret⟩ := isSome_secret_of_bound he hbound hb'
          rw [heffect.kept, if_pos rfl]
          exact hsecret
      | some b'' =>
          refine hkeeps id ?_
          obtain hsession | ⟨hnone, -⟩ := session_effect r.account r.histories.capacity
            r.files.maxSize b now request s (r.kept b.key)
          · rw [hsession] at hb'
            rw [bindingOf?_of_session hs, hb']
          · rw [hbound] at hnone
            contradiction
    · rw [if_neg hi] at hb'
      exact hkeeps id' hb'

theorem Secured.step {r : Relay} (hr : r.Secured) (h : r.Sound) (a : Action) :
    (r.step a).2.Secured := by
  cases a with
  | call now id request => exact hr.perform h now id request
  | _ =>
      intro he id b hb
      rw [(sameSettings_step r _).account] at he
      rw [h.bindingOf?_step_of_not_call fun _ _ _ heq => by cases heq] at hb
      rw [kept_step_of_not_call r fun _ _ _ heq => by cases heq]
      exact hr he id b hb

theorem Reachable.secured {account : AccountSettings} {capacity : Nat} {r : Relay}
    (h : Reachable account capacity r) : r.Secured := by
  induction h with
  | empty =>
      intro _ id b hb
      contradiction
  | step a h ih => exact ih.step h.sound a

/-! ## Joining again -/

/-- What is sent on joining is queued for the session alone. -/
theorem converge_eq (r : Relay) (s : Session) (key : RoomKey) :
    r.converge s key =
      { r with queues := r.queues.modify s.outbound (Queue.sendAll (r.kept key).greeting) } := by
  have hpointer : (r.kept key).pointer = r.pointers.get? key := rfl
  have htext : (r.kept key).text = r.texts.get? key := rfl
  rw [Kept.greeting, hpointer, htext]
  unfold converge push send
  cases r.pointers.get? key <;> cases ht : r.texts.get? key <;>
    simp [ht, Queue.sendAll_nil, Queue.sendAll_cons, Table.modify_id, Table.modify_modify]

/-- The relay once a session was greeted in a room, unless it has ended. -/
def greet (r : Relay) (s : Session) (key : RoomKey) : Relay :=
  if s.closed then r
  else { r with queues := r.queues.modify s.outbound (Queue.sendAll (r.kept key).greeting) }

/-- A session that enters its room once more is greeted, and nothing else happens. -/
theorem Sound.enter_again_eq {r : Relay} (h : r.Sound) {id : SessionId} {s : Session} {b : Binding}
    (hs : r.sessions.get? id = some s) (hb : s.binding = some b) :
    r.enter id s b.key = r.greet s b.key := by
  have hgroup := h.get?_group b.key id
  have hroom : r.roomOf? id = s.roomKey? := by rw [roomOf?, hs, Option.bind_some]
  rw [hroom, Session.roomKey?, hb, Option.map_some] at hgroup
  unfold enter greet
  cases hc : s.closed with
  | true =>
      -- It is a member no more, so it leaves the groups as they were.
      rw [hc] at hgroup
      have hleave := h.tidy.leave_join hgroup s.outbound
      simp only [if_true, hleave]
  | false =>
      -- It is a member already.
      rw [hc, if_neg Bool.false_ne_true, if_pos rfl] at hgroup
      have hmember : (r.groups.group b.key).get? id = some s.outbound := by
        rw [hgroup, h.outbound_eq id s hs]
      simp only [Bool.false_eq_true, if_false, Membership.join_eq_self hmember]
      exact converge_eq r s b.key

/-- Credentials for a room that has a secret fix none. -/
theorem Secured.not_founds {r : Relay} (hr : r.Secured) {id : SessionId} {b wanted : Binding}
    (hb : r.bindingOf? id = some b) {s : Session} {roomId secret : String}
    (h : r.Admits s roomId secret wanted) (hk : wanted.key = b.key) :
    ¬r.Founds roomId secret := by
  rintro ⟨he, -, -, hnone⟩
  have hsecret : (r.secrets.hashes.get? b.key.text).isSome := hr he id b hb
  rw [← hk, h.key_text he, hnone] at hsecret
  contradiction

/-- A session that joins its room again is greeted, and nothing else happens. -/
theorem Sound.join_again {r : Relay} (h : r.Sound) (hr : r.Secured) {id : SessionId} {s : Session}
    {b wanted : Binding} (hs : r.sessions.get? id = some s) (hb : s.binding = some b)
    {roomId secret : String} (hadmits : r.Admits s roomId secret wanted)
    (hk : wanted.key = b.key) : r.join id s roomId secret = (.ok (), r.greet s b.key) := by
  have hbound := (bindingOf?_of_session hs).trans hb
  cases hg : r.grant s roomId secret with
  | mk granted secrets =>
      have hgranted : granted = .ok wanted := (congrArg Prod.fst hg).symm.trans
        (fst_grant_iff.mpr hadmits)
      have hstores : { r with secrets } = r :=
        (with_grant hg).trans (if_neg (hr.not_founds hbound hadmits hk))
      rw [hgranted] at hg
      simp only [Relay.join, hg, hb, hk, if_true, hstores, h.enter_again_eq hs hb]

/-- A session that is bound to a room is let into no other, and nothing but a
secret can come of its asking. -/
theorem join_elsewhere {r : Relay} (id : SessionId) {s : Session} {b : Binding}
    (hb : s.binding = some b) {roomId secret : String}
    (h : ∀ wanted, r.Admits s roomId secret wanted → wanted.key ≠ b.key) :
    ∃ e secrets, r.join id s roomId secret = (.error e, { r with secrets }) := by
  refine join_cases r id s roomId secret (motive := fun result =>
    ∃ e secrets, result = (.error e, { r with secrets })) ?_ ?_ ?_ ?_
  · intro e secrets _
    exact ⟨e, secrets, rfl⟩
  · intro wanted secrets b' _ _ _
    exact ⟨.joinedElsewhere, secrets, rfl⟩
  · intro wanted secrets b' hg hb' hk
    obtain rfl : b = b' := Option.some.inj (hb.symm.trans hb')
    exact absurd hk.symm (h wanted (fst_grant_iff.mp (congrArg Prod.fst hg)))
  · intro wanted secrets _ hnone
    rw [hb] at hnone
    contradiction

/-! ## All other calls -/

/-- Whoever is not in the room of the caller is sent nothing by a call that is no
join, the caller itself included. -/
theorem Sound.queueOf_perform_of_call {r : Relay} (h : r.Sound) {id id' : SessionId} {s : Session}
    {b : Binding} (hs : r.sessions.get? id = some s) (hb : s.binding = some b) (now : Timestamp)
    {request : Request} (hcall : ∀ roomId secret, request ≠ .joinRoom roomId secret)
    (houtside : r.groups.isMember b.key id' = false) :
    (r.perform now id request).2.queueOf id' = r.queueOf id' := by
  have heffect := h.takesEffect_perform hs (target?_of_call hb hcall) now
  have hroom : r.roomOf? id' ≠ some b.key := by
    rw [Ne, ← h.isMember_iff, houtside]
    exact Bool.false_ne_true
  rw [heffect.queueOf h (h.perform now id request) hs]
  cases r.queueOf id' with
  | none => rfl
  | some q =>
      rw [Option.map_some,
        Effect.deliver_of_outside _ _ q (fun _ => (effect_of_call hcall).2.1) hroom]

/-- **Bindings are for life**: let a session of a reachable relay be bound to a
room.  Whatever happens then, it stays bound to it.  A join with credentials
that are good for the room changes nothing, but greets the session once more
unless it has ended; any other join is refused, and changes no more than a
secret.  And its calls to come read and write its room only: all other rooms
stay as they are, nobody outside the room is sent anything, and the answer is
the same on every relay with the same session and the same kept of the room. -/
theorem bound_for_life {account : AccountSettings} {capacity : Nat} {r : Relay}
    (h : Reachable account capacity r) {id : SessionId} {s : Session} {b : Binding}
    (hs : r.sessions.get? id = some s) (hb : s.binding = some b) :
    (∀ actions, (r.run actions).bindingOf? id = some b) ∧
    (∀ now roomId secret wanted, r.Admits s roomId secret wanted → wanted.key = b.key →
      r.perform now id (.joinRoom roomId secret) = (.ok .joined, if s.closed then r else
        { r with queues := r.queues.modify id (Queue.sendAll (r.kept b.key).greeting) })) ∧
    (∀ now roomId secret, (∀ wanted, r.Admits s roomId secret wanted → wanted.key ≠ b.key) →
      ∃ e secrets, r.perform now id (.joinRoom roomId secret) = (.error e, { r with secrets })) ∧
    ∀ actions now request, (∀ roomId secret, request ≠ .joinRoom roomId secret) →
      let later := r.run actions
      let after := (later.perform now id request).2
      (∀ key, b.key ≠ key → after.room key = later.room key) ∧
      (∀ id', later.groups.isMember b.key id' = false → after.queueOf id' = later.queueOf id') ∧
      ∀ r₂, Reachable account capacity r₂ → r₂.sessions.get? id = later.sessions.get? id →
        r₂.kept b.key = later.kept b.key →
        (r₂.perform now id request).1 = (later.perform now id request).1 := by
  have hbound := (bindingOf?_of_session hs).trans hb
  refine ⟨h.sound.bindingOf?_run hbound, ?_, ?_, ?_⟩
  · intro now roomId secret wanted hadmits hk
    rw [perform_joinRoom hs, h.sound.join_again h.secured hs hb hadmits hk, greet,
      h.sound.outbound_eq id s hs]
    rfl
  · intro now roomId secret hother
    obtain ⟨e, secrets, hjoin⟩ := join_elsewhere id hb hother
    refine ⟨e, secrets, ?_⟩
    rw [perform_joinRoom hs, hjoin]
    rfl
  · intro actions now request hcall later after
    have hlater : Reachable account capacity later := h.run actions
    obtain ⟨s', hs', hb'⟩ := Option.bind_eq_some_iff.mp (h.sound.bindingOf?_run hbound actions)
    have ht : target? later.account s' request = some b := target?_of_call hb' hcall
    refine ⟨?_, ?_, ?_⟩
    · exact fun key hk => hlater.sound.room_perform_of_ne hs' ht now hk
    · exact fun id' => hlater.sound.queueOf_perform_of_call hs' hb' now hcall
    · intro r₂ h₂ hsame hkept
      have heffect := hlater.sound.takesEffect_perform hs' ht now
      have heffect₂ := h₂.sound.takesEffect_perform_of_same (hlater.sameSettings_of h₂)
        (hsame.trans hs') ht hkept now
      exact heffect₂.answer.trans heffect.answer.symm

/-- Two sessions of Ada joined `home`, where a text was published; then the second ended.  The
first joins again and is greeted with the text, the second is not; neither gets into `work`;
and both stay bound to `home` whatever happens. -/
theorem bound_for_life_home :
    let ada : Principal := ⟨"ada", none⟩
    let r := (empty { enabled := true } 10).run
      [.connect (some ada) 8, .connect (some ada) 8, .call 1 0 (.joinRoom "home" ""),
        .call 1 1 (.joinRoom "home" ""), .call 1 0 (.publishText note), .disconnect 1]
    r.perform 2 0 (.joinRoom "home" "") = (.ok .joined,
        { r with queues := r.queues.modify 0 (Queue.sendAll [.event (.textChanged noteChange)]) }) ∧
      r.perform 2 1 (.joinRoom "home" "") = (.ok .joined, r) ∧
      (∀ id ∈ [0, 1], ∃ e secrets,
        r.perform 2 id (.joinRoom "work" "") = (.error e, { r with secrets })) ∧
      ∀ id ∈ [0, 1], ∀ actions,
        (r.run actions).bindingOf? id = some ⟨"home", .forSubject "ada" "home"⟩ := by
  intro ada r
  let home : Binding := ⟨"home", .forSubject "ada" "home"⟩
  let s (closed : Bool) (queue : Nat) : Session := ⟨some ada, queue, some home, closed⟩
  have hhome (closed queue) : r.Admits (s closed queue) "home" "" home := ⟨rfl, nofun⟩
  have hwork (closed queue) (wanted : Binding) (h : r.Admits (s closed queue) "work" "" wanted) :
      wanted.key ≠ home.key := by
    obtain rfl : ⟨"work", .forSubject "ada" "work"⟩ = wanted := Option.some.inj h.1
    decide
  have hr : Reachable { enabled := true } 10 r := .run .empty _
  have hfirst : r.sessions.get? 0 = some (s false 0) := rfl
  have hsecond : r.sessions.get? 1 = some (s true 1) := rfl
  have hgreeting : (r.kept home.key).greeting = [.event (.textChanged noteChange)] := rfl
  obtain ⟨hlife, hagain, helsewhere, -⟩ := bound_for_life hr hfirst rfl
  obtain ⟨hlife₁, hagain₁, helsewhere₁, -⟩ := bound_for_life hr hsecond rfl
  have hgreeted := hagain 2 "home" "" home (hhome ..) rfl
  have hended := hagain₁ 2 "home" "" home (hhome ..) rfl
  rw [hgreeting, if_neg Bool.false_ne_true] at hgreeted
  rw [if_pos rfl] at hended
  refine ⟨hgreeted, hended, ?_, ?_⟩
  · rw [List.forall_mem_cons, List.forall_mem_singleton]
    exact ⟨helsewhere 2 "work" "" (hwork false 0), helsewhere₁ 2 "work" "" (hwork true 1)⟩
  · rw [List.forall_mem_cons, List.forall_mem_singleton]
    exact ⟨hlife, hlife₁⟩

end ClipRelay.Relay
