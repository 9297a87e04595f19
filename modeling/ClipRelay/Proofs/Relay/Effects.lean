import ClipRelay.Proofs.Relay.Stores

/-!
# ClipRelay.Proofs.Relay.Effects

What each call comes to.

A call is about one room.  What it answers, what the room keeps afterwards,
what the caller is sent and what the members are offered all follow from the
caller's session and from what the room kept before: `effect` computes them
from nothing else.  `Sound.takesEffect_perform` says that this, and no more, is
what becomes of the relay.
-/

namespace ClipRelay.Relay

/-- The room that a session may ask to enter with a room id, and the name it
gives that room: in account mode one of the account's own. -/
def wanted? (account : AccountSettings) (s : Session) (roomId : String) : Option Binding :=
  if account.enabled then
    s.principal.map fun p =>
      let roomId := if Text.isBlank roomId then homeRoomId else roomId
      ⟨roomId, .forSubject p.subject roomId⟩
  else some ⟨roomId, .shared roomId⟩

/-- The room that a call is about: the one to enter, or else the one that the
session is bound to. -/
def target? (account : AccountSettings) (s : Session) : Request → Option Binding
  | .joinRoom roomId _ => wanted? account s roomId
  | _ => s.binding

/-- A call that is no join is about the room that its session is bound to. -/
theorem target?_of_call {account : AccountSettings} {s : Session} {b : Binding}
    (hb : s.binding = some b) {request : Request}
    (h : ∀ roomId secret, request ≠ .joinRoom roomId secret) :
    target? account s request = some b := by
  cases request with
  | joinRoom roomId secret => exact absurd rfl (h roomId secret)
  | _ => exact hb

/-- Whether a room may be entered, and the hash of its secret afterwards. -/
def admission (account : AccountSettings) (b : Binding) (secret : String) (known : Option Bytes) :
    Bool × Option Bytes :=
  if account.enabled then (true, known) else RoomSecrets.verdict known b.roomId secret

/-- What a call comes to. -/
structure Effect where
  answer : Except Refusal Response
  /-- The caller's session afterwards. -/
  session : Session
  /-- What the room keeps afterwards. -/
  kept : Kept
  /-- What the caller is sent. -/
  greeting : List RelayFrame := []
  /-- What the members of the room are offered. -/
  news : List Event := []

/-- What a session is sent that enters a room. -/
def greetingFor (s : Session) (k : Kept) : List RelayFrame :=
  if s.closed then [] else k.greeting

def joinEffect (account : AccountSettings) (b : Binding) (secret : String) (s : Session)
    (k : Kept) : Effect :=
  let k' := { k with secret := (admission account b secret k.secret).2 }
  if (admission account b secret k.secret).1 then
    match s.binding with
    | none => ⟨.ok .joined, { s with binding := some b }, k', greetingFor s k', []⟩
    | some b' =>
      if b'.key = b.key then ⟨.ok .joined, s, k', greetingFor s k', []⟩
      else ⟨.error .joinedElsewhere, s, k', [], []⟩
  else ⟨.error .invalidRoomCredentials, s, k', [], []⟩

def textEffect (capacity : Nat) (b : Binding) (now : Timestamp) (p : TextPublish) (s : Session)
    (k : Kept) : Effect :=
  match acceptText now p with
  | .error e => ⟨.error e, s, k, [], []⟩
  | .ok change =>
    let k := k.record capacity (textItem b.roomId change) (some change.text)
    ⟨.ok .published, s, { k with text := some change }, [], textNews b.roomId change⟩

def pointerEffect (account : AccountSettings) (b : Binding) (p : Pointer) (s : Session)
    (k : Kept) : Effect :=
  match acceptPointer account b p with
  | .error e => ⟨.error e, s, k, [], []⟩
  | .ok p => ⟨.ok .published, s, { k with pointer := some p }, [], [.pointerChanged p]⟩

def fileEffect (capacity maxSize : Nat) (b : Binding) (now : Timestamp) (p : FilePublish)
    (s : Session) (k : Kept) : Effect :=
  match acceptFile b.roomId now p with
  | .error e => ⟨.error e, s, k, [], []⟩
  | .ok item =>
    match Payloads.fault? maxSize p.bytes with
    | some e => ⟨.error (.notStored e), s, k, [], []⟩
    | none =>
      let k := (k.store item.id p.bytes).record capacity item none
      ⟨.ok .published, s, k, [], [.historyItemAdded item]⟩

def historyAnswer (b : Binding) (limit : Int32) (k : Kept) : HistoryList :=
  ⟨b.roomId, k.items.take (Histories.effectiveLimit limit)⟩

def textAnswer (itemId : String) (k : Kept) : Except Refusal HistoryText :=
  if Text.isBlank itemId then .error .itemIdMissing
  else match k.itemTexts itemId with
    | some text => .ok ⟨itemId, text⟩
    | none => .error (.itemNotFound itemId)

/-- What a call about a room comes to, given the caller's session and what the
room keeps. -/
def effect (account : AccountSettings) (capacity maxSize : Nat) (b : Binding) (now : Timestamp)
    (request : Request) (s : Session) (k : Kept) : Effect :=
  match request with
  | .joinRoom _ secret => joinEffect account b secret s k
  | .publishText p => textEffect capacity b now p s k
  | .publishPointer p => pointerEffect account b p s k
  | .publishFile p => fileEffect capacity maxSize b now p s k
  | .getHistory limit => ⟨.ok (.history (historyAnswer b limit k)), s, k, [], []⟩
  | .getHistoryText itemId => ⟨(textAnswer itemId k).map .historyText, s, k, [], []⟩

/-- What becomes of a queue: that of the caller, that of a member, or another. -/
def Effect.deliver (e : Effect) (caller member : Prop) [Decidable caller] [Decidable member]
    (q : Queue) : Queue :=
  let q := if caller then q.sendAll e.greeting else q
  if member then q.offers e.news else q

section
variable {e : Effect} (caller member : Prop) [Decidable caller] [Decidable member] (q : Queue)

/-- Without a greeting, just the members hear something. -/
theorem Effect.deliver_of_greeting_nil (h : e.greeting = []) :
    e.deliver caller member q = if member then q.offers e.news else q := by
  rw [deliver, h, Queue.sendAll_nil, id_eq, ite_self]

/-- Without news, just the caller hears something. -/
theorem Effect.deliver_of_news_nil (h : e.news = []) :
    e.deliver caller member q = if caller then q.sendAll e.greeting else q := by
  have hnone (q : Queue) : q.offers [] = q := rfl
  rw [deliver, h, hnone, ite_self]

/-- Whoever is not in the room hears nothing, the caller included if nothing
greets it. -/
theorem Effect.deliver_of_outside (hc : caller → e.greeting = []) (hm : ¬member) :
    e.deliver caller member q = q := by
  rw [deliver, if_neg hm]
  by_cases h : caller
  · rw [if_pos h, hc h, Queue.sendAll_nil, id_eq]
  · rw [if_neg h]

/-- What is delivered stands behind what waits already. -/
theorem Effect.exists_deliver :
    ∃ frames, (e.deliver caller member q).frames = q.frames ++ frames := by
  obtain ⟨sent, hsent⟩ : ∃ sent,
      (if caller then q.sendAll e.greeting else q).frames = q.frames ++ sent := by
    split
    · exact Queue.exists_sendAll e.greeting q
    · exact ⟨[], (List.append_nil _).symm⟩
  rw [deliver]
  split
  · obtain ⟨offered, hoffered⟩ :=
      Queue.exists_offers e.news (if caller then q.sendAll e.greeting else q)
    exact ⟨sent ++ offered, by rw [hoffered, hsent, List.append_assoc]⟩
  · exact ⟨sent, hsent⟩

end

/-- The result of a call is its effect on the caller and on one room, and leaves
everything else as it was. -/
structure TakesEffect (r : Relay) (id : SessionId) (key : RoomKey) (e : Effect)
    (result : Result Response) : Prop extends SameSettings r result.2 where
  answer : result.1 = e.answer
  nextSession : result.2.nextSession = r.nextSession
  session : ∀ id', result.2.sessions.get? id' =
    if id = id' then some e.session else r.sessions.get? id'
  kept : ∀ key', result.2.kept key' = if key = key' then e.kept else r.kept key'
  queue : ∀ id', result.2.queues.get? id' =
    (r.queues.get? id').map (e.deliver (id = id') (r.roomOf? id' = some key))

/-- A call that only answers. -/
theorem takesEffect_answer {r : Relay} {id : SessionId} {s : Session}
    (hs : r.sessions.get? id = some s) (key : RoomKey) (answer : Except Refusal Response) :
    r.TakesEffect id key ⟨answer, s, r.kept key, [], []⟩ (answer, r) := by
  refine ⟨.refl r, rfl, rfl, ?_, ?_, ?_⟩
  · intro id'
    by_cases hi : id = id'
    · rw [if_pos hi, ← hi, hs]
    · rw [if_neg hi]
  · intro key'
    by_cases hk : key = key'
    · rw [if_pos hk, hk]
    · rw [if_neg hk]
  · intro id'
    cases hq : r.queues.get? id' with
    | none => rfl
    | some q =>
        rw [Option.map_some, Effect.deliver_of_news_nil _ _ _ rfl, Queue.sendAll_nil, id_eq,
          ite_self]

/-- A call that changes what a room keeps and tells its members. -/
theorem Sound.takesEffect_publish {r : Relay} (h : r.Sound) (stored : Relay) {id : SessionId}
    {s : Session} (hs : r.sessions.get? id = some s) (hcast : r.SameCast stored)
    (hqueues : stored.queues = r.queues) {key : RoomKey} {k : Kept}
    (hkept : ∀ key', stored.kept key' = if key = key' then k else r.kept key')
    (answer : Except Refusal Response) (events : List Event) :
    r.TakesEffect id key ⟨answer, s, k, [], events⟩ (answer, stored.broadcastAll key events) := by
  have hafter := hcast.trans (sameCast_broadcastAll stored key events)
  refine ⟨hafter.toSameSettings, rfl, hafter.nextSession, ?_, ?_, ?_⟩
  · intro id'
    rw [hafter.sessions]
    by_cases hi : id = id'
    · rw [if_pos hi, ← hi, hs]
    · rw [if_neg hi]
  · intro key'
    rw [kept_broadcastAll, hkept]
  · intro id'
    rw [(h.of_sameCast hcast).get?_broadcastAll, hcast.roomOf?, hqueues]
    cases r.queues.get? id' with
    | none => simp
    | some q =>
        rw [Option.map_some, Option.map_some, Effect.deliver_of_greeting_nil _ _ _ rfl]
        split <;> rfl

/-- A call that takes the caller into a room. -/
theorem Sound.takesEffect_enter {r : Relay} (h : r.Sound) (stored : Relay) (s' : Session)
    {id : SessionId} {s : Session} (hs : r.sessions.get? id = some s)
    (hout : s'.outbound = s.outbound)
    (hsettings : r.SameSettings stored) (hqueues : stored.queues = r.queues)
    (hnext : stored.nextSession = r.nextSession)
    (hsessions : ∀ id', stored.sessions.get? id' =
      if id = id' then some s' else r.sessions.get? id')
    {key : RoomKey} {k : Kept}
    (hkept : ∀ key', stored.kept key' = if key = key' then k else r.kept key') :
    r.TakesEffect id key ⟨.ok .joined, s', k, greetingFor s' k, []⟩
      (.ok .joined, stored.enter id s' key) := by
  refine ⟨hsettings.trans (sameSettings_enter stored id s' key), rfl, ?_, ?_, ?_, ?_⟩
  · rw [nextSession_enter, hnext]
  · intro id'
    rw [sessions_enter, hsessions]
  · intro key'
    rw [kept_enter, hkept]
  · intro id'
    rw [get?_queues_enter, hout, h.outbound_eq id s hs, hqueues, hkept key, if_pos rfl]
    cases r.queues.get? id' with
    | none => simp
    | some q =>
        rw [Option.map_some, Option.map_some, Effect.deliver_of_news_nil _ _ _ rfl, greetingFor]
        by_cases hi : id = id'
        · cases s'.closed <;> simp [hi, Queue.sendAll_nil]
        · rw [if_neg hi, if_neg hi]

/-! ## Joining -/

theorem grant_of_none {r : Relay} {s : Session} {roomId : String}
    (h : wanted? r.account s roomId = none) (secret : String) :
    r.grant s roomId secret = (.error .authenticationRequired, r.secrets) := by
  rw [wanted?] at h
  rw [grant]
  by_cases he : r.account.enabled
  · rw [if_pos he] at h ⊢
    rw [Option.map_eq_none_iff.mp h]
  · rw [if_neg he] at h
    contradiction

/-- The secret of a room, and nothing else, decides about entering it and may
change with that. -/
theorem grant_of_some {r : Relay} {s : Session} {roomId : String} {b : Binding}
    (h : wanted? r.account s roomId = some b) (secret : String) :
    ∃ secrets, r.grant s roomId secret =
        (if (admission r.account b secret (r.kept b.key).secret).1 then .ok b
          else .error .invalidRoomCredentials, secrets) ∧
      ∀ key, { r with secrets }.kept key =
        if b.key = key then
          { r.kept b.key with secret := (admission r.account b secret (r.kept b.key).secret).2 }
        else r.kept key := by
  rw [wanted?] at h
  unfold grant admission
  by_cases he : r.account.enabled
  · rw [if_pos he] at h
    obtain ⟨p, hp, hb⟩ := Option.map_eq_some_iff.mp h
    refine ⟨r.secrets, ?_, ?_⟩
    · simp only [if_pos he, hp, if_true]
      rw [← hb]
    · intro key
      by_cases hk : b.key = key
      · rw [if_pos hk, if_pos he, hk]
      · rw [if_neg hk]
  · rw [if_neg he] at h
    cases h
    refine ⟨(r.secrets.enter roomId secret).2, ?_, ?_⟩
    · have hfst := RoomSecrets.fst_enter r.secrets roomId secret
      rw [if_neg he, if_neg he]
      cases hg : r.secrets.enter roomId secret with
      | mk admitted secrets =>
          rw [hg] at hfst
          have hknown : (r.kept (.shared roomId)).secret = r.secrets.hashes.get? roomId := rfl
          rw [hknown, ← hfst]
          cases admitted <;> rfl
    · intro key
      have hkey : RoomKey.shared roomId = key ↔ roomId = key.text :=
        ⟨fun hk => hk ▸ rfl, fun hk => hk ▸ rfl⟩
      have hsecret := RoomSecrets.get?_enter r.secrets roomId secret key.text
      simp only [hkey, if_neg he]
      by_cases hk : roomId = key.text
      · rw [if_pos hk] at hsecret ⊢
        obtain rfl := hkey.mpr hk
        refine Kept.ext hsecret rfl rfl rfl rfl rfl
      · rw [if_neg hk] at hsecret ⊢
        exact Kept.ext hsecret rfl rfl rfl rfl rfl

theorem Sound.takesEffect_join {r : Relay} (h : r.Sound) {id : SessionId} {s : Session}
    (hs : r.sessions.get? id = some s) {roomId : String} {b : Binding}
    (hw : wanted? r.account s roomId = some b) (secret : String) :
    r.TakesEffect id b.key (joinEffect r.account b secret s (r.kept b.key))
      (answering .joined (r.join id s roomId secret)) := by
  obtain ⟨secrets, hgrant, hkept⟩ := grant_of_some hw secret
  have hcast : r.SameCast { r with secrets } := ⟨⟨rfl, rfl, rfl⟩, rfl, rfl, rfl⟩
  -- What only answers may still have fixed the secret.
  have hanswer (answer : Except Refusal Response) :=
    h.takesEffect_publish { r with secrets } hs hcast rfl hkept answer []
  unfold Relay.join joinEffect
  rw [hgrant]
  cases hadmitted : (admission r.account b secret (r.kept b.key).secret).1 with
  | false => exact hanswer (.error .invalidRoomCredentials)
  | true =>
      simp only [if_true]
      cases hb : s.binding with
      | none =>
          let stored := { r with secrets }
          refine h.takesEffect_enter (stored.bind id s b) { s with binding := some b } hs rfl
            ⟨rfl, rfl, rfl⟩ rfl rfl (fun id' => ?_) hkept
          exact Table.get?_insert _ _ _ _
      | some b' =>
          by_cases hk : b'.key = b.key
          · simp only [if_pos hk]
            rw [hk]
            refine h.takesEffect_enter { r with secrets } s hs rfl ⟨rfl, rfl, rfl⟩ rfl rfl
              (fun id' => ?_) hkept
            by_cases hi : id = id'
            · rw [if_pos hi, ← hi, hs]
            · rw [if_neg hi]
          · simp only [if_neg hk]
            exact hanswer (.error .joinedElsewhere)

/-! ## Publishing -/

theorem Sound.takesEffect_publishText {r : Relay} (h : r.Sound) {id : SessionId} {s : Session}
    (hs : r.sessions.get? id = some s) (b : Binding) (now : Timestamp) (p : TextPublish) :
    r.TakesEffect id b.key (textEffect r.histories.capacity b now p s (r.kept b.key))
      (answering .published (r.publishText b now p)) := by
  unfold publishText textEffect
  cases acceptText now p with
  | error e => exact takesEffect_answer hs b.key (.error e)
  | ok change =>
      let item := textItem b.roomId change
      let recorded := { r with histories := r.histories.append b.key item (some change.text) }
      refine h.takesEffect_publish { recorded with texts := recorded.texts.insert b.key change } hs
        ⟨⟨rfl, rfl, rfl⟩, rfl, rfl, rfl⟩ rfl ?_ (.ok .published) (textNews b.roomId change)
      intro key
      rw [kept_insertText, kept_append]
      by_cases hk : b.key = key
      · rw [if_pos hk, if_pos hk, if_pos hk, hk]
      · rw [if_neg hk, if_neg hk, if_neg hk]

theorem Sound.takesEffect_publishPointer {r : Relay} (h : r.Sound) {id : SessionId} {s : Session}
    (hs : r.sessions.get? id = some s) (b : Binding) (p : Pointer) :
    r.TakesEffect id b.key (pointerEffect r.account b p s (r.kept b.key))
      (answering .published (r.publishPointer b p)) := by
  unfold publishPointer pointerEffect
  cases acceptPointer r.account b p with
  | error e => exact takesEffect_answer hs b.key (.error e)
  | ok p =>
      refine h.takesEffect_publish { r with pointers := r.pointers.insert b.key p } hs
        ⟨⟨rfl, rfl, rfl⟩, rfl, rfl, rfl⟩ rfl ?_ (.ok .published) [.pointerChanged p]
      intro key
      rw [kept_insertPointer]
      by_cases hk : b.key = key
      · rw [if_pos hk, if_pos hk, hk]
      · rw [if_neg hk, if_neg hk]

theorem Sound.takesEffect_publishFile {r : Relay} (h : r.Sound) {id : SessionId} {s : Session}
    (hs : r.sessions.get? id = some s) (b : Binding) (now : Timestamp) (p : FilePublish) :
    r.TakesEffect id b.key
      (fileEffect r.histories.capacity r.files.maxSize b now p s (r.kept b.key))
      (answering .published (r.publishFile b now p)) := by
  unfold publishFile fileEffect
  cases acceptFile b.roomId now p with
  | error e => exact takesEffect_answer hs b.key (.error e)
  | ok item =>
      cases hf : Payloads.fault? r.files.maxSize p.bytes with
      | some e =>
          simp only [Payloads.put_of_fault hf]
          exact takesEffect_answer hs b.key (.error (.notStored e))
      | none =>
          have hput := Payloads.put_of_sound hf b.key item.id
          simp only [hput]
          let files : Payloads :=
            { r.files with payloads := r.files.payloads.insert (b.key, item.id) p.bytes }
          let stored := { r with files }
          refine h.takesEffect_publish
            { stored with histories := stored.histories.append b.key item none } hs
            ⟨⟨rfl, rfl, rfl⟩, rfl, rfl, rfl⟩ rfl ?_ (.ok .published) [.historyItemAdded item]
          intro key
          rw [kept_append, kept_put hput]
          by_cases hk : b.key = key
          · rw [if_pos hk, if_pos hk, if_pos hk, hk]
          · rw [if_neg hk, if_neg hk, if_neg hk]

/-! ## All calls -/

/-- The answer to a call that is about no room. -/
def strandedRefusal : Request → Refusal
  | .joinRoom .. => .authenticationRequired
  | _ => .notJoined

/-- A call that is about no room is refused, and changes nothing. -/
theorem perform_of_target?_none {r : Relay} {id : SessionId} {s : Session}
    (hs : r.sessions.get? id = some s) {request : Request}
    (ht : target? r.account s request = none) (now : Timestamp) :
    r.perform now id request = (.error (strandedRefusal request), r) := by
  cases request with
  | joinRoom roomId secret =>
      have hgrant := grant_of_none ht secret
      simp only [Relay.perform, hs, join, hgrant]
      rfl
  | _ =>
      have hb : s.binding = none := ht
      simp only [Relay.perform, hs, hb]
      rfl

/-- Every call has its effect on the caller and on the room that it is about,
and on nothing else. -/
theorem Sound.takesEffect_perform {r : Relay} (h : r.Sound) {id : SessionId} {s : Session}
    (hs : r.sessions.get? id = some s) {request : Request} {b : Binding}
    (ht : target? r.account s request = some b) (now : Timestamp) :
    r.TakesEffect id b.key
      (effect r.account r.histories.capacity r.files.maxSize b now request s (r.kept b.key))
      (r.perform now id request) := by
  cases request with
  | joinRoom roomId secret =>
      simp only [Relay.perform, hs]
      exact h.takesEffect_join hs ht secret
  | publishText p =>
      have hb : s.binding = some b := ht
      simp only [Relay.perform, hs, hb]
      exact h.takesEffect_publishText hs b now p
  | publishPointer p =>
      have hb : s.binding = some b := ht
      simp only [Relay.perform, hs, hb]
      exact h.takesEffect_publishPointer hs b p
  | publishFile p =>
      have hb : s.binding = some b := ht
      simp only [Relay.perform, hs, hb]
      exact h.takesEffect_publishFile hs b now p
  | getHistory limit =>
      have hb : s.binding = some b := ht
      simp only [Relay.perform, hs, hb]
      exact takesEffect_answer hs b.key (.ok (.history (r.recentItems b limit)))
  | getHistoryText itemId =>
      have hb : s.binding = some b := ht
      simp only [Relay.perform, hs, hb]
      have htext : r.itemText b itemId = textAnswer itemId (r.kept b.key) := by
        unfold itemText textAnswer Histories.text?
        split
        · rfl
        · rfl
      rw [htext]
      exact takesEffect_answer hs b.key ((textAnswer itemId (r.kept b.key)).map .historyText)

/-- A call changes nothing, or has its effect. -/
theorem Sound.perform_eq_or_takesEffect {r : Relay} (h : r.Sound) (now : Timestamp)
    (id : SessionId) (request : Request) :
    (r.perform now id request).2 = r ∨
      ∃ s b, r.sessions.get? id = some s ∧ target? r.account s request = some b ∧
        r.TakesEffect id b.key
          (effect r.account r.histories.capacity r.files.maxSize b now request s (r.kept b.key))
          (r.perform now id request) := by
  cases hs : r.sessions.get? id with
  | none => exact .inl (congrArg Prod.snd (perform_of_absent hs now request))
  | some s =>
      cases ht : target? r.account s request with
      | none => exact .inl (congrArg Prod.snd (perform_of_target?_none hs ht now))
      | some b => exact .inr ⟨s, b, rfl, ht, h.takesEffect_perform hs ht now⟩

/-- Joining a room changes no more of it than its secret. -/
theorem kept_joinEffect (account : AccountSettings) (b : Binding) (secret : String) (s : Session)
    (k : Kept) : (joinEffect account b secret s k).kept =
      { k with secret := (admission account b secret k.secret).2 } := by
  unfold joinEffect
  cases (admission account b secret k.secret).1 with
  | false => rfl
  | true =>
      cases hb : s.binding with
      | none => rfl
      | some b' =>
          simp only [if_true]
          split <;> rfl

/-! ## Sessions and their queues -/

/-- A call binds its session to the room that it is about, if it changes it at all. -/
theorem session_effect (account : AccountSettings) (capacity maxSize : Nat) (b : Binding)
    (now : Timestamp) (request : Request) (s : Session) (k : Kept) :
    (effect account capacity maxSize b now request s k).session = s ∨
      s.binding = none ∧
        (effect account capacity maxSize b now request s k).session =
          { s with binding := some b } := by
  cases request with
  | joinRoom roomId secret =>
      simp only [effect, joinEffect]
      cases (admission account b secret k.secret).1 with
      | false => exact .inl rfl
      | true =>
          cases hb : s.binding with
          | none => exact .inr ⟨rfl, rfl⟩
          | some b' =>
              by_cases hk : b'.key = b.key
              · simp only [if_true, if_pos hk, true_or]
              · simp only [if_true, if_neg hk, true_or]
  | publishText p =>
      simp only [effect, textEffect]
      cases acceptText now p <;> exact .inl rfl
  | publishPointer p =>
      simp only [effect, pointerEffect]
      cases acceptPointer account b p <;> exact .inl rfl
  | publishFile p =>
      simp only [effect, fileEffect]
      cases acceptFile b.roomId now p with
      | error e => exact .inl rfl
      | ok item =>
          simp only
          cases Payloads.fault? maxSize p.bytes <;> exact .inl rfl
  | getHistory limit => exact .inl rfl
  | getHistoryText itemId => exact .inl rfl

/-- A call leaves of every session all but its binding. -/
theorem Sound.map_session_perform {α : Type} {r : Relay} (h : r.Sound) {f : Session → α}
    (hf : ∀ s b, f { s with binding := some b } = f s) (now : Timestamp) (id id' : SessionId)
    (request : Request) :
    ((r.perform now id request).2.sessions.get? id').map f = (r.sessions.get? id').map f := by
  obtain hsame | ⟨s, b, hs, -, heffect⟩ := h.perform_eq_or_takesEffect now id request
  · rw [hsame]
  · rw [heffect.session]
    by_cases hi : id = id'
    · rw [if_pos hi, ← hi, hs, Option.map_some, Option.map_some]
      obtain hsession | ⟨-, hsession⟩ := session_effect r.account r.histories.capacity
        r.files.maxSize b now request s (r.kept b.key)
      · rw [hsession]
      · rw [hsession, hf]
    · rw [if_neg hi]

/-- Only entering a room brings a greeting, and a session that is bound enters
no other room. -/
theorem greeting_effect {account : AccountSettings} {capacity maxSize : Nat} {b b' : Binding}
    {request : Request} {s : Session} (ht : target? account s request = some b)
    (hb : s.binding = some b') (hk : b'.key ≠ b.key) (now : Timestamp) (k : Kept) :
    (effect account capacity maxSize b now request s k).greeting = [] := by
  cases request with
  | joinRoom roomId secret =>
      simp only [effect, joinEffect, hb, if_neg hk]
      cases (admission account b secret k.secret).1 <;> rfl
  | _ =>
      -- All other calls are about the room that the session is bound to.
      have hbound : s.binding = some b := ht
      rw [hb] at hbound
      exact absurd (congrArg Binding.key (Option.some.inj hbound)) hk

theorem TakesEffect.roomOf? {r : Relay} {id : SessionId} {key : RoomKey} {e : Effect}
    {result : Result Response} (h : r.TakesEffect id key e result) (id' : SessionId) :
    result.2.roomOf? id' = if id = id' then e.session.roomKey? else r.roomOf? id' := by
  rw [Relay.roomOf?, h.session]
  by_cases hi : id = id'
  · rw [if_pos hi, if_pos hi, Option.bind_some]
  · rw [if_neg hi, if_neg hi, Relay.roomOf?]

/-- Every session has a queue. -/
def Queued (r : Relay) : Prop :=
  ∀ id, (r.sessions.get? id).isSome → (r.queues.get? id).isSome

theorem TakesEffect.queued {r : Relay} {id : SessionId} {key : RoomKey} {e : Effect}
    {result : Result Response} (h : r.TakesEffect id key e result) (hq : r.Queued) {s : Session}
    (hs : r.sessions.get? id = some s) : result.2.Queued := by
  intro id' hid
  rw [h.queue, Option.isSome_map]
  rw [h.session] at hid
  by_cases hi : id = id'
  · exact hq id' (by rw [← hi, hs]; rfl)
  · rw [if_neg hi] at hid
    exact hq id' hid

theorem Queued.step {r : Relay} (hq : r.Queued) (h : r.Sound) (a : Action) :
    (r.step a).2.Queued := by
  cases a with
  | connect principal capacity =>
      intro id hid
      simp only [Relay.step, Relay.connect, Table.get?_insert] at hid ⊢
      by_cases hi : r.nextSession = id
      · rw [if_pos hi]
        rfl
      · rw [if_neg hi] at hid ⊢
        exact hq id hid
  | call now id request =>
      simp only [Relay.step]
      cases hs : r.sessions.get? id with
      | none =>
          rw [perform_of_absent hs]
          exact hq
      | some s =>
          cases ht : target? r.account s request with
          | none =>
              rw [perform_of_target?_none hs ht]
              exact hq
          | some b => exact (h.takesEffect_perform hs ht now).queued hq hs
  | read id count =>
      simp only [Relay.step, Relay.read]
      cases r.sessions.get? id with
      | none => exact hq
      | some s =>
          intro id' hid
          simp only [Table.get?_modify]
          split
          · rw [Option.isSome_map]
            exact hq id' hid
          · exact hq id' hid
  | dropQueue id =>
      simp only [Relay.step, Relay.dropQueue]
      cases r.sessions.get? id with
      | none => exact hq
      | some s =>
          intro id' hid
          simp only [Table.get?_modify]
          split
          · rw [Option.isSome_map]
            exact hq id' hid
          · exact hq id' hid
  | disconnect id =>
      simp only [Relay.step, Relay.disconnect]
      cases hs : r.sessions.get? id with
      | none => exact hq
      | some s =>
          intro id' hid
          simp only [Table.get?_insert] at hid
          by_cases hi : id = id'
          · exact hq id' (by rw [← hi, hs]; rfl)
          · rw [if_neg hi] at hid
            exact hq id' hid
  | ask now provider request => exact hq

theorem Reachable.queued {account : AccountSettings} {capacity : Nat} {r : Relay}
    (h : Reachable account capacity r) : r.Queued := by
  induction h with
  | empty => exact fun _ hid => hid
  | step a h ih => exact ih.step h.sound a

/-! ## What rooms keep over a run -/

/-- What holds of a room that keeps nothing, and of what calls make of it, holds
of every room of a reachable relay. -/
theorem Reachable.kept_induction {account : AccountSettings} {capacity : Nat} {P : Kept → Prop}
    (nothing : P ⟨none, none, none, [], fun _ => none, fun _ => none⟩)
    (call : ∀ b now request s k, P k →
      P (effect account (max capacity 1) maxFileSize b now request s k).kept)
    {r : Relay} (h : Reachable account capacity r) (key : RoomKey) : P (r.kept key) := by
  induction h with
  | empty => exact nothing
  | @step r a h ih =>
      cases a with
      | call now id request =>
          simp only [Relay.step]
          obtain hsame | ⟨s, b, -, -, heffect⟩ :=
            h.sound.perform_eq_or_takesEffect now id request
          · rw [hsame]
            exact ih
          · rw [heffect.kept, h.sameSettings.account, h.sameSettings.capacity,
              h.sameSettings.maxSize]
            by_cases hk : b.key = key
            · rw [if_pos hk, hk]
              exact call b now request s _ ih
            · rw [if_neg hk]
              exact ih
      | _ =>
          rw [kept_step_of_not_call r fun _ _ _ heq => by cases heq]
          exact ih

end ClipRelay.Relay
