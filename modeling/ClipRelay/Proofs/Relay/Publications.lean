import ClipRelay.Proofs.Relay.Binding
import ClipRelay.Proofs.Relay.Rules

/-!
# ClipRelay.Proofs.Relay.Publications

What is published, and what becomes of it.

A call that is answered `published` puts one `Publication` into the room of its
session: the stores take it in, and its news are broadcast
(`perform_of_published`).  Nothing else writes to the stores (`SameStores`),
secrets apart, or is heard by whole rooms.

`heard` collects the news of a room over a run.  Whatever the stores hold as the
latest of its kind is then the last of that kind that was heard (`latest_run`).
-/

namespace ClipRelay

open Relay

/-! ## One publication -/

theorem eq_ok_of_toOption {ε α : Type} {result : Except ε α} {a : α}
    (h : result.toOption = some a) : result = .ok a := by
  cases result with
  | error e => cases h
  | ok b => exact congrArg Except.ok (Option.some.inj h)

/-- What an accepted publish puts into a room. -/
inductive Publication where
  /-- A text, in a room that its session knows under an id. -/
  | text (roomId : String) (change : TextChange)
  | pointer (pointer : Pointer)
  | file (item : HistoryItem) (bytes : Bytes)

namespace Publication

/-- What a call publishes in the room that its session is bound to. -/
def ofRequest? (account : AccountSettings) (b : Binding) (now : Timestamp) :
    Request → Option Publication
  | .publishText p => (acceptText now p).toOption.map (.text b.roomId)
  | .publishPointer p => (acceptPointer account b p).toOption.map .pointer
  | .publishFile p => (acceptFile b.roomId now p).toOption.map (.file · p.bytes)
  | _ => none

/-- The events that a publication brings, in order. -/
def news : Publication → List Event
  | .text roomId change => textNews roomId change
  | .pointer p => [.pointerChanged p]
  | .file item _ => [.historyItemAdded item]

/-- The relay with a publication in its stores. -/
def store (r : Relay) (key : RoomKey) : Publication → Relay
  | .text roomId change =>
    { r with
      texts := r.texts.insert key change
      histories := r.histories.append key (textItem roomId change) (some change.text) }
  | .pointer p => { r with pointers := r.pointers.insert key p }
  | .file item bytes =>
    { r with
      files := { r.files with payloads := r.files.payloads.insert (key, item.id) bytes }
      histories := r.histories.append key item none }

end Publication

namespace Relay

/-- What an action publishes, and in which room. -/
def published? (r : Relay) : Action → Option (RoomKey × Publication)
  | .call now id request => (r.bindingOf? id).bind fun b =>
    (Publication.ofRequest? r.account b now request).map (b.key, ·)
  | _ => none

/-- What an action that publishes something is: a call of a session in a room. -/
theorem published?_eq_some {r : Relay} {now : Timestamp} {id : SessionId} {request : Request}
    {key : RoomKey} {p : Publication} (h : r.published? (.call now id request) = some (key, p)) :
    ∃ s b, r.sessions.get? id = some s ∧ s.binding = some b ∧ b.key = key ∧
      Publication.ofRequest? r.account b now request = some p := by
  obtain ⟨b, hb, hp⟩ := Option.bind_eq_some_iff.mp h
  obtain ⟨s, hs, hbound⟩ := Option.bind_eq_some_iff.mp hb
  obtain ⟨p', hp', heq⟩ := Option.map_eq_some_iff.mp hp
  cases heq
  exact ⟨s, b, hs, hbound, rfl, hp'⟩

/-- A call that publishes something is answered so; what it publishes is stored,
and then broadcast. -/
theorem perform_of_published {r : Relay} (hmax : r.files.maxSize = maxFileSize) {now : Timestamp}
    {id : SessionId} {request : Request} {key : RoomKey} {p : Publication}
    (h : r.published? (.call now id request) = some (key, p)) :
    r.perform now id request = (.ok .published, (p.store r key).broadcastAll key p.news) := by
  obtain ⟨s, b, hs, hb, rfl, hp⟩ := published?_eq_some h
  cases request with
  | publishText q =>
      obtain ⟨change, hchange, rfl⟩ := Option.map_eq_some_iff.mp hp
      simp only [perform, hs, hb, publishText, eq_ok_of_toOption hchange]
      rfl
  | publishPointer q =>
      obtain ⟨pointer, hpointer, rfl⟩ := Option.map_eq_some_iff.mp hp
      simp only [perform, hs, hb, publishPointer, eq_ok_of_toOption hpointer]
      rfl
  | publishFile q =>
      obtain ⟨item, hitem, rfl⟩ := Option.map_eq_some_iff.mp hp
      have haccept := eq_ok_of_toOption hitem
      have hsound : Payloads.fault? r.files.maxSize q.bytes = none := by
        rw [hmax]
        exact fault?_of_acceptFile haccept
      simp only [perform, hs, hb, publishFile, haccept, Payloads.put_of_sound hsound]
      rfl
  | _ => cases hp

/-- A text that the relay takes is published from wherever there is a room. -/
theorem published?_text {r : Relay} {id : SessionId} {b : Binding} (hb : r.bindingOf? id = some b)
    {now : Timestamp} {p : TextPublish} (hdevice : p.deviceId.isNil = false)
    (hitem : p.clientItemId.isNil = false) (hsize : p.text.utf8ByteSize ≤ maxTextSize) :
    r.published? (.call now id (.publishText p)) =
      some (b.key, .text b.roomId ⟨p.deviceId, now, p.text, textHash p.text⟩) := by
  have haccept : acceptText now p = .ok ⟨p.deviceId, now, p.text, textHash p.text⟩ := by
    simp only [acceptText, hdevice, hitem, Nat.not_lt.mpr hsize, Bool.false_eq_true, if_false,
      hashToKeep_eq]
  simp only [published?, hb, Publication.ofRequest?, haccept, Except.toOption, Option.bind_some,
    Option.map_some]

/-! ## What leaves the stores alone -/

/-- Two relays with the same in the stores, secrets apart. -/
structure SameStores (r r' : Relay) : Prop where
  texts : r'.texts = r.texts
  pointers : r'.pointers = r.pointers
  histories : r'.histories = r.histories
  files : r'.files = r.files

theorem SameStores.refl (r : Relay) : r.SameStores r := ⟨rfl, rfl, rfl, rfl⟩

theorem SameStores.trans {r₁ r₂ r₃ : Relay} (h : r₁.SameStores r₂) (h' : r₂.SameStores r₃) :
    r₁.SameStores r₃ :=
  ⟨h'.texts.trans h.texts, h'.pointers.trans h.pointers, h'.histories.trans h.histories,
    h'.files.trans h.files⟩

theorem sameStores_broadcastAll (r : Relay) (key : RoomKey) (events : List Event) :
    r.SameStores (r.broadcastAll key events) := by
  induction events generalizing r with
  | nil => exact .refl r
  | cons e events ih =>
      have hfirst : r.SameStores (r.broadcast key e) := ⟨rfl, rfl, rfl, rfl⟩
      exact hfirst.trans (ih (r.broadcast key e))

theorem sameStores_enter (r : Relay) (id : SessionId) (s : Session) (key : RoomKey) :
    r.SameStores (r.enter id s key) := by
  unfold enter
  cases s.closed with
  | true => exact ⟨rfl, rfl, rfl, rfl⟩
  | false =>
      simp only [Bool.false_eq_true, if_false, converge_eq]
      exact ⟨rfl, rfl, rfl, rfl⟩

theorem sameStores_join (r : Relay) (id : SessionId) (s : Session) (roomId secret : String) :
    r.SameStores (r.join id s roomId secret).2 := by
  refine join_cases r id s roomId secret (motive := fun result => r.SameStores result.2)
    ?_ ?_ ?_ ?_
  · intro e secrets _
    exact ⟨rfl, rfl, rfl, rfl⟩
  · intro wanted secrets b _ _ _
    exact ⟨rfl, rfl, rfl, rfl⟩
  · intro wanted secrets b _ _ _
    have hsecrets : r.SameStores { r with secrets } := ⟨rfl, rfl, rfl, rfl⟩
    exact hsecrets.trans (sameStores_enter _ id s wanted.key)
  · intro wanted secrets _ _
    have hbound : r.SameStores ({ r with secrets }.bind id s wanted) := ⟨rfl, rfl, rfl, rfl⟩
    exact hbound.trans (sameStores_enter _ id _ wanted.key)

/-- A call that publishes nothing is not answered so, and leaves the stores alone. -/
theorem perform_of_not_published {r : Relay} {now : Timestamp} {id : SessionId} {request : Request}
    (h : r.published? (.call now id request) = none) :
    (r.perform now id request).1 ≠ .ok .published ∧
      r.SameStores (r.perform now id request).2 := by
  cases hs : r.sessions.get? id with
  | none => simp [perform_of_absent hs, SameStores.refl]
  | some s =>
      have hpublished (request : Request) : r.published? (.call now id request) =
          s.binding.bind fun b =>
            (Publication.ofRequest? r.account b now request).map (b.key, ·) := by
        simp [published?, bindingOf?, hs]
      revert h
      refine perform_cases hs (motive := fun request result =>
        r.published? (.call now id request) = none →
          result.1 ≠ .ok .published ∧ r.SameStores result.2) ?_ ?_ ?_ ?_ ?_ ?_ ?_ request
      · intro roomId secret _
        have hanswer : (answering .joined (r.join id s roomId secret)).1 ≠ .ok .published := by
          cases hjoin : (r.join id s roomId secret).1 <;> simp [answering, Except.map, hjoin]
        exact ⟨hanswer, sameStores_join r id s roomId secret⟩
      · intro request _ _ _
        simp [SameStores.refl]
      · intro b p hb hnone
        cases haccept : acceptText now p with
        | error e => simp [answering, publishText, haccept, Except.map, SameStores.refl]
        | ok change =>
            simp [hpublished, hb, Publication.ofRequest?, haccept, Except.toOption] at hnone
      · intro b p hb hnone
        cases haccept : acceptPointer r.account b p with
        | error e => simp [answering, publishPointer, haccept, Except.map, SameStores.refl]
        | ok p' =>
            simp [hpublished, hb, Publication.ofRequest?, haccept, Except.toOption] at hnone
      · intro b p hb hnone
        cases haccept : acceptFile b.roomId now p with
        | error e => simp [answering, publishFile, haccept, Except.map, SameStores.refl]
        | ok item =>
            simp [hpublished, hb, Publication.ofRequest?, haccept, Except.toOption] at hnone
      · intro b limit _ _
        simp [SameStores.refl]
      · intro b itemId _ _
        have hanswer : (r.itemText b itemId).map Response.historyText ≠ .ok .published := by
          cases r.itemText b itemId <;> simp [Except.map]
        exact ⟨hanswer, .refl r⟩

/-- The calls that are answered `published` are those that publish something; what
they publish is stored, and then broadcast. -/
theorem perform_eq_published_iff {r : Relay} (hmax : r.files.maxSize = maxFileSize)
    {now : Timestamp} {id : SessionId} {request : Request} :
    (r.perform now id request).1 = .ok .published ↔
      ∃ key p, r.published? (.call now id request) = some (key, p) ∧
        r.perform now id request = (.ok .published, (p.store r key).broadcastAll key p.news) := by
  constructor
  · intro hanswer
    cases hp : r.published? (.call now id request) with
    | none => exact absurd hanswer (perform_of_not_published hp).1
    | some keyed => exact ⟨keyed.1, keyed.2, rfl, perform_of_published hmax hp⟩
  · rintro ⟨key, p, -, hperform⟩
    rw [hperform]

/-! ## Whole runs -/

/-- The relay with whatever an action publishes in its stores. -/
def stored (r : Relay) (a : Action) : Relay :=
  match r.published? a with
  | some (key, p) => p.store r key
  | none => r

/-- An action makes of the stores what its publication does. -/
theorem sameStores_step {r : Relay} (hmax : r.files.maxSize = maxFileSize) (a : Action) :
    (r.stored a).SameStores (r.step a).2 := by
  cases a with
  | call now id request =>
      cases hp : r.published? (.call now id request) with
      | none => simpa [stored, hp, step] using (perform_of_not_published hp).2
      | some keyed =>
          obtain ⟨key, p⟩ := keyed
          simp only [stored, hp, step, perform_of_published hmax hp]
          exact sameStores_broadcastAll (p.store r key) key p.news
  | connect principal capacity => exact ⟨rfl, rfl, rfl, rfl⟩
  | read id count =>
      simp only [stored, published?, step, read]
      cases r.sessions.get? id <;> exact ⟨rfl, rfl, rfl, rfl⟩
  | dropQueue id =>
      simp only [stored, published?, step, dropQueue]
      cases r.sessions.get? id <;> exact ⟨rfl, rfl, rfl, rfl⟩
  | disconnect id =>
      simp only [stored, published?, step, disconnect]
      cases r.sessions.get? id <;> exact ⟨rfl, rfl, rfl, rfl⟩
  | ask now provider request => exact ⟨rfl, rfl, rfl, rfl⟩

/-- The news that an action brings to a room. -/
def newsOf (r : Relay) (key : RoomKey) (a : Action) : List Event :=
  match r.published? a with
  | some (key', p) => if key' = key then p.news else []
  | none => []

/-- All that is broadcast in a room over a run, in order. -/
def heard (key : RoomKey) (r : Relay) : List Action → List Event
  | [] => []
  | a :: as => r.newsOf key a ++ heard key (r.step a).2 as

section
variable {α : Type} {key : RoomKey} (latest : Relay → Option α) (kind : Event → Option α)
  (hsame : ∀ r r' : Relay, r.SameStores r' → latest r' = latest r)
  (hstore : ∀ (r : Relay) (key' : RoomKey) (p : Publication), latest (p.store r key') =
    ((if key' = key then p.news else []).filterMap kind).getLast?.or (latest r))
include hsame hstore

/-- Where storing a publication makes the last of its news of a kind the latest,
so does an action. -/
theorem latest_step {r : Relay} (hmax : r.files.maxSize = maxFileSize) (a : Action) :
    latest (r.step a).2 = ((r.newsOf key a).filterMap kind).getLast?.or (latest r) := by
  rw [hsame _ _ (sameStores_step hmax a), stored, newsOf]
  cases r.published? a with
  | none => simp
  | some keyed => exact hstore r keyed.1 keyed.2

/-- Then what a relay holds as the latest of the kind after a run is the last
that was heard. -/
theorem latest_run {r : Relay} (hmax : r.files.maxSize = maxFileSize) (actions : List Action) :
    latest (r.run actions) = ((r.heard key actions).filterMap kind).getLast?.or (latest r) := by
  induction actions generalizing r with
  | nil => simp [run, heard]
  | cons a actions ih =>
      have hmax' : (r.step a).2.files.maxSize = maxFileSize :=
        (sameSettings_step r a).maxSize.trans hmax
      have hrun : r.run (a :: actions) = (r.step a).2.run actions := rfl
      rw [hrun, ih hmax', latest_step latest kind hsame hstore hmax a, heard,
        List.filterMap_append, List.getLast?_append, Option.or_assoc]

end

/-! ## The latest text and pointer -/

/-- The text that an event says a room now holds. -/
def textOf? : Event → Option TextChange
  | .textChanged change => some change
  | _ => none

/-- The pointer that an event says a room now holds. -/
def pointerOf? : Event → Option Pointer
  | .pointerChanged p => some p
  | _ => none

theorem latestText_store (r : Relay) (key key' : RoomKey) (p : Publication) :
    (p.store r key').texts.get? key =
      ((if key' = key then p.news else []).filterMap textOf?).getLast?.or (r.texts.get? key) := by
  by_cases hk : key' = key <;>
    cases p <;> simp [Publication.store, Publication.news, textNews, textOf?,
      List.filterMap_cons, Table.get?_insert, hk]

theorem latestPointer_store (r : Relay) (key key' : RoomKey) (p : Publication) :
    (p.store r key').pointers.get? key =
      ((if key' = key then p.news else []).filterMap pointerOf?).getLast?.or
        (r.pointers.get? key) := by
  by_cases hk : key' = key <;>
    cases p <;> simp [Publication.store, Publication.news, textNews, pointerOf?,
      List.filterMap_cons, Table.get?_insert, hk]

/-- After a run from the empty relay, the latest text of a room is the last that
was heard in it. -/
theorem latestText_run (account : AccountSettings) (capacity : Nat) (actions : List Action)
    (key : RoomKey) : ((empty account capacity).run actions).texts.get? key =
      (((empty account capacity).heard key actions).filterMap textOf?).getLast? := by
  have hrun := latest_run (fun r => r.texts.get? key) textOf?
    (fun _ _ h => by rw [h.texts]) (fun r => latestText_store r key)
    (show (empty account capacity).files.maxSize = maxFileSize from rfl) actions
  exact hrun.trans (Option.or_none ..)

/-- After a run from the empty relay, the latest pointer of a room is the last
that was heard in it. -/
theorem latestPointer_run (account : AccountSettings) (capacity : Nat) (actions : List Action)
    (key : RoomKey) : ((empty account capacity).run actions).pointers.get? key =
      (((empty account capacity).heard key actions).filterMap pointerOf?).getLast? := by
  have hrun := latest_run (fun r => r.pointers.get? key) pointerOf?
    (fun _ _ h => by rw [h.pointers]) (fun r => latestPointer_store r key)
    (show (empty account capacity).files.maxSize = maxFileSize from rfl) actions
  exact hrun.trans (Option.or_none ..)

end Relay

end ClipRelay
