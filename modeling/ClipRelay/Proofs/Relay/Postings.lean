import ClipRelay.Proofs.Relay.Anonymous

/-!
# ClipRelay.Proofs.Relay.Postings

What was posted in a run, and what the relay keeps of it.

A `Posting` is a publish that was accepted: what it put into which room, and who
sent it.  `postings` lists those of a run in order.  All that a room keeps, its
secret apart, is a view of them: the latest of a kind is the last that was posted
(`latest_posted`), and the items are the newest that were (`items_posted`).

The room of a posting is one that its author was granted (`Granted`), so that the
room id which the posting carries names the room that it is kept in
(`names_of_mem_postings`).
-/

namespace ClipRelay

open Relay

/-- A publish that was accepted. -/
structure Posting where
  /-- Who the session belonged to that sent it. -/
  author : Option Principal
  key : RoomKey
  publication : Publication

/-- A room id names the room of a posting: it is the key itself or, in account mode,
with the subject of the author before it. -/
def Posting.Names (account : AccountSettings) (post : Posting) (roomId : String) : Prop :=
  if account.enabled then
    ∃ p, post.author = some p ∧ post.key = .forSubject p.subject roomId
  else post.key = .shared roomId

namespace Publication

/-- The room id that a publication carries. -/
def roomId : Publication → String
  | .text roomId _ => roomId
  | .pointer p => p.roomId
  | .file item _ => item.roomId

/-- The text that a publication leaves on the clipboard. -/
def text? : Publication → Option TextChange
  | .text _ change => some change
  | _ => none

/-- The pointer that a publication leaves on the clipboard. -/
def pointer? : Publication → Option Pointer
  | .pointer p => some p
  | _ => none

/-- The item that a publication adds to the history of its room. -/
def item? : Publication → Option HistoryItem
  | .text roomId change => some (textItem roomId change)
  | .pointer _ => none
  | .file item _ => some item

/-- The bytes that a publication stores under an item id. -/
def payload? (itemId : String) : Publication → Option Bytes
  | .file item bytes => if item.id = itemId then some bytes else none
  | _ => none

theorem text?_eq_some_iff {p : Publication} {change : TextChange} :
    p.text? = some change ↔ ∃ roomId, p = .text roomId change := by
  cases p <;> simp [text?]

theorem pointer?_eq_some_iff {p : Publication} {pointer : Pointer} :
    p.pointer? = some pointer ↔ p = .pointer pointer := by
  cases p <;> simp [pointer?]

theorem payload?_eq_some_iff {p : Publication} {itemId : String} {bytes : Bytes} :
    p.payload? itemId = some bytes ↔ ∃ item, p = .file item bytes ∧ item.id = itemId := by
  cases p with
  | file item bytes' => by_cases hid : item.id = itemId <;> simp [payload?, hid]
  | _ => simp [payload?]

theorem roomId_of_item? {p : Publication} {i : HistoryItem} (h : p.item? = some i) :
    p.roomId = i.roomId := by
  cases p <;> cases h <;> rfl

theorem map_item_addition? (key : RoomKey) (p : Publication) :
    (p.addition? key).map (·.item) = p.item? := by
  cases p <;> rfl

/-- What is published carries the id of the room that its session knows. -/
theorem roomId_of_ofRequest? {account : AccountSettings} {b : Binding} {now : Timestamp}
    {request : Request} {p : Publication} (h : ofRequest? account b now request = some p) :
    p.roomId = b.roomId := by
  cases request with
  | publishText q =>
      obtain ⟨change, -, rfl⟩ := Option.map_eq_some_iff.mp h
      rfl
  | publishPointer q =>
      obtain ⟨pointer, hpointer, rfl⟩ := Option.map_eq_some_iff.mp h
      have haccept := eq_ok_of_toOption hpointer
      simp only [acceptPointer] at haccept
      repeat' split at haccept
      · contradiction
      · contradiction
      · rw [← Except.ok.inj haccept]
        rfl
  | publishFile q =>
      obtain ⟨item, hitem, rfl⟩ := Option.map_eq_some_iff.mp h
      have haccept := eq_ok_of_toOption hitem
      simp only [acceptFile] at haccept
      repeat' split at haccept
      · contradiction
      · contradiction
      · contradiction
      · rw [← Except.ok.inj haccept]
        rfl
  | _ => cases h

end Publication

namespace Relay

/-! ## The postings of a run -/

/-- What an action posts: a call of a session in a room does if it is answered
`published`. -/
def posting? (r : Relay) : Action → Option Posting
  | .call now id request =>
    match (r.perform now id request).1 with
    | .ok .published =>
      (r.sessions.get? id).bind fun s => s.binding.bind fun b =>
        (Publication.ofRequest? r.account b now request).map (⟨s.principal, b.key, ·⟩)
    | _ => none
  | _ => none

/-- What is posted in a run, in order. -/
def postings (r : Relay) : List Action → List Posting
  | [] => []
  | a :: as => (r.posting? a).toList ++ postings (r.step a).2 as

/-- What is posted in one room over a run, in order. -/
def publications (key : RoomKey) (r : Relay) (actions : List Action) : List Publication :=
  ((r.postings actions).filter fun post => post.key = key).map (·.publication)

section
variable {r : Relay} {key : RoomKey} {actions : List Action}

theorem mem_publications {p : Publication} :
    p ∈ r.publications key actions ↔
      ∃ post ∈ r.postings actions, post.key = key ∧ post.publication = p := by
  simp [publications, and_assoc]

/-- What a room keeps of a kind was posted there. -/
theorem exists_posting_of_mem {α : Type} {kind : Publication → Option α} {x : α}
    (h : x ∈ (r.publications key actions).filterMap kind) :
    ∃ post ∈ r.postings actions, post.key = key ∧ kind post.publication = some x := by
  obtain ⟨p, hp, hkind⟩ := List.mem_filterMap.mp h
  obtain ⟨post, hpost, hkey, rfl⟩ := mem_publications.mp hp
  exact ⟨post, hpost, hkey, hkind⟩

/-- Who posts something is in a room, and is answered so. -/
theorem exists_of_posting? {a : Action} {post : Posting} (h : r.posting? a = some post) :
    ∃ now id request s b, a = .call now id request ∧ r.sessions.get? id = some s ∧
      s.binding = some b ∧ s.principal = post.author ∧ b.key = post.key ∧
      Publication.ofRequest? r.account b now request = some post.publication ∧
      (r.perform now id request).1 = .ok .published := by
  cases a with
  | call now id request =>
      simp only [posting?] at h
      split at h
      · next hanswer =>
        obtain ⟨s, hs, h⟩ := Option.bind_eq_some_iff.mp h
        obtain ⟨b, hb, h⟩ := Option.bind_eq_some_iff.mp h
        obtain ⟨p, hp, rfl⟩ := Option.map_eq_some_iff.mp h
        exact ⟨now, id, request, s, b, rfl, hs, hb, rfl, rfl, hp, hanswer⟩
      · contradiction
  | _ => cases h

/-- What an action posts is what it publishes. -/
theorem map_posting? (hmax : r.files.maxSize = maxFileSize) (a : Action) :
    (r.posting? a).map (fun post => (post.key, post.publication)) = r.published? a := by
  cases a with
  | call now id request =>
      cases hp : r.published? (.call now id request) with
      | none =>
          have hanswer := (perform_of_not_published hp).1
          simp only [posting?, Option.map_none]
      | some keyed =>
          obtain ⟨s, b, hs, hb, hkey, hrequest⟩ := published?_eq_some hp
          simp only [posting?, perform_of_published hmax hp, hs, hb, hrequest, hkey,
            Option.bind_some, Option.map_some]
  | _ => rfl

/-- Whatever is posted in a run is posted by one of its actions. -/
theorem exists_action_of_mem_postings {post : Posting} (h : post ∈ r.postings actions) :
    ∃ before a after, actions = before ++ a :: after ∧ (r.run before).posting? a = some post := by
  induction actions generalizing r with
  | nil => cases h
  | cons a actions ih =>
      obtain hnow | hlater := List.mem_append.mp h
      · exact ⟨[], a, actions, rfl, Option.mem_toList.mp hnow⟩
      · obtain ⟨before, a', after, rfl, hposting⟩ := ih hlater
        exact ⟨a :: before, a', after, rfl, hposting⟩

/-- Whatever is posted in a run is posted on a relay that the run passes through. -/
theorem Reachable.exists_of_mem_postings {account : AccountSettings} {capacity : Nat}
    (h : Reachable account capacity r) {post : Posting} (hpost : post ∈ r.postings actions) :
    ∃ r' a, Reachable account capacity r' ∧ r'.posting? a = some post := by
  obtain ⟨before, a, -, -, hposting⟩ := exists_action_of_mem_postings hpost
  exact ⟨r.run before, a, h.run before, hposting⟩

/-! ## What a room keeps -/

/-- What an action publishes in a room. -/
def publishedIn? (r : Relay) (key : RoomKey) (a : Action) : Option Publication :=
  (r.published? a).bind fun keyed => if keyed.1 = key then some keyed.2 else none

theorem publications_cons (hmax : r.files.maxSize = maxFileSize) (a : Action) :
    r.publications key (a :: actions) =
      (r.publishedIn? key a).toList ++ (r.step a).2.publications key actions := by
  rw [publications, postings, List.filter_append, List.map_append, publishedIn?,
    ← map_posting? hmax]
  refine congrArg (· ++ _) ?_
  cases r.posting? a with
  | none => rfl
  | some post => by_cases hk : post.key = key <;> simp [hk]

section
variable {α : Type} (key) (latest : Relay → Option α) (kind : Publication → Option α)
  (hsame : ∀ r r' : Relay, r.SameStores r' → latest r' = latest r)
  (hstore : ∀ (r : Relay) (key' : RoomKey) (p : Publication), latest (p.store r key') =
    (if key' = key then kind p else none).or (latest r))
include hsame hstore

/-- Where storing a publication makes it the latest of a kind in its room, what a
relay holds as the latest after a run is the last that was posted. -/
theorem latest_posted (hmax : r.files.maxSize = maxFileSize) (actions : List Action) :
    latest (r.run actions) =
      ((r.publications key actions).filterMap kind).getLast?.or (latest r) := by
  induction actions generalizing r with
  | nil => simp [run, publications, postings]
  | cons a actions ih =>
      have hmax' : (r.step a).2.files.maxSize = maxFileSize :=
        (sameSettings_step r a).maxSize.trans hmax
      have hstep : latest (r.step a).2 =
          ((r.publishedIn? key a).toList.filterMap kind).getLast?.or (latest r) := by
        rw [hsame _ _ (sameStores_step hmax a), stored, publishedIn?]
        cases r.published? a with
        | none => simp
        | some keyed =>
            obtain ⟨key', p⟩ := keyed
            by_cases hk : key' = key
            · cases hkind : kind p <;> simp [hstore, hk, hkind]
            · simp [hstore, hk]
      have hrun : r.run (a :: actions) = (r.step a).2.run actions := rfl
      rw [hrun, ih hmax', hstep, publications_cons hmax, List.filterMap_append,
        List.getLast?_append, Option.or_assoc]

end

/-- What is added to a room is what was posted there. -/
theorem additionsTo_additions (hmax : r.files.maxSize = maxFileSize) (actions : List Action) :
    Histories.additionsTo key (r.additions actions) =
      ((r.publications key actions).filterMap (·.addition? key)).reverse := by
  induction actions generalizing r with
  | nil => rfl
  | cons a actions ih =>
      have hmax' : (r.step a).2.files.maxSize = maxFileSize :=
        (sameSettings_step r a).maxSize.trans hmax
      have hstep : (r.added a).filter (fun x => x.key = key) =
          (r.publishedIn? key a).toList.filterMap (·.addition? key) := by
        rw [added, publishedIn?]
        cases r.published? a with
        | none => rfl
        | some keyed =>
            obtain ⟨key', p⟩ := keyed
            by_cases hk : key' = key <;> cases p <;> simp [Publication.addition?, hk]
      have hlater := ih hmax'
      rw [Histories.additionsTo, List.reverse_inj] at hlater ⊢
      rw [additions, List.filter_append, hlater, hstep, publications_cons hmax,
        List.filterMap_append]

end

section
variable (account : AccountSettings) (capacity : Nat) (actions : List Action) (key : RoomKey)

theorem text_posted : ((empty account capacity).run actions).texts.get? key =
    (((empty account capacity).publications key actions).filterMap Publication.text?).getLast? := by
  have hlatest := latest_posted (r := empty account capacity) key
    (fun r => r.texts.get? key) Publication.text? (fun _ _ h => by rw [h.texts])
    (fun r key' p => by
      by_cases hk : key' = key <;>
        cases p <;> simp [Publication.store, Publication.text?, Table.get?_insert, hk])
    rfl actions
  exact hlatest.trans (Option.or_none ..)

theorem pointer_posted : ((empty account capacity).run actions).pointers.get? key =
    (((empty account capacity).publications key actions).filterMap
      Publication.pointer?).getLast? := by
  have hlatest := latest_posted (r := empty account capacity) key
    (fun r => r.pointers.get? key) Publication.pointer? (fun _ _ h => by rw [h.pointers])
    (fun r key' p => by
      by_cases hk : key' = key <;>
        cases p <;> simp [Publication.store, Publication.pointer?, Table.get?_insert, hk])
    rfl actions
  exact hlatest.trans (Option.or_none ..)

theorem payload_posted (itemId : String) :
    ((empty account capacity).run actions).files.get? key itemId =
      (((empty account capacity).publications key actions).filterMap
        (Publication.payload? itemId)).getLast? := by
  have hlatest := latest_posted (r := empty account capacity) key
    (fun r => r.files.get? key itemId) (Publication.payload? itemId)
    (fun _ _ h => by rw [h.files])
    (fun r key' p => by
      cases p with
      | file item bytes =>
          by_cases hk : key' = key <;> by_cases hid : item.id = itemId <;>
            simp [Publication.store, Publication.payload?, Payloads.get?, Table.get?_insert, hk,
              hid]
      | _ => simp [Publication.store, Publication.payload?])
    rfl actions
  exact hlatest.trans (Option.or_none ..)

/-- The items of a room are the newest that were posted there, as many as fit. -/
theorem items_posted : (((empty account capacity).run actions).histories.room key).items =
    (((empty account capacity).publications key actions).filterMap
      Publication.item?).reverse.take (max capacity 1) := by
  have hitem : (fun p : Publication => (p.addition? key).map (·.item)) = Publication.item? :=
    funext (Publication.map_item_addition? key)
  rw [(reflects_run account capacity actions key).items, additionsTo_additions rfl,
    List.map_take, List.map_reverse, List.map_filterMap, hitem]

end

/-! ## Whose rooms these are -/

/-- Every session that is bound to a room could ask for that room. -/
def Granted (r : Relay) : Prop :=
  ∀ id s b, r.sessions.get? id = some s → s.binding = some b →
    ∃ roomId, wanted? r.account s roomId = some b

theorem Granted.perform {r : Relay} (hr : r.Granted) (h : r.Sound) (now : Timestamp)
    (id : SessionId) (request : Request) : (r.perform now id request).2.Granted := by
  obtain hsame | ⟨s, b, hs, ht, heffect⟩ := h.perform_eq_or_takesEffect now id request
  · rw [hsame]
    exact hr
  · intro id' s' b' hs' hb'
    rw [heffect.account]
    rw [heffect.session] at hs'
    by_cases hi : id = id'
    · rw [if_pos hi, Option.some.injEq] at hs'
      obtain hsession | ⟨hnone, hbound⟩ := session_effect r.account r.histories.capacity
        r.files.maxSize b now request s (r.kept b.key)
      · rw [← hs', hsession] at hb' ⊢
        exact hr id s b' hs hb'
      · -- Only a join is about a room that its session is not in.
        rw [← hs', hbound] at hb' ⊢
        cases hb'
        cases request with
        | joinRoom roomId secret => exact ⟨roomId, ht⟩
        | _ => exact absurd (hnone.symm.trans ht) (by simp)
    · rw [if_neg hi] at hs'
      exact hr id' s' b' hs' hb'

theorem Granted.step {r : Relay} (hr : r.Granted) (h : r.Sound) (a : Action) :
    (r.step a).2.Granted := by
  cases a with
  | call now id request => exact hr.perform h now id request
  | _ =>
      intro id s b hs hb
      have hbound := (bindingOf?_of_session hs).trans hb
      rw [h.bindingOf?_step_of_not_call fun _ _ _ heq => by cases heq] at hbound
      obtain ⟨s', hs', hb'⟩ := Option.bind_eq_some_iff.mp hbound
      obtain ⟨s'', hs'', hprincipal⟩ := h.principal_step hs' _
      rw [hs, Option.some.injEq] at hs''
      obtain ⟨roomId, hwanted⟩ := hr id s' b hs' hb'
      refine ⟨roomId, ?_⟩
      rw [← hwanted, wanted?, wanted?, (sameSettings_step r _).account, hs'', hprincipal]

theorem Reachable.granted {account : AccountSettings} {capacity : Nat} {r : Relay}
    (h : Reachable account capacity r) : r.Granted := by
  induction h with
  | empty =>
      intro id s b hs
      contradiction
  | step a h ih => exact ih.step h.sound a

/-- What is posted carries a room id that names the room it is kept in. -/
theorem names_of_mem_postings {account : AccountSettings} {capacity : Nat}
    {actions : List Action} {post : Posting}
    (h : post ∈ (empty account capacity).postings actions) :
    post.Names account post.publication.roomId := by
  have hempty : Reachable account capacity (empty account capacity) := .empty
  obtain ⟨r, a, hr, hposting⟩ := hempty.exists_of_mem_postings h
  obtain ⟨now, id, request, s, b, -, hs, hb, hauthor, hkey, hrequest, -⟩ :=
    exists_of_posting? hposting
  obtain ⟨roomId, hwanted⟩ := hr.granted id s b hs hb
  have haccount : r.account = account := hr.sameSettings.account
  rw [haccount, wanted?] at hwanted
  rw [Posting.Names, Publication.roomId_of_ofRequest? hrequest, ← hauthor, ← hkey]
  by_cases he : account.enabled
  · rw [if_pos he] at hwanted ⊢
    obtain ⟨p, hp, rfl⟩ := Option.map_eq_some_iff.mp hwanted
    exact ⟨p, hp, rfl⟩
  · rw [if_neg he] at hwanted ⊢
    cases hwanted
    rfl

end Relay

end ClipRelay
