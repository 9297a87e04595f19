import ClipRelay.Proofs.Relay.FanOut
import ClipRelay.Proofs.Relay.Log

/-!
# ClipRelay.Proofs.Relay.ClaimedHashes

What a device claims about a text that it publishes.

With a text, a device sends a hash, a time and an id for the item, all of its own
making.  None of them decides anything, as long as the id is there: two publishes that
differ in nothing else (`TextPublish.SameText`) are one and the same call to the relay
(`perform_of_sameTexts`).  Two runs that differ in nothing else cannot be told apart by
anybody, and end in the same relay (`run_of_sameTexts`).  So the hash of a text is
everywhere that of its content (`publishText_ignores_claims`).
-/

namespace ClipRelay

/-- Two publishes of one text by one device, whatever they claim about it; both name an
item, or neither does. -/
structure TextPublish.SameText (p p' : TextPublish) : Prop where
  deviceId : p'.deviceId = p.deviceId
  text : p'.text = p.text
  isNil_clientItemId : p'.clientItemId.isNil = p.clientItemId.isNil

/-- Two calls that differ at most in what they claim about a text. -/
inductive Request.SameTexts : Request → Request → Prop where
  | refl (request : Request) : SameTexts request request
  | publishText {p p' : TextPublish} (h : p.SameText p') :
      SameTexts (.publishText p) (.publishText p')

namespace Relay

/-- Two actions that differ at most in what they claim about a text. -/
inductive Action.SameTexts : Action → Action → Prop where
  | refl (a : Action) : SameTexts a a
  | call (now : Timestamp) (id : SessionId) {request request' : Request}
      (h : request.SameTexts request') : SameTexts (.call now id request) (.call now id request')

/-- All that a run brings to light. -/
def observations (r : Relay) : List Action → List Observation
  | [] => []
  | a :: as => (r.step a).1 :: observations (r.step a).2 as

section
variable {r : Relay}

theorem acceptText_of_sameText {p p' : TextPublish} (h : p.SameText p') (now : Timestamp) :
    acceptText now p' = acceptText now p := by
  simp only [acceptText, hashToKeep_eq, h.deviceId, h.text, h.isNil_clientItemId]

/-- What is claimed about a text makes no difference to a call. -/
theorem perform_of_sameTexts {request request' : Request} (h : request.SameTexts request')
    (now : Timestamp) (id : SessionId) :
    r.perform now id request' = r.perform now id request := by
  cases h with
  | refl => rfl
  | publishText h =>
      cases hs : r.sessions.get? id with
      | none => simp only [perform_of_absent hs]
      | some s =>
          cases hb : s.binding with
          | none => simp only [perform, hs, hb]
          | some b => simp only [perform, hs, hb, publishText, acceptText_of_sameText h]

theorem step_of_sameTexts {a a' : Action} (h : a.SameTexts a') : r.step a' = r.step a := by
  cases h with
  | refl => rfl
  | call now id h => simp only [step, perform_of_sameTexts h]

/-- Nor does it to a run: the same comes to light, and the relay is the same in the end. -/
theorem run_of_sameTexts {actions actions' : List Action}
    (h : List.Forall₂ Action.SameTexts actions actions') :
    r.observations actions' = r.observations actions ∧ r.run actions' = r.run actions := by
  induction h generalizing r with
  | nil => exact ⟨rfl, rfl⟩
  | @cons a a' actions actions' hfirst hrest ih =>
      obtain ⟨hobserved, hrun⟩ := ih (r := (r.step a).2)
      have hstep := step_of_sameTexts (r := r) hfirst
      refine ⟨?_, ?_⟩
      · simp only [observations, hstep, hobserved]
      · simp only [run, hstep, hrun]

/-- The stores after a text was published, and what everybody is sent. -/
theorem Sound.perform_of_published_text (h : r.Sound) (hmax : r.files.maxSize = maxFileSize)
    {now : Timestamp} {id : SessionId} {request : Request} {b : Binding} {change : TextChange}
    (hp : r.published? (.call now id request) = some (b.key, .text b.roomId change)) :
    let result := r.perform now id request
    let item := textItem b.roomId change
    result.1 = .ok .published ∧
      result.2.texts = r.texts.insert b.key change ∧
      result.2.histories = r.histories.append b.key item (some change.text) ∧
      result.2.pointers = r.pointers ∧ result.2.files = r.files ∧
      ∀ id', result.2.queueOf id' = (r.queueOf id').map fun q =>
        if r.roomOf? id' = some b.key then q.offers [.textChanged change, .historyItemAdded item]
        else q := by
  intro result item
  have hperform : result = _ := perform_of_published hmax hp
  have hstores := sameStores_broadcastAll (Publication.store r b.key (.text b.roomId change))
    b.key (textNews b.roomId change)
  rw [hperform]
  exact ⟨rfl, hstores.texts, hstores.histories, hstores.pointers, hstores.files,
    h.queueOf_of_published b.key (.text b.roomId change)⟩

end

/-- **The hash that a device claims decides nothing**: let a session that is bound to a
room publish a text, under whatever hash, time and item id.  All publishes of it are
answered alike and leave the same relay behind, with the same waiting for everybody; runs
in which such publishes are put in each other's place show the same to everybody.  If the
device names itself, the text is the latest of the room and the newest item, and the
members are offered just these, with the hash of the content everywhere; if it does not, the
publish is refused and changes nothing. -/
theorem publishText_ignores_claims {account : AccountSettings} {capacity : Nat} {r : Relay}
    (h : Reachable account capacity r) {id : SessionId} {b : Binding}
    (hb : r.bindingOf? id = some b) (now : Timestamp) {p : TextPublish}
    (hitem : p.clientItemId.isNil = false) (hsize : p.text.utf8ByteSize ≤ maxTextSize) :
    let result := r.perform now id (.publishText p)
    (∀ p', p.SameText p' → r.perform now id (.publishText p') = result) ∧
    (∀ actions actions', List.Forall₂ Action.SameTexts actions actions' →
      r.observations actions' = r.observations actions ∧ r.run actions' = r.run actions) ∧
    (p.deviceId.isNil → result = (.error .deviceIdMissing, r)) ∧
    (p.deviceId.isNil = false →
      let hash := textHash p.text
      let change : TextChange := ⟨p.deviceId, now, p.text, hash⟩
      let item := textItem b.roomId change
      result.1 = .ok .published ∧
        result.2.texts = r.texts.insert b.key change ∧
        result.2.histories = r.histories.append b.key item (some p.text) ∧
        result.2.pointers = r.pointers ∧ result.2.files = r.files ∧
        (∀ id', result.2.queueOf id' = (r.queueOf id').map fun q =>
          if r.roomOf? id' = some b.key then q.offers [.textChanged change, .historyItemAdded item]
          else q) ∧
        (result.2.histories.room b.key).items.head? = some item ∧
        item.contentHash = hash ∧ item.id = contentId now p.deviceId hash) := by
  intro result
  refine ⟨fun p' hsame => perform_of_sameTexts (.publishText hsame) now id,
    fun _ _ => run_of_sameTexts, ?_, ?_⟩
  · intro hdevice
    obtain ⟨s, hs, hbound⟩ := Option.bind_eq_some_iff.mp hb
    simp [result, perform, hs, hbound, publishText, acceptText, hdevice, answering, Except.map]
  · intro hdevice hash change item
    have hp : r.published? (.call now id (.publishText p)) = _ :=
      published?_text hb hdevice hitem hsize
    obtain ⟨hanswer, htexts, hhistories, hpointers, hfiles, hqueue⟩ :=
      h.sound.perform_of_published_text h.sameSettings.maxSize hp
    refine ⟨hanswer, htexts, hhistories, hpointers, hfiles, hqueue, ?_, rfl, rfl⟩
    have hroom : r.histories.capacity ≠ 0 := Nat.one_le_iff_ne_zero.mp r.histories.one_le_capacity
    rw [hhistories, Histories.items_append, if_pos rfl, List.head?_take, if_neg hroom,
      List.head?_cons]

/-- A note is published under 32 zero bytes for its hash. -/
theorem publishText_ignores_claims_note :
    let r := (empty { enabled := true } 10).run
      [.connect (some ⟨"ada", none⟩) 8, .call 1 0 (.joinRoom "home" "")]
    let forged := { note with textHash := List.replicate 32 0, clientTime := 7 }
    let result := r.perform 1 0 (.publishText forged)
    result = r.perform 1 0 (.publishText note) ∧
      result.2.texts.get? (.forSubject "ada" "home") = some noteChange := by
  intro r forged result
  have hr : Reachable { enabled := true } 10 r := .run .empty _
  have hb : r.bindingOf? 0 = some ⟨"home", .forSubject "ada" "home"⟩ := rfl
  obtain ⟨hclaims, -, -, hpublished⟩ :=
    publishText_ignores_claims hr hb 1 (p := note) rfl (by decide)
  have hsame : result = r.perform 1 0 (.publishText note) := hclaims forged ⟨rfl, rfl, rfl⟩
  refine ⟨hsame, ?_⟩
  rw [hsame, (hpublished rfl).2.1, Table.get?_insert_self]
  rfl

end Relay

end ClipRelay
