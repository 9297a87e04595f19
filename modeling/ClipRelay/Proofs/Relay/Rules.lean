import ClipRelay.Proofs.Relay.Admission
import ClipRelay.Proofs.Relay.ItemTexts

/-!
# ClipRelay.Proofs.Relay.Rules

Which calls about a room are refused, and that nothing comes of them.

`Breaks` lists the rules for calls other than joins, each with the refusal that
breaking it earns.  A call is refused for a rule that it breaks, and for no other
reason (`finds_effect`), and a refused call leaves the relay as it was
(`perform_of_error`).  The one rule that depends on the room, that an item has a
text, comes down to the items in its history (`Reachable.filed`).
-/

namespace ClipRelay

/-! ## The rules -/

/-- What is wrong with a pointer. -/
inductive Pointer.Has (p : Pointer) : PointerFault → Prop where
  | originMissing : p.origin.isNil → p.Has .originMissing
  | timeNotPositive : p.time ≤ 0 → p.Has .timeNotPositive
  | objectKeyMissing : Text.isBlank p.objectKey → p.Has .objectKeyMissing
  | hashLength : p.contentHash.length ≠ 32 → p.Has .hashLength
  | sizeNegative : p.sizeBytes < 0 → p.Has .sizeNegative
  | contentTypeMissing : Text.isBlank p.contentType → p.Has .contentTypeMissing

namespace Relay

/-- The rules that a call about a room may break. -/
inductive Breaks (account : AccountSettings) (b : Binding) (k : Kept) :
    Request → Refusal → Prop where
  | textDevice {p : TextPublish} :
      p.deviceId.isNil → Breaks account b k (.publishText p) .deviceIdMissing
  | textItem {p : TextPublish} :
      p.clientItemId.isNil → Breaks account b k (.publishText p) .clientItemIdMissing
  | textSize {p : TextPublish} :
      262144 < p.text.utf8ByteSize → Breaks account b k (.publishText p) .textTooLong
  | pointerRoom {p : Pointer} : account.enabled = false → p.roomId ≠ b.roomId →
      Breaks account b k (.publishPointer p) .pointerRoomMismatch
  | pointerField {p : Pointer} {fault : PointerFault} :
      p.Has fault → Breaks account b k (.publishPointer p) (.pointer fault)
  | fileDevice {p : FilePublish} :
      p.deviceId.isNil → Breaks account b k (.publishFile p) .deviceIdMissing
  | fileEmpty {p : FilePublish} : p.bytes = [] → Breaks account b k (.publishFile p) .bytesMissing
  | fileSize {p : FilePublish} :
      10485760 < p.bytes.length → Breaks account b k (.publishFile p) .fileTooLong
  | itemBlank {itemId : String} :
      Text.isBlank itemId → Breaks account b k (.getHistoryText itemId) .itemIdMissing
  | itemUnknown {itemId : String} : k.itemTexts itemId = none →
      Breaks account b k (.getHistoryText itemId) (.itemNotFound itemId)

/-! ## Chains of checks -/

/-- What is found is broken, and nothing is broken if nothing is found. -/
def Finds {α : Type} (broken : α → Prop) : Option α → Prop
  | some e => broken e
  | none => ∀ e, ¬broken e

theorem Finds.check {α : Type} {broken : α → Prop} {c : Prop} [Decidable c] {e : α}
    {rest : Option α} (hfirst : c → broken e) (hrest : ¬c → Finds broken rest) :
    Finds broken (if c then some e else rest) := by
  by_cases hc : c
  · rw [if_pos hc]
    exact hfirst hc
  · rw [if_neg hc]
    exact hrest hc

/-- The refusal that an answer is, if it is one. -/
def refusal? {α : Type} : Except Refusal α → Option Refusal
  | .error e => some e
  | .ok _ => none

theorem refusal?_check {α : Type} {c : Prop} [Decidable c] {e : Refusal}
    {rest : Except Refusal α} :
    refusal? (if c then .error e else rest) = if c then some e else refusal? rest := by
  split <;> rfl

/-- Where refusals are for what is broken, just what breaks something is refused. -/
theorem Finds.refused_iff {α : Type} {broken : Refusal → Prop} {answer : Except Refusal α}
    (h : Finds broken (refusal? answer)) : (∃ e, answer = .error e) ↔ ∃ e, broken e := by
  cases answer with
  | error e => exact iff_of_true ⟨e, rfl⟩ ⟨e, h⟩
  | ok a =>
      refine iff_of_false ?_ fun ⟨e, he⟩ => h e he
      rintro ⟨e, he⟩
      contradiction

/-! ## What is checked -/

theorem finds_pointerFault? (p : Pointer) : Finds p.Has (pointerFault? p) := by
  refine .check .originMissing fun horigin => .check .timeNotPositive fun htime =>
    .check .objectKeyMissing fun hkey => .check .hashLength fun hhash =>
    .check .sizeNegative fun hsize => .check .contentTypeMissing fun htype => ?_
  intro fault hfault
  cases hfault with
  | originMissing h => exact horigin h
  | timeNotPositive h => exact htime h
  | objectKeyMissing h => exact hkey h
  | hashLength h => exact hhash h
  | sizeNegative h => exact hsize h
  | contentTypeMissing h => exact htype h

section
variable (account : AccountSettings) (b : Binding) (k : Kept)

theorem finds_acceptText (now : Timestamp) (p : TextPublish) :
    Finds (Breaks account b k (.publishText p)) (refusal? (acceptText now p)) := by
  simp only [acceptText, refusal?_check]
  refine .check .textDevice fun hdevice => .check .textItem fun hitem =>
    .check .textSize fun hsize => ?_
  intro e hbroken
  cases hbroken with
  | textDevice h => exact hdevice h
  | textItem h => exact hitem h
  | textSize h => exact hsize h

/-- Whichever room a pointer is taken for, the same is wrong with it. -/
theorem finds_acceptPointer (p : Pointer) :
    Finds (Breaks account b k (.publishPointer p)) (refusal? (acceptPointer account b p)) := by
  simp only [acceptPointer, refusal?_check]
  refine .check (fun h => .pointerRoom (by simpa using h.2) h.1) fun hroom => ?_
  have hfaults : Finds p.Has (pointerFault? { p with roomId := b.roomId }) :=
    finds_pointerFault? p
  cases hf : pointerFault? { p with roomId := b.roomId } with
  | some fault =>
      rw [hf] at hfaults
      exact Breaks.pointerField hfaults
  | none =>
      rw [hf] at hfaults
      intro e hbroken
      cases hbroken with
      | pointerRoom he hne => exact hroom ⟨hne, by rw [he]; rfl⟩
      | pointerField hfault => exact hfaults _ hfault

theorem finds_acceptFile (now : Timestamp) (p : FilePublish) :
    Finds (Breaks account b k (.publishFile p)) (refusal? (acceptFile b.roomId now p)) := by
  simp only [acceptFile, refusal?_check]
  refine .check .fileDevice fun hdevice => .check (fun h => .fileEmpty (List.isEmpty_iff.mp h))
    fun hbytes => .check .fileSize fun hsize => ?_
  intro e hbroken
  cases hbroken with
  | fileDevice h => exact hdevice h
  | fileEmpty h => exact hbytes (List.isEmpty_iff.mpr h)
  | fileSize h => exact hsize h

theorem finds_textAnswer (itemId : String) :
    Finds (Breaks account b k (.getHistoryText itemId)) (refusal? (textAnswer itemId k)) := by
  simp only [textAnswer, refusal?_check]
  refine .check .itemBlank fun hblank => ?_
  cases htext : k.itemTexts itemId with
  | none => exact .itemUnknown htext
  | some text =>
      intro e hbroken
      cases hbroken with
      | itemBlank h => exact hblank h
      | itemUnknown h =>
          rw [htext] at h
          contradiction

/-- A file that is accepted is good enough for the store. -/
theorem fault?_of_acceptFile {roomId : String} {now : Timestamp} {p : FilePublish}
    {item : HistoryItem} (h : acceptFile roomId now p = .ok item) :
    Payloads.fault? maxFileSize p.bytes = none := by
  obtain ⟨hbytes, hsize, -⟩ := of_acceptFile h
  rw [Payloads.fault?, hbytes, if_neg Bool.false_ne_true, if_neg (Nat.not_lt_of_le hsize)]

/-- A call that is no join is refused for a rule that it breaks, and for no other
reason. -/
theorem finds_effect {request : Request}
    (hcall : ∀ roomId secret, request ≠ .joinRoom roomId secret) (capacity : Nat)
    (now : Timestamp) (s : Session) :
    Finds (Breaks account b k request)
      (refusal? (effect account capacity maxFileSize b now request s k).answer) := by
  cases request with
  | joinRoom roomId secret => exact absurd rfl (hcall roomId secret)
  | publishText p =>
      have hfinds := finds_acceptText account b k now p
      simp only [effect, textEffect]
      cases haccept : acceptText now p <;>
        · rw [haccept] at hfinds
          exact hfinds
  | publishPointer p =>
      have hfinds := finds_acceptPointer account b k p
      simp only [effect, pointerEffect]
      cases haccept : acceptPointer account b p <;>
        · rw [haccept] at hfinds
          exact hfinds
  | publishFile p =>
      have hfinds := finds_acceptFile account b k now p
      simp only [effect, fileEffect]
      cases haccept : acceptFile b.roomId now p with
      | error e =>
          rw [haccept] at hfinds
          exact hfinds
      | ok item =>
          rw [haccept] at hfinds
          simp only [fault?_of_acceptFile haccept]
          exact hfinds
  | getHistory limit =>
      intro e hbroken
      cases hbroken
  | getHistoryText itemId =>
      have hfinds := finds_textAnswer account b k itemId
      simp only [effect]
      cases hanswer : textAnswer itemId k <;>
        · rw [hanswer] at hfinds
          exact hfinds

end

/-! ## What is left behind -/

theorem publishText_of_error {r : Relay} {b : Binding} {now : Timestamp} {p : TextPublish}
    {e : Refusal} (h : (r.publishText b now p).1 = .error e) :
    (r.publishText b now p).2 = r := by
  unfold publishText at h ⊢
  cases haccept : acceptText now p with
  | error e' => rfl
  | ok change =>
      rw [haccept] at h
      contradiction

theorem publishPointer_of_error {r : Relay} {b : Binding} {p : Pointer} {e : Refusal}
    (h : (r.publishPointer b p).1 = .error e) : (r.publishPointer b p).2 = r := by
  unfold publishPointer at h ⊢
  cases haccept : acceptPointer r.account b p with
  | error e' => rfl
  | ok p' =>
      rw [haccept] at h
      contradiction

theorem publishFile_of_error {r : Relay} {b : Binding} {now : Timestamp} {p : FilePublish}
    {e : Refusal} (h : (r.publishFile b now p).1 = .error e) :
    (r.publishFile b now p).2 = r := by
  unfold publishFile at h ⊢
  cases haccept : acceptFile b.roomId now p with
  | error e' => rfl
  | ok item =>
      rw [haccept] at h
      simp only at h ⊢
      cases hput : r.files.put b.key item.id p.bytes with
      | error e' => rfl
      | ok files =>
          rw [hput] at h
          contradiction

/-- A call that is no join leaves the relay as it was if it is refused. -/
theorem perform_of_error {r : Relay} {now : Timestamp} {id : SessionId} {request : Request}
    (hcall : ∀ roomId secret, request ≠ .joinRoom roomId secret) {e : Refusal}
    (h : (r.perform now id request).1 = .error e) : (r.perform now id request).2 = r := by
  cases hs : r.sessions.get? id with
  | none => rw [perform_of_absent hs]
  | some s =>
      revert hcall h
      refine perform_cases hs (motive := fun request result =>
        (∀ roomId secret, request ≠ .joinRoom roomId secret) → result.1 = .error e →
          result.2 = r) ?_ ?_ ?_ ?_ ?_ ?_ ?_ request
      · exact fun roomId secret hcall _ => absurd rfl (hcall roomId secret)
      · exact fun _ _ _ _ _ => rfl
      · exact fun b p _ _ h => publishText_of_error (answering_eq_error_iff.mp h)
      · exact fun b p _ _ h => publishPointer_of_error (answering_eq_error_iff.mp h)
      · exact fun b p _ _ h => publishFile_of_error (answering_eq_error_iff.mp h)
      · exact fun _ _ _ _ _ => rfl
      · exact fun _ _ _ _ _ => rfl

/-- Whoever is in no room is told so, whatever it asks for. -/
theorem perform_of_unbound {r : Relay} {id : SessionId} (h : r.bindingOf? id = none)
    {request : Request} (hcall : ∀ roomId secret, request ≠ .joinRoom roomId secret)
    (now : Timestamp) : r.perform now id request = (.error .notJoined, r) := by
  cases hs : r.sessions.get? id with
  | none => exact perform_of_absent hs now request
  | some s =>
      rw [bindingOf?_of_session hs] at h
      cases request with
      | joinRoom roomId secret => exact absurd rfl (hcall roomId secret)
      | _ => simp only [perform, hs, h]

/-- **Refused calls**: a call about a room, made on a reachable relay, leaves the
whole relay as it was if it is refused.  A session in no room is always refused
for that.  A session in a room is refused for a rule that its call breaks, and
just if it breaks one.  The store takes every file that passes the rules; and no
text is known of an item that has left the history, while that of a text item in
it always is. -/
theorem refused_iff_breaks {account : AccountSettings} {capacity : Nat} {r : Relay}
    (h : Reachable account capacity r) (now : Timestamp) (id : SessionId) {request : Request}
    (hcall : ∀ roomId secret, request ≠ .joinRoom roomId secret) :
    let result := r.perform now id request
    (∀ e, result.1 = .error e → result.2 = r) ∧
    (r.bindingOf? id = none → result.1 = .error .notJoined) ∧
    (∀ b, r.bindingOf? id = some b →
      ((∃ e, result.1 = .error e) ↔ ∃ e, Breaks account b (r.kept b.key) request e) ∧
      ∀ e, result.1 = .error e → Breaks account b (r.kept b.key) request e) ∧
    (∀ (b : Binding) p item, acceptFile b.roomId now p = .ok item →
      ∃ files, r.files.put b.key item.id p.bytes = .ok files) ∧
    ∀ key,
      (∀ itemId, (∀ i ∈ (r.kept key).items, i.id ≠ itemId) →
        (r.kept key).itemTexts itemId = none) ∧
      ∀ i ∈ (r.kept key).items, i.kind = .text → (r.kept key).itemTexts i.id ≠ none := by
  intro result
  refine ⟨fun e => perform_of_error hcall, ?_, ?_, ?_, ?_⟩
  · exact fun hnone => congrArg Prod.fst (perform_of_unbound hnone hcall now)
  · intro b hb
    obtain ⟨s, hs, hbound⟩ := Option.bind_eq_some_iff.mp hb
    have hanswer := (h.sound.takesEffect_perform hs (target?_of_call hbound hcall) now).answer
    rw [h.sameSettings.account, h.sameSettings.capacity, h.sameSettings.maxSize] at hanswer
    have hfinds : Finds (Breaks account b (r.kept b.key) request) (refusal? result.1) := by
      rw [hanswer]
      exact finds_effect account b (r.kept b.key) hcall _ now s
    refine ⟨hfinds.refused_iff, fun e he => ?_⟩
    rw [he] at hfinds
    exact hfinds
  · intro b p item haccept
    have hsize : r.files.maxSize = maxFileSize := h.sameSettings.maxSize
    have hsound : Payloads.fault? r.files.maxSize p.bytes = none := by
      rw [hsize]
      exact fault?_of_acceptFile haccept
    exact ⟨_, Payloads.put_of_sound hsound b.key item.id⟩
  · intro key
    have hfiled := h.filed key
    refine ⟨fun itemId hgone => ?_, fun i hi hkind => ?_⟩
    · rw [← Option.not_isSome_iff_eq_none]
      intro hsome
      obtain ⟨i, hi, hid⟩ := RoomHistory.holds_iff.mp (hfiled.held itemId hsome)
      exact hgone i hi hid
    · rw [← Option.isSome_iff_ne_none]
      exact hfiled.texts i hi hkind

/-- A session in `home` asks for the text of an item that its room does not keep,
and is refused; one that joined no room may not even ask for the history. -/
theorem refused_iff_breaks_home :
    let r := (empty {} 10).run
      [.connect none 8, .connect none 8, .call 1 0 (.joinRoom "home" "sesame")]
    (∃ e, (r.perform 2 0 (.getHistoryText "gone")).1 = .error e) ∧
      (r.perform 2 1 (.getHistory 5)).1 = .error .notJoined := by
  intro r
  have hr : Reachable {} 10 r := .run .empty _
  constructor
  · have hcall (roomId secret : String) :
        Request.getHistoryText "gone" ≠ .joinRoom roomId secret := fun heq => by cases heq
    obtain ⟨-, -, hbound, -, htexts⟩ := refused_iff_breaks hr 2 0 hcall
    have hgone := (htexts (.shared "home")).1 "gone" fun i hi => by cases hi
    exact (hbound ⟨"home", .shared "home"⟩ rfl).1.mpr ⟨_, .itemUnknown hgone⟩
  · have hcall (roomId secret : String) : Request.getHistory 5 ≠ .joinRoom roomId secret :=
      fun heq => by cases heq
    obtain ⟨-, hunbound, -⟩ := refused_iff_breaks hr 2 1 hcall
    exact hunbound rfl

end Relay

end ClipRelay
