import ClipRelay.Device.RelaySync
import ClipRelay.Proofs.Device.AtRelay

/-!
# ClipRelay.Proofs.Device.TextSync

Sync of texts, from the clipboard of one device to that of another.

Whatever text passes the guard of a device is accepted by the relay, since no device sends
texts that are longer than the relay takes.
-/

namespace ClipRelay

namespace RelaySync

/-- The surroundings of a device that has a session at a relay and a clipboard. -/
def atRelay {ω : Type} (serverNow : Timestamp) (id : SessionId)
    (writeClipboard : String → Action ω Unit) : Surroundings (Relay × ω) where
  publish p w :=
    let (result, w) := (throughSession serverNow id (.publishText p)).onFirst w
    (result.map fun _ => (), w)
  writeClipboard text := (writeClipboard text).onSecond

section
variable {σ : Type} {s : Surroundings σ} {now : Timestamp} {e : RelaySync} {w : σ}

/-- An event that brings no text of another device changes nothing. -/
theorem run_of_own {events : List Event}
    (h : ∀ change, .textChanged change ∈ events → change.origin = e.device) :
    e.run s now events w = (e, w) := by
  refine List.foldlRecOn (motive := fun after => after = (e, w)) events _ rfl ?_
  rintro _ rfl event hevent
  cases event with
  | textChanged change =>
      have hown := h change hevent
      simp only [takeEvent, takeRemote, EchoGuard.isOwnUpdate, hown, decide_true, if_true]
  | _ => rfl

/-- A text of another device is written to the clipboard. -/
theorem run_of_foreign {change : TextChange} {more : List Event}
    (hforeign : e.device ≠ change.origin)
    (hmore : ∀ change, .textChanged change ∉ more) :
    e.run s now (.textChanged change :: more) w =
      ({ e with guard := e.guard.noteRemoteUpdate now.toInt },
        (s.writeClipboard change.text w).2) := by
  have hfirst : e.takeEvent s now (.textChanged change) w =
      ({ e with guard := e.guard.noteRemoteUpdate now.toInt },
        (s.writeClipboard change.text w).2) := by
    have hother : EchoGuard.isOwnUpdate e.device change.origin = false := decide_eq_false hforeign
    simp only [takeEvent, takeRemote, hother, Bool.false_eq_true, if_false]
    rcases s.writeClipboard change.text w with ⟨_ | _, _⟩ <;> rfl
  rw [run_cons, hfirst]
  exact run_of_own fun change hchange => absurd hchange (hmore change)

/-- A text that is let through is published, if that succeeds. -/
theorem takeLocal_of_published {hash : Bytes} {itemId : Uuid} {text : String} {w' : σ}
    (hpass : (e.guard.judge e.maxTextBytes now text).1 = .ok hash)
    (hpublish : s.publish ⟨e.device, itemId, now, text, hash⟩ w = (.ok (), w')) :
    e.takeLocal s now itemId text w =
      (.ok .published, { e with guard := (e.guard.judge e.maxTextBytes now text).2 }, w') := by
  cases hjudged : e.guard.judge e.maxTextBytes now text with
  | mk verdict guard =>
      rw [hjudged] at hpass
      cases hpass
      simp only [takeLocal, hjudged, hpublish]

/-- An echo is not published, and leaves no trace. -/
theorem takeLocal_of_isEcho (h : e.guard.isEcho now.toInt) (itemId : Uuid) (text : String) :
    ∃ outcome, outcome ≠ .published ∧ e.takeLocal s now itemId text w = (.ok outcome, e, w) := by
  obtain ⟨why, hwhy, hjudged⟩ := EchoGuard.judge_of_isEcho h e.maxTextBytes text
  exact ⟨why, hwhy, by simp only [takeLocal, hjudged]⟩

end

/-- A text that is let through is published, if the relay takes it. -/
theorem takeLocal_atRelay {e : RelaySync} {r : Relay} (hmax : r.files.maxSize = maxFileSize)
    {serverNow now : Timestamp} {id : SessionId} {itemId : Uuid} {hash : Bytes} {text : String}
    {key : RoomKey} {p : Publication}
    (hpass : (e.guard.judge e.maxTextBytes now text).1 = .ok hash)
    (hpublished : r.published? (.call serverNow id
      (.publishText ⟨e.device, itemId, now, text, hash⟩)) = some (key, p))
    {ω : Type} (writeClipboard : String → Action ω Unit) (clip : ω) :
    e.takeLocal (atRelay serverNow id writeClipboard) now itemId text (r, clip) =
      (.ok .published, { e with guard := (e.guard.judge e.maxTextBytes now text).2 },
        (p.store r key).broadcastAll key p.news, clip) := by
  refine takeLocal_of_published hpass ?_
  simp only [atRelay, Action.onFirst, throughSession_of_published hmax hpublished]
  rfl

open Relay in
/-- **Sync of texts, end to end**: let two devices with different ids have open sessions in
one room of a relay, and let the queue of the second have room.  Whatever text passes the
guard of the first, the relay accepts it, keeps it under the hash that the device sent, and
the device is told so.  What either is sent of that changes nothing for the first, and the
second writes the text to its clipboard, once.  Up to the end of its ignore window the
second does not publish that text in its turn.  And the text goes over the wire unharmed,
to the relay and from it. -/
theorem text_reaches_device {account : AccountSettings} {capacity : Nat} {r : Relay}
    (h : Reachable account capacity r) (envA envB : String → Option String)
    {freshA freshB : Uuid} (hfresh : freshA.isNil = false)
    (hdevices : (DeviceSettings.ofEnv envA freshA).deviceId ≠
      (DeviceSettings.ofEnv envB freshB).deviceId)
    {idA idB : SessionId} {key : RoomKey} (hroomA : r.roomOf? idA = some key)
    (hears : r.Hears idB key) (guardA guardB : EchoGuard) {itemId : Uuid}
    (hitem : itemId.isNil = false) (nowA : Timestamp) (text : String) {hash : Bytes}
    (hpass : (guardA.judge (DeviceSettings.ofEnv envA freshA).maxTextBytes nowA text).1 = .ok hash)
    {ωA ωB : Type} (writeA : String → Action ωA Unit) (writeB : String → Action ωB Unit)
    (clipA : ωA) (clipB : ωB) (serverNow : Timestamp) :
    let a := ofSettings (.ofEnv envA freshA) guardA
    let b := ofSettings (.ofEnv envB freshB) guardB
    let aroundA := atRelay serverNow idA writeA
    let aroundB := atRelay serverNow idB writeB
    let publish : TextPublish := ⟨a.device, itemId, nowA, text, hash⟩
    let change : TextChange := ⟨a.device, serverNow, text, hash⟩
    (∃ a' r', a.takeLocal aroundA nowA itemId text (r, clipA) =
        (.ok .published, a', r', clipA) ∧
      r'.texts.get? key = some change ∧
      (∀ now, a'.run aroundA now (r.eventsSince r' idA) (r', clipA) = (a', r', clipA)) ∧
      ∀ now, ∃ b', b.run aroundB now (r.eventsSince r' idB) (r', clipB) =
          (b', r', (writeB text clipB).2) ∧
        ∀ later, later.toInt ≤ now.toInt + guardB.ignoreWindow → ∀ itemId' clip, ∃ outcome,
          outcome ≠ .published ∧
          b'.takeLocal aroundB later itemId' text (r', clip) = (.ok outcome, b', r', clip)) ∧
    (∀ callId, Binary.decode .clientFrame (Binary.encode .clientFrame
      ⟨callId, .publishText publish⟩) = .ok ⟨callId, .publishText publish⟩) ∧
    Binary.decode .serverFrame (Binary.encode .serverFrame (.event (.textChanged change))) =
      .ok (.event (.textChanged change)) := by
  intro a b aroundA aroundB publish change
  obtain ⟨hsize, rfl⟩ := EchoGuard.judge_eq_ok hpass
  obtain ⟨room, hroom, rfl⟩ := exists_binding_of_roomOf? hroomA
  have hdevice : a.device.isNil = false := DeviceSettings.isNil_deviceId_ofEnv envA freshA hfresh
  have hlimit : text.utf8ByteSize ≤ maxTextSize :=
    Nat.le_trans hsize (DeviceSettings.maxTextBytes_ofEnv_le envA freshA)
  have hpublished : r.published? (.call serverNow idA (.publishText publish)) =
      some (room.key, .text room.roomId change) :=
    published?_text hroom hdevice hitem hlimit
  have hnews : (Publication.text room.roomId change).news =
      [.textChanged change, .historyItemAdded (textItem room.roomId change)] := rfl
  have hfits : TextFits text ∧ Binary.Format.LengthFits (textHash text).length := by
    rw [length_textHash]
    exact ⟨Nat.lt_of_le_of_lt hlimit (by decide), by decide⟩
  have htaken := takeLocal_atRelay h.sameSettings.maxSize hpass hpublished writeA clipA
  refine ⟨⟨_, _, htaken, ?_, fun now => ?_, fun now => ?_⟩, fun callId => ?_, ?_⟩
  · rw [(sameStores_broadcastAll _ _ _).texts]
    exact Table.get?_insert_self ..
  · refine run_of_own fun own hown => ?_
    have hmem := h.sound.mem_news_of_eventsSince hown
    rw [hnews] at hmem
    obtain heq | hitem := List.mem_cons.mp hmem
    · cases heq
      rfl
    · cases List.mem_singleton.mp hitem
  · obtain ⟨more, hmore, hrest⟩ := h.sound.eventsSince_of_hears hears hnews
    have hforeign : b.device ≠ change.origin := hdevices.symm
    have hnotext : ∀ change, .textChanged change ∉ more := by
      intro change hchange
      cases List.mem_singleton.mp (hrest _ hchange)
    rw [hmore, run_of_foreign hforeign hnotext]
    refine ⟨_, rfl, fun later hlater itemId' clip => ?_⟩
    exact takeLocal_of_isEcho (EchoGuard.isEcho_noteRemoteUpdate hlater) itemId' text
  · exact Binary.decode_encode hfits
  · exact Binary.decode_encode hfits

open Relay in
/-- A note that is copied on one device of an account is pasted on another one. -/
theorem text_reaches_device_home :
    let r := (empty { enabled := true } 10).run
      [.connect (some ⟨"user-1", none⟩) 8, .connect (some ⟨"user-1", none⟩) 8,
        .call 1 0 (.joinRoom "home" ""), .call 1 1 (.joinRoom "home" "")]
    let paste (text : String) : Action (List String) Unit := fun pasted => (.ok (), text :: pasted)
    let a := ofSettings (.ofEnv (fun _ => none) note.deviceId) {}
    let b := ofSettings (.ofEnv (fun _ => none) note.clientItemId) {}
    let sent := a.takeLocal (atRelay 2 0 paste) 1 note.clientItemId note.text (r, [])
    sent.1 = .ok .published ∧ sent.2.2.2 = [] ∧
      (b.run (atRelay 2 1 paste) 3 (r.eventsSince sent.2.2.1 1) (sent.2.2.1, [])).2.2 =
        [note.text] := by
  intro r paste a b sent
  have hr : Reachable { enabled := true } 10 r := .run .empty _
  have hfresh : note.deviceId.isNil = false := by decide
  have hitem : note.clientItemId.isNil = false := by decide
  have hdevices : a.device ≠ b.device := by decide
  have hroom : r.roomOf? 0 = some (.forSubject "user-1" "home") := rfl
  have hears : r.Hears 1 (.forSubject "user-1" "home") := ⟨rfl, _, rfl, rfl⟩
  have hpass : (a.guard.judge a.maxTextBytes 1 note.text).1 = .ok (textHash note.text) := rfl
  obtain ⟨⟨a', r', hsent, -, -, hrun⟩, -⟩ :=
    text_reaches_device hr (fun _ => none) (fun _ => none) hfresh hdevices hroom hears {} {} hitem
      1 note.text hpass paste paste [] [] 2
  obtain ⟨b', hpasted, -⟩ := hrun 3
  have hafter : sent = (.ok .published, a', r', []) := hsent
  rw [hafter]
  exact ⟨rfl, rfl, congrArg (fun w => w.2.2) hpasted⟩

end RelaySync

end ClipRelay
