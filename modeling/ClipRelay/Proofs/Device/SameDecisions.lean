import ClipRelay.Proofs.Device.FailedPublishes
import ClipRelay.Proofs.Device.SharedManifest

/-!
# ClipRelay.Proofs.Device.SameDecisions

Sync through the relay and sync through a store, side by side.

What a device publishes and what it writes to the clipboard is noted by its surroundings
(`SyncDevice.noted`), which changes nothing else (`SyncDevice.run_noted`).  The two engines act
on different things, but what they decide is decided by the guard (`EchoGuard.meet`): as long
as nothing fails that an engine relies on, it does what its guard says (`RelaySync.act_eq`,
`StoreSync.act_eq`), so the two of them do the same.
-/

namespace ClipRelay

/-! ## What a device does -/

/-- What a device did. -/
structure Deeds where
  /-- The times and hashes of what it published. -/
  published : List (Int × Bytes) := []
  /-- The texts that it wrote to the clipboard. -/
  written : List String := []
deriving DecidableEq

def Deeds.publish (now : Timestamp) (hash : Bytes) (k : Deeds) : Deeds :=
  { k with published := k.published ++ [(now.toInt, hash)] }

def Deeds.write (text : String) (k : Deeds) : Deeds := { k with written := k.written ++ [text] }

/-- Does an action, and notes it if it succeeds. -/
def Action.noting {σ α : Type} (act : Action σ α) (note : Deeds → Deeds) :
    Action (σ × Deeds) α := fun w =>
  let (result, after) := act w.1
  (result, after, if result.isOk then note w.2 else w.2)

theorem Action.noting_of_ok {σ α : Type} {act : Action σ α} {w w' : σ} {a : α}
    (h : act w = (.ok a, w')) (note : Deeds → Deeds) (k : Deeds) :
    act.noting note (w, k) = (.ok a, w', note k) := by
  simp only [noting, h]
  rfl

/-- What an entry says that was done, if it is about this text. -/
def SyncEntry.deed (text? : Option String) : SyncEntry → Deeds → Deeds
  | .changed now text (.ok .published), k => k.publish now (textHash text)
  | .received _ (.ok true), k => text?.elim k k.write
  | _, k => k

theorem SyncEntry.deed_of_ne {outcome : ChangeOutcome} (h : outcome ≠ .published)
    (now : Timestamp) (text : String) (text? : Option String) (k : Deeds) :
    (SyncEntry.changed now text (.ok outcome)).deed text? k = k := by
  cases outcome with
  | published => exact absurd rfl h
  | _ => rfl

namespace RelaySync

variable {σ : Type} {s : Surroundings σ} {e : RelaySync} {w : σ}

/-- The same surroundings, with the deeds of the device noted. -/
def Surroundings.noted (s : Surroundings σ) : Surroundings (σ × Deeds) where
  publish p := Action.noting (s.publish p) (.publish p.clientTime p.textHash)
  writeClipboard text := Action.noting (s.writeClipboard text) (.write text)

theorem takeLocal_noted (now : Timestamp) (itemId : Uuid) (text : String) (k : Deeds) :
    e.takeLocal s.noted now itemId text (w, k) =
      let r := e.takeLocal s now itemId text w
      (r.1, r.2.1, r.2.2, (SyncEntry.changed now text r.1).deed (some text) k) := by
  obtain ⟨why, hwhy, hjudged⟩ | ⟨-, -, hjudged⟩ := e.guard.judge_cases e.maxTextBytes now text
  · simp only [takeLocal, hjudged, SyncEntry.deed_of_ne hwhy]
  · rcases hp : s.publish ⟨e.device, itemId, now, text, textHash text⟩ w with ⟨_ | _, w'⟩ <;>
      simp only [takeLocal, hjudged, Surroundings.noted, Action.noting, hp, SyncEntry.deed] <;> rfl

theorem takeRemote_noted (now : Timestamp) (change : TextChange) (k : Deeds) :
    e.takeRemote s.noted now change (w, k) =
      let r := e.takeRemote s now change w
      (r.1, r.2.1, r.2.2, (SyncEntry.received now r.1).deed (some change.text) k) := by
  simp only [takeRemote]
  split
  · rfl
  · rcases hp : s.writeClipboard change.text w with ⟨_ | _, w'⟩ <;>
      simp only [Surroundings.noted, Action.noting, hp] <;> rfl

end RelaySync

namespace StoreSync

variable {σ : Type} {s : Surroundings σ} {e : StoreSync} {w : σ}

/-- The same surroundings, with the deeds of the device noted. -/
def Surroundings.noted (s : Surroundings σ) : Surroundings (σ × Deeds) where
  upload key text := Action.noting (s.upload key text) id
  download fileId := Action.noting (s.download fileId) id
  publish p := Action.noting (s.publish p) (.publish p.time p.contentHash)
  writeClipboard text := Action.noting (s.writeClipboard text) (.write text)
  manifests := s.manifests.map fun m =>
    { load := fun roomId => Action.noting (m.load roomId) id
      save := fun manifest => Action.noting (m.save manifest) id }

/-- The text that a pointer stands for, if it is for this device and the store has it. -/
def fetch? (s : Surroundings σ) (p : Pointer) (e : StoreSync) (w : σ) : Option String :=
  (e.fileToFetch? p).bind fun fileId => (s.download fileId w).1.toOption

theorem recordText_noted (p : Pointer) (text : String) (k : Deeds) :
    e.recordText s.noted p text (w, k) =
      let r := e.recordText s p text w
      (r.1, r.2.1, r.2.2, k) := by
  cases hm : s.manifests with
  | none => simp only [recordText, Surroundings.noted, hm, Option.map_none]
  | some m =>
      cases hcached : e.manifest with
      | some cached =>
          simp only [recordText, Surroundings.noted, hm, Option.map_some, withManifest, hcached,
            Action.noting, id, ite_self]
      | none =>
          rcases hload : m.load e.roomId w with ⟨_ | loaded, w'⟩ <;>
            simp only [recordText, Surroundings.noted, hm, Option.map_some, withManifest, hcached,
              Action.noting, id, ite_self, hload]

theorem takeLocal_noted (now : Timestamp) (text : String) (k : Deeds) :
    e.takeLocal s.noted now text (w, k) =
      let r := e.takeLocal s now text w
      (r.1, r.2.1, r.2.2, (SyncEntry.changed now text r.1).deed (some text) k) := by
  obtain ⟨why, hwhy, hjudged⟩ | ⟨-, -, hjudged⟩ := e.guard.judge_cases e.maxTextBytes now text
  · simp only [takeLocal, hjudged, SyncEntry.deed_of_ne hwhy]
  · generalize { e.guard with lastPublish := some (now.toInt, textHash text) } = guard at hjudged
    rcases hupload : s.upload (textObjectKey e.roomId now e.device (textHash text)) text w with
      ⟨_ | stored, w'⟩
    · simp only [takeLocal, hjudged, Surroundings.noted, Action.noting, hupload]
      rfl
    · rcases hpublish : s.publish ({ e with guard }.pointerTo now (textHash text) stored) w' with
        ⟨_ | _, w''⟩
      · simp only [takeLocal, hjudged, Surroundings.noted, Action.noting, hupload, hpublish]
        rfl
      · have hpass : (e.guard.judge e.maxTextBytes now text).1 = .ok (textHash text) :=
          congrArg Prod.fst hjudged
        rw [takeLocal_of_published hpass hupload hpublish, takeLocal_of_published hpass
          (Action.noting_of_ok hupload id k) (Action.noting_of_ok hpublish _ k), recordText_noted]
        rfl

theorem takeRemote_noted (now : Timestamp) (p : Pointer) (k : Deeds) :
    e.takeRemote s.noted now p (w, k) =
      let r := e.takeRemote s now p w
      (r.1, r.2.1, r.2.2, (SyncEntry.received now r.1).deed (e.fetch? s p w) k) := by
  simp only [takeRemote, fetch?]
  cases e.fileToFetch? p with
  | none => rfl
  | some fileId =>
      rcases hdownload : s.download fileId w with ⟨_ | text, w'⟩
      · simp only [Surroundings.noted, Action.noting, hdownload]
        rfl
      · rcases hwrite : s.writeClipboard text w' with ⟨_ | _, w''⟩ <;>
          simp only [Surroundings.noted, Action.noting, hdownload, hwrite, Option.bind_some] <;> rfl

end StoreSync

namespace SyncDevice

variable {σ : Type}

/-- The same device, with its deeds noted. -/
def noted : SyncDevice σ → SyncDevice (σ × Deeds)
  | .relay around e => .relay around.noted e
  | .store around e => .store around.noted e

/-- The text that something is about that comes in, if it is for this device. -/
def text? (d : SyncDevice σ) (a : SyncAction) (w : σ) : Option String :=
  match d, a with
  | _, .changed _ _ text => some text
  | .relay .., .received _ (.textChanged change) => some change.text
  | .store around e, .received _ (.pointerChanged p) => e.fetch? around p w
  | _, _ => none

/-- What is done is what the entry says, and noting it changes nothing. -/
theorem act_noted (d : SyncDevice σ) (a : SyncAction) (w : σ) (k : Deeds) :
    d.noted.act a (w, k) =
      let r := d.act a w
      (r.1, r.2.1.noted, r.2.2, r.1.deed (d.text? a w) k) := by
  cases d with
  | relay around e =>
      cases a with
      | changed now itemId text =>
          simp only [noted, act, takeLocal, RelaySync.takeLocal_noted]
          rfl
      | received now event =>
          cases event with
          | textChanged change =>
              simp only [noted, act, takeEvent, RelaySync.takeRemote_noted]
              rfl
          | _ => rfl
  | store around e =>
      cases a with
      | changed now itemId text =>
          simp only [noted, act, takeLocal, StoreSync.takeLocal_noted]
          rfl
      | received now event =>
          cases event with
          | pointerChanged p =>
              simp only [noted, act, takeEvent, StoreSync.takeRemote_noted]
              rfl
          | _ => rfl

theorem run_noted (d : SyncDevice σ) (actions : List SyncAction) (w : σ) (k : Deeds) :
    ∃ k', d.noted.run actions (w, k) =
      let r := d.run actions w
      (r.1, r.2.1.noted, r.2.2, k') := by
  induction actions generalizing d w k with
  | nil => exact ⟨k, rfl⟩
  | cons a actions ih =>
      obtain ⟨k', hrest⟩ := ih (d.act a w).2.1 (d.act a w).2.2 ((d.act a w).1.deed (d.text? a w) k)
      exact ⟨k', by simp only [run, act_noted, hrest]⟩

/-- What a device does while something comes in. -/
def deeds (d : SyncDevice σ) (actions : List SyncAction) (w : σ) : Deeds :=
  (d.noted.run actions (w, {})).2.2.2

/-- A run with deeds noted tells about the run without. -/
theorem run_of_noted {d : SyncDevice σ} {d' : SyncDevice (σ × Deeds)} {actions : List SyncAction}
    {w : σ} {w' : σ × Deeds} {entries : List SyncEntry}
    (h : d.noted.run actions (w, {}) = (entries, d', w')) :
    (d.run actions w).1 = entries ∧ (d.run actions w).2.1.guard = d'.guard ∧
      d.deeds actions w = w'.2 := by
  obtain ⟨k', hnoted⟩ := d.run_noted actions w {}
  have hguard (d : SyncDevice σ) : d.noted.guard = d.guard := by cases d <;> rfl
  obtain ⟨hentries, hafter⟩ := Prod.mk.inj (h.symm.trans hnoted)
  refine ⟨hentries.symm, ?_, by rw [deeds, h]⟩
  rw [(Prod.mk.inj hafter).1, hguard]

end SyncDevice

/-- Nothing failed. -/
def SyncEntry.Succeeded : SyncEntry → Prop
  | .changed _ _ result => result.isOk
  | .received _ result => result.isOk

/-- Unless something fails, what was tried is what was published. -/
theorem SyncEntry.published_deed {entry : SyncEntry} (h : entry.Succeeded) (text? : Option String)
    (k : Deeds) : (entry.deed text? k).published = k.published ++ entry.attempt?.toList := by
  cases entry with
  | changed now text result =>
      cases result with
      | error x => cases h
      | ok outcome => cases outcome <;> simp [deed, attempt?, attempted, Deeds.publish]
  | received now result =>
      rcases result with _ | ⟨_ | _⟩
      · cases h
      · exact (List.append_nil _).symm
      · cases text? <;> exact (List.append_nil _).symm

/-! ## What the guard decides -/

/-- What happens around a device, whichever way it syncs. -/
inductive Happening where
  /-- The local clipboard changes; `itemId` names the text if it is published itself. -/
  | changed (now : Timestamp) (itemId : Uuid) (text : String)
  /-- A device publishes a text, of which the relay sends either the text or a pointer to it. -/
  | updated (now : Timestamp) (change : TextChange) (p : Pointer)

namespace Happening

/-- What comes in at a device that syncs through the relay. -/
def forRelay : Happening → SyncAction
  | changed now itemId text => .changed now itemId text
  | updated now change _ => .received now (.textChanged change)

/-- What comes in at a device that syncs through a store. -/
def forStore : Happening → SyncAction
  | changed now itemId text => .changed now itemId text
  | updated now _ p => .received now (.pointerChanged p)

def text : Happening → String
  | changed _ _ text => text
  | updated _ change _ => change.text

/-- The text that another device published. -/
def foreign? (device : Uuid) : Happening → Option String
  | changed .. => none
  | updated _ change _ =>
    if EchoGuard.isOwnUpdate device change.origin then none else some change.text

end Happening

namespace EchoGuard

/-- What a device with this guard makes of something, if nothing fails. -/
def meet (g : EchoGuard) (device : Uuid) (maxTextBytes : Nat) :
    Happening → SyncEntry × EchoGuard
  | .changed now _ text =>
    match g.judge maxTextBytes now text with
    | (.ok _, g) => (.changed now text (.ok .published), g)
    | (.error why, g) => (.changed now text (.ok why), g)
  | .updated now change _ =>
    if isOwnUpdate device change.origin then (.received now (.ok false), g)
    else (.received now (.ok true), g.noteRemoteUpdate now.toInt)

/-- The same for one thing after another, with what the device does on top of what it did. -/
def meetAll (g : EchoGuard) (device : Uuid) (maxTextBytes : Nat) (k : Deeds) :
    List Happening → List SyncEntry × EchoGuard × Deeds
  | [] => ([], g, k)
  | x :: happenings =>
    let (entry, g) := g.meet device maxTextBytes x
    let (entries, g, k) := g.meetAll device maxTextBytes (entry.deed (some x.text) k) happenings
    (entry :: entries, g, k)

theorem meet_spec (g : EchoGuard) (device : Uuid) (maxTextBytes : Nat) (x : Happening)
    (k : Deeds) :
    (g.meet device maxTextBytes x).1.Succeeded ∧
      ((g.meet device maxTextBytes x).1.deed (some x.text) k).written =
        k.written ++ (x.foreign? device).toList := by
  cases x with
  | changed now itemId text =>
      rcases hjudged : g.judge maxTextBytes now text with ⟨why | _, _⟩
      · simp only [meet, hjudged]
        cases why <;> exact ⟨rfl, (List.append_nil _).symm⟩
      · simp only [meet, hjudged]
        exact ⟨rfl, (List.append_nil _).symm⟩
  | updated now change p =>
      simp only [meet, Happening.foreign?]
      split
      · exact ⟨rfl, (List.append_nil _).symm⟩
      · exact ⟨rfl, rfl⟩

/-- What a device publishes is what it answers so, and it writes what others published. -/
theorem meetAll_spec (g : EchoGuard) (device : Uuid) (maxTextBytes : Nat) (k : Deeds)
    (happenings : List Happening) :
    let r := g.meetAll device maxTextBytes k happenings
    (∀ entry ∈ r.1, entry.Succeeded) ∧ r.2.2.published = k.published ++ attempts r.1 ∧
      r.2.2.written = k.written ++ happenings.filterMap (Happening.foreign? device) := by
  induction happenings generalizing g k with
  | nil =>
      exact ⟨fun entry h => absurd h List.not_mem_nil, (List.append_nil _).symm,
        (List.append_nil _).symm⟩
  | cons x happenings ih =>
      obtain ⟨hfirst, hwrites⟩ := g.meet_spec device maxTextBytes x k
      obtain ⟨hrest, hpublished, hwritten⟩ := ih (g.meet device maxTextBytes x).2
        ((g.meet device maxTextBytes x).1.deed (some x.text) k)
      refine ⟨List.forall_mem_cons.mpr ⟨hfirst, hrest⟩, hpublished.trans ?_, hwritten.trans ?_⟩
      · rw [SyncEntry.published_deed hfirst, List.append_assoc, attempts, ← filterMap_cons_toList]
        rfl
      · rw [hwrites, List.append_assoc, filterMap_cons_toList]

end EchoGuard

/-! ## Two engines -/

namespace RelaySync

variable {σ : Type} {s : Surroundings σ}

/-- Neither the relay nor the clipboard fails. -/
structure Surroundings.Succeed (s : Surroundings σ) : Prop where
  publish (p : TextPublish) (w : σ) : ∃ w', s.publish p w = (.ok (), w')
  writeClipboard (text : String) (w : σ) : ∃ w', s.writeClipboard text w = (.ok (), w')

/-- As long as nothing fails the engine does what its guard decides. -/
theorem act_eq (hs : s.Succeed) (e : RelaySync) (x : Happening) (w : σ) :
    ∃ w', (SyncDevice.relay s e).act x.forRelay w =
      let r := e.guard.meet e.device e.maxTextBytes x
      (r.1, .relay s { e with guard := r.2 }, w') := by
  cases x with
  | changed now itemId text =>
      rcases hjudged : e.guard.judge e.maxTextBytes now text with ⟨why | hash, guard⟩
      · exact ⟨w, by simp only [Happening.forRelay, SyncDevice.act, SyncDevice.takeLocal,
          takeLocal, EchoGuard.meet, hjudged]⟩
      · obtain ⟨w', hpublish⟩ := hs.publish ⟨e.device, itemId, now, text, hash⟩ w
        exact ⟨w', by simp only [Happening.forRelay, SyncDevice.act, SyncDevice.takeLocal,
          takeLocal, EchoGuard.meet, hjudged, hpublish]⟩
  | updated now change p =>
      obtain ⟨w', hwrite⟩ := hs.writeClipboard change.text w
      cases hown : EchoGuard.isOwnUpdate e.device change.origin with
      | true =>
          exact ⟨w, by simp only [Happening.forRelay, SyncDevice.act, SyncDevice.takeEvent,
            takeRemote, EchoGuard.meet, hown, if_true]⟩
      | false =>
          exact ⟨w', by simp only [Happening.forRelay, SyncDevice.act, SyncDevice.takeEvent,
            takeRemote, EchoGuard.meet, hown, hwrite, Bool.false_eq_true, if_false]⟩

/-- The text that comes in is the one that it is about. -/
theorem text?_forRelay (e : RelaySync) (x : Happening) (w : σ) :
    (SyncDevice.relay s e).text? x.forRelay w = some x.text := by
  cases x <;> rfl

end RelaySync

namespace StoreSync

variable {σ : Type} {s : Surroundings σ}

/-- Neither the store nor the relay nor the clipboard fails; a manifest may. -/
structure Surroundings.Succeed (s : Surroundings σ) : Prop where
  upload (key text : String) (w : σ) : ∃ stored w', s.upload key text w = (.ok stored, w')
  publish (p : Pointer) (w : σ) : ∃ w', s.publish p w = (.ok (), w')
  writeClipboard (text : String) (w : σ) : ∃ w', s.writeClipboard text w = (.ok (), w')

/-- A pointer of this room to this text, which can be downloaded. -/
structure LeadsTo (s : Surroundings σ) (roomId : String) (w : σ) (change : TextChange)
    (p : Pointer) : Prop where
  origin : p.origin = change.origin
  roomId : p.roomId = roomId
  contentType : p.contentType.map Char.toLower = contentType
  download : ∃ fileId ∈ Text.nonBlank? p.providerFileId, ∃ w',
    s.download fileId w = (.ok change.text, w')

/-- It is followed unless it is the device's own. -/
theorem LeadsTo.exists_fileToFetch? {e : StoreSync} {w : σ} {change : TextChange} {p : Pointer}
    (h : LeadsTo s e.roomId w change p) :
    ∃ fileId w', (e.fileToFetch? p =
        if EchoGuard.isOwnUpdate e.device change.origin then none else some fileId) ∧
      s.download fileId w = (.ok change.text, w') := by
  obtain ⟨fileId, hfile, w', hdownload⟩ := h.download
  refine ⟨fileId, w', ?_, hdownload⟩
  rw [fileToFetch?, h.origin, if_neg (not_not_intro h.roomId),
    if_neg (not_not_intro h.contentType), hfile]

/-- An update comes with a pointer that leads to its text. -/
def Finds (s : Surroundings σ) (roomId : String) (w : σ) : Happening → Prop
  | .changed .. => True
  | .updated _ change p => LeadsTo s roomId w change p

/-- As long as nothing fails the engine does what its guard decides, and besides that changes
nothing but its manifest. -/
theorem act_eq (hs : s.Succeed) (e : StoreSync) (x : Happening) (w : σ)
    (hfound : Finds s e.roomId w x) :
    ∃ manifest w', (SyncDevice.store s e).act x.forStore w =
      let r := e.guard.meet e.device e.maxTextBytes x
      (r.1, .store s { e with guard := r.2, manifest }, w') := by
  cases x with
  | changed now itemId text =>
      rcases hjudged : e.guard.judge e.maxTextBytes now text with ⟨why | hash, guard⟩
      · exact ⟨e.manifest, w, by simp only [Happening.forStore, SyncDevice.act,
          SyncDevice.takeLocal, takeLocal, EchoGuard.meet, hjudged]⟩
      · obtain ⟨stored, w', hupload⟩ := hs.upload (textObjectKey e.roomId now e.device hash) text w
        let pointer := { e with guard }.pointerTo now hash stored
        obtain ⟨w'', hpublish⟩ := hs.publish pointer w'
        obtain ⟨manifest, hrecorded⟩ :=
          exists_manifest_recordText s pointer text { e with guard } w''
        refine ⟨manifest, ({ e with guard }.recordText s pointer text w'').2.2, ?_⟩
        simp only [Happening.forStore, SyncDevice.act, SyncDevice.takeLocal, takeLocal,
          EchoGuard.meet, hjudged, hupload]
        rw [hpublish]
        exact congrArg (fun e => (_, SyncDevice.store s e, _)) hrecorded
  | updated now change p =>
      obtain ⟨fileId, w', hfetch, hdownload⟩ := hfound.exists_fileToFetch?
      obtain ⟨w'', hwrite⟩ := hs.writeClipboard change.text w'
      cases hown : EchoGuard.isOwnUpdate e.device change.origin with
      | true =>
          exact ⟨e.manifest, w, by simp only [Happening.forStore, SyncDevice.act,
            SyncDevice.takeEvent, takeRemote, EchoGuard.meet, hfetch, hown, if_true]⟩
      | false =>
          exact ⟨e.manifest, w'', by simp only [Happening.forStore, SyncDevice.act,
            SyncDevice.takeEvent, takeRemote, EchoGuard.meet, hfetch, hdownload, hown, hwrite,
            Bool.false_eq_true, if_false]⟩

/-- What it does is done with the text that comes in. -/
theorem deed_forStore (e : StoreSync) (x : Happening) (w : σ) (hfound : Finds s e.roomId w x)
    (k : Deeds) :
    (e.guard.meet e.device e.maxTextBytes x).1.deed ((SyncDevice.store s e).text? x.forStore w) k =
      (e.guard.meet e.device e.maxTextBytes x).1.deed (some x.text) k := by
  cases x with
  | changed now itemId text => rfl
  | updated now change p =>
      obtain ⟨fileId, w', hfetch, hdownload⟩ := hfound.exists_fileToFetch?
      cases hown : EchoGuard.isOwnUpdate e.device change.origin with
      | true => simp only [EchoGuard.meet, hown, if_true, SyncEntry.deed]
      | false =>
          simp only [Happening.forStore, SyncDevice.text?, fetch?, hfetch, hown,
            Bool.false_eq_true, if_false, Option.bind_some, hdownload, Except.toOption]
          rfl

end StoreSync

/-! ## Runs -/

theorem RelaySync.run_eq {σ : Type} {s : RelaySync.Surroundings σ} (hs : s.Succeed)
    (e : RelaySync) (happenings : List Happening) (w : σ) (k : Deeds) :
    ∃ w', (SyncDevice.relay s e).noted.run (happenings.map Happening.forRelay) (w, k) =
      let r := e.guard.meetAll e.device e.maxTextBytes k happenings
      (r.1, (SyncDevice.relay s { e with guard := r.2.1 }).noted, w', r.2.2) := by
  induction happenings generalizing e w k with
  | nil => exact ⟨w, rfl⟩
  | cons x happenings ih =>
      obtain ⟨w', hact⟩ := RelaySync.act_eq hs e x w
      have hnoted := (SyncDevice.relay s e).act_noted x.forRelay w k
      simp only [hact, text?_forRelay] at hnoted
      obtain ⟨w'', hrest⟩ := ih { e with guard := (e.guard.meet e.device e.maxTextBytes x).2 } w'
        ((e.guard.meet e.device e.maxTextBytes x).1.deed (some x.text) k)
      exact ⟨w'', by simp only [List.map_cons, SyncDevice.run, hnoted, hrest, EchoGuard.meetAll]⟩

theorem StoreSync.run_eq {σ : Type} {s : StoreSync.Surroundings σ} (hs : s.Succeed)
    (e : StoreSync) (happenings : List Happening) (w : σ) (k : Deeds)
    (hfound : ∀ before x rest, happenings = before ++ x :: rest → StoreSync.Finds s e.roomId
      ((SyncDevice.store s e).run (before.map Happening.forStore) w).2.2 x) :
    ∃ manifest w', (SyncDevice.store s e).noted.run (happenings.map Happening.forStore) (w, k) =
      let r := e.guard.meetAll e.device e.maxTextBytes k happenings
      (r.1, (SyncDevice.store s { e with guard := r.2.1, manifest }).noted, w', r.2.2) := by
  induction happenings generalizing e w k with
  | nil => exact ⟨e.manifest, w, rfl⟩
  | cons x happenings ih =>
      have hfirst : Finds s e.roomId w x := hfound [] x happenings rfl
      obtain ⟨manifest, w', hact⟩ := StoreSync.act_eq hs e x w hfirst
      have hnoted := (SyncDevice.store s e).act_noted x.forStore w k
      simp only [hact, e.deed_forStore x w hfirst k] at hnoted
      obtain ⟨manifest', w'', hrest⟩ := ih
        { e with guard := (e.guard.meet e.device e.maxTextBytes x).2, manifest } w'
        ((e.guard.meet e.device e.maxTextBytes x).1.deed (some x.text) k)
        fun before y rest heq => by
          have hlater := hfound (x :: before) y rest (congrArg (x :: ·) heq)
          simp only [List.map_cons, SyncDevice.run, hact] at hlater
          exact hlater
      exact ⟨manifest', w'',
        by simp only [List.map_cons, SyncDevice.run, hnoted, hrest, EchoGuard.meetAll]⟩

/-- A change that is too long or an echo is left alone. -/
theorem SyncDevice.takeLocal_of_left {σ : Type} (d : SyncDevice σ) (now : Timestamp)
    (itemId : Uuid) (text : String) (w : σ)
    (h : d.maxTextBytes < text.utf8ByteSize ∨ d.guard.isEcho now.toInt) :
    d.takeLocal now itemId text w =
      (.ok (if d.maxTextBytes < text.utf8ByteSize then .tooLarge else .remoteEcho), d, w) := by
  refine takeLocal_of_error ?_ itemId w
  rw [EchoGuard.judge_eq]
  split
  · rfl
  · next hsize => rw [if_pos (h.resolve_left hsize)]

/-- **Both ways of sync decide alike**: take a device with any settings and a guard in any state,
and let it sync through a relay or through a store, neither of which fails; nor does the
clipboard.  Let anything happen, at any times, where a device that syncs through the store is
sent of each update a pointer of its room that leads to the text.  Then either way each thing
is answered in the same manner, and never with a failure: each change with the same outcome,
and each update with whether it was written.  Either way the device publishes the same texts,
by hash and time, which are those whose outcome says so, and writes the same texts to its
clipboard, and ends with the same guard.  And whatever fails or does not, a change that is too
long or an echo leaves the device as it was, with its guard. -/
theorem sync_alike {σ τ : Type} {s : RelaySync.Surroundings σ} {t : StoreSync.Surroundings τ}
    (hs : s.Succeed) (ht : t.Succeed) (c : DeviceSettings) (guard : EchoGuard)
    (happenings : List Happening) (w : σ) (w' : τ)
    (hfound : ∀ before x rest, happenings = before ++ x :: rest →
      StoreSync.Finds t c.roomToJoin.1 ((SyncDevice.store t (.ofSettings c guard)).run
        (before.map Happening.forStore) w').2.2 x) :
    let relay := SyncDevice.relay s (.ofSettings c guard)
    let store := SyncDevice.store t (.ofSettings c guard)
    let ranRelay := relay.run (happenings.map Happening.forRelay) w
    let ranStore := store.run (happenings.map Happening.forStore) w'
    let deeds := relay.deeds (happenings.map Happening.forRelay) w
    ranRelay.1 = ranStore.1 ∧
    (∀ entry ∈ ranRelay.1, entry.Succeeded) ∧
    deeds = store.deeds (happenings.map Happening.forStore) w' ∧
    deeds.published = attempts ranRelay.1 ∧
    deeds.written = happenings.filterMap (Happening.foreign? c.deviceId) ∧
    ranRelay.2.1.guard = ranStore.2.1.guard ∧
    ∀ {ρ : Type} (d : SyncDevice ρ) now itemId text v,
      d.maxTextBytes < text.utf8ByteSize ∨ d.guard.isEcho now.toInt →
      d.takeLocal now itemId text v =
        (.ok (if d.maxTextBytes < text.utf8ByteSize then .tooLarge else .remoteEcho), d, v) := by
  intro relay store ranRelay ranStore deeds
  obtain ⟨_, hrelay⟩ := RelaySync.run_eq hs (.ofSettings c guard) happenings w {}
  obtain ⟨manifest, _, hstore⟩ := StoreSync.run_eq ht (.ofSettings c guard) happenings w' {} hfound
  obtain ⟨hentries, hguard, hdeeds⟩ := SyncDevice.run_of_noted hrelay
  obtain ⟨hentries', hguard', hdeeds'⟩ := SyncDevice.run_of_noted hstore
  obtain ⟨hsucceeded, hpublished, hwritten⟩ :=
    guard.meetAll_spec c.deviceId c.maxTextBytes {} happenings
  refine ⟨hentries.trans hentries'.symm, ?_, hdeeds.trans hdeeds'.symm, ?_,
    (congrArg Deeds.written hdeeds).trans hwritten, hguard.trans hguard'.symm,
    SyncDevice.takeLocal_of_left⟩
  · rw [hentries]
    exact hsucceeded
  · calc deeds.published
      _ = (guard.meetAll c.deviceId c.maxTextBytes {} happenings).2.2.published :=
        congrArg Deeds.published hdeeds
      _ = attempts (guard.meetAll c.deviceId c.maxTextBytes {} happenings).1 := hpublished
      _ = attempts ranRelay.1 := congrArg attempts hentries.symm

open Relay in
/-- Either way a device writes a plan from another one to its clipboard, takes that for an echo,
and publishes a note of its own once. -/
theorem sync_alike_home :
    let plan : TextChange := ⟨note.clientItemId, 990, "plan", textHash "plan"⟩
    let pointer : Pointer :=
      { roomId := "home", origin := note.clientItemId, time := 990, objectKey := "plan"
        providerFileId := some "plan", contentHash := textHash "plan", sizeBytes := 4
        contentType := "text" }
    let happenings : List Happening :=
      [.updated 1000 plan pointer, .changed 1600 note.clientItemId "plan",
        .changed 1601 note.clientItemId "note", .changed 5000 note.clientItemId "note"]
    let c : DeviceSettings := { roomId := "home", deviceId := note.deviceId }
    let relay : SyncDevice Unit :=
      .relay ⟨fun _ w => (.ok (), w), fun _ w => (.ok (), w)⟩ (.ofSettings c {})
    let store := SyncDevice.store StoreSync.Pair.inMemory (.ofSettings c {})
    let files : Table String String := Table.insert ∅ "plan" "plan"
    let deeds : Deeds := { published := [(1601, textHash "note")], written := ["plan"] }
    relay.deeds (happenings.map Happening.forRelay) () = deeds ∧
      store.deeds (happenings.map Happening.forStore) (files, ⟨"home", []⟩) = deeds := by
  intro plan pointer happenings c relay store files deeds
  have hrelay : relay.deeds (happenings.map Happening.forRelay) () = deeds := by decide +kernel
  have hfound : ∀ before x rest, happenings = before ++ x :: rest → StoreSync.Finds
      StoreSync.Pair.inMemory c.roomToJoin.1
      (store.run (before.map Happening.forStore) (files, ⟨"home", []⟩)).2.2 x := by
    rintro (_ | ⟨_, before⟩) x rest heq
    · have hx := (List.cons.inj heq).1
      subst hx
      have htext : "text".map Char.toLower = "text" := by decide +kernel
      exact ⟨rfl, rfl, htext, "plan", by decide +kernel, _, rfl⟩
    · -- the others are changes, which need no pointer
      have hx : x ∈ happenings.tail := by
        rw [heq]
        exact List.mem_append_right before List.mem_cons_self
      obtain rfl | rfl | rfl := by simpa [happenings] using hx
      all_goals trivial
  have hs : RelaySync.Surroundings.Succeed (σ := Unit)
      ⟨fun _ w => (.ok (), w), fun _ w => (.ok (), w)⟩ :=
    ⟨fun _ w => ⟨w, rfl⟩, fun _ w => ⟨w, rfl⟩⟩
  have ht : StoreSync.Pair.inMemory.Succeed :=
    ⟨fun _ _ _ => ⟨_, _, rfl⟩, fun _ w => ⟨w, rfl⟩, fun _ w => ⟨w, rfl⟩⟩
  obtain ⟨-, -, halike, -⟩ := sync_alike hs ht c {} happenings () (files, ⟨"home", []⟩) hfound
  exact ⟨hrelay, halike.symm.trans hrelay⟩

end ClipRelay
