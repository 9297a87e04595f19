import ClipRelay.Proofs.Device.ManifestLists
import ClipRelay.Proofs.Device.PointerSync
import Mathlib.Logic.Function.Basic

/-!
# ClipRelay.Proofs.Device.SharedManifest

Two devices that write one manifest.

A device loads the manifest once and from then on goes by its own copy
(`StoreSync.goesBy`), which it changes and saves whole.  So it never learns what the other
device records later (`Recorded.missed`), and its next save takes that out again: what is
in store is what the last device to save knows of (`Pair.known`), not the most recent items of
both (`Pair.mostRecent`).

The invariant of a run (`Pair.Consistent`) says this of both copies and of the store.  A
device that has not loaded the manifest yet has missed nothing, as all entries until then
come from the other one, which saved every entry it knew.
-/

namespace ClipRelay

namespace StoreSync

variable {σ : Type}

/-! ## A store of manifests that works -/

/-- A store gives the manifest of a room that was saved last, `content`. -/
structure ManifestAccess.Works (m : ManifestAccess σ) (room : String) (content : σ → Manifest) :
    Prop where
  load : ∀ w, (m.load room w).1 = .ok (content w)
  content_load : ∀ w, content (m.load room w).2 = content w
  save : ∀ manifest w, manifest.roomId = room → (m.save manifest w).1 = .ok ()
  content_save : ∀ manifest w, manifest.roomId = room → content (m.save manifest w).2 = manifest

/-- A device has a store of manifests that works, and nothing else that it does to its
surroundings changes the manifest of the room. -/
structure Surroundings.Shares (s : Surroundings σ) (m : ManifestAccess σ) (room : String)
    (content : σ → Manifest) : Prop where
  manifests : s.manifests = some m
  works : m.Works room content
  upload : ∀ objectKey text w, content (s.upload objectKey text w).2 = content w
  download : ∀ fileId w, content (s.download fileId w).2 = content w
  publish : ∀ p w, content (s.publish p w).2 = content w
  writeClipboard : ∀ text w, content (s.writeClipboard text w).2 = content w

/-! ## What one device does to the manifest -/

/-- The manifest that a device goes by: its own once it has loaded one, the one in store
before. -/
def goesBy (content : σ → Manifest) (e : StoreSync) (w : σ) : Manifest :=
  e.manifest.getD (content w)

/-- The pointer that a local change is published under, if it is published. -/
def published? (s : Surroundings σ) (now : Timestamp) (text : String) (e : StoreSync) (w : σ) :
    Option Pointer :=
  match (e.guard.judge e.maxTextBytes now text).1 with
  | .error _ => none
  | .ok hash =>
    match s.upload (textObjectKey e.roomId now e.device hash) text w with
    | (.error _, _) => none
    | (.ok stored, w) =>
      let pointer := e.pointerTo now hash stored
      match s.publish pointer w with
      | (.error _, _) => none
      | (.ok (), _) => some pointer

section
variable {s : Surroundings σ} {m : ManifestAccess σ} {room : String} {content : σ → Manifest}
  {e : StoreSync} {w : σ} {now : Timestamp} {text : String}

theorem withManifest_of_works (h : m.Works room content) (hroom : e.roomId = room) :
    ∃ w', e.withManifest m w = (.ok (e.goesBy content w),
        { e with manifest := some (e.goesBy content w) }, w') ∧ content w' = content w := by
  cases hloaded : e.manifest with
  | some manifest =>
      refine ⟨w, ?_, rfl⟩
      simp only [withManifest, goesBy, hloaded, Option.getD_some]
      rw [← hloaded]
  | none =>
      have hload := h.load w
      have hcontent := h.content_load w
      rw [← hroom] at hload hcontent
      cases hanswer : m.load e.roomId w with
      | mk result w' =>
          rw [hanswer] at hload hcontent
          cases hload
          exact ⟨w', by simp only [withManifest, goesBy, hloaded, hanswer, Option.getD_none],
            hcontent⟩

/-- A device lists the manifest that it goes by, and goes by it from then on. -/
theorem history_of_shares (h : s.Shares m room content) (hroom : e.roomId = room) :
    ∃ w', e.history s w = (.ok (e.goesBy content w).toHistory,
        { e with manifest := some (e.goesBy content w) }, w') ∧ content w' = content w := by
  obtain ⟨w', hload, hcontent⟩ := withManifest_of_works (w := w) h.works hroom
  exact ⟨w', by simp only [history, h.manifests, hload], hcontent⟩

/-- A device records an item in the manifest that it goes by, and saves this one. -/
theorem recordText_of_shares (h : s.Shares m room content) (hroom : e.roomId = room)
    (hown : (e.goesBy content w).roomId = room) (p : Pointer) (text : String) :
    let manifest := (e.goesBy content w).record manifestSize (entry p text)
    ∃ w', e.recordText s p text w = (.ok (), { e with manifest := some manifest }, w') ∧
      content w' = manifest := by
  intro manifest
  obtain ⟨w', hload, -⟩ := withManifest_of_works (w := w) h.works hroom
  have hsave := h.works.save manifest w' hown
  refine ⟨(m.save manifest w').2, ?_, h.works.content_save manifest w' hown⟩
  simp only [recordText, h.manifests, hload]
  rw [← hsave]

theorem exists_of_published? {p : Pointer} (hp : e.published? s now text w = some p) :
    ∃ hash stored w' w'', (e.guard.judge e.maxTextBytes now text).1 = .ok hash ∧
      s.upload (textObjectKey e.roomId now e.device hash) text w = (.ok stored, w') ∧
      p = e.pointerTo now hash stored ∧ s.publish p w' = (.ok (), w'') := by
  unfold published? at hp
  split at hp
  · cases hp
  · next hash hpass =>
    split at hp
    · cases hp
    · next stored w' hupload =>
      dsimp only at hp
      split at hp
      · cases hp
      · next w'' hpublish =>
        cases hp
        exact ⟨hash, stored, w', w'', hpass, hupload, rfl, hpublish⟩

/-- A change that is published is recorded in the manifest that the device goes by. -/
theorem takeLocal_of_published? (h : s.Shares m room content) (hroom : e.roomId = room)
    (hown : (e.goesBy content w).roomId = room) {p : Pointer}
    (hp : e.published? s now text w = some p) :
    let manifest := (e.goesBy content w).record manifestSize (entry p text)
    ∃ guard w', e.takeLocal s now text w =
        (.ok .published, { e with guard, manifest := some manifest }, w') ∧
      content w' = manifest := by
  obtain ⟨hash, stored, w', w'', hpass, hupload, rfl, hpublish⟩ := exists_of_published? hp
  have hcontent : content w'' = content w := by
    have hafter := h.publish (e.pointerTo now hash stored) w'
    have hbefore := h.upload (textObjectKey e.roomId now e.device hash) text w
    rw [hpublish] at hafter
    rw [hupload] at hbefore
    exact hafter.trans hbefore
  have hsame : e.goesBy content w'' = e.goesBy content w := congrArg e.manifest.getD hcontent
  rw [← hsame] at hown ⊢
  obtain ⟨w₃, hrecord, hsaved⟩ := recordText_of_shares (w := w'')
    (e := { e with guard := (e.guard.judge e.maxTextBytes now text).2 }) h hroom hown
    (e.pointerTo now hash stored) text
  exact ⟨_, w₃, by rw [takeLocal_of_published hpass hupload hpublish, hrecord]; rfl, hsaved⟩

/-- A change that is not published leaves all manifests alone. -/
theorem takeLocal_of_not_published (h : s.Shares m room content)
    (hp : e.published? s now text w = none) :
    (e.takeLocal s now text w).1 ≠ .ok .published ∧
      (∃ guard, (e.takeLocal s now text w).2.1 = { e with guard }) ∧
      content (e.takeLocal s now text w).2.2 = content w := by
  have hjudge := e.guard.judge_ne_published e.maxTextBytes now text
  cases hverdict : e.guard.judge e.maxTextBytes now text with
  | mk verdict guard =>
      rw [hverdict] at hjudge
      cases verdict with
      | error why =>
          simp only [takeLocal, hverdict]
          refine ⟨fun hwhy => hjudge ?_, ⟨guard, rfl⟩, trivial⟩
          exact congrArg Except.error (Except.ok.inj hwhy)
      | ok hash =>
          have huploaded := h.upload (textObjectKey e.roomId now e.device hash) text w
          rcases hupload : s.upload (textObjectKey e.roomId now e.device hash) text w with
            ⟨x | stored, w'⟩
          · rw [hupload] at huploaded
            simp only [takeLocal, hverdict, hupload]
            exact ⟨(fun hok => by cases hok), ⟨guard, rfl⟩, huploaded⟩
          · rw [hupload] at huploaded
            have hpublished := h.publish (e.pointerTo now hash stored) w'
            rcases hpublish : s.publish (e.pointerTo now hash stored) w' with ⟨x | _, w''⟩
            · have hpublish' : s.publish ({ e with guard }.pointerTo now hash stored) w' =
                  (.error x, w'') := hpublish
              rw [hpublish] at hpublished
              simp only [takeLocal, hverdict, hupload, hpublish']
              exact ⟨(fun hok => by cases hok), ⟨guard, rfl⟩, hpublished.trans huploaded⟩
            · simp only [published?, hverdict, hupload, hpublish] at hp
              cases hp

/-- Nothing that comes from the relay changes a manifest. -/
theorem takeEvent_of_shares (h : s.Shares m room content) (now : Timestamp) (event : Event) :
    (∃ guard, (e.takeEvent s now event w).1 = { e with guard }) ∧
      content (e.takeEvent s now event w).2 = content w := by
  cases event with
  | pointerChanged p =>
      cases hfetch : e.fileToFetch? p with
      | none =>
          simp only [takeEvent, takeRemote, hfetch]
          exact ⟨⟨e.guard, rfl⟩, trivial⟩
      | some fileId =>
          have hdownloaded := h.download fileId w
          rcases hdownload : s.download fileId w with ⟨x | text, w'⟩
          · rw [hdownload] at hdownloaded
            simp only [takeEvent, takeRemote, hfetch, hdownload]
            exact ⟨⟨e.guard, rfl⟩, hdownloaded⟩
          · rw [hdownload] at hdownloaded
            have hwritten := h.writeClipboard text w'
            rcases hwrite : s.writeClipboard text w' with ⟨x | _, w''⟩
            all_goals
              rw [hwrite] at hwritten
              simp only [takeEvent, takeRemote, hfetch, hdownload, hwrite]
              exact ⟨⟨_, rfl⟩, hwritten.trans hdownloaded⟩
  | _ => exact ⟨⟨e.guard, rfl⟩, rfl⟩

end

/-! ## Two devices -/

/-- Two devices, and what both act on. -/
structure Pair (σ : Type) where
  engines : Bool → StoreSync
  world : σ

namespace Pair

/-- What happens at one of two devices. -/
inductive Step where
  /-- Its clipboard changes. -/
  | changed (d : Bool) (now : Timestamp) (text : String)
  /-- It is asked for its history. -/
  | asked (d : Bool)
  /-- It hears from the relay. -/
  | heard (d : Bool) (now : Timestamp) (event : Event)

/-- A published text. -/
structure Recorded where
  device : Bool
  entry : ManifestEntry
  /-- Whether the other device had loaded the manifest by then. -/
  missed : Bool

/-- The devices after one of them did something. -/
def put (p : Pair σ) (d : Bool) (after : StoreSync × σ) : Pair σ :=
  ⟨Function.update p.engines d after.1, after.2⟩

theorem engines_put_self (p : Pair σ) (d : Bool) (after : StoreSync × σ) :
    (p.put d after).engines d = after.1 := Function.update_self ..

theorem engines_put_of_ne {d d' : Bool} (h : d' ≠ d) (p : Pair σ) (after : StoreSync × σ) :
    (p.put d after).engines d' = p.engines d' := Function.update_of_ne h ..

/-- The devices after a step, where each acts on its own surroundings. -/
def step (around : Bool → Surroundings σ) (p : Pair σ) : Step → Pair σ
  | .changed d now text => p.put d ((p.engines d).takeLocal (around d) now text p.world).2
  | .asked d => p.put d ((p.engines d).history (around d) p.world).2
  | .heard d now event => p.put d ((p.engines d).takeEvent (around d) now event p.world)

/-- What a step publishes. -/
def recorded? (around : Bool → Surroundings σ) (p : Pair σ) : Step → Option Recorded
  | .changed d now text =>
    ((p.engines d).published? (around d) now text p.world).map fun pointer =>
      ⟨d, entry pointer text, (p.engines !d).manifest.isSome⟩
  | _ => none

/-- The devices after some steps. -/
def run (around : Bool → Surroundings σ) (p : Pair σ) (steps : List Step) : Pair σ :=
  steps.foldl (step around) p

/-- What is published in some steps, newest first. -/
def log (around : Bool → Surroundings σ) (p : Pair σ) : List Step → List Recorded
  | [] => []
  | first :: steps =>
    log around (p.step around first) steps ++ (p.recorded? around first).toList

theorem log_append (around : Bool → Surroundings σ) (p : Pair σ) (steps steps' : List Step) :
    p.log around (steps ++ steps') =
      (p.run around steps).log around steps' ++ p.log around steps := by
  induction steps generalizing p with
  | nil => exact (List.append_nil _).symm
  | cons first steps ih =>
      rw [List.cons_append, log, ih, log, List.append_assoc]
      rfl

/-! ## What the devices know of -/

/-- Whether a device knows of a published text: it published the text itself, or loaded the
manifest later. -/
def Recorded.knownTo (d : Bool) (x : Recorded) : Bool := x.device == d || !x.missed

/-- The most recent items that a device knows of, with those that were there at first. -/
def known (d : Bool) (log : List Recorded) (atFirst : List ManifestEntry) : List ManifestEntry :=
  Manifest.newest manifestSize ((log.filter (·.knownTo d)).map (·.entry) ++ atFirst)

/-- The most recent items of both devices, with those that were there at first. -/
def mostRecent (log : List Recorded) (atFirst : List ManifestEntry) : List ManifestEntry :=
  Manifest.newest manifestSize (log.map (·.entry) ++ atFirst)

/-- To record what a device knows of adds it to that. -/
theorem record_known {d : Bool} {x : Recorded} (h : x.knownTo d) (room : String)
    (log : List Recorded) (atFirst : List ManifestEntry) :
    Manifest.record manifestSize x.entry ⟨room, known d log atFirst⟩ =
      ⟨room, known d (x :: log) atFirst⟩ := by
  rw [known, known, List.filter_cons_of_pos h]
  exact Manifest.record_newest manifestSize x.entry room _

theorem known_cons_of_not_knownTo {d : Bool} {x : Recorded} (h : ¬ x.knownTo d)
    (log : List Recorded) (atFirst : List ManifestEntry) :
    known d (x :: log) atFirst = known d log atFirst := by
  rw [known, List.filter_cons_of_neg h, known]

theorem known_of_none_missed {d : Bool} {log : List Recorded} (h : ∀ x ∈ log, x.missed = false)
    (atFirst : List ManifestEntry) : known d log atFirst = mostRecent log atFirst := by
  have hall : log.filter (·.knownTo d) = log :=
    List.filter_eq_self.mpr fun x hx => by
      rw [Recorded.knownTo, h x hx, Bool.not_false, Bool.or_true]
  rw [known, hall, mostRecent]

/-- Where each id is there once, what a device knows of has no id of anything else. -/
theorem knownTo_of_mem_known {d : Bool} {log : List Recorded} {atFirst : List ManifestEntry}
    (hids : ((log.map (·.entry) ++ atFirst).map (·.id)).Nodup) {x : Recorded} (hx : x ∈ log)
    (hid : x.entry.id ∈ (known d log atFirst).map (·.id)) : x.knownTo d := by
  obtain ⟨i, hi, hsame⟩ := List.mem_map.mp hid
  rw [List.map_append, List.map_map, List.nodup_append] at hids
  obtain ⟨hlog, -, hapart⟩ := hids
  rcases List.mem_append.mp (Manifest.mem_of_mem_newest hi) with hi | hi
  · obtain ⟨y, hy, rfl⟩ := List.mem_map.mp hi
    have hyx : y = x := List.inj_on_of_nodup_map hlog (List.mem_filter.mp hy).1 hx hsame
    exact hyx ▸ (List.mem_filter.mp hy).2
  · exact absurd hsame.symm (hapart _ (List.mem_map.mpr ⟨x, hx, rfl⟩) _
      (List.mem_map.mpr ⟨i, hi, rfl⟩))

/-- What is left out behind the first `n` does not show among them. -/
theorem take_map_filter_append {α β : Type} {keep : α → Bool} {f : α → β} (l : List α) (r : List β)
    (n : Nat) (h : ∀ x ∈ l, ¬ keep x → f x ∉ (l.map f ++ r).take n) :
    ((l.filter keep).map f ++ r).take n = (l.map f ++ r).take n := by
  induction l generalizing n with
  | nil => rfl
  | cons x l ih =>
      cases n with
      | zero => rfl
      | succ n =>
          rw [List.map_cons, List.cons_append, List.take_succ_cons] at h ⊢
          by_cases hkeep : keep x
          · rw [List.filter_cons_of_pos hkeep, List.map_cons, List.cons_append,
              List.take_succ_cons, ih n fun y hy hnot hmem => ?_]
            exact h y (List.mem_cons_of_mem x hy) hnot (List.mem_cons_of_mem _ hmem)
          · exact absurd List.mem_cons_self (h x List.mem_cons_self hkeep)

/-- Where each id is there once, a device knows of the most recent items if none of these is
unknown to it. -/
theorem known_eq_mostRecent {d : Bool} {log : List Recorded} {atFirst : List ManifestEntry}
    (hids : ((log.map (·.entry) ++ atFirst).map (·.id)).Nodup)
    (h : ∀ x ∈ log, ¬ x.knownTo d → x.entry ∉ mostRecent log atFirst) :
    known d log atFirst = mostRecent log atFirst := by
  have hknown : (((log.filter (·.knownTo d)).map (·.entry) ++ atFirst).map (·.id)).Nodup :=
    hids.sublist (((List.filter_sublist.map _).append_right _).map _)
  rw [mostRecent, Manifest.newest_of_nodup hids] at h ⊢
  rw [known, Manifest.newest_of_nodup hknown]
  exact take_map_filter_append log atFirst manifestSize h

/-! ## The invariant -/

section
variable {around : Bool → Surroundings σ} {m : Bool → ManifestAccess σ} {room : String}
  {content : σ → Manifest} {atFirst : List ManifestEntry} {p : Pair σ} {log : List Recorded}

/-- How two devices stand after a log was published. -/
structure Consistent (room : String) (content : σ → Manifest) (atFirst : List ManifestEntry)
    (log : List Recorded) (p : Pair σ) : Prop where
  rooms : ∀ d, (p.engines d).roomId = room
  loaded : ∀ d manifest, (p.engines d).manifest = some manifest →
    manifest = ⟨room, known d log atFirst⟩
  /-- Until a device loads the manifest, the other one alone publishes, and none of it is
  missed. -/
  fresh : ∀ d, (p.engines d).manifest = none → ∀ x ∈ log, x.device ≠ d ∧ x.missed = false
  /-- The store has what the last device to publish knows of. -/
  saved : ∀ d, (∀ x ∈ log.head?, x.device = d) → content p.world = ⟨room, known d log atFirst⟩

namespace Consistent

theorem start (hrooms : ∀ d, (p.engines d).roomId = room)
    (hfresh : ∀ d, (p.engines d).manifest = none) (hstart : content p.world = ⟨room, atFirst⟩)
    (hkept : Manifest.newest manifestSize atFirst = atFirst) :
    Consistent room content atFirst [] p where
  rooms := hrooms
  loaded d manifest h := by
    rw [hfresh d] at h
    cases h
  fresh := nofun
  saved d _ := by
    rw [hstart]
    exact congrArg (Manifest.mk room) hkept.symm

/-- Loaded or not, a device goes by what it knows of. -/
theorem goesBy_eq (h : Consistent room content atFirst log p) (d : Bool) :
    (p.engines d).goesBy content p.world = ⟨room, known d log atFirst⟩ := by
  cases hloaded : (p.engines d).manifest with
  | some manifest => rw [goesBy, hloaded, h.loaded d manifest hloaded, Option.getD_some]
  | none =>
      have hother : ∀ x ∈ log.head?, x.device = !d := fun x hx =>
        Bool.eq_not.mpr (h.fresh d hloaded x (List.mem_of_head? hx)).1
      have hnone : ∀ x ∈ log, x.missed = false := fun x hx => (h.fresh d hloaded x hx).2
      rw [goesBy, hloaded, Option.getD_none, h.saved _ hother, known_of_none_missed hnone,
        known_of_none_missed hnone]

/-- A device may load the manifest at any time. -/
theorem put (h : Consistent room content atFirst log p) {d : Bool} {after : StoreSync × σ}
    (hroom : after.1.roomId = room)
    (hloaded : ∀ manifest, after.1.manifest = some manifest →
      manifest = ⟨room, known d log atFirst⟩)
    (hfresh : after.1.manifest = none → (p.engines d).manifest = none)
    (hcontent : content after.2 = content p.world) :
    Consistent room content atFirst log (p.put d after) where
  rooms d' := by
    by_cases hd : d' = d
    · subst hd; rw [engines_put_self, hroom]
    · rw [engines_put_of_ne hd, h.rooms]
  loaded d' manifest hmanifest := by
    by_cases hd : d' = d
    · subst hd; rw [engines_put_self] at hmanifest; exact hloaded _ hmanifest
    · rw [engines_put_of_ne hd] at hmanifest; exact h.loaded d' _ hmanifest
  fresh d' hnone := by
    by_cases hd : d' = d
    · subst hd; rw [engines_put_self] at hnone; exact h.fresh d' (hfresh hnone)
    · rw [engines_put_of_ne hd] at hnone; exact h.fresh d' hnone
  saved d' hlast := hcontent.trans (h.saved d' hlast)

/-- A device that publishes saves what it knows of, with the new item.  The other one goes on
by what it had, or has not loaded anything yet. -/
theorem put_recorded (h : Consistent room content atFirst log p) {x : Recorded} {e : StoreSync}
    {w : σ} (hmissed : x.missed = (p.engines !x.device).manifest.isSome) (hroom : e.roomId = room)
    (hloaded : e.manifest = some ⟨room, known x.device (x :: log) atFirst⟩)
    (hcontent : content w = ⟨room, known x.device (x :: log) atFirst⟩) :
    Consistent room content atFirst (x :: log) (p.put x.device (e, w)) where
  rooms d := by
    by_cases hd : d = x.device
    · subst hd; rw [engines_put_self, hroom]
    · rw [engines_put_of_ne hd, h.rooms]
  loaded d manifest hmanifest := by
    by_cases hd : d = x.device
    · subst hd
      rw [engines_put_self, hloaded] at hmanifest
      exact (Option.some.inj hmanifest).symm
    · rw [engines_put_of_ne hd] at hmanifest
      rw [← Bool.eq_not.mpr hd, hmanifest, Option.isSome_some] at hmissed
      have hunknown : ¬ x.knownTo d := by
        rw [Recorded.knownTo, hmissed, Bool.not_true, Bool.or_false, beq_iff_eq]
        exact Ne.symm hd
      rw [known_cons_of_not_knownTo hunknown]
      exact h.loaded d manifest hmanifest
  fresh d hnone := by
    by_cases hd : d = x.device
    · subst hd
      rw [engines_put_self, hloaded] at hnone
      cases hnone
    · rw [engines_put_of_ne hd] at hnone
      rw [← Bool.eq_not.mpr hd, hnone, Option.isSome_none] at hmissed
      rw [List.forall_mem_cons]
      exact ⟨⟨Ne.symm hd, hmissed⟩, h.fresh d hnone⟩
  saved d hlast := by
    have hd : x.device = d := hlast x rfl
    rw [← hd]
    exact hcontent

/-- A step keeps the invariant. -/
theorem step (hshares : ∀ d, (around d).Shares (m d) room content)
    (h : Consistent room content atFirst log p) (s : Step) :
    Consistent room content atFirst ((p.recorded? around s).toList ++ log) (p.step around s) := by
  have hown : ∀ d, ((p.engines d).goesBy content p.world).roomId = room := fun d => by
    rw [h.goesBy_eq d]
  cases s with
  | asked d =>
      obtain ⟨w', hhistory, hcontent⟩ := history_of_shares (w := p.world) (hshares d) (h.rooms d)
      rw [Pair.step, hhistory]
      refine h.put (h.rooms d) (fun manifest hmanifest => ?_) nofun hcontent
      rw [← Option.some.inj hmanifest, h.goesBy_eq d]
  | heard d now event =>
      obtain ⟨⟨guard, hengine⟩, hcontent⟩ :=
        takeEvent_of_shares (e := p.engines d) (w := p.world) (hshares d) now event
      refine h.put ?_ ?_ ?_ hcontent <;> rw [hengine]
      exacts [h.rooms d, h.loaded d, id]
  | changed d now text =>
      cases hp : (p.engines d).published? (around d) now text p.world with
      | none =>
          obtain ⟨-, ⟨guard, hengine⟩, hcontent⟩ := takeLocal_of_not_published (hshares d) hp
          rw [recorded?, hp]
          refine h.put ?_ ?_ ?_ hcontent <;> rw [hengine]
          exacts [h.rooms d, h.loaded d, id]
      | some pointer =>
          obtain ⟨guard, w', htaken, hcontent⟩ :=
            takeLocal_of_published? (hshares d) (h.rooms d) (hown d) hp
          let x : Recorded := ⟨d, entry pointer text, (p.engines !d).manifest.isSome⟩
          have hknown : x.knownTo d := by
            simp only [x, Recorded.knownTo, BEq.rfl, Bool.true_or]
          have hrecord := record_known hknown room log atFirst
          rw [h.goesBy_eq d, hrecord] at htaken hcontent
          rw [Pair.step, recorded?, hp, htaken]
          exact h.put_recorded (x := x) rfl (h.rooms d) rfl hcontent

/-- A run keeps the invariant. -/
theorem run (hshares : ∀ d, (around d).Shares (m d) room content)
    (h : Consistent room content atFirst log p) (steps : List Step) :
    Consistent room content atFirst (p.log around steps ++ log) (p.run around steps) := by
  induction steps generalizing p log with
  | nil => exact h
  | cons s steps ih =>
      rw [Pair.log, List.append_assoc]
      exact ih (h.step hshares s)

end Consistent

/-- A device lists what it knows of. -/
theorem Consistent.history (hshares : ∀ d, (around d).Shares (m d) room content)
    (h : Consistent room content atFirst log p) (d : Bool) :
    ((p.engines d).history (around d) p.world).1 =
      .ok (Manifest.toHistory ⟨room, known d log atFirst⟩) := by
  obtain ⟨w', hhistory, -⟩ := history_of_shares (w := p.world) (hshares d) (h.rooms d)
  rw [hhistory, h.goesBy_eq d]

/-- The manifest in store lists the most recent items of both devices, and so does either
device. -/
def UpToDate (around : Bool → Surroundings σ) (room : String) (content : σ → Manifest)
    (atFirst : List ManifestEntry) (log : List Recorded) (p : Pair σ) : Prop :=
  content p.world = ⟨room, mostRecent log atFirst⟩ ∧
    ∀ d, ((p.engines d).history (around d) p.world).1 =
      .ok (Manifest.toHistory ⟨room, mostRecent log atFirst⟩)

theorem UpToDate.items_eq (h : p.UpToDate around room content atFirst log) :
    (content p.world).items = mostRecent log atFirst := congrArg Manifest.items h.1

/-- **What becomes of a manifest that two devices share**: let two devices of a room start
with nothing loaded, over a store that gives the manifest that was saved last.  Whatever they
do, each time that one of them publishes a text, the manifest in store is what that device
knows of: all that it published itself, and what the other one published before it loaded the
manifest.  Either device lists what it knows of itself.  This is what both have published most
recently as long as neither has missed anything; and where no two items have one id, exactly
if no item that either has missed is among the most recent ones. -/
theorem upToDate_iff_none_missed (hshares : ∀ d, (around d).Shares (m d) room content)
    (hrooms : ∀ d, (p.engines d).roomId = room) (hfresh : ∀ d, (p.engines d).manifest = none)
    (hstart : content p.world = ⟨room, atFirst⟩)
    (hkept : Manifest.newest manifestSize atFirst = atFirst) (steps : List Step) {d : Bool}
    {now : Timestamp} {text : String}
    (hpublished : (((p.run around steps).engines d).takeLocal (around d) now text
      (p.run around steps).world).1 = .ok .published) :
    let steps' := steps ++ [.changed d now text]
    let after := p.run around steps'
    let log := p.log around steps'
    content after.world = ⟨room, known d log atFirst⟩ ∧
    (∀ d', ((after.engines d').history (around d') after.world).1 =
      .ok (Manifest.toHistory ⟨room, known d' log atFirst⟩)) ∧
    ((∀ x ∈ log, x.missed = false) → after.UpToDate around room content atFirst log) ∧
    (((log.map (·.entry) ++ atFirst).map (·.id)).Nodup →
      (after.UpToDate around room content atFirst log ↔
        ∀ x ∈ log, x.missed → x.entry ∉ mostRecent log atFirst)) := by
  intro steps' after log
  have h : Consistent room content atFirst log after := by
    have hrun := (Consistent.start hrooms hfresh hstart hkept).run hshares steps'
    rwa [List.append_nil] at hrun
  have hlast : ∀ x ∈ log.head?, x.device = d := by
    obtain ⟨pointer, hpointer⟩ : ∃ pointer, ((p.run around steps).engines d).published? (around d)
        now text (p.run around steps).world = some pointer := by
      refine Option.ne_none_iff_exists'.mp fun hnone => ?_
      exact (takeLocal_of_not_published (hshares d) hnone).1 hpublished
    have hlog : log = ⟨d, entry pointer text, ((p.run around steps).engines !d).manifest.isSome⟩ ::
        p.log around steps := by
      simp only [log, steps', log_append, Pair.log, recorded?, hpointer, Option.map_some,
        Option.toList_some, List.nil_append, List.singleton_append]
    rw [hlog]
    rintro x ⟨⟩
    rfl
  have hsaved := h.saved d hlast
  have hlisted := h.history hshares
  have hupToDate : (∀ d', known d' log atFirst = mostRecent log atFirst) →
      after.UpToDate around room content atFirst log := fun hknown =>
    ⟨by rw [hsaved, hknown], fun d' => by rw [hlisted, hknown]⟩
  refine ⟨hsaved, hlisted, fun hnone => hupToDate fun d' => known_of_none_missed hnone _,
    fun hids => ⟨fun hup x hx hmissed hrecent => ?_, fun hnone => hupToDate fun d' => ?_⟩⟩
  · -- the device that missed the item lists it nevertheless
    have hlists : Manifest.toHistory ⟨room, known (!x.device) log atFirst⟩ =
        Manifest.toHistory ⟨room, mostRecent log atFirst⟩ :=
      Except.ok.inj ((hlisted _).symm.trans (hup.2 _))
    have hid : x.entry.id ∈ (known (!x.device) log atFirst).map (·.id) := by
      have hmap := congrArg (List.map (·.id)) hlists
      simp only [Manifest.toHistory, List.map_map] at hmap
      exact hmap ▸ List.mem_map.mpr ⟨x.entry, hrecent, rfl⟩
    have hknown := knownTo_of_mem_known hids hx hid
    rw [Recorded.knownTo, hmissed, Bool.not_true, Bool.or_false, beq_iff_eq] at hknown
    exact (Bool.eq_not_self _).mp hknown
  · refine known_eq_mostRecent hids fun x hx hunknown => hnone x hx ?_
    rw [Recorded.knownTo, Bool.or_eq_true, Bool.not_eq_true'] at hunknown
    exact (Bool.not_eq_false _).mp fun hmissed => hunknown (.inr hmissed)

end

/-! ## Two devices at home -/

/-- The manifest of a room, kept in memory beside the files. -/
def manifestInMemory : ManifestAccess (Table String String × Manifest) where
  load _ w := (.ok w.2, w)
  save manifest w := (.ok (), w.1, manifest)

/-- The surroundings of a device that keeps files and a manifest in memory, where the relay
takes every pointer. -/
def inMemory : Surroundings (Table String String × Manifest) where
  upload objectKey text := (SharedStore.inMemory.upload objectKey text).onFirst
  download fileId := (SharedStore.inMemory.download fileId).onFirst
  publish _ w := (.ok (), w)
  writeClipboard _ w := (.ok (), w)
  manifests := some manifestInMemory

theorem shares_inMemory (room : String) : inMemory.Shares manifestInMemory room Prod.snd where
  manifests := rfl
  works := ⟨fun _ => rfl, fun _ => rfl, fun _ _ _ => rfl, fun _ _ _ => rfl⟩
  upload _ _ _ := rfl
  download _ _ := rfl
  publish _ _ := rfl
  writeClipboard _ _ := rfl

/-- Two devices of a room that starts without items. -/
def atHome : Pair (Table String String × Manifest) where
  engines d :=
    { device := bif d then Relay.note.clientItemId else Relay.note.deviceId
      roomId := "home"
      maxTextBytes := 65536
      guard := {} }
  world := (∅, .empty "home")

/-- The titles of the entries in a list. -/
def titles (items : List ManifestEntry) : List String := items.map (·.title)

/-- The first device publishes a text and then the second one does, which loads the manifest
for that.  The manifest lists both texts, but the first device does not. -/
theorem upToDate_iff_none_missed_home :
    let around := fun _ : Bool => inMemory
    let steps : List Step := [.changed false 1000 "a", .changed true 2000 "b"]
    let after := atHome.run around steps
    titles after.world.2.items = ["b", "a"] ∧
      ¬ after.UpToDate around "home" Prod.snd [] (atHome.log around steps) := by
  intro around steps after
  have hpublished : (((atHome.run around [.changed false 1000 "a"]).engines true).takeLocal
      inMemory 2000 "b" (atHome.run around [.changed false 1000 "a"]).world).1 =
        .ok .published := by
    decide +kernel
  have hshares : ∀ d, (around d).Shares manifestInMemory "home" Prod.snd := fun _ =>
    shares_inMemory "home"
  obtain ⟨-, -, -, hiff⟩ := upToDate_iff_none_missed (p := atHome) hshares (fun _ => rfl)
    (fun _ => rfl) rfl rfl [.changed false 1000 "a"] hpublished
  have hids :
      (((atHome.log around steps).map Recorded.entry ++ []).map ManifestEntry.id).Nodup := by
    decide +kernel
  have hmissed : ¬ ∀ x ∈ atHome.log around steps, x.missed →
      x.entry ∉ mostRecent (atHome.log around steps) [] := by
    decide +kernel
  exact ⟨by decide +kernel, fun hup => hmissed ((hiff hids).mp hup)⟩

/-- The first device publishes again.  The manifest loses what the second device published, which
is among the most recent items, and each device lists its own part of them. -/
theorem entry_lost_at_home :
    let around := fun _ : Bool => inMemory
    let steps : List Step :=
      [.changed false 1000 "a", .changed true 2000 "b", .changed false 3000 "c"]
    let after := atHome.run around steps
    let log := atHome.log around steps
    let listed := fun d => ((after.engines d).history inMemory after.world).1.toOption.map
      fun items => items.map (·.title)
    (atHome.engines false).device ≠ (atHome.engines true).device ∧
      titles (mostRecent log []) = ["c", "b", "a"] ∧ titles after.world.2.items = ["c", "a"] ∧
      listed false = some ["c", "a"] ∧ listed true = some ["b", "a"] ∧
      ¬ after.UpToDate around "home" Prod.snd [] log := by
  intro around steps after log listed
  have hrecent : titles (mostRecent log []) = ["c", "b", "a"] := by decide +kernel
  have hsaved : titles after.world.2.items = ["c", "a"] := by decide +kernel
  refine ⟨by decide, hrecent, hsaved, by decide +kernel, by decide +kernel, fun hup => ?_⟩
  have hlost := hup.items_eq
  rw [← hlost, hsaved] at hrecent
  exact absurd hrecent (by decide)

end Pair

end StoreSync

end ClipRelay
