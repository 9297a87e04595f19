import ClipRelay.Device.ManifestFolder
import ClipRelay.Proofs.Json.Lists
import ClipRelay.Proofs.Json.Utf8

/-!
# ClipRelay.Proofs.Device.ManifestFiles

What comes back of a manifest that is stored in a folder.

A manifest is read from its own text (`Manifest.ofBytes?_toBytes`), wherever that lies.  A folder
`Accepts` a name if a file can be written under it; to save a manifest takes two names, and where
both are accepted the manifest is there afterwards (`Manifest.load_saved`).

What a file holds need not be a manifest.  It is enough that it is text for the room to have a
manifest, if an empty one, and to go on from there (`Manifest.load_of_text`).
-/

namespace ClipRelay

open Json

/-! ## Manifests as text -/

theorem HistoryKind.reads (k : HistoryKind) :
    Reads .pretty ManifestEntry.kindReader (.string k.name) k := by
  cases k <;> exact reads_choice rfl

theorem Uuid.reads (u : Uuid) :
    Reads .pretty ManifestEntry.uuidReader (.string u.hyphenated) u := by
  intro gap rest depth hgap hends
  simp [ManifestEntry.uuidReader, reads_string u.hyphenated gap rest depth hgap hends,
    Uuid.parse?_hyphenated]

theorem ManifestEntry.reads (i : ManifestEntry) : Reads .pretty reader i.toJson i := by
  have hfinish : Draft.finish ⟨some i.id, some i.kind, some i.origin, some i.time, some i.title,
      some i.preview, some i.sizeBytes, some i.contentType, some i.contentHash,
      some i.providerFileId, some i.objectKey⟩ = some i := rfl
  refine Reads.record spaced_pretty ?_ hfinish
  refine .cons rfl rfl ((reads_string _).named _ _ _ _) ?_
  refine .cons rfl rfl (i.kind.reads.named _ _ _ _) ?_
  refine .cons rfl rfl (i.origin.reads.named _ _ _ _) ?_
  refine .cons rfl rfl ((reads_int64 _).named _ _ _ _) ?_
  refine .cons rfl rfl ((reads_string _).named _ _ _ _) ?_
  refine .cons rfl rfl ((reads_ofOption _).named _ _ _ _) ?_
  refine .cons rfl rfl ((reads_int64 _).named _ _ _ _) ?_
  refine .cons rfl rfl ((reads_string _).named _ _ _ _) ?_
  refine .cons rfl rfl ((reads_string _).named _ _ _ _) ?_
  refine .cons rfl rfl ((reads_ofOption _).named _ _ _ _) ?_
  refine .cons rfl rfl ((reads_ofOption _).named _ _ _ _) ?_
  exact .nil _

namespace Manifest

theorem reads (m : Manifest) : Reads .pretty reader m.toJson m := by
  have hitems : Reads .pretty (Reader.list ManifestEntry.reader)
      (.array (m.items.map ManifestEntry.toJson)) m.items :=
    Reads.list spaced_pretty fun i _ => i.reads
  refine Reads.record spaced_pretty ?_ (s := ⟨some m.roomId, some m.items⟩) rfl
  refine .cons rfl rfl ((reads_string _).named _ _ _ _) ?_
  refine .cons rfl rfl (hitems.named _ _ _ _) ?_
  exact .nil _

/-- A manifest is read from what is stored for it. -/
theorem ofBytes?_toBytes (m : Manifest) : ofBytes? m.toBytes = some m := by
  have hread : reader.whole m.toBytes = .ok m := m.reads.whole
  rw [ofBytes?, hread]
  rfl

/-- What is stored for a manifest is text. -/
theorem isText_toBytes (m : Manifest) : m.toBytes.IsText := isText_write spaced_pretty 0 _

end Manifest

/-! ## Files of a folder -/

namespace Folder

variable {f : Folder} {name : String} {bytes : Bytes}

/-- A folder takes a file under a name: the name is not too long, and no folder has it. -/
structure Accepts (f : Folder) (name : String) : Prop where
  fits : name.utf8ByteSize ≤ maxNameBytes
  free : f.get? name ≠ some .folder

/-- A folder has a file of this name with these bytes. -/
structure Holds (f : Folder) (name : String) (bytes : Bytes) : Prop where
  fits : name.utf8ByteSize ≤ maxNameBytes
  found : f.get? name = some (.file bytes)

theorem Holds.accepts (h : f.Holds name bytes) : f.Accepts name where
  fits := h.fits
  free hfolder := by
    rw [h.found] at hfolder
    cases hfolder

theorem Holds.read_eq (h : f.Holds name bytes) : f.read name = .ok (some bytes) := by
  rw [read, if_neg (Nat.not_lt.mpr h.fits), h.found]

theorem write_of_accepts (h : f.Accepts name) (bytes : Bytes) :
    f.write name bytes = .ok (f.insert name (.file bytes)) := by
  rw [write, if_neg (Nat.not_lt.mpr h.fits)]
  split
  · next hfolder => exact absurd hfolder h.free
  · rfl

theorem write_of_not_accepts (h : ¬f.Accepts name) (bytes : Bytes) :
    f.write name bytes = .error .io := by
  rw [write]
  split
  · rfl
  · next hfits =>
    split
    · rfl
    · next hfree => exact absurd ⟨Nat.not_lt.mp hfits, fun hfolder => hfree hfolder⟩ h

variable {old : String} {entry : FolderEntry}

theorem rename_of_accepts (hold : f.get? old = some entry) (h : f.Accepts name) :
    f.rename old name = .ok ((f.erase old).insert name entry) := by
  rw [rename, if_neg (Nat.not_lt.mpr h.fits), hold]
  cases hnew : f.get? name with
  | none => rfl
  | some taken =>
      cases taken with
      | file _ => rfl
      | folder => exact absurd hnew h.free

theorem rename_of_not_accepts (h : ¬f.Accepts name) (old : String) :
    f.rename old name = .error .io := by
  rw [rename]
  split
  · rfl
  · next hfits =>
    split
    · rfl
    · rfl
    · next hfree => exact absurd ⟨Nat.not_lt.mp hfits, fun hfolder => hfree hfolder⟩ h

end Folder

namespace Manifest

variable {f : Folder} {m : Manifest} {roomId : String}

/-! ## The two names of a room -/

/-- The file of a room is never the one that a room's manifest is first written to. -/
theorem fileName_ne_draftName (a b : String) : fileName a ≠ draftName b := by
  intro h
  have hfile : (fileName a).toList.getLast? = some 'n' := by
    rw [fileName, String.toList_append, List.getLast?_append]
    rfl
  have hdraft : (draftName b).toList.getLast? = some 'p' := by
    rw [draftName, String.toList_append, List.getLast?_append]
    rfl
  rw [h, hdraft] at hfile
  exact absurd hfile (by decide)

/-! ## Saving -/

/-- A folder with the manifest of a room written out, to be given its name. -/
def drafted (f : Folder) (m : Manifest) : Folder :=
  f.insert (draftName m.roomId) (.file m.toBytes)

/-- A folder with the manifest of a room in its place. -/
def stored (f : Folder) (m : Manifest) : Folder :=
  ((drafted f m).erase (draftName m.roomId)).insert (fileName m.roomId) (.file m.toBytes)

theorem accepts_drafted (f : Folder) (m : Manifest) :
    (drafted f m).Accepts (fileName m.roomId) ↔ f.Accepts (fileName m.roomId) := by
  have hsame : (drafted f m).get? (fileName m.roomId) = f.get? (fileName m.roomId) := by
    rw [drafted, Table.get?_insert, if_neg (fileName_ne_draftName _ _).symm]
  constructor
  · rintro ⟨hfits, hfree⟩
    exact ⟨hfits, hsame ▸ hfree⟩
  · rintro ⟨hfits, hfree⟩
    exact ⟨hfits, hsame ▸ hfree⟩

/-- A manifest is written out and then put in its place, as far as the folder takes the two
files. -/
theorem save_cases (f : Folder) (m : Manifest) :
    (¬f.Accepts (draftName m.roomId) ∧ save f m = (.error .io, f)) ∨
    (f.Accepts (draftName m.roomId) ∧ ¬f.Accepts (fileName m.roomId) ∧
      save f m = (.error .io, drafted f m)) ∨
    (f.Accepts (draftName m.roomId) ∧ f.Accepts (fileName m.roomId) ∧
      save f m = (.ok (), stored f m)) := by
  by_cases hdraft : f.Accepts (draftName m.roomId)
  · have hwrite : f.write (draftName m.roomId) m.toBytes = .ok (drafted f m) :=
      Folder.write_of_accepts hdraft _
    by_cases hfile : f.Accepts (fileName m.roomId)
    · have hrename : (drafted f m).rename (draftName m.roomId) (fileName m.roomId) =
          .ok (stored f m) :=
        Folder.rename_of_accepts (Table.get?_insert_self ..) ((accepts_drafted f m).mpr hfile)
      exact .inr (.inr ⟨hdraft, hfile, by simp only [save, hwrite, hrename]⟩)
    · have hrename : (drafted f m).rename (draftName m.roomId) (fileName m.roomId) = .error .io :=
        Folder.rename_of_not_accepts (mt (accepts_drafted f m).mp hfile) _
      exact .inr (.inl ⟨hdraft, hfile, by simp only [save, hwrite, hrename]⟩)
  · exact .inl ⟨hdraft, by simp only [save, Folder.write_of_not_accepts hdraft]⟩

/-- Saving works just if the folder takes both files. -/
theorem save_eq_ok_iff :
    (save f m).1 = .ok () ↔ f.Accepts (draftName m.roomId) ∧ f.Accepts (fileName m.roomId) := by
  obtain ⟨hdraft, hsave⟩ | ⟨-, hfile, hsave⟩ | ⟨hdraft, hfile, hsave⟩ := save_cases f m
  · rw [hsave]
    exact iff_of_false nofun fun h => hdraft h.1
  · rw [hsave]
    exact iff_of_false nofun fun h => hfile h.2
  · rw [hsave]
    exact iff_of_true rfl ⟨hdraft, hfile⟩

/-- A manifest that was saved lies in the file of its room. -/
theorem holds_save (h : (save f m).1 = .ok ()) :
    (save f m).2.Holds (fileName m.roomId) m.toBytes := by
  obtain ⟨-, hsave⟩ | ⟨-, -, hsave⟩ | ⟨-, hfile, hsave⟩ := save_cases f m
  · rw [hsave] at h
    cases h
  · rw [hsave] at h
    cases h
  · rw [hsave]
    exact ⟨hfile.fits, Table.get?_insert_self ..⟩

/-- A save touches no name but the two of its room. -/
theorem get?_save_of_ne {name : String} (hfile : name ≠ fileName m.roomId)
    (hdraft : name ≠ draftName m.roomId) : (save f m).2.get? name = f.get? name := by
  have hdrafted : (drafted f m).get? name = f.get? name := by
    rw [drafted, Table.get?_insert, if_neg hdraft.symm]
  obtain ⟨-, hsave⟩ | ⟨-, -, hsave⟩ | ⟨-, -, hsave⟩ := save_cases f m
  · rw [hsave]
  · rw [hsave]
    exact hdrafted
  · rw [hsave]
    simp only [stored]
    rw [Table.get?_insert, if_neg hfile.symm, Table.get?_erase, if_neg hdraft.symm, hdrafted]

/-! ## Loading -/

/-- What is loaded depends on the file of the room alone. -/
theorem load_congr {g : Folder} (h : f.get? (fileName roomId) = g.get? (fileName roomId)) :
    load f roomId = load g roomId := by
  simp only [load, Folder.read, h]

/-- The manifest that a room has by the text in its file: the one that the text holds, under the
id of the room, and an empty one if it holds none. -/
def ofFile (roomId : String) (bytes : Bytes) : Manifest :=
  match ofBytes? bytes with
  | some m => { m with roomId }
  | none => empty roomId

/-- **A damaged text counts as an empty manifest**, so that a room whose file is text has a
manifest. -/
theorem load_of_text {bytes : Bytes} (h : f.Holds (fileName roomId) bytes) (ht : bytes.IsText) :
    load f roomId = .ok (ofFile roomId bytes) := by
  obtain ⟨s, rfl⟩ := ht
  rw [load, h.read_eq]
  simp only [Bytes.toText?_ofText, Option.isNone_some, Bool.false_eq_true, if_false, ofFile]
  cases ofBytes? (Bytes.ofText s) <;> rfl

/-- Bytes that are no text are reported, and not taken for a manifest. -/
theorem load_of_not_text {bytes : Bytes} (h : f.Holds (fileName roomId) bytes)
    (ht : ¬bytes.IsText) : load f roomId = .error .io := by
  have hnone : (Bytes.toText? bytes).isNone := by
    rwa [Bytes.isText_iff, Bool.not_eq_true, Option.isSome_eq_false_iff] at ht
  rw [load, h.read_eq]
  simp only [hnone, if_true]

/-- What is stored for a manifest is loaded as that manifest, under the id of the room. -/
theorem load_of_holds_toBytes (h : f.Holds (fileName roomId) m.toBytes) :
    load f roomId = .ok { m with roomId } := by
  rw [load_of_text h m.isText_toBytes, ofFile, ofBytes?_toBytes]

/-- A manifest that was saved is loaded again. -/
theorem load_save (h : (save f m).1 = .ok ()) : load (save f m).2 m.roomId = .ok m :=
  load_of_holds_toBytes (holds_save h)

/-! ## Storing a manifest and getting it back -/

/-- **Manifests survive storage**: whatever its ids, texts, numbers and optional parts are, a
manifest is written as a text, and it is read from that text.  To save it in a folder, whatever
the files there hold, works just if the folder takes the two files that it is written to, and
then it is loaded again.  And whichever room's file holds the text of a manifest, that manifest
is loaded for the room, under the id of the room. -/
theorem load_saved (m : Manifest) :
    (m.toBytes.IsText ∧ ofBytes? m.toBytes = some m) ∧
    (∀ f : Folder, ((save f m).1 = .ok () ↔
        f.Accepts (draftName m.roomId) ∧ f.Accepts (fileName m.roomId)) ∧
      ((save f m).1 = .ok () → load (save f m).2 m.roomId = .ok m)) ∧
    ∀ (f : Folder) (roomId : String), f.Holds (fileName roomId) m.toBytes →
      load f roomId = .ok { m with roomId } :=
  ⟨⟨m.isText_toBytes, m.ofBytes?_toBytes⟩, fun _ => ⟨save_eq_ok_iff, load_save⟩,
    fun _ _ => load_of_holds_toBytes⟩

/-- An entry with the least number there is, characters that are escaped or take several bytes,
and no more parts than it needs. -/
def plainEntry : ManifestEntry where
  id := "a"
  kind := .file
  origin := .nil
  time := Int64.minValue
  title := "Zoë \"Z\"\n\t\\ \x01 😀"
  preview := none
  sizeBytes := Int64.maxValue
  contentType := ""
  contentHash := "AB"
  providerFileId := none
  objectKey := some "clips/a/b"

/-- A folder where the file of a room is not even text. -/
def damagedFolder (roomId : String) : Folder :=
  (∅ : Folder).insert (fileName roomId) (.file [0xFF, 0xFE])

/-- A manifest is saved over a file that is not even text, and is there then. -/
theorem load_saved_home :
    (save (damagedFolder "home") ⟨"home", [plainEntry]⟩).1 = .ok () ∧
      load (save (damagedFolder "home") ⟨"home", [plainEntry]⟩).2 "home" =
        .ok ⟨"home", [plainEntry]⟩ := by
  obtain ⟨-, hsave, -⟩ := load_saved ⟨"home", [plainEntry]⟩
  obtain ⟨hiff, hload⟩ := hsave (damagedFolder "home")
  have hsaved := hiff.mpr ⟨⟨by decide, by decide⟩, ⟨by decide, by decide⟩⟩
  exact ⟨hsaved, hload hsaved⟩

/-! ## Damage -/

/-- **A room has a manifest just if its file is text**: of a file that holds text, be it cut off,
of the wrong shape or empty, the manifest is loaded that the text holds, under the id of the
room, and an empty one if it holds none.  To that, any item can be recorded and the result saved,
if the folder takes the file that it is written to first; it is loaded then.  Bytes that are no
text are an error, and no manifest. -/
theorem loads_iff_text {bytes : Bytes} (h : f.Holds (fileName roomId) bytes) :
    ((∃ m, load f roomId = .ok m) ↔ bytes.IsText) ∧
    (¬bytes.IsText → load f roomId = .error .io) ∧
    ∀ m, load f roomId = .ok m →
      (∀ kept, ofBytes? bytes = some kept → m = { kept with roomId }) ∧
      (ofBytes? bytes = none → m = empty roomId) ∧
      (f.Accepts (draftName roomId) → ∀ capacity item,
        ∃ f', save f (m.record capacity item) = (.ok (), f') ∧
          load f' roomId = .ok (m.record capacity item)) := by
  have htext : (∃ m, load f roomId = .ok m) ↔ bytes.IsText := by
    refine ⟨fun ⟨m, hm⟩ => ?_, fun ht => ⟨_, load_of_text h ht⟩⟩
    by_cases ht : bytes.IsText
    · exact ht
    · rw [load_of_not_text h ht] at hm
      cases hm
  refine ⟨htext, load_of_not_text h, fun m hm => ?_⟩
  have hfile : m = ofFile roomId bytes := by
    rw [load_of_text h (htext.mp ⟨m, hm⟩)] at hm
    exact (Except.ok.inj hm).symm
  have hroom : m.roomId = roomId := by
    rw [hfile, ofFile]
    split <;> rfl
  refine ⟨fun kept hkept => ?_, fun hnone => ?_, fun hdraft capacity item => ?_⟩
  · rw [hfile, ofFile, hkept]
  · rw [hfile, ofFile, hnone]
  · subst hroom
    have hsaved : (save f (m.record capacity item)).1 = .ok () :=
      save_eq_ok_iff.mpr ⟨hdraft, h.accepts⟩
    exact ⟨_, Prod.ext hsaved rfl, load_save hsaved⟩

/-- A text that is no manifest is loaded as an empty one, and a room goes on from there. -/
theorem loads_iff_text_home :
    let f : Folder := (∅ : Folder).insert (fileName "home") (.file (Bytes.ofText "not json"))
    load f "home" = .ok (empty "home") ∧
      ∃ f', save f ((empty "home").record 10 plainEntry) = (.ok (), f') ∧
        load f' "home" = .ok ⟨"home", [plainEntry]⟩ := by
  intro f
  have hfile : f.Holds (fileName "home") (Bytes.ofText "not json") :=
    ⟨by decide, Table.get?_insert_self ..⟩
  obtain ⟨htext, -, hload⟩ := loads_iff_text hfile
  obtain ⟨m, hm⟩ := htext.mpr (Bytes.isText_ofText _)
  obtain ⟨-, hempty, hrecord⟩ := hload m hm
  obtain rfl := hempty (by decide +kernel)
  exact ⟨hm, hrecord ⟨by decide, by decide⟩ 10 plainEntry⟩

/-- Whoever asks for the manifest of a room whose file is no text is refused. -/
theorem damaged_bytes_refused :
    ∃ f roomId bytes, Folder.Holds f (fileName roomId) bytes ∧ ∀ m, load f roomId ≠ .ok m := by
  have hfile : (damagedFolder "home").Holds (fileName "home") [0xFF, 0xFE] :=
    ⟨by decide, Table.get?_insert_self ..⟩
  have hnot : ¬Bytes.IsText [0xFF, 0xFE] := by
    rw [Bytes.isText_iff]
    decide
  refine ⟨damagedFolder "home", "home", [0xFF, 0xFE], hfile, ?_⟩
  rw [load_of_not_text hfile hnot]
  exact fun m => nofun

end Manifest

end ClipRelay
