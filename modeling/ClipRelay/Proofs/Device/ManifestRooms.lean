import ClipRelay.Proofs.Device.ManifestFiles
import Mathlib.Data.List.Forall2

/-!
# ClipRelay.Proofs.Device.ManifestRooms

Which rooms share the file of their manifest, and where these files lie.

A room's file is named after the room, with an underscore for every character that a file name
might not take.  So no room id leads out of the folder (`FilePath.parts_join`), but ids that
differ in such characters only have one name (`Manifest.fileName_eq_iff`), and the manifest of
one of these rooms then stands for the others as well (`Manifest.apart_iff`).
-/

namespace ClipRelay

/-! ## Paths into a folder -/

namespace FilePath

/-- The parts of a path, character by character. -/
def pieces (path : List Char) : List (List Char) :=
  (path.splitOnP (· == '/')).filter fun part => part ≠ [] ∧ part ≠ ['.']

theorem parts_eq (path : String) : parts path = (pieces path.toList).map String.ofList := rfl

theorem pieces_append (front rest : List Char) :
    pieces (front ++ '/' :: rest) = pieces front ++ pieces rest := by
  rw [pieces, List.splitOnP_append_cons front rest rfl, List.filter_append]
  rfl

/-- A name that leads somewhere, and no further than to one part. -/
structure IsName (name : String) : Prop where
  noSlash : '/' ∉ name.toList
  notEmpty : name ≠ ""
  notHere : name ≠ "."
  notUp : name ≠ ".."

theorem IsName.pieces_eq {name : String} (h : IsName name) :
    pieces name.toList = [name.toList] := by
  have hno : ∀ c ∈ name.toList, (c == '/') = false := fun c hc =>
    beq_eq_false_iff_ne.mpr fun hslash => h.noSlash (hslash ▸ hc)
  have hkept : name.toList ≠ [] ∧ name.toList ≠ ['.'] := by
    refine ⟨fun hnil => h.notEmpty ?_, fun hpoint => h.notHere ?_⟩
    · exact String.toList_injective hnil
    · exact String.toList_injective hpoint
  rw [pieces, List.splitOnP_eq_singleton hno, List.filter_singleton, decide_eq_true hkept,
    cond_true]

/-- A name in a folder is one part more than the folder. -/
theorem parts_join (folder : String) {name : String} (h : IsName name) :
    parts (join folder name) = parts folder ++ [name] := by
  have hname : (pieces name.toList).map String.ofList = [name] := by
    rw [h.pieces_eq, List.map_singleton, String.ofList_toList]
  have hroot : name.toList.head? ≠ some '/' := fun hhead => h.noSlash (List.mem_of_head? hhead)
  simp only [parts_eq]
  rw [join, if_neg hroot]
  split
  · next hlast =>
    obtain hnil | ⟨front, c, hfront⟩ := folder.toList.eq_nil_or_concat'
    · rw [String.toList_append, hnil, List.nil_append, hname]
      rfl
    · obtain rfl : c = '/' := by simpa [hfront] using hlast
      have hnone : pieces [] = [] := rfl
      rw [String.toList_append, hfront, List.append_assoc, List.singleton_append, pieces_append,
        pieces_append, hnone, List.append_nil, List.map_append, hname]
  · have hslash : (folder ++ "/" ++ name).toList = folder.toList ++ '/' :: name.toList := by
      rw [String.toList_append, String.toList_append, List.append_assoc]
      rfl
    rw [hslash, pieces_append, List.map_append, hname]

end FilePath

namespace Manifest

variable {f : Folder} {m : Manifest} {a b : String}

/-! ## Names of files -/

/-- A character as it stands in a file name. -/
def shown (c : Char) : Char := if isPlain c then c else '_'

theorem toList_fileName (roomId : String) : (fileName roomId).toList =
    "manifest.".toList ++ (roomId.toList.map shown ++ ".json".toList) := by
  have hshown : (String.ofList (roomId.toList.map fun c => if isPlain c then c else '_')).toList =
      roomId.toList.map shown := String.toList_ofList
  rw [fileName, String.toList_append, String.toList_append, hshown, List.append_assoc]

/-- Whether a character shows as an underscore in a file name. -/
def Masked (c : Char) : Prop := c = '_' ∨ ¬isPlain c

theorem shown_of_masked {c : Char} (h : Masked c) : shown c = '_' := by
  obtain rfl | h := h
  · rfl
  · exact if_neg h

theorem shown_of_not_masked {c : Char} (h : ¬Masked c) : shown c = c ∧ c ≠ '_' := by
  obtain ⟨hne, hplain⟩ := not_or.mp h
  exact ⟨if_pos (not_not.mp hplain), hne⟩

theorem shown_eq_iff {c d : Char} : shown c = shown d ↔ c = d ∨ Masked c ∧ Masked d := by
  by_cases hc : Masked c <;> by_cases hd : Masked d
  · simp [shown_of_masked hc, shown_of_masked hd, hc, hd]
  · obtain ⟨hshown, hne⟩ := shown_of_not_masked hd
    simp [shown_of_masked hc, hshown, hne.symm, hd, show c ≠ d from fun h => hd (h ▸ hc)]
  · obtain ⟨hshown, hne⟩ := shown_of_not_masked hc
    simp [shown_of_masked hd, hshown, hne, hc, show c ≠ d from fun h => hc (h ▸ hd)]
  · simp [shown_of_not_masked hc, shown_of_not_masked hd, hc]

/-- Rooms share a file just if their ids are of one length and differ in nothing but characters
that show as underscores. -/
theorem fileName_eq_iff :
    fileName a = fileName b ↔
      List.Forall₂ (fun c d => c = d ∨ Masked c ∧ Masked d) a.toList b.toList := by
  rw [← String.toList_inj, toList_fileName, toList_fileName, List.append_cancel_left_eq,
    List.append_cancel_right_eq, ← List.forall₂_eq_eq_eq, List.forall₂_map_left_iff,
    List.forall₂_map_right_iff]
  simp only [shown_eq_iff]

/-! ### What file names are made of -/

/-- Whether a character is one of those that file names are made of. -/
def InName (c : Char) : Prop := isPlain c ∨ c = '.'

instance (c : Char) : Decidable (InName c) := inferInstanceAs (Decidable (_ ∨ _))

theorem inName_of_all {l : List Char} (h : l.all fun c => InName c) : ∀ c ∈ l, InName c := by
  simpa using h

theorem isPlain_shown (c : Char) : isPlain (shown c) := by
  rw [shown]
  split
  · assumption
  · rfl

theorem inName_fileName {roomId : String} {c : Char} (h : c ∈ (fileName roomId).toList) :
    InName c := by
  have hstart : ∀ c ∈ "manifest.".toList, InName c := inName_of_all rfl
  have hend : ∀ c ∈ ".json".toList, InName c := inName_of_all rfl
  rw [toList_fileName, List.mem_append, List.mem_append] at h
  obtain h | h | h := h
  · exact hstart c h
  · obtain ⟨d, -, rfl⟩ := List.mem_map.mp h
    exact .inl (isPlain_shown d)
  · exact hend c h

theorem inName_draftName {roomId : String} {c : Char} (h : c ∈ (draftName roomId).toList) :
    InName c := by
  have hend : ∀ c ∈ ".tmp".toList, InName c := inName_of_all rfl
  rw [draftName, String.toList_append, List.mem_append] at h
  obtain h | h := h
  · exact inName_fileName h
  · exact hend c h

theorem lt_of_inName {c : Char} (h : InName c) : c.toNat < 128 := by
  obtain h | rfl := h
  · have hcode : (((65 ≤ c.toNat ∧ c.toNat ≤ 90 ∨ 97 ≤ c.toNat ∧ c.toNat ≤ 122) ∨
        48 ≤ c.toNat ∧ c.toNat ≤ 57) ∨ c = '-') ∨ c = '_' := by
      have hcases : ((((decide (65 ≤ c.val ∧ c.val ≤ 90) || (97 ≤ c.val && c.val ≤ 122)) ||
        (48 ≤ c.val && c.val ≤ 57)) || c == '-') || c == '_') = true := h
      simpa [UInt32.le_iff_toNat_le] using hcases
    obtain (hcode | rfl) | rfl := hcode
    · omega
    · decide
    · decide
  · decide

/-- The length of a name in bytes is that of the id and the eighteen that are always there. -/
theorem utf8ByteSize_draftName (roomId : String) :
    (draftName roomId).utf8ByteSize = roomId.length + 18 := by
  have hlength : (draftName roomId).length = roomId.length + 18 := by
    have hall : "manifest.".toList.length + ".json".toList.length + ".tmp".toList.length = 18 := rfl
    rw [← String.length_toList, draftName, String.toList_append, toList_fileName,
      ← String.length_toList]
    simp only [List.length_append, List.length_map]
    omega
  have hbytes : Bytes.ofText (draftName roomId) = _ :=
    (congrArg Bytes.ofText String.ofList_toList.symm).trans
      (Bytes.ofText_ofList fun c hc => lt_of_inName (inName_draftName hc))
  rw [← Bytes.length_ofText, hbytes, List.length_map, String.length_toList, hlength]

/-- A name of such characters that begins with a letter leads to one part. -/
theorem isName_of_inName {name : String} (h : ∀ c ∈ name.toList, InName c)
    (hhead : name.toList.head? = some 'm') : FilePath.IsName name where
  noSlash hslash := absurd (h '/' hslash) (by decide)
  notEmpty := by
    rintro rfl
    simp at hhead
  notHere := by
    rintro rfl
    simp at hhead
  notUp := by
    rintro rfl
    simp at hhead

theorem isName_fileName (roomId : String) : FilePath.IsName (fileName roomId) :=
  isName_of_inName (fun _ => inName_fileName) (by rw [toList_fileName]; rfl)

theorem isName_draftName (roomId : String) : FilePath.IsName (draftName roomId) :=
  isName_of_inName (fun _ => inName_draftName)
    (by rw [draftName, String.toList_append, toList_fileName]; rfl)

/-! ## What a room loads after another one was saved -/

/-- Where two rooms share a file, what is saved for one is loaded for the other. -/
theorem load_save_of_shared (hname : fileName a = fileName b) {items : List ManifestEntry}
    (hsaved : (save f ⟨a, items⟩).1 = .ok ()) :
    load (save f ⟨a, items⟩).2 b = .ok ⟨b, items⟩ := by
  have hfile : (save f ⟨a, items⟩).2.Holds (fileName a) (toBytes ⟨a, items⟩) := holds_save hsaved
  rw [hname] at hfile
  exact load_of_holds_toBytes hfile

/-- An empty folder takes any file whose name is not too long. -/
theorem save_empty_eq_ok (ha : a.length ≤ 237) (items : List ManifestEntry) :
    (save ∅ ⟨a, items⟩).1 = .ok () := by
  have hdraft : (draftName a).utf8ByteSize ≤ Folder.maxNameBytes := by
    rw [utf8ByteSize_draftName, Folder.maxNameBytes]
    omega
  have hfile : (fileName a).utf8ByteSize ≤ Folder.maxNameBytes := by
    have hmore : (draftName a).utf8ByteSize = (fileName a).utf8ByteSize + ".tmp".utf8ByteSize :=
      String.utf8ByteSize_append ..
    omega
  exact save_eq_ok_iff.mpr ⟨⟨hdraft, nofun⟩, ⟨hfile, nofun⟩⟩

/-- A folder without files has an empty manifest for every room that can have one. -/
theorem load_empty (h : (fileName b).utf8ByteSize ≤ Folder.maxNameBytes) :
    load ∅ b = .ok (empty b) := by
  rw [load, Folder.read, if_neg (Nat.not_lt.mpr h)]
  rfl

/-- A manifest is not even written out if the name would be too long. -/
theorem save_of_lt_length (ha : 237 < a.length) (f : Folder) (items : List ManifestEntry) :
    (save f ⟨a, items⟩).2 = f := by
  have hlong : ¬f.Accepts (draftName a) := fun h => by
    have hfits := h.fits
    rw [utf8ByteSize_draftName, Folder.maxNameBytes] at hfits
    omega
  obtain ⟨-, hsave⟩ | ⟨hdraft, -⟩ | ⟨hdraft, -⟩ := save_cases f ⟨a, items⟩
  · rw [hsave]
  · exact absurd hdraft hlong
  · exact absurd hdraft hlong

/-- **Which rooms are apart**: to save a manifest of one room never changes what is loaded for
another just if the rooms have files of different names, or the id is so long that nothing is
saved.  Rooms have one name just if their ids are of one length and differ in nothing but
characters that show as underscores.  A save touches the two files of its room and no other, and
whatever the id is and wherever the folder lies, both are in it, right below. -/
theorem apart_iff (a b : String) :
    ((∀ (f : Folder) (items : List ManifestEntry),
        load (save f ⟨a, items⟩).2 b = load f b) ↔ fileName a ≠ fileName b ∨ 237 < a.length) ∧
    (fileName a = fileName b ↔
      List.Forall₂ (fun c d => c = d ∨ Masked c ∧ Masked d) a.toList b.toList) ∧
    (∀ (f : Folder) (items : List ManifestEntry) (name : String), name ≠ fileName a →
      name ≠ draftName a → (save f ⟨a, items⟩).2.get? name = f.get? name) ∧
    ∀ folder : String,
      FilePath.parts (path folder a) = FilePath.parts folder ++ [fileName a] ∧
      FilePath.parts (draftPath folder a) = FilePath.parts folder ++ [draftName a] ∧
      fileName a ≠ ".." ∧ draftName a ≠ ".." := by
  refine ⟨⟨fun hapart => ?_, ?_⟩, fileName_eq_iff,
    fun f items _ => get?_save_of_ne (m := ⟨a, items⟩),
    fun folder => ⟨FilePath.parts_join folder (isName_fileName a),
      FilePath.parts_join folder (isName_draftName a), (isName_fileName a).notUp,
      (isName_draftName a).notUp⟩⟩
  · by_cases hname : fileName a = fileName b
    · right
      by_contra hshort
      have hsaved := save_empty_eq_ok (Nat.not_lt.mp hshort) [plainEntry]
      have hfits := (save_eq_ok_iff.mp hsaved).2.fits
      have hsame := hapart ∅ [plainEntry]
      rw [load_save_of_shared hname hsaved, load_empty (hname ▸ hfits)] at hsame
      cases hsame
    · exact .inl hname
  · rintro (hname | hlong) f items
    · exact load_congr
        (get?_save_of_ne (m := ⟨a, items⟩) (Ne.symm hname) (fileName_ne_draftName b a))
    · rw [save_of_lt_length hlong]

/-- What is saved for one of two rooms that differ in a slash is loaded for the other. -/
theorem slash_shows_as_underscore :
    ∃ (f : Folder) (m : Manifest) (b : String),
      m.roomId ≠ b ∧ load (save f m).2 b ≠ load f b := by
  have hname : fileName "a/b" = fileName "a_b" := fileName_eq_iff.mpr <|
    .cons (.inl rfl) (.cons (.inr ⟨.inr (by decide), .inl rfl⟩) (.cons (.inl rfl) .nil))
  have hsaved := save_empty_eq_ok (show "a/b".length ≤ 237 by decide) [plainEntry]
  refine ⟨∅, ⟨"a/b", [plainEntry]⟩, "a_b", by decide, ?_⟩
  rw [load_save_of_shared hname hsaved, load_empty (by decide)]
  nofun

end Manifest

end ClipRelay
