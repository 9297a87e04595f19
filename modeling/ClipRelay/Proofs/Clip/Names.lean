import ClipRelay.Clip.ContentId
import ClipRelay.RoomKey

/-!
# ClipRelay.Proofs.Clip.Names

Different contents have different names.

The names of items and of stored payloads are parts of any length, put together with
separators, and a room id can hold anything, separators included.  But a name is read from
its end: neither of the last two parts of an item's name holds a bar, so the last two bars
are where it was put together, and an item's name holds no slash, so the last slash of a
payload's name is where the room id ends.
-/

namespace ClipRelay

variable {roomId roomId' : String} {time time' : Timestamp} {device device' : Uuid}
  {hash hash' : Bytes}

/-- A character that is no digit is not in what is written in digits. -/
theorem not_mem_encode {c : Char} (hc : Hex.value? c = none) (case : Hex.Case) (bs : Bytes) :
    c ∉ (Hex.encode case bs).toList := fun h => by
  have hdigit := Hex.isSome_value?_of_mem h
  rw [hc] at hdigit
  cases hdigit

theorem toList_contentId (time : Timestamp) (device : Uuid) (hash : Bytes) :
    (contentId time device hash).toList =
      ((timeText time).toList ++ '_' :: device.simple.toList) ++
        '_' :: (Hex.encode .upper hash).toList := by
  simp only [contentId, String.toList_append, List.append_assoc]
  rfl

/-- An item's name tells all that it is made of. -/
theorem contentId_inj : contentId time device hash = contentId time' device' hash' ↔
    time = time' ∧ device = device' ∧ hash = hash' := by
  refine ⟨fun h => ?_, fun ⟨htime, hdevice, hhash⟩ => by rw [htime, hdevice, hhash]⟩
  have hchars := congrArg String.toList h
  rw [toList_contentId, toList_contentId] at hchars
  have hbar : Hex.value? '_' = none := by decide
  obtain ⟨hfront, hhash⟩ := append_last_separator_eq (not_mem_encode hbar _ _)
    (not_mem_encode hbar _ _) hchars
  obtain ⟨htime, hdevice⟩ := append_last_separator_eq (not_mem_encode hbar _ _)
    (not_mem_encode hbar _ _) hfront
  exact ⟨timeText_injective (String.toList_injective htime),
    Uuid.simple_injective (String.toList_injective hdevice),
    Hex.encode_injective .upper (String.toList_injective hhash)⟩

theorem slash_not_mem_contentId (time : Timestamp) (device : Uuid) (hash : Bytes) :
    '/' ∉ (contentId time device hash).toList := by
  have hslash : Hex.value? '/' = none := by decide
  rw [toList_contentId]
  simp only [List.mem_append, List.mem_cons, not_or]
  refine ⟨⟨fun htime => ?_, by decide, not_mem_encode hslash _ _⟩, by decide,
    not_mem_encode hslash _ _⟩
  obtain hminus | hdigit := mem_timeText htime
  · exact absurd hminus (by decide)
  · exact absurd hdigit (by decide)

theorem toList_textObjectKey (roomId : String) (time : Timestamp) (device : Uuid)
    (hash : Bytes) :
    (textObjectKey roomId time device hash).toList =
      ("clips/".toList ++ roomId.toList) ++
        '/' :: ((contentId time device hash).toList ++ ".txt".toList) := by
  simp only [textObjectKey, String.toList_append, List.append_assoc]
  rfl

/-- The name of a stored payload tells the room and the item's name. -/
theorem textObjectKey_inj :
    textObjectKey roomId time device hash = textObjectKey roomId' time' device' hash' ↔
      roomId = roomId' ∧ contentId time device hash = contentId time' device' hash' := by
  constructor
  · intro h
    have hslash (time : Timestamp) (device : Uuid) (hash : Bytes) :
        '/' ∉ (contentId time device hash).toList ++ ".txt".toList := by
      rw [List.mem_append, not_or]
      exact ⟨slash_not_mem_contentId time device hash, by decide⟩
    have hchars := congrArg String.toList h
    rw [toList_textObjectKey, toList_textObjectKey] at hchars
    obtain ⟨hroom, hname⟩ := append_last_separator_eq (hslash _ _ _) (hslash _ _ _) hchars
    exact ⟨String.toList_injective (List.append_cancel_left hroom),
      String.toList_injective (List.append_cancel_right hname)⟩
  · rintro ⟨rfl, hname⟩
    rw [textObjectKey, hname, textObjectKey]

/-- **Names are unambiguous**: items of one name have the same time, device and hash, and
stored payloads of one name also the same room, whatever the room ids hold. -/
theorem names_unambiguous (roomId roomId' : String) (time time' : Timestamp)
    (device device' : Uuid) (hash hash' : Bytes) :
    (contentId time device hash = contentId time' device' hash' ↔
      time = time' ∧ device = device' ∧ hash = hash') ∧
    (textObjectKey roomId time device hash = textObjectKey roomId' time' device' hash' ↔
      roomId = roomId' ∧ time = time' ∧ device = device' ∧ hash = hash') := by
  refine ⟨contentId_inj, ?_⟩
  rw [textObjectKey_inj, contentId_inj]

end ClipRelay
