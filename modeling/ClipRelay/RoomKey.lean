/-!
# ClipRelay.RoomKey

The key under which the relay keeps everything of a room.

In account mode each account has rooms of its own: the key is the account's
subject, a bar and the room id.  With shared secrets the key is the room id.
-/

namespace ClipRelay

/-! ## Texts cut at a separator -/

section
variable {α : Type} {sep : α} {s t x y : List α}

/-- Two texts, each cut at a separator, are the same only if they are cut at the same
one, or one of the first parts goes on past the separator of the other. -/
theorem append_separator_eq (h : s ++ sep :: x = t ++ sep :: y) :
    (s = t ∧ x = y) ∨ (∃ rest, t = s ++ sep :: rest ∧ x = rest ++ sep :: y) ∨
      ∃ rest, s = t ++ sep :: rest ∧ y = rest ++ sep :: x := by
  obtain ⟨a, ht, hx⟩ | ⟨a, hs, hy⟩ := List.append_eq_append_iff.mp h
  · cases a with
    | nil =>
        rw [List.append_nil] at ht
        rw [List.nil_append] at hx
        exact .inl ⟨ht.symm, (List.cons.inj hx).2⟩
    | cons c rest =>
        rw [List.cons_append] at hx
        obtain ⟨rfl, hrest⟩ := List.cons.inj hx
        exact .inr (.inl ⟨rest, ht, hrest⟩)
  · cases a with
    | nil =>
        rw [List.append_nil] at hs
        rw [List.nil_append] at hy
        exact .inl ⟨hs, (List.cons.inj hy).2.symm⟩
    | cons c rest =>
        rw [List.cons_append] at hy
        obtain ⟨rfl, hrest⟩ := List.cons.inj hy
        exact .inr (.inr ⟨rest, hs, hrest⟩)

/-- A text has one last separator, whatever stands before it. -/
theorem append_last_separator_eq (hx : sep ∉ x) (hy : sep ∉ y)
    (h : s ++ sep :: x = t ++ sep :: y) : s = t ∧ x = y := by
  obtain heq | ⟨rest, -, rfl⟩ | ⟨rest, -, rfl⟩ := append_separator_eq h
  · exact heq
  · exact absurd (List.mem_append_right rest List.mem_cons_self) hx
  · exact absurd (List.mem_append_right rest List.mem_cons_self) hy

end

/-! ## Keys -/

/-- The key of a room in every store of the relay. -/
structure RoomKey where
  text : String
deriving DecidableEq, Repr

namespace RoomKey

/-- The key of a room that is guarded by a shared secret. -/
def shared (roomId : String) : RoomKey := ⟨roomId⟩

/-- The key of an account's room. -/
def forSubject (subject roomId : String) : RoomKey := ⟨subject ++ "|" ++ roomId⟩

/-! ## Which keys coincide

Subjects and room ids may contain bars themselves, so two accounts can have
rooms with the same key.
-/

/-- One of two subjects begins with the other and a bar. -/
def Clash (s t : String) : Prop :=
  (∃ rest, t = s ++ "|" ++ rest) ∨ ∃ rest, s = t ++ "|" ++ rest

/-- Subjects without bars never clash. -/
theorem not_clash {s t : String} (hs : '|' ∉ s.toList) (ht : '|' ∉ t.toList) : ¬Clash s t := by
  have hbar (a rest : String) : '|' ∈ (a ++ "|" ++ rest).toList := by
    rw [String.toList_append, String.toList_append]
    exact List.mem_append_left _ (List.mem_append_right _ List.mem_cons_self)
  rintro (⟨rest, rfl⟩ | ⟨rest, rfl⟩)
  · exact ht (hbar s rest)
  · exact hs (hbar t rest)

theorem forSubject_eq_iff {s t x y : String} :
    forSubject s x = forSubject t y ↔
      (s = t ∧ x = y) ∨ (∃ rest, t = s ++ "|" ++ rest ∧ x = rest ++ "|" ++ y) ∨
        ∃ rest, s = t ++ "|" ++ rest ∧ y = rest ++ "|" ++ x := by
  have hchars (a b : String) : (a ++ "|" ++ b).toList = a.toList ++ '|' :: b.toList := by
    rw [String.toList_append, String.toList_append, List.append_assoc]
    rfl
  constructor
  · intro h
    have hlist := congrArg (fun key => key.text.toList) h
    simp only [forSubject, hchars] at hlist
    obtain ⟨hs, hx⟩ | ⟨rest, ht, hx⟩ | ⟨rest, hs, hy⟩ := append_separator_eq hlist
    · exact .inl ⟨String.toList_injective hs, String.toList_injective hx⟩
    · refine .inr (.inl ⟨String.ofList rest, ?_, ?_⟩) <;> apply String.toList_injective
      · rw [hchars, String.toList_ofList, ht]
      · rw [hchars, String.toList_ofList, hx]
    · refine .inr (.inr ⟨String.ofList rest, ?_, ?_⟩) <;> apply String.toList_injective
      · rw [hchars, String.toList_ofList, hs]
      · rw [hchars, String.toList_ofList, hy]
  · rintro (⟨rfl, rfl⟩ | ⟨rest, rfl, rfl⟩ | ⟨rest, rfl, rfl⟩)
    · rfl
    · simp only [forSubject, String.append_assoc]
    · simp only [forSubject, String.append_assoc]

/-- The rooms of one account have keys of their own. -/
theorem forSubject_injective (subject : String) : Function.Injective (forSubject subject) := by
  intro x y h
  have htext := congrArg (fun key => key.text.toList) h
  simp only [forSubject, String.toList_append] at htext
  exact String.toList_injective (List.append_cancel_left htext)

/-- Two accounts have rooms with the same key just if their subjects clash. -/
theorem exists_forSubject_eq_iff {s t : String} (h : s ≠ t) :
    (∃ x y, forSubject s x = forSubject t y) ↔ Clash s t := by
  constructor
  · rintro ⟨x, y, hkey⟩
    obtain ⟨hs, -⟩ | ⟨rest, ht, -⟩ | ⟨rest, hs, -⟩ := forSubject_eq_iff.mp hkey
    · exact absurd hs h
    · exact .inl ⟨rest, ht⟩
    · exact .inr ⟨rest, hs⟩
  · rintro (⟨rest, ht⟩ | ⟨rest, hs⟩)
    · exact ⟨rest ++ "|" ++ "", "", forSubject_eq_iff.mpr (.inr (.inl ⟨rest, ht, rfl⟩))⟩
    · exact ⟨"", rest ++ "|" ++ "", forSubject_eq_iff.mpr (.inr (.inr ⟨rest, hs, rfl⟩))⟩

end RoomKey

end ClipRelay
