/-!
# ClipRelay.Text.Blank

White space at the ends of a text.

A name, secret or token that holds nothing but white space counts as absent
everywhere in the relay.  White space is Unicode's `White_Space` property:
the table below is that property, and `isSpace_of_isWhitespace` checks it
against the ASCII class of the core library.
-/

namespace ClipRelay.Text

/-- The characters with the Unicode property `White_Space`. -/
def isSpace (c : Char) : Bool :=
  let n := c.toNat
  (0x9 ≤ n && n ≤ 0xD) || n == 0x20 || n == 0x85 || n == 0xA0 || n == 0x1680 ||
  (0x2000 ≤ n && n ≤ 0x200A) || n == 0x2028 || n == 0x2029 || n == 0x202F ||
  n == 0x205F || n == 0x3000

/-- The text without white space at its ends. -/
def trim (s : String) : String :=
  String.ofList (((s.toList.dropWhile isSpace).reverse.dropWhile isSpace).reverse)

/-- Whether a text is empty or white space only. -/
def isBlank (s : String) : Bool := s.toList.all isSpace

/-- The text, unless it is blank. -/
def nonBlank? (s : Option String) : Option String := s.filter fun t => !isBlank t

/-! ## Small laws -/

theorem nonBlank?_eq_some_iff {s : Option String} {t : String} :
    nonBlank? s = some t ↔ s = some t ∧ isBlank t = false := by
  simp [nonBlank?, Option.filter_eq_some_iff]

theorem nonBlank?_eq_none_iff {s : Option String} :
    nonBlank? s = none ↔ ∀ t, s = some t → isBlank t := by
  simp [nonBlank?, Option.filter_eq_none_iff]

/-- What holds of the characters of two texts holds of those of both together. -/
theorem forall_mem_append {P : Char → Prop} {s t : String} (hs : ∀ c ∈ s.toList, P c)
    (ht : ∀ c ∈ t.toList, P c) : ∀ c ∈ (s ++ t).toList, P c := by
  rw [String.toList_append]
  exact List.forall_mem_append.mpr ⟨hs, ht⟩

theorem isSpace_of_isWhitespace {c : Char} (h : c.isWhitespace) : isSpace c := by
  simp only [Char.isWhitespace, Bool.or_eq_true, decide_eq_true_eq] at h
  rcases h with ((rfl | rfl) | rfl) | rfl <;> decide

theorem dropWhile_eq_nil_iff_all {p : Char → Bool} {l : List Char} :
    l.dropWhile p = [] ↔ l.all p := by
  induction l with
  | nil => simp
  | cons c l ih =>
      cases hc : p c with
      | false => simp [hc]
      | true => simp [hc, ih]

/-- A blank text has nothing left once its white space is gone. -/
theorem trim_of_isBlank {s : String} (h : isBlank s) : trim s = "" := by
  simp [trim, dropWhile_eq_nil_iff_all.mpr h]

/-- Only blank texts have nothing left. -/
theorem isBlank_of_trim {s : String} (h : trim s = "") : isBlank s := by
  have hback : (s.toList.dropWhile isSpace).reverse.all isSpace := by
    rw [← dropWhile_eq_nil_iff_all]
    simpa [trim] using congrArg String.toList h
  rw [isBlank, ← dropWhile_eq_nil_iff_all]
  cases hrest : s.toList.dropWhile isSpace with
  | nil => rfl
  | cons c rest =>
      have hhead := List.head?_dropWhile_not isSpace s.toList
      have hc : isSpace c = false := by simpa [hrest] using hhead
      simp [hrest, hc] at hback

/-- Nothing is left to drop from a front of what was left. -/
theorem dropWhile_of_prefix {p : Char → Bool} {l m : List Char} (h : m <+: l.dropWhile p) :
    m.dropWhile p = m := by
  cases m with
  | nil => rfl
  | cons c m =>
      obtain ⟨rest, hrest⟩ := h
      have hhead := List.head?_dropWhile_not p l
      have hc : p c = false := by simpa [← hrest] using hhead
      simp [hc]

theorem dropWhile_of_forall {p : Char → Bool} {l : List Char} (h : ∀ c ∈ l, p c = false) :
    l.dropWhile p = l := by
  cases l with
  | nil => rfl
  | cons c l => simp_all

/-- A text without any white space is left as it is. -/
theorem trim_of_forall {s : String} (h : ∀ c ∈ s.toList, isSpace c = false) : trim s = s := by
  have hback : ∀ c ∈ s.toList.reverse, isSpace c = false := by simpa using h
  simp [trim, dropWhile_of_forall h, dropWhile_of_forall hback]

/-- Once the white space at the ends is gone, there is no more of it. -/
@[simp] theorem trim_trim (s : String) : trim (trim s) = trim s := by
  have hback : ((s.toList.dropWhile isSpace).reverse.dropWhile isSpace).reverse <+:
      s.toList.dropWhile isSpace := by
    have hsuffix := List.dropWhile_suffix (l := (s.toList.dropWhile isSpace).reverse) isSpace
    simpa using List.reverse_prefix.mpr hsuffix
  have hagain := dropWhile_of_prefix (List.prefix_refl
    ((s.toList.dropWhile isSpace).reverse.dropWhile isSpace))
  simp [trim, dropWhile_of_prefix hback, hagain]

end ClipRelay.Text
