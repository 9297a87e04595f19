import ClipRelay.Proofs.Binary.Messages

/-!
# ClipRelay.Proofs.Binary.Prefixes

What is read of the front of an input.

A reader goes from left to right and stops at the first thing that is wrong, or where its
value ends.  So what it says of some bytes it says of all inputs that begin with them, and
just one of its answers is open to change: that the bytes end too early.  A reader of which
this is so is `Steady`.  The atoms are, and every way to combine formats keeps it, since all
of them read one thing and go on with the rest (`Steady.bind`).

For the messages it follows that bytes cut off a written form are always missed
(`decode_append_eq`).
-/

namespace ClipRelay.Binary

namespace Format

variable {α β : Type} {read : Bytes → Except DecodeError (α × Bytes)} {f : Format α}
  {g : Format β}

/-- What the reader says of some bytes does not change with those that follow, unless it
misses some. -/
def Steady (read : Bytes → Except DecodeError (α × Bytes)) : Prop :=
  ∀ bs more, read bs ≠ .error .endOfInput →
    read (bs ++ more) = (read bs).map fun (a, rest) => (a, rest ++ more)

/-! ## One thing after another -/

theorem steady_constant (a : α) : Steady (constant a) := fun _ _ _ => rfl

theorem steady_error (e : DecodeError) :
    Steady fun _ => (.error e : Except DecodeError (α × Bytes)) := fun _ _ _ => rfl

/-- What comes next may depend on what was read, and starts with what that has left. -/
theorem Steady.bind (h : Steady read) {next : α → Bytes → Except DecodeError (β × Bytes)}
    (hnext : ∀ a, Steady (next a)) :
    Steady fun bs =>
      match read bs with
      | .error e => .error e
      | .ok (a, rest) => next a rest := by
  intro bs more hknown
  cases hread : read bs with
  | error e =>
      have hmore := h bs more fun hmissing => hknown (by simp only [hmissing])
      simp only [hmore, hread, Except.map]
  | ok front =>
      obtain ⟨a, rest⟩ := front
      have hmore := h bs more (by simp [hread])
      simp only [hmore, hread, Except.map] at hknown ⊢
      exact hnext a rest more hknown

theorem Steady.map (h : Steady read) (make : α → β) :
    Steady fun bs => (read bs).map fun (a, rest) => (make a, rest) := by
  intro bs more hknown
  have hmore := h bs more fun hmissing => hknown (by simp only [hmissing, Except.map])
  simp only [hmore]
  cases read bs <;> rfl

/-! ## Formats -/

theorem steady_take (n : Nat) : Steady (take n) := by
  intro bs more hknown
  cases hread : take n bs with
  | error e =>
      rw [take] at hread hknown
      split at hread
      · cases hread
      · next hnone => simp [hnone] at hknown
  | ok split =>
      obtain ⟨front, rest⟩ := split
      obtain ⟨rfl, rfl⟩ := append_of_take hread
      rw [List.append_assoc, take_append]
      rfl

theorem steady_nat (width : Nat) : Steady (nat width).decode := (steady_take width).map _

/-- A number that was read says how to go on. -/
theorem steady_number (width : Nat) {next : Nat → Bytes → Except DecodeError (β × Bytes)}
    (hnext : ∀ n, Steady (next n)) :
    Steady fun bs =>
      match (nat width).decode bs with
      | .error e => .error e
      | .ok (n, rest) => next n rest := by
  refine cast (congrArg Steady (funext fun bs => ?_)) ((steady_nat width).bind hnext)
  cases (nat width).decode bs <;> rfl

theorem steady_bytes : Steady bytes.decode := steady_number 8 steady_take

theorem Steady.iso (h : Steady f.decode) (make : α → β) (parts : β → α) :
    Steady (f.iso make parts).decode := h.map make

theorem Steady.seq (hf : Steady f.decode) (hg : Steady g.decode) : Steady (f.seq g).decode :=
  hf.bind fun a => hg.map (Prod.mk a)

/-- A value is refused, or not, after all of it has been read. -/
theorem Steady.refine (h : Steady f.decode) (e : DecodeError) (make? : α → Option β)
    (parts : β → α) : Steady (f.refine e make? parts).decode := by
  refine h.bind fun a => ?_
  cases make? a with
  | none => exact steady_error e
  | some b => exact steady_constant b

theorem Steady.option (h : Steady f.decode) : Steady f.option.decode := by
  intro bs more hknown
  cases bs with
  | nil => exact absurd rfl hknown
  | cons tag rest =>
      simp only [Format.option, List.cons_append] at hknown ⊢
      by_cases h0 : tag = 0
      · simp only [if_pos h0, Except.map]
      by_cases h1 : tag = 1
      · simp only [if_neg h0, if_pos h1] at hknown ⊢
        exact h.map some rest more hknown
      · simp only [if_neg h0, if_neg h1, Except.map]

/-- However many values are announced, they are read one after the other. -/
theorem Steady.decodeMany (h : Steady f.decode) (n : Nat) : Steady (decodeMany f n) := by
  induction n with
  | zero => exact steady_constant []
  | succ n ih => exact h.bind fun a => ih.map (List.cons a)

theorem Steady.list (h : Steady f.decode) : Steady (Format.list f).decode :=
  steady_number 8 h.decodeMany

theorem steady_choice {number : α → Nat} {encodeBody : α → Bytes}
    {body : Nat → Bytes → Except DecodeError (α × Bytes)} (h : ∀ n, Steady (body n)) :
    Steady (choice number encodeBody body).decode :=
  steady_number 4 h

theorem Steady.alternative (h : Steady f.decode) (make : α → β) : Steady (alternative f make) :=
  h.map make

theorem steady_unknown : Steady (unknown (α := α)) := steady_error .invalidValue

theorem steady_int32 : Steady int32.decode := (steady_nat 4).iso _ _

theorem steady_int64 : Steady int64.decode := (steady_nat 8).iso _ _

theorem steady_uint64 : Steady uint64.decode := (steady_nat 8).iso _ _

theorem steady_text : Steady text.decode := steady_bytes.refine _ _ _

theorem steady_uuid : Steady uuid.decode := steady_bytes.refine _ _ _

end Format

open Format

/-! ## Records -/

theorem steady_textPublish : Steady textPublish.decode :=
  (steady_uuid.seq <| steady_uuid.seq <| steady_int64.seq <| steady_text.seq steady_bytes).iso _ _

theorem steady_textChange : Steady textChange.decode :=
  (steady_uuid.seq <| steady_int64.seq <| steady_text.seq steady_bytes).iso _ _

theorem steady_pointer : Steady pointer.decode :=
  (steady_text.seq <| steady_uuid.seq <| steady_int64.seq <| steady_text.seq <|
    steady_text.option.seq <| steady_bytes.seq <| steady_int64.seq steady_text).iso _ _

theorem steady_filePublish : Steady filePublish.decode :=
  (steady_uuid.seq <| steady_text.seq <| steady_text.seq steady_bytes).iso _ _

theorem steady_historyKind : Steady historyKind.decode := by
  refine steady_choice fun n => ?_
  split
  · exact steady_constant _
  · exact steady_constant _
  · exact steady_unknown

theorem steady_historyItem : Steady historyItem.decode :=
  (steady_text.seq <| steady_text.seq <| steady_historyKind.seq <| steady_uuid.seq <|
    steady_int64.seq <| steady_text.seq <| steady_text.option.seq <| steady_int64.seq <|
    steady_bytes.seq <| steady_text.seq <| steady_text.option.seq steady_text.option).iso _ _

theorem steady_historyList : Steady historyList.decode :=
  (steady_text.seq steady_historyItem.list).iso _ _

theorem steady_historyText : Steady historyText.decode := (steady_text.seq steady_text).iso _ _

/-! ## Calls, answers and events -/

theorem steady_request : Steady request.decode := by
  refine steady_choice fun n => ?_
  split
  · exact (steady_text.seq steady_text).alternative _
  · exact steady_textPublish.alternative _
  · exact steady_pointer.alternative _
  · exact steady_filePublish.alternative _
  · exact steady_int32.alternative _
  · exact steady_text.alternative _
  · exact steady_unknown

theorem steady_response : Steady response.decode := by
  refine steady_choice fun n => ?_
  split
  · exact steady_constant _
  · exact steady_constant _
  · exact steady_historyList.alternative _
  · exact steady_historyText.alternative _
  · exact steady_unknown

theorem steady_event : Steady event.decode := by
  refine steady_choice fun n => ?_
  split
  · exact steady_textChange.alternative _
  · exact steady_pointer.alternative _
  · exact steady_historyItem.alternative _
  · exact steady_unknown

theorem steady_callErrorKind : Steady callErrorKind.decode := by
  refine steady_choice fun n => ?_
  split
  case h_6 => exact steady_unknown
  all_goals exact steady_constant _

theorem steady_callError : Steady callError.decode :=
  (steady_callErrorKind.seq steady_text).iso _ _

theorem steady_outcome : Steady outcome.decode := by
  refine steady_choice fun n => ?_
  split
  · exact steady_response.alternative _
  · exact steady_callError.alternative _
  · exact steady_unknown

/-! ## Frames -/

theorem steady_deviceFrame : Steady deviceFrame.decode := by
  refine steady_choice fun n => ?_
  split
  · exact (steady_uint64.seq steady_request).alternative _
  · exact steady_unknown

theorem steady_relayFrame : Steady relayFrame.decode := by
  refine steady_choice fun n => ?_
  split
  · exact (steady_uint64.seq steady_outcome).alternative _
  · exact steady_event.alternative _
  · exact steady_unknown

/-! ## All messages -/

theorem Message.steady (m : Message) : Steady m.format.decode := by
  cases m with
  | clipboardPublish => exact steady_textPublish
  | clipboardChanged => exact steady_textChange
  | clipboardItemPointer => exact steady_pointer
  | clipboardPointerPublish => exact steady_pointer
  | clipboardPointerChanged => exact steady_pointer
  | historyItem => exact steady_historyItem
  | historyList => exact steady_historyList
  | getHistoryRequest => exact steady_int32
  | getHistoryResponse => exact steady_historyList
  | historyItemAdded => exact steady_historyItem
  | getHistoryTextRequest => exact steady_text
  | getHistoryTextResponse => exact steady_historyText
  | clipboardFilePublish => exact steady_filePublish
  | hubRequest => exact steady_request
  | hubResponse => exact steady_response
  | hubEvent => exact steady_event
  | rpcError => exact steady_callError
  | clientFrame => exact steady_deviceFrame
  | serverFrame => exact steady_relayFrame

/-- More bytes make a difference only where some were missing. -/
theorem decode_append_of_ne {m : Message} {bs : Bytes} (h : decode m bs ≠ .error .endOfInput)
    (more : Bytes) : decode m (bs ++ more) = decode m bs := by
  have hknown : m.format.decode bs ≠ .error .endOfInput := fun hmissing => h (by
    rw [decode, hmissing, Except.map])
  rw [decode, decode, m.steady bs more hknown]
  cases m.format.decode bs <;> rfl

/-- Bytes cut off the end of a written form are missed. -/
theorem decode_of_strict_prefix {m : Message} {v : m.Value} (hfits : m.Fits v) {front : Bytes}
    (hfront : front <+: encode m v) (hne : front ≠ encode m v) :
    decode m front = .error .endOfInput := by
  obtain ⟨more, hmore⟩ := hfront
  refine Classical.byContradiction fun hknown => ?_
  have hread : decode m front = .ok v := by
    rw [← decode_append_of_ne hknown more, hmore, decode_encode hfits]
  -- What is read is there in full, and then nothing was cut off.
  have hfull : encode m v <+: front := (decode_eq_ok_iff.mp hread).2
  have hlength : front.length ≤ (encode m v).length := by
    rw [← hmore, List.length_append]
    omega
  exact hne (hfull.eq_of_length_le hlength).symm

/-- **Only missing bytes can change what is read**: if an input is read as a value, then so is
every longer one that begins with it, and if it is refused for any other reason than that it
ends too early, then every longer one is refused for the same reason.  So the beginnings of a
value's written form, however much or little is cut off, are all refused, and all because
they end too early. -/
theorem decode_append_eq (m : Message) :
    (∀ (bs more : Bytes) (v : m.Value), decode m bs = .ok v → decode m (bs ++ more) = .ok v) ∧
    (∀ (bs more : Bytes) (e : DecodeError), decode m bs = .error e → e ≠ .endOfInput →
      decode m (bs ++ more) = .error e) ∧
    (∀ (v : m.Value) (front : Bytes), m.Fits v → front <+: encode m v → front ≠ encode m v →
      decode m front = .error .endOfInput) := by
  refine ⟨?_, ?_, ?_⟩
  · intro bs more v hread
    rw [decode_append_of_ne (by simp [hread]) more, hread]
  · intro bs more e hread hother
    rw [decode_append_of_ne (by simpa [hread] using hother) more, hread]
  · intro v front hfits hfront hne
    exact decode_of_strict_prefix hfits hfront hne

/-- A call for the text of an item. -/
def textCall : DeviceFrame := ⟨7, .getHistoryText "Büro"⟩

/-- The call without its last byte, and the call behind a number that no call has. -/
theorem decode_append_eq_textCall :
    Message.clientFrame.Fits textCall ∧
      decode .clientFrame (encode .clientFrame textCall).dropLast = .error .endOfInput ∧
      decode .clientFrame [1, 0, 0, 0] = .error .invalidValue ∧
      decode .clientFrame ([1, 0, 0, 0] ++ encode .clientFrame textCall) =
        .error .invalidValue := by
  have hfits : Message.clientFrame.Fits textCall := (by decide : TextFits "Büro")
  have hunknown : decode .clientFrame [1, 0, 0, 0] = .error .invalidValue := rfl
  obtain ⟨-, hrefused, hcut⟩ := decode_append_eq .clientFrame
  refine ⟨hfits, hcut textCall _ hfits (List.dropLast_prefix _) (by decide), hunknown, ?_⟩
  exact hrefused _ _ _ hunknown (by decide)

end ClipRelay.Binary
