import ClipRelay.Binary.Messages
import ClipRelay.Proofs.Binary.Exact

/-!
# ClipRelay.Proofs.Binary.Messages

Every message of the protocol has an exact binary form.

The only values without a written form of their own are those with a text, a
byte string or a list too long for the eight bytes that its length is given:
`Message.Fits` leaves these out, record by record.  `Message.exact` assembles
the exactness of a message from that of its fields, and
`decode_eq_ok_iff_isPrefix` says what this means for whole inputs: a value is
read from an input exactly if the input begins with its bytes.
-/

namespace ClipRelay

open Binary Binary.Format

/-! ## Values that can be written -/

/-- The bytes of a text can be counted in eight bytes. -/
abbrev TextFits (s : String) : Prop := LengthFits s.utf8ByteSize

def TextPublish.Fits (p : TextPublish) : Prop := TextFits p.text ∧ LengthFits p.textHash.length

def TextChange.Fits (c : TextChange) : Prop := TextFits c.text ∧ LengthFits c.textHash.length

def Pointer.Fits (p : Pointer) : Prop :=
  TextFits p.roomId ∧ TextFits p.objectKey ∧ (∀ id ∈ p.providerFileId, TextFits id) ∧
    LengthFits p.contentHash.length ∧ TextFits p.contentType

def FilePublish.Fits (p : FilePublish) : Prop :=
  TextFits p.fileName ∧ TextFits p.contentType ∧ LengthFits p.bytes.length

def HistoryItem.Fits (i : HistoryItem) : Prop :=
  TextFits i.id ∧ TextFits i.roomId ∧ TextFits i.title ∧ (∀ s ∈ i.preview, TextFits s) ∧
    LengthFits i.contentHash.length ∧ TextFits i.contentType ∧
    (∀ id ∈ i.providerFileId, TextFits id) ∧ (∀ key ∈ i.objectKey, TextFits key)

def HistoryList.Fits (l : HistoryList) : Prop :=
  TextFits l.roomId ∧ LengthFits l.items.length ∧ ∀ i ∈ l.items, i.Fits

def HistoryText.Fits (t : HistoryText) : Prop := TextFits t.itemId ∧ TextFits t.text

def Request.Fits : Request → Prop
  | .joinRoom roomId roomSecret => TextFits roomId ∧ TextFits roomSecret
  | .publishText p => p.Fits
  | .publishPointer p => p.Fits
  | .publishFile p => p.Fits
  | .getHistory _ => True
  | .getHistoryText itemId => TextFits itemId

def Response.Fits : Response → Prop
  | .joined | .published => True
  | .history l => l.Fits
  | .historyText t => t.Fits

def Event.Fits : Event → Prop
  | .textChanged c => c.Fits
  | .pointerChanged p => p.Fits
  | .historyItemAdded i => i.Fits

def CallError.Fits (e : CallError) : Prop := TextFits e.message

/-- The outcome of a call can be written. -/
def OutcomeFits : Outcome → Prop
  | .ok r => r.Fits
  | .error e => e.Fits

def DeviceFrame.Fits (f : DeviceFrame) : Prop := f.request.Fits

def RelayFrame.Fits : RelayFrame → Prop
  | .completion _ o => OutcomeFits o
  | .event e => e.Fits

namespace Binary

/-- Every length in a value is below `2 ^ 64`. -/
def Message.Fits : (m : Message) → m.Value → Prop
  | .clipboardPublish => TextPublish.Fits
  | .clipboardChanged => TextChange.Fits
  | .clipboardItemPointer | .clipboardPointerPublish | .clipboardPointerChanged => Pointer.Fits
  | .historyItem | .historyItemAdded => HistoryItem.Fits
  | .historyList | .getHistoryResponse => HistoryList.Fits
  | .getHistoryRequest => fun _ => True
  | .getHistoryTextRequest => TextFits
  | .getHistoryTextResponse => HistoryText.Fits
  | .clipboardFilePublish => FilePublish.Fits
  | .hubRequest => Request.Fits
  | .hubResponse => Response.Fits
  | .hubEvent => Event.Fits
  | .rpcError => CallError.Fits
  | .clientFrame => DeviceFrame.Fits
  | .serverFrame => RelayFrame.Fits

/-! ## Records -/

theorem exact_textPublish : textPublish.Exact TextPublish.Fits := by
  refine ((exact_uuid.seq <| exact_uuid.seq <| exact_int64.seq <| exact_text.seq exact_bytes).iso
    ?_ ?_).congr fun p => ?_
  · intro p
    rfl
  · intro parts _
    rfl
  · simp [TextPublish.Fits]

theorem exact_textChange : textChange.Exact TextChange.Fits := by
  refine ((exact_uuid.seq <| exact_int64.seq <| exact_text.seq exact_bytes).iso ?_ ?_).congr
    fun c => ?_
  · intro c
    rfl
  · intro parts _
    rfl
  · simp [TextChange.Fits]

theorem exact_pointer : pointer.Exact Pointer.Fits := by
  refine ((exact_text.seq <| exact_uuid.seq <| exact_int64.seq <| exact_text.seq <|
    exact_text.option.seq <| exact_bytes.seq <| exact_int64.seq exact_text).iso ?_ ?_).congr
    fun p => ?_
  · intro p
    rfl
  · intro parts _
    rfl
  · simp [Pointer.Fits]

theorem exact_filePublish : filePublish.Exact FilePublish.Fits := by
  refine ((exact_uuid.seq <| exact_text.seq <| exact_text.seq exact_bytes).iso ?_ ?_).congr
    fun p => ?_
  · intro p
    rfl
  · intro parts _
    rfl
  · simp [FilePublish.Fits]

theorem exact_historyKind : historyKind.Exact fun _ => True := by
  refine exact_choice ?_ ?_ ?_
  · intro k
    cases k <;> decide
  · intro k rest _
    cases k <;> rfl
  · intro n bs k rest h
    split at h
    · obtain ⟨rfl, rfl⟩ := eq_of_constant h
      exact ⟨rfl, trivial, rfl⟩
    · obtain ⟨rfl, rfl⟩ := eq_of_constant h
      exact ⟨rfl, trivial, rfl⟩
    · exact absurd h unknown_ne_ok

theorem exact_historyItem : historyItem.Exact HistoryItem.Fits := by
  refine ((exact_text.seq <| exact_text.seq <| exact_historyKind.seq <| exact_uuid.seq <|
    exact_int64.seq <| exact_text.seq <| exact_text.option.seq <| exact_int64.seq <|
    exact_bytes.seq <| exact_text.seq <| exact_text.option.seq exact_text.option).iso
    ?_ ?_).congr fun i => ?_
  · intro i
    rfl
  · intro parts _
    rfl
  · simp [HistoryItem.Fits]

theorem exact_historyList : historyList.Exact HistoryList.Fits := by
  refine ((exact_text.seq exact_historyItem.list).iso ?_ ?_).congr fun l => ?_
  · intro l
    rfl
  · intro parts _
    rfl
  · rfl

theorem exact_historyText : historyText.Exact HistoryText.Fits := by
  refine ((exact_text.seq exact_text).iso ?_ ?_).congr fun t => ?_
  · intro t
    rfl
  · intro parts _
    rfl
  · rfl

/-! ## Calls, answers and events -/

/-- A row of alternatives reads the written form of a call. -/
theorem exact_request : request.Exact Request.Fits := by
  refine exact_choice ?_ ?_ ?_
  · intro r
    cases r <;> simp [requestNumber]
  · intro r rest hr
    cases r with
    | joinRoom roomId roomSecret => exact (exact_text.seq exact_text).alternative_append _ _ rest hr
    | publishText p => exact exact_textPublish.alternative_append _ _ rest hr
    | publishPointer p => exact exact_pointer.alternative_append _ _ rest hr
    | publishFile p => exact exact_filePublish.alternative_append _ _ rest hr
    | getHistory limit => exact exact_int32.alternative_append _ _ rest hr
    | getHistoryText itemId => exact exact_text.alternative_append _ _ rest hr
  · intro n bs r rest h
    split at h
    · obtain ⟨a, rfl, ha⟩ := (exact_text.seq exact_text).append_of_alternative h
      exact ⟨rfl, ha⟩
    · obtain ⟨a, rfl, ha⟩ := exact_textPublish.append_of_alternative h
      exact ⟨rfl, ha⟩
    · obtain ⟨a, rfl, ha⟩ := exact_pointer.append_of_alternative h
      exact ⟨rfl, ha⟩
    · obtain ⟨a, rfl, ha⟩ := exact_filePublish.append_of_alternative h
      exact ⟨rfl, ha⟩
    · obtain ⟨a, rfl, ha⟩ := exact_int32.append_of_alternative h
      exact ⟨rfl, ha⟩
    · obtain ⟨a, rfl, ha⟩ := exact_text.append_of_alternative h
      exact ⟨rfl, ha⟩
    · exact absurd h unknown_ne_ok

theorem exact_response : response.Exact Response.Fits := by
  refine exact_choice ?_ ?_ ?_
  · intro r
    cases r <;> simp [responseNumber]
  · intro r rest hr
    cases r with
    | joined => rfl
    | published => rfl
    | history l => exact exact_historyList.alternative_append _ _ rest hr
    | historyText t => exact exact_historyText.alternative_append _ _ rest hr
  · intro n bs r rest h
    split at h
    · obtain ⟨rfl, rfl⟩ := eq_of_constant h
      exact ⟨rfl, trivial, rfl⟩
    · obtain ⟨rfl, rfl⟩ := eq_of_constant h
      exact ⟨rfl, trivial, rfl⟩
    · obtain ⟨a, rfl, ha⟩ := exact_historyList.append_of_alternative h
      exact ⟨rfl, ha⟩
    · obtain ⟨a, rfl, ha⟩ := exact_historyText.append_of_alternative h
      exact ⟨rfl, ha⟩
    · exact absurd h unknown_ne_ok

theorem exact_event : event.Exact Event.Fits := by
  refine exact_choice ?_ ?_ ?_
  · intro e
    cases e <;> simp [eventNumber]
  · intro e rest he
    cases e with
    | textChanged c => exact exact_textChange.alternative_append _ _ rest he
    | pointerChanged p => exact exact_pointer.alternative_append _ _ rest he
    | historyItemAdded i => exact exact_historyItem.alternative_append _ _ rest he
  · intro n bs e rest h
    split at h
    · obtain ⟨a, rfl, ha⟩ := exact_textChange.append_of_alternative h
      exact ⟨rfl, ha⟩
    · obtain ⟨a, rfl, ha⟩ := exact_pointer.append_of_alternative h
      exact ⟨rfl, ha⟩
    · obtain ⟨a, rfl, ha⟩ := exact_historyItem.append_of_alternative h
      exact ⟨rfl, ha⟩
    · exact absurd h unknown_ne_ok

theorem exact_callErrorKind : callErrorKind.Exact fun _ => True := by
  refine exact_choice ?_ ?_ ?_
  · intro k
    cases k <;> decide
  · intro k rest _
    cases k <;> rfl
  · intro n bs k rest h
    split at h
    case h_6 => exact absurd h unknown_ne_ok
    all_goals
      obtain ⟨rfl, rfl⟩ := eq_of_constant h
      exact ⟨rfl, trivial, rfl⟩

theorem exact_callError : callError.Exact CallError.Fits := by
  refine ((exact_callErrorKind.seq exact_text).iso ?_ ?_).congr fun e => ?_
  · intro e
    rfl
  · intro parts _
    rfl
  · simp [CallError.Fits]

theorem exact_outcome : outcome.Exact OutcomeFits := by
  refine exact_choice ?_ ?_ ?_
  · intro o
    cases o <;> simp [outcomeNumber]
  · intro o rest ho
    cases o with
    | ok r => exact exact_response.alternative_append _ _ rest ho
    | error e => exact exact_callError.alternative_append _ _ rest ho
  · intro n bs o rest h
    split at h
    · obtain ⟨a, rfl, ha⟩ := exact_response.append_of_alternative h
      exact ⟨rfl, ha⟩
    · obtain ⟨a, rfl, ha⟩ := exact_callError.append_of_alternative h
      exact ⟨rfl, ha⟩
    · exact absurd h unknown_ne_ok

/-! ## Frames -/

theorem exact_deviceFrame : deviceFrame.Exact DeviceFrame.Fits := by
  refine exact_choice ?_ ?_ ?_
  · intro f
    decide
  · intro f rest hf
    exact (exact_uint64.seq exact_request).alternative_append
      (fun p => (⟨p.1, p.2⟩ : DeviceFrame)) (f.callId, f.request) rest
      ⟨trivial, hf⟩
  · intro n bs f rest h
    split at h
    · obtain ⟨a, rfl, ha, happ⟩ := (exact_uint64.seq exact_request).append_of_alternative h
      exact ⟨rfl, ha.2, happ⟩
    · exact absurd h unknown_ne_ok

theorem exact_relayFrame : relayFrame.Exact RelayFrame.Fits := by
  refine exact_choice ?_ ?_ ?_
  · intro f
    cases f <;> simp [relayFrameNumber]
  · intro f rest hf
    cases f with
    | completion callId o =>
        exact (exact_uint64.seq exact_outcome).alternative_append
          (fun p => RelayFrame.completion p.1 p.2) (callId, o) rest ⟨trivial, hf⟩
    | event e => exact exact_event.alternative_append _ _ rest hf
  · intro n bs f rest h
    split at h
    · obtain ⟨a, rfl, ha, happ⟩ := (exact_uint64.seq exact_outcome).append_of_alternative h
      exact ⟨rfl, ha.2, happ⟩
    · obtain ⟨a, rfl, ha⟩ := exact_event.append_of_alternative h
      exact ⟨rfl, ha⟩
    · exact absurd h unknown_ne_ok

/-! ## All messages -/

/-- The binary form of every message is exact. -/
theorem Message.exact (m : Message) : m.format.Exact m.Fits := by
  cases m with
  | clipboardPublish => exact exact_textPublish
  | clipboardChanged => exact exact_textChange
  | clipboardItemPointer => exact exact_pointer
  | clipboardPointerPublish => exact exact_pointer
  | clipboardPointerChanged => exact exact_pointer
  | historyItem => exact exact_historyItem
  | historyList => exact exact_historyList
  | getHistoryRequest => exact exact_int32
  | getHistoryResponse => exact exact_historyList
  | historyItemAdded => exact exact_historyItem
  | getHistoryTextRequest => exact exact_text
  | getHistoryTextResponse => exact exact_historyText
  | clipboardFilePublish => exact exact_filePublish
  | hubRequest => exact exact_request
  | hubResponse => exact exact_response
  | hubEvent => exact exact_event
  | rpcError => exact exact_callError
  | clientFrame => exact exact_deviceFrame
  | serverFrame => exact exact_relayFrame

/-- Decoding gives a value just where its bytes stand in front. -/
theorem decode_eq_ok_iff {m : Message} {bs : Bytes} {v : m.Value} :
    decode m bs = .ok v ↔ m.Fits v ∧ encode m v <+: bs := by
  rw [decode, encode]
  constructor
  · intro h
    cases hd : m.format.decode bs with
    | error e => simp only [hd, Except.map] at h; contradiction
    | ok read =>
        obtain ⟨a, rest⟩ := read
        simp only [hd, Except.map] at h
        cases h
        obtain ⟨hfits, happ⟩ := m.exact.decode_eq_ok_iff.mp hd
        exact ⟨hfits, rest, happ⟩
  · rintro ⟨hfits, rest, happ⟩
    rw [m.exact.decode_eq_ok_iff.mpr ⟨hfits, happ⟩]
    rfl

/-- What can be written is read again. -/
theorem decode_encode {m : Message} {v : m.Value} (h : m.Fits v) : decode m (encode m v) = .ok v :=
  decode_eq_ok_iff.mpr ⟨h, List.prefix_rfl⟩

/-- **The binary form is exact and self-delimiting**: a value is read from an
input just when the input begins with its bytes, whatever follows them; all
that is read is what was written; and no value's bytes are the beginning of
another's. -/
theorem decode_eq_ok_iff_isPrefix (m : Message) :
    (∀ (v : m.Value) (bs : Bytes), m.Fits v → (decode m bs = .ok v ↔ encode m v <+: bs)) ∧
    (∀ (v : m.Value) (rest : Bytes), m.Fits v → decode m (encode m v ++ rest) = .ok v) ∧
    (∀ (bs : Bytes) (v : m.Value), decode m bs = .ok v →
      m.Fits v ∧ ∃ rest, encode m v ++ rest = bs) ∧
    (∀ v w : m.Value, m.Fits v → m.Fits w → encode m v <+: encode m w → v = w) := by
  refine ⟨?_, ?_, ?_, ?_⟩
  · intro v bs hv
    rw [decode_eq_ok_iff]
    exact and_iff_right hv
  · intro v rest hv
    rw [decode_eq_ok_iff]
    exact ⟨hv, List.prefix_append _ _⟩
  · intro bs v hd
    exact decode_eq_ok_iff.mp hd
  · intro v w hv hw hp
    exact m.exact.eq_of_isPrefix hv hw hp

/-- A completion that lists one file, with and without its optional fields. -/
def reportListed : RelayFrame :=
  .completion 7 <| .ok <| .history
    { roomId := "Büro"
      items :=
        [{ id := "1_0_AB", roomId := "Büro", kind := .file, origin := .nil, time := -1
           title := "report.pdf", preview := none, sizeBytes := 2048, contentHash := [0, 255]
           contentType := "application/pdf", providerFileId := none
           objectKey := some "clips/Büro/1.bin" }] }

theorem decode_reportListed :
    Message.serverFrame.Fits reportListed ∧
      decode .serverFrame (encode .serverFrame reportListed ++ [0xFF, 0x00]) = .ok reportListed := by
  have hfits : Message.serverFrame.Fits reportListed := by
    simp only [Message.Fits, RelayFrame.Fits, OutcomeFits, Response.Fits, HistoryList.Fits,
      HistoryItem.Fits, reportListed, List.mem_singleton, forall_eq, Option.mem_def,
      Option.some.injEq, reduceCtorEq, false_implies, implies_true, forall_eq']
    decide
  have hread := (decode_eq_ok_iff_isPrefix .serverFrame).1 reportListed
    (encode .serverFrame reportListed ++ [0xFF, 0x00]) hfits
  exact ⟨hfits, hread.mpr (List.prefix_append _ _)⟩

end Binary

end ClipRelay
