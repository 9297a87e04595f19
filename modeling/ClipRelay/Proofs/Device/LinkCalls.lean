import ClipRelay.Proofs.Device.LinkStates
import Mathlib.Algebra.Group.Nat.Defs
import Mathlib.Data.List.Nodup

/-!
# ClipRelay.Proofs.Device.LinkCalls

Which answer a call gets.

A device makes calls on its link, and frames come in from whatever socket is open at the
time.  A call that is sent waits under a number of its own, which no other call of the link
ever gets.  The first thing that ends the wait decides what becomes of the call
(`LinkTurn.endOf?`): a completion under its number, the end of its time, or the end of
the socket.  `Link.verdict` looks for it in what happens after the call was sent, and
nothing else counts: not what other calls wait, in which order completions come, or what
becomes of events.

A turn does one of four things to the calls that wait (`Link.Shape`), from which all else
follows.
-/

namespace ClipRelay

/-- What can happen to a link, and its device taking so many of the events that wait. -/
inductive LinkTurn where
  | act (a : LinkAction)
  | take (count : Nat)

namespace LinkTurn

/-- Bytes come in from the socket. -/
abbrev received (bytes : Bytes) : LinkTurn := .act (.signal (.received bytes))

/-- Whether a socket opens, on which the link joins its room by itself. -/
def isOpening : LinkTurn → Bool
  | .act (.signal .opened) => true
  | _ => false

/-- Whether the socket is gone, or the device gives the link up. -/
def isClosing : LinkTurn → Bool
  | .act (.signal .socketClosed) => true
  | .act (.signal .close) => true
  | _ => false

/-- The event that comes in. -/
def event? : LinkTurn → Option Event
  | .act (.signal (.received bytes)) =>
    match Binary.decode .serverFrame bytes with
    | .ok (.event event) => some event
    | _ => none
  | _ => none

/-- How a turn ends a call that waits under a number, if it does. -/
def endOf? (callId : UInt64) : LinkTurn → Option (Except DeviceError Response)
  | .act (.signal (.received bytes)) =>
    match Binary.decode .serverFrame bytes with
    | .ok (.completion callId' outcome) =>
      if callId' = callId then some (outcome.mapError .rpc) else none
    | _ => none
  | .act (.signal (.callTimedOut callId')) =>
    if callId' = callId then some (.error .timeout) else none
  | .act (.signal .socketClosed) => some (.error .connectionClosed)
  | .act (.signal .close) => some (.error .connectionClosed)
  | _ => none

end LinkTurn

namespace Link

/-- Takes one turn. -/
def turn (c : Link) : LinkTurn → List LinkEffect × Link
  | .act a => c.act a
  | .take count => ([], { c with events := c.events.drop count })

/-- Takes one turn after another: what the link does on them, and the link after them. -/
def play (c : Link) : List LinkTurn → List LinkEffect × Link
  | [] => ([], c)
  | t :: ts => ((c.turn t).1 ++ ((c.turn t).2.play ts).1, ((c.turn t).2.play ts).2)

/-- The frames that are sent among some effects. -/
def sentOf (effects : List LinkEffect) : List DeviceFrame :=
  effects.filterMap fun
    | .send frame => some frame
    | _ => none

/-- What a call is told among some effects, as often as it is. -/
def endsOf (callId : UInt64) (effects : List LinkEffect) : List (Except DeviceError Response) :=
  effects.filterMap fun
    | .finish callId' result => if callId' = callId then some result else none
    | _ => none

/-- What becomes of a call that waits: whatever ends the wait first. -/
def verdict (callId : UInt64) (turns : List LinkTurn) : Option (Except DeviceError Response) :=
  turns.findSome? (LinkTurn.endOf? callId)

/-- The event that a turn adds to those that wait: one that comes in while the device listens
and there is room for it. -/
def keptBy (c : Link) (t : LinkTurn) : List Event :=
  if c.phase = .live ∧ c.listening ∧ c.events.length < eventCapacity then t.event?.toList else []

/-- All events that are kept over a run, in order. -/
def kept (c : Link) : List LinkTurn → List Event
  | [] => []
  | t :: ts => c.keptBy t ++ (c.turn t).2.kept ts

/-- The events that the device takes with a turn. -/
def takenBy (c : Link) : LinkTurn → List Event
  | .act .takeEvents => c.events
  | .take count => c.events.take count
  | _ => []

/-- All events that the device takes over a run, in order. -/
def taken (c : Link) : List LinkTurn → List Event
  | [] => []
  | t :: ts => c.takenBy t ++ (c.turn t).2.taken ts

variable {c c' : Link} {t : LinkTurn} {callId : UInt64} {effects : List LinkEffect}

theorem play_append (c : Link) (before after : List LinkTurn) :
    c.play (before ++ after) = ((c.play before).1 ++ ((c.play before).2.play after).1,
      ((c.play before).2.play after).2) := by
  induction before generalizing c with
  | nil => rfl
  | cons t before ih =>
      rw [List.cons_append, play, ih (c.turn t).2, play, List.append_assoc]

theorem sentOf_append (effects effects' : List LinkEffect) :
    sentOf (effects ++ effects') = sentOf effects ++ sentOf effects' := List.filterMap_append

theorem endsOf_append (callId : UInt64) (effects effects' : List LinkEffect) :
    endsOf callId (effects ++ effects') = endsOf callId effects ++ endsOf callId effects' :=
  List.filterMap_append

theorem verdict_cons (callId : UInt64) (t : LinkTurn) (turns : List LinkTurn) :
    verdict callId (t :: turns) = (t.endOf? callId).or (verdict callId turns) := by
  rw [verdict, List.findSome?_cons, verdict]
  cases t.endOf? callId <;> rfl

/-! ## What a turn does to the calls that wait -/

/-- Calls wait only while a socket is open. -/
def Tidy (c : Link) : Prop := c.phase ≠ .live → c.pending = ∅

/-- What a turn can do to the calls that wait. -/
inductive Shape (c : Link) (t : LinkTurn) : List LinkEffect → Link → Prop where
  /-- All wait on; at most, the next attempt to open a socket is put off. -/
  | quiet {effects : List LinkEffect} {c' : Link} (hsent : sentOf effects = [])
      (hends : ∀ callId, endsOf callId effects = []) (hpending : c'.pending = c.pending)
      (hnext : c'.nextCall = c.nextCall)
      (hlive : c.phase = .live → c'.phase = .live)
      (hwait : ∀ callId, (c.pending.get? callId).isSome → t.endOf? callId = none) :
      Shape c t effects c'
  /-- One more waits, under the next number. -/
  | sent {c' : Link} (purpose : PendingCall) (request : Request)
      (hpending : c'.pending = c.pending.insert c.nextCall purpose)
      (hnext : c'.nextCall = c.nextCall + 1) (hlive : c'.phase = .live)
      (hown : purpose = .rejoin ↔ t.isOpening) (hwait : ∀ callId, t.endOf? callId = none) :
      Shape c t [.send ⟨c.nextCall, request⟩] c'
  /-- One waits no longer. -/
  | settled {c' : Link} (callId : UInt64) (purpose : PendingCall)
      (result : Except DeviceError Response) (hwaits : c.pending.get? callId = some purpose)
      (hpending : c'.pending = c.pending.erase callId) (hnext : c'.nextCall = c.nextCall)
      (hlive : c.phase = .live → c'.phase = .live)
      (hend : ∀ id, t.endOf? id = if callId = id then some result else none)
      (hjoined : purpose ≠ .other → result.isOk → c'.state = .joined) :
      Shape c t (if purpose = .rejoin then [] else [.finish callId result]) c'
  /-- None waits any longer. -/
  | cut {waits : List LinkEffect} {c' : Link} (hsent : sentOf waits = [])
      (hends : ∀ callId, endsOf callId waits = []) (hpending : c'.pending = ∅)
      (hnext : c'.nextCall = c.nextCall)
      (hend : ∀ callId, t.endOf? callId = some (.error .connectionClosed)) :
      Shape c t (c.cutOff ++ waits) c'

/-- A turn on which nothing is done, and that would end no call. -/
theorem shape_still (c : Link) (hend : ∀ callId, t.endOf? callId = none) : Shape c t [] c :=
  .quiet rfl (fun _ => rfl) rfl rfl (fun hlive => hlive) fun callId _ => hend callId

/-- A turn on which nothing is done, while no socket is open. -/
theorem Tidy.quiet (h : c.Tidy) (hphase : c.phase ≠ .live) (t : LinkTurn) : Shape c t [] c := by
  refine .quiet rfl (fun _ => rfl) rfl rfl (fun hlive => hlive) fun callId hwaits => ?_
  rw [h hphase] at hwaits
  cases hwaits

/-- A call is sent and waits, or is not made at all. -/
theorem shape_sending (c : Link) (purpose : PendingCall) {t : LinkTurn}
    (hend : ∀ callId, t.endOf? callId = none) (hown : purpose = .rejoin ↔ t.isOpening)
    (request : Request) :
    Shape c t (sending (c.callAs purpose request)).1 (sending (c.callAs purpose request)).2 := by
  by_cases hlive : c.phase = .live
  · rw [sending_callAs_of_live hlive]
    exact .sent purpose request rfl rfl hlive hown hend
  · rw [sending_callAs_of_not_live hlive]
    exact shape_still c hend

/-- Just the calls that wait and the next number count of the link before. -/
theorem Shape.congr {c₀ : Link} (h : Shape c₀ t effects c') (hpending : c₀.pending = c.pending)
    (hnext : c₀.nextCall = c.nextCall) (hphase : c.phase = .live → c₀.phase = .live) :
    Shape c t effects c' := by
  cases h with
  | quiet hsent hends hpending' hnext' hlive hwait =>
      exact .quiet hsent hends (hpending'.trans hpending) (hnext'.trans hnext)
        (hlive ∘ hphase) (hpending ▸ hwait)
  | sent purpose request hpending' hnext' hlive hown hwait =>
      rw [hnext]
      exact .sent purpose request (by rw [hpending', hpending, hnext]) (by rw [hnext', hnext])
        hlive hown hwait
  | settled callId purpose result hwaits hpending' hnext' hlive hend hjoined =>
      exact .settled callId purpose result (hpending ▸ hwaits) (by rw [hpending', hpending])
        (hnext'.trans hnext) (hlive ∘ hphase) hend hjoined
  | cut hsent hends hpending' hnext' hend =>
      have hcut : c₀.cutOff = c.cutOff := by rw [cutOff, cutOff, hpending]
      rw [hcut]
      exact .cut hsent hends hpending' (hnext'.trans hnext) hend

/-- A completion settles the call that waits for it, if there is one. -/
theorem shape_complete (c : Link) {t : LinkTurn} {callId : UInt64} {outcome : Outcome}
    (hend : ∀ id, t.endOf? id = if callId = id then some (outcome.mapError .rpc) else none) :
    Shape c t (c.complete callId outcome).1 (c.complete callId outcome).2 := by
  cases hwaits : c.pending.get? callId with
  | none =>
      rw [complete_of_unknown hwaits]
      refine .quiet rfl (fun _ => rfl) rfl rfl (fun hlive => hlive) fun id hid => ?_
      rw [hend, if_neg]
      rintro rfl
      simp [hwaits] at hid
  | some purpose =>
      have hafter := complete_of_waiting hwaits outcome
      have heffects : (c.complete callId outcome).1 =
          if purpose = .rejoin then [] else [.finish callId (outcome.mapError .rpc)] := by
        simp only [complete, hwaits]
        cases purpose <;> rfl
      rw [heffects]
      refine .settled callId purpose _ hwaits (by rw [hafter]) (by rw [hafter])
        (by rw [hafter]; exact id) hend ?_
      intro hjoin hok
      have haccepted : outcome.isOk := by cases outcome <;> trivial
      simp only [hafter, hjoin, haccepted, ne_eq, not_false_eq_true, and_self, if_true]

/-- A call whose time is up is settled, if it waits. -/
theorem shape_callTimedOut (c : Link) (callId : UInt64) :
    Shape c (.act (.signal (.callTimedOut callId))) (c.step (.callTimedOut callId)).1
      (c.step (.callTimedOut callId)).2 := by
  cases hwaits : c.pending.get? callId with
  | none =>
      simp only [step, hwaits]
      refine .quiet rfl (fun _ => rfl) rfl rfl (fun hlive => hlive) fun id hid => ?_
      rw [LinkTurn.endOf?, if_neg]
      rintro rfl
      simp [hwaits] at hid
  | some purpose =>
      have hafter := step_callTimedOut c callId
      have heffects : (c.step (.callTimedOut callId)).1 =
          if purpose = .rejoin then [] else [.finish callId (.error .timeout)] := by
        cases purpose <;> simp only [step, hwaits] <;> rfl
      rw [heffects]
      exact .settled callId purpose _ hwaits (by rw [hafter]) (by rw [hafter])
        (by rw [hafter]; exact id) (fun _ => rfl) fun _ hok => by cases hok

theorem Tidy.shape_signal (h : c.Tidy) (signal : LinkSignal) :
    Shape c (.act (.signal signal)) (c.step signal).1 (c.step signal).2 := by
  cases signal with
  | callTimedOut callId => exact shape_callTimedOut c callId
  | close =>
      have hcut : Shape c (.act (.signal .close)) (c.cutOff ++ []) (c.step .close).2 :=
        .cut rfl (fun _ => rfl) rfl rfl fun _ => rfl
      rwa [List.append_nil] at hcut
  | opened =>
      cases hphase : c.phase with
      | dialing =>
          have hsent := shape_sending
            { c with phase := .live, state := .connected, attempts := 0 } .rejoin
            (t := .act (.signal .opened)) (fun _ => rfl) (by simp [LinkTurn.isOpening])
            (.joinRoom c.credentials.1 c.credentials.2)
          simp only [step, hphase, opened_eq]
          exact hsent.congr rfl rfl fun _ => rfl
      | _ =>
          simp only [step, hphase]
          exact shape_still c fun _ => rfl
  | openFailed =>
      cases hphase : c.phase with
      | dialing =>
          simp only [step, hphase]
          exact .quiet rfl (fun _ => rfl) rfl rfl (by simp [hphase]) fun _ _ => rfl
      | _ =>
          simp only [step, hphase]
          exact shape_still c fun _ => rfl
  | waited =>
      cases hphase : c.phase with
      | waiting =>
          simp only [step, hphase]
          exact .quiet rfl (fun _ => rfl) rfl rfl (by simp [hphase]) fun _ _ => rfl
      | _ =>
          simp only [step, hphase]
          exact shape_still c fun _ => rfl
  | socketClosed =>
      cases hphase : c.phase with
      | live =>
          simp only [step, hphase]
          exact .cut rfl (fun _ => rfl) rfl rfl fun _ => rfl
      | _ =>
          simp only [step, hphase]
          exact h.quiet (by simp [hphase]) _
  | received bytes =>
      cases hphase : c.phase with
      | live =>
          simp only [step, hphase, receive]
          cases hdecode : Binary.decode .serverFrame bytes with
          | error e =>
              exact shape_still c fun id => by simp only [LinkTurn.endOf?, hdecode]
          | ok frame =>
              cases frame with
              | completion callId outcome =>
                  exact shape_complete c fun id => by simp only [LinkTurn.endOf?, hdecode]
              | event event =>
                  simp only [deliver]
                  split <;>
                    exact .quiet rfl (fun _ => rfl) rfl rfl (fun hlive => hlive) fun id _ => by
                      simp only [LinkTurn.endOf?, hdecode]
      | _ =>
          simp only [step, hphase]
          exact h.quiet (by simp [hphase]) _

theorem Tidy.shape (h : c.Tidy) (t : LinkTurn) : Shape c t (c.turn t).1 (c.turn t).2 := by
  cases t with
  | take count => exact .quiet rfl (fun _ => rfl) rfl rfl (fun hlive => hlive) fun _ _ => rfl
  | act a =>
      cases a with
      | signal signal => exact h.shape_signal signal
      | takeEvents => exact .quiet rfl (fun _ => rfl) rfl rfl (fun hlive => hlive) fun _ _ => rfl
      | stopListening => exact .quiet rfl (fun _ => rfl) rfl rfl (fun hlive => hlive) fun _ _ => rfl
      | call request =>
          exact shape_sending c .other (fun _ => rfl) (by simp [LinkTurn.isOpening]) request
      | join roomId secret =>
          have hsent := shape_sending { c with credentials := (roomId, secret) } .join
            (t := .act (.join roomId secret)) (fun _ => rfl) (by simp [LinkTurn.isOpening])
            (.joinRoom roomId secret)
          exact hsent.congr rfl rfl id

theorem Tidy.shape_of (h : c.Tidy) (hturn : c.turn t = (effects, c')) : Shape c t effects c' := by
  have hshape := h.shape t
  rwa [hturn] at hshape

theorem Tidy.turn (h : c.Tidy) (hturn : c.turn t = (effects, c')) : c'.Tidy := by
  intro hphase
  cases h.shape_of hturn with
  | quiet hsent hends hpending hnext hlive hwait =>
      rw [hpending]
      exact h fun hbefore => hphase (hlive hbefore)
  | sent purpose request hpending hnext hlive hown hwait => exact absurd hlive hphase
  | settled callId purpose result hwaits hpending hnext hlive hend hjoined =>
      rw [h fun hbefore => hphase (hlive hbefore)] at hwaits
      cases hwaits
  | cut hsent hends hpending hnext hend => exact hpending

theorem Tidy.play (h : c.Tidy) (turns : List LinkTurn) : (c.play turns).2.Tidy := by
  induction turns generalizing c with
  | nil => exact h
  | cons t turns ih => exact ih (h.turn rfl)

/-- The call of each number that waits is told once that the socket is gone. -/
theorem endsOf_cutOff (c : Link) (callId : UInt64) :
    endsOf callId c.cutOff = ((c.pending.get? callId).bind fun purpose =>
      if purpose = .rejoin then none else some (.error .connectionClosed)).toList := by
  rw [Table.get?, ← Table.filterMap_of_key c.pending.nodup_keys, endsOf, cutOff,
    List.filterMap_filterMap]
  refine List.filterMap_congr fun e _ => ?_
  obtain ⟨callId', purpose⟩ := e
  cases purpose <;> simp

/-- Calls are all that ends with a socket. -/
theorem filterMap_cutOff {β : Type} (c : Link) {f : LinkEffect → Option β}
    (hfinish : ∀ callId result, f (.finish callId result) = none) : c.cutOff.filterMap f = [] := by
  rw [cutOff, List.filterMap_filterMap]
  refine List.filterMap_eq_nil_iff.mpr fun e _ => ?_
  obtain ⟨callId, purpose⟩ := e
  cases purpose <;> simp [hfinish]

theorem sentOf_cutOff (c : Link) : sentOf c.cutOff = [] := c.filterMap_cutOff fun _ _ => rfl

/-! ## One call -/

/-- A call that does not wait is told nothing on a turn, and does not wait after it, unless its
number is given again. -/
theorem Tidy.turn_of_not_waiting (h : c.Tidy) (hturn : c.turn t = (effects, c'))
    (hnone : c.pending.get? callId = none) (hnew : ∀ frame ∈ sentOf effects, frame.callId ≠ callId) :
    endsOf callId effects = [] ∧ c'.pending.get? callId = none := by
  cases h.shape_of hturn with
  | quiet hsent hends hpending hnext hlive hwait => exact ⟨hends callId, hpending ▸ hnone⟩
  | sent purpose request hpending hnext hlive hown hwait =>
      have hother : c.nextCall ≠ callId := hnew _ List.mem_cons_self
      exact ⟨rfl, by rw [hpending, Table.get?_insert, if_neg hother, hnone]⟩
  | settled callId' purpose result hwaits hpending hnext hlive hend hjoined =>
      have hother : callId' ≠ callId := fun heq => by simp [heq, hnone] at hwaits
      refine ⟨?_, by rw [hpending, Table.get?_erase, if_neg hother, hnone]⟩
      split <;> simp [endsOf, hother]
  | cut hsent hends hpending hnext hend =>
      rw [endsOf_append, endsOf_cutOff, hnone, hends, hpending]
      exact ⟨rfl, rfl⟩

/-- A call that waits goes on waiting through a turn, or is told what ends the wait. -/
theorem Tidy.turn_of_waiting (h : c.Tidy) (hturn : c.turn t = (effects, c'))
    {purpose : PendingCall} (hwaits : c.pending.get? callId = some purpose)
    (hnew : ∀ frame ∈ sentOf effects, frame.callId ≠ callId) :
    (t.endOf? callId = none ∧ endsOf callId effects = [] ∧
        c'.pending.get? callId = some purpose) ∨
      ∃ result, t.endOf? callId = some result ∧
        endsOf callId effects = (if purpose = .rejoin then [] else [result]) ∧
        c'.pending.get? callId = none := by
  cases h.shape_of hturn with
  | quiet hsent hends hpending hnext hlive hwait =>
      exact .inl ⟨hwait callId (by rw [hwaits]; rfl), hends callId, hpending ▸ hwaits⟩
  | sent purpose' request hpending hnext hlive hown hwait =>
      have hother : c.nextCall ≠ callId := hnew _ List.mem_cons_self
      refine .inl ⟨hwait callId, rfl, ?_⟩
      rw [hpending, Table.get?_insert, if_neg hother, hwaits]
  | settled callId' purpose' result hwaits' hpending hnext hlive hend hjoined =>
      by_cases hid : callId' = callId
      · subst hid
        rw [hwaits, Option.some.injEq] at hwaits'
        subst hwaits'
        refine .inr ⟨result, by rw [hend, if_pos rfl], ?_, ?_⟩
        · split <;> simp [endsOf]
        · rw [hpending, Table.get?_erase, if_pos rfl]
      · refine .inl ⟨by rw [hend, if_neg hid], ?_, ?_⟩
        · split <;> simp [endsOf, hid]
        · rw [hpending, Table.get?_erase, if_neg hid, hwaits]
  | cut hsent hends hpending hnext hend =>
      refine .inr ⟨_, hend callId, ?_, by rw [hpending]; rfl⟩
      rw [endsOf_append, endsOf_cutOff, hwaits, hends, Option.bind_some, List.append_nil]
      split <;> rfl

/-- A call that waits after a turn waited before and went on, or was sent on the turn. -/
theorem Tidy.waiting_before_turn (h : c.Tidy) (hturn : c.turn t = (effects, c'))
    {purpose : PendingCall} (hwaits : c'.pending.get? callId = some purpose) :
    (c.pending.get? callId = some purpose ∧ t.endOf? callId = none) ∨
      ∃ frame ∈ sentOf effects, frame.callId = callId := by
  cases h.shape_of hturn with
  | quiet hsent hends hpending hnext hlive hwait =>
      rw [hpending] at hwaits
      exact .inl ⟨hwaits, hwait callId (by rw [hwaits]; rfl)⟩
  | sent purpose' request hpending hnext hlive hown hwait =>
      rw [hpending, Table.get?_insert] at hwaits
      by_cases hid : c.nextCall = callId
      · exact .inr ⟨⟨c.nextCall, request⟩, List.mem_cons_self, hid⟩
      · rw [if_neg hid] at hwaits
        exact .inl ⟨hwaits, hwait callId⟩
  | settled callId' purpose' result hwaits' hpending hnext hlive hend hjoined =>
      rw [hpending, Table.get?_erase] at hwaits
      by_cases hid : callId' = callId
      · rw [if_pos hid] at hwaits
        cases hwaits
      · rw [if_neg hid] at hwaits
        exact .inl ⟨hwaits, by rw [hend, if_neg hid]⟩
  | cut hsent hends hpending hnext hend =>
      rw [hpending] at hwaits
      cases hwaits

/-- A call that does not wait is told nothing, and waits no more, unless its number is given
again. -/
theorem Tidy.ends_of_not_waiting (h : c.Tidy) (hnone : c.pending.get? callId = none)
    {turns : List LinkTurn} (hnew : ∀ frame ∈ sentOf (c.play turns).1, frame.callId ≠ callId) :
    endsOf callId (c.play turns).1 = [] ∧ (c.play turns).2.pending.get? callId = none := by
  induction turns generalizing c with
  | nil => exact ⟨rfl, hnone⟩
  | cons t turns ih =>
      cases hturn : c.turn t with
      | mk effects c' =>
          simp only [Link.play, hturn, sentOf_append, List.forall_mem_append] at hnew ⊢
          obtain ⟨hquiet, hstill⟩ := h.turn_of_not_waiting hturn hnone hnew.1
          rw [endsOf_append, hquiet, List.nil_append]
          exact ih (h.turn hturn) hstill hnew.2

/-- A call that waits is told what ends the wait first, once, and waits until then; the
join of the link itself is told to nobody. -/
theorem Tidy.ends_of_waiting (h : c.Tidy) {purpose : PendingCall}
    (hwaits : c.pending.get? callId = some purpose) {turns : List LinkTurn}
    (hnew : ∀ frame ∈ sentOf (c.play turns).1, frame.callId ≠ callId) :
    endsOf callId (c.play turns).1 =
        (if purpose = .rejoin then [] else (verdict callId turns).toList) ∧
      (c.play turns).2.pending.get? callId =
        if (verdict callId turns).isSome then none else some purpose := by
  induction turns generalizing c with
  | nil => exact ⟨by simp [Link.play, endsOf, verdict], hwaits⟩
  | cons t turns ih =>
      cases hturn : c.turn t with
      | mk effects c' =>
          simp only [Link.play, hturn, sentOf_append, List.forall_mem_append] at hnew ⊢
          have htidy := h.turn hturn
          obtain ⟨hend, hends, hpending⟩ | ⟨result, hend, hends, hpending⟩ :=
            h.turn_of_waiting hturn hwaits hnew.1
          · rw [endsOf_append, hends, List.nil_append, verdict_cons, hend, Option.none_or]
            exact ih htidy hpending hnew.2
          · obtain ⟨hquiet, hnone⟩ := htidy.ends_of_not_waiting hpending hnew.2
            rw [endsOf_append, hends, hquiet, List.append_nil, hnone, verdict_cons, hend,
              Option.some_or]
            exact ⟨rfl, rfl⟩

/-- A call that waits after a run has waited since before, or was sent in the run; nothing has
ended the wait since. -/
theorem Tidy.sent_of_waiting (h : c.Tidy) {turns : List LinkTurn} {purpose : PendingCall}
    (hwaits : (c.play turns).2.pending.get? callId = some purpose) :
    (c.pending.get? callId = some purpose ∧ verdict callId turns = none) ∨
      ∃ before t after frame, turns = before ++ t :: after ∧
        frame ∈ sentOf ((c.play before).2.turn t).1 ∧ frame.callId = callId ∧
        verdict callId after = none := by
  induction turns generalizing c with
  | nil => exact .inl ⟨hwaits, rfl⟩
  | cons t turns ih =>
      cases hturn : c.turn t with
      | mk effects c' =>
          simp only [Link.play, hturn] at hwaits
          obtain ⟨hafter, hnone⟩ | ⟨before, t', after, frame, rfl, hframe, hid, hnone⟩ :=
            ih (h.turn hturn) hwaits
          · obtain ⟨hbefore, hend⟩ | ⟨frame, hframe, hid⟩ := h.waiting_before_turn hturn hafter
            · exact .inl ⟨hbefore, by rw [verdict_cons, hend, hnone, Option.none_or]⟩
            · refine .inr ⟨[], t, turns, frame, rfl, ?_, hid, hnone⟩
              simpa only [Link.play, hturn] using hframe
          · refine .inr ⟨t :: before, t', after, frame, rfl, ?_, hid, hnone⟩
            simpa only [Link.play, hturn] using hframe

/-- An accepted join of a link is noted when its completion comes in. -/
theorem Tidy.state_of_accepted (h : c.Tidy) (hwaits : c.pending.get? callId = some .rejoin)
    {response : Response} (hend : t.endOf? callId = some (.ok response)) :
    (c.turn t).2.state = .joined := by
  cases hturn : c.turn t with
  | mk effects c' =>
      cases h.shape_of hturn with
      | quiet hsent hends hpending hnext hlive hwait =>
          rw [hwait callId (by rw [hwaits]; rfl)] at hend
          cases hend
      | sent purpose request hpending hnext hlive hown hwait =>
          rw [hwait callId] at hend
          cases hend
      | settled callId' purpose result hwaits' hpending hnext hlive hend' hjoined =>
          rw [hend'] at hend
          split at hend
          · next hid =>
              subst hid
              rw [hwaits, Option.some.injEq] at hwaits'
              cases hend
              exact hjoined (by simp [← hwaits']) rfl
          · cases hend
      | cut hsent hends hpending hnext hend' =>
          rw [hend' callId] at hend
          cases hend

/-! ## Numbers -/

/-- A turn sends nothing, or one frame under the next number. -/
theorem Tidy.sentOf_turn (h : c.Tidy) (hturn : c.turn t = (effects, c')) :
    sentOf effects = [] ∧ c'.nextCall = c.nextCall ∨
      ∃ purpose request, sentOf effects = [⟨c.nextCall, request⟩] ∧
        c'.nextCall = c.nextCall + 1 ∧ endsOf c.nextCall effects = [] ∧
        c'.pending.get? c.nextCall = some purpose ∧ (purpose = .rejoin ↔ t.isOpening) := by
  cases h.shape_of hturn with
  | quiet hsent hends hpending hnext hlive hwait => exact .inl ⟨hsent, hnext⟩
  | sent purpose request hpending hnext hlive hown hwait =>
      exact .inr ⟨purpose, request, rfl, hnext, rfl, by rw [hpending, Table.get?_insert_self], hown⟩
  | settled callId purpose result hwaits hpending hnext hlive hend hjoined =>
      refine .inl ⟨?_, hnext⟩
      split <;> rfl
  | cut hsent hends hpending hnext hend =>
      exact .inl ⟨by rw [sentOf_append, sentOf_cutOff, hsent, List.append_nil], hnext⟩

/-- Calls are numbered one after the other. -/
theorem Tidy.callIds (h : c.Tidy) (turns : List LinkTurn) :
    (sentOf (c.play turns).1).map DeviceFrame.callId =
      (List.range (sentOf (c.play turns).1).length).map fun i => c.nextCall + UInt64.ofNat i := by
  induction turns generalizing c with
  | nil => rfl
  | cons t turns ih =>
      cases hturn : c.turn t with
      | mk effects c' =>
          simp only [Link.play, hturn, sentOf_append]
          have hlater := ih (h.turn hturn)
          obtain ⟨hnone, hnext⟩ | ⟨purpose, request, hone, hnext, -⟩ := h.sentOf_turn hturn
          · rw [hnone, List.nil_append, hlater, hnext]
          · rw [hone, List.singleton_append, List.map_cons, hlater, hnext, List.length_cons,
              List.range_succ_eq_map, List.map_cons, List.map_map]
            refine congrArg₂ List.cons (by simp) (List.map_congr_left fun i _ => ?_)
            rw [Function.comp_apply, ← UInt64.toNat_inj]
            simp [UInt64.toNat_add]
            omega

/-- No number is given twice, as long as there are enough of them. -/
theorem Tidy.nodup_callIds (h : c.Tidy) {turns : List LinkTurn}
    (hcount : (sentOf (c.play turns).1).length ≤ 2 ^ 64) :
    ((sentOf (c.play turns).1).map DeviceFrame.callId).Nodup := by
  rw [h.callIds]
  refine List.Nodup.map_on (fun i hi j hj heq => ?_) List.nodup_range
  rw [List.mem_range] at hi hj
  rw [← UInt64.toNat_inj] at heq
  simp [UInt64.toNat_add] at heq
  omega

/-! ## Events -/

/-- A signal adds the event that it brings, if it is kept. -/
theorem events_step (c : Link) (signal : LinkSignal) :
    (c.step signal).2.events = c.events ++ c.keptBy (.act (.signal signal)) := by
  have hquiet {c' : Link} {t : LinkTurn} (hnone : t.event? = none) (h : c'.events = c.events) :
      c'.events = c.events ++ c.keptBy t := by
    rw [keptBy, hnone]
    simp [h]
  cases signal with
  | callTimedOut callId => exact hquiet rfl (by rw [step_callTimedOut])
  | close => exact hquiet rfl rfl
  | opened =>
      refine hquiet rfl ?_
      cases hphase : c.phase with
      | dialing => simp only [step, hphase, opened_eq, sending_callAs_of_live]
      | _ => simp only [step, hphase]
  | openFailed =>
      refine hquiet rfl ?_
      cases hphase : c.phase <;> simp only [step, hphase, rest]
  | waited =>
      refine hquiet rfl ?_
      cases hphase : c.phase <;> simp only [step, hphase]
  | socketClosed =>
      refine hquiet rfl ?_
      cases hphase : c.phase <;> simp only [step, hphase, rest, forgetCalls]
  | received bytes =>
      cases hphase : c.phase with
      | live =>
          simp only [step, hphase, receive]
          cases hdecode : Binary.decode .serverFrame bytes with
          | error e => exact hquiet (by simp only [LinkTurn.event?, hdecode]) rfl
          | ok frame =>
              cases frame with
              | completion callId outcome =>
                  refine hquiet (by simp only [LinkTurn.event?, hdecode]) ?_
                  cases hwaits : c.pending.get? callId with
                  | none => simp only [complete_of_unknown hwaits]
                  | some purpose => simp only [complete_of_waiting hwaits]
              | event event =>
                  simp only [keptBy, hphase, LinkTurn.event?, hdecode, deliver]
                  by_cases hroom : c.listening ∧ c.events.length < eventCapacity
                  · simp [hroom]
                  · have hfull : (c.listening && c.events.length < eventCapacity) = false := by
                      simpa using hroom
                    simp [hroom, hfull]
      | _ => simp [step, hphase, keptBy]

theorem takenBy_append_events (c : Link) (t : LinkTurn) :
    c.takenBy t ++ (c.turn t).2.events = c.events ++ c.keptBy t := by
  have hquiet : c.events = c.events ++ (if c.phase = .live ∧ c.listening ∧
      c.events.length < eventCapacity then (none : Option Event).toList else []) := by simp
  cases t with
  | take count => exact (List.take_append_drop count c.events).trans hquiet
  | act a =>
      cases a with
      | signal signal => exact c.events_step signal
      | takeEvents => exact (List.append_nil c.events).trans hquiet
      | stopListening => exact hquiet
      | call request =>
          rw [turn, act, call]
          by_cases hlive : c.phase = .live
          · rw [sending_callAs_of_live hlive]
            exact hquiet
          · rw [sending_callAs_of_not_live hlive]
            exact hquiet
      | join roomId secret =>
          rw [turn, act, join]
          by_cases hlive : { c with credentials := (roomId, secret) }.phase = .live
          · rw [sending_callAs_of_live hlive]
            exact hquiet
          · rw [sending_callAs_of_not_live hlive]
            exact hquiet

theorem taken_append_events (c : Link) (turns : List LinkTurn) :
    c.taken turns ++ (c.play turns).2.events = c.events ++ c.kept turns := by
  induction turns generalizing c with
  | nil => rw [taken, kept, play, List.nil_append, List.append_nil]
  | cons t turns ih =>
      rw [taken, kept, play, List.append_assoc, ih, ← List.append_assoc, takenBy_append_events,
        List.append_assoc]

/-! ## Frames that change nothing -/

/-- Bytes that are no frame are passed over. -/
theorem turn_received_of_error {bytes : Bytes} {e : Binary.DecodeError}
    (hdecode : Binary.decode .serverFrame bytes = .error e) :
    c.turn (.received bytes) = ([], c) := by
  cases hphase : c.phase <;> simp only [turn, act, step, hphase, receive, hdecode]

/-- A completion that no call waits for is passed over. -/
theorem turn_received_of_unknown {bytes : Bytes} {outcome : Outcome}
    (hdecode : Binary.decode .serverFrame bytes = .ok (.completion callId outcome))
    (hnone : c.pending.get? callId = none) : c.turn (.received bytes) = ([], c) := by
  cases hphase : c.phase <;>
    simp only [turn, act, step, hphase, receive, hdecode, complete_of_unknown hnone]

/-- When a socket is gone, no call waits any longer. -/
theorem Tidy.pending_of_closing (h : c.Tidy) (hclosing : t.isClosing) :
    (c.turn t).2.pending = ∅ := by
  unfold LinkTurn.isClosing at hclosing
  split at hclosing
  · cases hphase : c.phase with
    | live => simp only [Link.turn, act, step, hphase, rest, forgetCalls]
    | _ =>
        have hnone : c.pending = ∅ := h (by simp [hphase])
        simp only [Link.turn, act, step, hphase, hnone]
  · rfl
  · cases hclosing

/-- A call that was sent under a number of its own is told what ends its wait first, once,
and waits until then. -/
theorem Tidy.settles (h : c.Tidy) (hpending : c.pending = ∅) {before after : List LinkTurn}
    (hnodup : ((sentOf (c.play (before ++ t :: after)).1).map DeviceFrame.callId).Nodup)
    {frame : DeviceFrame} (hframe : frame ∈ sentOf ((c.play before).2.turn t).1) :
    endsOf frame.callId (c.play (before ++ t :: after)).1 =
        (if t.isOpening then [] else (verdict frame.callId after).toList) ∧
      (((c.play (before ++ t :: after)).2.pending.get? frame.callId).isSome ↔
        verdict frame.callId after = none) ∧
      (t.isOpening → ∀ mid t' rest response, after = mid ++ t' :: rest →
        verdict frame.callId mid = none → t'.endOf? frame.callId = some (.ok response) →
        ((c.play (before ++ t :: mid)).2.turn t').2.state = .joined) := by
  have hbefore := h.play before
  cases hturn : (c.play before).2.turn t with
  | mk now c' =>
      have htidy := hbefore.turn hturn
      have hplay (after : List LinkTurn) : c.play (before ++ t :: after) =
          ((c.play before).1 ++ (now ++ (c'.play after).1), (c'.play after).2) := by
        rw [play_append, Link.play, hturn]
      rw [hturn] at hframe
      obtain ⟨hnone, -⟩ | ⟨purpose, request, hone, -, hquiet, hwaits, hown⟩ :=
        hbefore.sentOf_turn hturn
      · rw [hnone] at hframe
        cases hframe
      · rw [hone, List.mem_singleton] at hframe
        subst hframe
        -- No call before or after has the number.
        rw [hplay, sentOf_append, sentOf_append, hone, List.map_append, List.map_append,
          List.nodup_append, List.nodup_append] at hnodup
        obtain ⟨-, ⟨-, -, hnew⟩, hold⟩ := hnodup
        have hearlier : ∀ frame ∈ sentOf (c.play before).1,
            frame.callId ≠ (c.play before).2.nextCall := fun frame hframe =>
          hold _ (List.mem_map_of_mem hframe) _ (by simp)
        have hlater : ∀ frame ∈ sentOf (c'.play after).1,
            frame.callId ≠ (c.play before).2.nextCall := fun frame hframe heq =>
          hnew _ (by simp) _ (List.mem_map_of_mem hframe) heq.symm
        obtain ⟨hsilent, -⟩ := h.ends_of_not_waiting (by rw [hpending]; rfl) hearlier
        obtain ⟨hends, hwaiting⟩ := htidy.ends_of_waiting hwaits hlater
        refine ⟨?_, ?_, ?_⟩
        · rw [hplay, endsOf_append, endsOf_append, hsilent, hquiet, hends, List.nil_append,
            List.nil_append]
          simp only [hown]
        · rw [hplay, hwaiting]
          cases verdict (c.play before).2.nextCall after <;> simp
        · rintro hopening mid t' rest response rfl hnone hend
          have hmid : ∀ frame ∈ sentOf (c'.play mid).1,
              frame.callId ≠ (c.play before).2.nextCall := fun frame hframe =>
            hlater frame (by rw [play_append, sentOf_append]; exact List.mem_append_left _ hframe)
          have hstill := (htidy.ends_of_waiting hwaits hmid).2
          rw [hnone, hown.mpr hopening] at hstill
          rw [hplay]
          exact (htidy.play mid).state_of_accepted hstill hend

/-- **Calls and their answers**: let frames of any kind come in, in any order, between the
calls of a device, the openings of sockets and their ends, with at most `2 ^ 64` calls in
all.  No two calls get the same number.  A call that was sent is told what ends its wait
first, under its own number, and nothing else ever; until then it waits, and not after.
The join that the link sends by itself is told to nobody, but noted if it is accepted.
Bytes that are no frame change nothing, and neither does a completion for which no call
waits, since none of its number was sent or it has been answered.  The events that come in
are handed on in order, all but those that come in while too many wait or nobody listens.
When a socket is gone, nothing waits any longer. -/
theorem calls_settle {settings : DeviceSettings} {start : Link}
    (h : Link.start settings = .ok start) {turns : List LinkTurn}
    (hcount : (sentOf (start.play turns).1).length ≤ 2 ^ 64) :
    let effects := (start.play turns).1
    let last := (start.play turns).2
    ((sentOf effects).map DeviceFrame.callId).Nodup ∧
    (∀ before t after frame, turns = before ++ t :: after →
      frame ∈ sentOf ((start.play before).2.turn t).1 →
      endsOf frame.callId effects =
          (if t.isOpening then [] else (verdict frame.callId after).toList) ∧
        ((last.pending.get? frame.callId).isSome ↔ verdict frame.callId after = none) ∧
        (t.isOpening → ∀ mid t' rest response, after = mid ++ t' :: rest →
          verdict frame.callId mid = none → t'.endOf? frame.callId = some (.ok response) →
          ((start.play (before ++ t :: mid)).2.turn t').2.state = .joined)) ∧
    (∀ before bytes after, turns = before ++ .received bytes :: after →
      let c := (start.play before).2
      (∀ e, Binary.decode .serverFrame bytes = .error e →
        c.turn (.received bytes) = ([], c)) ∧
      ∀ callId outcome,
        Binary.decode .serverFrame bytes = .ok (.completion callId outcome) →
        (∀ before₁ t before₂ frame, before = before₁ ++ t :: before₂ →
          frame ∈ sentOf ((start.play before₁).2.turn t).1 → frame.callId = callId →
          verdict callId before₂ ≠ none) →
        c.turn (.received bytes) = ([], c)) ∧
    start.taken turns ++ last.events = start.kept turns ∧
    ∀ before t after, turns = before ++ t :: after → t.isClosing →
      (start.play (before ++ [t])).2.pending = ∅ := by
  intro effects last
  obtain ⟨url, hstart⟩ := eq_of_start h
  have htidy : start.Tidy := fun _ => by rw [hstart]
  have hpending : start.pending = ∅ := by rw [hstart]
  have hevents : start.events = [] := by rw [hstart]
  have hnodup := htidy.nodup_callIds hcount
  refine ⟨hnodup, ?_, ?_, ?_, ?_⟩
  · rintro before t after frame rfl hframe
    exact htidy.settles hpending hnodup hframe
  · rintro before bytes after rfl c
    refine ⟨fun e hdecode => turn_received_of_error hdecode, ?_⟩
    intro callId outcome hdecode hsettled
    refine turn_received_of_unknown hdecode ?_
    refine Option.eq_none_iff_forall_ne_some.mpr fun purpose hwaits => ?_
    obtain ⟨hbefore, -⟩ | ⟨before₁, t, before₂, frame, hsplit, hframe, hid, hnone⟩ :=
      htidy.sent_of_waiting hwaits
    · rw [hpending] at hbefore
      cases hbefore
    · exact hsettled before₁ t before₂ frame hsplit hframe hid hnone
  · rw [taken_append_events, hevents, List.nil_append]
  · rintro before t after - hclosing
    rw [play_append]
    exact (htidy.play before).pending_of_closing hclosing

/-- Of two calls, the second is answered first, and again, and the first never. -/
theorem calls_settle_home :
    let turns : List LinkTurn := [.act (.signal .opened), .act (.call (.getHistory 5)),
      .act (.call (.getHistory 7)), .received (completionBytes 3 (.ok .published)),
      .received [255], .received (completionBytes 3 (.ok .joined)), .act (.signal .socketClosed)]
    let effects := (homeLink.play turns).1
    Link.start homeDevice = .ok homeLink ∧ (sentOf effects).length ≤ 2 ^ 64 ∧
      endsOf 2 effects = [.error .connectionClosed] ∧ endsOf 3 effects = [.ok .published] := by
  intro turns effects
  have hstart : Link.start homeDevice = .ok homeLink := rfl
  have hsent : sentOf effects =
      [⟨1, .joinRoom "home" "sesame"⟩, ⟨2, .getHistory 5⟩, ⟨3, .getHistory 7⟩] := rfl
  have hcount : (sentOf effects).length ≤ 2 ^ 64 := by
    rw [hsent]
    decide
  obtain ⟨-, hsettle, -⟩ := calls_settle hstart hcount
  refine ⟨hstart, hcount, ?_, ?_⟩
  · exact (hsettle (turns.take 1) (turns[1]) (turns.drop 2) ⟨2, .getHistory 5⟩ rfl (.head _)).1
  · exact (hsettle (turns.take 2) (turns[2]) (turns.drop 3) ⟨3, .getHistory 7⟩ rfl (.head _)).1

end Link

end ClipRelay
