import ClipRelay.Proofs.Device.LinkCalls

/-!
# ClipRelay.Proofs.Device.Reconnects

When a link opens its socket again, and what it says then.

A `DialLog` follows a link by what happens to it alone: it knows the attempts to open a
socket that have ended, and whether each had succeeded.  How long the link waits before an
attempt depends on nothing but how many have ended since the last success
(`DialLog.streak`): the wait doubles with each, from a fifth of a second up to half a
minute.  Each socket that opens is joined on once, with the credentials that the device
gave last, even if it gave them while no socket was open; and without an open socket no
call is made at all.

An action is described by all that can be seen of it (`DialLog.Does`), from which the log
and the link are found to agree after any number of actions.
-/

namespace ClipRelay

/-- The credentials that the device gives with an action. -/
def LinkAction.credentials? : LinkAction → Option (String × String)
  | .join roomId secret => some (roomId, secret)
  | _ => none

/-- The credentials that a device has given last, or those of its settings. -/
def DeviceSettings.lastGiven (s : DeviceSettings) (actions : List LinkAction) :
    String × String :=
  (actions.filterMap LinkAction.credentials?).getLast?.getD s.roomToJoin

/-- The phase in which a signal about the socket counts. -/
def LinkSignal.phase? : LinkSignal → Option LinkPhase
  | .opened | .openFailed => some .dialing
  | .received _ | .socketClosed => some .live
  | .waited => some .waiting
  | .callTimedOut _ | .close => none

/-- The waits that are begun among some effects. -/
def Link.waitsOf (effects : List LinkEffect) : List Nat :=
  effects.filterMap fun
    | .wait delay => some delay
    | _ => none

theorem Link.waitsOf_append (effects effects' : List LinkEffect) :
    waitsOf (effects ++ effects') = waitsOf effects ++ waitsOf effects' := List.filterMap_append

theorem Link.waitsOf_cutOff (c : Link) : waitsOf c.cutOff = [] :=
  c.filterMap_cutOff fun _ _ => rfl

/-- What is known of the attempts of a link to open its socket. -/
structure DialLog where
  /-- Where the link stands. -/
  phase : LinkPhase := .dialing
  /-- The attempts that have ended, newest first: whether each had opened a socket, which is
  closed since. -/
  ended : List Bool := []

namespace DialLog

/-- The attempt that ends with an action, if one does: whether it had opened a socket. -/
def finished? (d : DialLog) (a : LinkAction) : Option Bool :=
  match a, d.phase with
  | .signal .openFailed, .dialing => some false
  | .signal .socketClosed, .live => some true
  | _, _ => none

/-- Notes an action. -/
def see (d : DialLog) (a : LinkAction) : DialLog where
  phase := match a, d.phase with
    | .signal .opened, .dialing => .live
    | .signal .openFailed, .dialing => .waiting
    | .signal .socketClosed, .live => .waiting
    | .signal .waited, .waiting => .dialing
    | .signal .close, _ => .stopped
    | _, phase => phase
  ended := (d.finished? a).toList ++ d.ended

/-- What is known after some actions. -/
def after (d : DialLog) (actions : List LinkAction) : DialLog := actions.foldl see d

/-- How many attempts have ended from the last successful one on, or since the start if none
was. -/
def streak (d : DialLog) : Nat :=
  match d.ended.findIdx? id with
  | some earlier => earlier + 1
  | none => d.ended.length

/-- The request that goes out on an action: the join of a socket that opens, or what the
device asks for while one is open. -/
def request? (d : DialLog) (credentials : String × String) (a : LinkAction) : Option Request :=
  match a, d.phase with
  | .signal .opened, .dialing => some (.joinRoom credentials.1 credentials.2)
  | .call request, .live => some request
  | .join roomId secret, .live => some (.joinRoom roomId secret)
  | _, _ => none

/-! ## Counting attempts -/

variable {d : DialLog} {c c' : Link} {a : LinkAction} {effects : List LinkEffect}

theorem streak_closed (phase : LinkPhase) (ended : List Bool) :
    streak ⟨phase, true :: ended⟩ = 1 := by
  simp [streak, List.findIdx?_cons]

theorem streak_failed (phase phase' : LinkPhase) (ended : List Bool) :
    streak ⟨phase, false :: ended⟩ = streak ⟨phase', ended⟩ + 1 := by
  simp only [streak, List.findIdx?_cons, id_eq, Bool.false_eq_true, if_false]
  cases ended.findIdx? id <;> rfl

theorem phase_see_of_finished (h : (d.finished? a).isSome) : (d.see a).phase = .waiting := by
  unfold finished? at h
  split at h
  · next hphase => simp [see, hphase]
  · next hphase => simp [see, hphase]
  · cases h

/-- A log is right about a link. -/
structure Follows (d : DialLog) (c : Link) : Prop where
  phase : c.phase = d.phase
  live : d.phase = .live → c.attempts = 0
  idle : d.phase = .dialing ∨ d.phase = .waiting → c.attempts = min d.streak Link.maxAttempts

/-- All that can be seen of an action that a link takes. -/
structure Does (d : DialLog) (c : Link) (a : LinkAction) (effects : List LinkEffect)
    (c' : Link) : Prop where
  follows : (d.see a).Follows c'
  credentials : c'.credentials = a.credentials?.getD c.credentials
  waits : Link.waitsOf effects = if (d.finished? a).isSome then
    [Link.backoff (min (d.see a).streak Link.maxAttempts)] else []
  sent : Link.sentOf effects =
    (d.request? c.credentials a).toList.map fun request => ⟨c.nextCall, request⟩

theorem follows_start {settings : DeviceSettings} (h : Link.start settings = .ok c) :
    Follows {} c := by
  obtain ⟨url, rfl⟩ := Link.eq_of_start h
  exact ⟨rfl, fun hlive => (by cases hlive), fun _ => rfl⟩

/-- An action of which nothing is known to come. -/
structure Quiet (d : DialLog) (a : LinkAction) : Prop where
  phase : (d.see a).phase = d.phase
  finished : d.finished? a = none
  request : ∀ credentials, d.request? credentials a = none

/-- The link takes such an action without doing anything about its socket. -/
theorem Follows.quiet (h : d.Follows c) (hquiet : d.Quiet a)
    (hwaits : Link.waitsOf effects = []) (hsent : Link.sentOf effects = [])
    (hphase : c'.phase = c.phase) (hattempts : c'.attempts = c.attempts)
    (hcredentials : c'.credentials = a.credentials?.getD c.credentials) :
    d.Does c a effects c' where
  follows := by
    have hended : (d.see a).ended = d.ended := by simp [see, hquiet.finished]
    refine ⟨by rw [hphase, h.phase, hquiet.phase], fun hlive => ?_, fun hidle => ?_⟩
    · rw [hquiet.phase] at hlive
      rw [hattempts, h.live hlive]
    · rw [hquiet.phase] at hidle
      rw [hattempts, h.idle hidle, streak, streak, hended]
  credentials := hcredentials
  waits := by simp [hwaits, hquiet.finished]
  sent := by simp [hsent, hquiet.request]

/-- A signal that does not fit the phase is passed over. -/
theorem Follows.passedOver (h : d.Follows c) {signal : LinkSignal} {phase : LinkPhase}
    (hfits : signal.phase? = some phase) (hphase : d.phase ≠ phase) :
    d.Does c (.signal signal) (c.step signal).1 (c.step signal).2 := by
  have hlink := h.phase
  have hquiet : d.Quiet (.signal signal) ∧ c.step signal = ([], c) := by
    cases signal <;> cases hfits <;> cases hknown : d.phase <;>
      first
      | exact absurd hknown hphase
      | rw [hknown] at hlink
        exact ⟨⟨by simp [see, hknown], by simp [finished?, hknown], fun _ => by
          simp [request?, hknown]⟩, by simp [Link.step, hlink]⟩
  rw [hquiet.2]
  exact h.quiet hquiet.1 rfl rfl rfl rfl rfl

/-- A link waits when an attempt has ended, by the number that is counted then. -/
theorem does_rest (effects : List LinkEffect) {succeeded : Bool}
    (hfinished : d.finished? a = some succeeded)
    (hrequest : d.request? c.credentials a = none) (hgiven : a.credentials? = none)
    (hcredentials : c'.credentials = c.credentials)
    (hcount : min (c'.attempts + 1) Link.maxAttempts = min (d.see a).streak Link.maxAttempts)
    (hwaits : Link.waitsOf effects = []) (hsent : Link.sentOf effects = []) :
    d.Does c a (effects ++ c'.rest.1) c'.rest.2 where
  follows := by
    have hphase : (d.see a).phase = .waiting := phase_see_of_finished (by rw [hfinished]; rfl)
    refine ⟨hphase.symm, fun hlive => ?_, fun _ => hcount⟩
    rw [hphase] at hlive
    cases hlive
  credentials := by
    rw [hgiven]
    exact hcredentials
  waits := by
    rw [Link.waitsOf_append, hwaits, Link.rest, hcount, hfinished]
    rfl
  sent := by
    rw [Link.sentOf_append, hsent, hrequest]
    rfl

/-- An attempt that fails is counted on top of those before. -/
theorem Follows.openFailed (h : d.Follows c) (hphase : d.phase = .dialing) :
    d.Does c (.signal .openFailed) c.rest.1 c.rest.2 := by
  have hsee : d.see (.signal .openFailed) = ⟨.waiting, false :: d.ended⟩ := by
    simp [see, finished?, hphase]
  have hcount : min (c.attempts + 1) Link.maxAttempts =
      min (d.see (.signal .openFailed)).streak Link.maxAttempts := by
    have hstreak : (d.see (.signal .openFailed)).streak = d.streak + 1 := by
      rw [hsee, streak_failed]
    -- A counter that has stopped stays where it is.
    rw [hstreak, h.idle (.inl hphase)]
    omega
  have hfinished : d.finished? (.signal .openFailed) = some false := by simp [finished?, hphase]
  exact does_rest [] hfinished rfl rfl rfl hcount rfl rfl

/-- With a socket that was open the count begins anew. -/
theorem Follows.socketClosed (h : d.Follows c) (hphase : d.phase = .live) :
    d.Does c (.signal .socketClosed) (c.forgetCalls.1 ++ c.forgetCalls.2.rest.1)
      c.forgetCalls.2.rest.2 := by
  have hsee : d.see (.signal .socketClosed) = ⟨.waiting, true :: d.ended⟩ := by
    simp [see, finished?, hphase]
  have hcount : min (c.attempts + 1) Link.maxAttempts =
      min (d.see (.signal .socketClosed)).streak Link.maxAttempts := by
    rw [hsee, streak_closed, h.live hphase]
  have hfinished : d.finished? (.signal .socketClosed) = some true := by
    simp [finished?, hphase]
  exact does_rest c.cutOff hfinished rfl rfl rfl hcount (Link.waitsOf_cutOff c)
    (Link.sentOf_cutOff c)

/-- The next attempt begins with the count that there is. -/
theorem Follows.waited (h : d.Follows c) (hphase : d.phase = .waiting) :
    d.Does c (.signal .waited) [] { c with phase := .dialing, state := .connecting } := by
  have hsee : d.see (.signal .waited) = ⟨.dialing, d.ended⟩ := by
    simp [see, finished?, hphase]
  refine ⟨?_, rfl, rfl, rfl⟩
  rw [hsee]
  refine ⟨rfl, fun hlive => ?_, fun _ => h.idle (.inr hphase)⟩
  cases hlive

/-- A request of which it is known that it goes out is sent under the next number. -/
theorem does_sending {purpose : PendingCall} {request : Request} (hlive : c'.phase = .live)
    (hphase : (d.see a).phase = .live) (hfinished : d.finished? a = none)
    (hrequest : d.request? c.credentials a = some request) (hnext : c'.nextCall = c.nextCall)
    (hattempts : c'.attempts = 0)
    (hcredentials : c'.credentials = a.credentials?.getD c.credentials) :
    d.Does c a (Link.sending (c'.callAs purpose request)).1
      (Link.sending (c'.callAs purpose request)).2 := by
  rw [Link.sending_callAs_of_live hlive]
  constructor
  case follows =>
    refine ⟨by rw [hphase, ← hlive], fun _ => hattempts, fun hidle => ?_⟩
    rw [hphase] at hidle
    simp at hidle
  case credentials => exact hcredentials
  case waits => simp [Link.waitsOf, hfinished]
  case sent => simp [Link.sentOf, hrequest, hnext]

/-- What comes in on a socket starts nothing, whatever call it completes. -/
theorem Follows.received (h : d.Follows c) (bytes : Bytes) :
    d.Does c (.signal (.received bytes)) (c.receive bytes).1 (c.receive bytes).2 := by
  have hquiet : d.Quiet (.signal (.received bytes)) := ⟨rfl, rfl, fun _ => rfl⟩
  unfold Link.receive
  cases Binary.decode .serverFrame bytes with
  | error e => exact h.quiet hquiet rfl rfl rfl rfl rfl
  | ok frame =>
      cases frame with
      | event event =>
          dsimp only [Link.deliver]
          split <;> exact h.quiet hquiet rfl rfl rfl rfl rfl
      | completion callId outcome =>
          cases hpending : c.pending.get? callId with
          | none =>
              simp only [Link.complete_of_unknown hpending]
              exact h.quiet hquiet rfl rfl rfl rfl rfl
          | some purpose =>
              have hafter := Link.complete_of_waiting hpending outcome
              refine h.quiet hquiet ?_ ?_ (by rw [hafter]) (by rw [hafter]) (by rw [hafter]; rfl)
              all_goals
                simp only [Link.complete, hpending]
                cases purpose <;> rfl

/-- Nor does a call whose time is up. -/
theorem Follows.callTimedOut (h : d.Follows c) (callId : UInt64) :
    d.Does c (.signal (.callTimedOut callId)) (c.step (.callTimedOut callId)).1
      (c.step (.callTimedOut callId)).2 := by
  have hquiet : d.Quiet (.signal (.callTimedOut callId)) := ⟨rfl, rfl, fun _ => rfl⟩
  have hafter := Link.step_callTimedOut c callId
  refine h.quiet hquiet ?_ ?_ (by rw [hafter]) (by rw [hafter]) (by rw [hafter]; rfl)
  all_goals
    simp only [Link.step]
    cases c.pending.get? callId with
    | none => rfl
    | some purpose => cases purpose <;> rfl

/-- A call goes out just if a socket is open. -/
theorem Follows.call (h : d.Follows c) (c' : Link) {purpose : PendingCall} {request : Request}
    (hsee : (d.see a).phase = d.phase) (hfinished : d.finished? a = none)
    (hrequest : ∀ credentials, d.request? credentials a =
      if d.phase = .live then some request else none)
    (hphase : c'.phase = c.phase) (hattempts : c'.attempts = c.attempts)
    (hnext : c'.nextCall = c.nextCall)
    (hcredentials : c'.credentials = a.credentials?.getD c.credentials) :
    d.Does c a (Link.sending (c'.callAs purpose request)).1
      (Link.sending (c'.callAs purpose request)).2 := by
  have hphase' : c'.phase = d.phase := hphase.trans h.phase
  by_cases hlive : d.phase = .live
  · exact does_sending (hphase'.trans hlive) (hsee.trans hlive) hfinished
      (by rw [hrequest, if_pos hlive]) hnext (hattempts.trans (h.live hlive)) hcredentials
  · have hquiet : d.Quiet a :=
      ⟨hsee, hfinished, fun credentials => by rw [hrequest, if_neg hlive]⟩
    rw [Link.sending_callAs_of_not_live (by rwa [hphase'])]
    exact h.quiet hquiet rfl rfl hphase hattempts hcredentials

theorem Follows.step (h : d.Follows c) (signal : LinkSignal) :
    d.Does c (.signal signal) (c.step signal).1 (c.step signal).2 := by
  cases signal with
  | opened =>
      by_cases hphase : d.phase = .dialing
      · simp only [Link.step, h.phase, hphase, Link.opened_eq]
        exact does_sending rfl (by simp [see, hphase]) rfl (by simp [request?, hphase]) rfl rfl rfl
      · exact h.passedOver rfl hphase
  | openFailed =>
      by_cases hphase : d.phase = .dialing
      · simpa only [Link.step, h.phase, hphase] using h.openFailed hphase
      · exact h.passedOver rfl hphase
  | socketClosed =>
      by_cases hphase : d.phase = .live
      · simpa only [Link.step, h.phase, hphase] using h.socketClosed hphase
      · exact h.passedOver rfl hphase
  | waited =>
      by_cases hphase : d.phase = .waiting
      · simpa only [Link.step, h.phase, hphase] using h.waited hphase
      · exact h.passedOver rfl hphase
  | received bytes =>
      by_cases hphase : d.phase = .live
      · simpa only [Link.step, h.phase, hphase] using h.received bytes
      · exact h.passedOver rfl hphase
  | callTimedOut callId => exact h.callTimedOut callId
  | close =>
      refine ⟨⟨rfl, fun hlive => ?_, ?_⟩, rfl, Link.waitsOf_cutOff c, Link.sentOf_cutOff c⟩
      · cases hlive
      · rintro (hidle | hidle) <;> cases hidle

theorem Follows.act (h : d.Follows c) (a : LinkAction) :
    d.Does c a (c.act a).1 (c.act a).2 := by
  cases a with
  | signal signal => exact h.step signal
  | call request =>
      refine h.call c rfl rfl (fun credentials => ?_) rfl rfl rfl rfl
      cases hphase : d.phase <;> simp [request?, hphase]
  | join roomId secret =>
      refine h.call { c with credentials := (roomId, secret) } rfl rfl (fun credentials => ?_)
        rfl rfl rfl rfl
      cases hphase : d.phase <;> simp [request?, hphase]
  | takeEvents => exact h.quiet ⟨rfl, rfl, fun _ => rfl⟩ rfl rfl rfl rfl rfl
  | stopListening => exact h.quiet ⟨rfl, rfl, fun _ => rfl⟩ rfl rfl rfl rfl rfl

theorem Follows.after (h : d.Follows c) (actions : List LinkAction) :
    (d.after actions).Follows (c.run actions) := by
  induction actions generalizing d c with
  | nil => exact h
  | cons a actions ih => exact ih (h.act a).follows

/-- A link keeps the credentials that were given last. -/
theorem Follows.credentials_after (h : d.Follows c) (actions : List LinkAction) :
    (c.run actions).credentials =
      (actions.filterMap LinkAction.credentials?).getLast?.getD c.credentials := by
  induction actions generalizing d c with
  | nil => rfl
  | cons a actions ih =>
      have hrest := ih (h.act a).follows
      rw [(h.act a).credentials] at hrest
      cases hgiven : a.credentials? with
      | none =>
          rw [List.filterMap_cons_none hgiven]
          rwa [hgiven] at hrest
      | some credentials =>
          rw [List.filterMap_cons_some hgiven, List.getLast?_cons]
          rwa [hgiven] at hrest

end DialLog

namespace Link

/-! ## The wait in machine words -/

/-- One attempt more on a counter of 32 bits, which stops at the most that it can hold. -/
def countUp (n : UInt32) : UInt32 := .ofNat (min (n.toNat + 1) maxAttempts)

/-- The counter after so many attempts. -/
def counted : Nat → UInt32
  | 0 => 0
  | k + 1 => countUp (counted k)

/-- A one shifted to the left in 64 bits, which must be fewer places than there are bits. -/
def shiftedOne? (shift : UInt32) : Option UInt64 :=
  if shift < 64 then some (1 <<< shift.toUInt64) else none

/-- A product in 64 bits, which stops at the most that they hold. -/
def saturatingMul (x y : UInt64) : UInt64 := .ofNat (min (x.toNat * y.toNat) (UInt64.size - 1))

/-- The wait before an attempt in 64 bits, from a counter of 32. -/
def delay? (attempt : UInt32) : Option UInt64 :=
  (shiftedOne? (min (.ofNat (attempt.toNat - 1)) 16)).map fun factor =>
    min (saturatingMul (.ofNat backoffBase) factor) (.ofNat backoffMax)

/-- The counter stops at the number at which a link stops counting. -/
theorem toNat_counted (k : Nat) : (counted k).toNat = min k maxAttempts := by
  induction k with
  | zero => rfl
  | succ k ih =>
      have hlt : min (min k maxAttempts + 1) maxAttempts < UInt32.size := by
        simp only [maxAttempts, UInt32.size]
        omega
      rw [counted, countUp, ih, UInt32.toNat_ofNat_of_lt' hlt]
      omega

theorem shiftedOne?_of_le {shift : UInt32} (h : shift.toNat ≤ 16) :
    ∃ factor, shiftedOne? shift = some factor ∧ factor.toNat = 2 ^ shift.toNat := by
  have hlt : shift < 64 := UInt32.lt_iff_toNat_lt.mpr (Nat.lt_of_le_of_lt h (by decide))
  have hpow : 2 ^ shift.toNat ≤ 2 ^ 16 := Nat.pow_le_pow_right (by decide) h
  have hplaces : shift.toNat % 64 = shift.toNat := Nat.mod_eq_of_lt (by omega)
  refine ⟨_, if_pos hlt, ?_⟩
  rw [UInt64.toNat_shiftLeft, UInt32.toNat_toUInt64, hplaces, Nat.shiftLeft_eq, UInt64.toNat_one,
    Nat.one_mul, Nat.mod_eq_of_lt (by omega)]

/-- The wait can always be computed, and is the one that a link makes. -/
theorem toNat_delay? (attempt : UInt32) :
    (delay? attempt).map UInt64.toNat = some (backoff attempt.toNat) := by
  have hlt : attempt.toNat - 1 < UInt32.size := Nat.lt_of_le_of_lt (Nat.sub_le _ _) attempt.toNat_lt
  have hshift : (min (.ofNat (attempt.toNat - 1)) 16 : UInt32).toNat =
      min (attempt.toNat - 1) 16 := by
    rw [UInt32.toNat_min, UInt32.toNat_ofNat_of_lt' hlt]
    rfl
  have hle : min (attempt.toNat - 1) 16 ≤ 16 := Nat.min_le_right _ _
  obtain ⟨factor, hfactor, hvalue⟩ := shiftedOne?_of_le (hshift ▸ hle)
  rw [hshift] at hvalue
  have hpow : factor.toNat ≤ 2 ^ 16 := hvalue ▸ Nat.pow_le_pow_right (by decide) hle
  have hmul : (saturatingMul (.ofNat backoffBase) factor).toNat = backoffBase * factor.toNat := by
    have hbase : (UInt64.ofNat backoffBase).toNat = 200 := rfl
    have hbound : 200 * factor.toNat < UInt64.size := by
      simp only [UInt64.size]
      omega
    rw [saturatingMul, hbase, Nat.min_eq_left (by omega), UInt64.toNat_ofNat_of_lt' hbound]
    rfl
  rw [delay?, hfactor, Option.map_some, Option.map_some, UInt64.toNat_min, hmul, hvalue]
  rfl

/-- A counter at its end makes no difference to the wait, which is the longest by then. -/
theorem backoff_min_maxAttempts (k : Nat) :
    backoff (min k maxAttempts) = min (200 * 2 ^ (k - 1)) 30000 := by
  have hbase : backoffBase = 200 := rfl
  have hmax : backoffMax = 30000 := rfl
  have hlast : maxAttempts = 4294967295 := rfl
  unfold backoff
  rw [hbase, hmax, hlast]
  by_cases hk : k ≤ 17
  · have hexp : min (min k 4294967295 - 1) 16 = k - 1 := by omega
    rw [hexp]
    rfl
  · have hexp : min (min k 4294967295 - 1) 16 = 16 := by omega
    have hpow : 2 ^ 16 ≤ 2 ^ (k - 1) := Nat.pow_le_pow_right (by decide) (by omega)
    rw [hexp]
    change min (200 * 2 ^ 16) 30000 = _
    omega

/-- **Opening the socket again**: whatever happens to a link and whatever its device does, the
wait before the next attempt is decided by how many attempts have ended since the last
success, the successful one included: a fifth of a second, doubled for each after the first,
and half a minute at most.  The link's count of them is that of a counter of 32 bits, and the
computation from it in machine words comes to the same wait, without a shift out of bounds,
however many attempts there were.  The link joins its room once on each socket that opens,
with the credentials that the device gave last or else with those of its settings, and sends
nothing else by itself.  While no socket is open no call can be made: it fails at once, and
nothing waits for it. -/
theorem reconnects {settings : DeviceSettings} {start : Link}
    (h : Link.start settings = .ok start) (before : List LinkAction) (a : LinkAction) :
    let c := start.run before
    let d := DialLog.after {} before
    let k := (d.see a).streak
    c.phase = d.phase ∧
    waitsOf (c.act a).1 =
      (if (d.finished? a).isSome then [min (200 * 2 ^ (k - 1)) 30000] else []) ∧
    ((d.finished? a).isSome → (c.act a).2.attempts = (counted k).toNat) ∧
    (delay? (counted k)).map UInt64.toNat = some (min (200 * 2 ^ (k - 1)) 30000) ∧
    sentOf (c.act a).1 = (d.request? (settings.lastGiven before) a).toList.map
      (fun request => ⟨c.nextCall, request⟩) ∧
    (d.phase ≠ .live →
      (∀ request, c.call request = (.error .notConnected, c)) ∧
      ∀ roomId secret, c.join roomId secret =
        (.error .notConnected, { c with credentials := (roomId, secret) })) := by
  intro c d k
  have hfollows : d.Follows c := (DialLog.follows_start h).after before
  have hdoes := hfollows.act a
  have hcredentials : c.credentials = settings.lastGiven before := by
    have hstart : start.credentials = settings.roomToJoin := by
      obtain ⟨url, rfl⟩ := eq_of_start h
      rfl
    rw [DeviceSettings.lastGiven, ← hstart]
    exact (DialLog.follows_start h).credentials_after before
  have hwait : backoff (min k maxAttempts) = min (200 * 2 ^ (k - 1)) 30000 :=
    backoff_min_maxAttempts k
  refine ⟨hfollows.phase, ?_, fun hfinished => ?_, ?_, ?_,
    fun hidle => ⟨fun request => ?_, fun roomId secret => ?_⟩⟩
  · rw [hdoes.waits, hwait]
  · rw [toNat_counted, hdoes.follows.idle (.inr (DialLog.phase_see_of_finished hfinished))]
  · rw [toNat_delay?, toNat_counted, hwait]
  · rw [hdoes.sent, hcredentials]
  · rw [call, callAs, if_neg (by rwa [hfollows.phase])]
  · rw [join, callAs, if_neg (by rwa [← hfollows.phase] at hidle)]

/-- The wait doubles when a second attempt fails, and is the shortest again after a socket was
open; and a join that fails while none is open is made good when one opens. -/
theorem reconnects_home :
    Link.start homeDevice = .ok homeLink ∧
      waitsOf ((homeLink.run [.signal .openFailed, .signal .waited]).act
        (.signal .openFailed)).1 = [400] ∧
      waitsOf ((homeLink.run [.signal .openFailed, .signal .waited, .signal .opened]).act
        (.signal .socketClosed)).1 = [200] ∧
      sentOf ((homeLink.run [.signal .openFailed, .join "work" "mine", .signal .waited]).act
        (.signal .opened)).1 = [⟨1, .joinRoom "work" "mine"⟩] := by
  have hstart : Link.start homeDevice = .ok homeLink := rfl
  refine ⟨hstart, ?_, ?_, ?_⟩
  · rw [(reconnects hstart _ _).2.1]
    rfl
  · rw [(reconnects hstart _ _).2.1]
    rfl
  · rw [(reconnects hstart _ _).2.2.2.2.1]
    rfl

end Link

end ClipRelay
