import ClipRelay.Device.SyncRun
import ClipRelay.Proofs.Device.GuardTraces
import ClipRelay.Proofs.Relay.Clash

/-!
# ClipRelay.Proofs.Device.FailedPublishes

What the guard of a device remembers of publishes that fail.

A device asks its guard about a change before it publishes it, and the guard remembers every
change that it lets through at once.  Whether an upload or a publish fails later does not
matter (`SyncDevice.act_cases`).  So the guard goes by the publishes that were tried
(`attempts`), and a text that nobody was sent is held back as a repetition of itself, until
another one was tried (`SyncDevice.failure_remembered`).
-/

namespace ClipRelay

/-- The time and the hash of a publish that was tried. -/
def SyncEntry.attempt? : SyncEntry → Option (Int × Bytes)
  | .changed now text result =>
    if attempted result then some (now.toInt, textHash text) else none
  | .received .. => none

/-- The publishes that were tried, be it that they failed. -/
def attempts (entries : List SyncEntry) : List (Int × Bytes) :=
  entries.filterMap SyncEntry.attempt?

namespace SyncDevice

variable {σ : Type} {d : SyncDevice σ} {w : σ}

/-! ## What is remembered -/

/-- Whatever comes in, and whatever fails: a publish that is tried is remembered, and nothing
else is. -/
theorem act_cases (d : SyncDevice σ) (a : SyncAction) (w : σ) :
    (d.act a w).2.1.maxTextBytes = d.maxTextBytes ∧
      (((d.act a w).1.attempt? = none ∧
          ∃ ignoreUntil, (d.act a w).2.1.guard = { d.guard with ignoreUntil }) ∨
        ∃ change, (d.act a w).1.attempt? = some change ∧
          (d.act a w).2.1.guard = { d.guard with lastPublish := some change }) := by
  cases a with
  | changed now itemId text =>
      obtain ⟨why, hwhy, hjudged⟩ | ⟨-, -, hjudged⟩ :=
        d.guard.judge_cases d.maxTextBytes now text
      · have hkept : ¬attempted (.ok why) := Bool.eq_false_iff.mp (decide_eq_false hwhy)
        rw [act, takeLocal_of_error hjudged]
        exact ⟨rfl, .inl ⟨if_neg hkept, d.guard.ignoreUntil, rfl⟩⟩
      · obtain ⟨htried, hguard, hsize⟩ := takeLocal_of_ok hjudged itemId w
        exact ⟨hsize, .inr ⟨_, if_pos htried, hguard⟩⟩
  | received now event =>
      obtain ⟨hguard, hsize⟩ := d.guard_takeEvent now event w
      exact ⟨hsize, .inl ⟨rfl, hguard⟩⟩

/-- After any number of things the guard remembers the publish that was tried last. -/
theorem remembers_run (d : SyncDevice σ) (actions : List SyncAction) (w : σ) :
    (d.run actions w).2.1.maxTextBytes = d.maxTextBytes ∧
      (d.run actions w).2.1.guard.debounceWindow = d.guard.debounceWindow ∧
      (d.run actions w).2.1.guard.lastPublish =
        (attempts (d.run actions w).1).getLast?.or d.guard.lastPublish := by
  induction actions generalizing d w with
  | nil => exact ⟨rfl, rfl, rfl⟩
  | cons a actions ih =>
      obtain ⟨hsize, hcases⟩ := d.act_cases a w
      obtain ⟨hmore, hwindow, hlast⟩ := ih (d.act a w).2.1 (d.act a w).2.2
      have hkept : (d.act a w).2.1.guard.debounceWindow = d.guard.debounceWindow ∧
          (d.act a w).2.1.guard.lastPublish = (d.act a w).1.attempt?.or d.guard.lastPublish := by
        obtain ⟨htry, ignoreUntil, hguard⟩ | ⟨change, htry, hguard⟩ := hcases <;>
          rw [htry, hguard] <;> exact ⟨rfl, rfl⟩
      refine ⟨hmore.trans hsize, hwindow.trans hkept.1, hlast.trans ?_⟩
      rw [hkept.2, ← Option.or_assoc, attempts, ← getLast?_filterMap_cons]
      rfl

/-! ## Trying again -/

/-- Outside the ignore window a text that is not too long is tried just if the guard does not
hold it back. -/
theorem takeLocal_of_not_isEcho {now : Timestamp} {text : String}
    (hsize : text.utf8ByteSize ≤ d.maxTextBytes) (hecho : d.guard.isEcho now.toInt = false)
    (itemId : Uuid) (w : σ) :
    (attempted (d.takeLocal now itemId text w).1 ↔
        ∀ last ∈ d.guard.lastPublish,
          EchoGuard.Apart d.guard.debounceWindow last (now.toInt, textHash text)) ∧
      (attempted (d.takeLocal now itemId text w).1 = false →
        d.takeLocal now itemId text w = (.ok .suppressed, d, w)) := by
  have hjudge := d.guard.judge_eq d.maxTextBytes now text
  rw [if_neg (Nat.not_lt.mpr hsize), hecho, if_neg Bool.false_ne_true] at hjudge
  rw [← EchoGuard.holdsBack_eq_false_iff]
  cases hheld : d.guard.holdsBack now.toInt (textHash text) with
  | true =>
      rw [hheld, if_pos rfl] at hjudge
      rw [takeLocal_of_error hjudge]
      exact ⟨iff_of_false Bool.false_ne_true Bool.noConfusion, fun _ => rfl⟩
  | false =>
      rw [hheld, if_neg Bool.false_ne_true] at hjudge
      have htried := (takeLocal_of_ok hjudge itemId w).1
      exact ⟨iff_of_true htried rfl, fun hkept => absurd (htried.symm.trans hkept) nofun⟩

/-- **A publish that fails is remembered as if it had succeeded**: whichever way a device syncs
and whatever it went through before, let its upload or its publish of a text fail.  The guard
remembers the text as the last one that was published, which it was not before.  Let
anything happen after that, and let the text come in once more at a time outside the ignore
window.  It is tried again just if another publish was tried in between, and the last one of
these is apart from it: it was of another text, and the text does not come within the
debounce window after it.  Otherwise the text is suppressed, and nothing is changed. -/
theorem failure_remembered {now : Timestamp} {itemId : Uuid} {text : String} {x : DeviceError}
    (hfailed : (d.takeLocal now itemId text w).1 = .error x) :
    let failed := (d.takeLocal now itemId text w).2
    failed.1.guard.lastPublish = some (now.toInt, textHash text) ∧
    d.guard.lastPublish ≠ failed.1.guard.lastPublish ∧
    ∀ actions later itemId',
      let ran := failed.1.run actions failed.2
      let retry := ran.2.1.takeLocal later itemId' text ran.2.2
      ran.2.1.guard.isEcho later.toInt = false →
        (attempted retry.1 ↔ ∃ last ∈ (attempts ran.1).getLast?,
          EchoGuard.Apart d.guard.debounceWindow last (later.toInt, textHash text)) ∧
        (attempted retry.1 = false → retry = (.ok .suppressed, ran.2)) := by
  intro failed
  obtain ⟨why, -, hjudged⟩ | ⟨hsize, hfree, hjudged⟩ :=
    d.guard.judge_cases d.maxTextBytes now text
  · rw [takeLocal_of_error hjudged] at hfailed
    cases hfailed
  obtain ⟨-, hguard, hmax⟩ := takeLocal_of_ok hjudged itemId w
  have hlast : failed.1.guard.lastPublish = some (now.toInt, textHash text) :=
    congrArg EchoGuard.lastPublish hguard
  have hwindow : failed.1.guard.debounceWindow = d.guard.debounceWindow :=
    (congrArg EchoGuard.debounceWindow hguard).trans rfl
  refine ⟨hlast, fun hsame => ?_, fun actions later itemId' => ?_⟩
  · -- a text that was published last is not let through
    have hapart := EchoGuard.holdsBack_eq_false_iff.mp hfree _ (hsame.trans hlast)
    exact hapart.1 rfl
  · intro ran retry hecho
    obtain ⟨hmore, hdebounce, hremembered⟩ := failed.1.remembers_run actions failed.2
    have hfits : text.utf8ByteSize ≤ ran.2.1.maxTextBytes := by
      rw [hmore, hmax]
      exact hsize
    obtain ⟨htried, hsuppressed⟩ := takeLocal_of_not_isEcho hfits hecho itemId' ran.2.2
    refine ⟨htried.trans ?_, hsuppressed⟩
    rw [hremembered, hdebounce, hwindow, hlast]
    cases (attempts ran.1).getLast? with
    | none => simp [EchoGuard.Apart]
    | some last => simp

/-- A network that is down the first time it is used, and up from then on. -/
def flaky {α : Type} (answer : α) : Action Bool α := fun up =>
  (if up then .ok answer else .error .notConnected, true)

/-- A device that syncs through the relay over a flaky network. -/
def flakyRelay : SyncDevice Bool :=
  .relay ⟨fun _ => flaky (), fun _ up => (.ok (), up)⟩
    (.ofSettings (.ofEnv (fun _ => none) Relay.note.deviceId) {})

/-- A device that syncs through a store over a flaky network. -/
def flakyStore : SyncDevice Bool :=
  .store ⟨fun _ _ => flaky ⟨"file-1", 4⟩, fun _ => flaky "note", fun _ => flaky (),
      fun _ up => (.ok (), up), none⟩
    (.ofSettings (.ofEnv (fun _ => none) Relay.note.deviceId) {})

open Relay in
/-- A note whose publish failed is suppressed five seconds later, and tried again if another
text was published meanwhile. -/
theorem failure_remembered_home :
    let failed := (flakyRelay.takeLocal 0 note.clientItemId note.text false).2
    let ran := failed.1.run [.changed 1000 note.clientItemId "other"] failed.2
    failed.1.takeLocal 5000 note.clientItemId note.text failed.2 = (.ok .suppressed, failed) ∧
      attempted (ran.2.1.takeLocal 5000 note.clientItemId note.text ran.2.2).1 := by
  have hfailed : (flakyRelay.takeLocal 0 note.clientItemId note.text false).1 =
      .error .notConnected := rfl
  obtain ⟨-, -, hretry⟩ := failure_remembered hfailed
  obtain ⟨hnone, hsuppressed⟩ := hretry [] 5000 note.clientItemId rfl
  obtain ⟨htried, -⟩ := hretry [.changed 1000 note.clientItemId "other"] 5000 note.clientItemId
    (by decide +kernel)
  refine ⟨hsuppressed (Bool.eq_false_iff.mpr fun h => nomatch hnone.mp h),
    htried.mpr ⟨(1000, textHash "other"), ?_, ?_⟩⟩
  · rw [Option.mem_def]
    decide +kernel
  · exact ⟨by decide +kernel, by decide +kernel⟩

open Relay in
/-- Whichever way a device syncs, a note whose upload or publish failed replaces what the guard
remembered, and is suppressed five seconds later. -/
theorem retry_suppressed_home :
    let poisoned (d : SyncDevice Bool) : Prop :=
      let failed := d.takeLocal 0 note.clientItemId note.text false
      failed.1 = .error .notConnected ∧ failed.2.1.guard.lastPublish ≠ d.guard.lastPublish ∧
        (failed.2.1.takeLocal 5000 note.clientItemId note.text failed.2.2).1 = .ok .suppressed
    poisoned flakyRelay ∧ poisoned flakyStore := by
  decide +kernel

end SyncDevice

end ClipRelay
