import ClipRelay.Device.EchoGuard
import ClipRelay.Device.Settings

/-!
# ClipRelay.Device.LocalChange

What a device does about a change of its own clipboard, whichever way it syncs.

A text that is too long is left alone before anything else; then the loop guard
is asked, first whether the change is an echo and then whether it is to be held
back.  Only a change that passes all three is hashed, remembered and published.
-/

namespace ClipRelay

/-- What happened to a local change. -/
inductive ChangeOutcome where
  | published
  /-- Longer than the device may send. -/
  | tooLarge
  /-- The echo of a remote update. -/
  | remoteEcho
  /-- Too soon after the last publish, or of the same content. -/
  | suppressed
deriving DecidableEq, Repr

/-- The name of an outcome. -/
def ChangeOutcome.name : ChangeOutcome → String
  | .published => "Published"
  | .tooLarge => "TooLarge"
  | .remoteEcho => "RemoteEcho"
  | .suppressed => "Suppressed"

/-- Decides about a local change: the hash to publish it under, or what happens
to it instead.  The guard remembers a change that is let through, whether or not
its publish succeeds later. -/
def EchoGuard.judge (g : EchoGuard) (maxTextBytes : Nat) (now : Timestamp) (text : String) :
    Except ChangeOutcome Bytes × EchoGuard :=
  if maxTextBytes < text.utf8ByteSize then (.error .tooLarge, g)
  else if g.isEcho now.toInt then (.error .remoteEcho, g)
  else
    let hash := textHash text
    match g.pass now.toInt hash with
    | (true, g) => (.ok hash, g)
    | (false, g) => (.error .suppressed, g)

/-- The checks in their order; only a change that passes all of them is remembered. -/
theorem EchoGuard.judge_eq (g : EchoGuard) (maxTextBytes : Nat) (now : Timestamp) (text : String) :
    g.judge maxTextBytes now text =
      if maxTextBytes < text.utf8ByteSize then (.error .tooLarge, g)
      else if g.isEcho now.toInt then (.error .remoteEcho, g)
      else if g.holdsBack now.toInt (textHash text) then (.error .suppressed, g)
      else (.ok (textHash text), { g with lastPublish := some (now.toInt, textHash text) }) := by
  cases h : g.holdsBack now.toInt (textHash text) <;> simp [judge, pass, h]

/-- A change is left alone, and then nothing is remembered, or it passes all checks. -/
theorem EchoGuard.judge_cases (g : EchoGuard) (maxTextBytes : Nat) (now : Timestamp)
    (text : String) :
    (∃ why, why ≠ .published ∧ g.judge maxTextBytes now text = (.error why, g)) ∨
      (text.utf8ByteSize ≤ maxTextBytes ∧ g.holdsBack now.toInt (textHash text) = false ∧
        g.judge maxTextBytes now text =
          (.ok (textHash text), { g with lastPublish := some (now.toInt, textHash text) })) := by
  rw [judge_eq]
  split
  · exact .inl ⟨.tooLarge, by decide, rfl⟩
  · next hsize =>
    split
    · exact .inl ⟨.remoteEcho, by decide, rfl⟩
    · split
      · exact .inl ⟨.suppressed, by decide, rfl⟩
      · next hfree => exact .inr ⟨Nat.le_of_not_lt hsize, Bool.eq_false_iff.mpr hfree, rfl⟩

/-- A change that is let through is short enough, and goes under its own hash. -/
theorem EchoGuard.judge_eq_ok {g : EchoGuard} {maxTextBytes : Nat} {now : Timestamp}
    {text : String} {hash : Bytes} (h : (g.judge maxTextBytes now text).1 = .ok hash) :
    text.utf8ByteSize ≤ maxTextBytes ∧ hash = textHash text := by
  obtain ⟨why, -, hjudged⟩ | ⟨hsize, -, hjudged⟩ := g.judge_cases maxTextBytes now text
  · rw [hjudged] at h
    cases h
  · rw [hjudged] at h
    exact ⟨hsize, (Except.ok.inj h).symm⟩

/-- A change that is not let through is not published. -/
theorem EchoGuard.judge_ne_published (g : EchoGuard) (maxTextBytes : Nat) (now : Timestamp)
    (text : String) : (g.judge maxTextBytes now text).1 ≠ .error .published := by
  obtain ⟨why, hwhy, hjudged⟩ | ⟨-, -, hjudged⟩ := g.judge_cases maxTextBytes now text
  · rw [hjudged]
    exact fun h => hwhy (Except.error.inj h)
  · rw [hjudged]
    nofun

/-- An echo is never let through, and is not remembered. -/
theorem EchoGuard.judge_of_isEcho {g : EchoGuard} {now : Timestamp} (h : g.isEcho now.toInt)
    (maxTextBytes : Nat) (text : String) :
    ∃ why, why ≠ .published ∧ g.judge maxTextBytes now text = (.error why, g) := by
  by_cases hsize : maxTextBytes < text.utf8ByteSize
  · exact ⟨.tooLarge, by decide, by rw [judge, if_pos hsize]⟩
  · exact ⟨.remoteEcho, by decide, by rw [judge, if_neg hsize, if_pos h]⟩

/-- Something that a device does to its surroundings, whose state is `σ`.  They
may change even if it fails. -/
abbrev Action (σ α : Type) := σ → Except DeviceError α × σ

end ClipRelay
