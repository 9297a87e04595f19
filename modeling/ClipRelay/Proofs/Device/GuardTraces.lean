import ClipRelay.Device.EchoGuard
import Mathlib.Data.List.Chain

/-!
# ClipRelay.Proofs.Device.GuardTraces

What an echo guard answers, as a function of all that it was told and asked before.

`EchoGuard.trace` makes calls of a guard one after the other and keeps the answers.  Two lists
are read off a trace, the times of the remote updates (`updates`) and the changes that were let
through (`passed`), and the last entry of either is all that the guard remembers
(`ignoreUntil_after`, `lastPublish_after`).  So each of its two rules goes by one of the lists
(`Entry.Follows`), and neither feels the calls that concern the other.

The rules add, subtract and compare times only, so they are the same in any unit of time.
-/

namespace ClipRelay

theorem filterMap_cons_toList {α β : Type} (f : α → Option β) (a : α) (l : List α) :
    (a :: l).filterMap f = (f a).toList ++ l.filterMap f := by
  simp only [List.filterMap_eq_flatMap_toList, List.flatMap_cons]

/-- What a list has last that counts is what its rest has, or else its first entry. -/
theorem getLast?_filterMap_cons {α β : Type} (f : α → Option β) (a : α) (l : List α) :
    ((a :: l).filterMap f).getLast? = (l.filterMap f).getLast?.or (f a) := by
  rw [filterMap_cons_toList, List.getLast?_append]
  cases f a <;> rfl

namespace EchoGuard

/-- A call of a guard. -/
inductive Call where
  /-- A remote update is about to be written to the local clipboard. -/
  | update (now : Int)
  /-- Is a local change an echo? -/
  | echo (now : Int)
  /-- May a local change be published? -/
  | publish (now : Int) (hash : Bytes)

/-- A call of a guard with the answer to it. -/
inductive Entry where
  | updated (now : Int)
  | asked (now : Int) (isEcho : Bool)
  | offered (now : Int) (hash : Bytes) (passed : Bool)
deriving DecidableEq

/-- The call that an entry answers. -/
def Entry.call : Entry → Call
  | .updated now => .update now
  | .asked now _ => .echo now
  | .offered now hash _ => .publish now hash

/-- Makes a call. -/
def answer (g : EchoGuard) : Call → Entry × EchoGuard
  | .update now => (.updated now, g.noteRemoteUpdate now)
  | .echo now => (.asked now (g.isEcho now), g)
  | .publish now hash => (.offered now hash (g.pass now hash).1, (g.pass now hash).2)

/-- Some calls, each with the answer to it. -/
def trace (g : EchoGuard) : List Call → List Entry
  | [] => []
  | c :: calls => (g.answer c).1 :: (g.answer c).2.trace calls

/-- The guard after some calls. -/
def after (g : EchoGuard) (calls : List Call) : EchoGuard :=
  calls.foldl (fun g c => (g.answer c).2) g

/-! ## What counts of a trace -/

def Entry.update? : Entry → Option Int
  | .updated now => some now
  | _ => none

def Entry.passed? : Entry → Option (Int × Bytes)
  | .offered now hash true => some (now, hash)
  | _ => none

/-- The times of the remote updates in a trace. -/
def updates (trace : List Entry) : List Int := trace.filterMap Entry.update?

/-- The changes in a trace that were let through, with their times and hashes. -/
def passed (trace : List Entry) : List (Int × Bytes) := trace.filterMap Entry.passed?

/-- A change is held back. -/
def Entry.suppressed : Entry → Bool
  | .offered _ _ false => true
  | _ => false

/-- The call concerns echoes of remote updates, and not publishing. -/
def Call.concernsEchoes : Call → Bool
  | .publish .. => false
  | _ => true

/-- Two changes are apart: they differ in content, and the second one does not come within
the window after the first one. -/
def Apart (window : Int) (first second : Int × Bytes) : Prop :=
  second.2 ≠ first.2 ∧ ¬(0 ≤ second.1 - first.1 ∧ second.1 - first.1 < window)

/-- An entry follows the rules, in view of the entries before it. -/
def Entry.Follows (ignoreWindow debounceWindow : Int) (before : List Entry) : Entry → Prop
  | .updated _ => True
  | .asked now isEcho => isEcho ↔ ∃ t ∈ (updates before).getLast?, now ≤ t + ignoreWindow
  | .offered now hash isPassed =>
    isPassed ↔ ∀ last ∈ (passed before).getLast?, Apart debounceWindow last (now, hash)

/-! ## One call -/

variable {g : EchoGuard}

theorem isEcho_iff {now : Int} : g.isEcho now ↔ ∃ limit ∈ g.ignoreUntil, now ≤ limit := by
  unfold isEcho
  cases g.ignoreUntil <;> simp

theorem holdsBack_eq_false_iff {now : Int} {hash : Bytes} :
    g.holdsBack now hash = false ↔
      ∀ last ∈ g.lastPublish, Apart g.debounceWindow last (now, hash) := by
  unfold holdsBack
  cases g.lastPublish with
  | none => simp
  | some last =>
      simp only [Apart, Option.mem_def, Option.some.injEq, forall_eq', Bool.or_eq_false_iff]
      rw [and_comm, decide_eq_false_iff_not, ← Bool.decide_and, decide_eq_false_iff_not, ne_comm]

/-- A change is held back or let through, and remembered only if it is let through. -/
theorem answer_publish (g : EchoGuard) (now : Int) (hash : Bytes) :
    (g.holdsBack now hash = true ∧ g.answer (.publish now hash) = (.offered now hash false, g)) ∨
      (g.holdsBack now hash = false ∧ g.answer (.publish now hash) =
        (.offered now hash true, { g with lastPublish := some (now, hash) })) := by
  cases h : g.holdsBack now hash <;> simp [answer, pass, h]

theorem windows_answer (g : EchoGuard) (c : Call) :
    (g.answer c).2.ignoreWindow = g.ignoreWindow ∧
      (g.answer c).2.debounceWindow = g.debounceWindow := by
  cases c with
  | publish now hash =>
      obtain ⟨-, h⟩ | ⟨-, h⟩ := g.answer_publish now hash <;> simp only [h, and_self]
  | _ => exact ⟨rfl, rfl⟩

/-- The rule for echoes looks at remote updates only. -/
theorem ignoreUntil_answer (g : EchoGuard) (c : Call) :
    (g.answer c).2.ignoreUntil =
      ((g.answer c).1.update?.map (· + g.ignoreWindow)).or g.ignoreUntil := by
  cases c with
  | publish now hash => obtain ⟨-, h⟩ | ⟨-, h⟩ := g.answer_publish now hash <;> rw [h] <;> rfl
  | _ => rfl

/-- The rule for publishing looks at changes that were let through only. -/
theorem lastPublish_answer (g : EchoGuard) (c : Call) :
    (g.answer c).2.lastPublish = (g.answer c).1.passed?.or g.lastPublish := by
  cases c with
  | publish now hash => obtain ⟨-, h⟩ | ⟨-, h⟩ := g.answer_publish now hash <;> rw [h] <;> rfl
  | _ => rfl

/-- A change that is let through is apart from the last one that was. -/
theorem apart_of_passed {c : Call} {change : Int × Bytes}
    (h : (g.answer c).1.passed? = some change) :
    ∀ last ∈ g.lastPublish, Apart g.debounceWindow last change := by
  cases c with
  | publish now hash =>
      obtain ⟨-, hanswer⟩ | ⟨hfree, hanswer⟩ := g.answer_publish now hash
      · rw [hanswer] at h
        cases h
      · rw [hanswer] at h
        cases h
        exact holdsBack_eq_false_iff.mp hfree
  | _ => cases h

/-- A change that is held back leaves no trace. -/
theorem snd_answer_of_suppressed {c : Call} (h : (g.answer c).1.suppressed) :
    (g.answer c).2 = g := by
  cases c with
  | publish now hash =>
      obtain ⟨-, hanswer⟩ | ⟨-, hanswer⟩ := g.answer_publish now hash
      · rw [hanswer]
      · rw [hanswer] at h
        cases h
  | _ => cases h

theorem call_answer (c : Call) : (g.answer c).1.call = c := by cases c <;> rfl

/-! ## Traces -/

theorem map_call_trace (g : EchoGuard) (calls : List Call) :
    (g.trace calls).map Entry.call = calls := by
  induction calls generalizing g with
  | nil => rfl
  | cons c calls ih => rw [trace, List.map_cons, ih, call_answer]

/-- An answer in a trace is given by the guard that the calls before it have left. -/
theorem exists_of_trace_eq {calls : List Call} {before rest : List Entry} {e : Entry}
    (h : g.trace calls = before ++ e :: rest) :
    ∃ earlier c, g.trace earlier = before ∧ e = ((g.after earlier).answer c).1 := by
  induction calls generalizing g before with
  | nil => exact absurd h.symm (List.append_ne_nil_of_right_ne_nil _ (List.cons_ne_nil e rest))
  | cons c calls ih =>
      rw [trace] at h
      cases before with
      | nil => exact ⟨[], c, rfl, (List.cons.inj h).1.symm⟩
      | cons first before =>
          obtain ⟨hfirst, hrest⟩ := List.cons.inj h
          obtain ⟨earlier, c', hbefore, he⟩ := ih hrest
          exact ⟨c :: earlier, c', by rw [trace, hbefore, hfirst], he⟩

theorem windows_after (g : EchoGuard) (calls : List Call) :
    (g.after calls).ignoreWindow = g.ignoreWindow ∧
      (g.after calls).debounceWindow = g.debounceWindow := by
  induction calls generalizing g with
  | nil => exact ⟨rfl, rfl⟩
  | cons c calls ih =>
      obtain ⟨hignore, hdebounce⟩ := g.windows_answer c
      rw [← hignore, ← hdebounce]
      exact ih (g.answer c).2

/-- Of the remote updates the last one counts. -/
theorem ignoreUntil_after (g : EchoGuard) (calls : List Call) :
    (g.after calls).ignoreUntil =
      ((updates (g.trace calls)).getLast?.map (· + g.ignoreWindow)).or g.ignoreUntil := by
  induction calls generalizing g with
  | nil => rfl
  | cons c calls ih =>
      have hafter : g.after (c :: calls) = (g.answer c).2.after calls := rfl
      rw [hafter, ih, (g.windows_answer c).1, ignoreUntil_answer, ← Option.or_assoc, trace, updates,
        updates, getLast?_filterMap_cons, Option.map_or]

/-- Of the changes that were let through the last one counts. -/
theorem lastPublish_after (g : EchoGuard) (calls : List Call) :
    (g.after calls).lastPublish = (passed (g.trace calls)).getLast?.or g.lastPublish := by
  induction calls generalizing g with
  | nil => rfl
  | cons c calls ih =>
      have hafter : g.after (c :: calls) = (g.answer c).2.after calls := rfl
      rw [hafter, ih, lastPublish_answer, ← Option.or_assoc, trace, passed, passed,
        getLast?_filterMap_cons]

/-- A guard that remembers nothing yet follows the rules from its first call on. -/
theorem follows_answer (hupdate : g.ignoreUntil = none) (hpublish : g.lastPublish = none)
    (earlier : List Call) (c : Call) :
    ((g.after earlier).answer c).1.Follows g.ignoreWindow g.debounceWindow (g.trace earlier) := by
  have hignore := ignoreUntil_after g earlier
  have hlast := lastPublish_after g earlier
  rw [hupdate, Option.or_none] at hignore
  rw [hpublish, Option.or_none] at hlast
  cases c with
  | update now => trivial
  | echo now =>
      simp only [answer, Entry.Follows, isEcho_iff, hignore]
      cases (updates (g.trace earlier)).getLast? <;> simp
  | publish now hash =>
      have hfree : (g.after earlier).holdsBack now hash = false ↔
          ∀ last ∈ (passed (g.trace earlier)).getLast?,
            Apart g.debounceWindow last (now, hash) := by
        rw [holdsBack_eq_false_iff, hlast, (windows_after g earlier).2]
      obtain ⟨hheld, h⟩ | ⟨hpassed, h⟩ := (g.after earlier).answer_publish now hash
      · rw [h, Entry.Follows, ← hfree, hheld]
        decide
      · rw [h, Entry.Follows, ← hfree, hpassed]
        decide

/-- Each change that is let through is apart from the one before. -/
theorem isChain_passed (g : EchoGuard) (calls : List Call) :
    (g.lastPublish.toList ++ passed (g.trace calls)).IsChain (Apart g.debounceWindow) := by
  induction calls generalizing g with
  | nil => cases g.lastPublish <;> simp [trace, passed]
  | cons c calls ih =>
      have hrest := ih (g.answer c).2
      rw [(g.windows_answer c).2, lastPublish_answer] at hrest
      rw [trace, passed, List.filterMap_cons]
      cases hpassed : (g.answer c).1.passed? with
      | none =>
          rw [hpassed, Option.none_or] at hrest
          exact hrest
      | some change =>
          rw [hpassed, Option.some_or] at hrest
          refine List.isChain_append.mpr ⟨?_, hrest, ?_⟩
          · cases g.lastPublish <;> simp
          · have htoList : g.lastPublish.toList.getLast? = g.lastPublish := by
              cases g.lastPublish <;> rfl
            rw [htoList]
            rintro last hlast _ ⟨⟩
            exact apart_of_passed hpassed last hlast

/-! ## Leaving calls out -/

/-- What is held back can be left out. -/
theorem trace_unsuppressed (g : EchoGuard) (calls : List Call) :
    g.trace (((g.trace calls).filter fun e => !e.suppressed).map Entry.call) =
      (g.trace calls).filter fun e => !e.suppressed := by
  induction calls generalizing g with
  | nil => rfl
  | cons c calls ih =>
      rw [trace, List.filter_cons]
      by_cases hheld : (g.answer c).1.suppressed
      · rw [if_neg (by simp [hheld]), snd_answer_of_suppressed hheld]
        exact ih g
      · rw [if_pos (by simp [hheld]), List.map_cons, call_answer, trace, ih]

/-- Calls that a part of the guard does not feel can be left out, if the answers to the others
go by that part. -/
theorem filter_trace {keep : Call → Bool} {Alike : EchoGuard → EchoGuard → Prop}
    (hkeep : ∀ g g' c, Alike g g' → keep c →
      (g.answer c).1 = (g'.answer c).1 ∧ Alike (g.answer c).2 (g'.answer c).2)
    (hskip : ∀ g g' c, Alike g g' → keep c = false → Alike (g.answer c).2 g')
    {g g' : EchoGuard} (h : Alike g g') (calls : List Call) :
    ((g.trace calls).filter fun e => keep e.call) = g'.trace (calls.filter keep) := by
  induction calls generalizing g g' with
  | nil => rfl
  | cons c calls ih =>
      rw [trace, List.filter_cons, call_answer, List.filter_cons]
      by_cases hc : keep c
      · obtain ⟨hanswer, hnext⟩ := hkeep g g' c h hc
        rw [if_pos hc, if_pos hc, trace, hanswer, ih hnext]
      · rw [if_neg hc, if_neg hc, ih (hskip g g' c h (Bool.eq_false_iff.mpr hc))]

/-! ## The law -/

/-- What a guard answers about echoes it would also answer with another debounce window, if
it were asked about nothing else. -/
theorem filter_echoes_trace (g g' : EchoGuard) (hwindow : g.ignoreWindow = g'.ignoreWindow)
    (hupdate : g.ignoreUntil = g'.ignoreUntil) (calls : List Call) :
    ((g.trace calls).filter fun e => e.call.concernsEchoes) =
      g'.trace (calls.filter Call.concernsEchoes) := by
  let Alike (g g' : EchoGuard) : Prop :=
    g.ignoreWindow = g'.ignoreWindow ∧ g.ignoreUntil = g'.ignoreUntil
  have hsame : Alike g g' := ⟨hwindow, hupdate⟩
  refine filter_trace (fun g g' c h hc => ?_) (fun g g' c h hc => ?_) hsame calls
  · have hanswer : (g.answer c).1 = (g'.answer c).1 := by
      cases c with
      | update now => rfl
      | echo now => simp only [answer, isEcho, h.2]
      | publish now hash => cases hc
    refine ⟨hanswer, ?_, ?_⟩
    · rw [(g.windows_answer c).1, (g'.windows_answer c).1, h.1]
    · rw [ignoreUntil_answer, ignoreUntil_answer, hanswer, h.1, h.2]
  · cases c with
    | publish now hash =>
        refine ⟨(g.windows_answer _).1.trans h.1, ?_⟩
        obtain ⟨-, hanswer⟩ | ⟨-, hanswer⟩ := g.answer_publish now hash <;> rw [hanswer, ← h.2]
    | _ => cases hc

/-- What a guard answers about publishing it would also answer with another ignore window, if
it were asked about nothing else. -/
theorem filter_publishes_trace (g g' : EchoGuard)
    (hwindow : g.debounceWindow = g'.debounceWindow) (hpublish : g.lastPublish = g'.lastPublish)
    (calls : List Call) :
    ((g.trace calls).filter fun e => !e.call.concernsEchoes) =
      g'.trace (calls.filter fun c => !c.concernsEchoes) := by
  let Alike (g g' : EchoGuard) : Prop :=
    g.debounceWindow = g'.debounceWindow ∧ g.lastPublish = g'.lastPublish
  have hsame : Alike g g' := ⟨hwindow, hpublish⟩
  have hkeep : ∀ g g' c, Alike g g' → (!c.concernsEchoes) = true →
      (g.answer c).1 = (g'.answer c).1 ∧ Alike (g.answer c).2 (g'.answer c).2 := by
    intro g g' c h hc
    have hanswer : (g.answer c).1 = (g'.answer c).1 := by
      cases c with
      | publish now hash =>
          have hheld : g.holdsBack now hash = g'.holdsBack now hash := by
            simp only [holdsBack, h.1, h.2]
          simp only [answer, pass, hheld]
          split <;> rfl
      | _ => cases hc
    refine ⟨hanswer, ?_, ?_⟩
    · rw [(g.windows_answer c).2, (g'.windows_answer c).2, h.1]
    · rw [lastPublish_answer, lastPublish_answer, hanswer, h.2]
  refine filter_trace hkeep (fun g g' c h hc => ?_) hsame calls
  cases c with
  | publish now hash => cases hc
  | _ => exact h

/-- **What an echo guard answers**: let a guard that remembers nothing be called any number of
times, at times in any order.  A local change is an echo just if there was a remote update and
the change comes up to the end of the ignore window of the last one.  A change is let through
just if none was before, or it differs in content from the last one that was and does not come
within the debounce window after it.  So any two changes that are let through one after the
other are apart.  A change that is held back leaves no trace: the guard is the same after it,
and without all such calls the other answers are the same.  Neither rule influences the
other: the answers about echoes are those of a guard with any debounce window that is called
about echoes only, and the answers about publishing those of a guard with any ignore window
that is called about publishing only. -/
theorem trace_follows (ignoreWindow debounceWindow : Int) (calls : List Call) :
    let new (ignoreWindow debounceWindow : Int) : EchoGuard :=
      ⟨ignoreWindow, debounceWindow, none, none⟩
    let g := new ignoreWindow debounceWindow
    let trace := g.trace calls
    trace.map Entry.call = calls ∧
    (∀ before e rest, trace = before ++ e :: rest →
      e.Follows ignoreWindow debounceWindow before) ∧
    (passed trace).IsChain (Apart debounceWindow) ∧
    (∀ now hash, (((g.after calls).pass now hash).1 = false →
      ((g.after calls).pass now hash).2 = g.after calls)) ∧
    g.trace ((trace.filter fun e => !e.suppressed).map Entry.call) =
      trace.filter (fun e => !e.suppressed) ∧
    (∀ window, trace.filter (fun e => e.call.concernsEchoes) =
      (new ignoreWindow window).trace (calls.filter Call.concernsEchoes)) ∧
    ∀ window, trace.filter (fun e => !e.call.concernsEchoes) =
      (new window debounceWindow).trace (calls.filter fun c => !c.concernsEchoes) := by
  intro new g trace
  refine ⟨map_call_trace g calls, fun before e rest hsplit => ?_, isChain_passed g calls,
    fun now hash hheld => ?_, trace_unsuppressed g calls,
    fun window => filter_echoes_trace g (new ignoreWindow window) rfl rfl calls,
    fun window => filter_publishes_trace g (new window debounceWindow) rfl rfl calls⟩
  · obtain ⟨earlier, c, rfl, rfl⟩ := exists_of_trace_eq hsplit
    exact follows_answer rfl rfl earlier c
  · have hanswer : ((g.after calls).answer (.publish now hash)).1.suppressed := by
      simp only [answer, hheld, Entry.suppressed]
    exact snd_answer_of_suppressed hanswer

/-- A clock that is set back does not hold a change back. -/
example : trace {} [.update 1000, .echo 1600, .echo 1601, .publish 3000 [1], .publish 3199 [2],
    .publish 3200 [2], .publish 2000 [2], .publish 2000 [1]] =
    [.updated 1000, .asked 1600 true, .asked 1601 false, .offered 3000 [1] true,
      .offered 3199 [2] false, .offered 3200 [2] true, .offered 2000 [2] false,
      .offered 2000 [1] true] := by decide

end EchoGuard

end ClipRelay
