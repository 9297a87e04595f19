import ClipRelay.Relay.RoomSecrets

/-!
# ClipRelay.Proofs.Relay.FirstSecret

The first secret that is brought to a room stays its secret.

`RoomSecrets.trace` makes some attempts to enter rooms, one after the other, and
keeps the answers.  What is known of a room afterwards is settled by the list of
attempts alone (`get?_after`): the hash of the first secret that came with its id
(`firstSecret?`), attempts with a blank room id or a blank secret apart.  So every
attempt is answered by comparing its secret with that one, wherever in the list
it stands, and no attempt at one room is felt at another (`filter_trace`).
-/

namespace ClipRelay.RoomSecrets

/-- An attempt to enter a room: the room id and the secret that are brought. -/
structure Attempt where
  roomId : String
  secret : String

/-- Neither the room id nor the secret is blank. -/
def Attempt.complete (a : Attempt) : Bool := !Text.isBlank a.roomId && !Text.isBlank a.secret

theorem Attempt.complete_iff {a : Attempt} :
    a.complete = true ↔ Text.isBlank a.roomId = false ∧ Text.isBlank a.secret = false := by
  simp [complete]

/-- The secrets after some attempts. -/
def after (r : RoomSecrets) (attempts : List Attempt) : RoomSecrets :=
  attempts.foldl (fun r a => (r.enter a.roomId a.secret).2) r

/-- Some attempts, each with the answer to it. -/
def trace (r : RoomSecrets) : List Attempt → List (Attempt × Bool)
  | [] => []
  | a :: attempts =>
    (a, (r.enter a.roomId a.secret).1) :: trace (r.enter a.roomId a.secret).2 attempts

/-- The first secret that is brought to a room. -/
def firstSecret? (roomId : String) (attempts : List Attempt) : Option String :=
  (attempts.find? fun a => decide (a.roomId = roomId) && a.complete).map (·.secret)

theorem after_append (r : RoomSecrets) (attempts attempts' : List Attempt) :
    r.after (attempts ++ attempts') = (r.after attempts).after attempts' := List.foldl_append

theorem firstSecret?_cons (roomId : String) (a : Attempt) (attempts : List Attempt) :
    firstSecret? roomId (a :: attempts) =
      if a.roomId = roomId ∧ a.complete then some a.secret else firstSecret? roomId attempts := by
  by_cases hroom : a.roomId = roomId
  · cases hcomplete : a.complete <;> simp [firstSecret?, hroom, hcomplete]
  · simp [firstSecret?, hroom]

theorem firstSecret?_append (roomId : String) (attempts attempts' : List Attempt) :
    firstSecret? roomId (attempts ++ attempts') =
      (firstSecret? roomId attempts).or (firstSecret? roomId attempts') := by
  simp [firstSecret?, List.find?_append, Option.map_or]

/-! ## What is known of a room -/

/-- An attempt fixes the secret of its room just if it is complete and the room has none. -/
theorem get?_enter_eq (r : RoomSecrets) (a : Attempt) (roomId : String) :
    (r.enter a.roomId a.secret).2.hashes.get? roomId =
      (r.hashes.get? roomId).or
        (if a.roomId = roomId ∧ a.complete then some (secretHash roomId a.secret) else none) := by
  rw [get?_enter]
  by_cases hroom : a.roomId = roomId
  · subst hroom
    have hblank : (Text.isBlank a.roomId || Text.isBlank a.secret) = !a.complete := by
      simp [Attempt.complete]
    simp only [if_true, verdict, hblank, true_and]
    cases a.complete <;> cases r.hashes.get? a.roomId <;> rfl
  · simp [hroom]

/-- What is known of a room is the hash of the first secret that was brought to it, unless
something was known before. -/
theorem get?_after (r : RoomSecrets) (attempts : List Attempt) (roomId : String) :
    (r.after attempts).hashes.get? roomId =
      (r.hashes.get? roomId).or ((firstSecret? roomId attempts).map (secretHash roomId)) := by
  induction attempts generalizing r with
  | nil => simp [after, firstSecret?]
  | cons a attempts ih =>
      have hcons : r.after (a :: attempts) = (r.enter a.roomId a.secret).2.after attempts := rfl
      rw [hcons, ih, get?_enter_eq, firstSecret?_cons, Option.or_assoc]
      split <;> simp

/-- What is known of a room stays so. -/
theorem get?_after_of_some {r : RoomSecrets} {roomId : String} {hash : Bytes}
    (h : r.hashes.get? roomId = some hash) (attempts : List Attempt) :
    (r.after attempts).hashes.get? roomId = some hash := by
  rw [get?_after, h, Option.some_or]

/-- An attempt that is refused changes nothing. -/
theorem snd_enter_of_refused {r : RoomSecrets} {roomId secret : String}
    (h : (r.enter roomId secret).1 = false) : (r.enter roomId secret).2 = r := by
  have hnot : ¬r.Founds roomId secret := fun hf => by
    rw [fst_enter_iff.mpr hf.accepts] at h
    contradiction
  rw [snd_enter, if_neg hnot]

/-! ## Traces -/

theorem map_fst_trace (r : RoomSecrets) (attempts : List Attempt) :
    (r.trace attempts).map (·.1) = attempts := by
  induction attempts generalizing r with
  | nil => rfl
  | cons a attempts ih => rw [trace, List.map_cons, ih]

/-- An answer in a trace is given on what the attempts before it have left. -/
theorem exists_of_mem_trace {r : RoomSecrets} {attempts : List Attempt} {a : Attempt}
    {admitted : Bool} (h : (a, admitted) ∈ r.trace attempts) :
    ∃ before rest, attempts = before ++ a :: rest ∧
      admitted = ((r.after before).enter a.roomId a.secret).1 := by
  induction attempts generalizing r with
  | nil => cases h
  | cons first attempts ih =>
      rw [trace, List.mem_cons] at h
      obtain heq | hlater := h
      · cases heq
        exact ⟨[], attempts, rfl, rfl⟩
      · obtain ⟨before, rest, rfl, hadmitted⟩ := ih hlater
        exact ⟨first :: before, rest, rfl, hadmitted⟩

/-- An attempt is let in just if it is complete and brings the hash of the first secret of
its room, which may be its own. -/
theorem fst_enter_after_iff (before : List Attempt) (a : Attempt) (rest : List Attempt) :
    ((({} : RoomSecrets).after before).enter a.roomId a.secret).1 = true ↔
      Text.isBlank a.roomId = false ∧ Text.isBlank a.secret = false ∧
        ∃ first, firstSecret? a.roomId (before ++ a :: rest) = some first ∧
          secretHash a.roomId a.secret = secretHash a.roomId first := by
  have hknown : (({} : RoomSecrets).after before).hashes.get? a.roomId =
      (firstSecret? a.roomId before).map (secretHash a.roomId) := by
    rw [get?_after]
    exact Option.none_or
  rw [fst_enter_iff, Accepts, hknown]
  refine and_congr_right fun hroom => and_congr_right fun hsecret => ?_
  have hcomplete : a.complete = true := Attempt.complete_iff.mpr ⟨hroom, hsecret⟩
  rw [firstSecret?_append, firstSecret?_cons, if_pos ⟨rfl, hcomplete⟩]
  cases firstSecret? a.roomId before with
  | none => simp
  | some first => simp [eq_comm]

/-- What is answered at a room follows from what was known of it and from the attempts at
it: those at other rooms can be left out. -/
theorem filter_trace {r r' : RoomSecrets} {roomId : String}
    (h : r.hashes.get? roomId = r'.hashes.get? roomId) (attempts : List Attempt) :
    (r.trace attempts).filter (fun x => x.1.roomId = roomId) =
      r'.trace (attempts.filter fun a => a.roomId = roomId) := by
  induction attempts generalizing r r' with
  | nil => rfl
  | cons a attempts ih =>
      by_cases hroom : a.roomId = roomId
      · subst hroom
        have hanswer : (r.enter a.roomId a.secret).1 = (r'.enter a.roomId a.secret).1 := by
          rw [fst_enter, fst_enter, h]
        have hnext : (r.enter a.roomId a.secret).2.hashes.get? a.roomId =
            (r'.enter a.roomId a.secret).2.hashes.get? a.roomId := by
          rw [get?_enter_eq, get?_enter_eq, h]
        simp [trace, hanswer, ih hnext]
      · have hnext : (r.enter a.roomId a.secret).2.hashes.get? roomId =
            r'.hashes.get? roomId := by
          rw [get?_enter, if_neg hroom, h]
        simp [trace, hroom, ih hnext]

/-- **The first secret wins**: of some attempts to enter rooms, one after the other, each is
let in just if neither its room id nor its secret is blank and its secret has the hash, with
the room id, of the first secret that came with that room id, blank ones apart.  An attempt
that is refused changes nothing; what is once known of a room is known after every further
attempt; and the answers at a room are those to the attempts at this room alone. -/
theorem first_secret_wins (attempts : List Attempt) :
    let new : RoomSecrets := {}
    (new.trace attempts).map (·.1) = attempts ∧
    (∀ a admitted, (a, admitted) ∈ new.trace attempts → (admitted = true ↔
      Text.isBlank a.roomId = false ∧ Text.isBlank a.secret = false ∧
        ∃ first, firstSecret? a.roomId attempts = some first ∧
          Sha256.digest (Bytes.ofText (a.roomId ++ "\n" ++ a.secret)) =
            Sha256.digest (Bytes.ofText (a.roomId ++ "\n" ++ first)))) ∧
    (∀ before a rest, attempts = before ++ a :: rest →
      let known := new.after before
      ((known.enter a.roomId a.secret).1 = false → (known.enter a.roomId a.secret).2 = known) ∧
      ∀ roomId hash, known.hashes.get? roomId = some hash →
        (new.after attempts).hashes.get? roomId = some hash) ∧
    ∀ roomId, (new.trace attempts).filter (fun x => x.1.roomId = roomId) =
      new.trace (attempts.filter fun a => a.roomId = roomId) := by
  intro new
  refine ⟨map_fst_trace new attempts, ?_, ?_, fun roomId => filter_trace rfl attempts⟩
  · intro a admitted ha
    obtain ⟨before, rest, rfl, rfl⟩ := exists_of_mem_trace ha
    exact fst_enter_after_iff before a rest
  · rintro before a rest rfl known
    refine ⟨snd_enter_of_refused, fun roomId hash hknown => ?_⟩
    rw [after_append]
    exact get?_after_of_some hknown (a :: rest)

end ClipRelay.RoomSecrets
