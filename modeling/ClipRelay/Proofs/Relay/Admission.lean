import ClipRelay.Proofs.Relay.Effects

/-!
# ClipRelay.Proofs.Relay.Admission

Who may join which room, and what a refused join leaves behind.

`Admits` says which credentials are good for which room, and `Founds` when they
fix the secret of a room that nobody entered before.  A join asks for nothing
else: `fst_grant_iff` and `with_grant` say what it decides and what becomes of
the secrets.

A join that is refused leaves the relay as it was, but for one case
(`refused_join_eq_iff`): a session that is bound already, and asks for a room
without a secret, is turned away only after its secret was taken for that room.
-/

namespace ClipRelay.Relay

/-- The credentials that a session joins with are good for a room: in account
mode the session has a principal, and the room is one of its own; otherwise the
secret is good for the room. -/
def Admits (r : Relay) (s : Session) (roomId secret : String) (b : Binding) : Prop :=
  wanted? r.account s roomId = some b ∧
    (r.account.enabled = false → r.secrets.Accepts roomId secret)

/-- A join with these credentials fixes the secret of the room. -/
def Founds (r : Relay) (roomId secret : String) : Prop :=
  r.account.enabled = false ∧ r.secrets.Founds roomId secret

instance (r : Relay) (roomId secret : String) : Decidable (r.Founds roomId secret) :=
  inferInstanceAs (Decidable (_ ∧ _))

/-! ## What a join decides -/

/-- A caller is let into a room just if its credentials are good for it. -/
theorem fst_grant_iff {r : Relay} {s : Session} {roomId secret : String} {b : Binding} :
    (r.grant s roomId secret).1 = .ok b ↔ r.Admits s roomId secret b := by
  unfold grant Admits wanted?
  cases he : r.account.enabled with
  | true => cases s.principal <;> simp
  | false =>
      have hiff := @RoomSecrets.fst_enter_iff r.secrets roomId secret
      cases hg : r.secrets.enter roomId secret with
      | mk admitted secrets =>
          rw [hg] at hiff
          cases admitted with
          | true => simp [← hiff]
          | false => simp [← hiff]

/-- The relay once a room without a secret was given one. -/
def withSecret (r : Relay) (roomId secret : String) : Relay :=
  { r with secrets := ⟨r.secrets.hashes.insert roomId (secretHash roomId secret)⟩ }

theorem withSecret_ne {r : Relay} {roomId secret : String} (h : r.Founds roomId secret) :
    r.withSecret roomId secret ≠ r := by
  intro heq
  have hsecret : (r.withSecret roomId secret).secrets.hashes.get? roomId =
      some (secretHash roomId secret) := Table.get?_insert_self _ _ _
  rw [heq, h.2.2.2] at hsecret
  contradiction

/-- Whatever a join decides, it touches no secret, unless it fixes the one of its
room. -/
theorem with_grant {r : Relay} {s : Session} {roomId secret : String}
    {granted : Except Refusal Binding} {secrets : RoomSecrets}
    (h : r.grant s roomId secret = (granted, secrets)) :
    { r with secrets } = if r.Founds roomId secret then r.withSecret roomId secret else r := by
  cases he : r.account.enabled with
  | true =>
      have hnot : ¬r.Founds roomId secret := fun hf => by
        rw [Founds, he] at hf
        exact absurd hf.1 (by decide)
      have hsecrets : secrets = r.secrets := by
        rw [grant, he] at h
        cases hp : s.principal <;> simp_all
      rw [if_neg hnot, hsecrets]
  | false =>
      have hiff : r.Founds roomId secret ↔ r.secrets.Founds roomId secret :=
        ⟨And.right, fun hf => ⟨he, hf⟩⟩
      have hsecrets : secrets = (r.secrets.enter roomId secret).2 := by
        rw [grant, he] at h
        cases hg : r.secrets.enter roomId secret with
        | mk admitted secrets => cases admitted <;> simp_all
      rw [hsecrets, RoomSecrets.snd_enter]
      simp only [hiff]
      split <;> rfl

theorem Founds.admits {r : Relay} {roomId secret : String} (h : r.Founds roomId secret)
    (s : Session) : r.Admits s roomId secret ⟨roomId, .shared roomId⟩ := by
  refine ⟨?_, fun _ => h.2.accepts⟩
  rw [wanted?, h.1]
  rfl

/-- Without account mode, a room id names the room of the same key. -/
theorem Admits.key_text {r : Relay} {s : Session} {roomId secret : String} {b : Binding}
    (h : r.Admits s roomId secret b) (he : r.account.enabled = false) : b.key.text = roomId := by
  have hwanted := h.1
  rw [wanted?, he] at hwanted
  cases hwanted
  rfl

/-! ## Joins that are refused -/

/-- A join that is refused touches nothing but the secret of its room, and that
only if the caller is bound to another one. -/
theorem join_of_error {r : Relay} {id : SessionId} {s : Session} {roomId secret : String}
    {e : Refusal} (h : (r.join id s roomId secret).1 = .error e) :
    (r.join id s roomId secret).2 =
      if s.binding.isSome ∧ r.Founds roomId secret then r.withSecret roomId secret else r := by
  revert h
  refine join_cases r id s roomId secret (motive := fun result =>
    result.1 = .error e → result.2 = if s.binding.isSome ∧ r.Founds roomId secret then
      r.withSecret roomId secret else r) ?_ ?_ ?_ ?_
  · -- Credentials that fix a secret are good, so a caller is not turned away with them.
    intro e' secrets hgrant _
    have hnot : ¬r.Founds roomId secret := fun hf => by
      have hok := fst_grant_iff.mpr (hf.admits s)
      rw [hgrant] at hok
      contradiction
    rw [if_neg fun hboth => hnot hboth.2]
    exact (with_grant hgrant).trans (if_neg hnot)
  · intro wanted secrets b hgrant hb _ _
    have hbound : s.binding.isSome := Option.isSome_iff_exists.mpr ⟨b, hb⟩
    simp only [hbound, true_and]
    exact with_grant hgrant
  · intro wanted secrets b _ _ _ hok
    contradiction
  · intro wanted secrets _ _ hok
    contradiction

/-- Without account mode, whoever brings a secret that is not good for the room is
refused. -/
theorem perform_joinRoom_of_not_accepts {r : Relay} (he : r.account.enabled = false)
    {id : SessionId} {s : Session} (hs : r.sessions.get? id = some s) {roomId secret : String}
    (h : ¬r.secrets.Accepts roomId secret) (now : Timestamp) :
    (r.perform now id (.joinRoom roomId secret)).1 = .error .invalidRoomCredentials := by
  rw [← RoomSecrets.fst_enter_iff, Bool.not_eq_true] at h
  simp only [perform, hs, join, grant, he, Bool.false_eq_true, if_false]
  cases hg : r.secrets.enter roomId secret with
  | mk admitted secrets =>
      rw [hg] at h
      cases h
      rfl

/-- The room that the session of a name is bound to. -/
def bindingOf? (r : Relay) (id : SessionId) : Option Binding :=
  (r.sessions.get? id).bind (·.binding)

theorem bindingOf?_of_session {r : Relay} {id : SessionId} {s : Session}
    (h : r.sessions.get? id = some s) : r.bindingOf? id = s.binding := by
  rw [bindingOf?, h, Option.bind_some]

theorem perform_joinRoom {r : Relay} {id : SessionId} {s : Session}
    (h : r.sessions.get? id = some s) (now : Timestamp) (roomId secret : String) :
    r.perform now id (.joinRoom roomId secret) =
      answering .joined (r.join id s roomId secret) := by
  simp only [perform, h]

theorem perform_joinRoom_of_error {r : Relay} {now : Timestamp} {id : SessionId}
    {roomId secret : String} {e : Refusal}
    (h : (r.perform now id (.joinRoom roomId secret)).1 = .error e) :
    (r.perform now id (.joinRoom roomId secret)).2 =
      if (r.bindingOf? id).isSome ∧ r.Founds roomId secret then r.withSecret roomId secret
      else r := by
  cases hs : r.sessions.get? id with
  | none =>
      have hnot : ¬((r.bindingOf? id).isSome ∧ r.Founds roomId secret) := fun hboth => by
        rw [bindingOf?, hs] at hboth
        exact absurd hboth.1 (by decide)
      rw [if_neg hnot, perform_of_absent hs]
  | some s =>
      rw [perform_joinRoom hs, answering_eq_error_iff] at h
      rw [perform_joinRoom hs, bindingOf?_of_session hs, ← join_of_error h]
      rfl

/-- **Refused joins**: a join that is refused leaves the whole relay as it was,
just if it is not one of a session that is bound already and brings a secret to
a room that has none.  In that case the room has that secret from then on, and
nothing else is changed. -/
theorem refused_join_eq_iff {r : Relay} {now : Timestamp} {id : SessionId}
    {roomId secret : String} {e : Refusal}
    (h : (r.perform now id (.joinRoom roomId secret)).1 = .error e) :
    let after := (r.perform now id (.joinRoom roomId secret)).2
    (after = r ↔ ¬((r.bindingOf? id).isSome ∧ r.Founds roomId secret)) ∧
      ((r.bindingOf? id).isSome ∧ r.Founds roomId secret →
        after = r.withSecret roomId secret) := by
  intro after
  have hafter := perform_joinRoom_of_error h
  by_cases hf : (r.bindingOf? id).isSome ∧ r.Founds roomId secret
  · rw [if_pos hf] at hafter
    refine ⟨iff_of_false ?_ (not_not_intro hf), fun _ => hafter⟩
    exact fun heq => withSecret_ne hf.2 (hafter.symm.trans heq)
  · rw [if_neg hf] at hafter
    exact ⟨iff_of_true hafter hf, fun h => absurd h hf⟩

/-- A session in `home` asks for `work`, which nobody entered yet, and is turned
away: `work` has the secret it brought. -/
theorem refused_join_from_home :
    let r := (empty {} 10).run [.connect none 8, .call 1 0 (.joinRoom "home" "sesame")]
    (r.perform 2 0 (.joinRoom "work" "mine")).1 = .error .joinedElsewhere ∧
      (r.perform 2 0 (.joinRoom "work" "mine")).2 = r.withSecret "work" "mine" := by
  intro r
  have hrefused : (r.perform 2 0 (.joinRoom "work" "mine")).1 = .error .joinedElsewhere := rfl
  exact ⟨hrefused, (refused_join_eq_iff hrefused).2 ⟨rfl, rfl, by decide, by decide, rfl⟩⟩

/-- So it is false that a refused join changes nothing: a session that comes to
`work` first, with a secret of its own, is let in before that join, and is not
after it. -/
theorem refused_join_shuts_out :
    let r := (empty {} 10).run
      [.connect none 8, .connect none 8, .call 1 0 (.joinRoom "home" "sesame")]
    let refused := r.perform 2 0 (.joinRoom "work" "mine")
    refused.1 = .error .joinedElsewhere ∧
      (r.kept (.shared "work")).secret = none ∧
      (refused.2.kept (.shared "work")).secret = some (secretHash "work" "mine") ∧
      (r.perform 3 1 (.joinRoom "work" "ours")).1 = .ok .joined ∧
      (refused.2.perform 3 1 (.joinRoom "work" "ours")).1 = .error .invalidRoomCredentials := by
  intro r refused
  have hother : secretHash "work" "mine" ≠ secretHash "work" "ours" := by decide +kernel
  have hnot : ¬refused.2.secrets.Accepts "work" "ours" := fun h => hother (h.2.2 _ rfl)
  exact ⟨rfl, rfl, rfl, rfl, perform_joinRoom_of_not_accepts rfl rfl hnot 3⟩

end ClipRelay.Relay
