import ClipRelay.Proofs.Account.Lifetimes
import ClipRelay.Proofs.Http.Percent
import ClipRelay.Proofs.Relay.Binding
import ClipRelay.Proofs.Relay.Deliveries
import ClipRelay.Proofs.Relay.Isolation

/-!
# ClipRelay.Proofs.Relay.Anonymous

In account mode nobody has a part in any room without a token.

Who a session belongs to is settled when its connection is upgraded, by the
first token that the request offers (`Http.Offers`), and stays so
(`Sound.principal_run`).  A session that belongs to nobody can join no room, so
it is `Excluded` from all of them: it is a member of none, all its calls are
refused without any effect, and nothing ever waits for it.

A token that does not hold up is refused with status 401, but for endless ones:
a request with such a token is dropped without an answer.
-/

namespace ClipRelay

/-! ## The token that decides -/

/-- A token text counts the same with white space around it. -/
theorem Issuer.validate_trim (i : Issuer) (now : Timestamp) (token : String) :
    i.validate now (Text.trim token) = i.validate now token := by
  have hsplit : split (Text.trim token) = split token := by rw [split, split, Text.trim_trim]
  rw [validate, validate, readClaims, readClaims, hsplit]

namespace Http

variable {r : Request} {inQuery : Option String} {token : String}

/-- The token that a request offers: the one in its query or, where that is missing or
blank, what a header `Authorization: Bearer` holds, unless it is blank too. -/
inductive Offers (inQuery : Option String) (r : Request) (token : String) : Prop where
  | query (h : inQuery = some token) (htoken : Text.isBlank token = false)
  | header (hquery : ∀ t, inQuery = some t → Text.isBlank t)
      (h : r.textHeader? "authorization" = some ("Bearer " ++ token))
      (htoken : Text.isBlank token = false)

theorem bearer?_eq_some_iff {t : String} :
    r.bearer? = some t ↔ ∃ token, r.textHeader? "authorization" = some ("Bearer " ++ token) ∧
      Text.isBlank token = false ∧ Text.trim token = t := by
  constructor
  · intro h
    unfold Request.bearer? at h
    split at h
    · contradiction
    · next v hv =>
      simp only at h
      split at h
      · next hscheme =>
        have hvalue : v = "Bearer " ++ String.ofList (v.toList.drop "Bearer ".toList.length) := by
          have hparts := List.take_append_drop "Bearer ".toList.length v.toList
          rw [hscheme] at hparts
          apply String.toList_injective
          simp only [String.toList_append, String.toList_ofList] at hparts ⊢
          exact hparts.symm
        split at h
        · contradiction
        · next hempty =>
          refine ⟨_, hvalue ▸ hv, ?_, Option.some.inj h⟩
          exact Bool.eq_false_iff.mpr fun hblank => hempty (Text.trim_of_isBlank hblank)
      · contradiction
  · rintro ⟨token, hheader, hblank, rfl⟩
    have hsome : Text.trim token ≠ "" := fun h => by
      rw [Text.isBlank_of_trim h] at hblank
      contradiction
    simp [Request.bearer?, hheader, hsome]

/-- A token that is written stands in a header as it is. -/
theorem textHeader?_written {i : Issuer} {claims : Claims}
    (h : r.header? "authorization" = some ("Bearer " ++ i.written claims)) :
    r.textHeader? "authorization" = some ("Bearer " ++ i.written claims) := by
  let visible (c : Char) : Bool := c == '\t' || ('\x20' ≤ c && c ≤ '\x7e')
  have hvisible : ("Bearer " ++ i.written claims).toList.all visible = true := by
    have hscheme : "Bearer ".toList.all visible = true := by decide
    rw [String.toList_append, List.all_append, hscheme, Bool.true_and, List.all_eq_true]
    intro c hc
    simp [visible, Issuer.visible_of_mem_written hc]
  rw [Request.textHeader?, h]
  exact Option.filter_eq_some_iff.mpr ⟨rfl, hvisible⟩

/-- Without a token there is nobody whose session it could be. -/
theorem upgrade_of_not_offers (account : AccountSettings) (now : Timestamp)
    (hquery : queryToken r.query = .ok inQuery) (hhandshake : handshakeFault? r = none)
    (h : ∀ token, ¬Offers inQuery r token) : upgrade account now r = .ok none := by
  have hinQuery : Text.nonBlank? inQuery = none := by
    cases hnonblank : Text.nonBlank? inQuery with
    | none => rfl
    | some t =>
        obtain ⟨ht, hblank⟩ := Option.filter_eq_some_iff.mp hnonblank
        exact absurd (.query ht (by simpa using hblank)) (h t)
  have hbearer : r.bearer? = none := by
    cases hsome : r.bearer? with
    | none => rfl
    | some t =>
        obtain ⟨token, hheader, hblank, -⟩ := bearer?_eq_some_iff.mp hsome
        refine absurd (.header (fun q hq => ?_) hheader hblank) (h token)
        simpa [Text.nonBlank?, hq, Option.filter] using hinQuery
  simp [upgrade, hquery, hhandshake, hinQuery, hbearer]

/-! ### What a token stands for -/

section
variable {account : AccountSettings} {now : Timestamp}

theorem principalOf_trim (account : AccountSettings) (now : Timestamp) (token : String) :
    principalOf account now (Text.trim token) = principalOf account now token := by
  rw [principalOf, principalOf, Issuer.validate_trim]

theorem principalOf_eq_ok_iff {p : Principal} : principalOf account now token = .ok p ↔
    (Issuer.ofSettings account).validate now token = .ok p := by
  unfold principalOf
  cases (Issuer.ofSettings account).validate now token <;> simp

theorem principalOf_eq_answer_iff {a : Answer} : principalOf account now token = .error (some a) ↔
    ∃ e, (Issuer.ofSettings account).validate now token = .error e ∧
      a = .error 401 e.describe := by
  unfold principalOf
  cases (Issuer.ofSettings account).validate now token <;> simp [eq_comm]

theorem principalOf_eq_dropped_iff : principalOf account now token = .error none ↔
    (Issuer.ofSettings account).Endless token := by
  have hbroken : (Issuer.ofSettings account).validate now token = .brokenOff ↔
      (Issuer.ofSettings account).Endless token := Issuer.validate_eq_brokenOff_iff
  rw [← hbroken]
  unfold principalOf
  cases (Issuer.ofSettings account).validate now token <;> simp

end

/-! ### Upgrades -/

/-- In account mode the token that is offered decides, one way or the other. -/
theorem upgrade_of_offers {account : AccountSettings} (henabled : account.enabled)
    (now : Timestamp) (hquery : queryToken r.query = .ok inQuery)
    (hhandshake : handshakeFault? r = none) (h : Offers inQuery r token) :
    upgrade account now r = (principalOf account now token).map some := by
  cases h with
  | query h htoken =>
      have hnonblank : Text.nonBlank? inQuery = some token := by
        simp [Text.nonBlank?, h, htoken]
      simp [upgrade, hquery, hhandshake, hnonblank, henabled]
  | header hblank h htoken =>
      have hnone : Text.nonBlank? inQuery = none := by
        rw [Text.nonBlank?, Option.filter_eq_none_iff]
        simpa using hblank
      have hbearer : r.bearer? = some (Text.trim token) :=
        bearer?_eq_some_iff.mpr ⟨token, h, htoken, rfl⟩
      simp [upgrade, hquery, hhandshake, hnone, hbearer, henabled, principalOf_trim]

/-- What becomes of a proper request in account mode. -/
structure Decided (account : AccountSettings) (now : Timestamp) (inQuery : Option String)
    (r : Request) : Prop where
  accepted : ∀ p, upgrade account now r = .ok (some p) ↔
    ∃ token, Offers inQuery r token ∧ (Issuer.ofSettings account).validate now token = .ok p
  anonymous : upgrade account now r = .ok none ↔ ∀ token, ¬Offers inQuery r token
  refused : ∀ a, upgrade account now r = .error (some a) ↔
    ∃ token e, Offers inQuery r token ∧
      (Issuer.ofSettings account).validate now token = .error e ∧ a = .error 401 e.describe
  dropped : upgrade account now r = .error none ↔
    ∃ token, Offers inQuery r token ∧ (Issuer.ofSettings account).Endless token

/-- Where a token is offered, its request fares as the token does. -/
theorem upgrade_eq_iff {account : AccountSettings} (henabled : account.enabled) (now : Timestamp)
    (hquery : queryToken r.query = .ok inQuery) (hhandshake : handshakeFault? r = none)
    (hoffers : Offers inQuery r token) (x : Except (Option Answer) Principal) :
    upgrade account now r = x.map some ↔
      ∃ token, Offers inQuery r token ∧ principalOf account now token = x := by
  have hinjective {y y' : Except (Option Answer) Principal} (h : y.map some = y'.map some) :
      y = y' := by
    cases y <;> cases y' <;> simp_all [Except.map]
  constructor
  · intro h
    rw [upgrade_of_offers henabled now hquery hhandshake hoffers] at h
    exact ⟨token, hoffers, hinjective h⟩
  · rintro ⟨token', hoffers', rfl⟩
    exact upgrade_of_offers henabled now hquery hhandshake hoffers'

theorem decided {account : AccountSettings} (henabled : account.enabled) (now : Timestamp)
    (hquery : queryToken r.query = .ok inQuery) (hhandshake : handshakeFault? r = none) :
    Decided account now inQuery r := by
  by_cases hnone : ∀ token, ¬Offers inQuery r token
  · have hupgrade := upgrade_of_not_offers account now hquery hhandshake hnone
    constructor <;> simp [hupgrade, hnone]
  · obtain ⟨token, hoffers⟩ : ∃ token, Offers inQuery r token := by simpa using hnone
    have hfares := upgrade_eq_iff henabled now hquery hhandshake hoffers
    refine ⟨fun p => ?_, ⟨fun h => ?_, fun h => absurd hoffers (h token)⟩, fun a => ?_, ?_⟩
    · simpa only [Except.map, principalOf_eq_ok_iff] using hfares (.ok p)
    · rw [upgrade_of_offers henabled now hquery hhandshake hoffers] at h
      cases hp : principalOf account now token <;> simp [hp, Except.map] at h
    · simpa only [Except.map, principalOf_eq_answer_iff, exists_and_left] using
        hfares (.error (some a))
    · simpa only [Except.map, principalOf_eq_dropped_iff] using hfares (.error none)

end Http

namespace Relay

/-! ## Whose a session is -/

/-- No action changes whose a session is. -/
theorem Sound.principal_step {r : Relay} (h : r.Sound) {id : SessionId} {x : Session}
    (hx : r.sessions.get? id = some x) (a : Action) :
    ∃ x', (r.step a).2.sessions.get? id = some x' ∧ x'.principal = x.principal := by
  cases a with
  | connect principal capacity =>
      have hi : r.nextSession ≠ id := fun hi => by
        rw [h.unused id (Nat.le_of_eq hi)] at hx
        contradiction
      exact ⟨x, by simp [Relay.step, Relay.connect, Table.get?_insert, hi, hx], rfl⟩
  | call now id' request =>
      have hsame := h.principal_perform now id' id request
      rw [hx, Option.map_some] at hsame
      exact Option.map_eq_some_iff.mp hsame
  | read id' count => exact ⟨x, (sameCast_read r id' count).sessions ▸ hx, rfl⟩
  | dropQueue id' => exact ⟨x, (sameCast_dropQueue r id').sessions ▸ hx, rfl⟩
  | disconnect id' =>
      simp only [Relay.step, Relay.disconnect]
      cases hx' : r.sessions.get? id' with
      | none => exact ⟨x, hx, rfl⟩
      | some x' =>
          by_cases hi : id' = id
          · obtain rfl : x' = x := by rwa [hi, hx, Option.some.injEq, eq_comm] at hx'
            exact ⟨{ x' with closed := true }, by simp [hi], rfl⟩
          · exact ⟨x, by simp [Table.get?_insert, hi, hx], rfl⟩
  | ask now provider request => exact ⟨x, hx, rfl⟩

theorem Sound.principal_run {r : Relay} (h : r.Sound) {id : SessionId} {x : Session}
    (hx : r.sessions.get? id = some x) (actions : List Action) :
    ∃ x', (r.run actions).sessions.get? id = some x' ∧ x'.principal = x.principal := by
  induction actions generalizing r x with
  | nil => exact ⟨x, hx, rfl⟩
  | cons a actions ih =>
      obtain ⟨x', hx', hprincipal⟩ := h.principal_step hx a
      rw [← hprincipal]
      exact ih (h.step a) hx'

/-! ## Sessions that are nobody's -/

theorem Reachable.owned {account : AccountSettings} (henabled : account.enabled) {capacity : Nat}
    {r : Relay} (h : Reachable account capacity r) : r.Owned := by
  induction h with
  | empty => exact owned_empty henabled capacity
  | step a h ih => exact ih.step a

/-- A session without any part in a room: it is a member of none, nothing waits for it, and
whatever it calls for is refused and leaves the relay as it is. -/
structure Excluded (r : Relay) (id : SessionId) : Prop where
  member : ∀ key, r.groups.isMember key id = false
  waiting : r.waiting id = []
  call : ∀ now request, r.perform now id request = (.error (strandedRefusal request), r)

section
variable {r : Relay} {id : SessionId} {x : Session}

/-- No call of a session that is nobody's is about any room. -/
theorem Owned.target?_of_anonymous (h : r.Owned) (hx : r.sessions.get? id = some x)
    (hp : x.principal = none) (request : Request) : target? r.account x request = none := by
  cases ht : target? r.account x request with
  | none => rfl
  | some b =>
      obtain ⟨p, hsome, -⟩ := h.target hx ht
      rw [hp] at hsome
      contradiction

theorem Owned.roomOf?_of_anonymous (h : r.Owned) (hid : r.subjectOf? id = none) :
    r.roomOf? id = none := by
  cases hroom : r.roomOf? id with
  | none => rfl
  | some key =>
      obtain ⟨subject, roomId, hsubject, -⟩ := h.key_of_roomOf? hroom
      rw [hid] at hsubject
      contradiction

theorem Sound.subjectOf?_of_step (h : r.Sound) {a : Action}
    (hid : (r.step a).2.subjectOf? id = none) : r.subjectOf? id = none := by
  cases hx : r.sessions.get? id with
  | none => simp [subjectOf?, hx]
  | some x =>
      obtain ⟨x', hx', hprincipal⟩ := h.principal_step hx a
      simpa [subjectOf?, hx, hx', hprincipal] using hid

/-- A call is not heard by a session that is nobody's. -/
theorem Owned.waiting_perform_of_anonymous (h : r.Owned) (hid : r.subjectOf? id = none)
    (now : Timestamp) (id' : SessionId) (request : Request) :
    (r.perform now id' request).2.waiting id = r.waiting id := by
  cases hx : r.sessions.get? id' with
  | none => rw [perform_of_absent hx]
  | some x =>
      cases ht : target? r.account x request with
      | none => rw [perform_of_target?_none hx ht]
      | some b =>
          -- The caller acts for somebody, so it is another session.
          obtain ⟨p, hp, -⟩ := h.target hx ht
          have hi : id' ≠ id := fun hi => by
            rw [← hi, subjectOf?_of_session hx hp] at hid
            contradiction
          have houtside : r.roomOf? id ≠ some b.key := by simp [h.roomOf?_of_anonymous hid]
          rw [waiting, waiting, h.queueOf_perform_of_outside hx ht now hi houtside]

theorem Sound.waiting_touch_of_nil (h : r.Sound) (hnil : r.waiting id = []) (id' : SessionId)
    {f : Queue → Queue} (hf : ∀ q, q.frames = [] → (f q).frames = []) :
    (r.touch id' f).waiting id = [] := by
  rw [h.waiting_touch]
  by_cases hi : id' = id
  · rw [if_pos hi]
    rw [waiting] at hnil
    cases hq : r.queueOf id with
    | none => rfl
    | some q =>
        have hframes : q.frames = [] := by simpa [hq] using hnil
        simp [hf q hframes]
  · rw [if_neg hi, hnil]

/-- Nothing comes to wait for sessions that are nobody's. -/
theorem Owned.waiting_step (h : r.Owned)
    (hwaiting : ∀ id, r.subjectOf? id = none → r.waiting id = []) (a : Action) (id : SessionId)
    (hid : (r.step a).2.subjectOf? id = none) : (r.step a).2.waiting id = [] := by
  have hbefore := h.subjectOf?_of_step hid
  have hnil := hwaiting id hbefore
  cases a with
  | connect principal capacity => exact (h.waiting_connect principal capacity id).trans hnil
  | call now id' request =>
      exact (h.waiting_perform_of_anonymous hbefore now id' request).trans hnil
  | read id' count =>
      exact h.waiting_touch_of_nil hnil id' fun q hq => by simp [Queue.dropFront, hq]
  | dropQueue id' => exact h.waiting_touch_of_nil hnil id' fun q _ => rfl
  | disconnect id' => exact (waiting_disconnect r id' id).trans hnil
  | ask now provider request => exact hnil

end

theorem Reachable.waiting_of_anonymous {account : AccountSettings} (henabled : account.enabled)
    {capacity : Nat} {r : Relay} (h : Reachable account capacity r) (id : SessionId)
    (hid : r.subjectOf? id = none) : r.waiting id = [] := by
  induction h generalizing id with
  | empty => rfl
  | step a h ih => exact (h.owned henabled).waiting_step ih a id hid

theorem Reachable.excluded {account : AccountSettings} (henabled : account.enabled)
    {capacity : Nat} {r : Relay} (h : Reachable account capacity r) {id : SessionId} {x : Session}
    (hx : r.sessions.get? id = some x) (hp : x.principal = none) : r.Excluded id := by
  have howned := h.owned henabled
  have hid : r.subjectOf? id = none := by simp [subjectOf?, hx, hp]
  refine ⟨fun key => ?_, h.waiting_of_anonymous henabled id hid, fun now request => ?_⟩
  · have hroom := howned.roomOf?_of_anonymous hid
    have hmember := howned.isMember_iff key id
    simpa [hroom] using hmember
  · exact perform_of_target?_none hx (howned.target?_of_anonymous hx hp request) now

/-- **No access without a token**: the token in a percent-encoded query is the value of its
one pair of that name.  In account mode, the upgrade of a proper request makes a session of the
subject whom the first token that is offered proves, an anonymous session if none is offered,
and else is refused with status 401, unless the token is endless: then the request is dropped.
In every run a session stays whose it was, is bound to rooms of its own subject only, and if
it is anonymous it never has a part in any room. -/
theorem no_access_without_token {account : AccountSettings} (henabled : account.enabled) :
    (∀ (request : Http.Request) pairs, request.Carries pairs →
      (∀ token, Http.queryToken request.query = .ok (some token) ↔
        (pairs.filter fun p => p.1 = "access_token") = [("access_token", token)]) ∧
      (Http.queryToken request.query = .ok none ↔ ∀ p ∈ pairs, p.1 ≠ "access_token")) ∧
    (∀ now request inQuery, Http.queryToken request.query = .ok inQuery →
      Http.handshakeFault? request = none → Http.Decided account now inQuery request) ∧
    ∀ capacity r, Reachable account capacity r →
      (∀ principal queueCapacity actions, ∃ x,
        ((r.connect principal queueCapacity).2.run actions).sessions.get?
          (r.connect principal queueCapacity).1 = some x ∧ x.principal = principal) ∧
      ∀ id x, r.sessions.get? id = some x →
        (∀ b, x.binding = some b →
          ∃ p, x.principal = some p ∧ b.key.text = p.subject ++ "|" ++ b.roomId) ∧
        (x.principal = none → r.Excluded id) := by
  refine ⟨fun request pairs hcarries => ?_, fun now request inQuery hquery hhandshake =>
    Http.decided henabled now hquery hhandshake, fun capacity r h => ⟨?_, fun id x hx => ⟨?_, ?_⟩⟩⟩
  · rw [hcarries.query_eq]
    exact ⟨fun token => Http.queryToken_eq_some_iff, Http.queryToken_eq_none_iff⟩
  · intro principal queueCapacity actions
    have hconnected := h.sound.connect principal queueCapacity
    exact hconnected.principal_run (Table.get?_insert_self _ _ _) actions
  · intro b hb
    obtain ⟨p, hp, hkey⟩ := (h.owned henabled).owner id x b hx hb
    exact ⟨p, hp, by rw [hkey]; rfl⟩
  · exact fun hp => h.excluded henabled hx hp

/-! ## Requests for sessions -/

/-- The headers that ask for a WebSocket. -/
def handshake : List (String × String) :=
  [("Connection", "Upgrade"), ("Upgrade", "websocket"), ("Sec-WebSocket-Version", "13"),
    ("Sec-WebSocket-Key", "AQIDBAUGBwgJCgsMDQ4PEA==")]

/-- A request for a session, with pairs in the query and further headers. -/
def hubRequest (pairs headers : List (String × String)) : Http.Request where
  method := "GET"
  target := Http.socketPath ++ "?" ++ Http.writeQuery pairs
  headers := handshake ++ headers
  canUpgrade := true

theorem carries_hubRequest (pairs headers : List (String × String)) :
    (hubRequest pairs headers).Carries pairs := by
  have hpath : ∀ c ∈ Http.socketPath.toList, c ≠ '?' ∧ c ≠ '#' := by simp [Http.socketPath]
  exact ⟨Http.socketPath, hpath, .inl rfl⟩

/-- Headers of the handshake are the first of their names. -/
theorem header?_hubRequest (pairs headers : List (String × String)) (name value : String)
    (h : (handshake.find? fun h => h.1.toLower == name).map (·.2) = some value) :
    (hubRequest pairs headers).header? name = some value := by
  obtain ⟨found, hfound, rfl⟩ := Option.map_eq_some_iff.mp h
  simp only [Http.Request.header?, hubRequest, List.find?_append, hfound, Option.some_or,
    Option.map_some]

theorem handshakeFault?_hubRequest (pairs headers : List (String × String)) :
    Http.handshakeFault? (hubRequest pairs headers) = none := by
  have hfirst := header?_hubRequest pairs headers
  have hconnection := hfirst "connection" "Upgrade" (by decide +kernel)
  have hupgrade := hfirst "upgrade" "websocket" (by decide +kernel)
  have hversion := hfirst "sec-websocket-version" "13" (by decide +kernel)
  have hkey := hfirst "sec-websocket-key" "AQIDBAUGBwgJCgsMDQ4PEA==" (by decide +kernel)
  have htext : (hubRequest pairs headers).textHeader? "connection" = some "Upgrade" := by
    rw [Http.Request.textHeader?, hconnection]
    decide +kernel
  have hasks : Http.contains "upgrade".toList "Upgrade".toLower.toList = true := by decide +kernel
  have hlower : "websocket".toLower = "websocket" := by decide +kernel
  simp only [Http.handshakeFault?, htext, hupgrade, hversion, hkey, Option.map_some,
    Option.getD_some, hasks, hlower]
  rfl

theorem textHeader?_hubRequest (i : Issuer) (claims : Claims) (pairs : List (String × String)) :
    (hubRequest pairs [("Authorization", "Bearer " ++ i.written claims)]).textHeader?
      "authorization" = some ("Bearer " ++ i.written claims) := by
  have hname : ("Authorization".toLower == "authorization") = true := by decide +kernel
  have hother : (handshake.find? fun h => h.1.toLower == "authorization") = none := by
    decide +kernel
  apply Http.textHeader?_written
  simp only [Http.Request.header?, hubRequest, List.find?_append, hother, Option.none_or,
    List.find?_cons, hname, Option.map_some]

/-- Without a token a session comes to nothing.  The token of the query decides, and a bad one
is refused whatever the header says; without it the token of the header decides. -/
theorem no_access_without_token_hasty :
    let i := Issuer.ofSettings Issuer.hastyRelay
    let token := i.written (Issuer.userClaims 1700000300)
    let upgrade (pairs headers : List (String × String)) :=
      Http.upgrade Issuer.hastyRelay 1700000000000 (hubRequest pairs headers)
    upgrade [] [] = .ok none ∧
      upgrade [] [("Authorization", "Bearer " ++ token)] = .ok (some ⟨"user-1", none⟩) ∧
      upgrade [("via", "café?&="), ("access_token", token)] [] = .ok (some ⟨"user-1", none⟩) ∧
      (∃ a, upgrade [("access_token", "x y")] [("Authorization", "Bearer " ++ token)] =
        .error (some a) ∧ a.status = 401) ∧
      ((empty Issuer.hastyRelay 10).step (.connect none 8)).2.Excluded 0 := by
  intro i token upgrade
  obtain ⟨hquery, hdecided, hrun⟩ :=
    no_access_without_token (show Issuer.hastyRelay.enabled from rfl)
  have hunnamed (headers : List (String × String)) :
      Http.queryToken (hubRequest [] headers).query = .ok none :=
    (hquery _ [] (carries_hubRequest [] headers)).2.mpr nofun
  have hnamed {pairs headers : List (String × String)} {value : String}
      (h : (pairs.filter fun p => p.1 = "access_token") = [("access_token", value)]) :
      Http.queryToken (hubRequest pairs headers).query = .ok (some value) :=
    ((hquery _ pairs (carries_hubRequest pairs headers)).1 value).mpr h
  have hdecides {pairs headers : List (String × String)} {inQuery : Option String}
      (h : Http.queryToken (hubRequest pairs headers).query = .ok inQuery) :=
    hdecided 1700000000000 _ inQuery h (handshakeFault?_hubRequest pairs headers)
  have hsigning : i.signingKey ≠ [] := Issuer.signingKey_ne_nil (by decide)
  obtain ⟨h, c, s, hgenuine⟩ :=
    Issuer.exists_genuine_written hsigning (Issuer.userClaims 1700000300)
  have hvalid : i.validate 1700000000000 token = .ok ⟨"user-1", none⟩ :=
    (Issuer.validate_written_eq_ok_iff hsigning (by decide)).mpr
      ⟨⟨rfl, rfl, by decide, by decide, by decide⟩, rfl⟩
  refine ⟨?_, ?_, ?_, ?_, ?_⟩
  · have hnone : (hubRequest [] []).textHeader? "authorization" = none := by decide +kernel
    refine (hdecides (hunnamed [])).anonymous.mpr fun other hoffers => ?_
    cases hoffers with
    | query h => cases h
    | header _ h =>
        rw [hnone] at h
        cases h
  · exact ((hdecides (hunnamed _)).accepted _).mpr
      ⟨token, .header nofun (textHeader?_hubRequest ..) hgenuine.not_isBlank, hvalid⟩
  · have hone : ([("via", "café?&="), ("access_token", token)].filter
        fun p => p.1 = "access_token") = [("access_token", token)] := by simp
    exact ((hdecides (hnamed hone)).accepted _).mpr
      ⟨token, .query rfl hgenuine.not_isBlank, hvalid⟩
  · have hone : ([("access_token", "x y")].filter fun p => p.1 = "access_token") =
        [("access_token", "x y")] := by simp
    have hbad : i.validate 1700000000000 "x y" = .error .malformedToken := rfl
    exact ⟨_, ((hdecides (hnamed hone)).refused _).mpr
      ⟨"x y", .malformedToken, .query rfl (by decide), hbad, rfl⟩, rfl⟩
  · exact ((hrun 10 _ (Reachable.empty.step (.connect none 8))).2 0 ⟨none, 0, none, false⟩ rfl).2
      rfl

/-- A request with an endless token is dropped, also one that does not count yet. -/
theorem upgrade_endless_dropped :
    let i := Issuer.ofSettings Issuer.hastyRelay
    let claims := { Issuer.userClaims 9223372036854775807 with notBefore := 4000000000 }
    let token := i.written claims
    let request := hubRequest [] [("Authorization", "Bearer " ++ token)]
    Http.handshakeFault? request = none ∧ Http.queryToken request.query = .ok none ∧
      Http.Offers none request token ∧
      Issuer.verdict 1700000000000 claims = .error .notYetValid ∧
      Http.upgrade Issuer.hastyRelay 1700000000000 request = .error none := by
  intro i claims token request
  have hhandshake := handshakeFault?_hubRequest [] [("Authorization", "Bearer " ++ token)]
  have hquery : Http.queryToken request.query = .ok none := by
    rw [(carries_hubRequest [] _).query_eq]
    exact Http.queryToken_eq_none_iff.mpr nofun
  have hsigning : i.signingKey ≠ [] := Issuer.signingKey_ne_nil (by decide)
  have hendless : i.Endless token := Issuer.endless_written hsigning rfl rfl (by decide)
  obtain ⟨h, c, s, hgenuine⟩ := Issuer.exists_genuine_written hsigning claims
  have hoffers : Http.Offers none request token :=
    .header nofun (textHeader?_hubRequest ..) hgenuine.not_isBlank
  exact ⟨hhandshake, hquery, hoffers, by decide,
    (Http.decided rfl 1700000000000 hquery hhandshake).dropped.mpr ⟨token, hoffers, hendless⟩⟩

end Relay

end ClipRelay
