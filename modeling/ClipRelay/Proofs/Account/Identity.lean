import ClipRelay.Account.Provider
import ClipRelay.Proofs.Account.Tokens
import ClipRelay.Proofs.Json.Lists

/-!
# ClipRelay.Proofs.Account.Identity

Whom the relay takes on the word of an identity provider.

The tokens of a caller call for one lookup at most (`Provider.Asks`), and what the provider
knows must vouch for a principal (`Provider.Vouches`).  Both are said without the order in which
the relay checks things; `request_eq_ok_iff` and `check_eq_ok_iff` tie them to its decisions, and
`judge_eq_ok_iff` adds what an answer must be to count at all.  That the relay asks no more than
this is seen with a provider that notes what it is asked (`Provider.noting`).
-/

namespace ClipRelay

open Json

/-! ## What a provider can tell -/

namespace TokenFacts

/-- A member of an answer: a text, null, or left out. -/
def member (name : String) (value : Option (Option String)) : List (String × Json) :=
  (value.map fun v => (name, Json.ofOption v)).toList

/-- An answer that tells some of the facts. -/
def Draft.toJson (d : Draft) : Json :=
  .object <| member "aud" d.audience ++ member "azp" d.authorizedParty ++ member "iss" d.issuer ++
    member "sub" d.subject ++ member "user_id" d.userId ++ member "email" d.email

theorem fills_member {l : Layout} {members : List (Reader.Member Draft)} {name : String}
    {get : Draft → Option (Option String)} {set : Draft → Option String → Draft} {s t : Draft}
    {value : Option (Option String)}
    (hfind : members.find? (·.name == name) = some (.named name get set text?))
    (hunread : get s = none) (hafter : t = value.elim s (set s)) :
    Fills l members (member name value) s t := by
  subst hafter
  cases value with
  | none => exact .nil s
  | some v =>
      have hfirst : (Reader.Member.named name get set text?).isRead s = false := by
        simp [Reader.Member.named, hunread]
      exact .cons hfind hfirst ((reads_ofOption v).named name get set s) (.nil _)

/-- What an answer tells is read; what it leaves out is not known. -/
theorem reads {l : Layout} (hl : Spaced l) (d : Draft) :
    Reads l reader d.toJson ⟨d.audience.join, d.authorizedParty.join, d.issuer.join,
      d.subject.join, d.userId.join, d.email.join⟩ := by
  obtain ⟨audience, authorizedParty, issuer, subject, userId, email⟩ := d
  -- The draft after each of the members.
  refine Reads.record hl (s := ⟨audience, authorizedParty, issuer, subject, userId, email⟩)
    (.append (t := { audience, authorizedParty, issuer, subject, userId })
      (.append (t := { audience, authorizedParty, issuer, subject })
        (.append (t := { audience, authorizedParty, issuer })
          (.append (t := { audience, authorizedParty })
            (.append (t := { audience }) ?aud ?azp) ?iss) ?sub) ?userId) ?email) rfl
  case aud => exact fills_member rfl rfl (by cases audience <;> rfl)
  case azp => exact fills_member rfl rfl (by cases authorizedParty <;> rfl)
  case iss => exact fills_member rfl rfl (by cases issuer <;> rfl)
  case sub => exact fills_member rfl rfl (by cases subject <;> rfl)
  case userId => exact fills_member rfl rfl (by cases userId <;> rfl)
  case email => exact fills_member rfl rfl (by cases email <;> rfl)

end TokenFacts

namespace Provider

variable {clientIds : List String} {idToken accessToken : Option String} {lookup : Lookup}
  {kind : ProviderToken} {info : TokenFacts} {p : Principal} {e : CredentialError}

/-! ## The lookup -/

/-- The lookup that the tokens of a caller call for: of the identity token if it is not blank,
and of the access token only where there is no such identity token. -/
inductive Asks (idToken accessToken : Option String) : Lookup → Prop where
  | id {token : String} : idToken = some token → Text.isBlank token = false →
      Asks idToken accessToken ⟨.id, Text.trim token⟩
  | access {token : String} : (∀ t, idToken = some t → Text.isBlank t) →
      accessToken = some token → Text.isBlank token = false →
      Asks idToken accessToken ⟨.access, Text.trim token⟩

theorem request_eq_ok_iff : request clientIds idToken accessToken = .ok lookup ↔
    clientIds ≠ [] ∧ Asks idToken accessToken lookup := by
  have hclients : clientIds.isEmpty ↔ clientIds = [] := List.isEmpty_iff
  rw [request, ite_error_eq_ok_iff, hclients, and_congr_right_iff]
  intro _
  constructor
  · intro h
    split at h
    · next t ht =>
      obtain ⟨hid, hblank⟩ := Text.nonBlank?_eq_some_iff.mp ht
      exact Except.ok.inj h ▸ .id hid hblank
    · next t hnone ht =>
      obtain ⟨haccess, hblank⟩ := Text.nonBlank?_eq_some_iff.mp ht
      exact Except.ok.inj h ▸ .access (Text.nonBlank?_eq_none_iff.mp hnone) haccess hblank
    · cases h
  · rintro (⟨hid, hblank⟩ | ⟨hnone, haccess, hblank⟩)
    · rw [Text.nonBlank?_eq_some_iff.mpr ⟨hid, hblank⟩]
    · rw [Text.nonBlank?_eq_none_iff.mpr hnone, Text.nonBlank?_eq_some_iff.mpr ⟨haccess, hblank⟩]

/-- Without clients the fault is the operator's, and else the caller's. -/
theorem kind_of_request (h : request clientIds idToken accessToken = .error e) :
    e.kind = if clientIds = [] then .configuration else .invalidCredential := by
  unfold request at h
  split at h
  · next hempty =>
    rw [if_pos (List.isEmpty_iff.mp hempty), ← Except.error.inj h]
    rfl
  · next hclients =>
    rw [if_neg (mt List.isEmpty_iff.mpr hclients)]
    split at h <;> cases h
    rfl

/-! ## The answer -/

/-- What the provider knows about a token vouches for a principal.  A name that is missing is
looked for in its second place; one that is there and empty is not. -/
structure Vouches (clientIds : List String) (kind : ProviderToken) (info : TokenFacts)
    (p : Principal) : Prop where
  audience : ∃ a ∈ clientIds, a ≠ "" ∧
    (info.audience = some a ∨ info.audience = none ∧ info.authorizedParty = some a)
  issuer : kind = .id → info.issuer = some "accounts.google.com" ∨
    info.issuer = some "https://accounts.google.com"
  subject : ∃ s, (info.subject = some s ∨ info.subject = none ∧ info.userId = some s) ∧
    p.subject = Text.trim s ∧ p.subject ≠ ""
  email : ∀ address, p.email = some address ↔
    info.email = some address ∧ Text.isBlank address = false

/-- What stands in the first of two places, or else in the second. -/
theorem getD_or_eq_iff {first second : Option String} {s : String} (h : s ≠ "") :
    (first.or second).getD "" = s ↔ first = some s ∨ first = none ∧ second = some s := by
  cases first <;> cases second <;> simp [h.symm]

theorem issuer_iff {issuer : Option String} : issuer.getD "" ∈ issuers ↔
    issuer = some "accounts.google.com" ∨ issuer = some "https://accounts.google.com" := by
  cases issuer <;> simp [issuers]

theorem check_eq_ok_iff : check clientIds kind info = .ok p ↔ Vouches clientIds kind info p := by
  simp only [check, ite_error_eq_ok_iff, Except.ok.injEq, not_or, Decidable.not_not,
    Decidable.not_and_not_right]
  simp only [issuer_iff]
  constructor
  · rintro ⟨⟨hne, hmem⟩, hissuer, hsubject, rfl⟩
    have hthere : (info.subject.or info.userId).getD "" ≠ "" := fun hnone =>
      hsubject (by rw [hnone]; rfl)
    exact {
      audience := ⟨_, hmem, hne, (getD_or_eq_iff hne).mp rfl⟩
      issuer := hissuer
      subject := ⟨_, (getD_or_eq_iff hthere).mp rfl, rfl, hsubject⟩
      email := fun _ => Text.nonBlank?_eq_some_iff }
  · rintro ⟨⟨a, hmem, hne, ha⟩, hissuer, ⟨s, hs, htrim, hsubject⟩, hemail⟩
    have hthere : s ≠ "" := by
      rintro rfl
      exact hsubject htrim
    have hmail : Text.nonBlank? info.email = p.email :=
      Option.ext fun address => Text.nonBlank?_eq_some_iff.trans (hemail address).symm
    rw [(getD_or_eq_iff hne).mpr ha, (getD_or_eq_iff hthere).mpr hs, ← htrim, hmail]
    exact ⟨⟨hne, hmem⟩, hissuer, hsubject, rfl⟩

/-- An empty audience is an audience: the other name is not looked at. -/
example : check ["client"] .access ⟨some "", some "client", none, some "caller", none, none⟩ =
    .error .audienceNotAllowed := rfl

/-- The fault of facts that do not vouch is the caller's. -/
theorem kind_of_check (h : check clientIds kind info = .error e) :
    e.kind = .invalidCredential := by
  simp only [check] at h
  split at h
  · cases h; rfl
  split at h
  · cases h; rfl
  split at h
  · cases h; rfl
  · cases h

theorem judge_eq_ok_iff {reply : Http.Reply} : judge clientIds kind reply = .ok p ↔
    ∃ status body info, reply = .answered status body ∧ 200 ≤ status ∧ status < 300 ∧
      TokenFacts.reader.whole body = .ok info ∧ Vouches clientIds kind info p := by
  have hstatus : ∀ {status}, Http.isSuccess status ↔ 200 ≤ status ∧ status < 300 := by
    simp [Http.isSuccess]
  constructor
  · intro h
    cases reply with
    | unreachable => cases h
    | answered status body =>
      simp only [judge] at h
      split at h
      · next hsuccess =>
        obtain ⟨hlow, hhigh⟩ := hstatus.mp hsuccess
        split at h
        · next info hread =>
          exact ⟨status, body, info, rfl, hlow, hhigh, hread, check_eq_ok_iff.mp h⟩
        · cases h
      · cases h
  · rintro ⟨status, body, info, rfl, hlow, hhigh, hread, hvouches⟩
    rw [judge, if_pos (hstatus.mpr ⟨hlow, hhigh⟩), hread]
    exact check_eq_ok_iff.mpr hvouches

theorem kind_of_judge {reply : Http.Reply} (h : judge clientIds kind reply = .error e) :
    e.kind = .invalidCredential := by
  cases reply with
  | unreachable => cases h; rfl
  | answered status body =>
    simp only [judge] at h
    split at h
    · split at h
      · exact kind_of_check h
      · cases h; rfl
    · cases h; rfl

/-! ## A caller -/

/-- A provider that notes what it is asked. -/
def noting (provider : Lookup → Http.Reply) (lookup : Lookup) :
    StateM (List Lookup) Http.Reply := do
  modify (· ++ [lookup])
  return provider lookup

section
variable {provider : Lookup → Http.Reply}

theorem validate_eq : validate clientIds provider idToken accessToken =
    request clientIds idToken accessToken >>= fun lookup =>
      judge clientIds lookup.kind (provider lookup) := by
  unfold validate validateIn
  cases request clientIds idToken accessToken <;> rfl

theorem run_validateIn_noting :
    (validateIn clientIds (noting provider) idToken accessToken).run [] =
      (validate clientIds provider idToken accessToken,
        (request clientIds idToken accessToken).toOption.toList) := by
  rw [validate_eq, validateIn]
  cases request clientIds idToken accessToken <;> rfl

theorem mem_toList_request : lookup ∈ (request clientIds idToken accessToken).toOption.toList ↔
    clientIds ≠ [] ∧ Asks idToken accessToken lookup := by
  rw [← request_eq_ok_iff]
  cases request clientIds idToken accessToken <;> simp [Except.toOption, eq_comm]

theorem kind_of_validate (h : validate clientIds provider idToken accessToken = .error e) :
    e.kind = if clientIds = [] then .configuration else .invalidCredential := by
  rw [validate_eq] at h
  cases hrequest : request clientIds idToken accessToken with
  | error f =>
    rw [hrequest] at h
    exact Except.error.inj h ▸ kind_of_request hrequest
  | ok lookup =>
    rw [hrequest] at h
    rw [if_neg (request_eq_ok_iff.mp hrequest).1]
    exact kind_of_judge h

theorem validate_eq_ok_iff_judge : validate clientIds provider idToken accessToken = .ok p ↔
    clientIds ≠ [] ∧ ∃ lookup, Asks idToken accessToken lookup ∧
      judge clientIds lookup.kind (provider lookup) = .ok p := by
  simp only [validate_eq, bind_eq_ok, request_eq_ok_iff, and_assoc, exists_and_left]

end

/-- A caller is taken for those whom the answer to the one lookup vouches for, and for no one
else; nothing else is ever looked up.  The facts are those that the JSON of the answer tells,
however it is laid out; a member that is null or left out is not known. -/
theorem accepted_iff (clientIds : List String) (provider : Lookup → Http.Reply)
    (idToken accessToken : Option String) :
    (∀ p, validate clientIds provider idToken accessToken = .ok p ↔
      clientIds ≠ [] ∧ ∃ lookup status body info, Asks idToken accessToken lookup ∧
        provider lookup = .answered status body ∧ 200 ≤ status ∧ status < 300 ∧
        TokenFacts.reader.whole body = .ok info ∧ Vouches clientIds lookup.kind info p) ∧
    (∀ l, Spaced l → ∀ d : TokenFacts.Draft,
      TokenFacts.reader.whole (Json.write l 0 d.toJson) = .ok ⟨d.audience.join,
        d.authorizedParty.join, d.issuer.join, d.subject.join, d.userId.join, d.email.join⟩) ∧
    (∀ e, validate clientIds provider idToken accessToken = .error e →
      e.kind = if clientIds = [] then .configuration else .invalidCredential) ∧
    ∃ made, (validateIn clientIds (noting provider) idToken accessToken).run [] =
        (validate clientIds provider idToken accessToken, made) ∧
      made.length ≤ 1 ∧
      ∀ lookup, lookup ∈ made ↔ clientIds ≠ [] ∧ Asks idToken accessToken lookup := by
  refine ⟨fun p => ?_, fun l hl d => (TokenFacts.reads hl d).whole, fun e => kind_of_validate, _,
    run_validateIn_noting, ?_, fun lookup => mem_toList_request⟩
  · simp only [validate_eq_ok_iff_judge, judge_eq_ok_iff, exists_and_left]
  · cases request clientIds idToken accessToken <;> simp [Except.toOption]

end Provider

end ClipRelay
