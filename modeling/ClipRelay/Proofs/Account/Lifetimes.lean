import ClipRelay.Proofs.Account.Tokens

/-!
# ClipRelay.Proofs.Account.Lifetimes

What the lifetime of a token decides, for all numbers that its claims can hold.

Times are compared in 64 bits, after a minute of grace has been added to one side.
`Issuer.verdict` is the same decision over the integers.  The grace can always be added to the
time of the calendar, but not to every expiry: a genuine token gets its verdict just if the
minute still fits behind its expiry (`validate_eq_verdict_iff`).  At one that expires later,
and so practically never, the relay breaks off instead of accepting it.
-/

namespace ClipRelay.Issuer

variable {i : Issuer} {now : Timestamp} {token h c s : String} {claims : Claims}

/-- Claims that an issuer made for its own audience about a subject. -/
structure Owns (i : Issuer) (claims : Claims) : Prop where
  issuer : claims.issuer = i.issuer
  audience : claims.audience = i.audience
  subject : Text.isBlank claims.subject = false

/-- What the lifetime of claims decides at a time, over the integers. -/
def verdict (now : Timestamp) (claims : Claims) : Validation :=
  if claims.expires.toInt + 60 < now.toInt / 1000 then .error .expired
  else if now.toInt / 1000 + 60 < claims.notBefore.toInt then .error .notYetValid
  else .ok ⟨claims.subject, claims.email⟩

theorem verdict_ne_brokenOff (now : Timestamp) (claims : Claims) :
    verdict now claims ≠ .brokenOff := by
  unfold verdict
  split
  · nofun
  split
  · nofun
  · nofun

/-- The grace is added just where there is room for it. -/
theorem isSome_sum?_clockSkew_iff {a : Int64} :
    (sum? a clockSkew).isSome ↔ a.toInt + 60 ≤ endOfTime := by
  constructor
  · intro hsome
    refine Int.not_lt.mp fun hroom => ?_
    rw [sum?_clockSkew_eq_none hroom] at hsome
    contradiction
  · intro hroom
    obtain ⟨b, hb, -⟩ := exists_sum?_clockSkew hroom
    rw [hb, Option.isSome_some]

/-- Of claims that are the issuer's, just the lifetime is left to decide. -/
theorem Owns.checkClaims_eq_verdict (howns : i.Owns claims)
    (hroom : claims.expires.toInt + 60 ≤ endOfTime) :
    i.checkClaims now claims = verdict now claims := by
  rw [checkClaims_eq, if_neg (not_not_intro howns.issuer), if_neg (not_not_intro howns.audience),
    if_neg (Int.not_lt.mpr hroom), verdict]
  simp only [howns.subject, Bool.false_eq_true, if_false]

/-- **Lifetimes**: the grace can always be added to the time, and to the expiry of a token just
if the sum stays in the 64-bit range.  A genuine token with the issuer's claims gets the verdict
over its lifetime just if that is so: it is refused as expired if its expiry is more than a
minute ago, else refused as not yet valid if its start is more than a minute ahead, and else
accepted.  If the sum leaves the range, the relay breaks off. -/
theorem validate_eq_verdict_iff (now : Timestamp) (g : Genuine i token h c s claims)
    (howns : i.Owns claims) :
    (sum? (seconds now) clockSkew).isSome ∧
    ((sum? claims.expires clockSkew).isSome ↔ claims.expires.toInt + 60 ≤ endOfTime) ∧
    (i.validate now token = verdict now claims ↔ claims.expires.toInt + 60 ≤ endOfTime) ∧
    (endOfTime < claims.expires.toInt + 60 → i.validate now token = .brokenOff) := by
  rw [g.validate_eq]
  have hbroken (hroom : endOfTime < claims.expires.toInt + 60) :
      i.checkClaims now claims = .brokenOff :=
    checkClaims_eq_brokenOff_iff.mpr ⟨howns.issuer, howns.audience, hroom⟩
  refine ⟨?_, isSome_sum?_clockSkew_iff, ⟨?_, howns.checkClaims_eq_verdict⟩, hbroken⟩
  · obtain ⟨b, hb, -⟩ := exists_sum?_seconds now
    rw [hb, Option.isSome_some]
  · intro hverdict
    refine Int.not_lt.mp fun hroom => ?_
    exact verdict_ne_brokenOff now claims (hverdict.symm.trans (hbroken hroom))

/-- Claims of a relay about a user, which end at some second. -/
def userClaims (expires : Int64) : Claims :=
  ⟨"user-1", none, "ClipboardSync", "ClipboardSync", 1700000000, 1700000000, expires⟩

theorem owns_userClaims (expires : Int64) : (ofSettings hastyRelay).Owns (userClaims expires) :=
  ⟨rfl, rfl, (by decide : Text.isBlank "user-1" = false)⟩

/-- The latest expiry behind which there is room for the grace. -/
theorem validate_eq_verdict_of_latest :
    let claims := userClaims 9223372036854775747
    ∃ h c s, Genuine (ofSettings hastyRelay) ((ofSettings hastyRelay).written claims) h c s claims ∧
      (ofSettings hastyRelay).Owns claims ∧
      (ofSettings hastyRelay).validate 1700000000000 ((ofSettings hastyRelay).written claims) =
        .ok ⟨"user-1", none⟩ := by
  intro claims
  obtain ⟨h, c, s, g⟩ := exists_genuine_written (signingKey_ne_nil (c := hastyRelay) (by decide))
    claims
  have howns : (ofSettings hastyRelay).Owns claims := owns_userClaims _
  obtain ⟨-, -, hverdict, -⟩ := validate_eq_verdict_iff 1700000000000 g howns
  have hroom : claims.expires.toInt + 60 ≤ endOfTime := by decide
  refine ⟨h, c, s, g, howns, ?_⟩
  rw [hverdict.mpr hroom, verdict, if_neg (by decide), if_neg (by decide)]
  rfl

/-- At a token that ends with the last second of 64 bits the relay breaks off, though it has not
expired and counts already. -/
theorem everlasting_breaks_off :
    let claims := userClaims 9223372036854775807
    let token := (ofSettings hastyRelay).written claims
    (∃ h c s, Genuine (ofSettings hastyRelay) token h c s claims) ∧
      (ofSettings hastyRelay).Owns claims ∧
      verdict 1700000000000 claims = .ok ⟨"user-1", none⟩ ∧
      sum? claims.expires clockSkew = none ∧
      (ofSettings hastyRelay).validate 1700000000000 token = .brokenOff := by
  intro claims token
  obtain ⟨h, c, s, g⟩ := exists_genuine_written (signingKey_ne_nil (c := hastyRelay) (by decide))
    claims
  have howns : (ofSettings hastyRelay).Owns claims := owns_userClaims _
  refine ⟨⟨h, c, s, g⟩, howns, by decide, by decide, ?_⟩
  rw [g.validate_eq, checkClaims_eq_brokenOff_iff]
  exact ⟨howns.issuer, howns.audience, by decide⟩

end ClipRelay.Issuer
