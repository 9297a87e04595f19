import ClipRelay.Account.BearerToken
import ClipRelay.Proofs.Json.Records

/-!
# ClipRelay.Proofs.Account.Tokens

Which texts pass as bearer tokens, and for how long an issued one does.

A text that is accepted is `Genuine`: it can be cut at its points in one way
only, its header and claims are there to be read, and its third part is the one
spelling of the authentication code of the first two.  Whether a genuine token
is accepted at a time is then up to its claims (`Genuine.validate_eq`), and the
checks of those are comparisons of integers (`checkClaims_eq`), but for claims
whose expiry leaves no room for the minute of grace in 64 bits: the checks of
those break off.

All results follow from these two: what is accepted at all
(`validate_eq_ok_iff`), when a token is that the relay itself has issued
(`validate_issue`), and which texts the relay breaks off at
(`validate_eq_brokenOff_iff`).
-/

namespace ClipRelay

open Json

/-! ## Checks one after the other -/

section
variable {ε α β : Type}

theorem bind_eq_ok {x : Except ε α} {f : α → Except ε β} {b : β} :
    x >>= f = .ok b ↔ ∃ a, x = .ok a ∧ f a = .ok b := by
  cases x <;> simp [bind, Except.bind]

theorem throw_eq (e : ε) : (throw e : Except ε α) = .error e := rfl

theorem throw_bind (e : ε) (f : α → Except ε β) : throw e >>= f = .error e := rfl

/-- A check is passed where its own outcome is not the one that is looked for. -/
theorem ite_eq_iff_of_ne {q : Prop} [Decidable q] {x y a : α} (h : x ≠ a) :
    (if q then x else y) = a ↔ ¬q ∧ y = a := by
  split <;> simp_all

theorem ite_error_eq_ok_iff {q : Prop} [Decidable q] {e : ε} {x : Except ε α} {a : α} :
    (if q then .error e else x) = .ok a ↔ ¬q ∧ x = .ok a :=
  ite_eq_iff_of_ne nofun

end

/-! ## Header and claims -/

theorem TokenHeader.reads (h : TokenHeader) : Reads .compact TokenHeader.reader h.toJson h := by
  refine Reads.record spaced_compact (s := ⟨some h.algorithm, some h.type⟩) ?_ rfl
  refine .cons rfl rfl ((reads_string _).named _ _ _ _) ?_
  refine .cons rfl rfl ((reads_string _).named _ _ _ _) ?_
  exact .nil _

theorem Claims.reads (c : Claims) : Reads .compact Claims.reader c.toJson c := by
  have hemail : (c.email.map some).join = c.email := by cases c.email <;> rfl
  have hfinish : Draft.finish ⟨some c.subject, c.email.map some, some c.issuer, some c.audience,
      some c.notBefore, some c.issuedAt, some c.expires⟩ = some c := by
    simp [Draft.finish, hemail]
  refine Reads.record spaced_compact (.append (t := { subject := some c.subject
                                                      email := c.email.map some })
    (.append (t := { subject := some c.subject }) ?subject ?email) ?rest) hfinish
  case subject => exact .cons rfl rfl ((reads_string _).named _ _ _ _) (.nil _)
  case email =>
    cases c.email with
    | none => exact .nil _
    | some e => exact .cons rfl rfl ((reads_nullable_string _).named _ _ _ _) (.nil _)
  case rest =>
    refine .cons rfl rfl ((reads_string _).named _ _ _ _) ?_
    refine .cons rfl rfl ((reads_string _).named _ _ _ _) ?_
    refine .cons rfl rfl ((reads_int64 _).named _ _ _ _) ?_
    refine .cons rfl rfl ((reads_int64 _).named _ _ _ _) ?_
    refine .cons rfl rfl ((reads_int64 _).named _ _ _ _) ?_
    exact .nil _

namespace Issuer

variable {i : Issuer} {now : Timestamp} {token : String} {p : Principal}

/-! ## The parts of a token -/

/-- No piece of a split text holds a separator. -/
theorem not_separator_of_mem_piece {q : Char → Bool} {l piece : List Char}
    (h : piece ∈ l.splitOnP q) : ∀ c ∈ piece, q c = false := by
  induction l generalizing piece with
  | nil =>
      rw [List.splitOnP_nil, List.mem_singleton] at h
      simp [h]
  | cons c l ih =>
      rw [List.splitOnP_cons_eq_if_modifyHead] at h
      split at h
      · obtain rfl | h := List.mem_cons.mp h
        · simp
        · exact ih h
      · next hc =>
        obtain ⟨first, others, heq⟩ := List.exists_cons_of_ne_nil (List.splitOnP_ne_nil q l)
        rw [heq, List.modifyHead_cons, List.mem_cons] at h
        obtain rfl | h := h
        · have hfirst : ∀ d ∈ first, q d = false := ih (by simp [heq])
          simpa [hc] using hfirst
        · exact ih (by simp [heq, h])

/-- A token is split at its two points, and only there. -/
theorem split_eq_ok_iff {h c s : String} :
    split token = .ok (h, c, s) ↔
      Text.trim token = h ++ "." ++ c ++ "." ++ s ∧
        '.' ∉ h.toList ∧ '.' ∉ c.toList ∧ '.' ∉ s.toList := by
  constructor
  · intro hsplit
    simp only [split] at hsplit
    split at hsplit
    · next cs ds es heq =>
      obtain ⟨rfl, rfl, rfl⟩ : String.ofList cs = h ∧ String.ofList ds = c ∧
        String.ofList es = s := by simpa using hsplit
      have hjoin : ['.'].intercalate ((Text.trim token).toList.splitOn '.') =
        (Text.trim token).toList := List.intercalate_splitOn '.'
      rw [List.splitOn_eq_splitOnP, heq] at hjoin
      refine ⟨?_, ?_⟩
      · apply String.toList_injective
        simpa [List.intercalate] using hjoin.symm
      · have hno : ∀ piece ∈ [cs, ds, es], '.' ∉ piece := fun piece hpiece hdot => by
          have hpoint := not_separator_of_mem_piece (heq ▸ hpiece) '.' hdot
          cases hpoint
        simpa using hno
    · cases hsplit
  · rintro ⟨htrim, hh, hc, hs⟩
    have hno : ∀ {t : String}, '.' ∉ t.toList → ∀ x ∈ t.toList, (x == '.') = false :=
      fun h x hx => beq_eq_false_iff_ne.mpr fun hdot => h (hdot ▸ hx)
    have hpieces : (Text.trim token).toList.splitOnP (· == '.') =
        [h.toList, c.toList, s.toList] := by
      rw [htrim]
      simp only [String.toList_append, show ".".toList = ['.'] from rfl, List.append_assoc,
        List.cons_append, List.nil_append]
      rw [List.splitOnP_append_cons_of_forall_mem (hno hh) '.' rfl,
        List.splitOnP_append_cons_of_forall_mem (hno hc) '.' rfl,
        List.splitOnP_eq_singleton (hno hs)]
    simp [split, hpieces]

/-- A part of a token holds a value: it is the base64url text of the value's JSON. -/
def Holds {α : Type} (r : Json.Reader α) (part : String) (a : α) : Prop :=
  ∃ json, Base64Url.encode json = part ∧ r.whole json = .ok a

theorem readPart_eq_ok_iff {α : Type} {r : Json.Reader α} {part : String} {a : α} :
    readPart r part = .ok a ↔ Holds r part a := by
  constructor
  · intro h
    unfold readPart at h
    split at h
    · cases h
    · next json hjson =>
      split at h
      · next b hb =>
        obtain rfl : b = a := Except.ok.inj h
        exact ⟨json, Base64Url.encode_of_decode? hjson, hb⟩
      · cases h
  · rintro ⟨json, rfl, hjson⟩
    simp [readPart, hjson]

/-! ## Genuine tokens -/

/-- What makes a text a token of an issuer: it has three parts, a header, claims, and the
one text of the authentication code of both. -/
structure Genuine (i : Issuer) (token h c s : String) (claims : Claims) : Prop where
  signingKey : i.signingKey ≠ []
  parts : Text.trim token = h ++ "." ++ c ++ "." ++ s
  pointless : '.' ∉ h.toList ∧ '.' ∉ c.toList ∧ '.' ∉ s.toList
  header : ∃ header, Holds TokenHeader.reader h header ∧ header.algorithm = "HS256"
  signature : s = Base64Url.encode (Hmac.sha256 i.signingKey (Bytes.ofText (h ++ "." ++ c)))
  claims : Holds Claims.reader c claims

theorem Genuine.readClaims_eq {h c s : String} {claims : Claims}
    (g : Genuine i token h c s claims) : i.readClaims token = .ok claims := by
  obtain ⟨header, hheader, halgorithm⟩ := g.header
  have hkey : i.signingKey.isEmpty = false := by simpa using g.signingKey
  have hsplit := split_eq_ok_iff.mpr ⟨g.parts, g.pointless⟩
  have hdecode : Base64Url.decode? s = some (Issuer.signature i.signingKey h c) := by
    rw [g.signature, Base64Url.decode?_encode]
    rfl
  simp [readClaims, hkey, hsplit, readPart_eq_ok_iff.mpr hheader, halgorithm, hdecode,
    readPart_eq_ok_iff.mpr g.claims, bind, Except.bind]

/-- Claims are read from genuine tokens only. -/
theorem exists_genuine_of_readClaims {claims : Claims} (hread : i.readClaims token = .ok claims) :
    ∃ h c s, Genuine i token h c s claims := by
  unfold readClaims at hread
  by_cases hkey : i.signingKey.isEmpty
  · simp [hkey, throw_bind] at hread
  obtain ⟨⟨h, c, s⟩, hsplit, hread⟩ := bind_eq_ok.mp (by simpa only [if_neg hkey] using hread)
  obtain ⟨header, hheader, hread⟩ := bind_eq_ok.mp hread
  by_cases hforeign : header.algorithm ≠ "HS256"
  · simp [hforeign, throw_bind] at hread
  have halgorithm : header.algorithm = "HS256" := Decidable.not_not.mp hforeign
  cases hgiven : Base64Url.decode? s with
  | none => simp [halgorithm, hgiven, throw_eq] at hread
  | some given =>
      by_cases hforged : given ≠ signature i.signingKey h c
      · simp [halgorithm, hgiven, hforged, throw_bind] at hread
      have hsignature : given = signature i.signingKey h c := Decidable.not_not.mp hforged
      have hclaims : readPart Claims.reader c = .ok claims := by
        simpa [halgorithm, hgiven, hsignature] using hread
      obtain ⟨hparts, hpointless⟩ := split_eq_ok_iff.mp hsplit
      have hs : Base64Url.encode given = s := Base64Url.encode_of_decode? hgiven
      refine ⟨h, c, s, by simpa using hkey, hparts, hpointless, ?_, ?_, ?_⟩
      · exact ⟨header, readPart_eq_ok_iff.mp hheader, halgorithm⟩
      · rw [← hs, hsignature]
        rfl
      · exact readPart_eq_ok_iff.mp hclaims

/-- Whose a genuine token is, and whether it counts, is up to its claims. -/
theorem Genuine.validate_eq {h c s : String} {claims : Claims} (g : Genuine i token h c s claims)
    (now : Timestamp) : i.validate now token = i.checkClaims now claims := by
  rw [validate, g.readClaims_eq]

/-- A text that is not refused is a genuine token, and its claims decide. -/
theorem exists_genuine {v : Validation} (hv : i.validate now token = v)
    (hne : ∀ e, v ≠ .error e) :
    ∃ h c s claims, Genuine i token h c s claims ∧ i.checkClaims now claims = v := by
  cases hread : i.readClaims token with
  | error e =>
      rw [validate, hread] at hv
      exact absurd hv.symm (hne e)
  | ok claims =>
      obtain ⟨h, c, s, g⟩ := exists_genuine_of_readClaims hread
      exact ⟨h, c, s, claims, g, (g.validate_eq now).symm.trans hv⟩

theorem pointless_of_join {h c s h' c' s' : String}
    (heq : h ++ "." ++ c ++ "." ++ s = h' ++ "." ++ c' ++ "." ++ s')
    (hno : '.' ∉ h'.toList ∧ '.' ∉ c'.toList ∧ '.' ∉ s'.toList) :
    '.' ∉ h.toList ∧ '.' ∉ c.toList ∧ '.' ∉ s.toList := by
  have hcount := congrArg (fun t => t.toList.count '.') heq
  simp only [String.toList_append, List.count_append, show ".".toList.count '.' = 1 from rfl]
    at hcount
  simp only [← List.count_eq_zero] at hno ⊢
  omega

/-- A genuine token has two points, so there is one way to cut it in three. -/
theorem Genuine.parts_eq {h c s h' c' s' : String} {claims : Claims}
    (g : Genuine i token h c s claims)
    (htrim : Text.trim token = h' ++ "." ++ c' ++ "." ++ s') : h = h' ∧ c = c' ∧ s = s' := by
  have hno := pointless_of_join (htrim.symm.trans g.parts) g.pointless
  have hsplit := split_eq_ok_iff.mpr ⟨g.parts, g.pointless⟩
  have hsplit' := split_eq_ok_iff.mpr ⟨htrim, hno⟩
  simpa [hsplit] using hsplit'

/-- What a genuine token says does not depend on who reads it. -/
theorem Genuine.claims_eq {j : Issuer} {h c s h' c' s' : String} {claims claims' : Claims}
    (g : Genuine i token h c s claims) (g' : Genuine j token h' c' s' claims') :
    claims = claims' := by
  obtain ⟨rfl, rfl, rfl⟩ := g.parts_eq g'.parts
  have hread := readPart_eq_ok_iff.mpr g.claims
  have hread' := readPart_eq_ok_iff.mpr g'.claims
  exact Except.ok.inj (hread.symm.trans hread')

/-- A genuine token is not blank. -/
theorem Genuine.not_isBlank {h c s : String} {claims : Claims}
    (g : Genuine i token h c s claims) : Text.isBlank token = false := by
  refine Bool.eq_false_iff.mpr fun hblank => ?_
  have hparts := congrArg String.toList (g.parts.symm.trans (Text.trim_of_isBlank hblank))
  simp at hparts

/-- The third part of a text that is accepted follows from the first two. -/
theorem signature_of_validate {h c s : String} (hp : i.validate now token = .ok p)
    (htrim : Text.trim token = h ++ "." ++ c ++ "." ++ s) :
    s = Base64Url.encode (Hmac.sha256 i.signingKey (Bytes.ofText (h ++ "." ++ c))) := by
  obtain ⟨h', c', s', claims, g, -⟩ := exists_genuine hp nofun
  obtain ⟨rfl, rfl, rfl⟩ := g.parts_eq htrim
  exact g.signature

/-! ## Whether the claims count -/

theorem toInt_seconds (t : Timestamp) : (seconds t).toInt = t.toInt / 1000 := by
  have hlow := t.le_toInt
  have hhigh := t.toInt_lt
  exact Int64.toInt_ofInt_of_le (by omega) (by omega)

/-- The latest time that 64 bits hold, in seconds or in milliseconds. -/
def endOfTime : Int := Int64.maxValue.toInt

/-- The grace is added where the sum stays in the 64-bit range. -/
theorem exists_sum?_clockSkew {a : Int64} (h : a.toInt + 60 ≤ endOfTime) :
    ∃ b, sum? a clockSkew = some b ∧ b.toInt = a.toInt + 60 := by
  have hend : endOfTime = 9223372036854775807 := rfl
  have hskew : clockSkew.toInt = 60 := rfl
  have hlow := a.le_toInt
  have hsum : (Int64.ofInt (a.toInt + 60)).toInt = a.toInt + 60 :=
    Int64.toInt_ofInt_of_le (by omega) (by omega)
  exact ⟨_, sum?_eq_some_iff.mpr (hsum.trans (by rw [hskew])), hsum⟩

theorem sum?_clockSkew_eq_none {a : Int64} (h : endOfTime < a.toInt + 60) :
    sum? a clockSkew = none := by
  have hend : endOfTime = 9223372036854775807 := rfl
  have hskew : clockSkew.toInt = 60 := rfl
  cases hsum : sum? a clockSkew with
  | none => rfl
  | some b =>
      have hb := sum?_eq_some_iff.mp hsum
      have hhigh := b.toInt_lt
      omega

/-- No time of the calendar is so late that the grace could not be added to it. -/
theorem exists_sum?_seconds (now : Timestamp) :
    ∃ b, sum? (seconds now) clockSkew = some b ∧ b.toInt = now.toInt / 1000 + 60 := by
  have hend : endOfTime = 9223372036854775807 := rfl
  have hhigh := now.toInt_lt
  have hroom : (seconds now).toInt + 60 ≤ endOfTime := by
    rw [toInt_seconds, hend]
    omega
  simpa only [toInt_seconds] using exists_sum?_clockSkew hroom

/-- The checks of claims, over the integers. -/
theorem checkClaims_eq (i : Issuer) (now : Timestamp) (claims : Claims) :
    i.checkClaims now claims =
      if claims.issuer ≠ i.issuer then .error .issuerMismatch
      else if claims.audience ≠ i.audience then .error .audienceMismatch
      else if endOfTime < claims.expires.toInt + 60 then .brokenOff
      else if claims.expires.toInt + 60 < now.toInt / 1000 then .error .expired
      else if now.toInt / 1000 + 60 < claims.notBefore.toInt then .error .notYetValid
      else if Text.isBlank claims.subject then .error .subjectBlank
      else .ok ⟨claims.subject, claims.email⟩ := by
  obtain ⟨ahead, hahead, hvalue⟩ := exists_sum?_seconds now
  unfold checkClaims
  by_cases hroom : endOfTime < claims.expires.toInt + 60
  · simp only [sum?_clockSkew_eq_none hroom, if_pos hroom]
  · obtain ⟨latest, hlatest, hend⟩ := exists_sum?_clockSkew (Int.not_lt.mp hroom)
    simp only [hlatest, hahead, if_neg hroom, Int64.lt_iff_toInt_lt, toInt_seconds, hvalue, hend]

/-- Whether claims are an issuer's, name a subject, and count at a time, give or take a
minute. -/
structure Counts (i : Issuer) (now : Timestamp) (claims : Claims) : Prop where
  issuer : claims.issuer = i.issuer
  audience : claims.audience = i.audience
  subject : Text.isBlank claims.subject = false
  started : claims.notBefore.toInt - 60 ≤ now.toInt / 1000
  lasting : now.toInt / 1000 ≤ claims.expires.toInt + 60

/-- Claims that pass are those that count and whose expiry leaves room for the grace. -/
theorem checkClaims_eq_ok_iff {claims : Claims} :
    i.checkClaims now claims = .ok p ↔
      Counts i now claims ∧ claims.expires.toInt + 60 ≤ endOfTime ∧
        p = ⟨claims.subject, claims.email⟩ := by
  simp (disch := simp) only [checkClaims_eq, ite_eq_iff_of_ne, ne_eq, Decidable.not_not,
    Int.not_lt, Bool.not_eq_true, Validation.ok.injEq]
  constructor
  · rintro ⟨hissuer, haudience, hroom, hlasting, hstarted, hsubject, rfl⟩
    exact ⟨⟨hissuer, haudience, hsubject, by omega, hlasting⟩, hroom, rfl⟩
  · rintro ⟨counts, hroom, rfl⟩
    have hstarted := counts.started
    exact ⟨counts.issuer, counts.audience, hroom, counts.lasting, by omega, counts.subject, rfl⟩

/-- The checks break off at claims of the issuer for its audience whose expiry leaves no room
for the grace. -/
theorem checkClaims_eq_brokenOff_iff {claims : Claims} :
    i.checkClaims now claims = .brokenOff ↔
      claims.issuer = i.issuer ∧ claims.audience = i.audience ∧
        endOfTime < claims.expires.toInt + 60 := by
  simp (disch := simp) only [checkClaims_eq, ite_eq_iff_of_ne, ne_eq, Decidable.not_not]
  refine and_congr_right fun _ => and_congr_right fun _ => ⟨fun h => ?_, fun hroom => if_pos hroom⟩
  refine Int.not_le.mp fun hle => ?_
  simp (disch := simp) [if_neg (Int.not_lt.mpr hle), ite_eq_iff_of_ne] at h

theorem checkClaims_of_foreign {claims : Claims}
    (h : claims.issuer ≠ i.issuer ∨ claims.audience ≠ i.audience) :
    ∃ e, i.checkClaims now claims = .error e := by
  rw [checkClaims_eq]
  split
  · exact ⟨_, rfl⟩
  · next hissuer =>
    rw [if_pos (h.resolve_left hissuer)]
    exact ⟨_, rfl⟩

/-! ## Tokens that are written -/

theorem holds_part {α : Type} {r : Json.Reader α} {j : Json} {a : α}
    (h : Reads .compact r j a) : Holds r (part j) a :=
  ⟨j.compact, rfl, h.whole⟩

theorem signingKey_ne_nil {c : AccountSettings} (h : c.signingKey ≠ "") :
    (ofSettings c).signingKey ≠ [] :=
  fun hnil => h (Bytes.ofText_injective hnil)

/-- The token in which an issuer writes claims. -/
def written (i : Issuer) (claims : Claims) : String :=
  let h := part TokenHeader.issued.toJson
  let c := part claims.toJson
  h ++ "." ++ c ++ "." ++ Base64Url.encode (signature i.signingKey h c)

/-- What holds of the digits of base64url and of the point holds of tokens. -/
theorem forall_mem_written {P : Char → Prop} (hdigit : ∀ n < 64, P (Base64Url.digit n))
    (hpoint : P '.') (i : Issuer) (claims : Claims) : ∀ c ∈ (i.written claims).toList, P c := by
  have hencode (bs : Bytes) : ∀ c ∈ (Base64Url.encode bs).toList, P c := fun c hc => by
    obtain ⟨n, hn, rfl⟩ := Base64Url.exists_digit_of_mem hc
    exact hdigit n hn
  have hjoin {s t : String} (hs : ∀ c ∈ s.toList, P c) (ht : ∀ c ∈ t.toList, P c) :
      ∀ c ∈ (s ++ "." ++ t).toList, P c :=
    Text.forall_mem_append (Text.forall_mem_append hs (by simpa using hpoint)) ht
  exact hjoin (hjoin (hencode _) (hencode _)) (hencode _)

theorem trim_written (i : Issuer) (claims : Claims) :
    Text.trim (i.written claims) = i.written claims := by
  have hplain := forall_mem_written (P := fun c => Text.isSpace c = false) (by decide) rfl
  exact Text.trim_of_forall (hplain i claims)

/-- A token consists of visible ASCII characters. -/
theorem visible_of_mem_written {i : Issuer} {claims : Claims} {c : Char}
    (h : c ∈ (i.written claims).toList) : '\x20' ≤ c ∧ c ≤ '\x7e' := by
  have hvisible :=
    forall_mem_written (P := fun c => '\x20' ≤ c ∧ c ≤ '\x7e') (by decide) (by decide)
  exact hvisible i claims c h

/-- A token that is written is genuine, with the claims that it is written for. -/
theorem exists_genuine_written (hkey : i.signingKey ≠ []) (claims : Claims) :
    ∃ h c s, Genuine i (i.written claims) h c s claims := by
  have hdigit : ∀ n < 64, Base64Url.digit n ≠ '.' := by decide
  have hpointless (bs : Bytes) : '.' ∉ (Base64Url.encode bs).toList := fun hpoint => by
    obtain ⟨n, hn, heq⟩ := Base64Url.exists_digit_of_mem hpoint
    exact hdigit n hn heq
  exact ⟨_, _, _, hkey, i.trim_written claims, ⟨hpointless _, hpointless _, hpointless _⟩,
    ⟨TokenHeader.issued, holds_part (TokenHeader.reads _), rfl⟩, rfl, holds_part claims.reads⟩

/-- A token that is written is accepted for whom its claims name, when they count. -/
theorem validate_written_eq_ok_iff (hkey : i.signingKey ≠ []) {claims : Claims}
    (hroom : claims.expires.toInt + 60 ≤ endOfTime) :
    i.validate now (i.written claims) = .ok p ↔
      Counts i now claims ∧ p = ⟨claims.subject, claims.email⟩ := by
  obtain ⟨h, c, s, g⟩ := exists_genuine_written hkey claims
  rw [g.validate_eq, checkClaims_eq_ok_iff, and_iff_right hroom]

/-- Nobody accepts a token with the claims of another issuer or for another audience. -/
theorem exists_error_of_foreign (hkey : i.signingKey ≠ []) {claims : Claims} {other : Issuer}
    (hother : other.issuer ≠ claims.issuer ∨ other.audience ≠ claims.audience)
    (now : Timestamp) : ∃ e, other.validate now (i.written claims) = .error e := by
  cases hread : other.readClaims (i.written claims) with
  | error e => exact ⟨e, by rw [validate, hread]⟩
  | ok claims' =>
      obtain ⟨h, c, s, g⟩ := exists_genuine_written hkey claims
      obtain ⟨h', c', s', g'⟩ := exists_genuine_of_readClaims hread
      obtain rfl := g.claims_eq g'
      rw [g'.validate_eq]
      exact checkClaims_of_foreign (hother.imp Ne.symm Ne.symm)

/-! ## What is accepted -/

/-- **Acceptance is sound**: at any time, the texts that are accepted are the genuine tokens
whose claims count and whose expiry leaves room for the grace, and the caller is whom the
claims name.  A signature has one spelling: accepted texts that agree in the first two parts
agree in the third. -/
theorem validate_eq_ok_iff (i : Issuer) (now : Timestamp) (token : String) (p : Principal) :
    (i.validate now token = .ok p ↔
      ∃ h c s claims, Genuine i token h c s claims ∧ Counts i now claims ∧
        claims.expires.toInt + 60 ≤ endOfTime ∧ p = ⟨claims.subject, claims.email⟩) ∧
    ∀ now' token' p' h c s s', i.validate now token = .ok p → i.validate now' token' = .ok p' →
      Text.trim token = h ++ "." ++ c ++ "." ++ s →
      Text.trim token' = h ++ "." ++ c ++ "." ++ s' → s = s' := by
  refine ⟨⟨?_, ?_⟩, ?_⟩
  · intro hp
    obtain ⟨h, c, s, claims, g, hclaims⟩ := exists_genuine hp nofun
    exact ⟨h, c, s, claims, g, checkClaims_eq_ok_iff.mp hclaims⟩
  · rintro ⟨h, c, s, claims, g, hclaims⟩
    rw [g.validate_eq]
    exact checkClaims_eq_ok_iff.mpr hclaims
  · intro now' token' p' h c s s' hp hp' htrim htrim'
    exact (signature_of_validate hp htrim).trans (signature_of_validate hp' htrim').symm

/-- The settings of a relay that asks for tokens of a minute, which is less than the least. -/
def hastyRelay : AccountSettings :=
  { enabled := true, signingKey := "unit-test-signing-key", tokenMinutes := 1 }

/-- A token that the relay accepts, and what it is made of. -/
theorem validate_eq_ok_iff_hasty :
    ∃ token p h c s claims, (ofSettings hastyRelay).validate 1700000000999 token = .ok p ∧
      Genuine (ofSettings hastyRelay) token h c s claims ∧
      Counts (ofSettings hastyRelay) 1700000000999 claims ∧
      claims.expires.toInt + 60 ≤ endOfTime ∧ p = ⟨claims.subject, claims.email⟩ := by
  let claims : Claims :=
    ⟨"Zoë \"Z\"", none, "ClipboardSync", "ClipboardSync", 1700000000, 1700000000, 1700000300⟩
  have hkey := signingKey_ne_nil (c := hastyRelay) (by decide)
  have hp : (ofSettings hastyRelay).validate 1700000000999
      ((ofSettings hastyRelay).written claims) = .ok ⟨"Zoë \"Z\"", none⟩ :=
    (validate_written_eq_ok_iff hkey (by decide)).mpr
      ⟨⟨rfl, rfl, by decide, by decide, by decide⟩, rfl⟩
  obtain ⟨h, c, s, claims', hgenuine⟩ := (validate_eq_ok_iff _ _ _ _).1.mp hp
  exact ⟨_, _, h, c, s, claims', hp, hgenuine⟩

/-! ## Where the relay breaks off -/

/-- A token of an issuer for its own audience whose expiry leaves no room for the grace. -/
def Endless (i : Issuer) (token : String) : Prop :=
  ∃ h c s claims, Genuine i token h c s claims ∧ claims.issuer = i.issuer ∧
    claims.audience = i.audience ∧ endOfTime < claims.expires.toInt + 60

/-- An issuer can be made to write endless tokens. -/
theorem endless_written (hkey : i.signingKey ≠ []) {claims : Claims}
    (hissuer : claims.issuer = i.issuer) (haudience : claims.audience = i.audience)
    (hroom : endOfTime < claims.expires.toInt + 60) : i.Endless (i.written claims) := by
  obtain ⟨h, c, s, g⟩ := exists_genuine_written hkey claims
  exact ⟨h, c, s, claims, g, hissuer, haudience, hroom⟩

/-- The relay breaks off at endless tokens only, and whenever it comes to one. -/
theorem validate_eq_brokenOff_iff : i.validate now token = .brokenOff ↔ i.Endless token := by
  constructor
  · intro h
    obtain ⟨h, c, s, claims, g, hclaims⟩ := exists_genuine h nofun
    exact ⟨h, c, s, claims, g, checkClaims_eq_brokenOff_iff.mp hclaims⟩
  · rintro ⟨h, c, s, claims, g, hclaims⟩
    rw [g.validate_eq]
    exact checkClaims_eq_brokenOff_iff.mpr hclaims

/-! ## How long an issued token lasts -/

/-- The claims of the token that is issued at a time. -/
def issuedClaims (i : Issuer) (now : Timestamp) (subject : String) (email : Option String) :
    Claims where
  subject
  email := Text.nonBlank? email
  issuer := i.issuer
  audience := i.audience
  notBefore := seconds now
  issuedAt := seconds now
  expires := seconds (now + i.lifetimeSeconds * 1000)

theorem issue_eq (hkey : i.signingKey ≠ []) {subject : String}
    (hsubject : Text.isBlank subject = false) (email : Option String) (now : Timestamp) :
    i.issue now subject email =
      .ok ⟨i.written (i.issuedClaims now subject email), now + i.lifetimeSeconds * 1000⟩ := by
  have hnonempty : i.signingKey.isEmpty = false := by simpa using hkey
  simp only [issue, hsubject, hnonempty, Bool.false_eq_true, if_false]
  rfl

/-- How long the tokens of a relay last, in milliseconds: as configured, but five minutes at
least and a week at most. -/
def lifetime (c : AccountSettings) : Int := max 5 (min c.tokenMinutes.toInt (7 * 24 * 60)) * 60000

theorem toInt_max (a b : Int64) : (max a b).toInt = max a.toInt b.toInt := by
  simp only [show max a b = if a ≤ b then b else a from rfl, Int.max_def, Int64.le_iff_toInt_le]
  split <;> rfl

theorem toInt_min (a b : Int64) : (min a b).toInt = min a.toInt b.toInt := by
  simp only [show min a b = if a ≤ b then a else b from rfl, Int.min_def, Int64.le_iff_toInt_le]
  split <;> rfl

theorem toInt_lifetimeSeconds (c : AccountSettings) :
    (ofSettings c).lifetimeSeconds.toInt * 1000 = lifetime c := by
  have hmin : minLifetime.toInt = 5 := rfl
  have hmax : maxLifetime.toInt = 7 * 24 * 60 := rfl
  have hminute : (60 : Int64).toInt = 60 := rfl
  rw [lifetimeSeconds, Int64.toInt_mul, ofSettings, toInt_max, toInt_min, hmin, hmax, hminute,
    Int.bmod_def, lifetime]
  omega

/-- A token expires a lifetime after it was issued, if the calendar goes as far. -/
theorem toInt_expiry (c : AccountSettings) {now : Timestamp}
    (h : now.toInt + lifetime c ≤ endOfTime) :
    (now + (ofSettings c).lifetimeSeconds * 1000).toInt = now.toInt + lifetime c := by
  have hend : endOfTime = 9223372036854775807 := rfl
  have hlow := now.le_toInt
  have hlifetime := toInt_lifetimeSeconds c
  have hsecond : (1000 : Int64).toInt = 1000 := rfl
  have hbounds : 0 ≤ lifetime c ∧ lifetime c ≤ 604800000 := by
    unfold lifetime
    omega
  rw [Int64.toInt_add, Int64.toInt_mul, hsecond, hlifetime, Int.bmod_def, Int.bmod_def]
  omega

/-- **Tokens come back**: whatever the settings are, the token that a relay with a signing
key issues for a subject that is not blank is accepted by it, as that subject's with the
email that was given, from a minute before its issue to a minute after the expiry that was
told, in whole seconds, and at no other time.  Between issue and expiry it is always
accepted.  Whoever goes by another issuer or audience never accepts it. -/
theorem validate_issue (c : AccountSettings) (hkey : c.signingKey ≠ "") {subject : String}
    (hsubject : Text.isBlank subject = false) (email : Option String) {issued : Timestamp}
    (hrange : issued.toInt + lifetime c ≤ endOfTime) :
    ∃ t, (ofSettings c).issue issued subject email = .ok t ∧
      t.expiresAt.toInt = issued.toInt + lifetime c ∧
      (∀ now p, (ofSettings c).validate now t.token = .ok p ↔
        p = ⟨subject, Text.nonBlank? email⟩ ∧ issued.toInt / 1000 - 60 ≤ now.toInt / 1000 ∧
          now.toInt / 1000 ≤ t.expiresAt.toInt / 1000 + 60) ∧
      (∀ now, issued ≤ now → now ≤ t.expiresAt →
        (ofSettings c).validate now t.token = .ok ⟨subject, Text.nonBlank? email⟩) ∧
      ∀ other : Issuer, other.issuer ≠ c.issuer ∨ other.audience ≠ c.audience →
        ∀ now, ∃ e, other.validate now t.token = .error e := by
  have hsigning := signingKey_ne_nil hkey
  let claims := (ofSettings c).issuedClaims issued subject email
  have hexpiry := toInt_expiry c hrange
  have hexpires : claims.expires.toInt = (issued.toInt + lifetime c) / 1000 := by
    rw [← hexpiry]
    exact toInt_seconds _
  have hstart : claims.notBefore.toInt = issued.toInt / 1000 := toInt_seconds issued
  have hroom : claims.expires.toInt + 60 ≤ endOfTime := by
    have hend : endOfTime = 9223372036854775807 := rfl
    omega
  have hwindow : ∀ now p, (ofSettings c).validate now ((ofSettings c).written claims) = .ok p ↔
      p = ⟨subject, Text.nonBlank? email⟩ ∧ issued.toInt / 1000 - 60 ≤ now.toInt / 1000 ∧
        now.toInt / 1000 ≤ (issued.toInt + lifetime c) / 1000 + 60 := by
    intro now p
    rw [validate_written_eq_ok_iff hsigning hroom, ← hstart, ← hexpires]
    constructor
    · rintro ⟨counts, rfl⟩
      exact ⟨rfl, counts.started, counts.lasting⟩
    · rintro ⟨rfl, hstarted, hlasting⟩
      exact ⟨⟨rfl, rfl, hsubject, hstarted, hlasting⟩, rfl⟩
  refine ⟨_, issue_eq hsigning hsubject email issued, hexpiry, ?_, ?_, ?_⟩
  · rw [hexpiry]
    exact hwindow
  · -- The seconds of a time between issue and expiry are between theirs.
    intro now hfrom hto
    rw [Int64.le_iff_toInt_le] at hfrom hto
    rw [hexpiry] at hto
    exact (hwindow now _).mpr ⟨rfl, by omega, by omega⟩
  · exact fun other hother now => exists_error_of_foreign hsigning hother now

/-- A token of the relay, at the ends of the five minutes that it lasts and of the grace. -/
theorem validate_issue_hasty :
    ∃ t, (ofSettings hastyRelay).issue 1700000000999 "Zoë \"Z\"" (some " ") = .ok t ∧
      t.expiresAt.toInt = 1700000300999 ∧
      (ofSettings hastyRelay).validate 1699999940000 t.token = .ok ⟨"Zoë \"Z\"", none⟩ ∧
      (ofSettings hastyRelay).validate 1699999939999 t.token ≠ .ok ⟨"Zoë \"Z\"", none⟩ ∧
      (ofSettings hastyRelay).validate 1700000360999 t.token = .ok ⟨"Zoë \"Z\"", none⟩ ∧
      (ofSettings hastyRelay).validate 1700000361000 t.token ≠ .ok ⟨"Zoë \"Z\"", none⟩ := by
  have hlifetime : lifetime hastyRelay = 300000 := by decide
  obtain ⟨t, hissue, hexpiry, hwindow, -⟩ := validate_issue hastyRelay (by decide)
    (show Text.isBlank "Zoë \"Z\"" = false by decide) (some " ")
    (show (1700000000999 : Timestamp).toInt + lifetime hastyRelay ≤ endOfTime by decide)
  have hemail : Text.nonBlank? (some " ") = none := by decide
  have hissued : (1700000000999 : Timestamp).toInt = 1700000000999 := rfl
  rw [hissued, hlifetime] at hexpiry
  simp only [hexpiry, hemail, hissued] at hwindow
  refine ⟨t, hissue, hexpiry, ?_, ?_, ?_, ?_⟩
  · exact (hwindow _ _).mpr ⟨rfl, by decide, by decide⟩
  · exact fun h => absurd ((hwindow _ _).mp h).2.1 (by decide)
  · exact (hwindow _ _).mpr ⟨rfl, by decide, by decide⟩
  · exact fun h => absurd ((hwindow _ _).mp h).2.2 (by decide)

end Issuer

end ClipRelay
