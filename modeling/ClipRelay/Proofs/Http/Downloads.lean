import ClipRelay.Proofs.Relay.Anonymous

/-!
# ClipRelay.Proofs.Http.Downloads

Which requests download a file, and what they are answered.

A download names a room and an item in its path, percent-encoded.  Every text can
be written so, which makes `downloadTarget` a request for any file.  Whose room is
meant is said by the token that the request bears, where accounts have rooms of
their own; otherwise by the room id alone (`Request.ReadsFrom`).  There, who bears
no token that counts is turned away, and who bears an endless one is dropped.
-/

namespace ClipRelay.Http

/-! ## Paths -/

/-- The path of a file. -/
def downloadTarget (roomId itemId : String) : String :=
  "/download/" ++ percentEncode roomId ++ "/" ++ percentEncode itemId

theorem toList_downloadTarget (roomId itemId : String) :
    (downloadTarget roomId itemId).toList =
      '/' :: ("download".toList ++ '/' ::
        ((percentEncode roomId).toList ++ '/' :: (percentEncode itemId).toList)) := by
  have hprefix : "/download/".toList = '/' :: ("download".toList ++ ['/']) := by decide
  simp only [downloadTarget, String.toList_append, hprefix, show "/".toList = ['/'] from rfl,
    List.append_assoc, List.cons_append, List.nil_append]

theorem inert_of_mem_download {c : Char} (h : c ∈ "download".toList) : Inert c := by
  have hall : ("download".toList.all fun c => Inert c) = true := by decide
  exact of_decide_eq_true (List.all_eq_true.mp hall c h)

/-- The path of a file has no query and no fragment. -/
theorem path_of_downloadTarget {r : Request} {roomId itemId : String}
    (h : r.target = downloadTarget roomId itemId) : r.path = downloadTarget roomId itemId := by
  have hencoded (s : String) : ∀ c ∈ (percentEncode s).toList, (c != '?' && c != '#') = true := by
    intro c hc
    obtain ⟨-, -, hquery, hfragment, -⟩ := inert_of_mem_percentEncode hc
    simp [hquery, hfragment]
  have hall : ∀ c ∈ r.target.toList, (c != '?' && c != '#') = true := by
    rw [h, downloadTarget]
    exact Text.forall_mem_append (Text.forall_mem_append
      (Text.forall_mem_append (by simp) (hencoded roomId)) (by simp)) (hencoded itemId)
  rw [Request.path, List.takeWhile_eq_self_iff.mpr hall, String.ofList_toList, h]

/-- The path of a file leads to that file. -/
theorem ofPath?_downloadTarget {roomId itemId : String} (h : itemId ≠ "") :
    Route.ofPath? (downloadTarget roomId itemId) =
      some (.download (percentEncode roomId) (percentEncode itemId)) := by
  have hlist := toList_downloadTarget roomId itemId
  -- All other places have paths that begin otherwise.
  have hother (path : String) (hpath : path.toList.take 3 ≠ "/do".toList) :
      downloadTarget roomId itemId ≠ path := by
    rintro rfl
    rw [hlist] at hpath
    exact hpath rfl
  have hslash {c : Char} (hc : Inert c) : (c == '/') = false :=
    beq_eq_false_iff_ne.mpr hc.2.1
  have hsegment (s : String) : ∀ c ∈ (percentEncode s).toList, (c == '/') = false :=
    fun c hc => hslash (inert_of_mem_percentEncode hc)
  have hpieces : (downloadTarget roomId itemId).toList.splitOnP (· == '/') =
      [[], "download".toList, (percentEncode roomId).toList, (percentEncode itemId).toList] := by
    rw [hlist, ← List.nil_append ('/' :: _),
      List.splitOnP_append_cons_of_forall_mem (by simp) '/' rfl,
      List.splitOnP_append_cons_of_forall_mem
        (fun c hc => hslash (inert_of_mem_download hc)) '/' rfl,
      List.splitOnP_append_cons_of_forall_mem (hsegment roomId) '/' rfl,
      List.splitOnP_eq_singleton (hsegment itemId)]
  have hitem : (percentEncode itemId).toList ≠ [] := fun hnil =>
    percentEncode_ne_empty h (String.toList_injective hnil)
  rw [Route.ofPath?, if_neg (hother _ (by decide)), if_neg (hother _ (by decide)),
    if_neg (hother _ (by decide)), if_neg (hother _ (by decide)), if_neg (hother _ (by decide)),
    if_neg (hother _ (by decide)), hpieces]
  simp [hitem]

/-! ## Requests for files -/

/-- A request for a file of a room: `GET` asks for it, and `HEAD` for all of the answer
but the body. -/
structure Request.Fetches (r : Request) (roomId itemId : String) : Prop where
  method : r.method = "GET" ∨ r.method = "HEAD"
  path : ∃ room item, Route.ofPath? r.path = some (.download room item) ∧
    segment? room = some roomId ∧ segment? item = some itemId

/-- A request bears a token that counts, and whose it is. -/
def Request.Bears (r : Request) (account : AccountSettings) (now : Timestamp)
    (p : Principal) : Prop :=
  ∃ token, r.textHeader? "authorization" = some ("Bearer " ++ token) ∧
    (Issuer.ofSettings account).validate now token = .ok p

/-- The room that a request for a file with a room id reads from. -/
def Request.ReadsFrom (r : Request) (account : AccountSettings) (now : Timestamp)
    (roomId : String) (key : RoomKey) : Prop :=
  if account.enabled then
    ∃ p, r.Bears account now p ∧ key = .forSubject p.subject roomId
  else key = .shared roomId

/-- A request bears a token of the relay whose expiry leaves no room for the grace. -/
def Request.BearsEndless (r : Request) (account : AccountSettings) : Prop :=
  ∃ token, r.textHeader? "authorization" = some ("Bearer " ++ token) ∧
    (Issuer.ofSettings account).Endless token

/-- The path of a file can be asked for. -/
theorem fetches_downloadTarget {r : Request} {roomId itemId : String} (hitem : itemId ≠ "")
    (hmethod : r.method = "GET") (htarget : r.target = downloadTarget roomId itemId) :
    r.Fetches roomId itemId := by
  refine ⟨.inl hmethod, percentEncode roomId, percentEncode itemId, ?_, ?_, ?_⟩
  · rw [path_of_downloadTarget htarget, ofPath?_downloadTarget hitem]
  · exact segment?_percentEncode roomId
  · exact segment?_percentEncode itemId

/-! ### Callers -/

section
variable {account : AccountSettings} {now : Timestamp} {r : Request} {p : Principal}

/-- Blank tokens are refused, so what is not refused is not blank. -/
theorem not_isBlank_of_principalOf {token : String} {x : Except (Option Answer) Principal}
    (hx : ∀ a, x ≠ .error (some a)) (h : principalOf account now token = x) :
    Text.isBlank token = false := by
  by_cases herror : ∃ e, (Issuer.ofSettings account).validate now token = .error e
  · obtain ⟨e, he⟩ := herror
    rw [principalOf, he] at h
    exact absurd h.symm (hx _)
  · obtain ⟨_, _, _, _, g, -⟩ := Issuer.exists_genuine rfl (not_exists.mp herror)
    exact g.not_isBlank

/-- A caller who is not turned away fares as the token in the header does. -/
theorem callerOf_eq_iff {x : Except (Option Answer) Principal} (hx : ∀ a, x ≠ .error (some a)) :
    callerOf account now r = x ↔
      ∃ token, r.textHeader? "authorization" = some ("Bearer " ++ token) ∧
        principalOf account now token = x := by
  unfold callerOf
  constructor
  · intro h
    split at h
    · exact absurd h.symm (hx _)
    · next t ht =>
      obtain ⟨token, hheader, -, rfl⟩ := bearer?_eq_some_iff.mp ht
      exact ⟨token, hheader, (principalOf_trim ..).symm.trans h⟩
  · rintro ⟨token, hheader, h⟩
    have hbearer : r.bearer? = some (Text.trim token) :=
      bearer?_eq_some_iff.mpr ⟨token, hheader, not_isBlank_of_principalOf hx h, rfl⟩
    simp [hbearer, principalOf_trim, h]

theorem callerOf_eq_ok_iff : callerOf account now r = .ok p ↔ r.Bears account now p := by
  rw [callerOf_eq_iff (x := .ok p) nofun]
  simp only [principalOf_eq_ok_iff, Request.Bears]

theorem callerOf_eq_dropped_iff :
    callerOf account now r = .error none ↔ r.BearsEndless account := by
  rw [callerOf_eq_iff (x := .error none) nofun]
  simp only [principalOf_eq_dropped_iff, Request.BearsEndless]

/-- Whoever is turned away is unauthorized. -/
theorem status_of_callerOf {a : Answer} (h : callerOf account now r = .error (some a)) :
    a.status = 401 := by
  unfold callerOf at h
  split at h
  · cases h
    rfl
  · obtain ⟨e, -, rfl⟩ := principalOf_eq_answer_iff.mp h
    rfl

end

/-! ### Answers -/

section
variable {relay : Relay} {now : Timestamp} {provider : Lookup → Reply} {r : Request}
  {roomId itemId : String}

theorem Request.Fetches.exists_answer (h : r.Fetches roomId itemId) (relay : Relay)
    (now : Timestamp) (provider : Lookup → Reply) :
    ∃ room item, segment? room = some roomId ∧ segment? item = some itemId ∧
      answer relay now provider r = download relay now r room item := by
  obtain ⟨room, item, hroute, hroom, hitem⟩ := h.path
  refine ⟨room, item, hroom, hitem, ?_⟩
  obtain hmethod | hmethod := h.method <;> simp [answer, hroute, hmethod, Route.allows, answerAt]

/-- A request for a file is answered with what is found in the room that it reads from. -/
theorem Request.Fetches.answer_of_readsFrom (h : r.Fetches roomId itemId) {key : RoomKey}
    (hkey : r.ReadsFrom relay.account now roomId key) (provider : Lookup → Reply) :
    answer relay now provider r = some (payload relay key itemId) := by
  obtain ⟨room, item, hroom, hitem, hanswer⟩ := h.exists_answer relay now provider
  rw [hanswer]
  unfold ReadsFrom at hkey
  by_cases henabled : relay.account.enabled
  · rw [if_pos henabled] at hkey
    obtain ⟨p, hbears, rfl⟩ := hkey
    simp only [download, hroom, hitem, henabled, if_true, callerOf_eq_ok_iff.mpr hbears, Except.map]
  · rw [if_neg henabled] at hkey
    simp only [download, hroom, hitem, henabled, Bool.false_eq_true, if_false, hkey]

/-- Where accounts have rooms of their own, a request of nobody is answered at the door. -/
theorem Request.Fetches.answer_of_callerOf (h : r.Fetches roomId itemId)
    (henabled : relay.account.enabled) {x : Option Answer}
    (hcaller : callerOf relay.account now r = .error x) (provider : Lookup → Reply) :
    answer relay now provider r = x := by
  obtain ⟨room, item, hroom, hitem, hanswer⟩ := h.exists_answer relay now provider
  simp only [hanswer, download, hroom, hitem, henabled, if_true, hcaller, Except.map]

/-- Without a token that counts a request for a file is turned away, unless the token is
endless: then it is dropped. -/
theorem Request.Fetches.answer_of_not_bears (h : r.Fetches roomId itemId)
    (henabled : relay.account.enabled) (hnone : ∀ p, ¬r.Bears relay.account now p)
    (provider : Lookup → Reply) :
    (¬r.BearsEndless relay.account →
      ∃ a, answer relay now provider r = some a ∧ a.status = 401) ∧
    (r.BearsEndless relay.account → answer relay now provider r = none) := by
  refine ⟨fun hends => ?_, fun hendless =>
    h.answer_of_callerOf henabled (callerOf_eq_dropped_iff.mpr hendless) provider⟩
  cases hcaller : callerOf relay.account now r with
  | ok p => exact absurd (callerOf_eq_ok_iff.mp hcaller) (hnone p)
  | error x =>
      cases x with
      | none => exact absurd (callerOf_eq_dropped_iff.mp hcaller) hends
      | some a =>
          have hanswer := h.answer_of_callerOf henabled hcaller provider
          exact ⟨a, hanswer, status_of_callerOf hcaller⟩

/-- What is found is a file that is stored. -/
theorem exists_of_status_payload {key : RoomKey} (h : (payload relay key itemId).status = 200) :
    ∃ bytes, relay.files.get? key itemId = some bytes ∧
      (payload relay key itemId).body = .bytes bytes := by
  unfold payload at h ⊢
  cases hbytes : relay.files.get? key itemId with
  | none => simp [hbytes, Answer.error, Answer.json] at h
  | some bytes =>
      cases hname : disposition? itemId with
      | none => simp [hbytes, hname, Answer.reject] at h
      | some d => exact ⟨bytes, rfl, rfl⟩

/-- Who is shown a file reads from some room. -/
theorem Request.Fetches.exists_readsFrom (h : r.Fetches roomId itemId) {a : Answer}
    (hanswer : answer relay now provider r = some a) (hstatus : a.status = 200) :
    ∃ key, r.ReadsFrom relay.account now roomId key := by
  unfold Request.ReadsFrom
  by_cases henabled : relay.account.enabled
  · simp only [if_pos henabled]
    cases hcaller : callerOf relay.account now r with
    | ok p => exact ⟨_, p, callerOf_eq_ok_iff.mp hcaller, rfl⟩
    | error x =>
        rw [h.answer_of_callerOf henabled hcaller] at hanswer
        rw [hanswer] at hcaller
        rw [status_of_callerOf hcaller] at hstatus
        contradiction
  · simp only [if_neg henabled]
    exact ⟨_, rfl⟩

/-- On the paths of files, whatever is asked for with success is a file that is stored. -/
theorem exists_file_of_status {room item : String} {a : Answer}
    (hroute : Route.ofPath? r.path = some (.download room item)) (hmethod : r.method ≠ "OPTIONS")
    (hanswer : answer relay now provider r = some a) (hstatus : a.status = 200) :
    ∃ roomId itemId key bytes, r.Fetches roomId itemId ∧
      r.ReadsFrom relay.account now roomId key ∧ relay.files.get? key itemId = some bytes ∧
      a.body = .bytes bytes := by
  have hallowed : (Route.download room item).allows r.method = true := by
    refine Bool.of_not_eq_false fun hdenied => ?_
    simp only [answer, hroute, hmethod, hdenied, if_false, Bool.false_eq_true,
      Option.some.injEq] at hanswer
    simp [← hanswer, Answer.reject] at hstatus
  have hmethods : r.method = "GET" ∨ r.method = "HEAD" := by
    simpa [Route.allows] using hallowed
  have hdownload : download relay now r room item = some a := by
    simpa only [answer, hroute, hmethod, hallowed, if_false, if_true, answerAt] using hanswer
  have hrejected : a ≠ .reject 400 := by
    rintro rfl
    contradiction
  cases hroom : segment? room with
  | none =>
      simp only [download, hroom, Option.some.injEq] at hdownload
      exact absurd hdownload.symm hrejected
  | some roomId =>
      cases hitem : segment? item with
      | none =>
          simp only [download, hroom, hitem, Option.some.injEq] at hdownload
          exact absurd hdownload.symm hrejected
      | some itemId =>
          have hfetches : r.Fetches roomId itemId :=
            ⟨hmethods, room, item, hroute, hroom, hitem⟩
          obtain ⟨key, hkey⟩ := hfetches.exists_readsFrom hanswer hstatus
          rw [hfetches.answer_of_readsFrom hkey provider, Option.some.injEq] at hanswer
          rw [← hanswer] at hstatus ⊢
          obtain ⟨bytes, hbytes, hbody⟩ := exists_of_status_payload hstatus
          exact ⟨roomId, itemId, key, bytes, hfetches, hkey, hbytes, hbody⟩

end

/-! ### Names of files -/

/-- The characters that can stand in a header. -/
def printable (c : Char) : Bool := '\x20' ≤ c && c != '\x7f'

theorem printable_of_isDigit {c : Char} (h : c.isDigit) : printable c = true := by
  rw [Char.isDigit_iff_toNat] at h
  have hne : c ≠ '\x7f' := by
    rintro rfl
    exact absurd h (by decide)
  have hle : '\x20' ≤ c := by
    rw [Char.le_def, UInt32.le_iff_toNat_le]
    exact Nat.le_trans (by decide) h.1
  simp [printable, hne, hle]

theorem all_printable_encode (case : Hex.Case) (bs : Bytes) :
    (Hex.encode case bs).toList.all printable = true := by
  have hdigits : ∀ b, (Hex.digits case b).all printable = true := by
    cases case <;> exact forall_byte (by decide +kernel)
  rw [Hex.encode, String.toList_ofList, List.all_eq_true]
  intro c hc
  obtain ⟨b, -, hc⟩ := List.mem_flatMap.mp hc
  exact List.all_eq_true.mp (hdigits b) c hc

theorem all_printable_timeText (t : Timestamp) : (timeText t).toList.all printable = true := by
  rw [List.all_eq_true]
  intro c hc
  obtain rfl | hdigit := mem_timeText hc
  · decide
  · exact printable_of_isDigit hdigit

/-- The names of items can stand in a header. -/
theorem isSome_disposition?_contentId (time : Timestamp) (device : Uuid) (hash : Bytes) :
    (disposition? (contentId time device hash)).isSome := by
  have hname : (contentId time device hash).toList.all printable = true := by
    have hbar : "_".toList.all printable = true := by decide
    simp only [contentId, Uuid.simple, String.toList_append, List.all_append,
      all_printable_timeText, all_printable_encode, hbar, Bool.and_self]
  have hkept : ((contentId time device hash).toList.filter (· != '"')).all
      (fun c => c == '\t' || ('\x20' ≤ c && c != '\x7f')) = true := by
    rw [List.all_eq_true] at hname ⊢
    intro c hc
    have hc := hname c (List.mem_of_mem_filter hc)
    unfold printable at hc
    rw [hc, Bool.or_true]
  simp only [disposition?, hkept, if_true, Option.isSome_some]

end ClipRelay.Http
