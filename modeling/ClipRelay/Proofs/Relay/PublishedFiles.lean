import ClipRelay.Proofs.Http.Downloads
import ClipRelay.Proofs.Relay.WellFormed

/-!
# ClipRelay.Proofs.Relay.PublishedFiles

Files that were published can be downloaded.

A file is stored under the key of the room that its session was in; whoever asks
for it names a room id, and bears a token where accounts have rooms of their own.
Both come to the same key, for the room id that the item carries names its room
(`readsFrom_of_speaksFor`).  Nothing takes a file away again.  Another of the same
id can come in its place, but ids tell the hashes, so the bytes found are always
some with the hash of the item (`exists_stored`).
-/

namespace ClipRelay

open Relay

/-- A request is made on behalf of whoever sent a posting, where accounts have rooms of
their own. -/
def Http.Request.SpeaksFor (request : Http.Request) (account : AccountSettings) (now : Timestamp)
    (author : Option Principal) : Prop :=
  account.enabled → ∃ p q, request.Bears account now p ∧ author = some q ∧ p.subject = q.subject

namespace Relay

section
variable {account : AccountSettings} {capacity : Nat} {actions : List Action}

/-- Whoever speaks for the author of a posting reads from its room, by its room id. -/
theorem readsFrom_of_speaksFor {post : Posting} {roomId : String}
    (hnames : post.Names account roomId) {now : Timestamp} {request : Http.Request}
    (h : request.SpeaksFor account now post.author) :
    request.ReadsFrom account now roomId post.key := by
  unfold Posting.Names at hnames
  unfold Http.Request.ReadsFrom
  by_cases henabled : account.enabled
  · rw [if_pos henabled] at hnames ⊢
    obtain ⟨author, hauthor, hkey⟩ := hnames
    obtain ⟨p, q, hbears, hq, hsubject⟩ := h henabled
    rw [hauthor, Option.some.injEq] at hq
    exact ⟨p, hbears, by rw [hkey, hsubject, hq]⟩
  · rw [if_neg henabled] at hnames ⊢
    exact hnames

/-- What is stored was posted as a file, under the same key and id. -/
theorem exists_posting_of_stored {key : RoomKey} {itemId : String} {stored : Bytes}
    (h : ((empty account capacity).run actions).files.get? key itemId = some stored) :
    ∃ post ∈ (empty account capacity).postings actions, post.key = key ∧
      ∃ item, post.publication = .file item stored ∧ item.id = itemId := by
  rw [payload_posted] at h
  obtain ⟨post, hpost, hkey, hpayload⟩ := exists_posting_of_mem (List.mem_of_getLast? h)
  exact ⟨post, hpost, hkey, Publication.payload?_eq_some_iff.mp hpayload⟩

/-- Whenever a file was posted, bytes with its hash are stored under its key and id. -/
theorem exists_stored {post : Posting} (hpost : post ∈ (empty account capacity).postings actions)
    {item : HistoryItem} {bytes : Bytes} (hfile : post.publication = .file item bytes) :
    ∃ stored, ((empty account capacity).run actions).files.get? post.key item.id = some stored ∧
      1 ≤ stored.length ∧ stored.length ≤ 10485760 ∧ Sha256.digest stored = item.contentHash := by
  have hmem : bytes ∈ ((empty account capacity).publications post.key actions).filterMap
      (Publication.payload? item.id) :=
    List.mem_filterMap.mpr ⟨_, mem_publications.mpr ⟨post, hpost, rfl, rfl⟩,
      Publication.payload?_eq_some_iff.mpr ⟨item, hfile, rfl⟩⟩
  obtain ⟨stored, hstored⟩ :=
    Option.isSome_iff_exists.mp (List.getLast?_isSome.mpr (List.ne_nil_of_mem hmem))
  rw [← payload_posted] at hstored
  -- What is found may have come later, with another item of the same id.
  obtain ⟨post', hpost', -, item', hfile', hid⟩ := exists_posting_of_stored hstored
  have hwell := wellFormed_of_mem_postings hpost
  have hwell' := wellFormed_of_mem_postings hpost'
  rw [hfile] at hwell
  rw [hfile'] at hwell'
  have hholds := hwell'.2
  refine ⟨stored, hstored, hholds.pos, hholds.le, ?_⟩
  rw [hholds.hash, hwell'.1.toNamed.hash_eq hwell.1.toNamed hid]

end

/-- What is stored under the name of an item is found. -/
theorem payload_of_named {r : Relay} {key : RoomKey} {item : HistoryItem} (h : item.Named)
    {stored : Bytes} (hstored : r.files.get? key item.id = some stored) :
    (Http.payload r key item.id).status = 200 ∧
      (Http.payload r key item.id).body = .bytes stored := by
  have hname := Http.isSome_disposition?_contentId item.time item.origin item.contentHash
  rw [← h.id] at hname
  obtain ⟨d, hd⟩ := Option.isSome_iff_exists.mp hname
  simp only [Http.payload, hstored, hd, and_self]

/-- **Published files can be downloaded**: after any run, let a file item have been
published.  Bytes are stored under its key and id, as many as a file may have and with
the hash of the item.  A `GET` for the percent-encoded room id and item id asks for them;
and whoever asks for them gets them, with a token of the subject that published the item
where accounts have rooms of their own.  Conversely, whatever is downloaded was published
as a file under its id, and under the key that the room id and, in account mode, the
subject of the token give.  And whoever asks for a file there without a token that counts
is unauthorized, unless the token is endless: then the request is dropped. -/
theorem published_file_downloadable (account : AccountSettings) (capacity : Nat)
    (actions : List Action) :
    let r := (empty account capacity).run actions
    let postings := (empty account capacity).postings actions
    (∀ post ∈ postings, ∀ item bytes, post.publication = .file item bytes →
      ∃ stored, r.files.get? post.key item.id = some stored ∧
        1 ≤ stored.length ∧ stored.length ≤ 10485760 ∧
        Sha256.digest stored = item.contentHash ∧
        (∀ request : Http.Request, request.method = "GET" →
          request.target = Http.downloadTarget item.roomId item.id →
          request.Fetches item.roomId item.id) ∧
        ∀ now provider (request : Http.Request), request.Fetches item.roomId item.id →
          request.SpeaksFor account now post.author →
          ∃ answer, Http.answer r now provider request = some answer ∧ answer.status = 200 ∧
            answer.body = .bytes stored) ∧
    (∀ now provider (request : Http.Request) roomSegment itemSegment answer,
      Http.Route.ofPath? request.path = some (.download roomSegment itemSegment) →
      request.method ≠ "OPTIONS" → Http.answer r now provider request = some answer →
      answer.status = 200 →
      ∃ roomId itemId key, request.Fetches roomId itemId ∧
        request.ReadsFrom account now roomId key ∧
        ∃ post ∈ postings, post.key = key ∧ ∃ item bytes,
          post.publication = .file item bytes ∧ item.id = itemId ∧
          answer.body = .bytes bytes) ∧
    (account.enabled → ∀ now provider (request : Http.Request) roomId itemId,
      request.Fetches roomId itemId → (∀ p, ¬request.Bears account now p) →
      (¬request.BearsEndless account →
        ∃ answer, Http.answer r now provider request = some answer ∧ answer.status = 401) ∧
      (request.BearsEndless account → Http.answer r now provider request = none)) := by
  intro r postings
  have hreachable : Reachable account capacity r := .run .empty actions
  have haccount : r.account = account := hreachable.sameSettings.account
  refine ⟨fun post hpost item bytes hfile => ?_, ?_, ?_⟩
  · obtain ⟨stored, hstored, hpos, hle, hhash⟩ := exists_stored hpost hfile
    have hnames := names_of_mem_postings hpost
    have hwell := wellFormed_of_mem_postings hpost
    rw [hfile] at hnames hwell
    have hnamed : item.Named := hwell.1.toNamed
    refine ⟨stored, hstored, hpos, hle, hhash, fun request hmethod htarget => ?_,
      fun now provider request hfetches hspeaks => ?_⟩
    · refine Http.fetches_downloadTarget (fun hempty => ?_) hmethod htarget
      have hblank := isBlank_contentId item.time item.origin item.contentHash
      rw [← hnamed.id, hempty] at hblank
      exact absurd hblank (by decide)
    · have hreads := readsFrom_of_speaksFor hnames hspeaks
      rw [← haccount] at hreads
      exact ⟨_, hfetches.answer_of_readsFrom hreads provider, payload_of_named hnamed hstored⟩
  · intro now provider request roomSegment itemSegment answer hroute hmethod hanswer hstatus
    obtain ⟨roomId, itemId, key, bytes, hfetches, hreads, hstored, hbody⟩ :=
      Http.exists_file_of_status hroute hmethod hanswer hstatus
    rw [haccount] at hreads
    obtain ⟨post, hpost, hkey, item, hfile, hid⟩ := exists_posting_of_stored hstored
    exact ⟨roomId, itemId, key, hfetches, hreads, post, hpost, hkey, item, bytes, hfile, hid, hbody⟩
  · intro henabled now provider request roomId itemId hfetches hnone
    rw [← haccount] at henabled hnone ⊢
    exact hfetches.answer_of_not_bears henabled hnone provider

/-- A file that is published in a room whose id takes encoding can be downloaded. -/
theorem published_file_downloadable_encoded :
    let actions : List Action := [.connect none 8, .call 1 0 (.joinRoom "café/1?" "sesame"),
      .call 1 0 (.publishFile noteFile)]
    let r := (empty {} 10).run actions
    let request : Http.Request :=
      { method := "GET", target := Http.downloadTarget "café/1?" noteId }
    ∃ stored, Sha256.digest stored = Sha256.digest noteFile.bytes ∧ ∀ now provider,
      ∃ answer, Http.answer r now provider request = some answer ∧ answer.status = 200 ∧
        answer.body = .bytes stored := by
  intro actions r request
  obtain ⟨hfiles, -, -⟩ := published_file_downloadable {} 10 actions
  obtain ⟨item, hpostings, hroom, hid, hhash⟩ : ∃ item, (empty {} 10).postings actions =
        [⟨none, .shared "café/1?", .file item noteFile.bytes⟩] ∧
      item.roomId = "café/1?" ∧ item.id = noteId ∧
      item.contentHash = Sha256.digest noteFile.bytes :=
    ⟨_, rfl, rfl, rfl, rfl⟩
  rw [hpostings] at hfiles
  obtain ⟨stored, -, -, -, hstored, htarget, hanswer⟩ :=
    hfiles _ List.mem_cons_self item noteFile.bytes rfl
  rw [hroom, hid] at htarget hanswer
  refine ⟨stored, hstored.trans hhash, fun now provider => ?_⟩
  exact hanswer now provider request (htarget request rfl rfl) fun henabled => by cases henabled

/-- Who asks for a file with an endless token gets no answer, also while it does not count. -/
theorem download_endless_dropped :
    let i := Issuer.ofSettings Issuer.hastyRelay
    let claims := { Issuer.userClaims 9223372036854775807 with notBefore := 4000000000 }
    let request : Http.Request :=
      { method := "GET"
        target := Http.downloadTarget "home" "note"
        headers := [("Authorization", "Bearer " ++ i.written claims)] }
    request.Fetches "home" "note" ∧
      (∀ p, ¬request.Bears Issuer.hastyRelay 1700000000000 p) ∧
      Issuer.verdict 1700000000000 claims = .error .notYetValid ∧
      Http.answer (empty Issuer.hastyRelay 10) 1700000000000 (fun _ => .unreachable) request =
        none := by
  intro i claims request
  have hfetches : request.Fetches "home" "note" :=
    Http.fetches_downloadTarget (by decide) rfl rfl
  have hname : ("Authorization".toLower == "authorization") = true := by decide +kernel
  have hheader : request.textHeader? "authorization" = some ("Bearer " ++ i.written claims) := by
    apply Http.textHeader?_written
    simp only [Http.Request.header?, request, List.find?_cons, hname, Option.map_some]
  have hsigning : i.signingKey ≠ [] := Issuer.signingKey_ne_nil (by decide)
  have hendless : i.Endless (i.written claims) :=
    Issuer.endless_written hsigning rfl rfl (by decide)
  have hcaller : Http.callerOf Issuer.hastyRelay 1700000000000 request = .error none :=
    Http.callerOf_eq_dropped_iff.mpr ⟨_, hheader, hendless⟩
  have henabled : (empty Issuer.hastyRelay 10).account.enabled := rfl
  refine ⟨hfetches, fun p hbears => ?_, by decide,
    hfetches.answer_of_callerOf henabled hcaller fun _ => .unreachable⟩
  rw [Http.callerOf_eq_ok_iff.mpr hbears] at hcaller
  cases hcaller

end Relay

end ClipRelay
