import WolfNas.Lib.Keyed
import WolfNas.Subscribe.Rows
import WolfNas.Subscribe.Tenancy

/-!
# The history of finished subscriptions

A finished subscription leaves a row in a history.  The history keeps one row for a work and its
season: whoever finishes the same work again writes over the row that is there.

## Main definitions

* `HistoryRow`, `HistoryScope` — the table.
* `HistorySubject`, `HistoryEntry` — what a subscription is registered with.
* `parseLegacyRef`, `historyAnchor`, `historyScope` — where the entry is anchored.
* `HistorySubject.found`, `HistorySubject.write`, `HistorySubject.upsertRssHistory` — the write.
* `HistorySubject.Refused`, `HistorySubject.Agree` — what two entries of one subscription are
  compared by.

## Main results

* `HistorySubject.upsertRssHistory_eq_iff` — when two entries leave the same history.
-/

namespace WolfNas

open Text

/-! ## The table -/

/-- The columns of a history row that place it among the works. -/
structure HistoryScope where
  identityId : Option Text := none
  anchorProvider : Option Text := none
  anchorExternalId : Option Text := none
  contentProfile : Option Text := none
  provider : Option Text := none
  metadataRef : Option Text := none
  metadataPolicy : Option Text := none
  namingProfile : Option Text := none
  deriving DecidableEq, Repr

/-- The values that are known are written over those that a row has. -/
def HistoryScope.onto (new old : HistoryScope) : HistoryScope where
  identityId := new.identityId.or old.identityId
  anchorProvider := new.anchorProvider.or old.anchorProvider
  anchorExternalId := new.anchorExternalId.or old.anchorExternalId
  contentProfile := new.contentProfile.or old.contentProfile
  provider := new.provider.or old.provider
  metadataRef := new.metadataRef.or old.metadataRef
  metadataPolicy := new.metadataPolicy.or old.metadataPolicy
  namingProfile := new.namingProfile.or old.namingProfile

/-- A row of `SUBSCRIBE_HISTORY`; its `RSSID` is read as a number. -/
structure HistoryRow where
  type : Text
  rssid : ℕ
  name : Text
  year : Text
  tmdbId : Text
  season : Text
  image : Text
  description : Text
  total : ℕ
  start : ℕ
  note : Text := []
  finishTime : Text
  userId : Option ℕ := none
  scope : HistoryScope := {}
  deriving DecidableEq, Repr

/-- What the history is told of the subscription itself.  The numbers of its episodes are zero
where they are not given. -/
structure HistorySubject where
  rssid : ℕ
  name : Text
  year : Text
  tmdbid : Option Text
  season : Text := []
  total : ℕ := 0
  start : ℕ := 0
  userId : Option ℕ
  anchorProvider : Option Text
  anchorExternalId : Option Text
  identityId : Option Text
  provider : Option Text
  metadataRef : Option Text
  metadataPolicy : Option Text
  namingProfile : Option Text
  deriving DecidableEq, Repr

/-- What the history is told of the work that was found. -/
structure HistoryEntry where
  rtype : Text
  image : Option Text
  desc : Option Text
  contentProfile : Option Text
  deriving DecidableEq, Repr

/-! ## The anchor

The registered providers tell the form of their ids; `parse_media_ref` asks them. -/

/-- The providers that are known without a descriptor, by the word in front of the colon. -/
def legacyProvider (word : Text) : Option Text :=
  if word = of "TMDB" then some (of "tmdb")
  else if word = of "DOUBAN" ∨ word = of "DB" then some (of "douban")
  else if word = of "BANGUMI" ∨ word = of "BGM" ∨ word = of "BG" then some (of "bangumi")
  else if word = of "CONTENT_ID" then some (of "content_id")
  else none

/-- `ANCHOR_POLICY`. -/
def anchorPolicy (provider : Text) : Option Text :=
  if provider ∈ ["douban", "tmdb", "bangumi"].map of then some (provider ++ of "_primary") else none

section

variable (parseMediaRef : Text → Option MediaRef)

/-- `parse_legacy_ref`. -/
def parseLegacyRef (rawId : Option Text) : Option MediaRef :=
  let value := (orEmpty rawId).strip
  if value ∈ ["", "0", "None", "null", "NULL"].map of then none
  else if value.upper.startsWith (of "CONTENT_ID:") ∧ value.afterColon.strip ≠ [] then
    some ⟨of "content_id", value.afterColon.strip⟩
  else match parseMediaRef value with
    | some ref => some ref
    | none =>
      if value.isDigit then some ⟨of "tmdb", value⟩
      else if ':' ∈ value ∧ value.afterColon ≠ [] then
        (legacyProvider value.beforeColon.upper).map fun provider => ⟨provider, value.afterColon⟩
      else none

/-- The anchor of an entry: the columns of the subscription, or else its TMDB number. -/
def historyAnchor (s : HistorySubject) : Option MediaRef :=
  let provider := (orEmpty s.anchorProvider).strip
  let external := (orEmpty s.anchorExternalId).strip
  let legacy :=
    if provider = [] ∨ external = [] then parseLegacyRef parseMediaRef s.tmdbid else none
  let anchor : MediaRef := {
    provider := if provider = [] then (legacy.map MediaRef.provider).getD [] else provider
    externalId := if external = [] then (legacy.map MediaRef.externalId).getD [] else external }
  if anchor.provider = [] ∨ anchor.externalId = [] then none else some anchor

/-- The content profile that is registered. -/
def historyProfile (s : HistorySubject) (profile : Option Text) : Option Text :=
  match historyAnchor parseMediaRef s with
  | none => profile
  | some ref =>
    if orEmpty profile ≠ [] then profile
    else if ref.provider = of "bangumi" then some (of "anime") else some (of "default")

/-- `_history_scope` of the repository. -/
def historyScope (s : HistorySubject) (profile : Option Text) : HistoryScope where
  identityId := s.identityId
  anchorProvider := (historyAnchor parseMediaRef s).map MediaRef.provider
  anchorExternalId := (historyAnchor parseMediaRef s).map MediaRef.externalId
  contentProfile := historyProfile parseMediaRef s profile
  provider := orNone (orEmpty s.provider).strip
  metadataRef := s.metadataRef
  metadataPolicy := match historyAnchor parseMediaRef s with
    | none => s.metadataPolicy
    | some ref =>
      if orEmpty s.metadataPolicy ≠ [] then s.metadataPolicy else anchorPolicy ref.provider
  namingProfile := s.namingProfile

/-! ## The write -/

namespace HistorySubject

/-- The row that an entry is written over. -/
def found (s : HistorySubject) (e : HistoryEntry) (row : HistoryRow) : Bool :=
  row.type = e.rtype ∧ (s.userId = none ∨ row.userId = s.userId) ∧ row.season = s.season ∧
    if orEmpty s.tmdbid ≠ [] then row.tmdbId = orEmpty s.tmdbid
    else if orEmpty s.anchorExternalId ≠ [] then
      row.scope.anchorExternalId = s.anchorExternalId ∧
        (orEmpty e.contentProfile = [] ∨ row.scope.contentProfile = e.contentProfile)
    else if orEmpty s.identityId ≠ [] then row.scope.identityId = s.identityId
    else row.name = s.name ∧ row.year = s.year

/-- The row as it is written. -/
def write (now : Text) (s : HistorySubject) (e : HistoryEntry) : Option HistoryRow → HistoryRow
  | some old =>
    { old with
      rssid := s.rssid
      image := orEmpty e.image
      description := trimDesc (orEmpty e.desc)
      total := s.total
      start := s.start
      note := []
      finishTime := now
      scope := (historyScope parseMediaRef s e.contentProfile).onto old.scope }
  | none =>
    { type := e.rtype
      rssid := s.rssid
      name := s.name
      year := s.year
      tmdbId := orEmpty s.tmdbid
      season := s.season
      image := orEmpty e.image
      description := trimDesc (orEmpty e.desc)
      total := s.total
      start := s.start
      finishTime := now
      userId := s.userId
      scope := historyScope parseMediaRef s e.contentProfile }

/-- The history has a row of this subscription. -/
def Recorded (s : HistorySubject) (history : List HistoryRow) : Prop :=
  ∃ row ∈ history, row.rssid = s.rssid

instance (s : HistorySubject) (history : List HistoryRow) : Decidable (s.Recorded history) :=
  inferInstanceAs (Decidable (∃ row ∈ history, row.rssid = s.rssid))

/-- A column that may not be null has no value: the poster, or the TMDB number of a new row. -/
def Refused (s : HistorySubject) (e : HistoryEntry) (history : List HistoryRow) : Prop :=
  ¬s.Recorded history ∧
    (e.image = none ∨ history.findIdx? (s.found e) = none ∧ s.tmdbid = none)

instance (s : HistorySubject) (e : HistoryEntry) (history : List HistoryRow) :
    Decidable (s.Refused e history) :=
  inferInstanceAs (Decidable (_ ∧ _))

/-- `upsert_rss_history`; nothing where the database refuses the row. -/
def upsertRssHistory (now : Text) (s : HistorySubject) (e : HistoryEntry)
    (history : List HistoryRow) : Option (List HistoryRow) :=
  if s.Recorded history then some history
  else if s.Refused e history then none
  else some (Upsert.upsert (s.found e) (s.write parseMediaRef now e) history)

/-! ## Two entries of one subscription -/

/-- Two entries say the same: they find the same row to write over, and their type, their
poster, the description as it is cut off and the profile that stands in the row are the same. -/
structure Agree (s : HistorySubject) (e e' : HistoryEntry) (history : List HistoryRow) :
    Prop where
  found : history.findIdx? (s.found e) = history.findIdx? (s.found e')
  rtype : e.rtype = e'.rtype
  image : e.image = e'.image
  desc : trimDesc (orEmpty e.desc) = trimDesc (orEmpty e'.desc)
  profile : (historyProfile parseMediaRef s e.contentProfile).or
      ((history.find? (s.found e)).bind fun row => row.scope.contentProfile) =
    (historyProfile parseMediaRef s e'.contentProfile).or
      ((history.find? (s.found e)).bind fun row => row.scope.contentProfile)

end HistorySubject

end

namespace HistorySubject

variable {parseMediaRef : Text → Option MediaRef} {now : Text} {s : HistorySubject}
  {e e' : HistoryEntry} {history : List HistoryRow}

theorem upsertRssHistory_of_recorded (h : s.Recorded history) :
    s.upsertRssHistory parseMediaRef now e history = some history := by
  simp [upsertRssHistory, h]

theorem upsertRssHistory_eq_none :
    s.upsertRssHistory parseMediaRef now e history = none ↔ s.Refused e history := by
  unfold upsertRssHistory
  by_cases hrecorded : s.Recorded history
  · simp [hrecorded, Refused]
  · by_cases hrefused : s.Refused e history
    · simp [hrecorded, hrefused]
    · simp [hrecorded, hrefused]

theorem upsertRssHistory_of_accepted (h : ¬s.Recorded history) (hnot : ¬s.Refused e history) :
    s.upsertRssHistory parseMediaRef now e history =
      some (Upsert.upsert (s.found e) (s.write parseMediaRef now e) history) := by
  simp [upsertRssHistory, h, hnot]

@[simp] theorem rssid_write (row : Option HistoryRow) :
    (s.write parseMediaRef now e row).rssid = s.rssid := by
  cases row <;> rfl

theorem rtype_of_found {row : HistoryRow} (h : s.found e row = true) : row.type = e.rtype := by
  simp only [found, decide_eq_true_eq] at h
  exact h.1

/-- Two entries of a subscription without a row leave the same row where they agree. -/
theorem write_eq_iff {row : Option HistoryRow} (hrow : ∀ r ∈ row, e.rtype = e'.rtype)
    (himage : e.image ≠ none) (himage' : e'.image ≠ none) :
    s.write parseMediaRef now e row = s.write parseMediaRef now e' row ↔
      e.rtype = e'.rtype ∧ e.image = e'.image ∧
        trimDesc (orEmpty e.desc) = trimDesc (orEmpty e'.desc) ∧
        (historyProfile parseMediaRef s e.contentProfile).or
            (row.bind fun r => r.scope.contentProfile) =
          (historyProfile parseMediaRef s e'.contentProfile).or
            (row.bind fun r => r.scope.contentProfile) := by
  obtain ⟨image, himage⟩ := Option.ne_none_iff_exists'.mp himage
  obtain ⟨image', himage'⟩ := Option.ne_none_iff_exists'.mp himage'
  cases row with
  | none => simp [write, historyScope, himage, himage', orEmpty]
  | some r =>
    have hrtype := hrow r rfl
    simp [write, historyScope, HistoryScope.onto, himage, himage', orEmpty, hrtype]

/-- Entries that agree are refused together. -/
theorem Agree.refused_iff (h : s.Agree parseMediaRef e e' history) :
    s.Refused e history ↔ s.Refused e' history := by
  rw [Refused, Refused, h.found, h.image]

/-- The rows found by two entries have the type of both. -/
theorem rtype_eq_of_found (h : history.findIdx? (s.found e) = history.findIdx? (s.found e'))
    {row : HistoryRow} (hrow : history.find? (s.found e) = some row) : e.rtype = e'.rtype := by
  have hrow' : history.find? (s.found e') = some row := by
    rw [List.find?_eq_bind_findIdx?_getElem?, ← h, ← List.find?_eq_bind_findIdx?_getElem?,
      hrow]
  rw [← rtype_of_found (List.find?_some hrow), ← rtype_of_found (List.find?_some hrow')]

/-- Two entries that are accepted leave the same history where they agree. -/
theorem upsertRssHistory_eq_iff_agree (hrecorded : ¬s.Recorded history)
    (haccepted : ¬s.Refused e history) (haccepted' : ¬s.Refused e' history) :
    s.upsertRssHistory parseMediaRef now e history =
        s.upsertRssHistory parseMediaRef now e' history ↔
      s.Agree parseMediaRef e e' history := by
  have hfresh : ∀ row ∈ history, ¬row.rssid = s.rssid := by
    intro row hrow h
    exact hrecorded ⟨row, hrow, h⟩
  have himage : e.image ≠ none := fun h => haccepted ⟨hrecorded, .inl h⟩
  have himage' : e'.image ≠ none := fun h => haccepted' ⟨hrecorded, .inl h⟩
  have heq : Upsert.upsert (s.found e) (s.write parseMediaRef now e) history =
        Upsert.upsert (s.found e') (s.write parseMediaRef now e') history ↔ _ :=
    Upsert.upsert_eq_iff hfresh rssid_write
  rw [upsertRssHistory_of_accepted hrecorded haccepted,
    upsertRssHistory_of_accepted hrecorded haccepted', Option.some.injEq, heq]
  constructor
  · intro ⟨hplace, hwritten⟩
    have hrtype : ∀ row ∈ history.find? (s.found e), e.rtype = e'.rtype :=
      fun row hrow => rtype_eq_of_found hplace hrow
    obtain ⟨h₁, h₂, h₃, h₄⟩ := (write_eq_iff hrtype himage himage').mp hwritten
    exact ⟨hplace, h₁, h₂, h₃, h₄⟩
  · intro h
    exact ⟨h.found, (write_eq_iff (fun _ _ => h.rtype) himage himage').mpr
      ⟨h.rtype, h.image, h.desc, h.profile⟩⟩

/-- Two entries of a subscription leave the same history where it has a row already, where the
database refuses both, or where they agree. -/
theorem upsertRssHistory_eq_iff :
    s.upsertRssHistory parseMediaRef now e history =
        s.upsertRssHistory parseMediaRef now e' history ↔
      s.Recorded history ∨ (s.Refused e history ∧ s.Refused e' history) ∨
        s.Agree parseMediaRef e e' history := by
  by_cases hrecorded : s.Recorded history
  · simp [upsertRssHistory_of_recorded hrecorded, hrecorded]
  by_cases hrefused : s.Refused e history
  · have hnone : s.upsertRssHistory parseMediaRef now e history = none :=
      upsertRssHistory_eq_none.mpr hrefused
    rw [hnone, eq_comm, upsertRssHistory_eq_none]
    refine ⟨fun h => .inr (.inl ⟨hrefused, h⟩), ?_⟩
    rintro (h | h | h)
    · exact absurd h hrecorded
    · exact h.2
    · exact h.refused_iff.mp hrefused
  by_cases hrefused' : s.Refused e' history
  · have hnone : s.upsertRssHistory parseMediaRef now e' history = none :=
      upsertRssHistory_eq_none.mpr hrefused'
    rw [hnone, upsertRssHistory_eq_none]
    refine ⟨fun h => absurd h hrefused, ?_⟩
    rintro (h | h | h)
    · exact absurd h hrecorded
    · exact h.1
    · exact h.refused_iff.mpr hrefused'
  · rw [upsertRssHistory_eq_iff_agree hrecorded hrefused hrefused']
    simp [hrecorded, hrefused]

end HistorySubject

end WolfNas
