import WolfNas.Media.Ref

/-!
# The fields a key is read from

`mediaSeriesScopeKey` has four sources in order of preference: the series key, the identity,
the reference, and the raw TMDB id.  Two keys match where their normal forms agree, and this
module says what that means in terms of the sources.

## Main definitions

* `KeySource`, `keySource` — the source a work's key is read from.
* `KeySource.normalForm` — the normal form of the key read from a source.
* `seriesForm` — the normal form of a series key under a season.
* `SameKey` — when two sources lead to matching keys, case by case.

## Main results

* `normalizeIdentityKey_scopeKey` — the normal form of a work's key is that of its source.
* `normalForm_eq_iff` — two sources lead to matching keys exactly in the cases of `SameKey`.
-/

namespace WolfNas

open Text

/-- The source of a key. -/
inductive KeySource
  /-- A series key, which is used together with a season. -/
  | series (key : Text)
  /-- An identity. -/
  | identity (id : Text)
  /-- A reference `provider:id`, or a raw id that is no reference. -/
  | reference (text : Text)
  deriving DecidableEq, Repr

/-- The source that `mediaSeriesScopeKey` reads a work's key from. -/
def keySource (m : MediaInfo) : KeySource :=
  if (orEmpty m.seriesKey).strip ≠ [] then .series (orEmpty m.seriesKey).strip
  else if (orEmpty m.identityId).strip ≠ [] then .identity (orEmpty m.identityId).strip
  else match m.getMediaRef with
    | some ref => .reference (ref.provider.joinColon ref.externalId)
    | none => .reference m.tmdbId.toText

/-! ## Series keys under a season -/

/-- The normal form of a provider. -/
def providerForm (p : Text) : Text :=
  if p.upper = of "DB" then of "douban"
  else if p.upper = of "BG" then of "bangumi"
  else if p.upper = of "TMDB" then of "tmdb"
  else if p = of "id" then p
  else p.strip.lower

/-- The normal form of the id that follows a provider. -/
def externalForm (p e : Text) : Text :=
  if p.upper = of "DB" ∨ p.upper = of "BG" ∨ p.upper = of "TMDB" ∨ p = of "id" then e else e.strip

theorem normalParts_eq (p e : Text) :
    normalParts p e = (providerForm p).joinColon (externalForm p e) := by
  rw [normalParts, providerForm, externalForm]
  split_ifs <;> simp_all

/-- The normal form of a series key under a season: a series key with a colon is a reference
of its own, and one without stands where a provider stands. -/
def seriesForm (x : Text) : Text :=
  if ':' ∈ x then normalizeIdentityKey (.text x) else providerForm x

/-- The season as it is appended to a series key. -/
def seasonSuffix (n : ℕ) : Text := 'S' :: pad2 n

theorem isSpace_seasonSuffix {n : ℕ} {c : Char} (h : c ∈ seasonSuffix n) : isSpace c = false := by
  rcases List.mem_cons.mp h with rfl | h
  · decide
  · exact isSpace_of_isDigit (isDigit_of_mem_pad2 h)

theorem trimmed_seasonSuffix (n : ℕ) : Trimmed (seasonSuffix n) :=
  trimmed_of_forall fun _ => isSpace_seasonSuffix

private theorem trimmed_colon_seasonSuffix (n : ℕ) : Trimmed (':' :: seasonSuffix n) := by
  refine trimmed_of_forall fun c hc => ?_
  rcases List.mem_cons.mp hc with rfl | hc
  · decide
  · exact isSpace_seasonSuffix hc

/-- Appending a season to an id commutes with taking its normal form. -/
theorem externalForm_joinColon {p e : Text} (n : ℕ) (he : ∀ c ∈ e.getLast?, isSpace c = false) :
    externalForm p (e.joinColon (seasonSuffix n)) =
      (externalForm p e).joinColon (seasonSuffix n) := by
  unfold externalForm
  split_ifs
  · rfl
  · rw [joinColon, strip_append (trimmed_colon_seasonSuffix n) (by simp), strip_of_getLast he]
    rfl

/-- **A series key under a season** normalises to the series key's own form under that
season. -/
theorem normalizeIdentityKey_series {x : Text} (n : ℕ) (hx : Trimmed x) (hne : x ≠ []) :
    normalizeIdentityKey (.text (x.joinColon (seasonSuffix n))) =
      (seriesForm x).joinColon (seasonSuffix n) := by
  have hdrop : x.dropWhile isSpace = x := by
    obtain ⟨c, r, rfl⟩ := List.exists_cons_of_ne_nil hne
    have hc : isSpace c = false := hx.1 c rfl
    simp [hc]
  have hstrip : (x.joinColon (seasonSuffix n)).strip = x.joinColon (seasonSuffix n) := by
    rw [joinColon, strip_append (trimmed_colon_seasonSuffix n) (by simp), hdrop]
  rw [normalizeIdentityKey, IdValue.toText, hstrip,
    normalizeStripped_of_colon (colon_mem_joinColon _ _)]
  rw [seriesForm]
  split_ifs with hcolon
  · -- The season joins the id behind the first colon.
    have hparts : x.joinColon (seasonSuffix n) =
        x.beforeColon.joinColon (x.afterColon.joinColon (seasonSuffix n)) := by
      rw [← joinColon_joinColon, joinColon_parts hcolon]
    have hbefore := colon_not_mem_beforeColon x
    have hlast : ∀ c ∈ x.afterColon.getLast?, isSpace c = false := by
      intro c hc
      refine hx.2 c ?_
      rw [← joinColon_parts hcolon, joinColon, List.getLast?_append]
      simp [List.getLast?_cons, Option.mem_def.mp hc]
    rw [hparts, beforeColon_joinColon hbefore, afterColon_joinColon hbefore, normalParts_eq,
      externalForm_joinColon n hlast, normalizeIdentityKey, IdValue.toText, strip_of_trimmed hx,
      normalizeStripped_of_colon hcolon, normalParts_eq, joinColon_joinColon]
  · -- The series key stands where the provider does.
    rw [beforeColon_joinColon hcolon, afterColon_joinColon hcolon, normalParts_eq]
    rw [externalForm]
    rw [strip_of_trimmed (trimmed_seasonSuffix n), ite_self]

/-! ## Keys by their source -/

/-- The normal form of the key read from a source, for an item of season `n`. -/
def KeySource.normalForm (n : ℕ) : KeySource → Text
  | .series x => (seriesForm x).joinColon (seasonSuffix n)
  | .identity i => of "id:" ++ i
  | .reference t => normalizeIdentityKey (.text (normalizeIdentityKey (.text t)))

/-- **The normal form of a work's key** is the one of the source it is read from. -/
theorem normalizeIdentityKey_scopeKey {m : MediaInfo} {n : ℕ} (hn : m.seasonSeq = some n) :
    normalizeIdentityKey (.text (mediaSeriesScopeKey m)) = (keySource m).normalForm n := by
  simp only [mediaSeriesScopeKey, keySource, hn]
  by_cases hseries : (orEmpty m.seriesKey).strip = []
  · rw [if_pos hseries, if_neg (not_not.mpr hseries)]
    by_cases hid : (orEmpty m.identityId).strip = []
    · rw [mediaIdentityKey, if_neg (not_not.mpr hid), if_neg (not_not.mpr hid)]
      cases m.getMediaRef with
      | some ref => rfl
      | none => simp [KeySource.normalForm, normalizeIdentityKey, IdValue.toText]
    · rw [normalizeIdentityKey_mediaIdentityKey_of_identity hid, if_pos hid]
      rfl
  · rw [if_neg hseries, if_pos hseries]
    exact normalizeIdentityKey_series n (trimmed_strip _) hseries

/-- When two sources lead to matching keys, for one item of season `n`.

Two series keys, two identities and two references are compared with each other; a key of
one kind matches a key of another only where it happens to be spelled like it. -/
def SameKey (n : ℕ) : KeySource → KeySource → Prop
  | .series x, .series y => seriesForm x = seriesForm y
  | .identity i, .identity j => i = j
  | .reference t, .reference u =>
    identityKeysMatch (.text (normalizeIdentityKey (.text t)))
      (.text (normalizeIdentityKey (.text u))) = true
  | .series x, .identity i | .identity i, .series x =>
    (seriesForm x).joinColon (seasonSuffix n) = of "id:" ++ i
  | .series x, .reference t | .reference t, .series x =>
    (seriesForm x).joinColon (seasonSuffix n) =
      normalizeIdentityKey (.text (normalizeIdentityKey (.text t)))
  | .identity i, .reference t | .reference t, .identity i =>
    of "id:" ++ i = normalizeIdentityKey (.text (normalizeIdentityKey (.text t)))

instance (n : ℕ) (a b : KeySource) : Decidable (SameKey n a b) := by
  cases a <;> cases b <;> (unfold SameKey; infer_instance)

/-- **Two sources lead to matching keys** exactly in the cases of `SameKey`. -/
theorem normalForm_eq_iff (n : ℕ) (a b : KeySource) :
    (a.normalForm n ≠ [] ∧ a.normalForm n = b.normalForm n) ↔ SameKey n a b := by
  have hseries : ∀ x : Text, (seriesForm x).joinColon (seasonSuffix n) ≠ [] := fun x =>
    List.ne_nil_of_mem (colon_mem_joinColon _ _)
  have hid : ∀ i : Text, of "id:" ++ i ≠ [] := fun i => by simp [of]
  cases a with
  | series x =>
    cases b with
    | series y => simp [KeySource.normalForm, SameKey, hseries, joinColon_right_inj]
    | identity j => simp [KeySource.normalForm, SameKey, hseries]
    | reference u => simp [KeySource.normalForm, SameKey, hseries]
  | identity i =>
    cases b with
    | series y =>
      simp only [KeySource.normalForm, SameKey]
      exact ⟨fun h => h.2.symm, fun h => ⟨hid i, h.symm⟩⟩
    | identity j => simp [KeySource.normalForm, SameKey]
    | reference u => simp [KeySource.normalForm, SameKey]
  | reference t =>
    cases b with
    | series y =>
      simp only [KeySource.normalForm, SameKey]
      exact ⟨fun h => h.2.symm, fun h => ⟨h ▸ hseries y, h.symm⟩⟩
    | identity j =>
      simp only [KeySource.normalForm, SameKey]
      exact ⟨fun h => h.2.symm, fun h => ⟨h ▸ hid j, h.symm⟩⟩
    | reference u => simp [KeySource.normalForm, SameKey, identityKeysMatch]

/-- Two works of one season, whatever their keys are read from, have matching keys exactly
where their sources do. -/
theorem identityKeysMatch_scopeKey_iff {m m' : MediaInfo} {n : ℕ} {key : IdValue}
    (hkey : normalizeIdentityKey key = normalizeIdentityKey (.text (mediaSeriesScopeKey m)))
    (hn : m.seasonSeq = some n) (hn' : m'.seasonSeq = some n) :
    identityKeysMatch key (.text (mediaSeriesScopeKey m')) = true ↔
      SameKey n (keySource m) (keySource m') := by
  rw [← normalForm_eq_iff, ← normalizeIdentityKey_scopeKey hn, ← normalizeIdentityKey_scopeKey hn',
    identityKeysMatch, hkey]
  simp

end WolfNas
