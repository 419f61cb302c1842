import WolfNas.Media.KeySource
import WolfNas.Lib.LetterCase

/-!
# The spellings of a reference

One reference is written in several ways: with a legacy prefix, with the provider in any letter
case and blanks around its parts, or as a bare number.  The normal form takes the prefixes for
what stands directly before the colon, and keeps what follows such a prefix as it is.

## Main definitions

* `ProviderId` — an external id at a provider.
* `Spelling` — a way to write it, and `Spelling.text`, what is written.
* `Spelling.keyProvider`, `Spelling.kept` — the provider that the key names, and the blanks that it
  keeps.
* `KeySettled` — a text whose normal form is its own normal form.

## Main results

* `normalizeIdentityKey_text` — the normal form of a spelling.
* `keys_iff` — the texts whose normal form stays, and the spellings that match each other.
-/

namespace WolfNas

open Text

/-- An external id at a provider. -/
structure ProviderId where
  provider : Text
  external : Text
  provider_ne : provider ≠ []
  provider_trimmed : Trimmed provider
  provider_lower : provider.lower = provider
  provider_colon : ':' ∉ provider
  external_ne : external ≠ []
  external_trimmed : Trimmed external

/-- A way to write a reference. -/
inductive Spelling
  /-- A legacy prefix, and the id. -/
  | legacy (letters : Text)
  /-- The name of the provider with blanks around it, and the id with blanks around it. -/
  | full (lead name gap pad trail : Text)
  /-- The id alone. -/
  | bare

namespace Spelling

/-- What is written. -/
def text (r : ProviderId) : Spelling → Text
  | legacy letters => letters.joinColon r.external
  | full lead name gap pad trail => lead ++ (name ++ gap).joinColon (pad ++ r.external) ++ trail
  | bare => r.external

/-- It is a spelling of the reference. -/
def Of (r : ProviderId) : Spelling → Prop
  | legacy letters => (letters.upper, r.provider) ∈
      [(of "DB", of "douban"), (of "BG", of "bangumi"), (of "TMDB", of "tmdb")]
  | full lead name gap pad trail =>
    (AllBlank lead ∧ AllBlank gap ∧ AllBlank pad ∧ AllBlank trail) ∧ name.lower = r.provider
  | bare => r.provider = of "tmdb" ∧ isDigit r.external = true

/-- The provider that the key names: the names `db` and `bg`, directly before the colon, are
prefixes. -/
def keyProvider (r : ProviderId) : Spelling → Text
  | full _ _ [] _ _ =>
    if r.provider = of "db" then of "douban"
    else if r.provider = of "bg" then of "bangumi"
    else r.provider
  | _ => r.provider

/-- The blanks that the key keeps before the id: those behind a name that is taken for a
prefix. -/
def kept (r : ProviderId) : Spelling → Text
  | full _ name [] pad _ =>
    if r.provider ∈ [of "db", of "bg", of "tmdb"] ∨ name = of "id" then pad else []
  | _ => []

end Spelling

/-- `normalize_identity_key`, on a text. -/
abbrev normalizeText (t : Text) : Text := normalizeIdentityKey (.text t)

/-- A prefix that becomes another provider. -/
def IsRenamed (p : Text) : Prop := p.lower = of "db" ∨ p.lower = of "bg"

instance (p : Text) : Decidable (IsRenamed p) := by unfold IsRenamed; infer_instance

/-- There is no blank behind a prefix that becomes another provider, and none before its colon. -/
def KeySettled (t : Text) : Prop :=
  ':' ∈ t.strip →
    (IsRenamed t.strip.beforeColon → t.strip.afterColon.strip = t.strip.afterColon) ∧
    (IsRenamed t.strip.beforeColon.strip → t.strip.beforeColon.strip = t.strip.beforeColon)

instance (t : Text) : Decidable (KeySettled t) := by unfold KeySettled; infer_instance

/-! ## Normal forms with a colon -/

theorem normalizeText_of_strip {t s : Text} (h : t.strip = s) :
    normalizeText t = normalizeStripped s := by
  rw [normalizeText, normalizeIdentityKey, IdValue.toText, h]

theorem normalizeStripped_join {p e : Text} (hp : ':' ∉ p) :
    normalizeStripped (p.joinColon e) = (providerForm p).joinColon (externalForm p e) := by
  rw [normalizeStripped_of_colon (colon_mem_joinColon p e), beforeColon_joinColon hp,
    afterColon_joinColon hp, normalParts_eq]

theorem joinColon_inj {p q e f : Text} (hp : ':' ∉ p) (hq : ':' ∉ q) :
    p.joinColon e = q.joinColon f ↔ p = q ∧ e = f := by
  constructor
  · intro h
    have hbefore := congrArg beforeColon h
    have hafter := congrArg afterColon h
    rw [beforeColon_joinColon hp, beforeColon_joinColon hq] at hbefore
    rw [afterColon_joinColon hp, afterColon_joinColon hq] at hafter
    exact ⟨hbefore, hafter⟩
  · rintro ⟨rfl, rfl⟩
    rfl

theorem colon_not_mem_providerForm {p : Text} (hp : ':' ∉ p) : ':' ∉ providerForm p := by
  rw [providerForm]
  split_ifs
  · decide
  · decide
  · decide
  · exact hp
  · rw [colon_mem_lower]
    exact fun h => hp (strip_subset h)

/-- The letter case of a prefix does not matter. -/
theorem upper_eq_iff {p q : Text} (hq : q.upper = q) : p.upper = q ↔ p.lower = q.lower := by
  rw [← upper_eq_upper_iff, hq]

/-- Only the prefixes `DB` and `BG` are renamed. -/
theorem providerForm_eq (p : Text) :
    providerForm p = if p.lower = of "db" then of "douban"
      else if p.lower = of "bg" then of "bangumi" else p.strip.lower := by
  have hdb : p.upper = of "DB" ↔ p.lower = of "db" := upper_eq_iff (q := of "DB") (by decide)
  have hbg : p.upper = of "BG" ↔ p.lower = of "bg" := upper_eq_iff (q := of "BG") (by decide)
  have htm : p.upper = of "TMDB" ↔ p.lower = of "tmdb" :=
    upper_eq_iff (q := of "TMDB") (by decide)
  rw [providerForm]
  simp only [hdb, hbg, htm]
  split_ifs with h₁ h₂ h₃ h₄
  · rfl
  · rfl
  · have htrimmed : Trimmed p := trimmed_of_lower (h₃ ▸ by decide)
    rw [strip_of_trimmed htrimmed, h₃]
  · subst h₄
    decide
  · rfl

theorem providerForm_of_isRenamed {p : Text} (h : IsRenamed p) :
    providerForm p = of "douban" ∨ providerForm p = of "bangumi" := by
  rw [providerForm_eq]
  split_ifs with h₁ h₂
  · exact .inl rfl
  · exact .inr rfl
  · exact absurd h (not_or.mpr ⟨h₁, h₂⟩)

theorem providerForm_of_not_isRenamed {p : Text} (h : ¬IsRenamed p) :
    providerForm p = p.strip.lower := by
  obtain ⟨h₁, h₂⟩ := not_or.mp h
  rw [providerForm_eq, if_neg h₁, if_neg h₂]

/-- What follows the name of a provider. -/
theorem externalForm_eq (p e : Text) :
    externalForm p e = if IsRenamed p ∨ p.lower = of "tmdb" ∨ p = of "id" then e else e.strip := by
  have hdb : p.upper = of "DB" ↔ p.lower = of "db" := upper_eq_iff (q := of "DB") (by decide)
  have hbg : p.upper = of "BG" ↔ p.lower = of "bg" := upper_eq_iff (q := of "BG") (by decide)
  have htm : p.upper = of "TMDB" ↔ p.lower = of "tmdb" :=
    upper_eq_iff (q := of "TMDB") (by decide)
  simp only [externalForm, IsRenamed, hdb, hbg, htm, or_assoc]

/-! ## Normal forms of normal forms -/

/-- The provider of a normal form stays where its blanks do not hide a prefix. -/
theorem providerForm_providerForm_iff (p : Text) :
    providerForm (providerForm p) = providerForm p ↔ (IsRenamed p.strip → p.strip = p) := by
  by_cases h : IsRenamed p
  · have hstays : providerForm (providerForm p) = providerForm p := by
      rcases providerForm_of_isRenamed h with h | h
      · rw [h]; decide
      · rw [h]; decide
    have htrimmed : Trimmed p := by
      refine trimmed_of_lower ?_
      rcases h with h | h
      · rw [h]; decide
      · rw [h]; decide
    exact iff_of_true hstays fun _ => strip_of_trimmed htrimmed
  · rw [providerForm_of_not_isRenamed h]
    have hnot : IsRenamed p.strip → p.strip ≠ p := fun hstrip heq => h (heq ▸ hstrip)
    by_cases hstrip : IsRenamed p.strip
    · refine iff_of_false ?_ fun hall => hnot hstrip (hall hstrip)
      rcases hstrip with hstrip | hstrip
      · rw [hstrip]; decide
      · rw [hstrip]; decide
    · refine iff_of_true ?_ fun hcontra => absurd hcontra hstrip
      have hlower : ¬IsRenamed p.strip.lower := by rwa [IsRenamed, lower_lower]
      rw [providerForm_of_not_isRenamed hlower, strip_of_trimmed (trimmed_lower (trimmed_strip p)),
        lower_lower]

/-- The id of a normal form stays where no blank follows a prefix. -/
theorem externalForm_externalForm_iff (p e : Text) :
    externalForm (providerForm p) (externalForm p e) = externalForm p e ↔
      (IsRenamed p → e.strip = e) := by
  by_cases h : IsRenamed p
  · have hraw : externalForm p e = e := by rw [externalForm_eq, if_pos (.inl h)]
    have hstrip : externalForm (providerForm p) e = e.strip := by
      rcases providerForm_of_isRenamed h with h | h
      · rw [h, externalForm_eq, if_neg (by decide)]
      · rw [h, externalForm_eq, if_neg (by decide)]
    rw [hraw, hstrip]
    exact ⟨fun heq _ => heq, fun himp => himp h⟩
  · refine iff_of_true ?_ fun hcontra => absurd hcontra h
    rw [externalForm_eq p]
    split_ifs with hraw
    · -- the name is kept, so its id is kept again
      have hkept : IsRenamed (providerForm p) ∨ (providerForm p).lower = of "tmdb" ∨
          providerForm p = of "id" := by
        rw [providerForm_of_not_isRenamed h]
        rcases hraw with hraw | hraw | rfl
        · exact absurd hraw h
        · have htrimmed : Trimmed p := trimmed_of_lower (hraw ▸ by decide)
          rw [strip_of_trimmed htrimmed, lower_lower]
          exact .inr (.inl hraw)
        · exact .inr (.inr (by decide))
      rw [externalForm_eq, if_pos hkept]
    · rw [externalForm_eq]
      split_ifs
      · rfl
      · exact strip_strip e

theorem trimmed_joinColon {p e : Text} (hp : Trimmed p) (he : ∀ c ∈ e.getLast?, isSpace c = false) :
    Trimmed (p.joinColon e) := by
  constructor
  · cases p with
    | nil =>
      intro c hc
      obtain rfl : ':' = c := by simpa [joinColon] using hc
      decide
    | cons d p => exact hp.1
  · intro c hc
    rw [joinColon, List.getLast?_append_of_ne_nil _ (by simp), List.getLast?_cons] at hc
    cases hlast : e.getLast? with
    | none =>
      obtain rfl : ':' = c := by simpa [hlast] using hc
      decide
    | some d =>
      obtain rfl : d = c := by simpa [hlast] using hc
      exact he d hlast

theorem trimmed_providerForm (p : Text) : Trimmed (providerForm p) := by
  by_cases h : IsRenamed p
  · rcases providerForm_of_isRenamed h with h | h
    · rw [h]; decide
    · rw [h]; decide
  · rw [providerForm_of_not_isRenamed h]
    exact trimmed_lower (trimmed_strip p)

/-- The normal form of a text without a colon. -/
theorem normalizeStripped_of_no_colon {s : Text} (h : ':' ∉ s) :
    normalizeStripped s = if s.isDigit then (of "tmdb").joinColon s else s := by
  have hnot : ∀ q : Text, ':' ∉ q → s.upper.startsWith (q.joinColon []) ≠ true := fun q hq hstart =>
    h ((colon_mem_upper s).mp ((startsWith_colon_iff hq).mp hstart).1)
  have hid : ¬s.startsWith (of "id:") = true := fun hstart =>
    h ((startsWith_colon_iff (q := of "id") (by decide)).mp hstart).1
  by_cases hnil : s = []
  · subst hnil
    rfl
  · have hdb : ¬s.upper.startsWith (of "DB:") = true := hnot (of "DB") (by decide)
    have hbg : ¬s.upper.startsWith (of "BG:") = true := hnot (of "BG") (by decide)
    have htm : ¬s.upper.startsWith (of "TMDB:") = true := hnot (of "TMDB") (by decide)
    rw [normalizeStripped, if_neg hnil, if_neg hdb, if_neg hbg, if_neg htm, if_neg hid, if_neg h]
    rfl

/-- The normal form of a text is normal exactly where no blank stands beside a prefix that is
renamed. -/
theorem normalizeText_normalizeText_iff (t : Text) :
    normalizeText (normalizeText t) = normalizeText t ↔ KeySettled t := by
  have htrimmed : Trimmed t.strip := trimmed_strip t
  rw [KeySettled, normalizeText_of_strip (t := t) rfl]
  by_cases h : ':' ∈ t.strip
  · have hp := colon_not_mem_beforeColon t.strip
    have hlast : ∀ c ∈ (externalForm t.strip.beforeColon t.strip.afterColon).getLast?,
        isSpace c = false := by
      intro c hc
      rw [externalForm_eq] at hc
      split_ifs at hc
      · refine htrimmed.2 c ?_
        rw [← joinColon_parts h, joinColon, List.getLast?_append_of_ne_nil _ (by simp)]
        simp [List.getLast?_cons, Option.mem_def.mp hc]
      · exact (trimmed_strip _).2 c hc
    have hform : normalizeStripped t.strip = (providerForm t.strip.beforeColon).joinColon
        (externalForm t.strip.beforeColon t.strip.afterColon) := by
      rw [normalizeStripped_of_colon h, normalParts_eq]
    have hstrip := strip_of_trimmed
      (trimmed_joinColon (trimmed_providerForm t.strip.beforeColon) hlast)
    have hfirst := colon_not_mem_providerForm hp
    rw [hform, normalizeText_of_strip hstrip, normalizeStripped_join hfirst,
      joinColon_inj (colon_not_mem_providerForm hfirst) hfirst, providerForm_providerForm_iff,
      externalForm_externalForm_iff]
    exact ⟨fun hboth _ => hboth.symm, fun hboth => (hboth h).symm⟩
  · refine iff_of_true ?_ fun hcolon => absurd hcolon h
    rw [normalizeStripped_of_no_colon h]
    split_ifs with hdigit
    · have hstrip := strip_of_trimmed (trimmed_joinColon (p := of "tmdb") (by decide) htrimmed.2)
      rw [normalizeText_of_strip hstrip, normalizeStripped_join (by decide)]
      rfl
    · rw [normalizeText_of_strip (strip_strip t), normalizeStripped_of_no_colon h, if_neg hdigit]

/-! ## Normal forms of spellings -/

namespace Spelling

variable {r : ProviderId}

theorem colon_not_mem_keyProvider (sp : Spelling) : ':' ∉ sp.keyProvider r := by
  cases sp with
  | legacy letters => exact r.provider_colon
  | bare => exact r.provider_colon
  | full lead name gap pad trail =>
    cases gap with
    | nil =>
      rw [keyProvider]
      split_ifs
      · decide
      · decide
      · exact r.provider_colon
    | cons c gap => exact r.provider_colon

/-- A text that ends with blanks is no prefix. -/
theorem not_trimmed_append {name gap : Text} (hgap : AllBlank gap) (hne : gap ≠ []) :
    ¬Trimmed (name ++ gap) := by
  intro h
  have hlast := List.getLast?_eq_getLast_of_ne_nil hne
  have hblank := hgap _ (List.getLast_mem hne)
  have hnot := h.2 (gap.getLast hne) (by rw [List.getLast?_append_of_ne_nil _ hne, hlast]; rfl)
  rw [hblank] at hnot
  exact absurd hnot (by decide)

theorem normalizeText_legacy {letters : Text} (h : (legacy letters).Of r) :
    normalizeText ((legacy letters).text r) = r.provider.joinColon r.external := by
  simp only [Of, List.mem_cons, Prod.mk.injEq, List.not_mem_nil, or_false] at h
  have hlower : (letters.lower = of "db" ∧ r.provider = of "douban") ∨
      (letters.lower = of "bg" ∧ r.provider = of "bangumi") ∨
        (letters.lower = of "tmdb" ∧ r.provider = of "tmdb") := by
    refine h.imp (fun h => ⟨?_, h.2⟩) (Or.imp (fun h => ⟨?_, h.2⟩) fun h => ⟨?_, h.2⟩)
    · exact (upper_eq_iff (q := of "DB") (by decide)).mp h.1
    · exact (upper_eq_iff (q := of "BG") (by decide)).mp h.1
    · exact (upper_eq_iff (q := of "TMDB") (by decide)).mp h.1
  have htrimmed : Trimmed letters := by
    refine trimmed_of_lower ?_
    rcases hlower with ⟨h, -⟩ | ⟨h, -⟩ | ⟨h, -⟩ <;> rw [h] <;> decide
  have hcolon : ':' ∉ letters := by
    rw [← colon_mem_lower]
    rcases hlower with ⟨h, -⟩ | ⟨h, -⟩ | ⟨h, -⟩ <;> rw [h] <;> decide
  have hraw : IsRenamed letters ∨ letters.lower = of "tmdb" ∨ letters = of "id" := by
    rcases hlower with ⟨h, -⟩ | ⟨h, -⟩ | ⟨h, -⟩
    · exact .inl (.inl h)
    · exact .inl (.inr h)
    · exact .inr (.inl h)
  have hprovider : providerForm letters = r.provider := by
    rw [providerForm_eq, strip_of_trimmed htrimmed]
    rcases hlower with ⟨h, hp⟩ | ⟨h, hp⟩ | ⟨h, hp⟩ <;> rw [h, hp] <;> decide
  have hstrip := strip_of_trimmed (trimmed_joinColon htrimmed r.external_trimmed.2)
  rw [text, normalizeText_of_strip hstrip, normalizeStripped_join hcolon, hprovider,
    externalForm_eq, if_pos hraw]

theorem normalizeText_full {lead name gap pad trail : Text}
    (h : (full lead name gap pad trail).Of r) :
    normalizeText ((full lead name gap pad trail).text r) =
      ((full lead name gap pad trail).keyProvider r).joinColon
        ((full lead name gap pad trail).kept r ++ r.external) := by
  obtain ⟨⟨hlead, hgap, hpad, htrail⟩, hname⟩ := h
  have hnil : AllBlank [] := by simp [AllBlank]
  have htrimmed : Trimmed name := trimmed_of_lower (hname ▸ r.provider_trimmed)
  have hne : name ≠ [] := by
    rintro rfl
    exact r.provider_ne hname.symm
  have hcolon : ':' ∉ name ++ gap := by
    intro hmem
    rcases List.mem_append.mp hmem with hmem | hmem
    · exact r.provider_colon (hname ▸ (colon_mem_lower name).mpr hmem)
    · exact absurd (hgap _ hmem) (by decide)
  have hcore : Trimmed ((name ++ gap).joinColon (pad ++ r.external)) := by
    have htext : (name ++ gap).joinColon (pad ++ r.external) =
        name ++ (gap ++ ':' :: pad) ++ r.external := by simp [joinColon]
    rw [htext]
    exact trimmed_append _ htrimmed r.external_trimmed hne r.external_ne
  have hexternal : strip (pad ++ r.external) = r.external := by
    simpa using strip_pad hpad hnil r.external_trimmed
  rw [text, normalizeText_of_strip (strip_pad hlead htrail hcore), normalizeStripped_join hcolon]
  cases gap with
  | nil =>
    -- the name stands directly before the colon
    rw [List.append_nil, providerForm_eq, externalForm_eq, strip_of_trimmed htrimmed, hname,
      hexternal, keyProvider, kept]
    congr 1
    have hkept : (IsRenamed name ∨ r.provider = of "tmdb" ∨ name = of "id") ↔
        (r.provider ∈ [of "db", of "bg", of "tmdb"] ∨ name = of "id") := by
      simp [IsRenamed, hname, or_assoc]
    simp only [hkept]
    split_ifs
    · rfl
    · rfl
  | cons c gap =>
    have hnot : ¬Trimmed (name ++ c :: gap) := not_trimmed_append hgap (by simp)
    have hrenamed : ¬IsRenamed (name ++ c :: gap) := by
      rintro (h | h)
      · exact hnot (trimmed_of_lower (h ▸ by decide))
      · exact hnot (trimmed_of_lower (h ▸ by decide))
    have hraw : ¬(IsRenamed (name ++ c :: gap) ∨ (name ++ c :: gap).lower = of "tmdb" ∨
        name ++ c :: gap = of "id") := by
      rintro (h | h | h)
      · exact hrenamed h
      · exact hnot (trimmed_of_lower (h ▸ by decide))
      · exact hnot (h ▸ by decide)
    have hstrip : strip (name ++ c :: gap) = name := by
      simpa using strip_pad hnil hgap htrimmed
    rw [providerForm_of_not_isRenamed hrenamed, externalForm_eq, if_neg hraw, hstrip, hname,
      hexternal]
    rfl

theorem normalizeText_bare (h : bare.Of r) :
    normalizeText (bare.text r) = r.provider.joinColon r.external := by
  have hcolon : ':' ∉ r.external := by
    intro hmem
    have hall := (Bool.and_eq_true_iff.mp h.2).2
    exact absurd (List.all_eq_true.mp hall _ hmem) (by decide)
  rw [text, normalizeText_of_strip (strip_of_trimmed r.external_trimmed),
    normalizeStripped_of_no_colon hcolon, if_pos h.2, h.1]

/-- The normal form of a spelling: the provider it names, and the id with the blanks that are
kept. -/
theorem normalizeText_text {sp : Spelling} (h : sp.Of r) :
    normalizeText (sp.text r) = (sp.keyProvider r).joinColon (sp.kept r ++ r.external) := by
  cases sp with
  | legacy letters => exact normalizeText_legacy h
  | full lead name gap pad trail => exact normalizeText_full h
  | bare => exact normalizeText_bare h

theorem identityKeysMatch_iff {sp sp' : Spelling} (h : sp.Of r) (h' : sp'.Of r) :
    identityKeysMatch (.text (sp.text r)) (.text (sp'.text r)) = true ↔
      sp.keyProvider r = sp'.keyProvider r ∧ sp.kept r = sp'.kept r := by
  have hform := normalizeText_text h
  have hform' := normalizeText_text h'
  have hne : (sp.keyProvider r).joinColon (sp.kept r ++ r.external) ≠ [] := by simp [joinColon]
  rw [identityKeysMatch]
  simp only [normalizeText] at hform hform'
  rw [hform, hform', Bool.and_eq_true, Bool.not_eq_true', List.isEmpty_eq_false_iff, beq_iff_eq,
    and_iff_right hne, joinColon_inj (colon_not_mem_keyProvider sp) (colon_not_mem_keyProvider sp'),
    List.append_left_inj]

end Spelling

/-- **The normal form of a text is normal** exactly where no blank stands beside a prefix that is
renamed, **and two spellings of a reference match** exactly where their keys name one provider and
keep the same blanks. -/
theorem keys_iff (t : Text) {r : ProviderId} {sp sp' : Spelling} (h : sp.Of r) (h' : sp'.Of r) :
    (normalizeText (normalizeText t) = normalizeText t ↔ KeySettled t) ∧
      (identityKeysMatch (.text (sp.text r)) (.text (sp'.text r)) = true ↔
        sp.keyProvider r = sp'.keyProvider r ∧ sp.kept r = sp'.kept r) :=
  ⟨normalizeText_normalizeText_iff t, Spelling.identityKeysMatch_iff h h'⟩

/-- A work at the TMDB. -/
def tmdbFive : ProviderId where
  provider := of "tmdb"
  external := of "5"
  provider_ne := by decide
  provider_trimmed := by decide
  provider_lower := by decide
  provider_colon := by decide
  external_ne := by decide
  external_trimmed := by decide

/-- The bare number matches the provider in capitals with a blank before the colon. -/
theorem keys_iff_tmdbFive :
    KeySettled (of "TMDB :5") ∧ identityKeysMatch (.text (of "5")) (.text (of "TMDB :5")) = true :=
  have hbare : Spelling.bare.Of tmdbFive := ⟨rfl, by decide⟩
  have hfull : (Spelling.full [] (of "TMDB") (of " ") [] []).Of tmdbFive :=
    ⟨⟨by decide, by decide, by decide, by decide⟩, by decide⟩
  have hkeys := keys_iff (of "TMDB :5") hbare hfull
  ⟨hkeys.1.mp (by decide), hkeys.2.mpr ⟨rfl, rfl⟩⟩

/-- A blank behind the colon stays in the first normal form and goes in the second, and keeps the
spellings of one work apart. -/
theorem blank_behind_colon :
    normalizeText (normalizeText (of "DB: 5")) ≠ normalizeText (of "DB: 5") ∧
      (Spelling.bare.Of tmdbFive ∧ (Spelling.full [] (of "TMDB") [] (of " ") []).Of tmdbFive ∧
        identityKeysMatch (.text (Spelling.bare.text tmdbFive))
          (.text ((Spelling.full [] (of "TMDB") [] (of " ") []).text tmdbFive)) = false) := by
  refine ⟨by decide, ⟨rfl, by decide⟩, ?_, by decide⟩
  exact ⟨⟨by decide, by decide, by decide, by decide⟩, by decide⟩

end WolfNas
