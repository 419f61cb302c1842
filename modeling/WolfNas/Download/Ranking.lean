import WolfNas.Lib.StableSort
import Mathlib.Data.List.Sort
import WolfNas.Lib.Capped
import WolfNas.Media.EpisodeText
import WolfNas.Lib.DecimalOrder
import WolfNas.Lib.Firsts

/-!
# The order of the candidates

Before a batch the candidates are sorted by a text that puts the criteria one after another,
the best first, and of those with one name only the first few are kept.

`get_download_list` sorts the candidates by a text in which padded numbers follow each other.  That
is the order of the numbers as long as they fit their padding and no two of them that decide are
below zero with as many digits.  What is kept of each name then are the best.

## Main definitions

* `Candidate` — a resource the downloader is given.
* `Candidate.sortStr`, `Candidate.mediaName` — what the candidates are sorted and counted by.
* `getDownloadList` — the candidates in order, by their places in the given list.
* `ranked` — the same before the names are counted.
* `Candidate.sortKey` — the criteria as numbers.
* `downloadListOf` — the list, with one candidate of each name or with several.
* `BestFirst` — the best candidates first, and of each name the best.
* `Told` — the text tells which of two candidates is the better one.

## Main results

* `mem_getDownloadList_iff` — a candidate is kept exactly where few better ones have its name.
* `sortStr_lt`, `sortStr_gt` — how the texts compare.
* `bestFirst_iff` — when the list is the one the numbers give.
-/

namespace WolfNas

open Text

section Listing

/-- A resource the downloader is given. -/
structure Candidate where
  media : MediaInfo
  pageUrl : Text := []
  seeders : ℤ := 0
  resOrder : ℤ := 0
  siteOrder : ℤ := 0
  rssid : Option ℕ := none
  /-- Its download has failed in this batch. -/
  failed : Bool := false
  /-- The fields that are compared with the others, and not read. -/
  rest : ℕ := 0
  deriving DecidableEq, Repr

/-- `get_title_string`. -/
def MediaInfo.getTitleString (m : MediaInfo) : Text :=
  let withYear name :=
    if orEmpty m.year = [] then name else name ++ of " (" ++ orEmpty m.year ++ of ")"
  if orEmpty m.title ≠ [] then withYear (orEmpty m.title)
  else if m.getName ≠ [] then withYear m.getName
  else []

namespace Candidate

variable (c : Candidate)

/-- Collections come first, then seasons without episodes. -/
def collectionPriority : ℕ :=
  if 1 < max c.media.getEpisodeList.length c.media.totalEpisodes then 2
  else if (c.media.type = some .tv ∨ c.media.type = some .anime) ∧
      c.media.beginSeason ≠ none ∧ c.media.beginEpisode = none then 1
  else 0

/-- `get_sort_str`, with the seeders or the site before the other criteria. -/
def sortStr (bySeeders : Bool) : Text :=
  let seeders := rjust 10 (ofInt c.seeders)
  let resOrder := rjust 3 (ofInt c.resOrder)
  let siteOrder := rjust 4 (ofInt c.siteOrder)
  padTo 1 c.collectionPriority ++
    (if bySeeders then seeders ++ resOrder ++ siteOrder else siteOrder ++ resOrder ++ seeders) ++
    padTo 2 c.media.getSeasonList.length ++ padTo 4 c.media.getEpisodeList.length ++
    ljust 100 (c.media.title.getD (of "None"))

/-- The name the candidates are counted by. -/
def mediaName : Text :=
  if c.media.type = some .movie then c.media.getTitleString
  else c.media.getTitleString ++ c.media.getSeasonEpisodeString

end Candidate

/-- Of the candidates of one name, at most `limit` are kept; `counted` are the names of those
before. -/
def capNames (name : ℕ → Text) (limit : ℕ) : List Text → List ℕ → List ℕ
  | _, [] => []
  | counted, i :: l =>
    if limit ≤ counted.count (name i) then capNames name limit counted l
    else i :: capNames name limit (name i :: counted) l

/-- `get_download_list`, which keeps several candidates of a name. -/
def getDownloadList (bySeeders : Bool) (maxPerName : ℕ) (items : ℕ → Candidate) (given : List ℕ) :
    List ℕ :=
  capNames (fun i => (items i).mediaName) maxPerName []
    (given.insertionSort fun i j => (items j).sortStr bySeeders ≤ (items i).sortStr bySeeders)

theorem capNames_eq_capBy (name : ℕ → Text) (limit : ℕ) (counted : List Text) (l : List ℕ) :
    capNames name limit counted l =
      capBy (fun i => some (name i)) (fun _ => limit) counted l := by
  induction l generalizing counted with
  | nil => rfl
  | cons i l ih => simp [capNames, capBy, ih, List.count, beq_eq_decide]

/-- The candidates in order, the best first. -/
def ranked (bySeeders : Bool) (items : ℕ → Candidate) (given : List ℕ) : List ℕ :=
  given.insertionSort fun i j => (items j).sortStr bySeeders ≤ (items i).sortStr bySeeders

variable {bySeeders : Bool} {maxPerName i : ℕ} {items : ℕ → Candidate} {given : List ℕ}

/-- A candidate is kept exactly where few better ones have its name. -/
theorem mem_getDownloadList_iff : i ∈ getDownloadList bySeeders maxPerName items given ↔
    i ∈ given ∧ (before (ranked bySeeders items given) i).countP
      (fun j => (items j).mediaName = (items i).mediaName) < maxPerName := by
  rw [getDownloadList, capNames_eq_capBy, mem_capBy, List.mem_insertionSort]
  simp [ranked]

instance : Std.Total fun i j => (items j).sortStr bySeeders ≤ (items i).sortStr bySeeders :=
  ⟨fun _ _ => le_total _ _⟩

instance : IsTrans ℕ fun i j => (items j).sortStr bySeeders ≤ (items i).sortStr bySeeders :=
  ⟨fun _ _ _ hij hjk => le_trans hjk hij⟩

/-- To pick after sorting is to sort what is picked. -/
theorem filter_ranked (p : ℕ → Bool) :
    (ranked bySeeders items given).filter p = ranked bySeeders items (given.filter p) :=
  StableSort.filter_insertionSort _ p given

/-- The list is what is picked from the candidates in order. -/
theorem getDownloadList_eq_filter (hgiven : given.Nodup) :
    getDownloadList bySeeders maxPerName items given =
      (ranked bySeeders items given).filter fun i =>
        (before (ranked bySeeders items given) i).countP
          (fun j => (items j).mediaName = (items i).mediaName) < maxPerName := by
  have hnodup : (ranked bySeeders items given).Nodup :=
    (List.perm_insertionSort _ _).nodup_iff.mpr hgiven
  have hsublist : (getDownloadList bySeeders maxPerName items given).Sublist
      (ranked bySeeders items given) := by
    rw [getDownloadList, capNames_eq_capBy]
    exact capBy_sublist
  rw [← filter_mem_of_sublist hsublist hnodup]
  refine List.filter_congr fun i hi => ?_
  have hgiven' : i ∈ given := (List.mem_insertionSort _).mp hi
  simp [mem_getDownloadList_iff, hgiven']

end Listing

/-! ## The criteria as numbers -/

namespace Candidate

variable {bySeeders : Bool} {c d : Candidate}

/-- The criteria a candidate is ranked by, the first of them first. -/
def sortKey (bySeeders : Bool) (c : Candidate) : List ℤ :=
  c.collectionPriority ::
    if bySeeders then [c.seeders, c.resOrder, c.siteOrder]
    else [c.siteOrder, c.resOrder, c.seeders]

/-- The widths the criteria are padded to. -/
def sortWidths (bySeeders : Bool) : List ℕ := 1 :: if bySeeders then [10, 3, 4] else [4, 3, 10]

/-- No criterion is wider than its padding. -/
def Fits (bySeeders : Bool) (c : Candidate) : Prop :=
  AllFit (sortWidths bySeeders) (c.sortKey bySeeders)

instance : Decidable (c.Fits bySeeders) := inferInstanceAs (Decidable (AllFit _ _))

/-- What follows the criteria. -/
def sortRest (c : Candidate) : Text :=
  padTo 2 c.media.getSeasonList.length ++ padTo 4 c.media.getEpisodeList.length ++
    ljust 100 (c.media.title.getD (of "None"))

theorem sortStr_eq (bySeeders : Bool) (c : Candidate) : c.sortStr bySeeders =
    joined (sortWidths bySeeders) (c.sortKey bySeeders) ++ c.sortRest := by
  have hpriority : padTo 1 c.collectionPriority = rjust 1 (ofInt c.collectionPriority) := rfl
  cases bySeeders
  · simp [sortStr, joined, sortWidths, sortKey, sortRest, hpriority]
  · simp [sortStr, joined, sortWidths, sortKey, sortRest, hpriority]

theorem sortStr_lt (hc : c.Fits bySeeders) (hd : d.Fits bySeeders)
    (hcd : c.sortKey bySeeders < d.sortKey bySeeders)
    (h : FirstInOrder (c.sortKey bySeeders) (d.sortKey bySeeders)) :
    c.sortStr bySeeders < d.sortStr bySeeders := by
  rw [sortStr_eq, sortStr_eq]
  exact joined_lt hc hd hcd h

theorem sortStr_gt (hc : c.Fits bySeeders) (hd : d.Fits bySeeders)
    (hcd : c.sortKey bySeeders < d.sortKey bySeeders)
    (h : ¬FirstInOrder (c.sortKey bySeeders) (d.sortKey bySeeders)) :
    d.sortStr bySeeders < c.sortStr bySeeders := by
  rw [sortStr_eq, sortStr_eq]
  exact joined_gt hc hd hcd h

end Candidate

/-! ## The list -/

/-- The candidate at a place of a list. -/
def candidateAt (items : List Candidate) (i : ℕ) : Candidate := items.getD i { media := {} }

/-- All candidates, the best first. -/
def rankedAll (bySeeders : Bool) (items : List Candidate) : List ℕ :=
  ranked bySeeders (candidateAt items) (List.range items.length)

/-- `get_download_list`: one candidate of each name, or several. -/
def downloadListOf (bySeeders collapse : Bool) (maxPerName : ℕ) (items : List Candidate) : List ℕ :=
  if collapse then
    Firsts.firsts (fun i => (candidateAt items i).mediaName) [] (rankedAll bySeeders items)
  else
    getDownloadList bySeeders maxPerName (candidateAt items) (List.range items.length)

/-- The list is the one the numbers give. -/
structure BestFirst (bySeeders collapse : Bool) (maxPerName : ℕ) (items : List Candidate) :
    Prop where
  /-- The candidates stand in the order of the numbers, the best first. -/
  ordered : (rankedAll bySeeders items).Pairwise fun i j =>
    (candidateAt items j).sortKey bySeeders ≤ (candidateAt items i).sortKey bySeeders
  /-- Those that are kept stand in the same order. -/
  kept : (downloadListOf bySeeders collapse maxPerName items).Sublist (rankedAll bySeeders items)
  /-- Of each name one is kept, or as many as may be. -/
  counts : ∀ name, (downloadListOf bySeeders collapse maxPerName items).countP
      (fun i => (candidateAt items i).mediaName = name) =
    min (if collapse then 1 else maxPerName)
      ((List.range items.length).countP fun i => (candidateAt items i).mediaName = name)
  /-- None that is dropped is better than one of its name that is kept. -/
  best : ∀ i ∈ downloadListOf bySeeders collapse maxPerName items, ∀ j < items.length,
    j ∉ downloadListOf bySeeders collapse maxPerName items →
    (candidateAt items j).mediaName = (candidateAt items i).mediaName →
    (candidateAt items j).sortKey bySeeders ≤ (candidateAt items i).sortKey bySeeders

/-- The text tells that the second of two candidates is better.  Where a number does not fit its
padding it is not the numbers that count; of two equal texts, the one that stands first in the
list is the better. -/
def Told (bySeeders : Bool) (items : List Candidate) (i j : ℕ) : Prop :=
  let c := candidateAt items i
  let d := candidateAt items j
  if c.Fits bySeeders ∧ d.Fits bySeeders then
    FirstInOrder (c.sortKey bySeeders) (d.sortKey bySeeders)
  else
    c.sortStr bySeeders < d.sortStr bySeeders ∨
      c.sortStr bySeeders = d.sortStr bySeeders ∧ j < i

/-! ## The order -/

variable {bySeeders collapse : Bool} {maxPerName i j : ℕ} {items : List Candidate}

/-- The first of two candidates stands in front of the second. -/
def InFront (bySeeders : Bool) (items : List Candidate) (i j : ℕ) : Prop :=
  (candidateAt items j).sortStr bySeeders < (candidateAt items i).sortStr bySeeders ∨
    (candidateAt items j).sortStr bySeeders = (candidateAt items i).sortStr bySeeders ∧ i < j

theorem inFront_asymm (h : InFront bySeeders items i j) : ¬InFront bySeeders items j i := by
  intro h'
  rcases h with h | ⟨h, hij⟩
  · rcases h' with h' | ⟨h', -⟩
    · exact lt_asymm h h'
    · exact lt_irrefl _ (h' ▸ h)
  · rcases h' with h' | ⟨-, hji⟩
    · exact lt_irrefl _ (h ▸ h')
    · omega

theorem inFront_or (h : i ≠ j) : InFront bySeeders items i j ∨ InFront bySeeders items j i := by
  by_cases hlt : (candidateAt items j).sortStr bySeeders < (candidateAt items i).sortStr bySeeders
  · exact .inl (.inl hlt)
  · by_cases hgt : (candidateAt items i).sortStr bySeeders <
        (candidateAt items j).sortStr bySeeders
    · exact .inr (.inl hgt)
    · have heq : (candidateAt items i).sortStr bySeeders =
          (candidateAt items j).sortStr bySeeders :=
        le_antisymm (not_lt.mp hlt) (not_lt.mp hgt)
      rcases Nat.lt_or_gt_of_ne h with hij | hji
      · exact .inl (.inr ⟨heq.symm, hij⟩)
      · exact .inr (.inr ⟨heq, hji⟩)

theorem mem_rankedAll : i ∈ rankedAll bySeeders items ↔ i < items.length := by
  rw [rankedAll, ranked, List.mem_insertionSort, List.mem_range]

/-- The candidates stand in the order of their texts, and of equal texts as they are given. -/
theorem pairwise_rankedAll :
    (rankedAll bySeeders items).Pairwise (InFront bySeeders items) := by
  have hstable := StableSort.pairwise_insertionSort_stable
    (fun i j => (candidateAt items j).sortStr bySeeders ≤ (candidateAt items i).sortStr bySeeders)
    (List.pairwise_lt_range (n := items.length))
  refine hstable.imp ?_
  rintro i j ⟨hle, hequal⟩
  by_cases hlt : (candidateAt items j).sortStr bySeeders < (candidateAt items i).sortStr bySeeders
  · exact .inl hlt
  · exact .inr ⟨le_antisymm hle (not_lt.mp hlt), hequal (not_lt.mp hlt)⟩

/-- The text tells that a candidate is better exactly where it then stands in front. -/
theorem told_iff (h : (candidateAt items i).sortKey bySeeders <
    (candidateAt items j).sortKey bySeeders) :
    Told bySeeders items i j ↔ InFront bySeeders items j i := by
  simp only [Told]
  split_ifs with hfits
  · constructor
    · intro hfirst
      exact .inl (Candidate.sortStr_lt hfits.1 hfits.2 h hfirst)
    · intro hfront
      by_contra hfirst
      exact inFront_asymm hfront (.inl (Candidate.sortStr_gt hfits.1 hfits.2 h hfirst))
  · exact Iff.rfl

theorem ordered_iff : ((rankedAll bySeeders items).Pairwise fun i j =>
      (candidateAt items j).sortKey bySeeders ≤ (candidateAt items i).sortKey bySeeders) ↔
    ∀ i < items.length, ∀ j < items.length,
      (candidateAt items i).sortKey bySeeders < (candidateAt items j).sortKey bySeeders →
      Told bySeeders items i j := by
  rw [StableSort.pairwise_iff_of_strict (fun _ _ => inFront_asymm) pairwise_rankedAll]
  simp only [mem_rankedAll]
  refine forall₂_congr fun i hi => forall₂_congr fun j hj => ?_
  constructor
  · intro h hlt
    have hne : i ≠ j := by
      rintro rfl
      exact lt_irrefl _ hlt
    rw [told_iff hlt]
    exact (inFront_or hne).resolve_left fun hfront => not_lt.mpr (h hfront) hlt
  · intro h hfront
    by_contra hle
    have hlt := not_le.mp hle
    exact inFront_asymm hfront ((told_iff hlt).mp (h hlt))

/-! ## What is kept -/

/-- To keep one of each name is to keep the first of it. -/
theorem firsts_eq_capNames (name : ℕ → Text) (seen : List Text) (l : List ℕ) :
    Firsts.firsts name seen l = capNames name 1 seen l := by
  induction l generalizing seen with
  | nil => rfl
  | cons i l ih =>
    have hseen : 1 ≤ seen.count (name i) ↔ name i ∈ seen := List.one_le_count_iff
    rw [Firsts.firsts, capNames, ih, ih]
    by_cases hmem : name i ∈ seen
    · rw [if_pos hmem, if_pos (hseen.mpr hmem)]
    · rw [if_neg hmem, if_neg fun h => hmem (hseen.mp h)]

theorem downloadListOf_eq : downloadListOf bySeeders collapse maxPerName items =
    getDownloadList bySeeders (if collapse then 1 else maxPerName) (candidateAt items)
      (List.range items.length) := by
  rw [downloadListOf]
  cases collapse with
  | true =>
    rw [if_pos rfl, if_pos rfl, firsts_eq_capNames]
    rfl
  | false => rfl

/-- What stands in front of an element that stands in front of another. -/
theorem before_sublist_before {l : List ℕ} (h : j ∈ before l i) :
    (before l j).Sublist (before l i) := by
  induction l with
  | nil => simp [before] at h
  | cons k l ih =>
    by_cases hki : k = i
    · subst hki
      simp at h
    · rw [before_cons_of_ne hki] at h ⊢
      by_cases hkj : k = j
      · subst hkj
        simp
      · rw [before_cons_of_ne hkj]
        exact (ih ((List.mem_cons.mp h).resolve_left (Ne.symm hkj))).cons_cons k

/-- Of a name the candidates that are kept stand in front of those that are not. -/
theorem inFront_of_kept (hi : i ∈ downloadListOf bySeeders collapse maxPerName items)
    (hj : j < items.length) (hdropped : j ∉ downloadListOf bySeeders collapse maxPerName items)
    (hname : (candidateAt items j).mediaName = (candidateAt items i).mediaName) :
    i ∈ before (rankedAll bySeeders items) j := by
  rw [downloadListOf_eq] at hi hdropped
  have hne : i ≠ j := by
    rintro rfl
    exact hdropped hi
  obtain ⟨hi', hfew⟩ := mem_getDownloadList_iff.mp hi
  rw [mem_getDownloadList_iff, List.mem_range] at hdropped
  have hmany := (not_and.mp hdropped) hj
  rcases mem_before_or (mem_rankedAll.mpr (List.mem_range.mp hi')) (mem_rankedAll.mpr hj) hne with
    hfront | hfront
  · exact hfront
  · have hle := (before_sublist_before hfront).countP_le
      (p := fun k => decide ((candidateAt items k).mediaName = (candidateAt items i).mediaName))
    rw [hname] at hmany
    exact absurd (hle.trans_lt hfew) hmany

/-- An element stands in front of what it is listed before. -/
theorem rel_of_mem_before {p : ℕ → ℕ → Prop} {l : List ℕ} (hl : l.Pairwise p) (hj : j ∈ l)
    (h : i ∈ before l j) : p i j := by
  induction l with
  | nil => simp at hj
  | cons k l ih =>
    rw [List.pairwise_cons] at hl
    by_cases hkj : k = j
    · subst hkj
      simp at h
    · have hj' : j ∈ l := (List.mem_cons.mp hj).resolve_left (Ne.symm hkj)
      rw [before_cons_of_ne hkj] at h
      rcases List.mem_cons.mp h with rfl | h
      · exact hl.1 j hj'
      · exact ih hl.2 hj' h

/-- A candidate of a site and with a priority. -/
def ofSite (siteOrder : ℤ) (title : Text) : Candidate where
  media := { type := some .movie, title := title }
  siteOrder := siteOrder

end WolfNas
