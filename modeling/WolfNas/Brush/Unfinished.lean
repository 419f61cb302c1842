import WolfNas.Brush.Adding
import WolfNas.Lib.Run

/-!
# The unfinished torrents of a downloader

A rule bounds the unfinished torrents of the downloader that its task adds to.  The helper counts
them by statistics that may be half a minute old, and that the torrents added since are not in; so
a rule is kept exactly where those, less the ones that are finished since, leave room.

## Main definitions

* `DownloaderMove` — calls of `download_torrent`, statistics read by other checks, and what
  happens to the torrents.
* `BrushHelper.additions` — a torrent that is added under a rule with a bound.
* `BrushDownloader.LeavesRoom`, `BrushHelper.Timely` — statistics that are used still leave room.

## Main results

* `BrushDownloader.counted_act` — what the statistics count, with what came and went since, is
  what there is.
* `BrushHelper.bounded_iff` — no torrent is added beyond the bound of its rule exactly where all
  moves are timely; and then the unfinished torrents are never more than the largest bound.
-/

namespace WolfNas

open Text

/-- What happens: a call, a check that reads the statistics, and a torrent's progress or removal. -/
inductive DownloaderMove
  | call (c : BrushCall)
  | readStats (downloader : Text) (time : ℚ) (answers : Bool)
  | progress (downloader hash : Text) (progress : ℚ)
  | remove (downloader hash : Text)
  deriving DecidableEq

/-- The downloader that is concerned. -/
def DownloaderMove.target : DownloaderMove → Text
  | .call c => c.downloader
  | .readStats downloader _ _ => downloader
  | .progress downloader _ _ => downloader
  | .remove downloader _ => downloader

namespace BrushDownloader

variable {d : BrushDownloader} {c : BrushCall}

/-- What a move does to its downloader. -/
def act (d : BrushDownloader) : DownloaderMove → BrushDownloader
  | .call c => if c.GoesOn then (d.lockedPart c).2 else d
  | .readStats _ time answers => (d.getStats time answers).2
  | .progress _ hash p => d.makesProgress hash p
  | .remove _ hash => d.remove hash

/-- The call brings a torrent that the downloader does not have. -/
def Brings (d : BrushDownloader) (c : BrushCall) : Prop :=
  match c.answer with
  | .id downloadId => downloadId ∉ d.torrents.map ListedTorrent.hash
  | _ => False

instance : Decidable (d.Brings c) := by
  unfold Brings
  split <;> infer_instance

/-- What the statistics count, with what came and went since, is what there is. -/
def Counted (d : BrushDownloader) : Prop :=
  ∀ kept, d.stats = some kept → kept.2.downloading + d.added = d.unfinished + d.gone

/-! ## What the parts of a move leave -/

theorem fresh_eq_some {now : ℚ} {stats : DownloaderStats} (h : d.fresh now = some stats) :
    ∃ time, d.stats = some (time, stats) := by
  simp only [fresh, Option.map_eq_some_iff, Option.filter_eq_some_iff] at h
  obtain ⟨⟨time, kept⟩, ⟨hstats, -⟩, rfl⟩ := h
  exact ⟨time, hstats⟩

theorem torrents_getStats (d : BrushDownloader) (now : ℚ) (answers : Bool) :
    (d.getStats now answers).2.torrents = d.torrents := by
  simp only [getStats]
  split
  · rfl
  · split_ifs <;> rfl

theorem unfinished_getStats (d : BrushDownloader) (now : ℚ) (answers : Bool) :
    (d.getStats now answers).2.unfinished = d.unfinished := by
  rw [unfinished, torrents_getStats, unfinished]

theorem counted_getStats (h : d.Counted) (now : ℚ) (answers : Bool) :
    (d.getStats now answers).2.Counted := by
  simp only [getStats]
  split
  · exact h
  · split_ifs
    · intro kept hkept
      obtain rfl := Option.some.inj hkept
      rfl
    · exact h

/-- The statistics that a call uses: fresh ones, or what there is. -/
theorem getStats_fst {now : ℚ} {answers : Bool} {stats : DownloaderStats}
    (h : (d.getStats now answers).1 = some stats) :
    d.fresh now = some stats ∨ d.fresh now = none ∧ stats.downloading = d.unfinished := by
  simp only [getStats] at h
  split at h
  · next kept hfresh => exact .inl (hfresh.trans h)
  · next hfresh =>
    split_ifs at h
    obtain rfl := Option.some.inj h
    exact .inr ⟨hfresh, rfl⟩

theorem counted_changed (hd : d.Counted) {torrents : List ListedTorrent}
    (h : ({ d with torrents } : BrushDownloader).unfinished ≤ d.unfinished) :
    (d.changed torrents).Counted := by
  intro kept hkept
  have hcount := hd kept hkept
  have hunfinished : (d.changed torrents).unfinished =
      ({ d with torrents } : BrushDownloader).unfinished := rfl
  have hgone : (d.changed torrents).gone =
      d.gone + (d.unfinished - ({ d with torrents } : BrushDownloader).unfinished) := rfl
  have hadded : (d.changed torrents).added = d.added := rfl
  omega

/-- Progress makes no torrent unfinished. -/
theorem unfinished_progress_le (d : BrushDownloader) (hash : Text) (p : ℚ) :
    ({ d with torrents := d.torrents.map fun t =>
        if t.hash = hash then { t with progress := max t.progress p } else t } :
      BrushDownloader).unfinished ≤ d.unfinished := by
  simp only [unfinished, List.countP_map]
  refine List.countP_mono_left ?_
  intro t _ ht
  simp only [Function.comp, decide_eq_true_eq] at ht ⊢
  by_cases hhash : t.hash = hash
  · rw [if_pos hhash] at ht
    exact lt_of_le_of_lt (le_max_left _ _) ht
  · rwa [if_neg hhash] at ht

theorem unfinished_remove_le (d : BrushDownloader) (hash : Text) :
    ({ d with torrents := d.torrents.filter fun t => t.hash ≠ hash } :
      BrushDownloader).unfinished ≤ d.unfinished :=
  List.Sublist.countP_le List.filter_sublist

/-- What `download` brings is counted. -/
theorem download_of_brings (h : d.Brings c) :
    (d.download c).unfinished = d.unfinished + 1 ∧ (d.download c).stats = d.stats ∧
      (d.download c).added = d.added + 1 ∧ (d.download c).gone = d.gone := by
  simp only [Brings] at h
  split at h
  · next downloadId hid =>
    simp only [download, hid, add, if_neg h, unfinished, List.countP_append, and_true]
    have hnew : (ListedTorrent.Unfinished { hash := downloadId, labels := c.labels }) := by
      simp [ListedTorrent.Unfinished]
    simp [hnew]
  · exact h.elim

theorem download_of_not_brings (h : ¬d.Brings c) : d.download c = d := by
  simp only [Brings] at h
  split at h
  · next downloadId hid =>
    simp only [download, hid, add]
    exact if_pos (not_not.mp h)
  · next hno =>
    simp only [download]

theorem counted_download (h : d.Counted) (c : BrushCall) : (d.download c).Counted := by
  by_cases hb : d.Brings c
  · obtain ⟨hunfinished, hstats, hadded, hgone⟩ := download_of_brings hb
    intro kept hkept
    have hcount := h kept (hstats ▸ hkept)
    omega
  · rwa [download_of_not_brings hb]

theorem counted_lockedPart (h : d.Counted) (c : BrushCall) : (d.lockedPart c).2.Counted := by
  rcases d.lockedPart_cases c with ⟨-, he⟩ | ⟨-, he | ⟨stats, bound, -, -, -, he⟩⟩
  · rw [he]
    exact counted_download h c
  · rw [he]
    exact counted_getStats h _ _
  · rw [he]
    exact counted_download (counted_getStats h _ _) c

/-- **What the statistics count**, with what came and went since, is what there is. -/
theorem counted_act (h : d.Counted) (move : DownloaderMove) : (d.act move).Counted := by
  cases move with
  | call c =>
    simp only [act]
    split_ifs
    · exact counted_lockedPart h c
    · exact h
  | readStats downloader time answers => exact counted_getStats h time answers
  | progress downloader hash p => exact counted_changed h (d.unfinished_progress_le hash p)
  | remove downloader hash => exact counted_changed h (d.unfinished_remove_le hash)

/-! ## One call -/

theorem brings_getStats (now : ℚ) (answers : Bool) :
    (d.getStats now answers).2.Brings c ↔ d.Brings c := by
  simp only [Brings, torrents_getStats]

/-- The statistics that the call uses, with what came and went since, leave room under its
bound. -/
def LeavesRoom (d : BrushDownloader) (c : BrushCall) : Prop :=
  ∀ stats ∈ d.fresh c.time, ∀ bound ∈ c.dlcount.asInt, (stats.downloading : ℤ) < bound →
    (stats.downloading + d.added : ℤ) < bound + d.gone

instance : Decidable (d.LeavesRoom c) := by
  unfold LeavesRoom
  infer_instance

/-- A call under a bound that adds a torrent finds room for it exactly where the statistics leave
some. -/
theorem room_iff (hd : d.Counted) (hbounded : c.Bounded) (hadds : (d.lockedPart c).1 = true)
    {bound : ℤ} (hbound : c.dlcount.asInt = some bound) :
    (d.unfinished : ℤ) < bound ↔ d.LeavesRoom c := by
  rcases d.lockedPart_cases c with ⟨hno, -⟩ | ⟨-, he | ⟨stats, k, hstats, hk, hlt, -⟩⟩
  · exact absurd hbounded hno
  · rw [he] at hadds
    cases hadds
  · obtain rfl : k = bound := Option.some.inj (hk.symm.trans hbound)
    simp only [LeavesRoom, hbound, Option.mem_some_iff, forall_eq']
    rcases getStats_fst hstats with hfresh | ⟨hfresh, heq⟩
    · obtain ⟨time, hkept⟩ := fresh_eq_some hfresh
      have hcount := hd _ hkept
      simp only at hcount
      simp only [hfresh, Option.mem_some_iff, forall_eq']
      omega
    · simp [hfresh, ← heq, hlt]

/-- Statistics that leave no room, and yet are below the bound, let the call through. -/
theorem leavesRoom_of_refused (hbounded : c.Bounded) (h : (d.lockedPart c).1 ≠ true) :
    d.LeavesRoom c := by
  intro stats hfresh bound hbound hlt
  have hstats : d.getStats c.time c.lists = (some stats, d) := by
    rw [getStats, Option.mem_def.mp hfresh]
  rw [lockedPart_of_some hbounded hstats hbound, if_neg (not_le.mpr hlt)] at h
  exact absurd rfl h

/-- Torrents become unfinished only where one is added. -/
theorem unfinished_act_le (move : DownloaderMove) : (d.act move).unfinished ≤ d.unfinished ∨
    ∃ c, move = .call c ∧ c.GoesOn ∧ (d.lockedPart c).1 = true ∧ d.Brings c ∧
      (d.act move).unfinished = d.unfinished + 1 := by
  cases move with
  | call c =>
    simp only [act]
    by_cases hgoes : c.GoesOn
    · rw [if_pos hgoes]
      rcases d.lockedPart_cases c with ⟨-, he⟩ | ⟨-, he | ⟨stats, bound, -, -, -, he⟩⟩
      · by_cases hb : d.Brings c
        · refine .inr ⟨c, rfl, hgoes, by rw [he], hb, ?_⟩
          rw [he]
          exact (download_of_brings hb).1
        · left
          rw [he, download_of_not_brings hb]
      · left
        rw [he, unfinished_getStats]
      · by_cases hb : d.Brings c
        · refine .inr ⟨c, rfl, hgoes, by rw [he], hb, ?_⟩
          have hb' := (@brings_getStats d c c.time c.lists).mpr hb
          rw [he, (download_of_brings hb').1, unfinished_getStats]
        · have hb' := mt (@brings_getStats d c c.time c.lists).mp hb
          left
          rw [he, download_of_not_brings hb', unfinished_getStats]
    · left
      rw [if_neg hgoes]
  | readStats downloader time answers => exact .inl (d.unfinished_getStats time answers).le
  | progress downloader hash p => exact .inl (d.unfinished_progress_le hash p)
  | remove downloader hash => exact .inl (d.unfinished_remove_le hash)

end BrushDownloader

/-! ## Runs -/

/-- A torrent that was added under a rule: how many were unfinished, and the bound. -/
structure BrushAddition where
  unfinished : ℕ
  bound : ℤ
  deriving DecidableEq

namespace BrushHelper

variable {s : BrushHelper}

/-- A helper that has not read any statistics, of downloaders that have some torrents. -/
def start (torrents : Text → List ListedTorrent) : BrushHelper :=
  { downloaders := fun id => { torrents := torrents id } }

/-- One move. -/
def step (s : BrushHelper) (move : DownloaderMove) : BrushHelper :=
  match move with
  | .call c => s.downloadTorrent c
  | move => { s with
      downloaders := Function.update s.downloaders move.target
        ((s.downloaders move.target).act move) }

/-- The torrent that a call adds under a rule with a bound. -/
def additions (s : BrushHelper) : DownloaderMove → List BrushAddition
  | .call c =>
    let d := s.downloaders c.downloader
    match c.dlcount.asInt with
    | some bound =>
      if c.GoesOn ∧ c.Bounded ∧ (d.lockedPart c).1 = true ∧ d.Brings c then
        [{ unfinished := d.unfinished, bound }]
      else []
    | none => []
  | _ => []

/-- A call that would add a torrent uses statistics that still leave room. -/
def Timely (s : BrushHelper) : DownloaderMove → Prop
  | .call c =>
    c.GoesOn → c.Bounded → (s.downloaders c.downloader).Brings c →
      (s.downloaders c.downloader).LeavesRoom c
  | _ => True

instance : (move : DownloaderMove) → Decidable (s.Timely move)
  | .call c => by
    unfold Timely
    infer_instance
  | .readStats _ _ _ => isTrue trivial
  | .progress _ _ _ => isTrue trivial
  | .remove _ _ => isTrue trivial

/-- A move concerns one downloader. -/
theorem downloaders_step (s : BrushHelper) (move : DownloaderMove) :
    (s.step move).downloaders =
      Function.update s.downloaders move.target ((s.downloaders move.target).act move) := by
  cases move with
  | call c =>
    simp only [step, downloadTorrent, DownloaderMove.target, BrushDownloader.act]
    by_cases hgoes : c.GoesOn
    · rw [if_pos hgoes, if_pos hgoes]
      split_ifs
      · simp only [record]
        split
        · split_ifs <;> rfl
        · rfl
      · rfl
    · rw [if_neg hgoes, if_neg hgoes, Function.update_eq_self]
  | readStats downloader time answers => rfl
  | progress downloader hash p => rfl
  | remove downloader hash => rfl

/-- The statistics of every downloader are right about what they counted. -/
def Counted (s : BrushHelper) : Prop := ∀ id, (s.downloaders id).Counted

theorem counted_start (torrents : Text → List ListedTorrent) : (start torrents).Counted := by
  intro id kept hkept
  cases hkept

theorem counted_step (h : s.Counted) (move : DownloaderMove) : (s.step move).Counted := by
  intro id
  rw [downloaders_step]
  by_cases hid : id = move.target
  · subst hid
    rw [Function.update_self]
    exact BrushDownloader.counted_act (h _) move
  · rw [Function.update_of_ne hid]
    exact h id

/-- A move adds within its bound exactly where it is timely. -/
theorem additions_iff (h : s.Counted) (move : DownloaderMove) :
    (∀ a ∈ s.additions move, (a.unfinished : ℤ) < a.bound) ↔ s.Timely move := by
  cases move with
  | call c =>
    simp only [additions, Timely]
    cases hbound : c.dlcount.asInt with
    | none => simp [BrushDownloader.LeavesRoom, hbound]
    | some bound =>
      by_cases hall : c.GoesOn ∧ c.Bounded ∧ ((s.downloaders c.downloader).lockedPart c).1 = true ∧
          (s.downloaders c.downloader).Brings c
      · obtain ⟨hgoes, hbounded, hadds, hbrings⟩ := hall
        have hroom := BrushDownloader.room_iff (h c.downloader) hbounded hadds hbound
        simp [hgoes, hbounded, hadds, hbrings, hroom]
      · simp only [if_neg hall, List.not_mem_nil, false_imp_iff, implies_true, true_iff]
        intro hgoes hbounded hbrings
        refine BrushDownloader.leavesRoom_of_refused hbounded ?_
        intro hadds
        exact hall ⟨hgoes, hbounded, hadds, hbrings⟩
  | readStats downloader time answers => simp [additions, Timely]
  | progress downloader hash p => simp [additions, Timely]
  | remove downloader hash => simp [additions, Timely]

/-- All rules for a downloader have a bound, of at most `most`. -/
def BoundedBy (id : Text) (most : ℕ) : DownloaderMove → Prop
  | .call c => c.downloader = id → c.Bounded ∧ ∀ bound ∈ c.dlcount.asInt, bound ≤ most
  | _ => True

/-- A timely move under such rules keeps the unfinished torrents within them. -/
theorem unfinished_step_le {id : Text} {most : ℕ} (hs : s.Counted) {move : DownloaderMove}
    (hmove : BoundedBy id most move) (htimely : s.Timely move)
    (hle : (s.downloaders id).unfinished ≤ most) :
    ((s.step move).downloaders id).unfinished ≤ most := by
  rw [downloaders_step]
  by_cases hid : id = move.target
  · subst hid
    rw [Function.update_self]
    rcases BrushDownloader.unfinished_act_le (d := s.downloaders move.target) move with
      hless | ⟨c, rfl, hgoes, hadds, hbrings, hone⟩
    · exact hless.trans hle
    · obtain ⟨hbounded, hmost⟩ := hmove rfl
      cases hbound : c.dlcount.asInt with
      | none =>
        rcases (s.downloaders c.downloader).lockedPart_cases c with
          ⟨hno, -⟩ | ⟨-, he | ⟨stats, k, -, hk, -, -⟩⟩
        · exact absurd hbounded hno
        · simp only [DownloaderMove.target] at hadds
          rw [he] at hadds
          cases hadds
        · rw [hbound] at hk
          cases hk
      | some bound =>
        have hroom := (BrushDownloader.room_iff (hs c.downloader) hbounded hadds hbound).mpr
          (htimely hgoes hbounded hbrings)
        have hbound' := hmost bound hbound
        simp only [DownloaderMove.target] at hone ⊢
        omega
  · rwa [Function.update_of_ne hid]

/-- No torrent is added under a rule with a bound when as many are unfinished already, exactly
where every call that adds one uses statistics that still leave room.  And then, where all rules
for a downloader have bounds of at most `most`, no more than `most` of its torrents are unfinished
in any state. -/
theorem bounded_iff (torrents : Text → List ListedTorrent) (moves : List DownloaderMove) :
    ((∀ a ∈ Run.trace step additions (start torrents) moves, (a.unfinished : ℤ) < a.bound) ↔
      Run.Along step Timely (start torrents) moves) ∧
    (Run.Along step Timely (start torrents) moves → ∀ id most,
      (∀ move ∈ moves, BoundedBy id most move) →
      ((start torrents).downloaders id).unfinished ≤ most →
      ∀ n, ((Run.stateAt step (start torrents) moves n).downloaders id).unfinished ≤ most) := by
  constructor
  · rw [Run.forall_trace_iff]
    exact Run.along_congr_of_kept Counted (fun s move hs => additions_iff hs move)
      (fun s move hs _ => counted_step hs move) (counted_start torrents)
  · intro htimely id most hmoves hstart
    let kept : BrushHelper → Prop := fun s =>
      s.Counted ∧ (s.downloaders id).unfinished ≤ most
    have hboth : kept (start torrents) ∧
        Run.Along step (fun s move => kept (step s move)) (start torrents) moves := by
      refine ⟨⟨counted_start torrents, hstart⟩, ?_⟩
      refine Run.Along.of_invariant kept ⟨counted_start torrents, hstart⟩
        (htimely.and_mem hmoves) ?_ ?_
      · intro s move hs hm
        exact ⟨counted_step hs.1 move, unfinished_step_le hs.1 hm.2 hm.1 hs.2⟩
      · intro s move hs hm
        exact ⟨counted_step hs.1 move, unfinished_step_le hs.1 hm.2 hm.1 hs.2⟩
    intro n
    exact ((Run.along_step_iff kept).mpr hboth n).2

/-- Two torrents that are added under a bound of one, a second apart. -/
def twoAdds : List DownloaderMove :=
  let call (id : Text) (time : ℚ) : DownloaderMove :=
    .call { taskId := 1, downloader := of "1", item := { enclosure := of "https://pt/" ++ id },
            dlcount := .text (of "1"), time, answer := .id id }
  [call (of "a") 0, call (of "b") 1]

/-- The second one is added while the first one is unfinished. -/
theorem added_at_bound :
    Run.trace step additions (start fun _ => []) twoAdds = [⟨0, 1⟩, ⟨1, 1⟩] := by
  decide +kernel

end BrushHelper

end WolfNas
