import WolfNas.Brush.Deletions

/-!
# The limit of deletions of a day

A round takes from the torrents that match a rule what is left of the day's limit, and adds it
to the count of the day.  The count is kept in memory: a process that starts again counts from
zero.

## Main definitions

* `BrushChange` — a move of a task, or a start of the process.
* `BrushChange.OnDay`, `BrushChange.OffDay` — a round of the day, and one of another day.

## Main results

* `BrushWatch.handed_le` — what a process hands over on a day is at most the limit.
-/

namespace WolfNas

open Text

namespace BrushTask

variable (s : BrushTask) (r : BrushRound) (torrents : List BrushTorrent)

/-! ## The count of a day -/

/-- The count of a day. -/
def countOn (day : ℕ) : ℕ :=
  match s.dailyDeletes with
  | some (day', count) => if day' = day then count else 0
  | none => 0

/-- A start of the process: `_daily_deletes` is empty. -/
def restart : BrushTask := { s with dailyDeletes := none }

variable {s r torrents}

theorem deletedToday_eq : s.deletedToday r = s.countOn r.today := rfl

theorem round_of_not_found (h : s.found r = none) : s.round r = s := by
  simp [round, h]

/-- A round that finds torrents writes the count where one of them matches a rule. -/
theorem round_dailyDeletes (h : s.found r = some torrents) :
    (s.round r).dailyDeletes = if r.matched torrents = [] then s.dailyDeletes
      else (s.countDeletes r torrents).dailyDeletes := by
  simp only [round, h]
  by_cases hnil : r.matched torrents = []
  · simp [hnil, addUploadCount, dropAbsent]
  · rw [if_neg hnil, if_neg hnil]
    split_ifs
    · rfl
    · rfl

/-- A round of another day leaves nothing counted for this one. -/
theorem countOn_round_of_ne {day : ℕ} (hday : r.today ≠ day) (h : s.countOn day = 0) :
    (s.round r).countOn day = 0 := by
  cases hfound : s.found r with
  | none => rw [round_of_not_found hfound, h]
  | some torrents =>
    rw [countOn, round_dailyDeletes hfound]
    split_ifs with hnil
    · exact h
    · rw [countDeletes]
      cases s.allowance r with
      | none => exact h
      | some left => simp [hday]

/-! ## A round of the day -/

/-- The text is a limit: a number, and not zero. -/
def IsLimit (limit : Text) : Prop := isDigit limit = true ∧ 0 < toNat limit

variable (h : IsLimit r.dailyDeleteLimit)
include h

theorem allowance_of_isLimit :
    s.allowance r = some (toNat r.dailyDeleteLimit - s.countOn r.today) := by
  have hpos : isDigit r.dailyDeleteLimit ∧ 0 < toNat r.dailyDeleteLimit := h
  rw [allowance, if_pos hpos, deletedToday_eq]

theorem submitted_length :
    (s.submitted r torrents).length =
      min (toNat r.dailyDeleteLimit - s.countOn r.today) (r.matchedIds torrents).length := by
  rw [submitted, allowance_of_isLimit h, List.length_take]

/-- A round that finds torrents counts what it hands over. -/
theorem countOn_round (hfound : s.found r = some torrents) :
    (s.round r).countOn r.today = s.countOn r.today + (s.submitted r torrents).length := by
  have hcount : (s.round r).countOn r.today = if r.matched torrents = [] then s.countOn r.today
      else s.countOn r.today + (s.submitted r torrents).length := by
    rw [countOn, round_dailyDeletes hfound]
    split_ifs
    · rfl
    · simp [countDeletes, allowance_of_isLimit h, deletedToday_eq]
  rw [hcount]
  split_ifs with hnil
  · simp [submitted_length h, BrushRound.matchedIds, hnil]
  · rfl

end BrushTask

/-! ## The changes of a task -/

/-- A move of the task, or a start of the process. -/
inductive BrushChange
  | move (m : BrushMove)
  | restart

namespace BrushChange

/-- A round of the change is one of the day, under the limit. -/
def OnDay (day : ℕ) (limit : Text) : BrushChange → Prop
  | move (.round r) => r.today = day ∧ r.dailyDeleteLimit = limit
  | _ => True

/-- A round of the change is one of another day. -/
def OffDay (day : ℕ) : BrushChange → Prop
  | move (.round r) => r.today ≠ day
  | _ => True

/-- The change is a start of the process. -/
def isRestart : BrushChange → Bool
  | restart => true
  | _ => false

end BrushChange

namespace BrushWatch

variable {w : BrushWatch}

/-- One change. -/
def change (w : BrushWatch) : BrushChange → BrushWatch
  | .move m => w.step m
  | .restart => { w with task := w.task.restart }

@[simp]
theorem countOn_add {x : BrushRecord} {day : ℕ} :
    (w.step (.add x)).task.countOn day = w.task.countOn day := by
  simp only [step, BrushTask.insert]
  split_ifs
  · rfl
  · rfl

@[simp]
theorem handed_add {x : BrushRecord} : (w.step (.add x)).handed = w.handed := rfl

@[simp]
theorem countOn_restart {day : ℕ} : (w.change .restart).task.countOn day = 0 := rfl

@[simp]
theorem handed_restart : (w.change .restart).handed = w.handed := rfl

/-- What a round of the day adds to what is handed over, it adds to the count, and the count
stays within the limit. -/
theorem round_counts {r : BrushRound} (h : BrushTask.IsLimit r.dailyDeleteLimit)
    (hle : w.task.countOn r.today ≤ toNat r.dailyDeleteLimit) :
    (w.round r).handed.length + w.task.countOn r.today =
        w.handed.length + (w.round r).task.countOn r.today ∧
      (w.round r).task.countOn r.today ≤ toNat r.dailyDeleteLimit := by
  cases hfound : w.task.found r with
  | none =>
    simp only [round, hfound, BrushTask.round_of_not_found hfound]
    exact ⟨trivial, hle⟩
  | some torrents =>
    have hlength : (w.task.submitted r torrents).length =
        min (toNat r.dailyDeleteLimit - w.task.countOn r.today)
          (r.matchedIds torrents).length := BrushTask.submitted_length h
    simp only [round, hfound, BrushTask.countOn_round h hfound, List.length_append]
    omega

/-- Changes on other days leave nothing counted for the day. -/
theorem countOn_of_offDay {day : ℕ} {changes : List BrushChange}
    (hoff : ∀ c ∈ changes, c.OffDay day) (h : w.task.countOn day = 0) :
    (changes.foldl change w).task.countOn day = 0 := by
  refine Run.invariant (fun w : BrushWatch => w.task.countOn day = 0) h ?_
  intro w hw c hc
  cases c with
  | restart => rfl
  | move m =>
    cases m with
    | add x => simpa [change] using hw
    | round r =>
      have hround : (w.round r).task = w.task.round r := by
        rw [round]
        cases w.task.found r with
        | none => rfl
        | some torrents => rfl
      simp only [change, step, hround]
      exact BrushTask.countOn_round_of_ne (hoff _ hc) hw

/-- Along the changes of a day, what is handed over is bounded by the limit for every process. -/
theorem handed_add_countOn_le {day : ℕ} {limit : Text} (hlimit : BrushTask.IsLimit limit)
    {changes : List BrushChange} (hon : ∀ c ∈ changes, c.OnDay day limit)
    (hle : w.task.countOn day ≤ toNat limit) :
    (changes.foldl change w).handed.length + w.task.countOn day ≤
      w.handed.length + (changes.countP BrushChange.isRestart + 1) * toNat limit := by
  induction changes generalizing w with
  | nil => simpa using hle
  | cons c changes ih =>
    have htail : ∀ c ∈ changes, c.OnDay day limit := fun c hc => hon c (List.mem_cons_of_mem _ hc)
    rw [List.foldl_cons]
    cases c with
    | restart =>
      have hrest := ih (w := w.change .restart) htail (Nat.zero_le _)
      simp only [handed_restart, countOn_restart, List.countP_cons, BrushChange.isRestart,
        if_true, Nat.add_mul] at hrest ⊢
      omega
    | move m =>
      have hmove : (BrushChange.move m :: changes).countP BrushChange.isRestart =
          changes.countP BrushChange.isRestart := by
        simp [BrushChange.isRestart]
      rw [hmove]
      cases m with
      | add x =>
        have hrest := ih (w := w.change (.move (.add x))) htail (by simpa [change] using hle)
        simpa [change] using hrest
      | round r =>
        obtain ⟨rfl, rfl⟩ : r.today = day ∧ r.dailyDeleteLimit = limit :=
          hon _ List.mem_cons_self
        have hcounts := round_counts (w := w) hlimit hle
        have hrest := ih (w := w.change (.move (.round r))) htail hcounts.2
        simp only [change, step] at hrest ⊢
        omega

/-- **What is handed over on a day is at most the limit**, for every process that runs on that
day. -/
theorem handed_le (s : BrushTask) {day : ℕ} {limit : Text} (hlimit : BrushTask.IsLimit limit)
    {earlier changes : List BrushChange} (hoff : ∀ c ∈ earlier, c.OffDay day)
    (hon : ∀ c ∈ changes, c.OnDay day limit) :
    ((earlier ++ changes).foldl change (start s.restart)).handed.length ≤
      (earlier.foldl change (start s.restart)).handed.length +
        (changes.countP BrushChange.isRestart + 1) * toNat limit := by
  have hzero : (earlier.foldl change (start s.restart)).task.countOn day = 0 :=
    countOn_of_offDay hoff rfl
  have hle := handed_add_countOn_le hlimit hon (hzero.trans_le (Nat.zero_le _))
  rw [List.foldl_append]
  omega

/-- A round that matches one torrent, of two or of the one that is left. -/
def matching (id : Text) (limit : Text) : BrushChange :=
  .move (.round {
    reported := some [⟨of "a", true, 5, 3⟩, ⟨of "b", true, 7, 4⟩]
    needDelete := fun t _ => t.id = id
    dailyDeleteLimit := limit })

/-- A round of another day. -/
def otherDay : BrushChange :=
  .move (.round { reported := none, needDelete := fun _ _ => false, today := 1 })

/-- Two rounds of a day with the limit one, after a round of another day. -/
theorem handed_le_twice :
    (([otherDay] ++ [matching (of "a") (of "1"), matching (of "b") (of "1")]).foldl change
          (start twoTorrents.restart)).handed.length ≤ 0 + (0 + 1) * 1 :=
  @handed_le twoTorrents 0 (of "1") ⟨by decide, by decide⟩ _ _
    (by simp [BrushChange.OffDay, otherDay]) (by simp [BrushChange.OnDay, matching])

/-- Under the limit zero both torrents are handed over, and under the limit one both are when the
process starts again in between. -/
theorem handed_beyond_limit :
    (toNat (of "0") < ([matching (of "a") (of "0"), matching (of "b") (of "0")].foldl change
        (start twoTorrents.restart)).handed.length ∧
      ∀ c ∈ [matching (of "a") (of "0"), matching (of "b") (of "0")], c.OnDay 0 (of "0")) ∧
    (toNat (of "1") < ([matching (of "a") (of "1"), .restart, matching (of "b") (of "1")].foldl
        change (start twoTorrents.restart)).handed.length ∧
      ∀ c ∈ [matching (of "a") (of "1"), .restart, matching (of "b") (of "1")],
        c.OnDay 0 (of "1")) := by
  refine ⟨⟨by decide +kernel, ?_⟩, by decide +kernel, ?_⟩
  · simp [BrushChange.OnDay, matching]
  · simp [BrushChange.OnDay, matching]

end BrushWatch

end WolfNas
