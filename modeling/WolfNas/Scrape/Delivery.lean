import WolfNas.Media.EpisodeText
import WolfNas.Lib.Run

/-!
# Every finalised file is announced once

A file in the library is scraped by a queued task, and once that went through the task
publishes what subscriptions and media servers wait for.  A receipt keeps it from doing so
twice: it is claimed before the first event goes out, and its key names the work, the season
and the episodes, not the task.

A task that went through has published its finished event and its episode event exactly once
each, provided that no execution finds the receipt of another task, or breaks off between its
receipt and its last event, or is repeated without a receipt.

## Main definitions

* `FinalizeInfo`, `ScrapeTask`, `BusEvent` — what a task carries, and what it publishes.
* `receiptKey` — `_finalize_receipt_key`.
* `FinalizeState.finalize` — `_finalize`.
* `FinalizeState.step` — an execution of a task, or a duplicate that is finalised at once.
* `FinalizeState.announced` — what was published for a task.
* `Undisturbed` — the condition on one step of the history.
* `ScrapeStep.Completes` — the step is an execution of the task that went through.

## Main results

* `announced_of_completed` — after every history whose steps are undisturbed, every task that
  went through has been announced once.
-/

namespace WolfNas

open Text

/-- The `finalize` payload of a task. -/
structure FinalizeInfo where
  inPath : Text := []
  fileItem : Text := []
  outPath : Text := []
  distPath : Text := []
  retFilePath : Text := []
  fileExt : Text := []
  bluray : Bool := false
  notify : Bool := true
  deriving DecidableEq, Repr

/-- A queued scrape of one file. -/
structure ScrapeTask where
  id : ℕ
  media : MediaInfo
  finalize : Option FinalizeInfo
  deriving DecidableEq, Repr

/-- What is published when a file is finalised. -/
inductive BusEvent
  | subtitleDownload (media : MediaInfo) (file fileExt : Text) (bluray : Bool)
  | transferFinished (inPath file targetPath dest : Text) (media : MediaInfo)
  | episodeTransferred (media : MediaInfo) (season : Text) (episodes : List ℕ)
  deriving DecidableEq, Repr

/-- Where an execution breaks off, by a crash or an exception. -/
inductive Crash
  /-- Nowhere. -/
  | none
  /-- Before the receipt is claimed. -/
  | beforeClaim
  /-- After it is claimed and that many events are published. -/
  | afterEvents (n : ℕ)
  deriving DecidableEq, Repr

/-- The receipts, and what was published, each with the task it was published for. -/
structure FinalizeState where
  receipts : List Text := []
  published : List (Option ScrapeTask × BusEvent) := []
  deriving DecidableEq, Repr

/-- What happens to the service. -/
inductive ScrapeStep
  /-- An execution of a task: whether the scrape went through, whether the item was in the
  library before, whether the receipts can be written, and where it breaks off. -/
  | attempt (task : ScrapeTask) (scraped inLibrary receiptsDown : Bool) (crash : Crash)
  /-- A file that is there already, with its metadata. -/
  | duplicate (media : MediaInfo) (info : Option FinalizeInfo) (inLibrary receiptsDown : Bool)
      (crash : Crash)

/-- The numbers, separated by commas. -/
def commaJoin (ns : List ℕ) : Text := [','].intercalate (ns.map Text.ofNat)

/-- `_finalize_receipt_key`. -/
def receiptKey (m : MediaInfo) : Text :=
  mediaIdentityKey m ++ of "|s" ++ m.getSeasonSeq ++ of "|e" ++ commaJoin m.getEpisodeList

/-- The event of a file that went into the library. -/
def finishedEvent (m : MediaInfo) (info : FinalizeInfo) : BusEvent :=
  .transferFinished info.inPath info.fileItem info.outPath info.distPath m

/-- The event of the episodes that went into the library; none for a film. -/
def episodeEvents (m : MediaInfo) : List BusEvent :=
  if (m.type = some .tv ∨ m.type = some .anime) ∧ m.getEpisodeList ≠ [] then
    [.episodeTransferred m m.getSeasonSeq m.getEpisodeList]
  else []

/-- The event of a file that may need subtitles. -/
def subtitleEvents (m : MediaInfo) (info : FinalizeInfo) (notify : Bool) : List BusEvent :=
  if notify ∧ info.retFilePath ≠ [] then
    [.subtitleDownload m info.retFilePath info.fileExt info.bluray]
  else []

/-- What drives subscriptions and media servers. -/
def progressEvents (m : MediaInfo) (info : FinalizeInfo) : List BusEvent :=
  finishedEvent m info :: episodeEvents m

/-- Everything `_finalize` publishes, in its order. -/
def finalizeEvents (m : MediaInfo) (info : FinalizeInfo) (notify : Bool) : List BusEvent :=
  subtitleEvents m info notify ++ progressEvents m info

namespace FinalizeState

variable (s : FinalizeState)

/-- The part of the events that goes out before the execution breaks off. -/
def reached (events : List BusEvent) : Crash → List BusEvent
  | .none => events
  | .beforeClaim => []
  | .afterEvents n => events.take n

/-- The receipt is refused. -/
def refuses (m : MediaInfo) (receiptsDown : Bool) : Bool :=
  !receiptsDown && s.receipts.contains (receiptKey m)

/-- `_finalize`; where the receipts cannot be written it goes on without one. -/
def finalize (who : Option ScrapeTask) (m : MediaInfo) (info : Option FinalizeInfo)
    (notify : Option Bool) (receiptsDown : Bool) (crash : Crash) : FinalizeState :=
  match info with
  | none => s
  | some info =>
    if crash = .beforeClaim ∨ s.refuses m receiptsDown then s
    else
      { receipts := if receiptsDown then s.receipts else s.receipts ++ [receiptKey m]
        published := s.published ++
          (reached (finalizeEvents m info (notify.getD info.notify)) crash).map (who, ·) }

/-- One step of the service. -/
def step : ScrapeStep → FinalizeState
  | .attempt task scraped inLibrary receiptsDown crash =>
    if !scraped then s
    else s.finalize (some task) task.media task.finalize (some !inLibrary) receiptsDown crash
  | .duplicate media info inLibrary receiptsDown crash =>
    if inLibrary then s else s.finalize none media info none receiptsDown crash

/-- The service after a history. -/
def run (steps : List ScrapeStep) : FinalizeState := steps.foldl step {}

end FinalizeState

/-! ## What is announced -/

/-- The event drives subscriptions and media servers. -/
def BusEvent.isProgress : BusEvent → Bool
  | .subtitleDownload .. => false
  | _ => true

/-- What was published for the task, but for its subtitle event. -/
def FinalizeState.announced (s : FinalizeState) (task : ScrapeTask) : List BusEvent :=
  ((s.published.filter (·.1 = some task)).map Prod.snd).filter BusEvent.isProgress

/-- An execution past its scrape finds no receipt where the task was not announced, and then
publishes everything, or nothing that counts and no receipt either; and it finds its receipt
where the task was announced. -/
def Undisturbed (s : FinalizeState) : ScrapeStep → Prop
  | .attempt task scraped inLibrary receiptsDown crash =>
    ∀ info, scraped → crash ≠ .beforeClaim → task.finalize = some info →
      let events := finalizeEvents task.media info !inLibrary
      let sent := FinalizeState.reached events crash
      (s.announced task = [] → ¬s.refuses task.media receiptsDown ∧
        (sent = events ∨ receiptsDown ∧ sent.filter BusEvent.isProgress = [])) ∧
      (s.announced task ≠ [] → s.refuses task.media receiptsDown)
  | .duplicate .. => True

/-- The step is an execution of the task that went through. -/
def ScrapeStep.Completes (task : ScrapeTask) : ScrapeStep → Prop
  | .attempt t scraped _ _ crash => t = task ∧ scraped ∧ crash = .none
  | .duplicate .. => False

namespace FinalizeState

variable {s : FinalizeState} {task : ScrapeTask} {info : FinalizeInfo}

theorem filter_finalizeEvents (m : MediaInfo) (info : FinalizeInfo) (notify : Bool) :
    (finalizeEvents m info notify).filter BusEvent.isProgress = progressEvents m info := by
  have hsubtitle : (subtitleEvents m info notify).filter BusEvent.isProgress = [] := by
    rw [subtitleEvents]
    split_ifs <;> rfl
  have hprogress : (progressEvents m info).filter BusEvent.isProgress = progressEvents m info := by
    rw [progressEvents, episodeEvents]
    split_ifs <;> rfl
  rw [finalizeEvents, List.filter_append, hsubtitle, hprogress, List.nil_append]

/-- What others publish does not announce the task. -/
theorem announced_append_other {who : Option ScrapeTask} (hwho : who ≠ some task)
    (receipts : List Text) (events : List BusEvent) :
    (⟨receipts, s.published ++ events.map (who, ·)⟩ : FinalizeState).announced task =
      s.announced task := by
  have hnone : (events.map (who, ·)).filter (·.1 = some task) = [] := by
    simp [hwho]
  rw [announced, List.filter_append, hnone, List.append_nil, announced]

theorem announced_append_self (receipts : List Text) (events : List BusEvent) :
    (⟨receipts, s.published ++ events.map (some task, ·)⟩ : FinalizeState).announced task =
      s.announced task ++ events.filter BusEvent.isProgress := by
  have hall : (events.map (some task, ·)).filter (·.1 = some task) =
      events.map (some task, ·) := by
    simp
  have hevents : (events.map (some task, ·)).map Prod.snd = events := by
    rw [List.map_map]
    exact List.map_id events
  rw [announced, List.filter_append, hall, List.map_append, List.filter_append, announced,
    hevents]

/-- Finalising for somebody else does not announce the task. -/
theorem announced_finalize_other {who : Option ScrapeTask} (hwho : who ≠ some task)
    (m : MediaInfo) (info : Option FinalizeInfo) (notify : Option Bool) (receiptsDown : Bool)
    (crash : Crash) :
    (s.finalize who m info notify receiptsDown crash).announced task = s.announced task := by
  cases info with
  | none => rfl
  | some info =>
    rw [finalize]
    split_ifs
    · rfl
    · exact announced_append_other hwho _ _
    · exact announced_append_other hwho _ _

/-- An execution that is refused, or breaks off before, changes nothing. -/
theorem finalize_of_refused {who : Option ScrapeTask} {m : MediaInfo}
    {info : Option FinalizeInfo} {notify : Option Bool} {receiptsDown : Bool} {crash : Crash}
    (h : crash = .beforeClaim ∨ s.refuses m receiptsDown) :
    s.finalize who m info notify receiptsDown crash = s := by
  cases info with
  | none => rfl
  | some info => exact if_pos h

/-- An execution that is not refused announces its task as far as it comes. -/
theorem announced_finalize_self {m : MediaInfo} {notify receiptsDown : Bool} {crash : Crash}
    (hcrash : crash ≠ .beforeClaim) (h : ¬s.refuses m receiptsDown) :
    (s.finalize (some task) m (some info) (some notify) receiptsDown crash).announced task =
      s.announced task ++
        (reached (finalizeEvents m info notify) crash).filter BusEvent.isProgress := by
  have hgoes : ¬(crash = .beforeClaim ∨ s.refuses m receiptsDown) := not_or.mpr ⟨hcrash, h⟩
  rw [finalize, if_neg hgoes, announced_append_self, Option.getD_some]

/-- What holds of a task after an undisturbed history: it was announced once, or not yet. -/
def AnnouncedOnce (s : FinalizeState) (task : ScrapeTask) (info : FinalizeInfo) : Prop :=
  s.announced task = [] ∨ s.announced task = progressEvents task.media info

/-- The step lemma: an undisturbed step announces a task at most once, and an execution of
the task that goes through announces it. -/
theorem announcedOnce_step {i : ScrapeStep} (hinfo : task.finalize = some info)
    (h : s.AnnouncedOnce task info) (hi : Undisturbed s i) :
    (s.step i).AnnouncedOnce task info ∧
      (i.Completes task ∨ s.announced task ≠ [] → (s.step i).announced task ≠ []) := by
  cases i with
  | duplicate media info' inLibrary receiptsDown crash =>
    have hsame : (s.step (.duplicate media info' inLibrary receiptsDown crash)).announced task =
        s.announced task := by
      rw [step]
      split_ifs
      · rfl
      · exact announced_finalize_other (by simp) ..
    rw [AnnouncedOnce, hsame]
    exact ⟨h, fun hor => hor.resolve_left id⟩
  | attempt t scraped inLibrary receiptsDown crash =>
    by_cases ht : t = task
    · subst ht
      cases scraped with
      | false => exact ⟨h, fun hor => hor.resolve_left (by simp [ScrapeStep.Completes])⟩
      | true =>
        have hstep : s.step (.attempt t true inLibrary receiptsDown crash) =
            s.finalize (some t) t.media t.finalize (some !inLibrary) receiptsDown crash := rfl
        by_cases hcrash : crash = .beforeClaim
        · rw [hstep, finalize_of_refused (Or.inl hcrash)]
          refine ⟨h, fun hor => hor.resolve_left ?_⟩
          rintro ⟨-, -, hnone⟩
          rw [hcrash] at hnone
          cases hnone
        obtain ⟨hfresh, hagain⟩ := hi info rfl hcrash hinfo
        by_cases hannounced : s.announced t = []
        · obtain ⟨hrefuses, hsent⟩ := hfresh hannounced
          have hafter : (s.step (.attempt t true inLibrary receiptsDown crash)).announced t =
              (reached (finalizeEvents t.media info !inLibrary) crash).filter
                BusEvent.isProgress := by
            rw [hstep, hinfo, announced_finalize_self hcrash hrefuses, hannounced,
              List.nil_append]
          rcases hsent with hsent | ⟨-, hsent⟩
          · rw [hsent, filter_finalizeEvents] at hafter
            refine ⟨Or.inr hafter, fun _ => ?_⟩
            rw [hafter, progressEvents]
            exact List.cons_ne_nil _ _
          · rw [hsent] at hafter
            refine ⟨Or.inl hafter, ?_⟩
            -- Nothing that counts went out, so the execution did not run to its end.
            rintro (⟨-, -, hnone⟩ | hne)
            · rw [hnone, reached, filter_finalizeEvents, progressEvents] at hsent
              exact absurd hsent (List.cons_ne_nil _ _)
            · exact absurd hannounced hne
        · rw [hstep, finalize_of_refused (Or.inr (hagain hannounced))]
          exact ⟨h, fun _ => hannounced⟩
    · have hsame : (s.step (.attempt t scraped inLibrary receiptsDown crash)).announced task =
          s.announced task := by
        rw [step]
        split_ifs
        · rfl
        · exact announced_finalize_other (by simpa using ht) ..
      rw [AnnouncedOnce, hsame]
      exact ⟨h, fun hor => hor.resolve_left (by simp [ScrapeStep.Completes, ht])⟩

/-- **Every task is announced at most once**, and where it went through exactly once, with its
finished event and the event of exactly its episodes: after every history whose steps are
undisturbed. -/
theorem announced_of_completed (steps : List ScrapeStep)
    (h : Run.Along step Undisturbed {} steps) (n : ℕ) (task : ScrapeTask) (info : FinalizeInfo)
    (hinfo : task.finalize = some info) :
    (run (steps.take n)).AnnouncedOnce task info ∧
      ((∃ i ∈ steps.take n, i.Completes task) →
        (run (steps.take n)).announced task = progressEvents task.media info) := by
  let P : FinalizeState → Prop := fun s => s.AnnouncedOnce task info
  have hstart : P {} := Or.inl rfl
  have honce : (run (steps.take n)).AnnouncedOnce task info :=
    Run.invariant_along P hstart (h.take n) fun s j hs hj => (announcedOnce_step hinfo hs hj).1
  refine ⟨honce, ?_⟩
  rintro ⟨i, hi, hcompletes⟩
  have hannounced : (run (steps.take n)).announced task ≠ [] := by
    refine Run.of_mem_along P (fun s => s.announced task ≠ []) hstart (h.take n) hi ?_ ?_ ?_
    · intro s j hs hj
      exact (announcedOnce_step hinfo hs hj).1
    · intro s hs hj
      exact (announcedOnce_step hinfo hs hj).2 (Or.inl hcompletes)
    · intro s j hs hj hne
      exact (announcedOnce_step hinfo hs hj).2 (Or.inr hne)
  exact honce.resolve_left hannounced

/-- The third episode of a series, and its transfer. -/
def episodeTask (id : ℕ) (file : String) : ScrapeTask where
  id := id
  media :=
    { type := some .tv, tmdbId := .int 603, beginSeason := some 1, beginEpisode := some 3,
      totalEpisodes := 1 }
  finalize := some { inPath := of "/dl", fileItem := of file, outPath := of "/lib/S01E03.mkv" }

/-- A task that is run twice has been announced once. -/
theorem repeated_task_announced :
    (run ([.attempt (episodeTask 1 "a.mkv") true false false .none,
        .attempt (episodeTask 1 "a.mkv") true true false .none].take 2)).announced
      (episodeTask 1 "a.mkv") =
      progressEvents (episodeTask 1 "a.mkv").media
        { inPath := of "/dl", fileItem := of "a.mkv", outPath := of "/lib/S01E03.mkv" } :=
  (announced_of_completed
    [.attempt (episodeTask 1 "a.mkv") true false false .none,
      .attempt (episodeTask 1 "a.mkv") true true false .none]
    ⟨fun _ _ _ _ => ⟨fun _ => ⟨by decide, Or.inl rfl⟩, fun hne => absurd rfl hne⟩,
      fun _ _ _ _ => ⟨fun hnil => absurd hnil (by decide), fun _ => by decide⟩, trivial⟩ 2
    (episodeTask 1 "a.mkv") _ rfl).2 ⟨_, List.mem_cons_self, rfl, rfl, rfl⟩

/-- A second transfer of the same episode, by another task, goes through and is never
announced: it finds the receipt of the first. -/
theorem replaced_episode_unannounced :
    (run [.attempt (episodeTask 1 "a.mkv") true false false .none,
      .attempt (episodeTask 2 "b.mkv") true true false .none]).announced
      (episodeTask 2 "b.mkv") = [] := by
  decide

end FinalizeState

end WolfNas
