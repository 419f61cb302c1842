import WolfNas.Rename.Forward

/-!
# What else lies in the directories

When all items of a directory are done and no media file is left in it, the files that are left
follow the first of these items, which remembers them behind its own moves.  They were not moved
before: what was moved lies beside a main file.

## Main definitions

* `Grouped` — the items of each directory, as their rows say.
* `Swept` — the invariant between two directories.

## Main results

* `grouped_directoryGroups` — what the groups of a finished job are.
* `RenameEnv.says_finish` — what the job remembers after the directories are handled.
-/

namespace WolfNas

open Program

variable {S : Type} [DecidableEq S]

/-! ## Rows of items that are done -/

section Settled

variable {d d' : List (Trail S)} {e e' : Trail S} {y : RenameItem}

omit [DecidableEq S] in
theorem settled_middle (hne : ∀ c ∈ d, c.item.id ≠ y.id) (he : e.item.id = y.id) :
    settled (d ++ e :: d') y = e.row := by
  rw [settled, List.find?_append, List.find?_eq_none.mpr (by simpa using hne)]
  simp [he]

omit [DecidableEq S] in
/-- Only the row of the item changes. -/
theorem settled_replace (hitem : e'.item = e.item) (hne : y.id ≠ e.item.id) :
    settled (d ++ e' :: d') y = settled (d ++ e :: d') y := by
  have hother : ∀ c : Trail S, c.item = e.item →
      settled (d ++ c :: d') y = settled (d ++ d') y := by
    intro c hc
    rw [settled, settled, List.find?_append, List.find?_append]
    simp [hc, Ne.symm hne]
  rw [hother e' hitem, hother e rfl]

end Settled

/-! ## Groups -/

/-- The items of each directory, as their rows say. -/
structure Grouped (done : List (Trail S)) (groups : List (Text × List RenameItem)) : Prop where
  rows : ∀ g ∈ groups, ∀ y ∈ g.2, (∃ e ∈ done, e.row = y) ∧ dirnameOf y.oldPath = g.1
  apart : groups.Pairwise fun g g' => ∀ y ∈ g.2, ∀ y' ∈ g'.2, y.id ≠ y'.id

theorem nodup_eraseDups {α : Type} [BEq α] [LawfulBEq α] (l : List α) : l.eraseDups.Nodup := by
  induction h : l.length using Nat.strong_induction_on generalizing l with
  | _ n ih =>
    cases l with
    | nil => simp
    | cons a l =>
      rw [List.eraseDups_cons, List.nodup_cons]
      have hlength : (l.filter fun b => !b == a).length < n := by
        have hle := List.length_filter_le (fun b => !b == a) l
        simp only [List.length_cons] at h
        omega
      exact ⟨by simp, ih _ hlength _ rfl⟩

variable {env : RenameEnv S} {start : S → MovableTree} {rows₀ : RenameRows} {jobId : ℕ}
  {done : List (Trail S)}

omit [DecidableEq S] in
theorem settled_cases (hplan : Planned env start rows₀ jobId)
    (hdone : rows₀.planOf jobId = done.map Trail.item) {x : RenameItem} (hx : x ∈ rows₀.items) :
    settled done x = x ∨ ∃ e ∈ done, e.item = x ∧ settled done x = e.row := by
  cases hfind : done.find? fun e => e.item.id = x.id with
  | none =>
    rw [settled, hfind]
    exact .inl rfl
  | some e =>
    have he := List.mem_of_find?_eq_some hfind
    have hmem : e.item ∈ rows₀.planOf jobId := by
      rw [hdone]
      exact List.mem_map_of_mem he
    have hid : e.item.id = x.id := by simpa using List.find?_some hfind
    refine .inr ⟨e, he, hplan.eq_of_id_eq (mem_planOf.mp hmem).1 hx hid, ?_⟩
    rw [settled, hfind]
    rfl

omit [DecidableEq S] in
/-- The row of an item that is done. -/
theorem settled_of_mem (hplan : Planned env start rows₀ jobId)
    (hdone : rows₀.planOf jobId = done.map Trail.item) {e : Trail S} (he : e ∈ done) :
    settled done e.item = e.row := by
  have hids := hplan.nodup
  obtain ⟨d, d', rfl⟩ := List.append_of_mem he
  rw [hdone, List.map_map, List.map_append, List.pairwise_append] at hids
  refine settled_middle (fun c hc => ?_) rfl
  exact (hids.2.2 _ (List.mem_map_of_mem hc) _ (by simp)).ne

omit [DecidableEq S] in
/-- **The groups of a job** whose items are done. -/
theorem grouped_directoryGroups (hplan : Planned env start rows₀ jobId)
    (hdone : rows₀.planOf jobId = done.map Trail.item) {items : List RenameItem}
    (hitems : ∀ y ∈ items, ∃ x ∈ rows₀.items, x.jobId = jobId ∧ y = settled done x) :
    Grouped done (RenameEnv.directoryGroups items) := by
  have hrow : ∀ y ∈ items, y.action = .rename → ∃ e ∈ done, e.row = y ∧ e.item ∈ rows₀.items := by
    intro y hy haction
    obtain ⟨x, hx, hjob, rfl⟩ := hitems y hy
    rcases settled_cases hplan hdone hx with hsame | ⟨e, he, rfl, hrow⟩
    · -- An item that is to be renamed is in the plan.
      rw [hsame] at haction
      have hmem := mem_planOf.mpr ⟨hx, hjob, hplan.fresh x hx hjob, haction⟩
      rw [hdone, List.mem_map] at hmem
      obtain ⟨e, he, rfl⟩ := hmem
      exact ⟨e, he, (settled_of_mem hplan hdone he).symm, hx⟩
    · exact ⟨e, he, hrow.symm, hx⟩
  constructor
  · intro g hg y hy
    obtain ⟨dir, -, rfl⟩ := List.mem_map.mp hg
    simp only [List.mem_filter, decide_eq_true_eq] at hy
    obtain ⟨e, he, hey, -⟩ := hrow y hy.1.1 hy.1.2.1
    exact ⟨⟨e, he, hey⟩, hy.2⟩
  · rw [RenameEnv.directoryGroups, List.pairwise_map]
    refine (nodup_eraseDups _).imp ?_
    intro dir dir' hne y hy y' hy' hid
    simp only [List.mem_filter, decide_eq_true_eq] at hy hy'
    obtain ⟨e, he, rfl, hmem⟩ := hrow y hy.1.1 hy.1.2.1
    obtain ⟨e', he', rfl, hmem'⟩ := hrow y' hy'.1.1 hy'.1.2.1
    have hitem : e.item = e'.item := hplan.eq_of_id_eq hmem hmem' hid
    refine hne (hy.2.symm.trans (Eq.trans ?_ hy'.2))
    change dirnameOf e.item.oldPath = dirnameOf e'.item.oldPath
    rw [hitem]

omit [DecidableEq S] in
theorem Grouped.tail {g : Text × List RenameItem} {groups : List (Text × List RenameItem)}
    (h : Grouped done (g :: groups)) : Grouped done groups :=
  ⟨fun g' hg' => h.rows g' (List.mem_cons_of_mem _ hg'), (List.pairwise_cons.mp h.apart).2⟩

omit [DecidableEq S] in
/-- The other groups do not see that an item of a group remembers more. -/
theorem Grouped.replace {d d' : List (Trail S)} {e e' : Trail S} {g : Text × List RenameItem}
    {groups : List (Text × List RenameItem)} (h : Grouped (d ++ e :: d') (g :: groups))
    (he : e.row ∈ g.2) : Grouped (d ++ e' :: d') groups := by
  refine ⟨fun g' hg' y hy => ?_, h.tail.apart⟩
  obtain ⟨⟨c, hc, hcy⟩, hold⟩ := h.tail.rows g' hg' y hy
  refine ⟨⟨c, ?_, hcy⟩, hold⟩
  rcases List.mem_append.mp hc with hc | hc
  · exact List.mem_append_left _ hc
  · rcases List.mem_cons.mp hc with rfl | hc
    · exact absurd (by rw [hcy]) ((List.pairwise_cons.mp h.apart).1 g' hg' c.row he y hy)
    · exact List.mem_append_right _ (List.mem_cons_of_mem _ hc)

/-! ## One directory -/

/-- **The invariant** between two directories: of the trails so far, and the groups that are
left. -/
def Swept (env : RenameEnv S) (start : S → MovableTree) (rows₀ : RenameRows) (jobId : ℕ)
    (groups : List (Text × List RenameItem)) : Assertion S := fun trees rows =>
  ∃ done, rows₀.planOf jobId = done.map Trail.item ∧ Grouped done groups ∧
    Stage env start rows₀ [] done trees rows

/-- Remembering more changes only the row of the item. -/
theorem Stage.replace {d d' : List (Trail S)} {e e' : Trail S} {log : MoveLog S}
    {trees trees' : S → MovableTree} {rows : RenameRows}
    (h : Stage env start rows₀ [] (d ++ e :: d') trees rows) (hitem : e'.item = e.item)
    (htracked : Tracked env start [] (d ++ e' :: d') log trees') {items : List RenameItem}
    (hitems : items = rows₀.items.map (settled (d ++ e' :: d'))) :
    Stage env start rows₀ [] (d ++ e' :: d') trees' { rows with items } := by
  refine ⟨⟨log, htracked⟩, hitems, ?_, ?_⟩
  · have hmoves : (d ++ e' :: d').map (fun c => c.item.historyMove) =
        (d ++ e :: d').map fun c => c.item.historyMove := by simp [hitem]
    rw [hmoves]
    exact h.history
  · have hmoves : (d ++ e' :: d').map (fun c => c.item.metadataMove) =
        (d ++ e :: d').map fun c => c.item.metadataMove := by simp [hitem]
    rw [hmoves]
    exact h.metadata

/-- No main file of the items lies in the directory. -/
def Vacated (done : List (Trail S)) (b : StorageHandle S) (dir : Text) : Prop :=
  ∀ c ∈ done, c.handle.store = b.store → c.handle.place (dirnameOf c.item.newPath) ≠ b.place dir

namespace RenameEnv

variable {d d' : List (Trail S)} {e : Trail S} {oldDir : Text} {entries : List (Text × Bool)}

section Steady

variable (henv : env.Steady) (hplan : Planned env start rows₀ jobId)
  (hdone : rows₀.planOf jobId = (d ++ e :: d').map Trail.item)

include henv hplan hdone

omit henv in
/-- What is left in a vacated directory was not moved before. -/
theorem free_of_vacated (hregular : ∀ c ∈ d ++ e :: d', c.handle.Regular)
    (hvacated : Vacated (d ++ e :: d') e.handle oldDir) {src : List Text} {n : Text}
    (hsrc : src = e.handle.place oldDir ++ [n]) (hn : ¬IsMedia n) :
    Following.Free env start [] d d' e src := by
  refine ⟨fun c hc _ => ?_, by simp, ?_⟩
  · have hmem : c.item ∈ rows₀.planOf jobId := by
      rw [hdone]
      exact List.mem_map_of_mem hc
    obtain ⟨hproper, hmedia⟩ := hplan.new c.item hmem
    exact place_ne (hregular c hc) hproper hmedia hn hsrc
  · rintro e' log trees hitem hhandle htracked t ht hpos g hg rfl
    have hlog : g ∈ log := by
      rw [← htracked.reverses.mem_iff, Tracked.undoLog_split]
      exact List.mem_append_left _ hg
    obtain ⟨c, hc, hstore, hdir⟩ := htracked.beside g hlog
    rw [hpos, hsrc, List.dropLast_concat] at hdir
    rcases List.mem_append.mp hc with hc | hc
    · exact hvacated c (List.mem_append_left _ hc) (hstore.trans ht) hdir.symm
    · rcases List.mem_cons.mp hc with rfl | hc
      · rw [hhandle, hitem] at hdir
        exact hvacated e (by simp) rfl hdir.symm
      · exact hvacated c (by simp [hc]) (hstore.trans ht) hdir.symm

/-- **The files that are left follow** the first item of the directory. -/
theorem says_moveAssets {E : Text → RenameWorld S → Prop}
    (hvacated : Vacated (d ++ e :: d') e.handle oldDir)
    (hmedia : ∀ en ∈ entries, en.2 = false → ¬IsMedia (basenameOf en.1)) :
    Triple (Says fun trees rows => Stage env start rows₀ [] (d ++ e :: d') trees rows ∧
        Entries e.handle oldDir entries trees)
      (env.moveAssets e.handle e.row oldDir (dirnameOf e.item.newPath) entries)
      (fun _ => Says fun trees rows => ∃ e', e'.item = e.item ∧
        Stage env start rows₀ [] (d ++ e' :: d') trees rows) E := by
  rintro w ⟨hstage, hentries⟩
  obtain ⟨log, htracked⟩ := hstage.tracked
  have hregular : ∀ c ∈ d ++ e :: d', c.handle.Regular := fun c hc =>
    henv.regular _ _ (htracked.handles c hc)
  have hreg := hregular e (by simp)
  have hne : ∀ c ∈ d, c.item.id ≠ e.item.id :=
    hplan.ne_of_split (hdone.trans (List.map_append.trans rfl))
  have hloop := triple_foldlM (E := E)
    (fun entries moved => Says fun trees rows => rows = w.rows ∧
      (∀ en ∈ entries, en.2 = false → ¬IsMedia (basenameOf en.1)) ∧
        Following env start [] d d' e oldDir entries moved trees)
    (f := env.moveAsset e.handle (dirnameOf e.item.newPath)) ?_ entries []
  · have hstart : Following env start [] d d' e oldDir entries [] w.trees :=
      ⟨⟨e, log, rfl, rfl, by simp, htracked⟩, hentries⟩
    refine triple_bind hloop (fun moved => ?_) w ⟨rfl, hmedia, hstart⟩
    rintro w' ⟨hrows, -, ⟨e', log', hitem, -, hmoves, htracked'⟩, -⟩
    -- The rows of the trails, once the item remembers what has followed it.
    have hitems : (w'.rows.items.map fun y => if y.id = e.row.id then
        { y with auxMoves := e.row.auxMoves ++ moved } else y) =
        rows₀.items.map (settled (d ++ e' :: d')) := by
      rw [hrows, hstage.items, List.map_map]
      refine List.map_congr_left fun y _ => ?_
      by_cases hid : y.id = e.item.id
      · have hne' : ∀ c ∈ d, c.item.id ≠ y.id := fun c hc => hid ▸ hne c hc
        rw [settled_middle hne' (by rw [hitem, hid])]
        simp [settled_middle hne' hid.symm, Trail.row, hitem, hmoves]
      · rw [settled_replace hitem hid]
        simp [settled_id, Trail.row, hid]
    have hend : Triple (Says fun trees rows => ∃ e', e'.item = e.item ∧
        Stage env start rows₀ [] (d ++ e' :: d') trees rows)
        (do let _ ← (env.removeEmpty e.handle oldDir).attempt
            Pure.pure () : Rename S Unit)
        (fun _ => Says fun trees rows => ∃ e', e'.item = e.item ∧
          Stage env start rows₀ [] (d ++ e' :: d') trees rows) E := by
      refine triple_bind (says_attempt (says_removeEmpty henv ?_)) fun r => ?_
      · rintro trees trees' rows hfiles ⟨e', hitem, hstage⟩
        exact ⟨e', hitem, hstage.of_files hfiles⟩
      · cases r with
        | ok _ => exact says_pure fun _ _ h => h
        | error _ => exact says_pure fun _ _ h => h
    by_cases hmoved : moved = []
    · simp only [if_pos hmoved]
      have hsame : w'.rows.items = rows₀.items.map (settled (d ++ e' :: d')) := by
        rw [hrows, hstage.items]
        refine List.map_congr_left fun y _ => ?_
        by_cases hid : y.id = e.item.id
        · have hne' : ∀ c ∈ d, c.item.id ≠ y.id := fun c hc => hid ▸ hne c hc
          rw [settled_middle hne' hid.symm, settled_middle hne' (by rw [hitem, hid])]
          simp [Trail.row, hitem, hmoves, hmoved]
        · exact (settled_replace hitem hid).symm
      have hreplace := hstage.replace hitem htracked' hsame
      rw [← hrows] at hreplace
      exact hend w' ⟨e', hitem, hreplace⟩
    · simp only [if_neg hmoved]
      refine triple_bind (says_answer henv
        (A := fun trees rows => trees = w'.trees ∧ rows = w'.rows)
        (B := fun _ trees rows => ∃ e', e'.item = e.item ∧
          Stage env start rows₀ [] (d ++ e' :: d') trees rows) ?_) (fun _ => hend) w' ⟨rfl, rfl⟩
      rintro trees rows ⟨rfl, rfl⟩
      have hreplace := hstage.replace hitem htracked' hitems
      rw [← hrows] at hreplace
      exact ⟨e', hitem, hreplace⟩
  · intro en entries moved
    rw [moveAsset]
    split_ifs with hdirectory
    · exact says_pure fun trees rows h =>
        ⟨h.1, fun c hc => h.2.1 c (List.mem_cons_of_mem _ hc), h.2.2.tail⟩
    · have hfile : en.2 = false := Bool.eq_false_of_not_eq_true hdirectory
      have hplain : '\\' ∉ dirnameOf e.item.newPath := not_mem_dirnameOf _
      rintro w' hw'
      have hlisted := hw'.2.2.2.1 en List.mem_cons_self hfile
      have hplace := hreg.place_join _ _ hplain hlisted.proper
      refine says_moveInto henv ?_ hplace.symm rfl (fun trees rows h =>
        ⟨h.1, fun c hc => h.2.1 c (List.mem_cons_of_mem _ hc), h.2.2.tail⟩) ?_ w' hw'
      · exact fun trees trees' rows hfiles h => ⟨h.1, h.2.1, h.2.2.of_files hfiles⟩
      · rintro trees rows t ⟨hrows, hmedia, hfollowing⟩ hdst hmove
        refine ⟨hrows, fun c hc => hmedia c (List.mem_cons_of_mem _ hc), ?_⟩
        refine hfollowing.step hreg hfile ?_ (not_mem_join hplain hlisted.proper.2)
          ⟨_, hplace, hlisted.proper⟩ hdst hmove
        exact free_of_vacated hplan hdone hregular hvacated hlisted.place
          (hmedia en List.mem_cons_self hfile)

end Steady

/-- No main file lies in a directory where the listing shows no media file. -/
theorem vacated_of_list (henv : env.Steady) (hplan : Planned env start rows₀ jobId)
    (hdone : rows₀.planOf jobId = done.map Trail.item) {log : MoveLog S}
    {trees : S → MovableTree} (htracked : Tracked env start [] done log trees)
    {b : StorageHandle S} (hreg : b.Regular) {dir : Text} (hdir : '\\' ∉ dir)
    {l arranged : List (Text × Bool)} (hl : (trees b.store).list (b.place dir) = some l)
    (hperm : arranged.Perm l)
    (hmedia : ¬∃ en ∈ arranged.map fun e => (b.childPath dir e.1, e.2), en.2 = false ∧
      IsMedia (basenameOf en.1)) : Vacated done b dir := by
  intro c hc hstore heq
  have hmem : c.item ∈ rows₀.planOf jobId := by
    rw [hdone]
    exact List.mem_map_of_mem hc
  obtain ⟨hproper, hname⟩ := hplan.new c.item hmem
  have hmain := htracked.mains c hc
  rw [(henv.regular _ _ (htracked.handles c hc)).place_eq _ (not_mem_normPath _)
    (by simpa using hproper), dirnameOf_normPath, basenameOf_normPath, heq, hstore,
    ← FileTree.mem_list_iff hl] at hmain
  refine hmedia ⟨_, List.mem_map_of_mem (hperm.mem_iff.mpr hmain), rfl, ?_⟩
  rw [hreg.basenameOf_childPath dir _ hdir hproper]
  exact hname

/-- **One directory** is handled. -/
theorem says_finishDirectory (henv : env.Steady) (hplan : Planned env start rows₀ jobId)
    {E : Text → RenameWorld S → Prop} (g : Text × List RenameItem)
    (groups : List (Text × List RenameItem)) :
    Triple (Says (Swept env start rows₀ jobId (g :: groups))) (env.finishDirectory g.1 g.2)
      (fun _ => Says (Swept env start rows₀ jobId groups)) E := by
  have htail : ∀ trees rows, Swept env start rows₀ jobId (g :: groups) trees rows →
      Swept env start rows₀ jobId groups trees rows := by
    rintro trees rows ⟨done, hdone, hgrouped, hstage⟩
    exact ⟨done, hdone, hgrouped.tail, hstage⟩
  unfold finishDirectory
  split
  · rename_i first items newDir hitems hdirs
    split_ifs with hskip
    · exact says_pure htail
    · refine triple_bind (says_ask henv) fun backend => ?_
      rintro w ⟨⟨n, hn⟩, hw⟩
      rw [henv.same] at hn
      cases backend with
      | none => exact htail _ _ hw
      | some b =>
        refine triple_bind (says_attempt (says_listDir henv)) (fun entries => ?_) w hw
        cases entries with
        | error _ => exact says_pure htail
        | ok entries =>
          dsimp only
          split
          · exact says_pure fun trees rows h => htail _ _ h.1
          · rename_i hmedia
            rintro w ⟨⟨done, hdone, hgrouped, hstage⟩, m, l, hl, rfl⟩
            obtain ⟨log, htracked⟩ := hstage.tracked
            have hfirst : first ∈ g.2 := by simp [hitems]
            obtain ⟨⟨e, he, rfl⟩, hdir⟩ := hgrouped.rows g List.mem_cons_self first hfirst
            obtain rfl : b = e.handle := Option.some.inj (hn.trans (htracked.handles e he))
            have hnew : newDir = dirnameOf e.item.newPath := by
              have hmem : dirnameOf e.row.newPath ∈
                  (g.2.map fun x => dirnameOf x.newPath).eraseDups :=
                List.mem_eraseDups.mpr (List.mem_map_of_mem hfirst)
              rw [hdirs, List.mem_singleton] at hmem
              rw [← hmem]
              exact dirnameOf_normPath _
            have hplain : '\\' ∉ g.1 := hdir ▸ not_mem_dirnameOf _
            have hreg := henv.regular _ _ (htracked.handles e he)
            have hvacated := vacated_of_list henv hplan hdone htracked hreg hplain hl
              (env.arrange_perm m l) hmedia
            have hentries := entries_of_list hreg hplain htracked.moved.proper hl
              (env.arrange_perm m l)
            obtain ⟨d, d', rfl⟩ := List.append_of_mem he
            subst hnew
            refine (says_moveAssets henv hplan hdone hvacated ?_).weaken (fun _ h => h) ?_
              (fun _ _ h => h) w ⟨hstage, hentries⟩
            · exact fun en hen hfile hm => hmedia ⟨en, hen, hfile, hm⟩
            · rintro _ w' ⟨e', hitem, hstage'⟩
              have hdone' : rows₀.planOf jobId = (d ++ e' :: d').map Trail.item := by
                rw [hdone, List.map_append, List.map_append, List.map_cons, List.map_cons, hitem]
              exact ⟨_, hdone', hgrouped.replace hfirst, hstage'⟩
  · exact says_pure htail

/-! ## All directories -/

/-- **The job after its directories are handled.** -/
theorem says_finish (henv : env.Steady) (hplan : Planned env start rows₀ jobId)
    {E : Text → RenameWorld S → Prop} (groups : List (Text × List RenameItem)) :
    Triple (Says (Swept env start rows₀ jobId groups)) (env.finishDirectoryAssets groups)
      (fun _ => Says (Reached env start rows₀ jobId [])) E := by
  refine (triple_foldlM (fun groups (_ : Unit) => Says (Swept env start rows₀ jobId groups))
    (fun g groups _ => says_finishDirectory henv hplan g groups) groups ()).weaken
    (fun _ h => h) ?_ fun _ _ h => h
  rintro _ w ⟨done, hdone, -, hstage⟩
  exact ⟨done, by rw [hdone, List.append_nil], hstage⟩

/-- The groups of the rows of a job whose items are done. -/
theorem swept_of_reached (hplan : Planned env start rows₀ jobId) {trees : S → MovableTree}
    {rows : RenameRows} (h : Reached env start rows₀ jobId [] trees rows) {items : List RenameItem}
    (hitems : ∀ y ∈ items, y ∈ rows.items ∧ y.jobId = jobId) :
    Swept env start rows₀ jobId (directoryGroups items) trees rows := by
  obtain ⟨done, hdone, hstage⟩ := h
  rw [List.append_nil] at hdone
  refine ⟨done, hdone, grouped_directoryGroups hplan hdone fun y hy => ?_, hstage⟩
  obtain ⟨hmem, hjob⟩ := hitems y hy
  rw [hstage.items] at hmem
  obtain ⟨x, hx, rfl⟩ := List.mem_map.mp hmem
  refine ⟨x, hx, ?_, rfl⟩
  rcases settled_cases hplan hdone hx with hsame | ⟨e, -, rfl, hrow⟩
  · rw [hsame] at hjob
    exact hjob
  · rw [hrow] at hjob
    exact hjob

end RenameEnv

end WolfNas
