import WolfNas.Rename.Ownership
import WolfNas.Rename.Forward

/-!
# Taking moves back after an exception

Any call may raise, before it takes effect or after.  What an item has moved can be taken back, the
last move first, as long as the list of its moves is complete; where taking back fails, the item
does not say that it failed, but that somebody has to look after it.

## Main definitions

* `takeBack` — the files once some moves are taken back.
* `Undoable` — taking the moves back leads to the files at the start.
* `redirected` — the history once it is told of a move.
* `Traceless` — an item that failed has left the files and the history as they were.

## Main results

* `RenameEnv.reversing_rollbackPaths` — the moves are taken back, or the rollback fails.
* `RenameEnv.traceless_recoverItem` — an item that says it failed has taken its moves back.
-/

namespace WolfNas

open Program Text

variable {S : Type} [DecidableEq S] {α : Type}

/-! ## Calls that fail -/

namespace RenameEnv

variable {env : RenameEnv S} {b : StorageHandle S} {A : Assertion S} {B : α → Assertion S}

omit [DecidableEq S] in
/-- **A call**, by the way in which it ends. -/
theorem post_call {f : ℕ → RenameWorld S → Option (α × RenameWorld S)} {w : RenameWorld S}
    {Q : α → RenameWorld S → Prop} {E : Text → RenameWorld S → Prop}
    (hdone : ∀ a w', f w.clock { w with clock := w.clock + 1 } = some (a, w') →
      env.fault w.clock ≠ .before → Q a w')
    (hbefore : ∀ e, env.fault w.clock = .before ∨
      f w.clock { w with clock := w.clock + 1 } = none → E e { w with clock := w.clock + 1 })
    (hafter : env.fault w.clock = .after → ∀ e a w', Q a w' → E e w') :
    Post Q E ((env.call f).run w) := by
  simp only [call]
  split
  · rename_i hfault
    exact hbefore _ (.inl hfault)
  · rename_i hrefused _
    exact hbefore _ (.inr hrefused)
  · rename_i hfault hf
    exact hdone _ _ hf (by rw [hfault]; decide)
  · rename_i hfault hf
    exact hafter hfault _ _ _ (hdone _ _ hf (by rw [hfault]; decide))

/-- What a call of a backend may leave behind it. -/
theorem fails_storage {f : ℕ → MovableTree → Option (α × MovableTree)}
    (h : ∀ n trees rows a t, A trees rows → f n (trees b.store) = some (a, t) →
      B a (Function.update trees b.store t) rows) :
    Triple (Says A) (env.storage b f) (fun a => Says (B a))
      fun _ w => Says A w ∨ ∃ a, Says (B a) w := by
  refine triple_call (fun _ _ hw => hw) ?_ (fun _ hw => .inl hw) fun a _ hw => .inr ⟨a, hw⟩
  intro n w a w' hw hf
  obtain ⟨⟨a', t⟩, ht, heq⟩ := Option.map_eq_some_iff.mp hf
  cases heq
  exact h n w.trees w.rows a t hw ht

/-- A question leaves everything as it was. -/
theorem fails_question {g : ℕ → MovableTree → α} :
    Triple (Says A) (env.storage b fun n t => some (g n t, t))
      (fun a => Says fun trees rows => A trees rows ∧ ∃ n, a = g n (trees b.store))
      fun _ => Says A := by
  refine (fails_storage (B := fun a trees rows => A trees rows ∧ ∃ n, a = g n (trees b.store))
    ?_).weaken (fun _ hw => hw) (fun _ _ hw => hw) ?_
  · intro n trees rows a t hA h
    cases h
    rw [Function.update_eq_self]
    exact ⟨hA, n, rfl⟩
  · rintro _ w (hw | ⟨_, hw⟩)
    · exact hw
    · exact hw.1

theorem fails_pathExists {p : Text} : Triple (Says A) (env.pathExists b p)
    (fun there => Says fun trees rows =>
      A trees rows ∧ (trees b.store).isThere (b.place p) = there) fun _ => Says A := by
  refine (fails_question (g := fun _ t => t.isThere (b.place p))).weaken (fun _ hw => hw) ?_
    fun _ _ hw => hw
  rintro _ w ⟨hw, n, rfl⟩
  exact ⟨hw, rfl⟩

omit [DecidableEq S] in
/-- What a call of the repository may leave behind it. -/
theorem fails_repo {f : RenameRows → Option (α × RenameRows)}
    (h : ∀ trees rows a rows', A trees rows → f rows = some (a, rows') → B a trees rows') :
    Triple (Says A) (env.repo f) (fun a => Says (B a))
      fun _ w => Says A w ∨ ∃ a, Says (B a) w := by
  refine triple_call (fun _ _ hw => hw) ?_ (fun _ hw => .inl hw) fun a _ hw => .inr ⟨a, hw⟩
  intro n w a w' hw hf
  obtain ⟨⟨a', rows⟩, hrows, heq⟩ := Option.map_eq_some_iff.mp hf
  cases heq
  exact h w.trees w.rows a rows hw hrows

omit [DecidableEq S] in
/-- A call of the repository that keeps what is said. -/
theorem fails_keeps_repo {f : RenameRows → Option (α × RenameRows)}
    (h : ∀ trees rows a rows', A trees rows → f rows = some (a, rows') → A trees rows') :
    Keeps (Says A) (env.repo f) := by
  refine (fails_repo (B := fun _ => A) h).weaken (fun _ hw => hw) (fun _ _ hw => hw) ?_
  rintro _ w (hw | ⟨_, hw⟩)
  · exact hw
  · exact hw

end RenameEnv

/-! ## Moves that can be taken back -/

/-- The files after some moves are taken back, the last one first. -/
def takeBack (b : StorageHandle S) (moves : List (Text × Text))
    (files : List (List Text × MovableFile)) : List (List Text × MovableFile) :=
  moves.foldr (fun m files => FileTree.carried (b.place m.2) (b.place m.1) files) files

omit [DecidableEq S] in
theorem takeBack_concat (b : StorageHandle S) (moves : List (Text × Text)) (m : Text × Text)
    (files : List (List Text × MovableFile)) :
    takeBack b (moves ++ [m]) files =
      takeBack b moves (FileTree.carried (b.place m.2) (b.place m.1) files) := by
  rw [takeBack, takeBack, List.foldr_append]
  rfl

/-- No row of the item says that it failed. -/
def Unfailed (id : ℕ) (rows : RenameRows) : Prop := ∀ x ∈ rows.items, x.id = id → x.status ≠ .failed

instance decidableUnfailed (id : ℕ) (rows : RenameRows) : Decidable (Unfailed id rows) :=
  inferInstanceAs (Decidable (∀ x ∈ rows.items, x.id = id → x.status ≠ .failed))

/-- The files of all storages are those at the start once the moves are taken back, the item has
not failed, and the history is as told. -/
structure Undoable (start : S → MovableTree) (b : StorageHandle S) (id : ℕ)
    (moves : List (Text × Text)) (history : List HistoryDest) (trees : S → MovableTree)
    (rows : RenameRows) : Prop where
  files : takeBack b moves (trees b.store).files = (start b.store).files
  others : ∀ s, s ≠ b.store → (trees s).files = (start s).files
  unfailed : Unfailed id rows
  history : rows.history = history

namespace Undoable

variable {start trees : S → MovableTree} {b : StorageHandle S} {id : ℕ}
  {moves : List (Text × Text)} {history : List HistoryDest} {rows : RenameRows}

omit [DecidableEq S] in
theorem of_files (h : Undoable start b id moves history trees rows) {trees' : S → MovableTree}
    (hfiles : ∀ s, (trees' s).files = (trees s).files) :
    Undoable start b id moves history trees' rows := by
  refine ⟨?_, fun s hs => ?_, h.unfailed, h.history⟩
  · rw [hfiles, h.files]
  · rw [hfiles, h.others s hs]

omit [DecidableEq S] in
theorem of_rows (h : Undoable start b id moves history trees rows) {rows' : RenameRows}
    {history' : List HistoryDest} (hrows : Unfailed id rows')
    (hhistory : rows'.history = history') :
    Undoable start b id moves history' trees rows' :=
  ⟨h.files, h.others, hrows, hhistory⟩

omit [DecidableEq S] in
/-- A move to where nothing is may as well not have been made. -/
theorem concat_of_free (h : Undoable start b id moves history trees rows) {old new : Text}
    (hfree : (trees b.store).isThere (b.place new) = false) :
    Undoable start b id (moves ++ [(old, new)]) history trees rows := by
  have hnone : ∀ f ∈ (trees b.store).files, ¬b.place new <+: f.1 := fun f hf =>
    FileTree.not_prefix_of_not_there hfree hf
  refine ⟨?_, h.others, h.unfailed, h.history⟩
  rw [takeBack_concat, FileTree.carried_eq_self hnone]
  exact h.files

/-- Something is moved to where nothing is. -/
theorem concat (h : Undoable start b id moves history trees rows) {src dst : List Text}
    {old new : Text} {t : MovableTree} (hmove : (trees b.store).move src dst = some t)
    (hfree : (trees b.store).isThere dst = false) (hold : b.place old = src)
    (hnew : b.place new = dst) :
    Undoable start b id (moves ++ [(old, new)]) history (Function.update trees b.store t) rows := by
  refine ⟨?_, fun s hs => ?_, h.unfailed, h.history⟩
  · rw [Function.update_self, takeBack_concat, FileTree.files_of_move_free hmove hfree, hold, hnew,
      FileTree.carried_carried fun f hf => FileTree.not_prefix_of_not_there hfree hf]
    exact h.files
  · rw [Function.update_of_ne hs]
    exact h.others s hs

/-- The last move is taken back. -/
theorem back {m : Text × Text} (h : Undoable start b id (moves ++ [m]) history trees rows)
    {t : MovableTree} (hmove : (trees b.store).move (b.place m.2) (b.place m.1) = some t)
    (hfree : (trees b.store).isThere (b.place m.1) = false) :
    Undoable start b id moves history (Function.update trees b.store t) rows := by
  refine ⟨?_, fun s hs => ?_, h.unfailed, h.history⟩
  · rw [Function.update_self, FileTree.files_of_move_free hmove hfree, ← takeBack_concat]
    exact h.files
  · rw [Function.update_of_ne hs]
    exact h.others s hs

omit [DecidableEq S] in
/-- Where nothing is at the target, nothing is to be taken back. -/
theorem back_of_free {m : Text × Text} (h : Undoable start b id (moves ++ [m]) history trees rows)
    (hfree : (trees b.store).isThere (b.place m.2) = false) :
    Undoable start b id moves history trees rows := by
  have hfiles := h.files
  rw [takeBack_concat, FileTree.carried_eq_self fun f hf =>
    FileTree.not_prefix_of_not_there hfree hf] at hfiles
  exact ⟨hfiles, h.others, h.unfailed, h.history⟩

end Undoable

/-! ## Taking back -/

/-- As long as all went well the moves that are left can be taken back; the item has not failed. -/
def Reversing (start : S → MovableTree) (b : StorageHandle S) (id : ℕ)
    (history : List HistoryDest) (moves : List (Text × Text)) (ok : Bool) : Assertion S :=
  fun trees rows =>
    (ok = true → Undoable start b id moves history trees rows) ∧ Unfailed id rows

namespace RenameEnv

variable {env : RenameEnv S} {b : StorageHandle S} {start : S → MovableTree} {id : ℕ}
  {moves : List (Text × Text)} {history : List HistoryDest} {ok : Bool} {m : Text × Text}
  {p q n : Text}

/-- A directory is made, in which a path will lie where nothing is. -/
theorem fails_mkdir {A : Assertion S} (hA : OnFiles A) (hq : b.place q = b.place p ++ [n]) :
    Keeps (Says fun trees rows => A trees rows ∧ (trees b.store).isThere (b.place q) = false)
      (env.mkdir b p) := by
  refine (fails_storage (B := fun _ trees rows =>
    A trees rows ∧ (trees b.store).isThere (b.place q) = false) ?_).weaken (fun _ hw => hw)
    (fun _ _ hw => hw) ?_
  · intro _ trees rows a t hA' h
    obtain ⟨t', ht, heq⟩ := Option.map_eq_some_iff.mp h
    cases heq
    refine ⟨hA _ _ _ (files_update (FileTree.files_mkdir ht)) hA'.1, ?_⟩
    rw [Function.update_self]
    refine FileTree.isThere_mkdir ht ?_ hA'.2
    rw [hq]
    exact fun hle => absurd hle.length_le (by simp)
  · rintro _ w (hw | ⟨_, hw⟩)
    · exact hw
    · exact hw

omit [DecidableEq S] in
theorem onFiles_undoable : OnFiles (Undoable start b id moves history) :=
  fun _ _ _ hfiles h => h.of_files hfiles

omit [DecidableEq S] in
theorem onFiles_reversing : OnFiles (Reversing start b id history moves ok) :=
  fun _ _ _ hfiles h => ⟨fun hok => (h.1 hok).of_files hfiles, h.2⟩

/-- **The last move is taken back**, or the result says that it is not. -/
theorem reversing_moveBack {E : Text → RenameWorld S → Prop} (hb : b.Regular)
    (hm : NamesFile m.1) :
    Triple (Says fun trees rows => Reversing start b id history (moves ++ [m]) ok trees rows ∧
        (trees b.store).isThere (b.place m.1) = false)
      (env.moveBack b m.2 m.1)
      (fun back => Says (Reversing start b id history moves (ok && back))) E := by
  have hplace := hb.place_eq m.1 hm.plain hm.proper
  have hmove : Triple (Says fun trees rows =>
        Reversing start b id history (moves ++ [m]) ok trees rows ∧
          (trees b.store).isThere (b.place m.1) = false)
      (env.move b m.2 m.1) (fun _ => Says (Reversing start b id history moves ok))
      fun _ => Says fun _ rows => Unfailed id rows := by
    refine (fails_storage (B := fun _ => Reversing start b id history moves ok) ?_).weaken
      (fun _ hw => hw) (fun _ _ hw => hw) ?_
    · intro _ trees rows a t hA h
      obtain ⟨t', ht, heq⟩ := Option.map_eq_some_iff.mp h
      cases heq
      exact ⟨fun hok => (hA.1.1 hok).back ht hA.2, hA.1.2⟩
    · rintro _ w (hw | ⟨_, hw⟩)
      · exact hw.1.2
      · exact hw.2
  refine triple_bind (triple_attempt (triple_bind ((fails_mkdir onFiles_reversing hplace).weaken
    (fun _ hw => hw) (fun _ _ hw => hw) fun _ _ hw => hw.1.2) fun _ => hmove)) fun r => ?_
  cases r with
  | ok _ =>
    refine triple_pure true fun w hw => ?_
    rw [Bool.and_true]
    exact hw
  | error _ =>
    refine triple_pure false fun w hw => ?_
    rw [Bool.and_false]
    exact ⟨fun h => absurd h (by decide), hw⟩

/-- Both questions of a rollback are answered as the files are. -/
theorem reversing_questions {x : Bool → Bool → Rename S Bool} {Q : Bool → RenameWorld S → Prop}
    {A : Assertion S} {E : Text → RenameWorld S → Prop} (hE : ∀ e w, Says A w → E e w)
    (hx : ∀ newExists oldExists, Triple
      (Says fun trees rows => A trees rows ∧ (trees b.store).isThere (b.place q) = newExists ∧
        (trees b.store).isThere (b.place p) = oldExists)
      (x newExists oldExists) Q E) :
    Triple (Says A)
      (do
        let newExists ← env.pathExists b q
        let oldExists ← env.pathExists b p
        x newExists oldExists) Q E := by
  refine triple_bind (fails_pathExists.weaken (fun _ hw => hw) (fun _ _ hw => hw) hE) ?_
  intro newExists
  refine triple_bind (fails_pathExists.weaken (fun _ hw => hw) (fun _ _ hw => hw)
    fun e w hw => hE e w hw.1) fun oldExists => ?_
  exact (hx newExists oldExists).weaken (fun _ hw => ⟨hw.1.1, hw.1.2, hw.2⟩) (fun _ _ hw => hw)
    fun _ _ hw => hw

/-- **One move is taken back**, or the rollback fails. -/
theorem reversing_rollbackAux (hb : b.Regular) (hm : NamesFile m.1) :
    Triple (Says (Reversing start b id history (moves ++ [m]) ok)) (env.rollbackAux b ok m)
      (fun ok => Says (Reversing start b id history moves ok))
      fun _ => Says fun _ rows => Unfailed id rows := by
  refine reversing_questions (fun _ _ hw => hw.2) fun newExists oldExists => ?_
  cases newExists with
  | false =>
    exact triple_pure ok fun w hw => ⟨fun hok => (hw.1.1 hok).back_of_free hw.2.1, hw.1.2⟩
  | true =>
    cases oldExists with
    | true => exact triple_pure false fun w hw => ⟨fun h => absurd h (by decide), hw.1.2⟩
    | false =>
      refine triple_bind ((reversing_moveBack hb hm).weaken (fun _ hw => ⟨hw.1, hw.2.2⟩)
        (fun _ _ hw => hw) fun _ _ hw => hw) fun back => triple_pure _ fun _ hw => hw

theorem reversing_rollbackMain (hb : b.Regular) (hm : NamesFile m.1) :
    Triple (Says (Reversing start b id history [m] ok)) (env.rollbackMain b m.1 m.2 ok)
      (fun ok => Says (Reversing start b id history [] ok))
      fun _ => Says fun _ rows => Unfailed id rows := by
  refine reversing_questions (fun _ _ hw => hw.2) fun newExists oldExists => ?_
  cases newExists with
  | false =>
    refine triple_pure _ fun w hw => ⟨fun hok => ?_, hw.1.2⟩
    have hundoable := hw.1.1 (Bool.and_eq_true_iff.mp hok).1
    exact @Undoable.back_of_free S start _ b id [] history _ m hundoable hw.2.1
  | true =>
    cases oldExists with
    | true => exact triple_pure false fun w hw => ⟨fun h => absurd h (by decide), hw.1.2⟩
    | false =>
      have hback := @reversing_moveBack S _ env b start id [] history ok m
        (fun _ => Says fun _ rows => Unfailed id rows) hb hm
      refine triple_bind (hback.weaken (fun _ hw => ⟨hw.1, hw.2.2⟩) (fun _ _ hw => hw)
        fun _ _ hw => hw) fun back => ?_
      exact triple_pure _ fun _ hw => hw

/-- **The moves of an item are taken back**, or the rollback fails. -/
theorem reversing_rollbackPaths (hb : b.Regular) (hm : NamesFile m.1) {aux : List (Text × Text)}
    (haux : ∀ a ∈ aux, NamesFile a.1) :
    Triple (Says (Undoable start b id (m :: aux) history)) (env.rollbackPaths b m.1 m.2 aux)
      (fun ok => Says (Reversing start b id history [] ok))
      fun _ => Says fun _ rows => Unfailed id rows := by
  have hloop : Triple (Says (Undoable start b id (m :: aux) history))
      (aux.reverse.foldlM (env.rollbackAux b) true)
      (fun ok => Says (Reversing start b id history [m] ok))
      fun _ => Says fun _ rows => Unfailed id rows := by
    refine (triple_foldlM (fun l ok w => (∀ a ∈ l, NamesFile a.1) ∧
      Says (Reversing start b id history (m :: l.reverse) ok) w) ?_ aux.reverse true).weaken
      (fun w hw => ⟨fun a ha => haux a (List.mem_reverse.mp ha), ?_⟩) (fun _ _ hw => hw.2)
      fun _ _ hw => hw
    · intro a l ok
      refine triple_and_left fun hl => ?_
      rw [List.reverse_cons, ← List.cons_append]
      refine (reversing_rollbackAux hb (hl a List.mem_cons_self)).weaken (fun _ hw => hw) ?_
        fun _ _ hw => hw
      exact fun _ _ hw => ⟨fun a ha => hl a (List.mem_cons_of_mem _ ha), hw⟩
    · rw [List.reverse_reverse]
      exact ⟨fun _ => hw, hw.unfailed⟩
  exact triple_bind hloop fun ok => reversing_rollbackMain hb hm

end RenameEnv

/-! ## The history -/

/-- The history once the rows of the file at one path say that it is at another. -/
def redirected (old new : Text × Text) (category : Option Text) (history : List HistoryDest) :
    List HistoryDest :=
  history.map fun x =>
    if x.destPath = old.1 ∧ x.destFilename = old.2 then
      { destPath := new.1, destFilename := new.2, category := category.getD x.category }
    else x

section Redirected

variable {old new : Text × Text} {c c' : Option Text} {history : List HistoryDest}

theorem redirected_eq_self (h : ∀ x ∈ history, x.key ≠ old) :
    redirected old new c history = history := by
  have hself : ∀ x ∈ history, (if x.destPath = old.1 ∧ x.destFilename = old.2 then
      { destPath := new.1, destFilename := new.2, category := c.getD x.category } else x) = x :=
    fun x hx => if_neg fun hkey => h x hx (Prod.ext hkey.1 hkey.2)
  exact (List.map_congr_left hself).trans (List.map_id' history)

/-- Rows that were told of a move, and of the way back. -/
theorem redirected_redirected (hnew : ∀ x ∈ history, x.key ≠ new)
    (hcategory : ∀ x ∈ history, x.key = old → c'.getD (c.getD x.category) = x.category) :
    redirected new old c' (redirected old new c history) = history := by
  rw [redirected, redirected, List.map_map]
  refine (List.map_congr_left fun x hx => ?_).trans (List.map_id' history)
  by_cases hkey : x.destPath = old.1 ∧ x.destFilename = old.2
  · have hkept := hcategory x hx (Prod.ext hkey.1 hkey.2)
    simp only [Function.comp_apply, if_pos hkey, and_self, if_true, hkept]
    rw [← hkey.1, ← hkey.2]
  · simp only [Function.comp_apply, if_neg hkey]
    exact if_neg fun h => hnew x hx (Prod.ext h.1 h.2)

end Redirected

/-- Unless the item has not failed, the files and the history are those at the start. -/
def Traceless (start : S → MovableTree) (id : ℕ) (history : List HistoryDest) : Assertion S :=
  fun trees rows =>
    Unfailed id rows ∨ (∀ s, (trees s).files = (start s).files) ∧ rows.history = history

namespace RenameEnv

variable {env : RenameEnv S} {b : StorageHandle S} {start : S → MovableTree}
  {item : RenameItem} {moves aux : List (Text × Text)} {history history' : List HistoryDest}
  {ok : Bool} {oldPath newPath : Text}

omit [DecidableEq S] in
/-- **The history is told of the way back**, unless that fails and it had been told of the way
there. -/
theorem undoable_historyBack {E : Text → RenameWorld S → Prop} {category : Option Text}
    (hback : redirected (dirnameOf newPath, basenameOf newPath)
      (dirnameOf oldPath, basenameOf oldPath) category history' = history) :
    Triple (fun w => Says (Undoable start b item.id moves history') w ∧
        (history' = history ∨ env.fault w.clock ≠ .before))
      (env.updateHistoryDest (dirnameOf newPath) (basenameOf newPath) (dirnameOf oldPath)
        (basenameOf oldPath) category).attempt
      (fun _ => Says (Undoable start b item.id moves history)) E := by
  have hcall : Triple (fun w => Says (Undoable start b item.id moves history') w ∧
        (history' = history ∨ env.fault w.clock ≠ .before))
      (env.updateHistoryDest (dirnameOf newPath) (basenameOf newPath) (dirnameOf oldPath)
        (basenameOf oldPath) category)
      (fun _ => Says (Undoable start b item.id moves history))
      fun _ => Says (Undoable start b item.id moves history) := by
    rintro w ⟨hw, hkept⟩
    rw [updateHistoryDest, repo]
    refine post_call ?_ ?_ ?_
    · intro a w' h _
      cases h
      refine hw.of_rows hw.unfailed ?_
      rw [← hback, ← hw.history]
      rfl
    · intro e hfails
      rcases hkept with rfl | hfault
      · exact hw
      · rcases hfails with hbefore | hrefused
        · exact absurd hbefore hfault
        · cases hrefused
    · exact fun _ _ _ _ hw' => hw'
  refine (triple_attempt hcall).weaken (fun _ hw => hw) ?_ fun _ _ hw => hw
  intro r w hw
  cases r with
  | ok _ => exact hw
  | error _ => exact hw

omit [DecidableEq S] in
theorem undoable_updateMetadata (backendId p q : Text) (size : Option ℤ) (mtime : Option ℚ) :
    Keeps (Says (Undoable start b item.id moves history))
      (env.updateMetadataPath backendId p q size mtime) := by
  refine fails_keeps_repo fun trees rows a rows' hA h => ?_
  dsimp only at h
  split_ifs at h
  cases h
  exact hA.of_rows hA.unfailed hA.history

omit [DecidableEq S] in
/-- The row of an item that did not fail. -/
theorem unfailed_update {rows : RenameRows} {id : ℕ} {f : RenameItem → RenameItem}
    (hf : ∀ x, (f x).status ≠ .failed) :
    Unfailed id { rows with items := rows.items.map fun x => if x.id = id then f x else x } := by
  intro y hy hyid
  obtain ⟨x, hx, rfl⟩ := List.mem_map.mp hy
  by_cases hxid : x.id = id
  · rw [if_pos hxid]
    exact hf x
  · rw [if_neg hxid] at hyid
    exact absurd hyid hxid

/-- **An item that says it failed** has taken its moves back. -/
theorem traceless_recoverItem (hb : b.Regular) (hold : NamesFile oldPath)
    (haux : ∀ a ∈ aux, NamesFile a.1) (e : Text)
    (hback : redirected (dirnameOf newPath, basenameOf newPath)
      (dirnameOf oldPath, basenameOf oldPath) (historyCategory item false) history' = history) :
    Triple (fun w => Says (Undoable start b item.id ((oldPath, newPath) :: aux) history') w ∧
        (history' = history ∨ env.fault w.clock ≠ .before))
      (env.recoverItem b item oldPath newPath aux e)
      (fun _ => Says (Traceless start item.id history))
      fun _ => Says (Traceless start item.id history) := by
  refine triple_bind (undoable_historyBack hback) fun _ => ?_
  refine triple_bind ((keeps_attempt (undoable_updateMetadata _ _ _ _ _)).weaken
    (fun _ hw => hw) (fun _ _ hw => hw) fun _ _ hw => .inl hw.unfailed) fun _ => ?_
  · refine triple_bind ((@reversing_rollbackPaths S _ env b start item.id history (oldPath, newPath)
      hb hold aux haux).weaken (fun _ hw => hw) (fun _ _ hw => hw) fun _ _ hw => .inl hw)
      fun ok => ?_
    refine (fails_repo (B := fun _ => Traceless start item.id history) ?_).weaken (fun _ hw => hw)
      (fun _ _ hw => hw) ?_
    · intro trees rows a rows' hA h
      cases h
      cases ok with
      | true =>
        have hundone := hA.1 rfl
        refine .inr ⟨fun s => ?_, hundone.history⟩
        by_cases hs : s = b.store
        · rw [hs]
          exact hundone.files
        · exact hundone.others s hs
      | false => exact .inl (unfailed_update fun _ => by simp)
    · rintro _ w (hw | ⟨_, hw⟩)
      · exact .inl hw.2
      · exact hw

end RenameEnv

end WolfNas
