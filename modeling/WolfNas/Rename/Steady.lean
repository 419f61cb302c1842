import WolfNas.Rename.Trails

/-!
# Calls that do not fail

The storages and the repository may refuse a call for what is in them; apart from that no call
fails here, and the backend ids stand for the same storages all along.  A refused call changes
nothing, so what is said before it holds after the exception.

## Main definitions

* `RenameEnv.Steady` — no call fails, and the storages stay.
* `Says` — an assertion about the storages and the rows.
* `OnFiles` — an assertion to which only the files of the storages matter.

## Main results

* `RenameEnv.says_storage`, `RenameEnv.says_repo`, `RenameEnv.says_ask` — the kinds of calls.
* `RenameEnv.says_attempt_move` — a directory is made and a file moved into it, or neither.
-/

namespace WolfNas

open Program

variable {S : Type} [DecidableEq S] {α : Type}

/-- No call fails, and the backend ids stand for the same storages all along. -/
structure RenameEnv.Steady (env : RenameEnv S) : Prop where
  calm : ∀ n, env.fault n = .none
  same : ∀ n id, env.resolve n id = env.resolve 0 id
  regular : ∀ id b, env.resolve 0 id = some b → b.Regular

abbrev Assertion (S : Type) := (S → MovableTree) → RenameRows → Prop

/-- The assertion holds of the storages and the rows. -/
def Says (A : Assertion S) (w : RenameWorld S) : Prop := A w.trees w.rows

/-- Only the files of the storages matter. -/
def OnFiles (A : Assertion S) : Prop :=
  ∀ trees trees' rows, (∀ s, (trees' s).files = (trees s).files) → A trees rows → A trees' rows

/-- What holds after a result, and after an exception. -/
def ByResult (B : α → Assertion S) (A : Assertion S) : Except Text α → Assertion S
  | .ok a => B a
  | .error _ => A

variable {A : Assertion S} {B : α → Assertion S} {E : Text → RenameWorld S → Prop}

omit [DecidableEq S] in
/-- What holds of the result and the storages and rows. -/
theorem says_pure {a : α} (h : ∀ trees rows, A trees rows → B a trees rows) :
    Triple (Says A) (Pure.pure a : Rename S α) (fun a => Says (B a)) E :=
  triple_pure a fun w hw => h w.trees w.rows hw

omit [DecidableEq S] in
/-- A refused call is a result, too. -/
theorem says_attempt {A' : Assertion S} {x : Rename S α}
    (h : Triple (Says A) x (fun a => Says (B a)) fun _ => Says A') :
    Triple (Says A) x.attempt
      (fun r => Says (ByResult B A' r)) E := by
  refine (triple_attempt h).weaken (fun _ hw => hw) ?_ fun _ _ hw => hw
  intro r w hw
  cases r with
  | ok _ => exact hw
  | error _ => exact hw

theorem files_update {trees : S → MovableTree} {s : S} {tree : MovableTree}
    (h : tree.files = (trees s).files) (s' : S) :
    (Function.update trees s tree s').files = (trees s').files := by
  by_cases hs : s' = s
  · rw [hs, Function.update_self, h]
  · rw [Function.update_of_ne hs]

namespace RenameEnv

variable {env : RenameEnv S} (henv : env.Steady) {b : StorageHandle S} {p q : Text}

include henv

omit [DecidableEq S] in
theorem says_call {P : RenameWorld S → Prop} {Q : α → RenameWorld S → Prop}
    {f : ℕ → RenameWorld S → Option (α × RenameWorld S)}
    (hclock : ∀ w n, P w → P { w with clock := n })
    (hf : ∀ n w a w', P w → f n w = some (a, w') → Q a w')
    (hrefused : ∀ n w e, P w → f n w = none → E e w) : Triple P (env.call f) Q E := by
  intro w hw
  have hw' := hclock w (w.clock + 1) hw
  simp only [call, henv.calm]
  split
  · contradiction
  · rename_i h _
    exact hrefused _ _ _ hw' h
  · rename_i h
    exact hf _ _ _ _ hw' h
  · contradiction

theorem says_storage {f : ℕ → MovableTree → Option (α × MovableTree)}
    (h : ∀ n trees rows a t, A trees rows → f n (trees b.store) = some (a, t) →
      B a (Function.update trees b.store t) rows) :
    Triple (Says A) (env.storage b f) (fun a => Says (B a)) fun _ => Says A := by
  refine says_call henv (fun _ _ hw => hw) ?_ fun _ _ _ hw _ => hw
  intro n w a w' hw hf
  rw [Option.map_eq_some_iff] at hf
  obtain ⟨⟨a', t⟩, ht, heq⟩ := hf
  cases heq
  exact h n _ _ _ _ hw ht

/-- A question about a storage is always answered. -/
theorem says_question {g : ℕ → MovableTree → α} :
    Triple (Says A) (env.storage b fun n t => some (g n t, t))
      (fun a => Says fun trees rows => A trees rows ∧ ∃ n, g n (trees b.store) = a) E := by
  refine says_call henv (fun _ _ hw => hw) ?_ ?_
  · intro n w a w' hw hf
    cases hf
    rw [Function.update_eq_self]
    exact ⟨hw, n, rfl⟩
  · intro n w e hw hf
    cases hf

omit [DecidableEq S] in
theorem says_repo {f : RenameRows → Option (α × RenameRows)}
    (h : ∀ trees rows a rows', A trees rows → f rows = some (a, rows') → B a trees rows') :
    Triple (Says A) (env.repo f) (fun a => Says (B a)) fun _ => Says A := by
  refine says_call henv (fun _ _ hw => hw) ?_ fun _ _ _ hw _ => hw
  intro n w a w' hw hf
  rw [Option.map_eq_some_iff] at hf
  obtain ⟨⟨a', rows⟩, hrows, heq⟩ := hf
  cases heq
  exact h _ _ _ _ hw hrows

omit [DecidableEq S] in
/-- Some calls of the repository are never refused. -/
theorem says_answer {f : RenameRows → α × RenameRows}
    (h : ∀ trees rows, A trees rows → B (f rows).1 trees (f rows).2) :
    Triple (Says A) (env.repo fun r => some (f r)) (fun a => Says (B a)) E := by
  refine says_call henv (fun _ _ hw => hw) ?_ ?_
  · intro n w a w' hw hf
    cases hf
    exact h _ _ hw
  · intro n w e hw hf
    cases hf

omit [DecidableEq S] in
theorem says_ask {f : ℕ → α} :
    Triple (Says A) (env.ask f) (fun a w => (∃ n, a = f n) ∧ Says A w) E := by
  refine says_call henv (fun _ _ hw => hw) ?_ ?_
  · intro n w a w' hw hf
    cases hf
    exact ⟨⟨n, rfl⟩, hw⟩
  · intro n w e hw hf
    cases hf

/-! ## The storage backend -/

theorem says_pathExists : Triple (Says A) (env.pathExists b p)
    (fun taken => Says fun trees rows =>
      A trees rows ∧ (trees b.store).isThere (b.place p) = taken) E := by
  refine (says_question henv).weaken (fun _ h => h) ?_ fun _ _ h => h
  rintro taken w ⟨hA, -, h⟩
  exact ⟨hA, h⟩

theorem says_stat : Triple (Says A) (env.stat b p) (fun _ => Says A) E :=
  (says_question henv).weaken (fun _ h => h) (fun _ _ h => h.1) fun _ _ h => h

theorem says_listDir : Triple (Says A) (env.listDir b p)
    (fun entries => Says fun trees rows => A trees rows ∧ ∃ n l,
      (trees b.store).list (b.place p) = some l ∧
        entries = (env.arrange n l).map fun e => (b.childPath p e.1, e.2))
    fun _ => Says A := by
  refine says_storage henv ?_
  intro n trees rows entries t hA h
  rw [Option.map_eq_some_iff] at h
  obtain ⟨l, hl, heq⟩ := h
  cases heq
  rw [Function.update_eq_self]
  exact ⟨hA, n, l, hl, rfl⟩

/-- The directory is made, in which a path will lie. -/
theorem says_mkdir (hA : OnFiles A) {d : List Text} {n : Text} (hq : d ++ [n] = b.place q)
    (hp : b.place p = d) :
    Triple (Says fun trees rows => A trees rows ∧ (trees b.store).isThere (b.place q) = false)
      (env.mkdir b p)
      (fun _ => Says fun trees rows =>
        A trees rows ∧ (trees b.store).isThere (b.place q) = false) fun _ => Says A := by
  refine (says_storage henv ?_).weaken (fun _ hw => hw) (fun _ _ hw => hw) fun _ _ hw => hw.1
  intro m trees rows a t hA' h
  rw [Option.map_eq_some_iff] at h
  obtain ⟨t', ht, heq⟩ := h
  cases heq
  refine ⟨hA _ _ _ (files_update (FileTree.files_mkdir ht)) hA'.1, ?_⟩
  rw [Function.update_self]
  refine FileTree.isThere_mkdir ht ?_ hA'.2
  rw [hp, ← hq]
  intro hle
  have hlength := hle.length_le
  rw [List.length_append, List.length_singleton] at hlength
  omega

/-- A file is moved to where nothing is. -/
theorem says_move {C : Assertion S}
    (hmove : ∀ trees rows t, A trees rows → (trees b.store).isThere (b.place q) = false →
      (trees b.store).move (b.place p) (b.place q) = some t →
        C (Function.update trees b.store t) rows) :
    Triple (Says fun trees rows => A trees rows ∧ (trees b.store).isThere (b.place q) = false)
      (env.move b p q) (fun _ => Says C) fun _ => Says A := by
  refine (says_storage henv ?_).weaken (fun _ hw => hw) (fun _ _ hw => hw) fun _ _ hw => hw.1
  intro m trees rows a t hA' h
  rw [Option.map_eq_some_iff] at h
  obtain ⟨t', ht, heq⟩ := h
  cases heq
  exact hmove _ _ _ hA'.1 hA'.2 ht

/-- **A directory is made and a file moved into it**, where its target is not there. -/
theorem says_mkdir_move {C : Assertion S} (hA : OnFiles A) {dir : Text} {d : List Text} {n : Text}
    (hq : d ++ [n] = b.place q) (hdir : b.place dir = d)
    (hmove : ∀ trees rows t, A trees rows → (trees b.store).isThere (b.place q) = false →
      (trees b.store).move (b.place p) (b.place q) = some t →
        C (Function.update trees b.store t) rows) :
    Triple (Says fun trees rows => A trees rows ∧ (trees b.store).isThere (b.place q) = false)
      (do env.mkdir b dir; env.move b p q) (fun _ => Says C) fun _ => Says A :=
  triple_bind (says_mkdir henv hA hq hdir) fun _ => says_move henv hmove

/-- The same, caught: either the file is moved, or nothing is said to have changed. -/
theorem says_attempt_move {C : Assertion S} (hA : OnFiles A) {dir : Text} {d : List Text}
    {n : Text} (hq : d ++ [n] = b.place q) (hdir : b.place dir = d)
    (hmove : ∀ trees rows t, A trees rows → (trees b.store).isThere (b.place q) = false →
      (trees b.store).move (b.place p) (b.place q) = some t →
        C (Function.update trees b.store t) rows) :
    Triple (Says fun trees rows => A trees rows ∧ (trees b.store).isThere (b.place q) = false)
      (do env.mkdir b dir; env.move b p q).attempt
      (fun r => Says (ByResult (fun _ => C) A r)) E :=
  says_attempt (says_mkdir_move henv hA hq hdir hmove)

/-- An empty directory is removed, or it stays. -/
theorem says_removeEmpty (hA : OnFiles A) :
    Triple (Says A) (env.removeEmpty b p) (fun _ => Says A) fun _ => Says A := by
  refine triple_bind (says_listDir henv) fun entries => ?_
  split_ifs
  · refine (says_storage henv ?_).weaken (fun _ hw => hw) (fun _ _ hw => hw) fun _ _ hw => hw.1
    intro n trees rows a t hA' h
    obtain ⟨hA', -, l, hl, -⟩ := hA'
    rw [Option.map_eq_some_iff] at h
    obtain ⟨t', ht, heq⟩ := h
    cases heq
    exact hA _ _ _ (files_update (FileTree.files_remove ht (FileTree.isFile_of_list hl))) hA'
  · exact says_pure fun _ _ h => h.1

end RenameEnv

end WolfNas
