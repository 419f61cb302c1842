import Mathlib.Data.List.Nodup
import WolfNas.Lib.Run
import Mathlib.Logic.Function.Basic

/-!
# Changes that are taken back

A change replaces one key by another, wherever it finds it.  Changing back, the last change
first, replaces the second key by the first wherever it finds that; so it also takes what had
the second key all along.

Things that move from place to place keep apart: a hop takes one thing from a place to another,
and the hops of a log may be taken back in another order than the reverse of the log's.  It is
enough that the hops of each thing are taken back the last one first.

## Main definitions

* `Relocation.go`, `Relocation.back` — a key after one change, and after it is taken back.
* `Relocation.forth`, `Relocation.undone` — a key after all changes, and after all are taken back.
* `Relocation.Caught` — a change goes to the key before any has left it.
* `Hop T P` — one thing of `T` goes from one place of `P` to another.
* `Hop.go`, `Hop.back` — a hop, and taking it back.
* `Hop.Fits` — every hop of a log starts where its thing is.
* `Hop.Reverses` — a list has the hops of a log, those of each thing the last one first.

## Main results

* `Relocation.undone_forth_iff` — which keys come back.
* `Hop.fits_append` — the logs of two parts.
* `Hop.along_back` — when a hop is taken back, its thing is where the hop took it.
* `Hop.foldl_back` — in the end every thing is where it was before the log.
-/

namespace Relocation

variable {K : Type} [DecidableEq K]

/-- A key after a change of the first key to the second. -/
def go (k : K) (m : K × K) : K := if k = m.1 then m.2 else k

/-- A key after the second key is changed back to the first. -/
def back (k : K) (m : K × K) : K := if k = m.2 then m.1 else k

/-- A key after all changes. -/
def forth (l : List (K × K)) (k : K) : K := l.foldl go k

/-- A key after all changes are taken back, the last one first. -/
def undone (l : List (K × K)) (k : K) : K := l.reverse.foldl back k

/-- A change goes to the key, and none before it goes from it. -/
def Caught (k : K) : List (K × K) → Prop
  | [] => False
  | m :: l => m.2 = k ∨ m.1 ≠ k ∧ Caught k l

instance Caught.instDecidable (k : K) : ∀ l, Decidable (Caught k l)
  | [] => inferInstanceAs (Decidable False)
  | m :: l => by
    have := Caught.instDecidable k l
    exact inferInstanceAs (Decidable (m.2 = k ∨ m.1 ≠ k ∧ Caught k l))

variable {k : K} {m : K × K} {l : List (K × K)}

theorem forth_append (l' : List (K × K)) : forth (l ++ l') k = forth l' (forth l k) :=
  List.foldl_append

theorem forth_concat : forth (l ++ [m]) = fun k => go (forth l k) m :=
  funext fun _ => forth_append [m]

theorem undone_concat : undone (l ++ [m]) k = undone l (back k m) := by
  simp only [undone, List.reverse_append, List.reverse_singleton, List.singleton_append,
    List.foldl_cons]

theorem undone_cons : undone (m :: l) k = back (undone l k) m := by
  simp only [undone, List.reverse_cons, List.foldl_append, List.foldl_cons, List.foldl_nil]

omit [DecidableEq K] in
theorem Caught.mem (h : Caught k l) : k ∈ l.map Prod.snd := by
  induction l with
  | nil => exact h.elim
  | cons m l ih =>
    rw [List.map_cons]
    rcases h with h | ⟨-, h⟩
    · exact List.mem_cons.mpr (.inl h.symm)
    · exact List.mem_cons_of_mem _ (ih h)

/-- **A key comes back** exactly where no change caught it: each change goes to a key of its
own. -/
theorem undone_forth_iff (hnodup : (l.map Prod.snd).Nodup) (hne : ∀ m ∈ l, m.1 ≠ m.2) :
    undone l (forth l k) = k ↔ ¬Caught k l := by
  induction l generalizing k with
  | nil => simp [undone, forth, Caught]
  | cons m l ih =>
    rw [List.map_cons, List.nodup_cons] at hnodup
    have hm := hne m List.mem_cons_self
    have ih := @ih (go k m) hnodup.2 fun m hm => hne m (List.mem_cons_of_mem _ hm)
    -- No later change goes where this one does.
    have hback : ¬Caught m.2 l := fun h => hnodup.1 h.mem
    have hforth : forth (m :: l) k = forth l (go k m) := rfl
    rw [undone_cons, hforth, Caught]
    by_cases hfrom : k = m.1
    · rw [go, if_pos hfrom] at ih ⊢
      rw [ih.mpr hback, back, if_pos rfl]
      simp [hfrom, hm.symm]
    · rw [go, if_neg hfrom] at ih ⊢
      by_cases hto : k = m.2
      · subst hto
        rw [ih.mpr hback, back, if_pos rfl]
        simp [hm]
      · -- Neither key of the change is this one.
        have hstep : back (undone l (forth l k)) m = k ↔ undone l (forth l k) = k := by
          rw [back]
          split_ifs with hat
          · rw [hat]
            exact iff_of_false (Ne.symm hfrom) (Ne.symm hto)
          · exact Iff.rfl
        rw [hstep, ih]
        simp [Ne.symm hfrom, Ne.symm hto]

end Relocation

/-! ## Hops -/

/-- One thing goes from a place to another. -/
structure Hop (T P : Type) where
  thing : T
  source : P
  target : P

namespace Hop

variable {T P : Type} [DecidableEq T]

/-- The places of the things after a hop. -/
def go (pos : T → P) (h : Hop T P) : T → P := Function.update pos h.thing h.target

/-- The places of the things after a hop is taken back. -/
def back (pos : T → P) (h : Hop T P) : T → P := Function.update pos h.thing h.source

/-- Every hop starts where its thing is. -/
def Fits (pos : T → P) (log : List (Hop T P)) : Prop :=
  Run.Along go (fun pos h => pos h.thing = h.source) pos log

/-- The list has the hops of each thing in the log, the last one first. -/
def Reverses (log undo : List (Hop T P)) : Prop :=
  ∀ t, (undo.filter fun h => h.thing = t) = (log.filter fun h => h.thing = t).reverse

variable {pos : T → P} {log undo : List (Hop T P)} {h : Hop T P} {t : T}

theorem fits_append {log' : List (Hop T P)} :
    Fits pos (log ++ log') ↔ Fits pos log ∧ Fits (log.foldl go pos) log' := Run.along_append

/-! ## Hops of other things -/

theorem go_of_ne (hne : h.thing ≠ t) : go pos h t = pos t := Function.update_of_ne hne.symm _ _

/-- A thing that no hop is of stays. -/
theorem foldl_go_of_ne (hne : ∀ h ∈ log, h.thing ≠ t) : log.foldl go pos t = pos t := by
  induction log generalizing pos with
  | nil => rfl
  | cons h log ih =>
    rw [List.foldl_cons, ih fun h hh => hne h (List.mem_cons_of_mem _ hh)]
    exact go_of_ne (hne h List.mem_cons_self)

/-- Where a thing is does not matter to the hops of the others. -/
theorem foldl_go_update (hne : ∀ h ∈ log, h.thing ≠ t) (p : P) :
    log.foldl go (Function.update pos t p) = Function.update (log.foldl go pos) t p := by
  induction log generalizing pos with
  | nil => rfl
  | cons h log ih =>
    have hcomm : go (Function.update pos t p) h = Function.update (go pos h) t p :=
      Function.update_comm (hne h List.mem_cons_self).symm _ _ _
    rw [List.foldl_cons, List.foldl_cons, hcomm]
    exact ih fun h hh => hne h (List.mem_cons_of_mem _ hh)

theorem fits_update (hne : ∀ h ∈ log, h.thing ≠ t) (p : P) :
    Fits (Function.update pos t p) log ↔ Fits pos log := by
  induction log generalizing pos with
  | nil => exact Iff.rfl
  | cons h log ih =>
    have hh := hne h List.mem_cons_self
    have hcomm : go (Function.update pos t p) h = Function.update (go pos h) t p :=
      Function.update_comm hh.symm _ _ _
    have hstart : Function.update pos t p h.thing = pos h.thing := Function.update_of_ne hh _ _
    simp only [Fits, Run.Along, hcomm, hstart]
    exact and_congr_right fun _ => ih fun h hh => hne h (List.mem_cons_of_mem _ hh)

/-! ## Taking back -/

/-- The first hop that is taken back is the last one of its thing. -/
theorem Reverses.split (hrev : Reverses log (h :: undo)) :
    ∃ l l', log = l ++ h :: l' ∧ (∀ g ∈ l', g.thing ≠ h.thing) ∧ Reverses (l ++ l') undo := by
  have hown := hrev h.thing
  simp only [List.filter_cons, decide_true, if_true] at hown
  have hlog := congrArg List.reverse hown
  rw [List.reverse_reverse, List.reverse_cons, eq_comm, List.filter_eq_append_iff] at hlog
  obtain ⟨l, m, rfl, hl, hm⟩ := hlog
  rw [List.filter_eq_cons_iff] at hm
  obtain ⟨m, l', rfl, hfront, -, hend⟩ := hm
  have hlast : ∀ g ∈ l', g.thing ≠ h.thing := by
    intro g hg hthing
    have hmem : g ∈ l'.filter fun g => g.thing = h.thing := by simp [hg, hthing]
    rw [hend] at hmem
    exact absurd hmem List.not_mem_nil
  refine ⟨l ++ m, l', by simp, hlast, ?_⟩
  intro t
  by_cases ht : h.thing = t
  · have hm : (m.filter fun g => g.thing = h.thing) = [] := by
      rw [List.filter_eq_nil_iff]
      exact hfront
    subst ht
    simp only [List.filter_append, hl, hm, hend, List.append_nil, List.reverse_reverse]
  · have hother := hrev t
    simpa [List.filter_cons, ht] using hother

/-- Taking back the last hop of a thing leaves the other hops. -/
theorem back_foldl_go {l l' : List (Hop T P)} (hfits : Fits pos (l ++ h :: l'))
    (hlast : ∀ g ∈ l', g.thing ≠ h.thing) :
    (l ++ h :: l').foldl go pos h.thing = h.target ∧
      back ((l ++ h :: l').foldl go pos) h = (l ++ l').foldl go pos ∧ Fits pos (l ++ l') := by
  rw [fits_append] at hfits
  obtain ⟨hl, hh, hl'⟩ := hfits
  have hgo : (l ++ h :: l').foldl go pos =
      Function.update (l'.foldl go (l.foldl go pos)) h.thing h.target := by
    rw [List.foldl_append, List.foldl_cons]
    exact foldl_go_update hlast h.target
  have hsource : l'.foldl go (l.foldl go pos) h.thing = h.source := by
    rw [foldl_go_of_ne hlast]
    exact hh
  refine ⟨by rw [hgo, Function.update_self], ?_, ?_⟩
  · rw [hgo, back, Function.update_idem, ← hsource, Function.update_eq_self, List.foldl_append]
  · rw [fits_append]
    exact ⟨hl, (fits_update hlast h.target).mp hl'⟩

theorem eq_nil_of_reverses (hrev : Reverses log []) : log = [] := by
  cases log with
  | nil => rfl
  | cons h log =>
    have hown := hrev h.thing
    simp at hown

theorem Reverses.mem_iff (hrev : Reverses log undo) : h ∈ undo ↔ h ∈ log := by
  have hown := congrArg (h ∈ ·) (hrev h.thing)
  simpa using hown

/-- The last hop of a log is taken back before the other hops of its thing. -/
theorem Reverses.insert {l l' : List (Hop T P)} (hrev : Reverses log (l ++ l'))
    (hlast : ∀ g ∈ l, g.thing ≠ h.thing) : Reverses (log ++ [h]) (l ++ h :: l') := by
  intro t
  have hown := hrev t
  rw [List.filter_append] at hown
  rw [List.filter_append, List.filter_append, List.reverse_append]
  by_cases ht : h.thing = t
  · have hl : (l.filter fun g => g.thing = t) = [] := by
      rw [List.filter_eq_nil_iff]
      intro g hg
      simpa [← ht] using hlast g hg
    rw [hl, List.nil_append] at hown
    simp [hl, ht, hown]
  · simpa [List.filter_cons, ht] using hown

theorem Reverses.insert_front (hrev : Reverses log undo) :
    Reverses (log ++ [h]) (h :: undo) := by
  have hfront : Reverses log ([] ++ undo) := hrev
  exact hfront.insert (by simp)

/-- When a hop is taken back, its thing is where the hop took it. -/
theorem along_back (hfits : Fits pos log) (hrev : Reverses log undo) :
    Run.Along back (fun pos h => pos h.thing = h.target) (log.foldl go pos) undo := by
  induction undo generalizing log with
  | nil => trivial
  | cons h undo ih =>
    obtain ⟨l, l', rfl, hlast, hrest⟩ := hrev.split
    obtain ⟨htarget, hback, hfits'⟩ := back_foldl_go hfits hlast
    refine ⟨htarget, ?_⟩
    rw [hback]
    exact ih hfits' hrest

/-- **Taking back** the hops of each thing the last one first brings every thing to where it
was. -/
theorem foldl_back (hfits : Fits pos log) (hrev : Reverses log undo) :
    undo.foldl back (log.foldl go pos) = pos := by
  induction undo generalizing log with
  | nil => rw [eq_nil_of_reverses hrev]; rfl
  | cons h undo ih =>
    obtain ⟨l, l', rfl, hlast, hrest⟩ := hrev.split
    obtain ⟨-, hback, hfits'⟩ := back_foldl_go hfits hlast
    rw [List.foldl_cons, hback]
    exact ih hfits' hrest

end Hop
