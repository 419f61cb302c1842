import WolfNas.Lib.Path
import WolfNas.Transfer.FormatPasses

/-!
# The segments of a rendered format

A format is cut into the segments of a path at its own slashes.  Each of its characters is told
apart from those of the values, so that a slash of a value begins no segment.

## Main definitions

* `NameFormat.cells` — the characters the pieces are filled with, and whose they are.
* `NameFormat.names`, `NameFormat.segmentCount` — the tidied segments, and their number.

## Main results

* `NameFormat.tidy_literal` — the tidied text is the segments with slashes between them.
* `NameFormat.slash_mem_names_iff` — a segment has a slash exactly where a value has one.
* `NameFormat.render_literal` — what `render` returns where the values are put in as they are.
-/

namespace WolfNas

namespace NameFormat

open Format

/-- The slots of a piece that are there. -/
def Piece.present (env : Env) : Piece → List Slot
  | .slot s => [s]
  | .optional key payload => if empty env key then [] else payload

/-- The characters a slot is filled with, and whether each is the format's own. -/
def slotCells (env : Env) : Slot → List (Char × Bool)
  | .text t => t.map (·, true)
  | s => (slotLiteral env s).map (·, false)

/-- The characters the pieces are filled with, and whether each is the format's own. -/
def cells (env : Env) (l : List Piece) : List (Char × Bool) :=
  l.flatMap fun p => (p.present env).flatMap (slotCells env)

/-- The cells between the slashes of the format. -/
def segments (env : Env) (l : List Piece) : List (List (Char × Bool)) :=
  if l = [] then [] else (cells env l).splitOn ('/', true)

/-- The number of segments that the format has. -/
def segmentCount (env : Env) (l : List Piece) : ℕ := (segments env l).length

/-- The segments of the format with the values put in as they are. -/
def names (env : Env) (l : List Piece) : List Text :=
  (segments env l).map fun seg => tidy (seg.map Prod.fst)

/-- The field whose value a slot puts in. -/
def valueKey : Slot → Option Text
  | .text _ => none
  | .field key | .padded key _ => some key

/-- The fields whose values are put in. -/
def valueKeys (env : Env) (l : List Piece) : List Text :=
  l.flatMap fun p => (p.present env).filterMap valueKey

variable {env : Env} {l : List Piece} {key width s t : Text} {slot : Slot}

@[simp] theorem length_names : (names env l).length = segmentCount env l := by
  simp [names, segmentCount]

theorem map_slotCells : (slotCells env slot).map Prod.fst = slotLiteral env slot := by
  cases slot <;> simp [slotCells, slotLiteral, Function.comp_def]

theorem map_cells : (cells env l).map Prod.fst = literal env l := by
  induction l with
  | nil => rfl
  | cons p l ih =>
    have hpiece : ((p.present env).flatMap (slotCells env)).map Prod.fst = p.literal env := by
      cases p with
      | slot s => simp [Piece.present, Piece.literal, map_slotCells]
      | optional key payload =>
        simp only [Piece.present, Piece.literal]
        split
        · rfl
        · rw [List.map_flatMap]
          simp only [map_slotCells]
    simpa [cells, literal, hpiece] using ih

theorem mem_zfillRuns {c : Char} (hc : c.isDigit = false) {w : ℕ} {run : Text}
    (hrun : ∀ d ∈ run, d.isDigit = true) : c ∈ zfillRuns w run t ↔ c ∈ t := by
  have hjust : ∀ run : Text, (∀ d ∈ run, d.isDigit = true) → c ∉ Text.rjust w run := by
    intro run hrun hmem
    rcases List.mem_append.mp hmem with hmem | hmem
    · rw [List.eq_of_mem_replicate hmem] at hc
      simp at hc
    · simp [hrun c hmem] at hc
  induction t generalizing run with
  | nil =>
    rw [zfillRuns]
    split
    · simp
    · simpa using hjust run hrun
  | cons d t ih =>
    rw [zfillRuns]
    split
    · rename_i hd
      have hne : c ≠ d := by
        rintro rfl
        simp [hd] at hc
      have hrun : ∀ e ∈ run ++ [d], e.isDigit = true := by
        intro e he
        rcases List.mem_append.mp he with he | he
        · exact hrun e he
        · rw [List.mem_singleton.mp he]
          exact hd
      have hrest := ih hrun
      simp [hrest, hne]
    · have hfront : c ∉ if run = [] then [] else Text.rjust w run := by
        split
        · simp
        · exact hjust run hrun
      have hrest := @ih [] (by simp)
      simp [hfront, hrest]

/-- A padded value has the slashes and the braces of the value. -/
theorem mem_replacePadding_iff {c : Char} (hc : c.isDigit = false) :
    c ∈ replacePadding env key width ↔ ∃ v, env.fields key = some v ∧ c ∈ v.str := by
  rw [replacePadding]
  cases hv : env.fields key with
  | none => simp
  | some v =>
    simp only [Option.some.injEq, exists_eq_left']
    split
    · rename_i htab
      simp [htab, FormatValue.str]
    · exact mem_zfillRuns hc (by simp)

theorem slash_mem_slotCells_iff : ('/', false) ∈ slotCells env slot ↔
    ∃ key, valueKey slot = some key ∧ ∃ v, env.fields key = some v ∧ '/' ∈ v.str := by
  cases slot with
  | text t => simp [slotCells, valueKey]
  | field key =>
    cases hv : env.fields key with
    | none => simp [slotCells, slotLiteral, valueKey, hv]
    | some v => simp [slotCells, slotLiteral, valueKey, hv]
  | padded key width =>
    simpa [slotCells, slotLiteral, valueKey] using mem_replacePadding_iff (by decide)

/-- A slash that is not the format's own is one of a value. -/
theorem slash_mem_cells_iff : ('/', false) ∈ cells env l ↔
    ∃ key ∈ valueKeys env l, ∃ v, env.fields key = some v ∧ '/' ∈ v.str := by
  simp only [cells, valueKeys, List.mem_flatMap, List.mem_filterMap]
  constructor
  · intro ⟨p, hp, slot, hs, hmem⟩
    obtain ⟨key, hkey, hv⟩ := slash_mem_slotCells_iff.mp hmem
    exact ⟨key, ⟨p, hp, slot, hs, hkey⟩, hv⟩
  · intro ⟨key, ⟨p, hp, slot, hs, hkey⟩, hv⟩
    exact ⟨p, hp, slot, hs, slash_mem_slotCells_iff.mpr ⟨key, hkey, hv⟩⟩

/-- **A segment has a slash** exactly where a value has one. -/
theorem slash_mem_names_iff : (∃ name ∈ names env l, '/' ∈ name) ↔
    ∃ key ∈ valueKeys env l, ∃ v, env.fields key = some v ∧ '/' ∈ v.str := by
  rw [← slash_mem_cells_iff]
  by_cases hl : l = []
  · simp [hl, names, segments, cells]
  rw [names, segments, if_neg hl,
    ← Path.exists_mem_splitOn_iff (show ('/', false) ≠ ('/', true) by decide)]
  constructor
  · intro ⟨name, hname, hslash⟩
    obtain ⟨seg, hseg, rfl⟩ := List.mem_map.mp hname
    obtain ⟨⟨c, own⟩, hcell, rfl⟩ := List.mem_map.mp (slash_mem_tidy_iff.mp hslash)
    cases own with
    | true => exact absurd hcell (Path.not_mem_of_mem_splitOn hseg)
    | false => exact ⟨seg, hseg, hcell⟩
  · intro ⟨seg, hseg, hcell⟩
    exact ⟨_, List.mem_map.mpr ⟨seg, hseg, rfl⟩,
      slash_mem_tidy_iff.mpr (List.mem_map.mpr ⟨_, hcell, rfl⟩)⟩

theorem map_intercalate {α β : Type} (f : α → β) (sep : List α) (l : List (List α)) :
    (List.intercalate sep l).map f = List.intercalate (sep.map f) (l.map (List.map f)) := by
  induction l with
  | nil => rfl
  | cons x l ih =>
    cases l with
    | nil => simp
    | cons y l =>
      simp only [List.intercalate_cons_cons, List.map_cons, List.map_append] at ih ⊢
      rw [ih]

/-- **The tidied text** is the segments with slashes between them. -/
theorem tidy_literal : tidy (literal env l) = List.intercalate ['/'] (names env l) := by
  by_cases hl : l = []
  · subst hl
    rfl
  have hmap : List.intercalate ['/'] ((segments env l).map (List.map Prod.fst)) = literal env l := by
    have hcells : [('/', true)].intercalate (segments env l) = cells env l := by
      rw [segments, if_neg hl, List.intercalate_splitOn]
    rw [← map_cells, ← hcells, map_intercalate]
    rfl
  rw [← hmap, tidy_intercalate, List.map_map]
  rfl

/-- **Where the values are put in as they are**, `render` tidies the text. -/
theorem render_literal (h : filled env (source l) = .ok t) :
    render env (source l) = .ok (tidy t) := by
  rw [render]
  split
  · rename_i hnil
    rw [hnil] at h
    obtain rfl : [] = t := by simpa [filled, handed, expand, padTokens, Env.format, Env.run,
      Except.map, bind, Except.bind] using h
    rfl
  · obtain ⟨out, hout, hformat⟩ := Raise.bind_ok_iff.mp h
    simp only [hout, hformat, bind, Except.bind]

end NameFormat

end WolfNas
