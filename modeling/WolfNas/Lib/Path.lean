import WolfNas.Lib.Text

/-!
# Paths as texts

The functions of `os.path` that the verified code applies to POSIX paths.  They are defined
on the text alone and look at no file.

## Main definitions

* `Path.join` — `os.path.join` of two parts.
* `Path.dirname`, `Path.basename` — the two halves of a path at its last slash.
* `Path.splitext` — a path and its extension.
* `Path.normpath` — a path without empty, `.` and `..` parts; `Path.parts` — its parts.
* `Path.isPathInPath` — the test whether a path lies in another, by the code.
* `Path.Covers` — a path is another or an ancestor of it.
* `Path.IsName` — a part of a path that is a name.

## Main results

* `Path.parts_join_names` — joining a path with names puts them behind its parts.
* `Path.mem_parts` — what the parts of a path look like.
* `Path.normpath_normpath` — a path is normalised once.
* `Path.basename_normpath`, `Path.parts_dirname` — the last part of a path, and those before it.
-/

namespace Path

/-- `str.endswith("/")`. -/
def endsSlash (p : Text) : Bool := p.getLast? == some '/'

/-- `str.rstrip("/")`. -/
def rstripSlash (p : Text) : Text := p.rdropWhile (· == '/')

/-- `os.path.join(a, b)`. -/
def join (a b : Text) : Text :=
  if b.head? == some '/' then b
  else if a.isEmpty || endsSlash a then a ++ b
  else a ++ '/' :: b

/-- `os.path.basename`. -/
def basename (p : Text) : Text := p.rtakeWhile (· != '/')

/-- `os.path.dirname`. -/
def dirname (p : Text) : Text :=
  let head := p.rdropWhile (· != '/')
  if head.all (· == '/') then head else rstripSlash head

/-- `os.path.splitext`: leading dots of the last part start no extension. -/
def splitext (p : Text) : Text × Text :=
  let base := basename p
  let stem := base.rdropWhile (· != '.')
  if (stem.dropLast).all (· == '.') then (p, [])
  else (p.rdropWhile (· != '.') |>.dropLast, '.' :: base.rtakeWhile (· != '.'))

/-- INTERNAL: one part of a path after the parts before it, newest first. -/
private def addPart (rooted : Bool) (parts : List Text) (part : Text) : List Text :=
  if part = [] ∨ part = ['.'] then parts
  else if part ≠ ['.', '.'] then part :: parts
  else match parts with
    | [] => if rooted then [] else [part]
    | last :: rest => if last = ['.', '.'] then part :: last :: rest else rest

/-- `os.path.normpath`. -/
def normpath (p : Text) : Text :=
  let slashes := (p.takeWhile (· == '/')).length
  let root : Text := if slashes = 2 then ['/', '/'] else if slashes = 0 then [] else ['/']
  let parts := (p.splitOn '/').foldl (addPart (slashes ≠ 0)) []
  let path := root ++ List.intercalate ['/'] parts.reverse
  if path = [] then ['.'] else path

/-- The parts of a path that are left when it is normalised. -/
def parts (p : Text) : List Text :=
  ((p.splitOn '/').foldl (addPart (p.head? = some '/')) []).reverse

/-- A path is another or an ancestor of it. -/
def Covers (p q : Text) : Prop :=
  (p.head? = some '/' ↔ q.head? = some '/') ∧ parts p <+: parts q

instance (p q : Text) : Decidable (Covers p q) := by unfold Covers; infer_instance

/-- The directories above a path, as far as the code goes through them: the path itself does
not count, and a directory that is its own parent ends the search.  Every step shortens the
path, so its length bounds the steps. -/
def above (target : Text) : ℕ → Text → Bool
  | 0, _ => false
  | n + 1, p =>
    if p = target then true
    else
      let p := dirname p
      if p = dirname p then false else above target n p

/-- `is_path_in_path`. -/
def isPathInPath (path1 path2 : Text) : Bool :=
  if path1 = [] ∨ path2 = [] then false
  else
    let slash := fun p : Text => p.map fun c => if c = '\\' then '/' else c
    let path1 := slash (normpath path1)
    let path2 := slash (normpath path2)
    path1 = path2 || above path1 (path2.length + 1) (dirname path2)

/-! ## Parts -/

/-- A part of a path that stays where the path is normalised. -/
def IsName (s : Text) : Prop := s ≠ [] ∧ s ≠ ['.'] ∧ s ≠ ['.', '.'] ∧ '/' ∉ s

instance (s : Text) : Decidable (IsName s) := inferInstanceAs (Decidable (_ ∧ _))

private theorem addPart_of_isName {rooted : Bool} {acc : List Text} {s : Text} (h : IsName s) :
    addPart rooted acc s = s :: acc := by
  unfold addPart
  rw [if_neg (by simp [h.1, h.2.1]), if_pos h.2.2.1]

private theorem foldl_addPart_names {rooted : Bool} {acc names : List Text}
    (h : ∀ s ∈ names, IsName s) : names.foldl (addPart rooted) acc = names.reverse ++ acc := by
  induction names generalizing acc with
  | nil => rfl
  | cons s names ih =>
    rw [List.foldl_cons, addPart_of_isName (h s List.mem_cons_self),
      ih fun s hs => h s (List.mem_cons_of_mem _ hs)]
    simp

/-- Joining a path with one that is not rooted goes on behind its parts. -/
private theorem parts_join {p q : Text} (hp : p ≠ []) (hq : q.head? ≠ some '/') :
    parts (join p q) =
      ((q.splitOn '/').foldl (addPart (p.head? = some '/')) (parts p).reverse).reverse := by
  have hhead : ∀ s, (p ++ s).head? = p.head? := by
    intro s
    cases p with
    | nil => exact absurd rfl hp
    | cons c p => rfl
  rw [join, if_neg (by simpa using hq)]
  split
  · rename_i hslash
    have hends : p.getLast? = some '/' := by
      simpa [hp, endsSlash] using hslash
    obtain ⟨r, rfl⟩ : ∃ r, p = r ++ ['/'] :=
      ⟨p.dropLast, (List.dropLast_append_getLast? '/' hends).symm⟩
    have hsplit : (r ++ ['/']).splitOn '/' = r.splitOn '/' ++ [[]] := by
      rw [List.splitOn_append_cons_self]
      rfl
    rw [parts, parts, hhead q, List.append_assoc, List.singleton_append,
      List.splitOn_append_cons_self, List.foldl_append, hsplit, List.foldl_append]
    simp [addPart]
  · rw [parts, parts, hhead, List.splitOn_append_cons_self, List.foldl_append, List.reverse_reverse]

theorem join_ne_nil {p q : Text} (hp : p ≠ []) : join p q ≠ [] := by
  rw [join]
  split
  · intro hq
    simp_all
  · split
    · simp [hp]
    · simp

/-- **Joining a path with names** puts them behind its parts. -/
theorem parts_join_names {p : Text} {names : List Text} (hp : p ≠ [])
    (h : ∀ s ∈ names, IsName s) :
    parts (join p (List.intercalate ['/'] names)) = parts p ++ names := by
  cases names with
  | nil =>
    rw [parts_join hp (by simp)]
    simp [addPart]
  | cons s names =>
    have hs := h s List.mem_cons_self
    have hhead : (List.intercalate ['/'] (s :: names)).head? ≠ some '/' := by
      obtain ⟨c, s, rfl⟩ := List.exists_cons_of_ne_nil hs.1
      have hc : c ≠ '/' := by
        intro hc
        exact hs.2.2.2 (by simp [hc])
      cases names <;> simpa using hc
    rw [parts_join hp hhead, List.splitOn_intercalate '/' (fun s hs => (h s hs).2.2.2) (by simp),
      foldl_addPart_names h]
    simp

theorem parts_join_join {p : Text} {l l' : List Text} (hp : p ≠ []) (h : ∀ s ∈ l ++ l', IsName s) :
    parts (join (join p (List.intercalate ['/'] l)) (List.intercalate ['/'] l')) =
      parts p ++ (l ++ l') := by
  rw [parts_join_names (join_ne_nil hp) fun s hs => h s (by simp [hs]),
    parts_join_names hp fun s hs => h s (by simp [hs]), List.append_assoc]

section Split

variable {α : Type} [BEq α] [LawfulBEq α] {a c : α} {l s : List α}

theorem not_mem_of_mem_splitOn (h : s ∈ l.splitOn a) : a ∉ s := by
  induction l generalizing s with
  | nil =>
    obtain rfl : s = [] := by simpa using h
    simp
  | cons d l ih =>
    rw [List.splitOn_cons_eq_if_modifyHead] at h
    split at h
    · rcases List.mem_cons.mp h with rfl | h
      · simp
      · exact ih h
    · rename_i hne
      obtain ⟨t, rest, hrest⟩ := List.exists_cons_of_ne_nil (List.splitOn_ne_nil a l)
      rw [hrest] at h ih
      rcases List.mem_cons.mp h with rfl | h
      · have had : a ≠ d := by
          rintro rfl
          exact hne (by simp)
        simp [had, ih List.mem_cons_self]
      · exact ih (List.mem_cons_of_mem _ h)

/-- A member that is not split at is in one of the parts. -/
theorem exists_mem_splitOn_iff (hc : c ≠ a) : (∃ s ∈ l.splitOn a, c ∈ s) ↔ c ∈ l := by
  induction l with
  | nil => simp
  | cons d l ih =>
    rw [List.splitOn_cons_eq_if_modifyHead]
    split
    · rename_i hd
      obtain rfl : d = a := by simpa using hd
      simp [ih, hc]
    · obtain ⟨t, rest, hrest⟩ := List.exists_cons_of_ne_nil (List.splitOn_ne_nil a l)
      rw [hrest] at ih ⊢
      simp only [List.modifyHead_cons, List.mem_cons, exists_eq_or_imp] at ih ⊢
      rw [or_assoc, ih]

end Split

/-- What holds of the parts between the slashes holds of those that are left. -/
private theorem foldl_addPart_forall {Q : Text → Prop} {rooted : Bool} {l acc : List Text}
    (hl : ∀ s ∈ l, Q s) (hacc : ∀ s ∈ acc, s ≠ [] ∧ s ≠ ['.'] ∧ Q s) :
    ∀ s ∈ l.foldl (addPart rooted) acc, s ≠ [] ∧ s ≠ ['.'] ∧ Q s := by
  induction l generalizing acc with
  | nil => exact hacc
  | cons part l ih =>
    refine ih (fun s hs => hl s (List.mem_cons_of_mem _ hs)) fun s hs => ?_
    have hpart := hl part List.mem_cons_self
    unfold addPart at hs
    split at hs
    · exact hacc s hs
    · rename_i hne
      rw [not_or] at hne
      have hnew : ∀ t ∈ part :: acc, t ≠ [] ∧ t ≠ ['.'] ∧ Q t := by
        intro t ht
        rcases List.mem_cons.mp ht with rfl | ht
        · exact ⟨hne.1, hne.2, hpart⟩
        · exact hacc t ht
      split at hs
      · exact hnew s hs
      · split at hs
        · split at hs
          · simp at hs
          · exact hnew s (List.mem_cons.mpr (.inl (List.mem_singleton.mp hs)))
        · split at hs
          · exact hnew s hs
          · exact hacc s (List.mem_cons_of_mem _ hs)

/-- What the parts of a path look like. -/
theorem mem_parts {p s : Text} (h : s ∈ parts p) : s ≠ [] ∧ s ≠ ['.'] ∧ '/' ∉ s :=
  @foldl_addPart_forall (fun s => '/' ∉ s) _ _ [] (fun _ hs => not_mem_of_mem_splitOn hs)
    (by simp) s (List.mem_reverse.mp h)

/-- The last of some names is a path only where it is a path of one name. -/
theorem length_eq_one_of_getLast {l l' : List Text} (h : ∀ s ∈ l ++ l', IsName s)
    (hlast : (l ++ l').getLast? = some (List.intercalate ['/'] l')) : l'.length = 1 := by
  have hname := h _ (List.mem_of_getLast? hlast)
  match l' with
  | [] => exact absurd rfl hname.1
  | [_] => rfl
  | s :: t :: l' => exact absurd (by simp [List.intercalate_cons_cons]) hname.2.2.2

theorem basename_unslashed (p : Text) : '/' ∉ basename p := by
  intro h
  have hmem := List.mem_reverse.mp h
  simpa using List.mem_takeWhile_imp hmem

theorem splitext_fst_subset (p : Text) : (splitext p).1 ⊆ p := by
  simp only [splitext]
  split
  · exact List.Subset.refl p
  · intro c hc
    exact (List.rdropWhile_prefix _ _).subset (List.dropLast_subset _ hc)

theorem splitext_snd_unslashed (p : Text) : '/' ∉ (splitext p).2 := by
  simp only [splitext]
  split
  · simp
  · intro h
    rcases List.mem_cons.mp h with h | h
    · exact absurd h (by decide)
    · exact basename_unslashed p ((List.rtakeWhile_suffix _ _).subset h)

/-- A name is its own last part. -/
theorem basename_of_unslashed {n : Text} (h : '/' ∉ n) : basename n = n := by
  rw [basename, List.rtakeWhile_eq_self_iff]
  intro c hc
  simpa using ne_of_mem_of_not_mem hc h

/-- What stands before the last dot, with it. -/
private theorem upToDot {n : Text} (h : n.rdropWhile (· != '.') ≠ []) :
    (n.rdropWhile (· != '.')).dropLast ++ ['.'] = n.rdropWhile (· != '.') := by
  have hlast := List.rdropWhile_last_not (· != '.') n h
  have hdot : (n.rdropWhile (· != '.')).getLast h = '.' := by simpa using hlast
  conv_rhs => rw [← List.dropLast_append_getLast h, hdot]

/-- A name is its stem and its extension. -/
theorem splitext_append {n : Text} (h : '/' ∉ n) : (splitext n).1 ++ (splitext n).2 = n := by
  simp only [splitext, basename_of_unslashed h]
  split
  · exact List.append_nil n
  · rename_i hdots
    have hne : n.rdropWhile (· != '.') ≠ [] := fun hnil => hdots (by rw [hnil]; rfl)
    rw [List.append_cons, upToDot hne, List.rdropWhile_append_rtakeWhile]

/-- An extension is empty, or starts with a dot and has no other. -/
theorem splitext_snd (n : Text) :
    (splitext n).2 = [] ∨ ∃ e, '.' ∉ e ∧ (splitext n).2 = '.' :: e := by
  simp only [splitext]
  split
  · exact .inl rfl
  · refine .inr ⟨_, fun hdot => ?_, rfl⟩
    simpa using List.mem_rtakeWhile_imp hdot

/-- The names of two lists, with a slash between. -/
theorem intercalate_append {l m : List Text} (hl : l ≠ []) (hm : m ≠ []) :
    List.intercalate ['/'] (l ++ m) =
      List.intercalate ['/'] l ++ '/' :: List.intercalate ['/'] m := by
  induction l with
  | nil => exact absurd rfl hl
  | cons t l ih =>
    cases l with
    | nil =>
      obtain ⟨u, m, rfl⟩ := List.exists_cons_of_ne_nil hm
      simp
    | cons u l =>
      have ih := ih (by simp)
      simp only [List.cons_append, List.intercalate_cons_cons] at ih ⊢
      rw [ih]
      simp

theorem intercalate_concat {l : List Text} (hl : l ≠ []) (s : Text) :
    List.intercalate ['/'] (l ++ [s]) = List.intercalate ['/'] l ++ '/' :: s := by
  rw [intercalate_append hl (by simp), List.intercalate_singleton]

/-- The last name of a path. -/
theorem basename_intercalate {l : List Text} {s : Text} (hs : '/' ∉ s) :
    basename (List.intercalate ['/'] (l ++ [s])) = s := by
  have hall : ∀ c ∈ s.reverse, (c != '/') = true := by
    intro c hc
    have hne : c ≠ '/' := by
      rintro rfl
      exact hs (List.mem_reverse.mp hc)
    simpa using hne
  cases l with
  | nil =>
    rw [List.nil_append, List.intercalate_singleton, basename, List.rtakeWhile,
      List.takeWhile_eq_self_iff.mpr hall, List.reverse_reverse]
  | cons t l =>
    rw [intercalate_concat (by simp), basename, List.rtakeWhile, List.reverse_append,
      List.reverse_cons, List.append_assoc, List.takeWhile_append_of_pos hall]
    simp

/-- The characters at both ends of a path of names. -/
theorem ends_intercalate {l : List Text} (hl : l ≠ []) (h : ∀ s ∈ l, s ≠ [] ∧ '/' ∉ s) :
    (List.intercalate ['/'] l).head? ≠ some '/' ∧ (List.intercalate ['/'] l).getLast? ≠ some '/' ∧
      List.intercalate ['/'] l ≠ [] := by
  have hends : ∀ s ∈ l, s.head? ≠ some '/' ∧ s.getLast? ≠ some '/' := by
    intro s hs
    constructor
    · intro hhead
      exact (h s hs).2 (List.mem_of_mem_head? hhead)
    · intro hlast
      exact (h s hs).2 (List.mem_of_getLast? hlast)
  obtain ⟨t, l', rfl⟩ := List.exists_cons_of_ne_nil hl
  obtain ⟨c, t', ht⟩ := List.exists_cons_of_ne_nil (h t List.mem_cons_self).1
  have hhead := (hends t List.mem_cons_self).1
  have hfront : ∃ u, List.intercalate ['/'] (t :: l') = c :: u := by
    cases l' with
    | nil => exact ⟨t', by simp [ht]⟩
    | cons u l' => exact ⟨_, by rw [List.intercalate_cons_cons, ht]; rfl⟩
  obtain ⟨u, hu⟩ := hfront
  refine ⟨by rw [hu]; simpa [ht] using hhead, ?_, by simp [hu]⟩
  obtain ⟨init, s, hinit⟩ : ∃ init s, t :: l' = init ++ [s] :=
    ⟨(t :: l').dropLast, (t :: l').getLast (by simp), (List.dropLast_append_getLast _).symm⟩
  rw [hinit] at h hends ⊢
  have hs := h s (by simp)
  have hlast := (hends s (by simp)).2
  by_cases hnil : init = []
  · simpa [hnil] using hlast
  · obtain ⟨r, d, hd⟩ : ∃ r d, s = r ++ [d] :=
      ⟨s.dropLast, s.getLast hs.1, (List.dropLast_append_getLast hs.1).symm⟩
    have hd' : d ≠ '/' := by simpa [hd] using hlast
    rw [intercalate_concat hnil, hd, ← List.cons_append, ← List.append_assoc, List.getLast?_concat]
    simpa using hd'

theorem rstripSlash_eq_self {p : Text} (h : p.getLast? ≠ some '/') : rstripSlash p = p := by
  rw [rstripSlash, List.rdropWhile_eq_self_iff]
  intro hp hlast
  rw [List.getLast?_eq_some_getLast hp] at h
  exact h (by simpa using hlast)

/-- What stands in front of the last name of a path. -/
theorem dirname_intercalate {l : List Text} {s : Text} (hl : ∀ s ∈ l, s ≠ [] ∧ '/' ∉ s)
    (hs : '/' ∉ s) : dirname (List.intercalate ['/'] (l ++ [s])) = List.intercalate ['/'] l := by
  have hall : ∀ c ∈ s.reverse, (c != '/') = true := by
    intro c hc
    have hne : c ≠ '/' := by
      rintro rfl
      exact hs (List.mem_reverse.mp hc)
    simpa using hne
  by_cases hnil : l = []
  · subst hnil
    have hdrop : List.dropWhile (fun c => c != '/') s.reverse = [] :=
      List.dropWhile_eq_nil_iff.mpr hall
    simp [dirname, List.rdropWhile, hdrop]
  · have hdrop : (List.intercalate ['/'] (l ++ [s])).rdropWhile (· != '/') =
        List.intercalate ['/'] l ++ ['/'] := by
      rw [intercalate_concat hnil, List.rdropWhile, List.reverse_append, List.reverse_cons,
        List.append_assoc, List.dropWhile_append_of_pos hall]
      simp
    obtain ⟨hhead, hlast, hne⟩ := ends_intercalate hnil hl
    have hsome : (List.intercalate ['/'] l ++ ['/']).all (· == '/') = false := by
      obtain ⟨c, u, hu⟩ := List.exists_cons_of_ne_nil hne
      rw [hu] at hhead ⊢
      simp at hhead
      simp [hhead]
    rw [dirname, hdrop, if_neg (by simp [hsome]), rstripSlash,
      List.rdropWhile_concat_pos _ _ _ (by simp)]
    exact rstripSlash_eq_self hlast

/-! ## Normalising twice -/

/-- The parts are what is left of them when they are normalised. -/
private def Condensed (rooted : Bool) (parts : List Text) : Prop :=
  parts.reverse.foldl (addPart rooted) [] = parts ∧ ∀ s ∈ parts, s ≠ [] ∧ s ≠ ['.']

private theorem condensed_cons {rooted : Bool} {parts : List Text} {s : Text}
    (h : Condensed rooted parts) (hadd : addPart rooted parts s = s :: parts)
    (hs : s ≠ [] ∧ s ≠ ['.']) : Condensed rooted (s :: parts) := by
  constructor
  · rw [List.reverse_cons, List.foldl_append, h.1]
    exact hadd
  · intro t ht
    rcases List.mem_cons.mp ht with rfl | ht
    · exact hs
    · exact h.2 t ht

/-- A part that is no `..` was put behind those before it. -/
private theorem condensed_tail {rooted : Bool} {parts : List Text} {s : Text}
    (h : Condensed rooted (s :: parts)) (hs : s ≠ ['.', '.']) : Condensed rooted parts := by
  have hblank := h.2 s List.mem_cons_self
  have hfold := h.1
  rw [List.reverse_cons, List.foldl_append, List.foldl_cons, List.foldl_nil] at hfold
  unfold addPart at hfold
  rw [if_neg (by simp [hblank.1, hblank.2]), if_pos hs] at hfold
  exact ⟨(List.cons.inj hfold).2, fun t ht => h.2 t (List.mem_cons_of_mem _ ht)⟩

private theorem condensed_addPart {rooted : Bool} {parts : List Text} (h : Condensed rooted parts)
    (s : Text) : Condensed rooted (addPart rooted parts s) := by
  by_cases hblank : s = [] ∨ s = ['.']
  · unfold addPart
    rw [if_pos hblank]
    exact h
  · have hs := not_or.mp hblank
    by_cases hup : s = ['.', '.']
    · cases parts with
      | nil =>
        cases rooted with
        | true => simpa [addPart, hup] using h
        | false => simpa [addPart, hup] using condensed_cons h (by simp [addPart, hup]) hs
      | cons last parts =>
        by_cases hlast : last = ['.', '.']
        · have hadd : addPart rooted (last :: parts) s = s :: last :: parts := by
            simp [addPart, hup, hlast]
          rw [hadd]
          exact condensed_cons h hadd hs
        · have hadd : addPart rooted (last :: parts) s = parts := by
            simp [addPart, hup, hlast]
          rw [hadd]
          exact condensed_tail h hlast
    · have hadd : addPart rooted parts s = s :: parts := by
        simp only [addPart, if_neg hblank, if_pos hup]
      rw [hadd]
      exact condensed_cons h hadd hs

private theorem condensed_foldl (rooted : Bool) (l : List Text) :
    Condensed rooted (l.foldl (addPart rooted) []) := by
  have hkeep : ∀ parts, Condensed rooted parts →
      Condensed rooted (l.foldl (addPart rooted) parts) := by
    induction l with
    | nil => exact fun _ h => h
    | cons s l ih => exact fun parts h => ih _ (condensed_addPart h s)
  exact hkeep [] ⟨rfl, by simp⟩

private theorem splitOn_names {l : List Text} (hl : l ≠ []) (h : ∀ s ∈ l, '/' ∉ s) :
    (List.intercalate ['/'] l).splitOn '/' = l := List.splitOn_intercalate '/' h hl

/-- The parts of a root in front of names are blank. -/
private theorem foldl_addPart_root {rooted : Bool} {root : Text} {l : List Text}
    (hroot : ∀ c ∈ root, c = '/') (h : ∀ s ∈ l, '/' ∉ s) :
    ((root ++ List.intercalate ['/'] l).splitOn '/').foldl (addPart rooted) [] =
      l.foldl (addPart rooted) [] := by
  induction root with
  | nil =>
    by_cases hl : l = []
    · simp [hl, addPart]
    · rw [List.nil_append, splitOn_names hl h]
  | cons c root ih =>
    obtain rfl := hroot c List.mem_cons_self
    have hsplit : ('/' :: root ++ List.intercalate ['/'] l).splitOn '/' =
        [] :: (root ++ List.intercalate ['/'] l).splitOn '/' :=
      List.splitOn_append_cons_self [] (root ++ List.intercalate ['/'] l)
    have hblank : addPart rooted [] [] = [] := by simp [addPart]
    rw [hsplit, List.foldl_cons, hblank]
    exact ih fun c hc => hroot c (List.mem_cons_of_mem _ hc)

/-- The names of a path start with no slash. -/
private theorem takeWhile_root {root : Text} {l : List Text} (hroot : ∀ c ∈ root, c = '/')
    (h : ∀ s ∈ l, s ≠ [] ∧ '/' ∉ s) :
    (root ++ List.intercalate ['/'] l).takeWhile (· == '/') = root := by
  have hnames : (List.intercalate ['/'] l).takeWhile (· == '/') = [] := by
    by_cases hl : l = []
    · simp [hl]
    · have hhead := (ends_intercalate hl h).1
      cases hinter : List.intercalate ['/'] l with
      | nil => rfl
      | cons c s =>
        rw [hinter] at hhead
        simp only [List.head?_cons, ne_eq, Option.some.injEq] at hhead
        simp [hhead]
  rw [List.takeWhile_append_of_pos (fun c hc => by simp [hroot c hc]), hnames, List.append_nil]

/-- The slashes that a path starts with once it is normalised. -/
def root (p : Text) : Text :=
  let slashes := (p.takeWhile (· == '/')).length
  if slashes = 2 then ['/', '/'] else if slashes = 0 then [] else ['/']

theorem rooted_iff {p : Text} : (p.takeWhile (· == '/')).length ≠ 0 ↔ p.head? = some '/' := by
  cases p with
  | nil => simp
  | cons c p =>
    by_cases hc : c = '/'
    · simp [hc]
    · simp [hc]

/-- A normalised path consists of its slashes and its parts. -/
theorem normpath_eq (p : Text) : normpath p =
    if root p ++ List.intercalate ['/'] (parts p) = [] then ['.']
    else root p ++ List.intercalate ['/'] (parts p) := by
  have hrooted : decide ((p.takeWhile (· == '/')).length ≠ 0) = decide (p.head? = some '/') := by
    rw [decide_eq_decide]
    exact rooted_iff
  rw [parts, ← hrooted]
  rfl

theorem mem_root {p : Text} {c : Char} (h : c ∈ root p) : c = '/' := by
  simp only [root] at h
  split_ifs at h <;> simp at h <;> exact h

theorem root_eq_nil {p : Text} : root p = [] ↔ p.head? ≠ some '/' := by
  rw [Ne, ← rooted_iff, root]
  split_ifs with h2 h0
  · simp [h2]
  · simp [h0]
  · simp [h0]

/-- The slashes that a path of slashes and names starts with. -/
private theorem takeWhile_normal (p : Text) :
    (root p ++ List.intercalate ['/'] (parts p)).takeWhile (· == '/') = root p :=
  takeWhile_root (fun _ hc => mem_root hc) fun _ hs => ⟨(mem_parts hs).1, (mem_parts hs).2.2⟩

theorem root_normpath (p : Text) : root (normpath p) = root p := by
  rw [normpath_eq]
  split_ifs with hnil
  · rw [(List.append_eq_nil_iff.mp hnil).1]
    rfl
  · have hlength : (root p).length = 2 ∧ root p = ['/', '/'] ∨ (root p).length = 0 ∧ root p = [] ∨
        (root p).length = 1 ∧ root p = ['/'] := by
      simp only [root]
      split_ifs <;> simp
    conv_lhs => rw [root, takeWhile_normal]
    rcases hlength with ⟨hlen, heq⟩ | ⟨hlen, heq⟩ | ⟨hlen, heq⟩
    · simp [heq]
    · simp [heq]
    · simp [heq]

theorem head_normpath {p : Text} : (normpath p).head? = some '/' ↔ p.head? = some '/' := by
  have hroot := root_normpath p
  rw [← not_iff_not, ← Ne, ← Ne, ← root_eq_nil, ← root_eq_nil, hroot]

/-- Normalising leaves the parts of a path. -/
theorem parts_normpath (p : Text) : parts (normpath p) = parts p := by
  have hhead : decide ((normpath p).head? = some '/') = decide (p.head? = some '/') := by
    rw [decide_eq_decide]
    exact head_normpath
  have hcond : Condensed (p.head? = some '/') (parts p).reverse := by
    rw [parts, List.reverse_reverse]
    exact condensed_foldl _ _
  rw [parts, hhead, normpath_eq]
  split_ifs with hnil
  · have hparts : parts p = [] := by
      by_contra hne
      exact (ends_intercalate hne fun s hs => ⟨(mem_parts hs).1, (mem_parts hs).2.2⟩).2.2
        (List.append_eq_nil_iff.mp hnil).2
    have hdot : List.splitOn '/' (['.'] : Text) = [['.']] := by decide
    rw [hparts, hdot]
    simp [addPart]
  · rw [foldl_addPart_root (fun _ hc => mem_root hc) fun _ hs => (mem_parts hs).2.2]
    have hfold := hcond.1
    rw [List.reverse_reverse] at hfold
    rw [hfold, List.reverse_reverse]

/-- **A path is normalised once.** -/
theorem normpath_normpath (p : Text) : normpath (normpath p) = normpath p := by
  rw [normpath_eq (normpath p), root_normpath, parts_normpath, ← normpath_eq]

theorem normpath_ne_nil (p : Text) : normpath p ≠ [] := by
  rw [normpath_eq]
  split_ifs with hnil
  · simp
  · exact hnil

theorem parts_of_isName {s : Text} (h : IsName s) : parts s = [s] := by
  have hsplit : s.splitOn '/' = [s] := by
    simpa using splitOn_names (l := [s]) (by simp) (by simpa using h.2.2.2)
  rw [parts, hsplit, foldl_addPart_names (by simpa using h)]
  rfl

/-! ## The last part of a path -/

theorem basename_append {r q : Text} (hr : ∀ c ∈ r, c = '/') : basename (r ++ q) = basename q := by
  have hnone : r.reverse.takeWhile (· != '/') = [] := by
    rw [List.takeWhile_eq_nil_iff]
    intro hlength
    simpa using hr _ (List.mem_reverse.mp (List.getElem_mem hlength))
  rw [basename, List.rtakeWhile, List.reverse_append, List.takeWhile_append, hnone, List.append_nil]
  split_ifs with hall
  · rw [basename, List.rtakeWhile, List.Sublist.eq_of_length (List.takeWhile_sublist _) hall]
  · rfl

private theorem rdropWhile_append_of_ne {α : Type} {f : α → Bool} {r q : List α}
    (h : q.rdropWhile f ≠ []) : (r ++ q).rdropWhile f = r ++ q.rdropWhile f := by
  have hsome : (q.reverse.dropWhile f).isEmpty = false := by
    simpa [List.rdropWhile] using h
  rw [List.rdropWhile, List.reverse_append, List.dropWhile_append, hsome]
  simp [List.rdropWhile]

private theorem rdropWhile_append_of_eq {α : Type} {f : α → Bool} {r q : List α}
    (h : q.rdropWhile f = []) : (r ++ q).rdropWhile f = r.rdropWhile f := by
  have hnone : (q.reverse.dropWhile f).isEmpty = true := by
    simpa [List.rdropWhile] using h
  rw [List.rdropWhile, List.reverse_append, List.dropWhile_append, hnone]
  rfl

/-- A name that is no row of dots, a dot and an extension. -/
theorem splitext_of_dot {n e : Text} (hn : '/' ∉ n) (he : '/' ∉ e ∧ '.' ∉ e)
    (hdots : ¬n.all (· == '.') = true) : splitext (n ++ '.' :: e) = (n, '.' :: e) := by
  have hslash : '/' ∉ n ++ '.' :: e := by simp [hn, he.1]
  have hplain : e.rdropWhile (· != '.') = [] := by
    rw [List.rdropWhile_eq_nil_iff]
    intro c hc
    simpa using ne_of_mem_of_not_mem hc he.2
  have hstem : (n ++ '.' :: e).rdropWhile (· != '.') = n ++ ['.'] := by
    rw [List.append_cons, rdropWhile_append_of_eq hplain]
    exact List.rdropWhile_concat_neg _ _ _ (by simp)
  have hext : (n ++ '.' :: e).rtakeWhile (· != '.') = e := by
    have happend : (n ++ '.' :: e).rdropWhile (· != '.') ++
        (n ++ '.' :: e).rtakeWhile (· != '.') = n ++ '.' :: e := List.rdropWhile_append_rtakeWhile
    rw [hstem, List.append_assoc, List.singleton_append] at happend
    exact (List.cons_inj_right _).mp (List.append_cancel_left happend)
  simp only [splitext, basename_of_unslashed hslash, hstem, hext, List.dropLast_concat]
  rw [if_neg hdots]

theorem dirname_append {r q : Text} (hr : ∀ c ∈ r, c = '/') (hq : q.head? ≠ some '/') :
    dirname (r ++ q) = r ++ dirname q := by
  have hall : r.all (· == '/') = true := by simpa using hr
  have hslashes : r.rdropWhile (· != '/') = r := by
    rw [List.rdropWhile_eq_self_iff]
    intro hne
    simpa using hr _ (List.getLast_mem hne)
  by_cases hhead : q.rdropWhile (· != '/') = []
  · simp only [dirname, rdropWhile_append_of_eq hhead, hslashes, hall, hhead]
    simp
  · -- What stands in front of the last name of the path starts with no slash.
    have hsome : (q.rdropWhile (· != '/')).all (· == '/') = false := by
      obtain ⟨t, ht⟩ := List.rdropWhile_prefix (· != '/') q
      obtain ⟨c, u, hu⟩ := List.exists_cons_of_ne_nil hhead
      rw [hu] at ht ⊢
      rw [← ht] at hq
      simp only [List.cons_append, List.head?_cons, ne_eq, Option.some.injEq] at hq
      simp [hq]
    have hne : rstripSlash (q.rdropWhile (· != '/')) ≠ [] := by
      intro hnil
      rw [rstripSlash, List.rdropWhile_eq_nil_iff] at hnil
      rw [List.all_eq_true.mpr hnil] at hsome
      cases hsome
    simp only [dirname, rdropWhile_append_of_ne hhead, List.all_append, hall, hsome]
    exact rdropWhile_append_of_ne hne

/-- A path without parts has no name. -/
theorem parts_ne_nil {p : Text} (h : IsName (basename (normpath p))) : parts p ≠ [] := by
  intro hnil
  rw [normpath_eq, hnil, List.intercalate_nil] at h
  split_ifs at h
  · exact absurd h (by decide)
  · rw [basename_append fun _ hc => mem_root hc] at h
    exact absurd h (by decide)

section Last

variable {p s : Text} {l : List Text} (hparts : parts p = l ++ [s])

include hparts

private theorem plain_of_parts : ∀ t ∈ l ++ [s], t ≠ [] ∧ '/' ∉ t := by
  intro t ht
  have hpart := mem_parts (hparts ▸ ht)
  exact ⟨hpart.1, hpart.2.2⟩

/-- A path that is normalised, by its slashes and its parts. -/
theorem normpath_of_parts : normpath p = root p ++ List.intercalate ['/'] (l ++ [s]) := by
  have hmem := plain_of_parts hparts
  have hne := (ends_intercalate (by simp) hmem).2.2
  rw [normpath_eq, hparts, if_neg fun hnil => hne (List.append_eq_nil_iff.mp hnil).2]

theorem basename_normpath : basename (normpath p) = s := by
  have hs := (plain_of_parts hparts s (by simp)).2
  rw [normpath_of_parts hparts, basename_append fun _ hc => mem_root hc, basename_intercalate hs]

/-- **The directory of a path** has the parts before the last one. -/
theorem parts_dirname (hs : s ≠ ['.', '.']) : parts (dirname (normpath p)) = l := by
  have hmem := plain_of_parts hparts
  have hl : ∀ t ∈ l, t ≠ [] ∧ '/' ∉ t := fun t ht => hmem t (List.mem_append_left _ ht)
  have hhead := (ends_intercalate (by simp) hmem).1
  rw [normpath_of_parts hparts, dirname_append (fun _ hc => mem_root hc) hhead,
    dirname_intercalate hl (hmem s (by simp)).2]
  have hrooted : decide ((root p ++ List.intercalate ['/'] l).head? = some '/') =
      decide (p.head? = some '/') := by
    rw [decide_eq_decide]
    cases hroot : root p with
    | nil =>
      refine iff_of_false ?_ (root_eq_nil.mp hroot)
      by_cases hnil : l = []
      · simp [hnil]
      · exact (ends_intercalate hnil hl).1
    | cons c r =>
      obtain rfl : c = '/' := mem_root (p := p) (by simp [hroot])
      refine iff_of_true rfl ?_
      by_contra hhead
      rw [root_eq_nil.mpr hhead] at hroot
      cases hroot
  have hcond : Condensed (p.head? = some '/') (s :: l.reverse) := by
    have hfold := condensed_foldl (p.head? = some '/') (p.splitOn '/')
    rw [parts] at hparts
    rwa [List.reverse_eq_iff.mp hparts, List.reverse_append, List.reverse_singleton] at hfold
  have hfold := (condensed_tail hcond hs).1
  rw [List.reverse_reverse] at hfold
  rw [parts, hrooted, foldl_addPart_root (fun _ hc => mem_root hc) fun t ht => (hl t ht).2, hfold,
    List.reverse_reverse]

end Last

/-- Normalising a path leaves what it covers. -/
theorem covers_normpath {p q : Text} : Covers (normpath p) q ↔ Covers p q := by
  rw [Covers, Covers, parts_normpath, head_normpath]

/-- The characters of a path that is normalised. -/
theorem mem_normpath {p : Text} {c : Char} (h : c ∈ normpath p) : c ∈ p ∨ c = '/' ∨ c = '.' := by
  by_contra hnone
  simp only [not_or] at hnone
  have hinter : ∀ l : List Text, (∀ s ∈ l, c ∉ s) → c ∉ List.intercalate ['/'] l := by
    intro l hl
    induction l with
    | nil => simp
    | cons s l ih =>
      have ih := ih fun t ht => hl t (List.mem_cons_of_mem _ ht)
      have hs := hl s List.mem_cons_self
      cases l with
      | nil => simpa using hs
      | cons t l =>
        rw [List.intercalate_cons_cons]
        simp [hs, hnone.2.1, ih]
  have hsplit : ∀ s ∈ p.splitOn '/', c ∉ s := by
    intro s hs hc
    exact hnone.1 ((exists_mem_splitOn_iff hnone.2.1).mp ⟨s, hs, hc⟩)
  have hpath : ∀ root names : Text, c ∉ root → c ∉ names →
      c ∉ (if root ++ names = [] then ['.'] else root ++ names) := by
    intro root names hroot hnames
    split_ifs
    · simp [hnone.2.2]
    · simp [hroot, hnames]
  refine hpath _ _ ?_ (hinter _ fun s hs => ?_) h
  · split_ifs <;> simp [hnone.2.1]
  · exact (@foldl_addPart_forall (fun s => c ∉ s) _ _ [] hsplit (by simp) s
      (List.mem_reverse.mp hs)).2.2

end Path
