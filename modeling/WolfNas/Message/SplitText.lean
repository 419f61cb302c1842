import WolfNas.Filter.Rules
import WolfNas.Lib.Run
import WolfNas.Lib.Url

/-!
# Splitting the text of a message

A message is sent in chunks of a limited length in bytes.  The lines are gathered in a buffer; a
line that is too long is cut into parts, of words or of characters, and the first part goes behind
what is in the buffer, whose length is not looked at.

## Main definitions

* `byteLength`, `solid` — the length of a text in bytes, and its characters that are no blanks.
* `lineParts`, `packParts`, `splitLine`, `splitText` — the code.
* `firstPart` — the part of a long line that goes behind the buffer.
* `UnitsFit` — no word or character is too long by itself.

## Main results

* `solid_splitText` — no character is lost or doubled.
* `packParts_fit_iff` — the chunks of a long line fit exactly where the first one does.
* `splitText_iff` — the texts whose chunks all fit.
-/

namespace WolfNas

open Text

/-! ## Bytes and blanks -/

/-- `len(s.encode("utf-8"))`. -/
def byteLength (s : Text) : ℕ := (s.flatMap Url.utf8).length

/-- The characters of a text that are no blanks. -/
def solid (s : Text) : Text := s.filter fun c => !isSpace c

@[simp] theorem byteLength_nil : byteLength [] = 0 := rfl

@[simp] theorem byteLength_append (s t : Text) :
    byteLength (s ++ t) = byteLength s + byteLength t := by
  simp [byteLength]

theorem byteLength_infix_le {s t : Text} (h : s <:+: t) : byteLength s ≤ byteLength t := by
  obtain ⟨u, v, rfl⟩ := h
  simp only [byteLength_append]
  omega

@[simp] theorem solid_nil : solid [] = [] := rfl

@[simp] theorem solid_append (s t : Text) : solid (s ++ t) = solid s ++ solid t :=
  List.filter_append _ _

theorem solid_eq_nil {s : Text} (h : ∀ c ∈ s, isSpace c = true) : solid s = [] :=
  List.filter_eq_nil_iff.mpr fun c hc => by simp [h c hc]

theorem solid_dropWhile (s : Text) : solid (s.dropWhile isSpace) = solid s := by
  have hblank : solid (s.takeWhile isSpace) = [] :=
    solid_eq_nil fun c hc => List.mem_takeWhile_imp hc
  conv_rhs => rw [← List.takeWhile_append_dropWhile (p := isSpace) (l := s), solid_append, hblank]
  rfl

theorem solid_rdropWhile (s : Text) : solid (s.rdropWhile isSpace) = solid s := by
  induction s using List.reverseRecOn with
  | nil => rfl
  | append_singleton s c ih =>
    rw [List.rdropWhile_concat]
    split_ifs with hc
    · have hblank : solid [c] = [] := solid_eq_nil fun d hd => List.mem_singleton.mp hd ▸ hc
      rw [ih, solid_append, hblank, List.append_nil]
    · rfl

/-- `strip` takes blanks only. -/
@[simp] theorem solid_strip (s : Text) : solid s.strip = solid s := by
  rw [strip, solid_rdropWhile, solid_dropWhile]

/-- Cutting a text at blanks takes blanks only. -/
theorem solid_splitOnP {p : Char → Bool} (hp : ∀ c, p c = true → isSpace c = true) (s : Text) :
    solid (s.splitOnP p).flatten = solid s := by
  induction s with
  | nil => simp
  | cons c s ih =>
    rw [List.splitOnP_cons_eq_if_modifyHead]
    split_ifs with hc
    · rw [List.flatten_cons, List.nil_append, ih]
      simp [solid, hp c hc]
    · obtain ⟨first, rest, hrest⟩ := List.exists_cons_of_ne_nil (List.splitOnP_ne_nil p s)
      rw [hrest] at ih ⊢
      rw [List.modifyHead_cons, List.flatten_cons, List.cons_append, ← List.flatten_cons, solid,
        List.filter_cons, solid, List.filter_cons]
      rw [solid, solid] at ih
      rw [ih]

theorem solid_words (s : Text) : solid (words s).flatten = solid s := by
  rw [words, List.flatten_filter_ne_nil]
  exact solid_splitOnP (fun _ h => h) s

/-- A prefix is not longer without the blanks around it. -/
theorem strip_infix_append (s t : Text) : s.strip <:+: (s ++ t).strip := by
  have hback : ∀ u v : Text, u.rdropWhile isSpace <+: (u ++ v).rdropWhile isSpace := by
    intro u v
    induction v using List.reverseRecOn with
    | nil => simp
    | append_singleton v c ih =>
      rw [← List.append_assoc, List.rdropWhile_concat]
      split_ifs
      · exact ih
      · exact (List.rdropWhile_prefix _ _).trans
          ((List.prefix_append u v).trans (List.prefix_append _ _))
  rw [strip, strip, List.dropWhile_append]
  split_ifs with hblank
  · have hnil : s.dropWhile isSpace = [] := by simpa using hblank
    simp [hnil]
  · exact (hback _ _).isInfix

/-! ## The code -/

/-- `^[A-Za-z0-9.\s]+`. -/
def startsWord (line : Text) : Bool :=
  line.head?.any fun c => c.isAlphanum || c = '.' || isSpace c

/-- What is put between the parts of a long line, and the parts: words, or characters. -/
def lineParts (line : Text) : Text × List Text :=
  if startsWord line then (of " ", words line) else ([], line.map fun c => [c])

/-- The loop over the parts: the chunks that are yielded, and the buffer that is left. -/
def packParts (maxLength : ℕ) (blank buf part : Text) : List Text → List Text × Text
  | [] => ([], buf ++ part)
  | p :: ps =>
    if maxLength < byteLength (part ++ p) then
      let rest := packParts maxLength blank [] (blank ++ p) ps
      ((buf ++ part).strip :: rest.1, rest.2)
    else packParts maxLength blank buf (part ++ blank ++ p) ps

/-- One line: the chunks that are yielded, and the buffer that is left. -/
def splitLine (maxLength : ℕ) (buf line : Text) : List Text × Text :=
  if maxLength < byteLength line then
    packParts maxLength (lineParts line).1 buf [] (lineParts line).2
  else if maxLength < byteLength (buf ++ '\n' :: line) then ([buf.strip], line)
  else ([], if buf ≠ [] then buf ++ '\n' :: line else line)

/-- The buffer after a line. -/
def bufferAfter (maxLength : ℕ) (buf line : Text) : Text := (splitLine maxLength buf line).2

/-- The chunks of a line. -/
def chunksOf (maxLength : ℕ) (buf line : Text) : List Text := (splitLine maxLength buf line).1

/-- `split_text`. -/
def splitText (text : Text) (maxLength : ℕ) : List Text :=
  let lines := text.splitOn '\n'
  let buf := lines.foldl (bufferAfter maxLength) []
  (if text = [] then [[]] else []) ++
    Run.trace (bufferAfter maxLength) (chunksOf maxLength) [] lines ++
      if buf ≠ [] then [buf.strip] else []

/-! ## No character is lost -/

theorem solid_blank (line : Text) : solid (lineParts line).1 = [] := by
  rw [lineParts]
  split_ifs
  · exact (by decide : solid (of " ") = [])
  · rfl

theorem solid_lineParts (line : Text) : solid (lineParts line).2.flatten = solid line := by
  rw [lineParts]
  split_ifs
  · exact solid_words line
  · have hchars : (line.map fun c => [c]).flatten = line := by
      rw [← List.flatMap_def, List.flatMap_singleton']
    exact congrArg solid hchars

theorem solid_packParts {maxLength : ℕ} {blank buf part : Text} {parts : List Text}
    (hblank : solid blank = []) :
    solid (packParts maxLength blank buf part parts).1.flatten ++
        solid (packParts maxLength blank buf part parts).2 =
      solid buf ++ solid part ++ solid parts.flatten := by
  induction parts generalizing buf part with
  | nil => simp [packParts]
  | cons p ps ih =>
    rw [packParts]
    split_ifs
    · have hrest := @ih [] (blank ++ p)
      simp only [List.flatten_cons, solid_append, solid_strip, solid_nil, hblank, List.nil_append,
        List.append_assoc] at hrest ⊢
      rw [hrest]
    · rw [ih]
      simp [hblank]

/-- A line loses nothing, and doubles nothing. -/
theorem solid_splitLine (maxLength : ℕ) (buf line : Text) :
    solid (chunksOf maxLength buf line).flatten ++ solid (bufferAfter maxLength buf line) =
      solid buf ++ solid line := by
  rw [chunksOf, bufferAfter, splitLine]
  split_ifs with hlong hfull hbuf
  · rw [solid_packParts (solid_blank line), solid_lineParts, solid_nil, List.append_nil]
  · simp
  · have hbreak : solid ('\n' :: line) = solid line := by simp [solid, isSpace]
    rw [List.flatten_nil, solid_nil, List.nil_append, solid_append, hbreak]
  · have hnil : buf = [] := not_not.mp hbuf
    simp [hnil]

theorem solid_lines {maxLength : ℕ} {buf : Text} {lines : List Text} :
    solid (Run.trace (bufferAfter maxLength) (chunksOf maxLength) buf lines).flatten ++
        solid (lines.foldl (bufferAfter maxLength) buf) = solid buf ++ solid lines.flatten := by
  induction lines generalizing buf with
  | nil => simp [Run.trace]
  | cons line lines ih =>
    rw [Run.trace, List.flatten_append, solid_append, List.foldl_cons, List.append_assoc, ih,
      ← List.append_assoc, solid_splitLine, List.flatten_cons, solid_append, List.append_assoc]

/-- **No character but blanks is lost or doubled.** -/
theorem solid_splitText (text : Text) (maxLength : ℕ) :
    solid (splitText text maxLength).flatten = solid text := by
  have hlines : solid (text.splitOn '\n').flatten = solid text := by
    refine solid_splitOnP (fun c hc => ?_) text
    rw [beq_iff_eq.mp hc]
    rfl
  have hall := @solid_lines maxLength [] (text.splitOn '\n')
  rw [hlines, solid_nil, List.nil_append] at hall
  rw [← hall, splitText, List.flatten_append, List.flatten_append, solid_append, solid_append]
  split_ifs with hempty hbuf <;> simp_all

/-! ## The chunks of a line -/

/-- A text is not too long without the blanks around it. -/
def Fits (maxLength : ℕ) (s : Text) : Prop := byteLength s.strip ≤ maxLength

instance (maxLength : ℕ) (s : Text) : Decidable (Fits maxLength s) :=
  inferInstanceAs (Decidable (_ ≤ _))

/-- The part of a long line that goes behind the buffer. -/
def firstPart (maxLength : ℕ) (blank part : Text) : List Text → Text
  | [] => part
  | p :: ps =>
    if maxLength < byteLength (part ++ p) then part
    else firstPart maxLength blank (part ++ blank ++ p) ps

theorem byteLength_strip_le (s : Text) : byteLength s.strip ≤ byteLength s :=
  byteLength_infix_le
    ((List.rdropWhile_prefix _ _).isInfix.trans (List.dropWhile_suffix _).isInfix)

theorem fits_of_byteLength_le {maxLength : ℕ} {s : Text} (h : byteLength s ≤ maxLength) :
    Fits maxLength s := (byteLength_strip_le s).trans h

/-- What fits together with something fits alone. -/
theorem Fits.of_append {maxLength : ℕ} {s t : Text} (h : Fits maxLength (s ++ t)) :
    Fits maxLength s := (byteLength_infix_le (strip_infix_append s t)).trans h

theorem fits_nil (maxLength : ℕ) : Fits maxLength [] := Nat.zero_le maxLength

/-- A part of a line: nothing, or what is not too long behind a blank. -/
def IsPart (maxLength : ℕ) (blank part : Text) : Prop :=
  part = [] ∨ ∃ x, part = blank ++ x ∧ byteLength x ≤ maxLength

section Parts

variable {maxLength : ℕ} {blank buf part p : Text} {parts : List Text}

theorem IsPart.fits (hblank : ∀ c ∈ blank, isSpace c = true) (h : IsPart maxLength blank part) :
    Fits maxLength part := by
  rcases h with rfl | ⟨x, rfl, hx⟩
  · exact fits_nil maxLength
  · have hstrip : (blank ++ x).strip = x.strip := by
      rw [strip, List.dropWhile_append_of_pos hblank]
      rfl
    rw [Fits, hstrip]
    exact (byteLength_strip_le x).trans hx

/-- What is put behind a part where it is not too long makes a part. -/
theorem IsPart.concat (h : IsPart maxLength blank part)
    (hp : byteLength (part ++ p) ≤ maxLength) : IsPart maxLength blank (part ++ blank ++ p) := by
  rcases h with rfl | ⟨x, rfl, -⟩
  · exact .inr ⟨p, rfl, hp⟩
  · refine .inr ⟨x ++ blank ++ p, by simp, ?_⟩
    simp only [byteLength_append] at hp ⊢
    omega

theorem IsPart.firstPart (h : IsPart maxLength blank part) :
    IsPart maxLength blank (WolfNas.firstPart maxLength blank part parts) := by
  induction parts generalizing part with
  | nil => exact h
  | cons p ps ih =>
    rw [WolfNas.firstPart]
    split_ifs with hfull
    · exact h
    · exact ih (h.concat (not_lt.mp hfull))

/-- The chunks of a long line fit, and what is left of it, exactly where the first part fits behind
the buffer. -/
theorem packParts_fit_iff (hblank : ∀ c ∈ blank, isSpace c = true)
    (hparts : ∀ p ∈ parts, byteLength p ≤ maxLength) (hpart : IsPart maxLength blank part) :
    ((∀ chunk ∈ (packParts maxLength blank buf part parts).1, byteLength chunk ≤ maxLength) ∧
        Fits maxLength (packParts maxLength blank buf part parts).2) ↔
      Fits maxLength (buf ++ firstPart maxLength blank part parts) := by
  induction parts generalizing buf part with
  | nil => simp [packParts, firstPart]
  | cons p ps ih =>
    obtain ⟨hp, hps⟩ := List.forall_mem_cons.mp hparts
    rw [packParts, firstPart]
    split_ifs with hfull
    · -- behind the empty buffer, all that follows fits
      have hnext : IsPart maxLength blank (blank ++ p) := .inr ⟨p, rfl, hp⟩
      have hrest : Fits maxLength ([] ++ firstPart maxLength blank (blank ++ p) ps) :=
        hnext.firstPart.fits hblank
      obtain ⟨hchunks, hleft⟩ := (ih hps hnext).mpr hrest
      rw [List.forall_mem_cons]
      exact ⟨fun h => h.1.1, fun h => ⟨⟨h, hchunks⟩, hleft⟩⟩
    · exact ih hps (hpart.concat (not_lt.mp hfull))

end Parts

/-! ## The chunks of a text -/

/-- No word or character of a line is too long by itself. -/
def UnitsFit (maxLength : ℕ) (line : Text) : Prop :=
  ∀ p ∈ (lineParts line).2, byteLength p ≤ maxLength

instance (maxLength : ℕ) (line : Text) : Decidable (UnitsFit maxLength line) :=
  inferInstanceAs (Decidable (∀ p ∈ (lineParts line).2, byteLength p ≤ maxLength))

/-- Where the line is too long, its first part fits behind the buffer. -/
def LineFits (maxLength : ℕ) (buf line : Text) : Prop :=
  maxLength < byteLength line →
    Fits maxLength (buf ++ firstPart maxLength (lineParts line).1 [] (lineParts line).2)

instance (maxLength : ℕ) (buf line : Text) : Decidable (LineFits maxLength buf line) :=
  inferInstanceAs (Decidable (_ → _))

/-- The chunks of a line fit, and so does the buffer that it leaves. -/
def LineDone (maxLength : ℕ) (buf line : Text) : Prop :=
  (∀ chunk ∈ chunksOf maxLength buf line, byteLength chunk ≤ maxLength) ∧
    Fits maxLength (bufferAfter maxLength buf line)

section Lines

variable {maxLength : ℕ} {buf line : Text} {lines : List Text}

theorem isSpace_blank (line : Text) : ∀ c ∈ (lineParts line).1, isSpace c = true := by
  rw [lineParts]
  split_ifs
  · intro c hc
    obtain rfl : c = ' ' := by simpa [of] using hc
    rfl
  · simp

/-- With a buffer that fits, a line is done exactly where it fits. -/
theorem lineDone_iff (hunits : UnitsFit maxLength line) (hbuf : Fits maxLength buf) :
    LineDone maxLength buf line ↔ LineFits maxLength buf line := by
  rw [LineDone, chunksOf, bufferAfter, splitLine]
  by_cases hlong : maxLength < byteLength line
  · rw [if_pos hlong, packParts_fit_iff (isSpace_blank line) hunits (.inl rfl)]
    exact ⟨fun h _ => h, fun h => h hlong⟩
  · have hline : Fits maxLength line := fits_of_byteLength_le (not_lt.mp hlong)
    refine iff_of_true ?_ fun h => absurd h hlong
    rw [if_neg hlong]
    split_ifs with hfull hnil
    · exact ⟨fun chunk hchunk => List.mem_singleton.mp hchunk ▸ hbuf, hline⟩
    · exact ⟨by simp, fits_of_byteLength_le (not_lt.mp hfull)⟩
    · exact ⟨by simp, hline⟩

/-- A line with whose chunks a buffer fits leaves no buffer that fits where it does not fit
itself. -/
theorem fits_of_lineDone (hunits : UnitsFit maxLength line) (h : LineDone maxLength buf line) :
    Fits maxLength buf := by
  rw [LineDone, chunksOf, bufferAfter, splitLine] at h
  split_ifs at h with hlong hfull hnil
  · exact ((packParts_fit_iff (isSpace_blank line) hunits (.inl rfl)).mp h).of_append
  · exact h.1 buf.strip List.mem_cons_self
  · exact h.2.of_append
  · rw [not_not.mp hnil]
    exact fits_nil maxLength

/-- The chunks of the lines and the last buffer fit exactly where each line does. -/
theorem lines_fit_iff (hunits : ∀ line ∈ lines, UnitsFit maxLength line)
    (hbuf : Fits maxLength buf) :
    ((∀ chunk ∈ Run.trace (bufferAfter maxLength) (chunksOf maxLength) buf lines,
        byteLength chunk ≤ maxLength) ∧ Fits maxLength (lines.foldl (bufferAfter maxLength) buf)) ↔
      Run.Along (bufferAfter maxLength) (LineFits maxLength) buf lines := by
  -- a buffer that does not fit stays, or makes a chunk
  have hstart : ∀ (lines : List Text) (buf : Text), (∀ line ∈ lines, UnitsFit maxLength line) →
      (∀ chunk ∈ Run.trace (bufferAfter maxLength) (chunksOf maxLength) buf lines,
        byteLength chunk ≤ maxLength) →
      Fits maxLength (lines.foldl (bufferAfter maxLength) buf) → Fits maxLength buf := by
    intro lines
    induction lines with
    | nil => exact fun _ _ _ h => h
    | cons line lines ih =>
      intro buf hunits hchunks hlast
      obtain ⟨hline, hlines⟩ := List.forall_mem_cons.mp hunits
      rw [Run.trace, List.forall_mem_append] at hchunks
      exact fits_of_lineDone hline ⟨hchunks.1, ih _ hlines hchunks.2 hlast⟩
  induction lines generalizing buf with
  | nil => simpa [Run.trace, Run.Along] using hbuf
  | cons line lines ih =>
    obtain ⟨hline, hlines⟩ := List.forall_mem_cons.mp hunits
    rw [Run.trace, List.forall_mem_append, Run.Along, List.foldl_cons, and_assoc]
    constructor
    · rintro ⟨hchunks, hrest, hlast⟩
      have hnext := hstart lines _ hlines hrest hlast
      exact ⟨(lineDone_iff hline hbuf).mp ⟨hchunks, hnext⟩, (ih hlines hnext).mp ⟨hrest, hlast⟩⟩
    · rintro ⟨hfits, halong⟩
      obtain ⟨hchunks, hnext⟩ := (lineDone_iff hline hbuf).mpr hfits
      exact ⟨hchunks, (ih hlines hnext).mpr halong⟩

end Lines

/-- Where no word or character is too long by itself, the chunks of a text are not too long, and
have its characters but blanks in their order, none lost and none doubled, exactly where the first
part of every line that is too long fits behind what is in the buffer. -/
theorem splitText_iff (text : Text) (maxLength : ℕ)
    (hunits : ∀ line ∈ text.splitOn '\n', UnitsFit maxLength line) :
    ((∀ chunk ∈ splitText text maxLength, byteLength chunk ≤ maxLength) ∧
        solid (splitText text maxLength).flatten = solid text) ↔
      Run.Along (bufferAfter maxLength) (LineFits maxLength) [] (text.splitOn '\n') := by
  rw [and_iff_left (solid_splitText text maxLength), ← lines_fit_iff hunits (fits_nil maxLength),
    splitText, List.forall_mem_append, List.forall_mem_append]
  have hempty : ∀ chunk ∈ (if text = [] then [[]] else [] : List Text),
      byteLength chunk ≤ maxLength := by
    intro chunk hchunk
    split_ifs at hchunk
    · rw [List.mem_singleton.mp hchunk]
      exact Nat.zero_le maxLength
    · cases hchunk
  rw [and_iff_right hempty]
  refine and_congr_right fun _ => ?_
  split_ifs with hnil
  · simp [Fits]
  · rw [not_not.mp hnil]
    exact iff_of_true (by simp) (fits_nil maxLength)

/-- A long line of words whose first part fits behind a short line. -/
theorem splitText_words :
    (∀ chunk ∈ splitText (of "a\nbc de fg") 7, byteLength chunk ≤ 7) ∧
      solid (splitText (of "a\nbc de fg") 7).flatten = solid (of "a\nbc de fg") :=
  (splitText_iff (of "a\nbc de fg") 7 (by decide)).mpr (by decide)

/-- The first characters of a long line go behind a short one, and make a chunk of eight bytes
where six are allowed. -/
theorem splitText_not_fit :
    (∀ line ∈ (of "ab\n中文中文").splitOn '\n', UnitsFit 6 line) ∧
      ¬((∀ chunk ∈ splitText (of "ab\n中文中文") 6, byteLength chunk ≤ 6) ∧
        solid (splitText (of "ab\n中文中文") 6).flatten = solid (of "ab\n中文中文")) := by
  decide

end WolfNas
