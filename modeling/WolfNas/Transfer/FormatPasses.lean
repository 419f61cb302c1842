import WolfNas.Transfer.NameFormat

/-!
# The passes over a format in the documented syntax

Each pass is followed through the pieces a format is spelled from.  Where no text with a brace
is read again, the three passes put the values in as they are.

## Main definitions

* `NameFormat.once`, `NameFormat.unpad` — what the first and the second pass make of the pieces.

## Main results

* `NameFormat.expand_source`, `NameFormat.padTokens_source` — the first two passes.
* `NameFormat.filled_iff` — when the passes put the values in as they are.
* `NameFormat.tidy_intercalate` — each segment of a path is tidied by itself.
-/

namespace WolfNas

namespace NameFormat

open Format

variable {env : Env} {key payload width s t : Text} {n depth : ℕ} {slot : Slot} {l : List Slot}

theorem Unbraced.cons {c : Char} (h : Unbraced (c :: t)) : c ≠ '{' ∧ c ≠ '}' ∧ Unbraced t := by
  simpa [Unbraced, not_or, eq_comm, and_assoc, and_left_comm, and_comm] using h

theorem unbraced_key (hkey : IsKey key) : Unbraced key := by
  constructor
  · intro hmem
    exact ne_of_isKeyChar (hkey.2 _ hmem) (by decide) rfl
  · intro hmem
    exact ne_of_isKeyChar (hkey.2 _ hmem) (by decide) rfl

/-! ## The first pass -/

theorem expand_unbraced (ht : Unbraced t) (hn : (t ++ s).length < n) :
    ∃ m, s.length < m ∧ expand env n (t ++ s) = (expand env m s).map (t ++ ·) := by
  induction t generalizing n with
  | nil =>
    refine ⟨n, hn, ?_⟩
    rw [List.nil_append]
    cases expand env n s <;> rfl
  | cons c t ih =>
    obtain ⟨n, rfl⟩ : ∃ k, n = k + 1 := ⟨n - 1, by omega⟩
    obtain ⟨hopen, -, ht⟩ := Unbraced.cons ht
    obtain ⟨m, hm, hexpand⟩ := ih ht (by simp at hn ⊢; omega)
    refine ⟨m, hm, ?_⟩
    simp only [List.cons_append, expand, if_pos (Or.inl hopen), hexpand]
    cases expand env m s <;> rfl

/-- Up to the first closing brace. -/
theorem takeWhile_closing (ht : '}' ∉ t) :
    (t ++ '}' :: s).takeWhile (· ≠ '}') = t ∧ (t ++ '}' :: s).dropWhile (· ≠ '}') = '}' :: s := by
  have hall : ∀ c ∈ t, (decide (c ≠ '}')) = true := by
    intro c hc
    rw [decide_eq_true_eq]
    rintro rfl
    exact ht hc
  rw [List.takeWhile_append_of_pos hall, List.dropWhile_append_of_pos hall]
  simp

/-- A field that begins no optional part is passed over. -/
theorem expand_field (hkey : IsKey key) (ht : '}' ∉ t)
    (hhead : ∀ c ∈ (t ++ '}' :: s).head?, isKeyChar c = false)
    (hskip : (t ++ '}' :: s).head? ≠ some ':' ∨ (padSpec (t ++ '}' :: s).tail).isSome)
    (hn : ('{' :: key ++ t ++ '}' :: s).length < n) :
    ∃ m, s.length < m ∧ expand env n ('{' :: key ++ t ++ '}' :: s) =
      (expand env m s).map ('{' :: key ++ t ++ ['}'] ++ ·) := by
  obtain ⟨n, rfl⟩ : ∃ k, n = k + 1 := ⟨n - 1, by omega⟩
  have hclose : '}' ∉ key ++ t := by
    intro hmem
    rcases List.mem_append.mp hmem with hmem | hmem
    · exact (unbraced_key hkey).2 hmem
    · exact ht hmem
  have hend := @takeWhile_closing s (key ++ t) hclose
  obtain ⟨d, rest, hrest⟩ : ∃ d rest, t ++ '}' :: s = d :: rest :=
    List.exists_cons_of_ne_nil (by simp)
  have hspan := @takeWhile_key key rest hkey.2 d (hhead d (by simp [hrest]))
  refine ⟨n, by simp at hn; omega, ?_⟩
  rw [← hrest] at hspan
  simp only [List.append_assoc, List.cons_append] at hend hspan ⊢
  rw [expand, hspan.1, hspan.2, hend.1, hend.2, if_neg (by simp [hkey.1]), if_pos hskip]
  simp

theorem padSpec_width (hwidth : IsWidth width) (s : Text) :
    padSpec ('0' :: width ++ ['d', '}'] ++ s) = some (width, s) := by
  have hspan := @takeWhile_width width ('}' :: s) hwidth.2 'd' (by decide)
  simp only [List.cons_append, List.append_assoc, List.nil_append]
  rw [padSpec, hspan.1, hspan.2, if_neg hwidth.1]
  rfl

/-- The first pass leaves a slot as it is. -/
theorem expand_slot (hslot : slot.Valid) (hn : (slot.source ++ s).length < n) :
    ∃ m, s.length < m ∧ expand env n (slot.source ++ s) = (expand env m s).map (slot.source ++ ·) := by
  cases slot with
  | text t => exact expand_unbraced hslot hn
  | field key =>
    have hsource : (Slot.field key).source ++ s = '{' :: key ++ [] ++ '}' :: s := by
      simp [Slot.source]
    rw [hsource] at hn ⊢
    obtain ⟨m, hm, hexpand⟩ := @expand_field env key s [] n hslot (by simp)
      (by simp; decide) (.inl (by simp)) hn
    exact ⟨m, hm, by simpa [Slot.source] using hexpand⟩
  | padded key width =>
    have hdigit : '}' ∉ width := by
      intro hmem
      exact absurd (hslot.2.2 _ hmem) (by decide)
    have hspec := padSpec_width hslot.2 s
    have hsource : (Slot.padded key width).source ++ s =
        '{' :: key ++ (':' :: '0' :: width ++ ['d']) ++ '}' :: s := by
      simp [Slot.source]
    rw [hsource] at hn ⊢
    obtain ⟨m, hm, hexpand⟩ := @expand_field env key s (':' :: '0' :: width ++ ['d']) n hslot.1
      (by simp [hdigit]) (by simp; decide) (.inr (by simpa using congrArg Option.isSome hspec)) hn
    exact ⟨m, hm, by simpa [Slot.source] using hexpand⟩

/-! ## Optional parts -/

theorem closing_unbraced (ht : Unbraced t) :
    closing depth (t ++ s) = (closing depth s).map fun r => (t ++ r.1, r.2) := by
  induction t with
  | nil => simp
  | cons c t ih =>
    obtain ⟨hopen, hclose, ht⟩ := Unbraced.cons ht
    simp only [List.cons_append, closing, hopen, hclose, false_and, if_false, ih ht, Option.map_map]
    rfl

/-- The braces of a slot close each other. -/
theorem closing_slot (hslot : slot.Valid) (hdepth : 0 < depth) :
    closing depth (slot.source ++ s) = (closing depth s).map fun r => (slot.source ++ r.1, r.2) := by
  have hbraces : ∀ t, Unbraced t → closing depth ('{' :: t ++ '}' :: s) =
      (closing depth s).map fun r => ('{' :: t ++ '}' :: r.1, r.2) := by
    intro t ht
    have hinner : closing (depth + 1) ('}' :: s) = (closing depth s).map fun r => ('}' :: r.1, r.2) := by
      simp [closing, hdepth.ne']
    simp only [List.cons_append, closing]
    simp [closing_unbraced ht, hinner, Function.comp_def]
  cases slot with
  | text t => exact closing_unbraced hslot
  | field key => simpa [Slot.source] using hbraces key (unbraced_key hslot)
  | padded key width =>
    have hkey := unbraced_key hslot.1
    have hwidth := unbraced_width hslot.2
    have hinner : Unbraced (key ++ (':' :: '0' :: width ++ ['d'])) := by
      simp only [Unbraced, List.mem_append, List.mem_cons] at hkey hwidth ⊢
      simp only [not_or] at hwidth ⊢
      simp [hkey.1, hkey.2, hwidth.1, hwidth.2]
    simpa [Slot.source] using hbraces _ hinner

theorem closing_source (hl : ∀ slot ∈ l, slot.Valid) :
    closing 1 (Format.source l ++ '}' :: s) = some (Format.source l, s) := by
  induction l with
  | nil => simp [Format.source, closing]
  | cons slot l ih =>
    have ih := ih fun slot hslot => hl slot (List.mem_cons_of_mem _ hslot)
    have hcons : Format.source (slot :: l) = slot.source ++ Format.source l := rfl
    rw [hcons, List.append_assoc, closing_slot (hl slot List.mem_cons_self) Nat.one_pos, ih]
    rfl

/-- Whether a specification is a padded width can be told up to its closing brace. -/
theorem padSpec_closed (t s : Text) :
    (padSpec (t ++ '}' :: s)).isSome = (padSpec (t ++ ['}'])).isSome := by
  cases t with
  | nil => rfl
  | cons c t =>
    by_cases hc : c = '0'
    · subst hc
      have hspan : ∀ s, (t ++ '}' :: s).takeWhile Char.isDigit = t.takeWhile Char.isDigit ∧
          (t ++ '}' :: s).dropWhile Char.isDigit = t.dropWhile Char.isDigit ++ '}' :: s := by
        intro s
        induction t with
        | nil => simp
        | cons d t ih =>
          by_cases hd : d.isDigit = true
          · simp [hd, ih]
          · simp [hd]
      simp only [List.cons_append, padSpec, hspan]
      split
      · rfl
      · rcases t.dropWhile Char.isDigit with _ | ⟨d, _ | ⟨d', rest⟩⟩
        · rfl
        · by_cases hclose : d = '}'
          · simp [hclose]
          · by_cases hd : d = 'd'
            · simp [hd]
            · simp [hclose, hd]
        · by_cases hclose : d = '}'
          · simp [hclose]
          · by_cases hd : d = 'd'
            · by_cases hclose' : d' = '}'
              · simp [hd, hclose']
              · simp [hd, hclose']
            · simp [hclose, hd]
    · simp [padSpec, hc]

/-- What the first pass makes of a piece. -/
def Piece.once (env : Env) : Piece → Except FormatError (List Slot)
  | .slot s => .ok [s]
  | .optional key payload =>
    if empty env key then .ok []
    else match fill env payload with
      | .ok t => .ok [.text t]
      | .error e => if caught e then .ok payload else .error e

/-- What the first pass makes of the pieces. -/
def once (env : Env) : List Piece → Except FormatError (List Slot)
  | [] => .ok []
  | p :: l => p.once env >>= fun slots => (once env l).map (slots ++ ·)

theorem expand_optional (hp : (Piece.optional key l).Valid)
    (hn : ((Piece.optional key l).source ++ s).length < n) :
    ∃ m, s.length < m ∧ expand env n ((Piece.optional key l).source ++ s) =
      optional env key (Format.source l) >>= fun t => (expand env m s).map (t ++ ·) := by
  obtain ⟨hkey, hl, hspec⟩ := hp
  obtain ⟨n, rfl⟩ : ∃ k, n = k + 1 := ⟨n - 1, by omega⟩
  have hspan := @takeWhile_key key (Format.source l ++ '}' :: s) hkey.2 ':' (by decide)
  have hnone : (padSpec (Format.source l ++ '}' :: s)).isSome = false := by
    rw [padSpec_closed, hspec]
    rfl
  refine ⟨n, by simp [Piece.source] at hn; omega, ?_⟩
  have hsource : (Piece.optional key l).source ++ s =
      '{' :: (key ++ ':' :: (Format.source l ++ '}' :: s)) := by
    simp [Piece.source]
  rw [hsource, expand, hspan.1, hspan.2, if_neg (by simp [hkey.1]), if_neg (by simp [hnone])]
  simp only [List.tail_cons, closing_source hl]

theorem expand_piece {p : Piece} (hp : p.Valid) (hn : (p.source ++ s).length < n) :
    ∃ m, s.length < m ∧ expand env n (p.source ++ s) =
      p.once env >>= fun slots => (expand env m s).map (Format.source slots ++ ·) := by
  cases p with
  | slot slot =>
    obtain ⟨m, hm, hexpand⟩ := @expand_slot env s n slot hp hn
    exact ⟨m, hm, by simpa [Piece.once, Format.source, Piece.source, bind, Except.bind] using hexpand⟩
  | optional key payload =>
    obtain ⟨m, hm, hexpand⟩ := @expand_optional env key s n payload hp hn
    refine ⟨m, hm, hexpand.trans ?_⟩
    simp only [optional, Piece.once, format_source hp.2.1]
    split
    · rfl
    · cases fill env payload with
      | ok t => simp [bind, Except.bind, Format.source, Slot.source]
      | error e =>
        simp only
        split <;> rfl

/-- The first pass over what pieces spell. -/
theorem expand_source {pieces : List Piece} (hvalid : ∀ p ∈ pieces, p.Valid)
    (hn : (source pieces).length < n) :
    expand env n (source pieces) = (once env pieces).map Format.source := by
  induction pieces generalizing n with
  | nil =>
    cases n with
    | zero => rfl
    | succ n => rfl
  | cons p pieces ih =>
    have hcons : source (p :: pieces) = p.source ++ source pieces := rfl
    rw [hcons] at hn ⊢
    obtain ⟨m, hm, hexpand⟩ := @expand_piece env (source pieces) n p (hvalid p List.mem_cons_self) hn
    rw [hexpand, ih (fun p hp => hvalid p (List.mem_cons_of_mem _ hp)) hm, once]
    cases p.once env with
    | error e => rfl
    | ok slots =>
      cases once env pieces with
      | error e => rfl
      | ok rest => simp [bind, Except.bind, Except.map, Format.source]

/-! ## The second pass -/

/-- What the second pass makes of a slot. -/
def unpad (env : Env) : Slot → Slot
  | .text t => .text t
  | .field key => .field key
  | .padded key width => .text (replacePadding env key width)

theorem padTokens_open (ht : '{' ∉ t) (hn : (t ++ s).length < n) :
    ∃ m, s.length < m ∧ padTokens env n (t ++ s) = t ++ padTokens env m s := by
  induction t generalizing n with
  | nil => exact ⟨n, hn, rfl⟩
  | cons c t ih =>
    obtain ⟨n, rfl⟩ : ∃ k, n = k + 1 := ⟨n - 1, by omega⟩
    have hopen : c ≠ '{' := by
      rintro rfl
      exact ht List.mem_cons_self
    have ht : '{' ∉ t := fun h => ht (List.mem_cons_of_mem _ h)
    obtain ⟨m, hm, hpad⟩ := ih ht (by simp at hn ⊢; omega)
    exact ⟨m, hm, by simp [padTokens, hopen, hpad]⟩

theorem padTokens_slot (hslot : slot.Valid) (hn : (slot.source ++ s).length < n) :
    ∃ m, s.length < m ∧ padTokens env n (slot.source ++ s) =
      (unpad env slot).source ++ padTokens env m s := by
  cases slot with
  | text t => exact padTokens_open hslot.1 hn
  | field key =>
    obtain ⟨n, rfl⟩ : ∃ k, n = k + 1 := ⟨n - 1, by omega⟩
    have hspan := @takeWhile_key key s hslot.2 '}' (by decide)
    have hnone : padToken (key ++ '}' :: s) = none := by
      simp [padToken, hspan.1, hspan.2]
    have hrest : '{' ∉ key ++ ['}'] := by
      simpa using (unbraced_key hslot).1
    obtain ⟨m, hm, hpad⟩ := @padTokens_open env s (key ++ ['}']) n hrest
      (by simp [Slot.source] at hn ⊢; omega)
    refine ⟨m, hm, ?_⟩
    simp only [List.append_assoc, List.cons_append, List.nil_append] at hpad
    simp [Slot.source, unpad, padTokens, hnone, hpad]
  | padded key width =>
    obtain ⟨n, rfl⟩ : ∃ k, n = k + 1 := ⟨n - 1, by omega⟩
    have hspan := @takeWhile_key key ('0' :: width ++ ['d', '}'] ++ s) hslot.1.2 ':' (by decide)
    have htoken : padToken (key ++ ':' :: ('0' :: width ++ ['d', '}'] ++ s)) =
        some (key, width, s) := by
      rw [padToken, hspan.1, hspan.2, if_neg hslot.1.1]
      simp only [padSpec_width hslot.2, Option.map_some]
    refine ⟨n, by simp [Slot.source] at hn; omega, ?_⟩
    have hsource : (Slot.padded key width).source ++ s =
        '{' :: (key ++ ':' :: ('0' :: width ++ ['d', '}'] ++ s)) := by
      simp [Slot.source]
    rw [hsource, padTokens, if_pos rfl, htoken]
    rfl

/-- The second pass over what slots spell. -/
theorem padTokens_source (hl : ∀ slot ∈ l, slot.Valid) (hn : (Format.source l).length < n) :
    padTokens env n (Format.source l) = Format.source (l.map (unpad env)) := by
  induction l generalizing n with
  | nil =>
    cases n with
    | zero => rfl
    | succ n => rfl
  | cons slot l ih =>
    have hcons : Format.source (slot :: l) = slot.source ++ Format.source l := rfl
    rw [hcons] at hn ⊢
    obtain ⟨m, hm, hpad⟩ := @padTokens_slot env (Format.source l) n slot
      (hl slot List.mem_cons_self) hn
    rw [hpad, ih (fun slot hslot => hl slot (List.mem_cons_of_mem _ hslot)) hm]
    rfl

/-! ## What slots are filled with -/

theorem zfillRuns_digits {run : Text} {w : ℕ} (ht : ∀ c ∈ t, c.isDigit = true) :
    zfillRuns w run t = if run ++ t = [] then [] else Text.rjust w (run ++ t) := by
  induction t generalizing run with
  | nil => simp [zfillRuns]
  | cons c t ih =>
    have hc := ht c List.mem_cons_self
    rw [zfillRuns, if_pos hc, ih fun c hc => ht c (List.mem_cons_of_mem _ hc)]
    simp

/-- A field that can be formatted gives its value. -/
theorem plain_ok (h : env.field key none [] = .ok t) : t = slotLiteral env (.field key) := by
  obtain ⟨v, hv, ht⟩ := field_ok h
  obtain rfl : v.str = t := by simpa [Env.formatValue] using ht
  simp [slotLiteral, hv]

theorem zeroWidth_width (hwidth : IsWidth width) :
    zeroWidth ('0' :: width ++ ['d']) = some (Text.toNat width) := by
  have hspan := @takeWhile_width width [] hwidth.2 'd' (by decide)
  rw [List.cons_append, zeroWidth, hspan.1, hspan.2, if_pos ⟨hwidth.1, rfl⟩]

/-- Only a number is padded by `format`, and as the second pass pads it. -/
theorem padded_ok (hwidth : IsWidth width) (h : (Slot.padded key width).fill env = .ok t) :
    t = slotLiteral env (.padded key width) := by
  obtain ⟨v, hv, ht⟩ := field_ok h
  simp only [Env.formatValue, zeroWidth_width hwidth] at ht
  cases v with
  | text s => simp [zeroPadded] at ht
  | int n =>
    have hdigits : ∀ c ∈ Text.ofNat n, c.isDigit = true := fun c hc =>
      Text.isDigit_of_mem_ofNat hc
    obtain rfl : Text.rjust width.toNat (Text.ofNat n) = t := by simpa [zeroPadded] using ht
    simp [slotLiteral, replacePadding, hv, FormatValue.str, zfillRuns_digits hdigits,
      Text.ofNat_ne_nil]

theorem slot_fill_ok (hslot : slot.Valid) (h : slot.fill env = .ok t) : t = slotLiteral env slot := by
  cases slot with
  | text u => exact (Except.ok.inj h).symm
  | field key => exact plain_ok h
  | padded key width => exact padded_ok hslot.2 h

theorem fill_eq_literal (hl : ∀ slot ∈ l, slot.Valid) (h : fill env l = .ok t) :
    t = l.flatMap (slotLiteral env) := by
  induction l generalizing t with
  | nil => exact (Except.ok.inj h).symm
  | cons slot l ih =>
    obtain ⟨u, hu, hrest⟩ := Raise.bind_ok_iff.mp h
    cases hfill : fill env l with
    | error e => simp [hfill, Except.map] at hrest
    | ok v =>
      obtain rfl : u ++ v = t := by simpa [hfill, Except.map] using hrest
      have hv := ih (fun slot hslot => hl slot (List.mem_cons_of_mem _ hslot)) hfill
      simp [slot_fill_ok (hl slot List.mem_cons_self) hu, hv]

/-- The last pass needs every field that is left. -/
theorem fill_unpad_iff : fill env (l.map (unpad env)) = .ok t ↔
    (∀ key ∈ l.filterMap plainKey, Found env key) ∧ t = l.flatMap (slotLiteral env) := by
  induction l generalizing t with
  | nil => simp [fill, eq_comm]
  | cons slot l ih =>
    have hcons : fill env ((slot :: l).map (unpad env)) = .ok t ↔
        ∃ u, (unpad env slot).fill env = .ok u ∧
          ∃ v, fill env (l.map (unpad env)) = .ok v ∧ u ++ v = t := by
      rw [List.map_cons, fill, Raise.bind_ok_iff]
      refine exists_congr fun u => and_congr_right fun _ => ?_
      cases fill env (l.map (unpad env)) <;> simp [Except.map]
    have hslot : ∀ u, (unpad env slot).fill env = .ok u ↔
        (∀ key ∈ plainKey slot, Found env key) ∧ u = slotLiteral env slot := by
      intro u
      cases slot with
      | text t => simp [unpad, Slot.fill, plainKey, slotLiteral, eq_comm]
      | padded key width => simp [unpad, Slot.fill, plainKey, slotLiteral, eq_comm]
      | field key =>
        simp only [unpad, Slot.fill, plainKey, Option.mem_some_iff, forall_eq']
        constructor
        · intro h
          exact ⟨⟨u, h⟩, plain_ok h⟩
        · rintro ⟨⟨u', h⟩, rfl⟩
          rw [h, plain_ok h]
    simp only [hcons, hslot, ih, List.flatMap_cons]
    constructor
    · rintro ⟨_, ⟨hkey, rfl⟩, _, ⟨hkeys, rfl⟩, rfl⟩
      refine ⟨?_, rfl⟩
      intro key hmem
      obtain ⟨other, hother, hplain⟩ := List.mem_filterMap.mp hmem
      rcases List.mem_cons.mp hother with rfl | hother
      · exact hkey key hplain
      · exact hkeys key (List.mem_filterMap.mpr ⟨other, hother, hplain⟩)
    · rintro ⟨hkeys, rfl⟩
      refine ⟨_, ⟨?_, rfl⟩, _, ⟨?_, rfl⟩, rfl⟩
      · intro key hkey
        exact hkeys key (List.mem_filterMap.mpr ⟨slot, List.mem_cons_self, hkey⟩)
      · intro key hkey
        obtain ⟨other, hother, hplain⟩ := List.mem_filterMap.mp hkey
        exact hkeys key (List.mem_filterMap.mpr ⟨other, List.mem_cons_of_mem _ hother, hplain⟩)

/-! ## All passes -/

variable {pieces : List Piece} {slots : List Slot}

theorem once_ok_iff {p : Piece} : (∃ slots, p.once env = .ok slots) ↔ p.Calm env := by
  cases p with
  | slot s => simp [Piece.once, Piece.Calm]
  | optional key payload =>
    simp only [Piece.once, Piece.Calm]
    by_cases hempty : empty env key = true
    · simp [hempty]
    · cases fill env payload with
      | ok t => simp [hempty]
      | error e =>
        by_cases hcaught : caught e = true
        · simp [hempty, hcaught]
        · simp [hempty, hcaught]

theorem unbraced_flatMap (h : ∀ slot ∈ l, Unbraced (slotLiteral env slot)) :
    Unbraced (l.flatMap (slotLiteral env)) := by
  constructor
  · intro hmem
    obtain ⟨slot, hslot, hmem⟩ := List.mem_flatMap.mp hmem
    exact (h slot hslot).1 hmem
  · intro hmem
    obtain ⟨slot, hslot, hmem⟩ := List.mem_flatMap.mp hmem
    exact (h slot hslot).2 hmem

theorem valid_unpad (hslot : slot.Valid) (h : isPadded slot = true → Unbraced (slotLiteral env slot)) :
    (unpad env slot).Valid := by
  cases slot with
  | text t => exact hslot
  | field key => exact hslot
  | padded key width => exact h rfl

/-- What the first pass leaves of a piece can be told from what it is spelled as, needs the
fields the piece needs, and stands for what the piece stands for. -/
theorem once_ok {p : Piece} (hp : p.Valid) (hunread : ∀ s ∈ p.again env, Unbraced (slotLiteral env s))
    (h : p.once env = .ok slots) :
    (∀ slot ∈ slots, slot.Valid ∧ (unpad env slot).Valid) ∧
      ((∀ key ∈ slots.filterMap plainKey, Found env key) ↔ ∀ key ∈ p.fields env, Found env key) ∧
        slots.flatMap (slotLiteral env) = p.literal env := by
  cases p with
  | slot s =>
    obtain rfl : [s] = slots := Except.ok.inj h
    refine ⟨?_, Iff.rfl, by simp [Piece.literal]⟩
    intro slot hslot
    obtain rfl := List.mem_singleton.mp hslot
    refine ⟨hp, valid_unpad hp ?_⟩
    intro hpadded
    exact hunread slot (by simp [Piece.again, hpadded])
  | optional key payload =>
    obtain ⟨-, hpayload, -⟩ := hp
    by_cases hempty : empty env key = true
    · obtain rfl : [] = slots := by simpa [Piece.once, hempty] using h
      simp [Piece.fields, Piece.literal, hempty]
    cases hfill : fill env payload with
    | ok t =>
      obtain rfl : [.text t] = slots := by simpa [Piece.once, hempty, hfill] using h
      have ht := fill_eq_literal hpayload hfill
      have hunbraced : Unbraced t := by
        rw [ht]
        refine unbraced_flatMap ?_
        intro slot hslot
        exact hunread slot (by simpa [Piece.again, hempty, hfill] using hslot)
      refine ⟨by simpa [unpad, Slot.Valid] using hunbraced, ?_, by simp [Piece.literal, hempty, slotLiteral, ht]⟩
      refine iff_of_true (by simp [plainKey]) ?_
      intro key' hkey
      simp only [Piece.fields, hempty, Bool.false_eq_true, if_false] at hkey
      obtain ⟨slot, hslot, hplain⟩ := List.mem_filterMap.mp hkey
      obtain ⟨u, hu⟩ := fill_ok hfill slot hslot
      cases slot with
      | field key'' =>
        obtain rfl : key'' = key' := Option.some.inj hplain
        exact ⟨u, hu⟩
      | text t => simp [plainKey] at hplain
      | padded key'' width => simp [plainKey] at hplain
    | error e =>
      by_cases hcaught : caught e = true
      · obtain rfl : payload = slots := by simpa [Piece.once, hempty, hfill, hcaught] using h
        refine ⟨?_, by simp [Piece.fields, hempty], by simp [Piece.literal, hempty]⟩
        intro slot hslot
        refine ⟨hpayload slot hslot, valid_unpad (hpayload slot hslot) ?_⟩
        intro hpadded
        exact hunread slot (by simpa [Piece.again, hempty, hfill, hpadded] using hslot)
      · simp [Piece.once, hempty, hfill, hcaught] at h

theorem once_all_ok (hvalid : ∀ p ∈ pieces, p.Valid) (hunread : Unread env pieces)
    (h : once env pieces = .ok slots) :
    (∀ slot ∈ slots, slot.Valid ∧ (unpad env slot).Valid) ∧
      ((∀ key ∈ slots.filterMap plainKey, Found env key) ↔
        ∀ p ∈ pieces, ∀ key ∈ p.fields env, Found env key) ∧
        slots.flatMap (slotLiteral env) = literal env pieces := by
  induction pieces generalizing slots with
  | nil =>
    obtain rfl : [] = slots := Except.ok.inj h
    simp [literal]
  | cons p pieces ih =>
    obtain ⟨first, hfirst, hrest⟩ := Raise.bind_ok_iff.mp h
    cases honce : once env pieces with
    | error e => simp [honce, Except.map] at hrest
    | ok rest =>
      obtain rfl : first ++ rest = slots := by simpa [honce, Except.map] using hrest
      obtain ⟨hslots, hkeys, hliteral⟩ :=
        once_ok (hvalid p List.mem_cons_self) (hunread p List.mem_cons_self) hfirst
      obtain ⟨hslots', hkeys', hliteral'⟩ :=
        ih (fun p hp => hvalid p (List.mem_cons_of_mem _ hp))
          (fun p hp => hunread p (List.mem_cons_of_mem _ hp)) honce
      refine ⟨?_, ?_, by simp [literal, hliteral, hliteral']⟩
      · intro slot hslot
        rcases List.mem_append.mp hslot with hslot | hslot
        · exact hslots slot hslot
        · exact hslots' slot hslot
      · rw [List.filterMap_append, List.forall_mem_append, hkeys, hkeys', List.forall_mem_cons]

theorem once_all_ok_iff : (∃ slots, once env pieces = .ok slots) ↔ ∀ p ∈ pieces, p.Calm env := by
  induction pieces with
  | nil => simp [once]
  | cons p pieces ih =>
    rw [List.forall_mem_cons, ← ih, ← once_ok_iff, once]
    cases p.once env with
    | error e => simp [bind, Except.bind]
    | ok slots => cases once env pieces <;> simp [bind, Except.bind, Except.map]

/-- **When the passes put the values in as they are**: where no text with a brace is read again,
they do exactly where the fields are there and no optional part raises, and otherwise they
fail. -/
theorem filled_iff (hvalid : ∀ p ∈ pieces, p.Valid) (hunread : Unread env pieces) :
    filled env (source pieces) = .ok t ↔ Formats env pieces ∧ t = literal env pieces := by
  have hpasses : ∀ slots, once env pieces = .ok slots →
      (filled env (source pieces) = .ok t ↔
        (∀ p ∈ pieces, ∀ key ∈ p.fields env, Found env key) ∧ t = literal env pieces) := by
    intro slots honce
    obtain ⟨hslots, hkeys, hliteral⟩ := once_all_ok hvalid hunread honce
    have hvalid' : ∀ slot ∈ slots.map (unpad env), slot.Valid := by
      intro slot hslot
      obtain ⟨other, hother, rfl⟩ := List.mem_map.mp hslot
      exact (hslots other hother).2
    have hpad := @padTokens_source env ((Format.source slots).length + 1) slots
      (fun slot hslot => (hslots slot hslot).1) (Nat.lt_succ_self _)
    rw [filled, handed, expand_source hvalid (Nat.lt_succ_self _), honce]
    simp only [Except.map, bind, Except.bind, hpad]
    rw [format_source hvalid', fill_unpad_iff, hkeys, hliteral]
  constructor
  · intro h
    obtain ⟨out, hout, -⟩ := Raise.bind_ok_iff.mp h
    have honce : ∃ slots, once env pieces = .ok slots := by
      rw [handed, expand_source hvalid (Nat.lt_succ_self _)] at hout
      cases honce : once env pieces with
      | error e => simp [honce, Except.map] at hout
      | ok slots => exact ⟨slots, rfl⟩
    obtain ⟨slots, hslots⟩ := honce
    obtain ⟨hfound, ht⟩ := (hpasses slots hslots).mp h
    exact ⟨fun p hp => ⟨once_all_ok_iff.mp ⟨slots, hslots⟩ p hp, hfound p hp⟩, ht⟩
  · rintro ⟨hformats, ht⟩
    obtain ⟨slots, hslots⟩ := once_all_ok_iff.mpr fun p hp => (hformats p hp).1
    exact (hpasses slots hslots).mpr ⟨fun p hp => (hformats p hp).2, ht⟩

/-! ## Tidying -/

/-- A character that a predicate stops at also bounds what stands in front of it. -/
theorem span_stop {p : Char → Bool} {d : Char} (hd : p d = false) (s : Text) :
    (t ++ d :: s).takeWhile p = t.takeWhile p ∧ (t ++ d :: s).dropWhile p = t.dropWhile p ++ d :: s := by
  induction t with
  | nil => simp [hd]
  | cons c t ih =>
    by_cases hc : p c = true
    · simp [hc, ih]
    · simp [hc]

theorem dropTabs_append : dropTabs (t ++ '/' :: s) = dropTabs t ++ '/' :: dropTabs s := by
  induction t with
  | nil => simp [dropTabs, isSep, Text.isSpace]
  | cons c t ih =>
    have hstop := (@span_stop (c :: t) isSep '/' (by decide) s).1
    simp only [List.cons_append] at hstop ⊢
    rw [dropTabs, dropTabs, hstop, ih]
    split <;> rfl

theorem bracketLength_append : bracketLength (t ++ '/' :: s) = bracketLength t := by
  have hstop : ∀ t, (t ++ '/' :: s).dropWhile Text.isSpace = t.dropWhile Text.isSpace ++ '/' :: s :=
    fun t => (@span_stop t Text.isSpace '/' (by decide) s).2
  rw [bracketLength, bracketLength, hstop]
  cases t.dropWhile Text.isSpace with
  | nil => simp
  | cons c rest =>
    simp only [List.cons_append, hstop]
    cases rest.dropWhile Text.isSpace with
    | nil => simp
    | cons d after =>
      simp only [List.cons_append, List.length_append]
      rw [Nat.add_sub_add_right]

theorem bracketLength_le {n : ℕ} (h : bracketLength t = some n) : n ≤ t.length := by
  rw [bracketLength] at h
  split at h
  · split at h
    · split at h
      · split at h
        · obtain rfl := Option.some.inj h
          exact Nat.sub_le ..
        · simp at h
      · simp at h
    · simp at h
  · simp at h

theorem dropBrackets_zero {c : Char} : dropBrackets 0 (c :: t) =
    (bracketLength (c :: t)).elim (c :: dropBrackets 0 t) fun n => dropBrackets (n - 1) t := by
  rw [dropBrackets, if_neg (Nat.lt_irrefl 0)]

theorem dropBrackets_succ {c : Char} {skip : ℕ} :
    dropBrackets (skip + 1) (c :: t) = dropBrackets skip t := by
  rw [dropBrackets]
  simp

theorem dropBrackets_append {skip : ℕ} (hskip : skip ≤ t.length) :
    dropBrackets skip (t ++ '/' :: s) = dropBrackets skip t ++ '/' :: dropBrackets 0 s := by
  induction t generalizing skip with
  | nil =>
    obtain rfl : skip = 0 := by simpa using hskip
    have hnone : bracketLength ('/' :: s) = none := @bracketLength_append s []
    rw [List.nil_append, dropBrackets_zero, hnone, dropBrackets, List.nil_append, Option.elim_none]
  | cons c t ih =>
    cases skip with
    | succ skip =>
      have hskip : skip ≤ t.length := by simpa using hskip
      rw [List.cons_append, dropBrackets_succ, dropBrackets_succ, ih hskip]
    | zero =>
      have hlength := @bracketLength_append s (c :: t)
      rw [List.cons_append] at hlength ⊢
      rw [dropBrackets_zero, dropBrackets_zero, hlength]
      cases hn : bracketLength (c :: t) with
      | none =>
        simp only [Option.elim_none, ih (Nat.zero_le _), List.cons_append]
      | some n =>
        have hle := bracketLength_le hn
        have hle : n - 1 ≤ t.length := by
          simp only [List.length_cons] at hle
          omega
        simp only [Option.elim_some, ih hle]

theorem tidy_append : tidy (t ++ '/' :: s) = tidy t ++ '/' :: tidy s := by
  rw [tidy, dropTabs_append, dropBrackets_append (Nat.zero_le _)]
  rfl

/-- **Each segment of a path is tidied by itself.** -/
theorem tidy_intercalate {segments : List Text} :
    tidy (List.intercalate ['/'] segments) = List.intercalate ['/'] (segments.map tidy) := by
  induction segments with
  | nil => rfl
  | cons t segments ih =>
    cases segments with
    | nil => simp
    | cons u segments =>
      simp only [List.intercalate_cons_cons, List.map_cons, List.append_assoc,
        List.singleton_append] at ih ⊢
      rw [tidy_append, ih]

theorem dropTabs_subset : dropTabs t ⊆ t := by
  induction t with
  | nil => simp [dropTabs]
  | cons c t ih =>
    rw [dropTabs]
    split
    · exact List.subset_cons_of_subset c ih
    · exact List.cons_subset_cons c ih

theorem dropBrackets_subset {skip : ℕ} : dropBrackets skip t ⊆ t := by
  induction t generalizing skip with
  | nil => simp [dropBrackets]
  | cons c t ih =>
    cases skip with
    | succ skip =>
      rw [dropBrackets_succ]
      exact List.subset_cons_of_subset c ih
    | zero =>
      rw [dropBrackets_zero]
      cases bracketLength (c :: t) with
      | none => exact List.cons_subset_cons c ih
      | some n => exact List.subset_cons_of_subset c ih

/-- Tidying neither brings a slash in nor takes one out. -/
theorem slash_mem_tidy_iff : '/' ∈ tidy t ↔ '/' ∈ t := by
  constructor
  · intro h
    exact dropTabs_subset (dropBrackets_subset h)
  · intro h
    obtain ⟨a, b, rfl⟩ := List.append_of_mem h
    rw [tidy_append]
    simp

end NameFormat

end WolfNas
