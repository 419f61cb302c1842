import WolfNas.Lib.FormatText

/-!
# Name formats

A name format is rendered in three passes: the optional parts are formatted, the zero-padded
fields are replaced, and the whole text is formatted.  So what an optional part or a padded field
has put in is read as a format once more.

## Main definitions

* `NameFormat.expand`, `NameFormat.padTokens`, `NameFormat.tidy`, `NameFormat.render` — the
  passes, and all of them.
* `NameFormat.Piece`, `NameFormat.source` — a part of a format in the documented syntax, and what
  it is spelled as.
* `NameFormat.literal` — the pieces with the values put in as they are.
* `NameFormat.Formats`, `NameFormat.Unread` — the fields are there and no optional part raises,
  and no text with a brace is read again.
-/

namespace WolfNas

namespace NameFormat

open Format

/-! ## The passes -/

/-- A zero, a width, perhaps a `d`, and the closing brace at the start: the width, and what
follows. -/
def padSpec : Text → Option (Text × Text)
  | '0' :: rest =>
    let width := rest.takeWhile Char.isDigit
    if width = [] then none
    else match rest.dropWhile Char.isDigit with
      | '}' :: after => some (width, after)
      | 'd' :: '}' :: after => some (width, after)
      | _ => none
  | _ => none

/-- A padded field behind its opening brace: its key, its width, and what follows. -/
def padToken (s : Text) : Option (Text × Text × Text) :=
  let key := s.takeWhile isKeyChar
  if key = [] then none
  else match s.dropWhile isKeyChar with
    | ':' :: rest => (padSpec rest).map fun r => (key, r.1, r.2)
    | _ => none

/-- The text up to the brace that closes the given number of open ones, and what follows. -/
def closing : ℕ → Text → Option (Text × Text)
  | _, [] => none
  | depth, c :: s =>
    if c = '}' ∧ depth ≤ 1 then some ([], s)
    else
      let depth := if c = '{' then depth + 1 else if c = '}' then depth - 1 else depth
      (closing depth s).map fun r => (c :: r.1, r.2)

/-- A field is empty where it is missing, or stands for nothing. -/
def empty (env : Env) (key : Text) : Bool :=
  match env.fields key with
  | none => true
  | some v => v = .text ['\t'] ∨ v = .text []

/-- An error that `render` catches. -/
def caught : FormatError → Bool
  | .key | .value => true
  | .index | .attribute => false

/-- What takes the place of an optional part. -/
def optional (env : Env) (key payload : Text) : Except FormatError Text :=
  if empty env key then .ok []
  else match env.format payload with
    | .ok t => .ok t
    | .error e => if caught e then .ok payload else .error e

/-- The optional parts, as `_find_conds` finds them, are replaced; the other fields are passed
over, each with all up to its closing brace.  Every turn reads at least one character. -/
def expand (env : Env) : ℕ → Text → Except FormatError Text
  | 0, s => .ok s
  | _ + 1, [] => .ok []
  | n + 1, c :: s =>
    let key := s.takeWhile isKeyChar
    let rest := s.dropWhile isKeyChar
    let skip := s.takeWhile (· ≠ '}') ++ (s.dropWhile (· ≠ '}')).take 1
    let after := (s.dropWhile (· ≠ '}')).drop 1
    if c ≠ '{' ∨ key = [] then (expand env n s).map (c :: ·)
    else if rest.head? ≠ some ':' ∨ (padSpec rest.tail).isSome then
      (expand env n after).map (c :: skip ++ ·)
    else match closing 1 rest.tail with
      | none => (expand env n s).map (c :: ·)
      | some (payload, after) =>
        optional env key payload >>= fun t => (expand env n after).map (t ++ ·)

/-- Every run of digits is filled with zeros to the width; `run` are the digits read so far. -/
def zfillRuns (width : ℕ) : Text → Text → Text
  | run, [] => if run = [] then [] else Text.rjust width run
  | run, c :: s =>
    if c.isDigit then zfillRuns width (run ++ [c]) s
    else (if run = [] then [] else Text.rjust width run) ++ c :: zfillRuns width [] s

/-- `replace_padding`. -/
def replacePadding (env : Env) (key width : Text) : Text :=
  match env.fields key with
  | none => []
  | some v =>
    if v = .text ['\t'] then ['\t'] else zfillRuns (Text.toNat width) [] v.str

/-- The padded fields are replaced. -/
def padTokens (env : Env) : ℕ → Text → Text
  | 0, s => s
  | _ + 1, [] => []
  | n + 1, c :: s =>
    match if c = '{' then padToken s else none with
    | none => c :: padTokens env n s
    | some (key, width, after) => replacePadding env key width ++ padTokens env n after

/-- A separator, as far as it goes with an empty field. -/
def isSep (c : Char) : Bool := c = '-' || c = '_' || c = '.' || Text.isSpace c

/-- Empty fields go, with the separators in front of them. -/
def dropTabs : Text → Text
  | [] => []
  | c :: s => if isSep c ∧ '\t' ∈ (c :: s).takeWhile isSep then dropTabs s else c :: dropTabs s

/-- The length of empty brackets at the start, with the blanks in front of them and inside. -/
def bracketLength (s : Text) : Option ℕ :=
  match s.dropWhile Text.isSpace with
  | c :: rest =>
    if c = '(' ∨ c = '（' then match rest.dropWhile Text.isSpace with
      | d :: after => if d = ')' ∨ d = '）' then some (s.length - after.length) else none
      | [] => none
    else none
  | [] => none

/-- Empty brackets go; `skip` is the number of characters to go. -/
def dropBrackets : ℕ → Text → Text
  | _, [] => []
  | skip, c :: s =>
    if 0 < skip then dropBrackets (skip - 1) s
    else (bracketLength (c :: s)).elim (c :: dropBrackets 0 s) fun n => dropBrackets (n - 1) s

/-- What is done with the rendered text in the end. -/
def tidy (s : Text) : Text := dropBrackets 0 (dropTabs s)

/-- The text that is formatted in the last pass. -/
def handed (env : Env) (fmt : Text) : Except FormatError Text :=
  (expand env (fmt.length + 1) fmt).map fun out => padTokens env (out.length + 1) out

/-- The rendered text, where nothing fails. -/
def filled (env : Env) (fmt : Text) : Except FormatError Text := handed env fmt >>= env.format

/-- `render`; where the last pass fails, the text is left as it is. -/
def render (env : Env) (fmt : Text) : Except FormatError Text :=
  if fmt = [] then .ok []
  else handed env fmt >>= fun out => match env.format out with
    | .ok t => .ok (tidy t)
    | .error e => if caught e then .ok (tidy out) else .error e

/-! ## Formats in the documented syntax -/

/-- A part of a name format: a slot, or a part that goes where its field is empty. -/
inductive Piece
  | slot (s : Slot)
  | optional (key : Text) (payload : List Slot)
  deriving DecidableEq, Repr

namespace Piece

/-- A piece as it is spelled. -/
def source : Piece → Text
  | slot s => s.source
  | optional key payload => '{' :: key ++ ':' :: Format.source payload ++ ['}']

/-- The piece can be told from what it is spelled as. -/
def Valid : Piece → Prop
  | slot s => s.Valid
  | optional key payload =>
    IsKey key ∧ (∀ s ∈ payload, s.Valid) ∧ padSpec (Format.source payload ++ ['}']) = none

instance : DecidablePred Valid
  | slot s => inferInstanceAs (Decidable s.Valid)
  | optional _ _ => inferInstanceAs (Decidable (_ ∧ _ ∧ _))

end Piece

/-- What pieces are spelled as. -/
def source (l : List Piece) : Text := l.flatMap Piece.source

/-! ## What the values make of a piece -/

/-- The field of a slot that is put in without padding. -/
def plainKey : Slot → Option Text
  | .field key => some key
  | .text _ | .padded _ _ => none

/-- The slot is padded. -/
def isPadded : Slot → Bool
  | .padded _ _ => true
  | .text _ | .field _ => false

/-- The slot with the value put in as it is. -/
def slotLiteral (env : Env) : Slot → Text
  | .text t => t
  | .field key => ((env.fields key).map FormatValue.str).getD []
  | .padded key width => replacePadding env key width

namespace Piece

variable (env : Env)

/-- The piece with the values put in as they are. -/
def literal : Piece → Text
  | slot s => slotLiteral env s
  | optional key payload => if empty env key then [] else payload.flatMap (slotLiteral env)

/-- The fields that are put in without padding. -/
def fields : Piece → List Text
  | slot s => [s].filterMap plainKey
  | optional key payload => if empty env key then [] else payload.filterMap plainKey

/-- The slots whose text is read once more: those of an optional part that is formatted by
itself, and the padded ones. -/
def again : Piece → List Slot
  | slot s => [s].filter isPadded
  | optional key payload =>
    if empty env key then []
    else match fill env payload with
      | .ok _ => payload
      | .error _ => payload.filter isPadded

/-- The optional part does not raise. -/
def Calm : Piece → Prop
  | slot _ => True
  | optional key payload =>
    empty env key = false → ∀ e, fill env payload = .error e → caught e = true

end Piece

/-- The pieces with the values put in as they are. -/
def literal (env : Env) (l : List Piece) : Text := l.flatMap (Piece.literal env)

/-- A field can be formatted. -/
def Found (env : Env) (key : Text) : Prop := ∃ t, env.field key none [] = .ok t

/-- Every field is there, and no optional part raises. -/
def Formats (env : Env) (l : List Piece) : Prop :=
  ∀ p ∈ l, p.Calm env ∧ ∀ key ∈ p.fields env, Found env key

/-- No text that is read once more has a brace. -/
def Unread (env : Env) (l : List Piece) : Prop :=
  ∀ p ∈ l, ∀ s ∈ p.again env, Unbraced (slotLiteral env s)

end NameFormat

end WolfNas
