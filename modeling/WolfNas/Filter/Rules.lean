import WolfNas.Lib.Text
import WolfNas.Limit.SiteSpacing

/-!
# Filter rules

A group of rules is tried in order; the first rule that matches gives the priority.  A rule that
raises is passed over: where no rule missed, the torrent is let through.

## Main definitions

* `Regex` — what the code relies on of regular expressions.
* `RuleMeta` — what a rule looks at of a torrent.
* `FilterInfo`, `checkRule` — a rule, as both engines evaluate it.
* `checkRules` — the rules of a group on a title.
* `FilterRuleEngine.checkRules`, `IndexerFilterEngine.checkRules` — the two engines.
-/

namespace WolfNas

open Text

/-! ## What is known of a torrent -/

/-- Searching a title for a pattern, case ignored; none where the pattern is no regular
expression.  The blank pattern is found everywhere. -/
structure Regex where
  search : Text → Text → Option Bool
  blank : ∀ title, search [] title = some true

/-- Literal texts, and a parenthesis that is not closed, which is no regular expression. -/
def unclosedRegex : Regex where
  search p title := if p = of "(" then none else some (p <:+: title)
  blank := by simp [of]

/-- A size: a number of bytes, or a text of a site. -/
inductive SizeValue
  | number (n : ℤ)
  | text (t : Text)
  deriving DecidableEq

/-- What the rules look at; a text that is none is blank. -/
structure RuleMeta where
  revString : Text
  subtitle : Text := []
  description : Text := []
  originalLanguage : Text := []
  size : SizeValue := .number 0
  totalEpisodes : ℤ := 0
  isMovie : Bool := false
  uploadVolumeFactor : Option ℚ := none
  downloadVolumeFactor : Option ℚ := none

/-- `FILTER_LANGUAGE_OPTIONS`. -/
def filterLanguageOptions : List Text :=
  [of "zh", of "en", of "ja", of "ko", of "fr", of "de", of "ru", of "hi"]

/-! ## Numbers in texts -/

/-- Digits and, after a point, more digits; what is left of the text. -/
def decimalPart (s : Text) : Option (ℚ × Text) :=
  let whole := s.takeWhile Char.isDigit
  if whole = [] then none
  else match s.dropWhile Char.isDigit with
    | '.' :: rest =>
      let fraction := rest.takeWhile Char.isDigit
      if fraction = [] then some (toNat whole, '.' :: rest)
      else some (toNat whole + toNat fraction / 10 ^ fraction.length, rest.dropWhile Char.isDigit)
    | rest => some (toNat whole, rest)

/-- The number of a text that `is_numeric` takes for one; a line end may follow it. -/
def numericValue (s : Text) : Option ℚ :=
  let (negative, t) := signOf s
  match decimalPart t with
  | some (x, []) | some (x, ['\n']) => some (if negative then -x else x)
  | _ => none

/-- Round, half to even. -/
def roundHalfEven (x : ℚ) : ℤ :=
  if x - ⌊x⌋ < 1 / 2 then ⌊x⌋
  else if 1 / 2 < x - ⌊x⌋ then ⌊x⌋ + 1
  else if ⌊x⌋ % 2 = 0 then ⌊x⌋ else ⌊x⌋ + 1

/-- The power of 1024 that a unit stands for, the greatest first. -/
def unitPower (s : Text) : ℕ :=
  let named := fun unit : Char => [unit, 'B'] <:+: s ∨ [unit, 'I', 'B'] <:+: s ∨ [unit] <:+ s
  if named 'P' then 5
  else if named 'T' then 4
  else if named 'G' then 3
  else if named 'M' then 2
  else if named 'K' then 1
  else 0

/-- `num_filesize`. -/
def numFilesize : SizeValue → ℤ
  | .number n => max n 0
  | .text t =>
    if t.isDigit then t.toNat
    else
      let s := upper (t.filter fun c => c ≠ ',' ∧ c ≠ ' ')
      match decimalPart s with
      | some (x, rest) =>
        if rest.dropWhile (· ∈ of "KMGTPI") ∈ [[], ['B'], ['\n'], ['B', '\n']] then
          roundHalfEven (x * 1024 ^ unitPower s)
        else 0
      | none => 0

/-- `bool(size)`. -/
def SizeValue.truthy : SizeValue → Bool
  | .number n => n ≠ 0
  | .text t => t ≠ []

/-- `float(text) > x`; none where it raises. -/
def floatGt (text : Text) (x : ℚ) : Option Bool :=
  (parseFloat text).map fun
    | .value y => x < y
    | .infinite => !(signOf text.strip).1
    | .nan => false

/-- `float(text) < x`; none where it raises. -/
def floatLt (text : Text) (x : ℚ) : Option Bool :=
  (parseFloat text).map fun
    | .value y => y < x
    | .infinite => (signOf text.strip).1
    | .nan => false

/-! ## A rule -/

/-- The priority of a rule as it is loaded. -/
inductive Priority
  | number (n : ℤ)
  | text (t : Text)

/-- `int(pri)`; none where it raises. -/
def Priority.asInt : Priority → Option ℤ
  | number n => some n
  | text t => parseInt t

/-- A rule as it is loaded; a list or a text that is none is empty. -/
structure FilterInfo where
  pri : Priority
  includes : List Text := []
  excludes : List Text := []
  size : Text := []
  free : Text := []
  originalLanguage : Text := []

/-- What becomes of a rule. -/
inductive RuleOutcome
  | matched | missed | failed
  deriving DecidableEq

section Rule

variable (regex : Regex) (title : Text) (info : RuleMeta)

/-- The original language: it only counts where it is known of the torrent. -/
def languageMatches (language : Text) : Bool :=
  language = [] || info.originalLanguage = [] ||
    (let known := info.originalLanguage.strip.take 2
    if language = of "other" then known ∉ filterLanguageOptions else language.take 2 = known)

/-- Every pattern is found; none where one raises. -/
def includesFound : List Text → Option Bool
  | [] => some true
  | p :: patterns =>
    if p = [] then includesFound patterns
    else match regex.search p.strip title with
      | some true => includesFound patterns
      | other => other

/-- Which of the patterns are found; none where one raises. -/
def foundOf : List Text → Option (List Bool)
  | [] => some []
  | p :: patterns =>
    if p = [] then foundOf patterns
    else (regex.search p.strip title).bind fun found => (foundOf patterns).map (found :: ·)

/-- There are patterns, and each is found. -/
def excluded (patterns : List Text) : Option Bool :=
  (foundOf regex title patterns).map fun found => !found.isEmpty && found.all id

/-- The conditions on the language and the title. -/
def titleMatches (f : FilterInfo) : Option Bool :=
  if languageMatches info f.originalLanguage then
    (includesFound regex title f.includes).bind fun found =>
      if found then (excluded regex title f.excludes).map (!·) else some false
  else some false

/-- The size is within the bounds, given in GB; of a show, the size of an episode. -/
def sizeFits (sizes : Text) (bytes : ℤ) : Bool :=
  let parts := sizes.splitOn ','
  let first := (numericValue (parts.headD [])).getD 0
  let second := (numericValue (parts.tail.headD [])).getD 0
  let (low, high) := if ',' ∈ sizes then (first, second) else (0, first)
  let fits := fun x : ℚ => low * 1024 ^ 3 ≤ x ∧ x ≤ high * 1024 ^ 3
  if info.isMovie then fits bytes
  else info.totalEpisodes = 0 ∨ fits (bytes / info.totalEpisodes)

/-- `text.split()`. -/
def words (s : Text) : List Text := (s.splitOnP isSpace).filter (· ≠ [])

/-- The promotion is not the one that the rule asks for; none where it raises. -/
def promotionMissed (free : Text) : Option Bool :=
  match info.uploadVolumeFactor, info.downloadVolumeFactor with
  | some up, some down =>
    if free = [] then some false
    else match words free with
      | [ul, dl] => (floatGt ul up).bind fun above => if above then some true else floatLt dl down
      | _ => none
  | _, _ => some false

/-- A rule on a torrent, and the size as the rule leaves it. -/
def checkRule (size : SizeValue) (f : FilterInfo) : RuleOutcome × SizeValue :=
  match titleMatches regex title info f with
  | none => (.failed, size)
  | some found =>
    let measured := found ∧ f.size ≠ [] ∧ size.truthy
    let bytes := numFilesize size
    let size := if measured then .number bytes else size
    let found := if measured then sizeFits info f.size bytes else found
    match promotionMissed info f.free with
    | none => (.failed, size)
    | some missed => (if found ∧ !missed then .matched else .missed, size)

/-- The loop over the rules. -/
def checkLoop (orderSeq : ℤ) (groupMatch : Bool) (size : SizeValue) : List FilterInfo → Bool × ℤ
  | [] => if groupMatch then (true, orderSeq) else (false, 0)
  | f :: filters => match f.pri.asInt with
    | none => checkLoop orderSeq groupMatch size filters
    | some pri => match checkRule regex title info size f with
      | (.matched, _) => (true, 100 - pri)
      | (.missed, size) => checkLoop (100 - pri) false size filters
      | (.failed, size) => checkLoop (100 - pri) groupMatch size filters

/-- The rules of a group on a title. -/
def checkRules (groupName : Text) (filters : List FilterInfo) : Bool × ℤ × Text :=
  let (found, order) := checkLoop regex title info 0 true info.size filters
  (found, order, groupName)

end Rule

/-! ## The two engines -/

/-- The title with its subtitle. -/
def RuleMeta.title (info : RuleMeta) : Text :=
  if info.subtitle = [] then info.revString else info.revString ++ ' ' :: info.subtitle

/-- The title with its subtitle and description. -/
def RuleMeta.fullTitle (info : RuleMeta) : Text :=
  if info.description = [] then info.title else info.title ++ ' ' :: info.description

/-- `FilterRuleEngine.check_rules`. -/
def FilterRuleEngine.checkRules (regex : Regex) (info : RuleMeta) (groupName : Text)
    (filters : List FilterInfo) : Bool × ℤ × Text :=
  WolfNas.checkRules regex info.title info groupName filters

/-- `IndexerFilterEngine.check_rules`. -/
def IndexerFilterEngine.checkRules (regex : Regex) (info : RuleMeta) (groupName : Text)
    (filters : List FilterInfo) : Bool × ℤ × Text :=
  WolfNas.checkRules regex info.fullTitle info groupName filters

end WolfNas
