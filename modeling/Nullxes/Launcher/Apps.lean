import Mathlib.Data.List.Sort
import Mathlib.Data.Nat.Notation
import Mathlib.Data.String.Basic
import Nullxes.Library.KeyedFold

/-!
# The applications

`launcher/src/apps.rs`, which reads the `.desktop` files, and `launcher/src/search.rs`, which
searches what was read. Outside of them are the files that `DesktopIter` finds, in its order, what
`read` and `DesktopEntry::decode` make of each, `shlex::split`, `str::to_lowercase` and the fuzzy
matcher: parameters. So is the order in which a `HashMap` hands out its values.
-/

namespace Nullxes

namespace Launcher

/-- A path by its components. -/
abbrev Path := List String

/-- `DesktopEntry`: the keys that are read, and `Hidden`. -/
structure DesktopEntry where
  name : Option String := none
  exec : Option String := none
  comment : Option String := none
  icon : Option String := none
  categories : Option String := none
  noDisplay : Bool := false
  hidden : Bool := false
  onlyShowIn : Option String := none
  notShowIn : Option String := none
  deriving DecidableEq, Repr

/-- `AppEntry`. -/
structure AppEntry where
  name : String
  comment : Option String
  argv : List String
  icon : Option String
  categories : List String
  sourcePath : Path
  deriving DecidableEq, Repr

/-- What surrounds a `scan`. -/
structure Env where
  xdgCurrentDesktop : Option String
  home : Option Path
  /-- `fs::read` and `DesktopEntry::decode`, if both succeed. -/
  decode : Path → Option DesktopEntry
  /-- `shlex::split`. -/
  split : String → Option (List String)
  toLowercase : String → String

/-- `split` at a character, without the parts that are empty. -/
def splitNonEmpty (sep : Char) (s : String) : List String :=
  ((s.toList.splitOn sep).map String.ofList).filter (· ≠ "")

def eqIgnoreAsciiCase (a b : String) : Bool :=
  a.toList.map Char.toLower == b.toList.map Char.toLower

def visibleIn (de : DesktopEntry) (current : List String) : Bool :=
  let names (list : String) : Bool :=
    (splitNonEmpty ';' list).any fun d => current.any fun c => eqIgnoreAsciiCase c d
  let only : Bool :=
    match de.onlyShowIn with
    | some only => !current.isEmpty && names only
    | none => true
  let denied : Bool :=
    match de.notShowIn with
    | some denied => names denied
    | none => false
  only && !denied

/-- `in_home`. -/
def inHome (home : Option Path) (p : Path) : Bool :=
  match home with
  | some home => home.isPrefixOf p
  | none => false

def moreSpecific (home : Option Path) (newPath oldPath : Path) : Bool :=
  inHome home newPath && !inHome home oldPath

def isFieldCode (tok : String) : Bool :=
  ["%f", "%F", "%u", "%U", "%i", "%c", "%k", "%v", "%m"].contains tok

def parseExec (split : String → Option (List String)) (exec : String) : List String :=
  match split exec with
  | none => []
  | some parts => parts.filter fun tok => !isFieldCode tok

/-- An order in which a `HashMap` hands out its values. -/
structure IterOrder where
  intoValues : (AList fun _ : String => AppEntry) → List AppEntry
  perm : ∀ m, (intoValues m).Perm (KeyedFold.values m)

namespace Env

variable (env : Env)

def currentDesktops : List String := splitNonEmpty ':' (env.xdgCurrentDesktop.getD "")

/-- The application that a file stands for; `none` where the loop of `scan` continues. -/
def appEntry (path : Path) : Option AppEntry := do
  let de ← env.decode path
  if de.noDisplay then none
  else if !visibleIn de env.currentDesktops then none
  else
    let name ← de.name
    let exec ← de.exec
    let argv := parseExec env.split exec
    if argv.isEmpty then none
    else
      let categories := (de.categories.map (splitNonEmpty ';')).getD []
      some ⟨name, de.comment, argv, de.icon, categories, path⟩

/-- One round of the loop of `scan`. -/
def visit (byName : AList fun _ : String => AppEntry) (path : Path) :
    AList fun _ : String => AppEntry :=
  match env.appEntry path with
  | none => byName
  | some app =>
    match byName.lookup app.name with
    | none => byName.insert app.name app
    | some old =>
      if moreSpecific env.home app.sourcePath old.sourcePath then byName.insert app.name app
      else byName

/-- The order that `scan` sorts by. -/
def Before (a b : AppEntry) : Prop := env.toLowercase a.name ≤ env.toLowercase b.name

instance : DecidableRel env.Before := fun a b =>
  inferInstanceAs (Decidable (env.toLowercase a.name ≤ env.toLowercase b.name))

/-- `scan`, of the files in these places. -/
def scan (order : IterOrder) (paths : List Path) : List AppEntry :=
  (order.intoValues (paths.foldl env.visit ∅)).insertionSort env.Before

end Env

/-- `Searcher`, with what its matcher scores a name and a query. -/
structure Searcher where
  fuzzyMatch : String → String → Option Int64
  apps : List AppEntry

namespace Searcher

variable (me : Searcher)

/-- The applications that match, best first. -/
def query (query : String) (limit : ℕ) : List AppEntry :=
  if query.isEmpty then me.apps.take limit
  else
    let scored := me.apps.filterMap fun app =>
      (me.fuzzyMatch app.name query).map fun score => (score, app)
    ((scored.insertionSort fun a b => b.1 ≤ a.1).take limit).map Prod.snd

end Searcher

end Launcher

end Nullxes
