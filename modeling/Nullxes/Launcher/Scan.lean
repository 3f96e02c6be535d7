import Nullxes.Launcher.Apps

/-!
# What a scan finds

`scan` keeps one application for each name, and the user's before the system's. But which entries
there are to choose from is decided before: one that is not visible is skipped and overrides
nothing, and `Hidden` is not looked at.

## Main definitions

* `Env.usable` — the applications that the files stand for, in their order
* `Env.mostSpecific` — the first below `HOME`, otherwise the first
* `Env.Overrides` — what a user's entry should do to the entries with its name
* `Env.Agrees`, `Env.Separates` — what decides whether it does, and whether the order is fixed

## Main results

* `scan_spec` — each name once, in order, with the most specific of the usable entries
* `overrides_iff`, `not_overrides` — when a user's entry decides
* `scan_eq_iff`, `scan_ne` — when the order of a `HashMap` is not seen
-/

namespace Nullxes

namespace Launcher

open KeyedFold

namespace Env

variable (env : Env)

/-- The readable, visible entries with a name and a command, in order. -/
def usable (paths : List Path) : List AppEntry := paths.filterMap env.appEntry

/-- The first of the entries below `HOME`, otherwise the first. -/
def mostSpecific (apps : List AppEntry) : Option AppEntry :=
  firstIn (fun app => inHome env.home app.sourcePath) apps

/-- The usable entries with a name. -/
def called (name : String) (paths : List Path) : List AppEntry :=
  (env.usable paths).filter fun app => app.name = name

/-- What an application is made from. -/
structure Describes (de : DesktopEntry) (app : AppEntry) : Prop where
  decode : env.decode app.sourcePath = some de
  noDisplay : de.noDisplay = false
  visible : visibleIn de env.currentDesktops = true
  name : de.name = some app.name

variable {env} {path : Path} {paths : List Path} {app : AppEntry} {name : String}
  {order : IterOrder}

theorem describes_of_appEntry (h : env.appEntry path = some app) :
    app.sourcePath = path ∧ ∃ de, env.Describes de app := by
  obtain ⟨de, hdecode, h⟩ := Option.bind_eq_some_iff.mp h
  split at h
  next => cases h
  next hnoDisplay =>
    split at h
    next => cases h
    next hvisible =>
      obtain ⟨name, hname, h⟩ := Option.bind_eq_some_iff.mp h
      obtain ⟨exec, -, h⟩ := Option.bind_eq_some_iff.mp h
      dsimp only at h
      split at h
      next => cases h
      next =>
        cases h
        exact ⟨rfl, de, hdecode, by simpa using hnoDisplay, by simpa using hvisible, hname⟩

theorem mem_called : app ∈ env.called name paths ↔ app ∈ env.usable paths ∧ app.name = name := by
  simp [called]

/-! ### The map -/

theorem foldl_visit (byName : AList fun _ : String => AppEntry) :
    paths.foldl env.visit byName =
      (env.usable paths).foldl (keep AppEntry.name fun new old =>
        moreSpecific env.home new.sourcePath old.sourcePath) byName := by
  rw [usable, List.foldl_filterMap]
  congr 1
  funext byName path
  rw [visit]
  cases env.appEntry path with
  | none => rfl
  | some app =>
    dsimp only
    rw [keep]
    cases byName.lookup app.name <;> rfl

/-- **What the map has for a name.** -/
theorem lookup_foldl_visit (paths : List Path) (name : String) :
    (paths.foldl env.visit ∅).lookup name = env.mostSpecific (env.called name paths) := by
  rw [foldl_visit, lookup_foldl_keep, AList.lookup_empty]
  exact survivor_eq (fun _ _ => rfl) _

theorem keyed_foldl_visit : Keyed AppEntry.name (paths.foldl env.visit ∅) := by
  rw [foldl_visit]
  exact keyed_foldl_keep _

theorem perm_scan :
    (env.scan order paths).Perm (values (paths.foldl env.visit ∅)) :=
  (List.perm_insertionSort _ _).trans (order.perm _)

/-- **What is listed**: the most specific of the usable entries with its name. -/
theorem mem_scan :
    app ∈ env.scan order paths ↔ env.mostSpecific (env.called app.name paths) = some app := by
  rw [perm_scan.mem_iff, mem_values keyed_foldl_visit, lookup_foldl_visit]

theorem nodup_scan : ((env.scan order paths).map AppEntry.name).Nodup :=
  (perm_scan.map AppEntry.name).nodup_iff.mpr (nodup_values keyed_foldl_visit)

theorem mem_usable_of_mem_scan (h : app ∈ env.scan order paths) : app ∈ env.usable paths :=
  (mem_called.mp (mem_of_firstIn (mem_scan.mp h))).1

/-- A usable entry has its name listed. -/
theorem exists_mem_scan (order : IterOrder) (h : app ∈ env.usable paths) :
    ∃ listed ∈ env.scan order paths, listed.name = app.name := by
  obtain ⟨listed, hlisted⟩ := exists_firstIn (p := fun app => inHome env.home app.sourcePath)
    (mem_called.mpr ⟨h, rfl⟩)
  have hname : listed.name = app.name := (mem_called.mp (mem_of_firstIn hlisted)).2
  refine ⟨listed, mem_scan.mpr ?_, hname⟩
  rw [hname]
  exact hlisted

instance : Std.Total env.Before := ⟨fun _ _ => le_total _ _⟩

instance : IsTrans AppEntry env.Before := ⟨fun _ _ _ => le_trans⟩

theorem names_scan (name : String) :
    name ∈ (env.scan order paths).map AppEntry.name ↔
      name ∈ (env.usable paths).map AppEntry.name := by
  simp only [List.mem_map]
  constructor
  · rintro ⟨app, happ, rfl⟩
    exact ⟨app, mem_usable_of_mem_scan happ, rfl⟩
  · rintro ⟨app, happ, rfl⟩
    exact exists_mem_scan order happ

end Env

/-- **What a scan finds.** Every name that is used once, in the order of the lower-cased names, and
under it the most specific usable entry. -/
theorem scan_spec (env : Env) (order : IterOrder) (paths : List Path) :
    ((env.scan order paths).map AppEntry.name).Nodup ∧
      (∀ name, name ∈ (env.scan order paths).map AppEntry.name ↔
        name ∈ (env.usable paths).map AppEntry.name) ∧
      (env.scan order paths).Pairwise
        (fun a b => env.toLowercase a.name ≤ env.toLowercase b.name) ∧
      ∀ app ∈ env.scan order paths,
        env.mostSpecific ((env.usable paths).filter fun a => a.name = app.name) = some app := by
  exact ⟨Env.nodup_scan, Env.names_scan, List.pairwise_insertionSort env.Before _,
    fun app happ => Env.mem_scan.mp happ⟩

/-! ## Overrides -/

namespace Env

variable (env : Env)

/-- The entries with a name that can be read, visible or not, in order. -/
def named (name : String) (paths : List Path) : List Path :=
  paths.filter fun path => (env.decode path).bind DesktopEntry.name = some name

/-- An entry that is to be shown. -/
structure Shown (de : DesktopEntry) : Prop where
  noDisplay : de.noDisplay = false
  hidden : de.hidden = false
  visible : visibleIn de env.currentDesktops = true

/-- The most specific of all entries with a name. -/
def Decides (paths : List Path) (name : String) (path : Path) (de : DesktopEntry) : Prop :=
  firstIn (inHome env.home) (env.named name paths) = some path ∧ env.decode path = some de

/-- A name is listed if and only if the entry that decides about it is to be shown, and no entry
with `Hidden` is. -/
structure Overrides (paths : List Path) (apps : List AppEntry) : Prop where
  name_iff : ∀ name, name ∈ apps.map AppEntry.name ↔
    ∃ path de, env.Decides paths name path de ∧ env.Shown de
  hidden : ∀ app ∈ apps, ∀ de, env.decode app.sourcePath = some de → de.hidden = false

/-- If the entry that decides about a name is to be shown, it is usable, or the most specific usable
one is not `Hidden`; otherwise none with the name is usable. -/
def Agrees (paths : List Path) (name : String) : Prop :=
  ∀ path de, env.Decides paths name path de →
    (env.Shown de → (env.appEntry path).isSome = true ∨
      ∃ app de', env.mostSpecific (env.called name paths) = some app ∧
        env.decode app.sourcePath = some de' ∧ de'.hidden = false) ∧
    (¬ env.Shown de → env.called name paths = [])

variable {env} {paths : List Path} {name : String} {order : IterOrder} {app : AppEntry}
  {path : Path} {de : DesktopEntry}

/-- The usable entries with a name, made from all entries with the name. -/
theorem called_eq (name : String) (paths : List Path) :
    env.called name paths = (env.named name paths).filterMap env.appEntry := by
  rw [called, usable, named, List.filter_filterMap, List.filterMap_filter]
  refine List.filterMap_congr fun path _ => ?_
  cases happ : env.appEntry path with
  | none => simp
  | some app =>
    obtain ⟨rfl, de, hde⟩ := describes_of_appEntry happ
    simp [hde.decode, hde.name, Option.filter]

/-- About a name that is used, some entry decides. -/
theorem exists_decides (h : app ∈ env.usable paths) :
    ∃ path de, env.Decides paths app.name path de := by
  obtain ⟨path, hpath, happ⟩ := List.mem_filterMap.mp h
  obtain ⟨rfl, de, hde⟩ := describes_of_appEntry happ
  have hnamed : app.sourcePath ∈ env.named app.name paths :=
    List.mem_filter.mpr ⟨hpath, by simp [hde.decode, hde.name]⟩
  obtain ⟨path', hfirst⟩ := exists_firstIn (p := inHome env.home) hnamed
  have hname := (List.mem_filter.mp (mem_of_firstIn hfirst)).2
  obtain ⟨de', hdecode, -⟩ := Option.bind_eq_some_iff.mp (of_decide_eq_true hname)
  exact ⟨path', de', hfirst, hdecode⟩

/-- An entry that decides and is usable is the most specific usable one. -/
theorem Decides.mostSpecific (h : env.Decides paths name path de)
    (happ : env.appEntry path = some app) :
    env.mostSpecific (env.called name paths) = some app := by
  rw [called_eq]
  refine firstIn_filterMap (fun path app happ => ?_) h.1 happ
  rw [(describes_of_appEntry happ).1]

theorem mem_names_scan :
    name ∈ (env.scan order paths).map AppEntry.name ↔ env.called name paths ≠ [] := by
  rw [names_scan]
  constructor
  · intro h hnil
    obtain ⟨app, happ, hname⟩ := List.mem_map.mp h
    have hmem := mem_called.mpr ⟨happ, hname⟩
    rw [hnil] at hmem
    exact List.not_mem_nil hmem
  · intro h
    obtain ⟨app, happ⟩ := List.exists_mem_of_ne_nil _ h
    obtain ⟨husable, hname⟩ := mem_called.mp happ
    exact List.mem_map.mpr ⟨app, husable, hname⟩

theorem agrees_of_overrides (h : env.Overrides paths (env.scan order paths)) (name : String) :
    env.Agrees paths name := by
  intro path de hdecides
  constructor
  · intro hshown
    right
    obtain ⟨app, happ, rfl⟩ := List.mem_map.mp ((h.name_iff name).mpr ⟨path, de, hdecides, hshown⟩)
    obtain ⟨path', hpath', hentry⟩ := List.mem_filterMap.mp (mem_usable_of_mem_scan happ)
    obtain ⟨-, de', hde'⟩ := describes_of_appEntry hentry
    exact ⟨app, de', mem_scan.mp happ, hde'.decode, h.hidden app happ de' hde'.decode⟩
  · intro hshown
    by_contra hcalled
    obtain ⟨path', de', hdecides', hshown'⟩ := (h.name_iff name).mp (mem_names_scan.mpr hcalled)
    obtain rfl := Option.some.inj (hdecides.1.symm.trans hdecides'.1)
    obtain rfl := Option.some.inj (hdecides.2.symm.trans hdecides'.2)
    exact hshown hshown'

/-- If the entry that decides is to be shown, one that is not `Hidden` is listed. -/
theorem Agrees.exists_mostSpecific (h : env.Agrees paths name)
    (hdecides : env.Decides paths name path de) (hshown : env.Shown de) :
    ∃ app de', env.mostSpecific (env.called name paths) = some app ∧
      env.decode app.sourcePath = some de' ∧ de'.hidden = false := by
  rcases (h path de hdecides).1 hshown with husable | hlisted
  · obtain ⟨app, happ⟩ := Option.isSome_iff_exists.mp husable
    refine ⟨app, de, hdecides.mostSpecific happ, ?_, hshown.hidden⟩
    rw [(describes_of_appEntry happ).1]
    exact hdecides.2
  · exact hlisted

/-- If an entry is listed, the one that decides is to be shown. -/
theorem Agrees.exists_decides (h : env.Agrees paths app.name) (happ : app ∈ env.usable paths) :
    ∃ path de, env.Decides paths app.name path de ∧ env.Shown de := by
  obtain ⟨path, de, hdecides⟩ := Env.exists_decides happ
  refine ⟨path, de, hdecides, ?_⟩
  by_contra hshown
  have hmem := mem_called.mpr ⟨happ, rfl⟩
  rw [(h path de hdecides).2 hshown] at hmem
  exact List.not_mem_nil hmem

theorem overrides_of_agrees (h : ∀ name, env.Agrees paths name) :
    env.Overrides paths (env.scan order paths) := by
  constructor
  · intro name
    constructor
    · intro hname
      obtain ⟨app, happ, rfl⟩ := List.mem_map.mp hname
      exact (h app.name).exists_decides (mem_usable_of_mem_scan happ)
    · rintro ⟨path, de, hdecides, hshown⟩
      obtain ⟨app, -, happ, -⟩ := (h name).exists_mostSpecific hdecides hshown
      exact mem_names_scan.mpr (List.ne_nil_of_mem (mem_of_firstIn happ))
  · intro app happ de hde
    obtain ⟨path, decider, hdecides, hshown⟩ :=
      (h app.name).exists_decides (mem_usable_of_mem_scan happ)
    obtain ⟨app', de', happ', hde', hhidden⟩ :=
      (h app.name).exists_mostSpecific hdecides hshown
    obtain rfl := Option.some.inj ((mem_scan.mp happ).symm.trans happ')
    obtain rfl := Option.some.inj (hde.symm.trans hde')
    exact hhidden

end Env

/-- **When a user's entry decides.** -/
theorem overrides_iff (env : Env) (order : IterOrder) (paths : List Path) :
    env.Overrides paths (env.scan order paths) ↔ ∀ name, env.Agrees paths name :=
  ⟨Env.agrees_of_overrides, Env.overrides_of_agrees⟩

/-- One order of a `HashMap`. -/
def inOrder : IterOrder where
  intoValues := values
  perm _ := .refl _

/-- And the reverse of it. -/
def inReverse : IterOrder where
  intoValues m := (values m).reverse
  perm _ := List.reverse_perm _

/-- The user's entry hides that of the system, and one entry is marked as deleted. -/
def overriding : Env where
  xdgCurrentDesktop := none
  home := some ["/", "home", "a"]
  decode path :=
    [(["/", "home", "a", "files.desktop"], { name := some "Files", noDisplay := true }),
      (["/", "usr", "files.desktop"], { name := some "Files", exec := some "files" }),
      (["/", "usr", "old.desktop"], { name := some "Old", exec := some "old", hidden := true })
      ].lookup path
  split exec := some [exec]
  toLowercase s := String.ofList (s.toList.map Char.toLower)

/-- The files of `overriding`, in the order of the directories. -/
def overridingPaths : List Path :=
  [["/", "home", "a", "files.desktop"], ["/", "usr", "files.desktop"], ["/", "usr", "old.desktop"]]

/-- Both names are listed. -/
theorem not_overrides :
    (overriding.scan inOrder overridingPaths).map AppEntry.name = ["Files", "Old"] ∧
      ¬ overriding.Overrides overridingPaths (overriding.scan inOrder overridingPaths) := by
  have hnames : (overriding.scan inOrder overridingPaths).map AppEntry.name = ["Files", "Old"] := by
    decide
  refine ⟨hnames, fun h => ?_⟩
  have hfiles : "Files" ∈ (overriding.scan inOrder overridingPaths).map AppEntry.name := by
    rw [hnames]
    exact List.mem_cons_self
  obtain ⟨path, de, ⟨hfirst, hdecode⟩, hshown⟩ := (h.name_iff "Files").mp hfiles
  have hpath : firstIn (inHome overriding.home) (overriding.named "Files" overridingPaths) =
      some ["/", "home", "a", "files.desktop"] := by decide
  obtain rfl := Option.some.inj (hpath.symm.trans hfirst)
  obtain rfl := Option.some.inj (hdecode.symm.trans rfl)
  exact Bool.noConfusion hshown.noDisplay

/-! ## The order of a `HashMap` -/

section Pairs

variable {α : Type} {a b : α} {l : List α}

/-- Two elements of a list stand in one order or the other. -/
theorem pair_sublist_or (ha : a ∈ l) (hb : b ∈ l) (hab : a ≠ b) :
    [a, b].Sublist l ∨ [b, a].Sublist l := by
  obtain ⟨s, t, rfl⟩ := List.append_of_mem ha
  rcases List.mem_append.mp hb with hs | ht
  · right
    have hone : [a].Sublist (a :: t) := (List.nil_sublist t).cons_cons a
    exact (List.singleton_sublist.mpr hs).append hone
  · left
    have hb' : b ∈ t := (List.mem_cons.mp ht).resolve_left (Ne.symm hab)
    exact ((List.singleton_sublist.mpr hb').cons_cons a).trans (List.sublist_append_right s _)

/-- And not in both. -/
theorem not_sublist_swap (hl : l.Nodup) (h : [a, b].Sublist l) : ¬ [b, a].Sublist l := by
  induction l with
  | nil => exact fun h' => absurd h'.length_le (by simp)
  | cons c l ih =>
    obtain ⟨hc, hl'⟩ := List.nodup_cons.mp hl
    intro h'
    cases h with
    | cons _ h =>
      cases h' with
      | cons _ h' => exact ih hl' h h'
      | cons_cons _ h' => exact hc (h.subset (List.mem_cons_of_mem _ List.mem_cons_self))
    | cons_cons _ h =>
      cases h' with
      | cons _ h' => exact hc (h'.subset (List.mem_cons_of_mem _ List.mem_cons_self))
      | cons_cons _ h' => exact hc (h'.subset List.mem_cons_self)

end Pairs

namespace Env

variable (env : Env) (paths : List Path)

/-- Names that are used and differ also differ in lower case. -/
def Separates : Prop :=
  ∀ a ∈ env.usable paths, ∀ b ∈ env.usable paths,
    env.toLowercase a.name = env.toLowercase b.name → a.name = b.name

variable {env paths}

theorem scan_eq_of_separates (h : env.Separates paths) (o₁ o₂ : IterOrder) :
    env.scan o₁ paths = env.scan o₂ paths := by
  have hperm : (env.scan o₁ paths).Perm (env.scan o₂ paths) := perm_scan.trans perm_scan.symm
  have hsorted : ∀ order : IterOrder, (env.scan order paths).Pairwise env.Before :=
    fun order => List.pairwise_insertionSort env.Before _
  refine hperm.eq_of_pairwise (fun a b ha hb hab hba => ?_) (hsorted o₁) (hsorted o₂)
  have hname : a.name = b.name :=
    h a (mem_usable_of_mem_scan ha) b (mem_usable_of_mem_scan hb) (le_antisymm hab hba)
  have hb' := mem_scan.mp hb
  rw [← hname, mem_scan.mp ha] at hb'
  exact Option.some.inj hb'

/-- The order of two applications that compare alike is that of the map. -/
theorem sublist_scan {a b : AppEntry} (hab : env.toLowercase a.name = env.toLowercase b.name)
    {order : IterOrder} (h : [a, b].Sublist (order.intoValues (paths.foldl env.visit ∅))) :
    [a, b].Sublist (env.scan order paths) :=
  List.pair_sublist_insertionSort (le_of_eq hab) h

theorem separates_of_scan_eq (h : ∀ o₁ o₂, env.scan o₁ paths = env.scan o₂ paths) :
    env.Separates paths := by
  intro a ha b hb hlower
  by_contra hne
  obtain ⟨a', ha', haname⟩ := exists_mem_scan inOrder ha
  obtain ⟨b', hb', hbname⟩ := exists_mem_scan inOrder hb
  have hlower' : env.toLowercase a'.name = env.toLowercase b'.name := by
    rw [haname, hbname, hlower]
  have hne' : a' ≠ b' := by
    rintro rfl
    exact hne (haname.symm.trans hbname)
  -- the two stand in the map in one order, and in the other in the reverse of it
  have hboth : ∀ a b : AppEntry, env.toLowercase a.name = env.toLowercase b.name →
      ¬ [a, b].Sublist (values (paths.foldl env.visit ∅)) := by
    intro a b hab hsub
    have hin : [a, b].Sublist (env.scan inOrder paths) := sublist_scan hab hsub
    have hrev : [b, a].Sublist (env.scan inReverse paths) := sublist_scan hab.symm hsub.reverse
    rw [h inReverse inOrder] at hrev
    exact not_sublist_swap (.of_map _ nodup_scan) hin hrev
  rcases pair_sublist_or (perm_scan.mem_iff.mp ha') (perm_scan.mem_iff.mp hb') hne' with hsub | hsub
  · exact hboth a' b' hlower' hsub
  · exact hboth b' a' hlower'.symm hsub

end Env

/-- **When the list is a function of the files.** Then so is what a search finds, in its order. -/
theorem scan_eq_iff (env : Env) (paths : List Path) :
    (∀ o₁ o₂ : IterOrder, env.scan o₁ paths = env.scan o₂ paths ∧
      ∀ fuzzyMatch query limit,
        Searcher.query ⟨fuzzyMatch, env.scan o₁ paths⟩ query limit =
          Searcher.query ⟨fuzzyMatch, env.scan o₂ paths⟩ query limit) ↔
      env.Separates paths := by
  constructor
  · exact fun h => Env.separates_of_scan_eq fun o₁ o₂ => (h o₁ o₂).1
  · intro h o₁ o₂
    rw [Env.scan_eq_of_separates h o₁ o₂]
    exact ⟨rfl, fun _ _ _ => rfl⟩

/-- Two applications whose names differ in the case of one letter. -/
def cased : Env where
  xdgCurrentDesktop := none
  home := none
  decode path :=
    [(["/", "1.desktop"], { name := some "Maps", exec := some "one" }),
      (["/", "2.desktop"], { name := some "maps", exec := some "two" })].lookup path
  split exec := some [exec]
  toLowercase s := String.ofList (s.toList.map Char.toLower)

/-- They are listed in either order. -/
theorem scan_ne :
    cased.scan inOrder [["/", "1.desktop"], ["/", "2.desktop"]] ≠
        cased.scan inReverse [["/", "1.desktop"], ["/", "2.desktop"]] ∧
      (cased.scan inOrder [["/", "1.desktop"], ["/", "2.desktop"]]).map AppEntry.name =
        ["maps", "Maps"] ∧
      (cased.scan inReverse [["/", "1.desktop"], ["/", "2.desktop"]]).map AppEntry.name =
        ["Maps", "maps"] := by
  decide

end Launcher

end Nullxes
