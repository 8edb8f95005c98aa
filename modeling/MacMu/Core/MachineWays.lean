import MacMu.Core.InstalledMachine

/-!
The file system around a machine, once all directories are there. The tree of the
machines and that of the image share no files, and no link leads from one to the other;
besides, the files of the machine are no links and no names of one another, and no path
of the options leads through an entry that `macmu_create_default_machine` makes. Then
all paths are found as before whatever it makes.
-/

namespace MacMu
namespace DefaultMachine

open FileTree SystemImage Volume

/-- No link leads out of the tree at the location, except for some, and none of its
files is elsewhere too. -/
structure Enclosed (t : Tree Nat) (place : Location) (except : Location → Prop) : Prop where
  links : ∀ p : Location, place <+: p → ¬except p → ∀ absolute target,
    t[p]? = some (.link absolute target) → ∀ found,
    (walkFrom t maxLinks (if absolute then [] else p.dropLast) target).result = some found →
      place <+: found
  files : ∀ p q : Location, place <+: p → ∀ number w w', t[p]? = some (.file number w) →
    t[q]? = some (.file number w') → place <+: q

/-- Where the machines of a directory have their links to the image. -/
def ImageLink (home place : Location) : Prop :=
  ∃ machine, ∃ file ∈ kLinkedImages, place = home ++ [machine, file]

namespace Options

variable (options : Options)

/-- Where the machine is if the directory of the machines is at `home`. -/
def machineAt (home : Location) : Location := home ++ [options.machineName]

def ownAt (home : Location) : List Location :=
  [home ++ [options.iniName], options.machineAt home ++ ["config.ini"],
    options.machineAt home ++ [kMetadataDisk], options.machineAt home ++ ["cache.img"]]

def linksAt (home : Location) : List Location :=
  kLinkedImages.map fun file => options.machineAt home ++ [file]

def madeAt (home : Location) : List Location :=
  options.ownAt home ++ options.linksAt home ++
    [options.machineAt home ++ [kMetadataDisk ++ ".qcow2"]]

/-- The paths that are followed to what is not made. -/
def ways : List (List String) :=
  options.directories ++ options.system ::
    (kMetadataDisk :: kRequiredFiles).map fun file => options.system ++ [file]

end Options

def withDirectories {α : Type} (options : Options) (v : Volume α) : Volume α :=
  (runAll (runtimeDirectories options ++ [ensureDirectory options.machine]) v).2

/-- The trees of the machines and of the image are apart, and only the links of the
machines to the image may lead from one to the other. -/
structure Separate (options : Options) (t : Tree Nat) (home system : Location) : Prop where
  home_eq : resolve t options.home = some home
  system_eq : resolve t options.system = some system
  apart : Apart home system
  home_enclosed : Enclosed t home (ImageLink home)
  system_enclosed : Enclosed t system fun _ => False

/-- The files of the machine are no links and no names of one another, and no path
leads through what the call makes. -/
structure Plain (options : Options) (t : Tree Nat) (home : Location) : Prop where
  unlinked : ∀ place ∈ options.machineAt home :: options.ownAt home, ∀ absolute target,
    t[place]? ≠ some (.link absolute target)
  distinct : ∀ p ∈ options.ownAt home, ∀ q ∈ options.ownAt home, p ≠ q → ∀ number w w',
    t[p]? = some (.file number w) → t[q]? ≠ some (.file number w')
  ways : ∀ path ∈ options.ways, ∀ place ∈ route t path, place ∉ options.madeAt home

variable {α : Type} {contents : Contents α} {options : Options} {v v' : Volume α}
  {t : Tree Nat} {home system : Location}

theorem machineName_ne {text : String} (h : text.length < 4) : options.machineName ≠ text := by
  rintro rfl
  have hlength : ".avd".length = 4 := by decide
  rw [Options.machineName, String.length_append, hlength] at h
  omega

theorem proper_machineName : Proper options.machineName :=
  ⟨not_or.mpr ⟨machineName_ne (by decide), machineName_ne (by decide)⟩, machineName_ne (by decide)⟩

theorem proper_image {file : String} (h : file ∈ kMetadataDisk :: kRequiredFiles) :
    Proper file := by
  revert file
  decide

theorem under_home {place : Location} (h : place ∈ options.madeAt home) : home <+: place := by
  simp only [Options.madeAt, Options.ownAt, Options.linksAt, Options.machineAt, kLinkedImages,
    List.map_cons, List.map_nil, List.mem_append, List.mem_cons, List.not_mem_nil, or_false] at h
  rcases h with ((rfl | rfl | rfl | rfl) | rfl | rfl) | rfl
  all_goals simp only [List.append_assoc, List.prefix_append]

theorem not_under_both (hapart : Apart home system) {place : Location} (h : home <+: place) :
    ¬system <+: place := by
  intro h'
  obtain hprefix | hprefix := List.prefix_or_prefix_of_prefix h h'
  · exact hapart.1 hprefix
  · exact hapart.2 hprefix

structure Base (options : Options) (t : Tree Nat) (home system : Location) : Prop where
  separate : Separate options t home system
  plain : Plain options t home
  leads : ∀ path ∈ options.directories, leadsToDirectory t path = true

def Around (options : Options) (home : Location) (t t' : Tree Nat) : Prop :=
  ∀ place : Location, place ∉ options.madeAt home → t'[place]? = t[place]?

theorem Around.trans {t' t'' : Tree Nat} (h : Around options home t t')
    (h' : Around options home t' t'') : Around options home t t'' :=
  fun place hplace => (h' place hplace).trans (h place hplace)

namespace Base

section Ways

variable {t' : Tree Nat} {path : List String} {name : String} {place : Location}

section

variable (h : Base options t home system)
include h

theorem home_directory : ∃ writable, t[home]? = some (.directory writable) := by
  obtain ⟨place, writable, hplace, hnode⟩ :=
    leadsToDirectory_iff.mp (h.leads options.home (by simp [Options.directories]))
  cases hplace.symm.trans h.separate.home_eq
  exact ⟨writable, hnode⟩

theorem machine_eq : resolve t options.machine = some (options.machineAt home) := by
  obtain ⟨writable, hnode⟩ := h.home_directory
  exact resolve_snoc proper_machineName.1 proper_machineName.2 h.separate.home_eq hnode
    (h.plain.unlinked _ List.mem_cons_self)

theorem machine_directory : ∃ writable, t[options.machineAt home]? = some (.directory writable) := by
  obtain ⟨place, writable, hplace, hnode⟩ :=
    leadsToDirectory_iff.mp (h.leads options.machine (by simp [Options.directories]))
  cases hplace.symm.trans h.machine_eq
  exact ⟨writable, hnode⟩

theorem way_kept (ht : Around options home t t') (hpath : path ∈ options.ways) :
    ∀ other ∈ route t path, t'[other]? = t[other]? :=
  fun other hother => ht other (h.plain.ways path hpath other hother)

end

theorem mem_ways_of_directory (h : path ∈ options.directories) : path ∈ options.ways :=
  List.mem_append_left _ h

theorem mem_ways_system : options.system ∈ options.ways :=
  List.mem_append_right _ List.mem_cons_self

theorem mem_ways_image {file : String} (h : file ∈ kMetadataDisk :: kRequiredFiles) :
    options.system ++ [file] ∈ options.ways :=
  List.mem_append_right _ (List.mem_cons_of_mem _ (List.mem_map_of_mem h))

section

variable (h : Base options t home system)
include h

theorem home_entry (name : String) : ∃ writable, ∀ t', Around options home t t' →
      entry t' options.home name = some (home ++ [name], writable) := by
  obtain ⟨writable, hnode⟩ := h.home_directory
  refine ⟨writable, fun t' ht => ?_⟩
  exact entry_of_ways (h.way_kept ht (mem_ways_of_directory (by simp [Options.directories])))
    (entry_eq_some.mpr ⟨home, h.separate.home_eq, hnode, rfl⟩)

theorem machine_entry : ∃ writable, ∀ t', Around options home t t' → ∀ name,
      entry t' options.machine name = some (options.machineAt home ++ [name], writable) := by
  obtain ⟨writable, hnode⟩ := h.machine_directory
  refine ⟨writable, fun t' ht name => ?_⟩
  exact entry_of_ways (h.way_kept ht (mem_ways_of_directory (by simp [Options.directories])))
    (entry_eq_some.mpr ⟨_, h.machine_eq, hnode, rfl⟩)

theorem machine_route (ht : Around options home t t') :
    route t' options.machine = route t options.machine := by
  have hway : options.machine ∈ options.ways :=
    mem_ways_of_directory (by simp [Options.directories])
  have hwalk := walkFrom_of_ways (h.way_kept ht hway)
  rw [route, route, passed, passed, resolve, resolve, hwalk]

theorem not_mem_machine_route (ht : Around options home t t')
    (hplace : place ∈ options.madeAt home) : place ∉ route t' options.machine := by
  rw [h.machine_route ht]
  intro hmem
  exact h.plain.ways options.machine (mem_ways_of_directory (by simp [Options.directories])) place
    hmem hplace

theorem image_inside {file : String} (hfile : file ∈ kMetadataDisk :: kRequiredFiles)
    (hplace : locate t options.system file = some place) : system <+: place := by
  have hresolve := resolve_of_locate (proper_image hfile) hplace
  cases hentry : entry t options.system file with
  | none => simp only [locate, hentry, reduceCtorEq] at hplace
  | some found =>
    obtain ⟨found, writable⟩ := found
    obtain ⟨parent, hparent, hdirectory, rfl⟩ := entry_eq_some.mp hentry
    cases hparent.symm.trans h.separate.system_eq
    have hbelow : system <+: system ++ [file] := List.prefix_append _ _
    by_cases hlink : ∃ absolute target, t[system ++ [file]]? = some (.link absolute target)
    · obtain ⟨absolute, target, hnode⟩ := hlink
      have honward := (resolve_snoc_link (proper_image hfile) hparent hdirectory hnode hresolve).1
      refine h.separate.system_enclosed.links _ hbelow id absolute target hnode place ?_
      rwa [List.dropLast_concat]
    · have hnode : ∀ absolute target, t[system ++ [file]]? ≠ some (.link absolute target) :=
        fun absolute target hnode => hlink ⟨absolute, target, hnode⟩
      cases hplace.symm.trans (locate_of_not_link hentry hnode)
      exact hbelow

theorem image_locate (ht : Around options home t t') {file : String}
    (hfile : file ∈ kMetadataDisk :: kRequiredFiles)
    (hplace : locate t options.system file = some place) :
    locate t' options.system file = some place :=
  locate_of_ways (proper_image hfile) (h.way_kept ht mem_ways_system)
    (h.way_kept ht (mem_ways_image hfile)) hplace

end

end Ways

end Base

/-- The files of the machine, and all in the tree of the image. -/
def watchedAt (options : Options) (home system : Location) (place : Location) : Prop :=
  place ∈ options.ownAt home ∨ system <+: place

/-- Entries change only at `places`, and other watched locations keep their content. -/
abbrev FrameAt (options : Options) (home system : Location) (places : List Location)
    (v v' : Volume α) : Prop :=
  Frame (options.ownAt home) (watchedAt options home system) places v v'

theorem watched_of_own : ∀ place ∈ options.ownAt home, watchedAt options home system place :=
  fun _ => .inl

theorem Base.distinct (h : Base options v.tree home system) :
    Distinct (options.ownAt home) (watchedAt options home system) v := by
  rintro p hp q (hq | hq) hne number w w' hpnode hqnode
  · exact h.plain.distinct p hp q hq hne number w w' hpnode hqnode
  · have hhome : home <+: p :=
      under_home (List.mem_append_left _ (List.mem_append_left _ hp))
    exact not_under_both h.separate.apart
      (h.separate.home_enclosed.files p q hhome number w w' hpnode hqnode) hq

end DefaultMachine
end MacMu
