import MacMu.Core.MachineWays
import MacMu.Packager.InstallableImage

/-!
Volumes to look at. A run is computed with terms for the contents of the files; the
functions do to the bytes what they do to the terms.
-/

namespace MacMu
namespace DefaultMachine

open FileTree SystemImage Volume

section Natural

variable {α β : Type} (f : α → β)

/-- What is asked of contents and done to them is the same on both sides of `f`. -/
structure Contents.Maps (contents : Contents α) (target : Contents β) : Prop where
  isDisk : ∀ x, target.isDisk (f x) = contents.isDisk x
  size : ∀ x, target.size (f x) = contents.size x
  resize : ∀ size x, target.resize size (f x) = f (contents.resize size x)
  text : ∀ value, target.text value = f (contents.text value)

/-- The one call does to the mapped volume what the other does to the volume. -/
def Natural (call : Call α) (target : Call β) : Prop :=
  ∀ v, target (v.map f) = Prod.map id (Volume.map f) (call v)

variable {f} {contents : Contents α} {target : Contents β} {options : Options}

theorem natural_runAll {calls : List (Call α)} {targets : List (Call β)}
    (h : List.Forall₂ (Natural f) calls targets) : Natural f (runAll calls) (runAll targets) := by
  induction h with
  | nil => exact fun _ => rfl
  | @cons call target calls targets hcall _ ih =>
    intro v
    rw [runAll, runAll, hcall v]
    rcases call v with ⟨_ | _, next⟩
    · rfl
    · exact ih next

theorem natural_check {holds : Volume α → Bool} {holds' : Volume β → Bool}
    (h : ∀ v, holds' (v.map f) = holds v) : Natural f (check holds) (check holds') := by
  intro v
  rw [check, h v]
  rfl

theorem natural_ensureDirectory (path : List String) :
    Natural f (ensureDirectory path) (ensureDirectory path) := by
  intro v
  unfold ensureDirectory
  rw [show (v.map f).tree = v.tree from rfl]
  split <;> rfl

theorem natural_ensureNamed (text : String) (path : List String) :
    Natural f (ensureNamed text path) (ensureNamed text path) := by
  intro v
  unfold ensureNamed
  split
  · rfl
  · exact natural_ensureDirectory path v

section

variable (h : contents.Maps f target)
include h

theorem metadataDiskExists_map (v : Volume α) (dir : List String) (name : String) :
    metadataDiskExists target (v.map f) dir name = metadataDiskExists contents v dir name := by
  simp only [metadataDiskExists, map_contentAt, Option.any_map, h.isDisk]

theorem hasSize_map (v : Volume α) (dir : List String) (name : String) (size : Nat) :
    hasSize target (v.map f) dir name size = hasSize contents v dir name size := by
  simp only [hasSize, map_contentAt, Option.any_map, h.size]

theorem systemImageExists_map (v : Volume α) :
    systemImageExists target options (v.map f) = systemImageExists contents options v := by
  simp only [systemImageExists, systemImageExistsAt, map_contentAt, Option.isSome_map,
    Option.any_map, h.isDisk]

theorem natural_writeTextFile (dir : List String) (name text : String) :
    Natural f (writeTextFile contents dir name text) (writeTextFile target dir name text) := by
  intro v
  unfold writeTextFile
  rw [h.text, map_write]
  cases v.write dir name (contents.text text) <;> rfl

end

theorem natural_replaceWithSymlink (source dir : List String) (name : String) :
    Natural f (replaceWithSymlink source dir name) (replaceWithSymlink source dir name) := by
  intro v
  unfold replaceWithSymlink
  rw [show (v.map f).remove dir name = (v.remove dir name).map f from rfl]
  dsimp only
  rw [map_createSymlink]
  cases (v.remove dir name).createSymlink dir name source with
  | none => rfl
  | some linked =>
    dsimp only [Option.map_some, Prod.map_apply]
    rw [isRegular, isRegular, map_contentAt, Option.isSome_map]
    rfl

theorem natural_ensureMetadataDisk (h : contents.Maps f target) (sourceDir dir : List String)
    (name : String) : Natural f (ensureMetadataDisk contents sourceDir dir name)
      (ensureMetadataDisk target sourceDir dir name) := by
  intro v
  unfold ensureMetadataDisk
  rw [metadataDiskExists_map h]
  split
  · rfl
  · rw [show ((v.map f).remove dir name).remove dir (name ++ ".qcow2") =
      ((v.remove dir name).remove dir (name ++ ".qcow2")).map f from rfl]
    generalize (v.remove dir name).remove dir (name ++ ".qcow2") = removed
    dsimp only
    rw [map_copyFile]
    cases removed.copyFile sourceDir name dir name with
    | none => rfl
    | some copied =>
      dsimp only [Option.map_some, Prod.map_apply]
      rw [metadataDiskExists_map h]
      rfl

theorem natural_ensureSizedFile (h : contents.Maps f target) (dir : List String) (name : String)
    (size : Nat) : Natural f (ensureSizedFile contents dir name size)
      (ensureSizedFile target dir name size) := by
  intro v
  have hcreate : (if (v.map f).leadsToNode dir name then some (v.map f)
      else (v.map f).write dir name (target.text "")) =
      (if v.leadsToNode dir name then some v
        else v.write dir name (contents.text "")).map (Volume.map f) := by
    rw [show (v.map f).leadsToNode dir name = v.leadsToNode dir name from rfl, h.text, map_write]
    split <;> rfl
  unfold ensureSizedFile
  rw [hasSize_map h, hcreate]
  split
  · rfl
  · cases (if v.leadsToNode dir name then some v
        else v.write dir name (contents.text "")) with
    | none => rfl
    | some created =>
      dsimp only [Option.map_some]
      rw [map_resizeFile f created dir name (h.resize size)]
      cases created.resizeFile dir name (contents.resize size) with
      | none => rfl
      | some resized =>
        dsimp only [Option.map_some, Prod.map_apply]
        rw [hasSize_map h]
        rfl

theorem withDirectories_map (options : Options) (v : Volume α) :
    withDirectories options (v.map f) = (withDirectories options v).map f := by
  have hnatural : Natural f (runAll (runtimeDirectories options ++
      [ensureDirectory options.machine])) (runAll (runtimeDirectories options ++
      [ensureDirectory options.machine])) := by
    refine natural_runAll ?_
    simp only [runtimeDirectories, List.cons_append, List.nil_append, List.forall₂_cons,
      List.forall₂_nil_left_iff, and_true]
    exact ⟨natural_ensureNamed _ _, natural_ensureNamed _ _, natural_ensureDirectory _,
      natural_ensureDirectory _⟩
  exact congrArg Prod.snd (hnatural v)

theorem natural_createDefaultMachine (h : contents.Maps f target) :
    Natural f (createDefaultMachine contents options) (createDefaultMachine target options) := by
  refine natural_runAll ?_
  simp only [runtimeDirectories, List.cons_append, List.nil_append, List.forall₂_cons,
    List.forall₂_nil_left_iff, and_true]
  exact ⟨natural_ensureNamed _ _, natural_ensureNamed _ _, natural_ensureDirectory _,
    natural_check (systemImageExists_map h), natural_ensureDirectory _,
    natural_writeTextFile h _ _ _, natural_writeTextFile h _ _ _,
    natural_replaceWithSymlink _ _ _, natural_replaceWithSymlink _ _ _,
    natural_ensureMetadataDisk h _ _ _, natural_ensureSizedFile h _ _ _⟩

end Natural

@[irreducible] def diskBytes : Bytes := (Packager.Sample.disk 0).bytes

theorem diskBytes_eq : diskBytes = (Packager.Sample.disk 0).bytes := by
  unfold diskBytes
  exact Eq.refl _

theorem metadataDisk_diskBytes : metadataDisk diskBytes = true := by
  have hdisk : metadataDisk (Packager.Sample.disk 0).bytes = true :=
    (Packager.metadataDisk_iff_bootable (Packager.Sample.disk_valid 0 (.inl rfl))).mpr
      Packager.Sample.bootable_disk
  simp only [diskBytes_eq, hdisk]

theorem length_diskBytes : diskBytes.length = 64 * 1024 * 1024 := by
  have hlength : (Packager.Sample.disk 0).bytes.length = 64 * 1024 * 1024 := by
    dsimp only [Packager.Sample.disk]
    exact Packager.Sample.length_content 0 _
  exact diskBytes_eq ▸ hlength

inductive Term where
  | disk
  | text (value : String)
  | sized (size : Nat) (content : Term)
  deriving DecidableEq, Repr

namespace Term

def bytes : Term → Bytes
  | disk => diskBytes
  | text value => Contents.bytes.text value
  | sized size content => Contents.bytes.resize size content.bytes

/-- What is not needed for the runs here is asked of the bytes. -/
def contents : Contents Term where
  isDisk
    | disk => true
    | content => metadataDisk content.bytes
  size
    | disk => 64 * 1024 * 1024
    | text value => (Contents.bytes.text value).length
    | sized size _ => size
  resize := sized
  text := text

theorem maps : contents.Maps bytes Contents.bytes where
  isDisk x := by
    cases x with
    | disk => exact metadataDisk_diskBytes
    | text value => rfl
    | sized size content => rfl
  size x := by
    cases x with
    | disk => exact length_diskBytes
    | text value => rfl
    | sized size content =>
      simp only [bytes, contents, Contents.bytes, List.length_append, List.length_take,
        List.length_replicate]
      omega
  resize _ _ := rfl
  text _ := rfl

end Term

namespace Sample

def options (appDataDir : String) : Options where
  appDataDir := appDataDir
  avdHome := "/data/avd"
  systemPath := "/sys"
  avdName := "m"
  workingDirectory := []
  component := by decide

def home : Location := ["data", "avd"]

def system : Location := ["sys"]

/-- A system image with its metadata disk, and some entries below `/data`. The files of
number 0 and 1 are disks. -/
def volume (entries : List (Location × Node Nat)) : Volume Term where
  tree := .ofList <| [([], .directory true), (["data"], .directory true), (system, .directory true),
      (system ++ [kMetadataDisk], .file 0 false)] ++
    kRequiredFiles.mapIdx (fun i file => (system ++ [file], .file (i + 2) false)) ++ entries
  content number := if number < 2 then .disk else .text ""

/-- A machine directory with a metadata disk and some other entries. -/
def machine (entries : List (Location × Node Nat)) : Volume Term :=
  volume <| [(["data", "images"], .directory true), (home, .directory true),
    (home ++ ["m.avd"], .directory true),
    (home ++ ["m.avd", kMetadataDisk], .file 1 true)] ++ entries

/-- The cache of the machine is a symbolic link to the metadata disk. -/
def linked : Volume Term :=
  machine [(home ++ ["m.avd", "cache.img"], .link false [kMetadataDisk])]

/-- The cache of the machine is the metadata disk by another name. -/
def doubled : Volume Term := machine [(home ++ ["m.avd", "cache.img"], .file 1 true)]

/-- An empty directory is where the machine is to have a link. -/
def occupied : Volume Term :=
  machine [(home ++ ["m.avd", "vendor-qemu.img"], .directory true)]

/-- Whether no link leads out of the tree at the location and its files are nowhere
else. -/
def encloses (t : Tree Nat) (place : Location) : Bool :=
  t.toList.all fun e => !place.isPrefixOf e.1 ||
    match e.2 with
    | .directory _ => true
    | .link absolute target =>
      (walkFrom t maxLinks (if absolute then [] else e.1.dropLast) target).result.all
        place.isPrefixOf
    | .file number _ => t.toList.all fun other =>
      match other.2 with
      | .file number' _ => number != number' || place.isPrefixOf other.1
      | _ => true

theorem enclosed_of_encloses {t : Tree Nat} {place : Location} (h : encloses t place = true)
    (except : Location → Prop) : Enclosed t place except := by
  rw [encloses, List.all_eq_true] at h
  have hentry : ∀ {p : Location} {node}, t[p]? = some node → (p, node) ∈ t.toList :=
    fun hnode => Std.ExtTreeMap.mem_toList_iff_getElem?_eq_some.mpr hnode
  constructor
  · intro p hp _ absolute target hnode found hfound
    have hlink := h _ (hentry hnode)
    simp only [hfound, List.isPrefixOf_iff_prefix.mpr hp, Option.all_some, Bool.not_true,
      Bool.false_or] at hlink
    exact List.isPrefixOf_iff_prefix.mp hlink
  · intro p q hp number w w' hnode hother
    have hfile := h _ (hentry hnode)
    simp only [List.isPrefixOf_iff_prefix.mpr hp, Bool.not_true, Bool.false_or,
      List.all_eq_true] at hfile
    have hsame := hfile _ (hentry hother)
    simp only [bne_self_eq_false, Bool.false_or] at hsame
    exact List.isPrefixOf_iff_prefix.mp hsame

/-- What is asked of the two trees, as far as it can be computed. -/
def separate (options : Options) (t : Tree Nat) : Bool :=
  resolve t options.home == some home && resolve t options.system == some system &&
    encloses t home && encloses t system

theorem separate_of_true {options : Options} {t : Tree Nat} (h : separate options t = true) :
    Separate options t home system := by
  simp only [separate, Bool.and_eq_true, beq_iff_eq] at h
  obtain ⟨⟨⟨hhome, hsystem⟩, hhomeEnclosed⟩, hsystemEnclosed⟩ := h
  exact ⟨hhome, hsystem, by decide, enclosed_of_encloses hhomeEnclosed _,
    enclosed_of_encloses hsystemEnclosed _⟩

def unlinked (t : Tree Nat) (place : Location) : Bool :=
  match t[place]? with
  | some (.link ..) => false
  | _ => true

/-- What is asked of the files of the machine and of the paths. -/
def plain (options : Options) (t : Tree Nat) : Bool :=
  (options.machineAt home :: options.ownAt home).all (unlinked t) &&
    ((options.ownAt home).all fun p => (options.ownAt home).all fun q =>
      p == q || contentOf t[p]? == none || contentOf t[p]? != contentOf t[q]?) &&
    options.ways.all fun path => (route t path).all fun place =>
      !(options.madeAt home).contains place

theorem plain_of_true {options : Options} {t : Tree Nat} (h : plain options t = true) :
    Plain options t home := by
  simp only [plain, Bool.and_eq_true, List.all_eq_true] at h
  obtain ⟨⟨hunlinked, hdistinct⟩, hways⟩ := h
  refine ⟨fun place hplace absolute target hnode => ?_, ?_, fun path hpath place hplace => ?_⟩
  · have hlink := hunlinked place hplace
    rw [unlinked, hnode] at hlink
    cases hlink
  · intro p hp q hq hne number w w' hpnode hqnode
    have hpair := hdistinct p hp q hq
    simp [hpnode, hqnode, contentOf, hne] at hpair
  · have hmade := hways path hpath place hplace
    simpa using hmade

theorem create_bytes (options : Options) (v : Volume Term)
    (h : (createDefaultMachine Term.contents options v).1 = true) :
    createDefaultMachine Contents.bytes options (v.map Term.bytes) =
      (true, (createDefaultMachine Term.contents options v).2.map Term.bytes) := by
  rw [natural_createDefaultMachine Term.maps v, ← h]
  rfl

theorem separate_bytes {options : Options} {v : Volume Term}
    (h : separate options (withDirectories options v).tree = true) :
    Separate options (withDirectories options (v.map Term.bytes)).tree home system := by
  rw [withDirectories_map]
  exact separate_of_true h

theorem disk_grows {options : Options} {v : Volume Term}
    (hseparate : separate options (withDirectories options v).tree = true)
    (hcreate : (createDefaultMachine Term.contents options v).1 = true)
    (hbefore : v.contentAt options.machine kMetadataDisk = some .disk)
    (hafter : (createDefaultMachine Term.contents options v).2.contentAt options.machine
      kMetadataDisk = some (.sized kCacheSize .disk)) :
    ∃ v', Separate options (withDirectories options (v.map Term.bytes)).tree home system ∧
      createDefaultMachine Contents.bytes options (v.map Term.bytes) = (true, v') ∧
      metadataDiskExists Contents.bytes (v.map Term.bytes) options.machine kMetadataDisk = true ∧
      v'.contentAt options.machine kMetadataDisk ≠
        (v.map Term.bytes).contentAt options.machine kMetadataDisk := by
  refine ⟨_, separate_bytes hseparate, create_bytes options v hcreate, ?_, ?_⟩
  · rw [metadataDiskExists_map Term.maps, metadataDiskExists, hbefore]
    rfl
  · rw [map_contentAt, map_contentAt, hbefore, hafter]
    intro hsame
    have hsize := congrArg Contents.bytes.size (Option.some.inj hsame)
    rw [Term.maps.size, Term.maps.size] at hsize
    revert hsize
    decide

end Sample

end DefaultMachine
end MacMu
