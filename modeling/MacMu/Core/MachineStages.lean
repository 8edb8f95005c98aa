import MacMu.Core.MachineWays

/-!
The run of `macmu_create_default_machine`. Once the directories are there it makes one
piece of the machine after another. `Piece.Done` says when a
piece needs no more work, and `Stage` what holds after some of the pieces.
-/

namespace MacMu
namespace DefaultMachine

open FileTree SystemImage Volume

variable {α : Type} {contents : Contents α} {options : Options} {b v v' : Volume α}
  {home system : Location}

section Stages

variable {places : List Location} {place : Location}

theorem around_of_frame (h : FrameAt options home system places b v)
    (hsub : places ⊆ options.madeAt home) : Around options home b.tree v.tree :=
  fun other hother => h.tree other fun hmem => hother (hsub hmem)

/-- A link to a file of the image leads there whatever else the call makes. -/
theorem regular_of_frame (hbase : Base options b.tree home system) {file : String}
    (hfile : file ∈ kMetadataDisk :: kRequiredFiles) (haround : Around options home b.tree v.tree)
    (hnode : v.tree[options.machineAt home ++ [file]]? =
      some (.link true (options.system ++ [file])))
    (hregular : v.isRegular options.machine file = true)
    (h : FrameAt options home system places v v')
    (hsub : places ⊆ options.madeAt home) (hplace : options.machineAt home ++ [file] ∉ places) :
    v'.isRegular options.machine file = true := by
  have hproper := proper_image hfile
  obtain ⟨content, hcontent⟩ := Option.isSome_iff_exists.mp hregular
  obtain ⟨found, hfound, hcontent⟩ := Option.bind_eq_some_iff.mp hcontent
  obtain ⟨number, w, hnumber, -⟩ := fileAt_eq_some.mp hcontent
  obtain ⟨writable, hmachine⟩ := hbase.machine_entry
  obtain ⟨parent, hparent, hdirectory, hlast⟩ := entry_eq_some.mp (hmachine v.tree haround file)
  rw [hlast] at hnode hplace
  have hresolve := resolve_of_locate hproper hfound
  obtain ⟨honward, htrail⟩ := resolve_snoc_link hproper hparent hdirectory hnode hresolve
  have hway : ∀ path ∈ options.ways, ∀ other ∈ route v.tree path, other ∉ places := by
    intro path hpath other hother hmem
    have hwalk := walkFrom_of_ways (hbase.way_kept haround hpath)
    rw [route, passed, resolve, hwalk] at hother
    exact hbase.plain.ways path hpath other hother (hsub hmem)
  have hdir := hway options.machine (Base.mem_ways_of_directory (by simp [Options.directories]))
  have htarget := hway _ (Base.mem_ways_image hfile)
  have hpath : ∀ other ∈ route v.tree (options.machine ++ [file]), other ∉ places := by
    intro other hother
    obtain hother | hother := List.mem_append.mp hother
    · rw [htrail] at hother
      obtain hother | hother := List.mem_append.mp hother
      · exact hdir other (List.mem_append_left _ hother)
      · obtain rfl | hother := List.mem_cons.mp hother
        · exact hplace
        · exact htarget other (List.mem_append_left _ hother)
    · rw [hresolve] at hother
      rw [List.mem_singleton.mp hother]
      exact htarget found (mem_route honward)
  have hfound' := locate_of_ways hproper (fun other hother => h.tree other (hdir other hother))
    (fun other hother => h.tree other (hpath other hother)) hfound
  have hnumber' : v'.tree[found]? = some (.file number w) :=
    (h.tree found (htarget found (mem_route honward))).trans hnumber
  rw [isRegular, contentAt_of_locate hfound', fileAt_eq_some.mpr ⟨number, w, hnumber', rfl⟩]
  rfl

theorem image_content (hbase : Base options b.tree home system)
    (h : FrameAt options home system places b v)
    (hsub : places ⊆ options.madeAt home) {file : String}
    (hfile : file ∈ kMetadataDisk :: kRequiredFiles) {content : α}
    (hcontent : b.contentAt options.system file = some content) :
    v.contentAt options.system file = some content := by
  obtain ⟨found, hfound, hcontent⟩ := Option.bind_eq_some_iff.mp hcontent
  have hinside := hbase.image_inside hfile hfound
  have hplace : found ∉ places := fun hmem =>
    not_under_both hbase.separate.apart (under_home (hsub hmem)) hinside
  rw [contentAt_of_locate (hbase.image_locate (around_of_frame h hsub) hfile hfound),
    h.files hbase.distinct found (.inr hinside) hplace, hcontent]

end Stages

theorem systemImageExistsAt_mono {isDisk : α → Bool} {file file' : String → Option α}
    (h : ∀ name ∈ kMetadataDisk :: kRequiredFiles, ∀ content, file name = some content →
      file' name = some content) (hexists : systemImageExistsAt isDisk file = true) :
    systemImageExistsAt isDisk file' = true := by
  obtain ⟨hall, hdisk⟩ := Bool.and_eq_true_iff.mp hexists
  refine Bool.and_eq_true_iff.mpr ⟨?_, ?_⟩
  · rw [List.all_eq_true] at hall ⊢
    intro name hname
    obtain ⟨content, hcontent⟩ := Option.isSome_iff_exists.mp (hall name hname)
    rw [h name (List.mem_cons_of_mem _ hname) content hcontent]
    rfl
  · obtain ⟨content, hcontent, hisDisk⟩ := (Option.any_eq_true ..).mp hdisk
    exact (Option.any_eq_true ..).mpr ⟨content, h _ List.mem_cons_self content hcontent, hisDisk⟩

section Pieces

variable (contents options home)

def TextDone (place : Location) (text : String) (v : Volume α) : Prop :=
  ∃ number, v.tree[place]? = some (.file number true) ∧ v.content number = contents.text text

/-- The link to a file of the image is there and leads to a file. -/
def LinkDone (file : String) (v : Volume α) : Prop :=
  entry v.tree options.machine file = some (options.machineAt home ++ [file], true) ∧
    v.tree[options.machineAt home ++ [file]]? = some (.link true (options.system ++ [file])) ∧
    v.isRegular options.machine file = true

inductive Piece where
  | ini
  | config
  | systemLink
  | vendorLink
  | disk
  | cache
  deriving DecidableEq, Repr

namespace Piece

def all : List Piece := [ini, config, systemLink, vendorLink, disk, cache]

def call : Piece → Call α
  | ini => writeTextFile contents options.home options.iniName options.rootIni
  | config => writeTextFile contents options.machine "config.ini" options.configIniFor
  | systemLink =>
    replaceWithSymlink (options.system ++ ["system-qemu.img"]) options.machine "system-qemu.img"
  | vendorLink =>
    replaceWithSymlink (options.system ++ ["vendor-qemu.img"]) options.machine "vendor-qemu.img"
  | disk => ensureMetadataDisk contents options.system options.machine kMetadataDisk
  | cache => ensureSizedFile contents options.machine "cache.img" kCacheSize

def place : Piece → Location
  | ini => home ++ [options.iniName]
  | config => options.machineAt home ++ ["config.ini"]
  | systemLink => options.machineAt home ++ ["system-qemu.img"]
  | vendorLink => options.machineAt home ++ ["vendor-qemu.img"]
  | disk => options.machineAt home ++ [kMetadataDisk]
  | cache => options.machineAt home ++ ["cache.img"]

def changes : Piece → List Location
  | disk => [disk.place options home, options.machineAt home ++ [kMetadataDisk ++ ".qcow2"]]
  | piece => [piece.place options home]

def Done (v : Volume α) : Piece → Prop
  | ini => TextDone contents (ini.place options home) options.rootIni v
  | config => TextDone contents (config.place options home) options.configIniFor v
  | systemLink => LinkDone options home "system-qemu.img" v
  | vendorLink => LinkDone options home "vendor-qemu.img" v
  | disk => (v.fileAt (disk.place options home)).any contents.isDisk = true
  | cache =>
    (v.fileAt (cache.place options home)).any (fun c => contents.size c == kCacheSize) = true

end Piece

end Pieces

namespace Piece

variable {piece other : Piece} {done pieces : List Piece}

theorem changes_subset (piece : Piece) : piece.changes options home ⊆ options.madeAt home := by
  cases piece <;>
    simp [changes, place, Options.madeAt, Options.ownAt, Options.linksAt, kLinkedImages]

theorem flatMap_changes_subset (done : List Piece) :
    done.flatMap (changes options home) ⊆ options.madeAt home := by
  intro other hother
  obtain ⟨piece, -, hother⟩ := List.mem_flatMap.mp hother
  exact piece.changes_subset hother

theorem place_not_mem_changes (h : piece ≠ other) :
    piece.place options home ∉ other.changes options home := by
  cases piece <;> cases other <;>
    first
      | exact (h rfl).elim
      | simp [changes, place, Options.machineAt, kMetadataDisk]

theorem place_not_mem_flatMap (h : piece ∉ done) :
    piece.place options home ∉ done.flatMap (changes options home) := by
  intro hmem
  obtain ⟨other, hother, hmem⟩ := List.mem_flatMap.mp hmem
  exact place_not_mem_changes (fun heq : piece = other => h (heq ▸ hother)) hmem

theorem place_mem_own (h : piece ≠ systemLink ∧ piece ≠ vendorLink) :
    piece.place options home ∈ options.ownAt home := by
  cases piece <;> simp_all [place, Options.ownAt]

end Piece

section Frames

variable {places : List Location} {place : Location}

theorem TextDone.of_frame {text : String} (h : TextDone contents place text v)
    (hframe : FrameAt options home system places v v')
    (hdistinct : Distinct (options.ownAt home) (watchedAt options home system) v)
    (hplace : place ∉ places) (hown : place ∈ options.ownAt home) :
    TextDone contents place text v' := by
  obtain ⟨number, hfile, hcontent⟩ := h
  have hfile' := (hframe.tree place hplace).trans hfile
  have hsame := hframe.files hdistinct place (.inl hown) hplace
  rw [fileAt_eq_some.mpr ⟨number, true, hfile, hcontent⟩] at hsame
  obtain ⟨number', w, hnode, hcontent'⟩ := fileAt_eq_some.mp hsame
  cases hfile'.symm.trans hnode
  exact ⟨number, hfile', hcontent'⟩

theorem LinkDone.of_frame {file : String} (h : LinkDone options home file v)
    (hbase : Base options b.tree home system) (hfile : file ∈ kMetadataDisk :: kRequiredFiles)
    (haround : Around options home b.tree v.tree)
    (hframe : FrameAt options home system places v v') (hsub : places ⊆ options.madeAt home)
    (hplace : options.machineAt home ++ [file] ∉ places) : LinkDone options home file v' := by
  obtain ⟨hentry, hnode, hregular⟩ := h
  have haround' := haround.trans (around_of_frame hframe hsub)
  obtain ⟨writable, hmachine⟩ := hbase.machine_entry
  cases hentry.symm.trans (hmachine v.tree haround file)
  exact ⟨hmachine v'.tree haround' file, (hframe.tree _ hplace).trans hnode,
    regular_of_frame hbase hfile haround hnode hregular hframe hsub hplace⟩

theorem linkDone_of_call {file : String} (hbase : Base options b.tree home system)
    (haround : Around options home b.tree v.tree)
    (hmade : options.machineAt home ++ [file] ∈ options.madeAt home)
    (h : replaceWithSymlink (options.system ++ [file]) options.machine file v = (true, v')) :
    FrameAt options home system [options.machineAt home ++ [file]] v v' ∧
      LinkDone options home file v' := by
  obtain ⟨writable, hmachine⟩ := hbase.machine_entry
  obtain ⟨hwritable, (hframe : FrameAt options home system _ v v'), hnode, hregular⟩ :=
    replaceWithSymlink_eq_true h (hmachine v.tree haround file) (hbase.not_mem_machine_route haround hmade)
  subst hwritable
  have haround' : Around options home b.tree v'.tree := haround.trans
    (around_of_frame hframe (List.cons_subset.mpr ⟨hmade, List.nil_subset _⟩))
  exact ⟨hframe, hmachine v'.tree haround' file, hnode, hregular⟩

end Frames

namespace Piece

variable {piece other : Piece} {done pieces : List Piece}

theorem Done.of_frame (hbase : Base options b.tree home system)
    (hframe : FrameAt options home system (done.flatMap (changes options home)) b v)
    (h : piece.Done contents options home v) (hne : piece ≠ other)
    (hother : FrameAt options home system (other.changes options home) v v') :
    piece.Done contents options home v' := by
  have hplace : piece.place options home ∉ other.changes options home :=
    place_not_mem_changes hne
  have hdistinct := hframe.distinct hbase.distinct
  have haround := around_of_frame hframe (flatMap_changes_subset done)
  have hfile : ∀ {p : Piece}, p ≠ systemLink ∧ p ≠ vendorLink →
      p.place options home ∉ other.changes options home →
      v'.fileAt (p.place options home) = v.fileAt (p.place options home) :=
    fun hp hplace => hother.files hdistinct _ (.inl (place_mem_own hp)) hplace
  cases piece with
  | ini | config => exact TextDone.of_frame h hother hdistinct hplace (place_mem_own (by decide))
  | systemLink | vendorLink =>
    exact LinkDone.of_frame h hbase (by decide) haround hother other.changes_subset hplace
  | disk | cache =>
    rw [Done, hfile (by decide) hplace]
    exact h

theorem call_eq_true (hbase : Base options b.tree home system)
    (hframe : FrameAt options home system (done.flatMap (changes options home)) b v)
    (hnew : piece ∉ done) (h : piece.call contents options v = (true, v')) :
    FrameAt options home system (piece.changes options home) v v' ∧
      piece.Done contents options home v' := by
  have haround := around_of_frame hframe (flatMap_changes_subset done)
  obtain ⟨writable, hmachine⟩ := hbase.machine_entry
  obtain ⟨writable', hhome⟩ := hbase.home_entry options.iniName
  have hunlinked : piece ≠ systemLink ∧ piece ≠ vendorLink → ∀ absolute target,
      v.tree[piece.place options home]? ≠ some (.link absolute target) := by
    intro hpiece absolute target
    rw [hframe.tree _ (place_not_mem_flatMap hnew)]
    exact hbase.plain.unlinked _ (List.mem_cons_of_mem _ (place_mem_own hpiece)) absolute target
  cases piece with
  | ini =>
    exact writeTextFile_eq_true h (locate_of_not_link (hhome v.tree haround)
      (hunlinked (by decide))) (place_mem_own (by decide)) watched_of_own
  | config =>
    exact writeTextFile_eq_true h (locate_of_not_link (hmachine v.tree haround "config.ini")
      (hunlinked (by decide))) (place_mem_own (by decide)) watched_of_own
  | systemLink => exact linkDone_of_call hbase haround (systemLink.changes_subset (by simp [changes, place])) h
  | vendorLink => exact linkDone_of_call hbase haround (vendorLink.changes_subset (by simp [changes, place])) h
  | disk =>
    have hmade : ∀ other ∈ disk.changes options home, other ∉ route v.tree options.machine :=
      fun other hother => hbase.not_mem_machine_route haround (disk.changes_subset hother)
    obtain ⟨hnext, hexists, hnode⟩ := ensureMetadataDisk_eq_true h
      (hmachine v.tree haround kMetadataDisk) (hmachine v.tree haround _)
      (hunlinked (by decide)) (hmade _ (by simp [changes, place])) (hmade _ (by simp [changes]))
      (by simp [kMetadataDisk]) (place_mem_own (by decide) : disk.place options home ∈ _)
      watched_of_own
    have haround' := haround.trans (around_of_frame hnext disk.changes_subset)
    rw [metadataDiskExists, contentAt_of_locate
      (locate_of_not_link (hmachine v'.tree haround' kMetadataDisk) hnode)] at hexists
    exact ⟨hnext, hexists⟩
  | cache =>
    obtain ⟨hnext, hlocate, hsize⟩ := ensureSizedFile_eq_true h
      (locate_of_not_link (hmachine v.tree haround "cache.img") (hunlinked (by decide)))
      (fun next hnext hfile => by
        obtain ⟨number, w, hfile⟩ := hfile
        exact (locate_of_file (hmachine next.tree
          (haround.trans (around_of_frame hnext cache.changes_subset)) "cache.img") hfile).1)
      (place_mem_own (by decide) : cache.place options home ∈ _) watched_of_own
    rw [hasSize, contentAt_of_locate hlocate] at hsize
    exact ⟨hnext, hsize⟩

end Piece

/-- The pieces in `done` were made since the volume was `b`. -/
structure Stage (contents : Contents α) (options : Options) (home system : Location)
    (b : Volume α) (done : List Piece) (v : Volume α) : Prop where
  frame : FrameAt options home system (done.flatMap (Piece.changes options home)) b v
  pieces : ∀ piece ∈ done, piece.Done contents options home v
  disk : ∀ content, b.fileAt (Piece.disk.place options home) = some content →
    contents.isDisk content = true → v.fileAt (Piece.disk.place options home) = some content

namespace Stage

variable {done pieces : List Piece} {piece : Piece}

theorem next (hbase : Base options b.tree home system)
    (h : Stage contents options home system b done v) (hnew : piece ∉ done)
    (hcall : piece.call contents options v = (true, v')) :
    Stage contents options home system b (done ++ [piece]) v' := by
  obtain ⟨hframe, hdone⟩ := Piece.call_eq_true hbase h.frame hnew hcall
  refine ⟨?_, fun other hother => ?_, fun content hcontent hisDisk => ?_⟩
  · have hframes := h.frame.trans hframe
    simpa using hframes
  · obtain hother | hother := List.mem_append.mp hother
    · have hne : other ≠ piece := ne_of_mem_of_not_mem hother hnew
      exact (h.pieces other hother).of_frame hbase h.frame hne hframe
    · rwa [List.mem_singleton.mp hother]
  · have hkept := h.disk content hcontent hisDisk
    by_cases hpiece : Piece.disk = piece
    · subst hpiece
      obtain ⟨writable, hmachine⟩ := hbase.machine_entry
      have haround := around_of_frame h.frame (Piece.flatMap_changes_subset done)
      obtain ⟨number, w, hnode, -⟩ := fileAt_eq_some.mp hkept
      have hlocate := (locate_of_file (hmachine v.tree haround kMetadataDisk) hnode).1
      have hexists : metadataDiskExists contents v options.machine kMetadataDisk = true := by
        rw [metadataDiskExists, contentAt_of_locate hlocate]
        exact (Option.any_eq_true ..).mpr ⟨content, hkept, hisDisk⟩
      cases hcall.symm.trans (ensureMetadataDisk_same hexists)
      exact hkept
    · rw [hframe.files (h.frame.distinct hbase.distinct) _
        (.inl (Piece.place_mem_own (by decide))) (Piece.place_not_mem_changes hpiece), hkept]

theorem run (hbase : Base options b.tree home system)
    (h : Stage contents options home system b done v) (hnodup : (done ++ pieces).Nodup)
    (hrun : runAll (pieces.map (Piece.call contents options)) v = (true, v')) :
    Stage contents options home system b (done ++ pieces) v' := by
  induction pieces generalizing done v with
  | nil =>
    cases hrun
    rwa [List.append_nil]
  | cons piece pieces ih =>
    obtain ⟨between, hcall, hrest⟩ := runAll_cons_eq_true hrun
    have hnew : piece ∉ done := fun hmem =>
      (List.nodup_append.mp hnodup).2.2 _ hmem _ List.mem_cons_self rfl
    have hnext := h.next hbase hnew hcall
    rw [List.append_cons] at hnodup ⊢
    exact ih hnext hnodup hrest

theorem around (h : Stage contents options home system b done v) :
    Around options home b.tree v.tree :=
  around_of_frame h.frame (Piece.flatMap_changes_subset done)

theorem hasText {text : String} {dir : List String} {name : String} {place : Location}
    {writable : Bool} (h : TextDone contents place text v)
    (hentry : entry v.tree dir name = some (place, writable)) :
    HasText contents v dir name text := by
  obtain ⟨number, hfile, hcontent⟩ := h
  exact ⟨place, number, (locate_of_file hentry hfile).1, hfile, hcontent⟩

theorem contentAt_machine (hbase : Base options b.tree home system)
    (h : Stage contents options home system b done v) {name : String} {content : α}
    (hfile : v.fileAt (options.machineAt home ++ [name]) = some content) :
    v.contentAt options.machine name = some content := by
  obtain ⟨writable, hmachine⟩ := hbase.machine_entry
  obtain ⟨number, w, hnode, -⟩ := fileAt_eq_some.mp hfile
  rw [contentAt_of_locate (locate_of_file (hmachine v.tree h.around name) hnode).1, hfile]

theorem installed (hbase : Base options b.tree home system)
    (h : Stage contents options home system b Piece.all v)
    (hnamed : options.appDataDir ≠ "" ∧ options.avdHome ≠ "")
    (himage : systemImageExists contents options b = true) : Installed contents options v := by
  obtain ⟨writable, hmachine⟩ := hbase.machine_entry
  obtain ⟨writable', hhome⟩ := hbase.home_entry ..
  have hlink : ∀ file, LinkDone options home file v →
      options.machineAt home ++ [file] ∈ options.madeAt home → ∃ place,
      entry v.tree options.machine file = some (place, true) ∧
        v.tree[place]? = some (.link true (options.system ++ [file])) ∧
        place ∉ route v.tree options.machine ∧ v.isRegular options.machine file = true :=
    fun file ⟨hentry, hnode, hregular⟩ hmade =>
      ⟨_, hentry, hnode, hbase.not_mem_machine_route h.around hmade, hregular⟩
  refine ⟨hnamed, fun path hpath => ?_, ?_, ?_, ?_, fun file hfile => ?_, ?_, ?_⟩
  · exact leadsToDirectory_of_ways (hbase.way_kept h.around (Base.mem_ways_of_directory hpath))
      (hbase.leads path hpath)
  · exact systemImageExistsAt_mono (fun file hfile content hcontent =>
      image_content hbase h.frame (Piece.flatMap_changes_subset _) hfile hcontent) himage
  · exact hasText (h.pieces .ini (by decide)) (hhome v.tree h.around)
  · exact hasText (h.pieces .config (by decide)) (hmachine v.tree h.around _)
  · simp only [kLinkedImages, List.mem_cons, List.not_mem_nil, or_false] at hfile
    obtain rfl | rfl := hfile
    · exact hlink _ (h.pieces .systemLink (by decide)) (Piece.systemLink.changes_subset (by
        simp [Piece.changes, Piece.place]))
    · exact hlink _ (h.pieces .vendorLink (by decide)) (Piece.vendorLink.changes_subset (by
        simp [Piece.changes, Piece.place]))
  · obtain ⟨content, hcontent, hisDisk⟩ :=
      (Option.any_eq_true ..).mp (h.pieces .disk (by decide))
    exact (Option.any_eq_true ..).mpr ⟨content, h.contentAt_machine hbase hcontent, hisDisk⟩
  · obtain ⟨content, hcontent, hsize⟩ :=
      (Option.any_eq_true ..).mp (h.pieces .cache (by decide))
    exact (Option.any_eq_true ..).mpr ⟨content, h.contentAt_machine hbase hcontent, hsize⟩

end Stage

theorem createDefaultMachine_eq_true (h : createDefaultMachine contents options v = (true, v')) :
    (options.appDataDir ≠ "" ∧ options.avdHome ≠ "") ∧
      (∀ path ∈ options.directories,
        leadsToDirectory (withDirectories options v).tree path = true) ∧
      Adds v.tree (withDirectories options v).tree ∧
      (withDirectories options v).content = v.content ∧
      systemImageExists contents options (withDirectories options v) = true ∧
      runAll (Piece.all.map (Piece.call contents options)) (withDirectories options v) =
        (true, v') := by
  obtain ⟨v₃, hruntime, hrest⟩ := runAll_append_eq_true h
  obtain ⟨v₃', hcheck, hrest⟩ := runAll_cons_eq_true hrest
  obtain ⟨himage, rfl⟩ := Prod.mk.inj hcheck
  obtain ⟨b, hmachine, hrest⟩ := runAll_cons_eq_true hrest
  have hb : withDirectories options v = b := by
    rw [withDirectories, runAll_append_of_true hruntime, runAll_of_true hmachine]
    rfl
  obtain ⟨v₁, happ, hruntime⟩ := runAll_cons_eq_true hruntime
  obtain ⟨v₂, hhome, hruntime⟩ := runAll_cons_eq_true hruntime
  obtain ⟨_, himages, hruntime⟩ := runAll_cons_eq_true hruntime
  cases hruntime
  obtain ⟨happNamed, happ⟩ := ensureNamed_eq_true happ
  obtain ⟨hhomeNamed, hhome⟩ := ensureNamed_eq_true hhome
  obtain ⟨hadds₁, hcontent₁, hleads₁⟩ := ensureDirectory_eq_true happ
  obtain ⟨hadds₂, hcontent₂, hleads₂⟩ := ensureDirectory_eq_true hhome
  obtain ⟨hadds₃, hcontent₃, hleads₃⟩ := ensureDirectory_eq_true himages
  obtain ⟨hadds₄, hcontent₄, hleads₄⟩ := ensureDirectory_eq_true hmachine
  rw [hb]
  refine ⟨⟨happNamed, hhomeNamed⟩, ?_, ?_, ?_, ?_, hrest⟩
  · simp only [Options.directories, List.forall_mem_cons]
    refine ⟨?_, ?_, ?_, hleads₄, fun _ hnone => ?_⟩
    · exact leadsToDirectory_of_grows ((hadds₂.trans hadds₃).trans hadds₄).grows hleads₁
    · exact leadsToDirectory_of_grows (hadds₃.trans hadds₄).grows hleads₂
    · exact leadsToDirectory_of_grows hadds₄.grows hleads₃
    · cases hnone
  · exact ((hadds₁.trans hadds₂).trans hadds₃).trans hadds₄
  · rw [hcontent₄, hcontent₃, hcontent₂, hcontent₁]
  · exact systemImageExistsAt_mono (fun file hfile content hcontent =>
      contentAt_of_adds hadds₄ hcontent₄ (proper_image hfile) hcontent) himage

end DefaultMachine
end MacMu
