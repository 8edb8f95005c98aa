import MacMu.Core.DefaultMachine

/-!
What the functions of `macmu_create_default_machine` do to a volume when they
succeed, and when they have nothing to do. On a volume that holds the machine every
one of them leaves all as it is.
-/

namespace MacMu
namespace DefaultMachine

open FileTree SystemImage Volume

variable {α : Type} {contents : Contents α} {options : Options} {v v' : Volume α}
variable {rest calls : List (Call α)}

theorem runAll_cons_eq_true {call : Call α} (h : runAll (call :: rest) v = (true, v')) :
    ∃ next, call v = (true, next) ∧ runAll rest next = (true, v') := by
  unfold runAll at h
  split at h
  · rename_i next hnext
    exact ⟨next, hnext, h⟩
  · cases h

theorem runAll_of_true {call : Call α} {next : Volume α} (h : call v = (true, next)) :
    runAll (call :: rest) v = runAll rest next := by
  rw [runAll, h]

theorem runAll_append_eq_true (h : runAll (calls ++ rest) v = (true, v')) :
    ∃ next, runAll calls v = (true, next) ∧ runAll rest next = (true, v') := by
  induction calls generalizing v with
  | nil => exact ⟨v, rfl, h⟩
  | cons call calls ih =>
    obtain ⟨between, hcall, hrest⟩ := runAll_cons_eq_true h
    rw [runAll_of_true hcall]
    exact ih hrest

theorem runAll_append_of_true {next : Volume α} (h : runAll calls v = (true, next)) :
    runAll (calls ++ rest) v = runAll rest next := by
  induction calls generalizing v with
  | nil =>
    cases h
    rfl
  | cons call calls ih =>
    obtain ⟨between, hcall, hrest⟩ := runAll_cons_eq_true h
    rw [List.cons_append, runAll_of_true hcall]
    exact ih hrest

theorem runAll_same (h : ∀ call ∈ calls, call v = (true, v)) : runAll calls v = (true, v) := by
  induction calls with
  | nil => rfl
  | cons call calls ih =>
    obtain ⟨hcall, hrest⟩ := List.forall_mem_cons.mp h
    rw [runAll_of_true hcall]
    exact ih hrest

section Directories

variable {path : List String}

theorem ensureDirectory_eq_true (h : ensureDirectory path v = (true, v')) :
    Adds v.tree v'.tree ∧ v'.content = v.content ∧ leadsToDirectory v'.tree path = true := by
  unfold ensureDirectory at h
  split at h
  · rename_i hleads
    cases h
    exact ⟨Adds.refl _, rfl, hleads⟩
  · obtain ⟨hleads, rfl⟩ := Prod.mk.inj h
    exact ⟨adds_makeDirectories v path, rfl, hleads⟩

theorem ensureNamed_eq_true {text : String} (h : ensureNamed text path v = (true, v')) :
    text ≠ "" ∧ ensureDirectory path v = (true, v') := by
  unfold ensureNamed at h
  split at h
  · cases h
  · rename_i htext
    exact ⟨htext, h⟩

theorem ensureDirectory_same {path : List String} (h : leadsToDirectory v.tree path = true) :
    ensureDirectory path v = (true, v) :=
  if_pos h

theorem ensureNamed_same {path : List String} {text : String} (htext : text ≠ "")
    (h : leadsToDirectory v.tree path = true) : ensureNamed text path v = (true, v) :=
  (if_neg htext).trans (if_pos h)

theorem leadsToDirectory_of_grows {t t' : Tree Nat} (h : Grows t t')
    (hleads : leadsToDirectory t path = true) : leadsToDirectory t' path = true := by
  obtain ⟨place, writable, hplace, hnode⟩ := leadsToDirectory_iff.mp hleads
  have hthere := exists_of_route hplace (hnode ▸ Option.some_ne_none _)
  refine leadsToDirectory_of_ways (fun other hother => ?_) hleads
  obtain ⟨node, hother⟩ := Option.ne_none_iff_exists'.mp (hthere other hother)
  rw [hother, h other node hother]

end Directories

section Files

variable {dir : List String} {name : String} {place : Location} {own : List Location}
  {watched : Location → Prop}

theorem writeTextFile_eq_true {text : String}
    (h : writeTextFile contents dir name text v = (true, v'))
    (hplace : locate v.tree dir name = some place) (hown : place ∈ own)
    (hwatched : ∀ p ∈ own, watched p) :
    Frame own watched [place] v v' ∧
      ∃ number, v'.tree[place]? = some (.file number true) ∧
        v'.content number = contents.text text := by
  unfold writeTextFile at h
  split at h <;> cases h
  rename_i written hwritten
  obtain ⟨hputs, hfile⟩ := write_eq_some hplace hwritten
  exact ⟨hputs.frame hown hwatched, hfile⟩

theorem writeTextFile_same {text : String} {number : Nat}
    (hplace : locate v.tree dir name = some place)
    (hfile : v.tree[place]? = some (.file number true))
    (hcontent : v.content number = contents.text text) :
    writeTextFile contents dir name text v = (true, v) := by
  simp only [writeTextFile, write_same hplace hfile hcontent]

theorem replaceWithSymlink_eq_true {source : List String} {writable : Bool}
    (h : replaceWithSymlink source dir name v = (true, v'))
    (hentry : entry v.tree dir name = some (place, writable)) (hway : place ∉ route v.tree dir) :
    writable = true ∧ Frame own watched [place] v v' ∧
      v'.tree[place]? = some (.link true source) ∧ v'.isRegular dir name = true := by
  have hentry' : entry (v.remove dir name).tree dir name = some (place, writable) := by
    refine entry_of_ways (fun other hother => ?_) hentry
    exact remove_get_of_ne hentry (ne_of_mem_of_not_mem hother hway)
  unfold replaceWithSymlink at h
  dsimp only at h
  split at h
  · cases h
  · rename_i linked hlinked
    obtain ⟨hregular, rfl⟩ := Prod.mk.inj h
    obtain ⟨hwritable, -, rfl⟩ := createSymlink_eq_some hentry' hlinked
    refine ⟨hwritable, ?_, Std.ExtTreeMap.getElem?_insert_self, hregular⟩
    refine ((remove_frame hentry).trans createSymlink_frame).mono ?_
    simp

theorem replaceWithSymlink_same {source : List String}
    (hentry : entry v.tree dir name = some (place, true))
    (hnode : v.tree[place]? = some (.link true source)) (hway : place ∉ route v.tree dir)
    (hregular : v.isRegular dir name = true) :
    replaceWithSymlink source dir name v = (true, v) := by
  simp only [replaceWithSymlink, createSymlink_remove hentry hnode hway, hregular]

/-- The disk that is there is kept, or another one takes its place. -/
theorem ensureMetadataDisk_eq_true {sourceDir : List String} {side : Location}
    {writable writable' : Bool} (h : ensureMetadataDisk contents sourceDir dir name v = (true, v'))
    (hentry : entry v.tree dir name = some (place, writable))
    (hside : entry v.tree dir (name ++ ".qcow2") = some (side, writable'))
    (hnode : ∀ absolute target, v.tree[place]? ≠ some (.link absolute target))
    (hway : place ∉ route v.tree dir) (hway' : side ∉ route v.tree dir) (hne : place ≠ side)
    (hown : place ∈ own) (hwatched : ∀ p ∈ own, watched p) :
    Frame own watched [place, side] v v' ∧
      metadataDiskExists contents v' dir name = true ∧
      ∀ absolute target, v'.tree[place]? ≠ some (.link absolute target) := by
  unfold ensureMetadataDisk at h
  split at h
  · rename_i hexists
    cases h
    exact ⟨(Frame.refl v).mono (List.nil_subset _), hexists, hnode⟩
  · dsimp only at h
    have hside' : entry (v.remove dir name).tree dir (name ++ ".qcow2") =
        some (side, writable') := by
      refine entry_of_ways (fun other hother => ?_) hside
      exact remove_get_of_ne hentry (ne_of_mem_of_not_mem hother hway)
    have hframe : Frame own watched ([place] ++ [side]) v
        ((v.remove dir name).remove dir (name ++ ".qcow2")) :=
      (remove_frame hentry).trans (remove_frame hside')
    have hgone : ∀ absolute target, ((v.remove dir name).remove dir (name ++ ".qcow2")).tree[place]?
        ≠ some (.link absolute target) := by
      intro absolute target
      rw [remove_get_of_ne hside' hne]
      obtain hsame | hnone := remove_get_self hentry
      · rw [hsame]
        exact hnode absolute target
      · rw [hnone]
        exact Option.some_ne_none _ ∘ Eq.symm
    generalize (v.remove dir name).remove dir (name ++ ".qcow2") = removed at *
    have hentry' : entry removed.tree dir name = some (place, writable) := by
      refine entry_of_ways (fun other hother => hframe.tree other fun hmem => ?_) hentry
      obtain rfl | rfl := by simpa using hmem
      · exact hway hother
      · exact hway' hother
    split at h
    · cases h
    · rename_i copied hcopied
      obtain ⟨hexists, rfl⟩ := Prod.mk.inj h
      obtain ⟨content, hputs⟩ := copyFile_eq_some (locate_of_not_link hentry' hgone) hcopied
      refine ⟨(hframe.trans (hputs.frame hown hwatched)).mono (by simp), hexists,
        fun absolute target hlink => ?_⟩
      obtain ⟨number, w, hfile, -⟩ := hputs.file
      cases hfile.symm.trans hlink

theorem ensureMetadataDisk_same {sourceDir : List String}
    (h : metadataDiskExists contents v dir name = true) :
    ensureMetadataDisk contents sourceDir dir name v = (true, v) :=
  if_pos h

theorem ensureSizedFile_eq_true {size : Nat}
    (h : ensureSizedFile contents dir name size v = (true, v'))
    (hplace : locate v.tree dir name = some place)
    (hplace' : ∀ next : Volume α, Frame own watched [place] v next →
      (∃ number w, next.tree[place]? = some (.file number w)) →
      locate next.tree dir name = some place)
    (hown : place ∈ own) (hwatched : ∀ p ∈ own, watched p) :
    Frame own watched [place] v v' ∧ locate v'.tree dir name = some place ∧
      hasSize contents v' dir name size = true := by
  unfold ensureSizedFile at h
  split at h
  · rename_i hsize
    cases h
    exact ⟨(Frame.refl v).mono (List.nil_subset _), hplace, hsize⟩
  · split at h
    · cases h
    · rename_i created hcreated
      have hcreate : Frame own watched [place] v created ∧
          locate created.tree dir name = some place := by
        split at hcreated
        · cases hcreated
          exact ⟨(Frame.refl v).mono (List.nil_subset _), hplace⟩
        · obtain ⟨hputs, number, hfile, -⟩ := write_eq_some hplace hcreated
          have hframe := hputs.frame hown hwatched
          exact ⟨hframe, hplace' _ hframe ⟨number, true, hfile⟩⟩
      split at h
      · cases h
      · rename_i resized hresized
        obtain ⟨hsize, rfl⟩ := Prod.mk.inj h
        obtain ⟨content, -, hputs⟩ := resizeFile_eq_some hcreate.2 hresized
        have hframe : Frame own watched [place] v resized :=
          (hcreate.1.trans (hputs.frame hown hwatched)).mono (by simp)
        obtain ⟨number, w, hfile, -⟩ := hputs.file
        exact ⟨hframe, hplace' _ hframe ⟨number, w, hfile⟩, hsize⟩

theorem ensureSizedFile_same {size : Nat} (h : hasSize contents v dir name size = true) :
    ensureSizedFile contents dir name size v = (true, v) :=
  if_pos h

end Files

def Options.directories (options : Options) : List (List String) :=
  [options.appData, options.home, options.images, options.machine]

def kLinkedImages : List String := ["system-qemu.img", "vendor-qemu.img"]

/-- The path leads to a file that can be written and has the text. -/
def HasText (contents : Contents α) (v : Volume α) (dir : List String) (name text : String) :
    Prop :=
  ∃ place number, locate v.tree dir name = some place ∧
    v.tree[place]? = some (.file number true) ∧ v.content number = contents.text text

structure Installed (contents : Contents α) (options : Options) (v : Volume α) : Prop where
  named : options.appDataDir ≠ "" ∧ options.avdHome ≠ ""
  directories : ∀ path ∈ options.directories, leadsToDirectory v.tree path = true
  image : systemImageExists contents options v = true
  ini : HasText contents v options.home options.iniName options.rootIni
  config : HasText contents v options.machine "config.ini" options.configIniFor
  links : ∀ file ∈ kLinkedImages, ∃ place,
    entry v.tree options.machine file = some (place, true) ∧
      v.tree[place]? = some (.link true (options.system ++ [file])) ∧
      place ∉ route v.tree options.machine ∧ v.isRegular options.machine file = true
  disk : metadataDiskExists contents v options.machine kMetadataDisk = true
  cache : hasSize contents v options.machine "cache.img" kCacheSize = true

namespace Installed

theorem hasText_same {dir : List String} {name text : String}
    (h : HasText contents v dir name text) :
    writeTextFile contents dir name text v = (true, v) := by
  obtain ⟨place, number, hplace, hfile, hcontent⟩ := h
  exact writeTextFile_same hplace hfile hcontent

theorem isRegular_of_hasText {dir : List String} {name text : String}
    (h : HasText contents v dir name text) : v.isRegular dir name = true := by
  obtain ⟨place, number, hplace, hfile, -⟩ := h
  rw [isRegular, contentAt_of_locate hplace, fileAt_eq_some.mpr ⟨number, true, hfile, rfl⟩]
  rfl

theorem createDefaultMachine_same (h : Installed contents options v) :
    createDefaultMachine contents options v = (true, v) := by
  have hlink : ∀ file ∈ kLinkedImages, replaceWithSymlink (options.system ++ [file])
      options.machine file v = (true, v) := by
    intro file hfile
    obtain ⟨place, hentry, hnode, hway, hregular⟩ := h.links file hfile
    exact replaceWithSymlink_same hentry hnode hway hregular
  refine runAll_same ?_
  simp only [runtimeDirectories, List.cons_append, List.nil_append, List.forall_mem_cons]
  refine ⟨ensureNamed_same h.named.1 (h.directories _ (by simp [Options.directories])),
    ensureNamed_same h.named.2 (h.directories _ (by simp [Options.directories])),
    ensureDirectory_same (h.directories _ (by simp [Options.directories])),
    congrArg (·, v) h.image,
    ensureDirectory_same (h.directories _ (by simp [Options.directories])),
    hasText_same h.ini, hasText_same h.config, hlink _ (by simp [kLinkedImages]),
    hlink _ (by simp [kLinkedImages]), ensureMetadataDisk_same h.disk,
    ensureSizedFile_same h.cache, fun _ hnone => ?_⟩
  cases hnone

theorem machineExists (h : Installed contents options v) :
    machineExists contents options v = true := by
  obtain ⟨-, -, -, -, hsystem⟩ := h.links "system-qemu.img" (by simp [kLinkedImages])
  obtain ⟨-, -, -, -, hvendor⟩ := h.links "vendor-qemu.img" (by simp [kLinkedImages])
  simp only [DefaultMachine.machineExists, isRegular_of_hasText h.ini,
    isRegular_of_hasText h.config, hsystem, hvendor, h.disk, Bool.and_self]

end Installed

end DefaultMachine
end MacMu
