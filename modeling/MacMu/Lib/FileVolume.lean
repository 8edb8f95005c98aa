import MacMu.Lib.FileWays
import Mathlib

/-!
A volume, whose files have numbers: entries of one number are one file, and what is
written to it by one name is read by the others. The calls here change one entry or
one content. `Frame` says what they leave alone, provided that the locations they are
directed at share no file with the locations that are watched.
-/

namespace MacMu
namespace FileTree

open Std

universe u
variable {α : Type u}

structure Volume (α : Type u) where
  tree : Tree Nat
  content : Nat → α

namespace Volume

section Calls

variable (v : Volume α)

def fileAt (place : Location) : Option α := (contentOf v.tree[place]?).map v.content

def contentAt (dir : List String) (name : String) : Option α :=
  (locate v.tree dir name).bind v.fileAt

/-- `is_regular_file` -/
def isRegular (dir : List String) (name : String) : Bool := (v.contentAt dir name).isSome

/-- `exists` -/
def leadsToNode (dir : List String) (name : String) : Bool :=
  (locate v.tree dir name).any fun place => v.tree[place]?.isSome

def freshNumber (t : Tree Nat) : Nat :=
  (t.toList.map fun e =>
    match e.2 with
    | .file number _ => number + 1
    | _ => 0).sum

def setContent (number : Nat) (content : α) : Volume α :=
  { v with content := Function.update v.content number content }

def create (place : Location) (content : α) (writable : Bool) : Volume α :=
  ⟨v.tree.insert place (.file (freshNumber v.tree) writable),
    Function.update v.content (freshNumber v.tree) content⟩

/-- What `open` for writing, which creates or truncates what the path leads to, and
the writing of the content leave. -/
def write (dir : List String) (name : String) (content : α) : Option (Volume α) :=
  match locate v.tree dir name with
  | none => none
  | some place =>
    if Disk.opens v.tree place then
      match v.tree[place]? with
      | some (.file number _) => some (v.setContent number content)
      | _ => some (v.create place content true)
    else none

def makeDirectories (path : List String) : Volume α :=
  { v with tree := (Disk.createDirectories ⟨v.tree, []⟩ path).2.tree }

def remove (dir : List String) (name : String) : Volume α :=
  { v with tree := (Disk.remove ⟨v.tree, []⟩ dir name).tree }

/-- `create_symlink` to an absolute path. -/
def createSymlink (dir : List String) (name : String) (target : List String) :
    Option (Volume α) :=
  match entry v.tree dir name with
  | some (place, true) =>
    if v.tree[place]?.isNone then
      some { v with tree := v.tree.insert place (.link true target) }
    else none
  | _ => none

/-- `copy_file`, which overwrites. A file is not copied to itself. -/
def copyFile (sourceDir : List String) (sourceName : String) (dir : List String)
    (name : String) : Option (Volume α) :=
  match (locate v.tree sourceDir sourceName).bind (v.tree[·]?), locate v.tree dir name with
  | some (.file number writable), some place =>
    if Disk.opens v.tree place then
      match v.tree[place]? with
      | some (.file other _) =>
        if other = number then none else some (v.setContent other (v.content number))
      | _ => some (v.create place (v.content number) writable)
    else none
  | _, _ => none

/-- `resize_file`; `resize` is what it does to a content. -/
def resizeFile (dir : List String) (name : String) (resize : α → α) : Option (Volume α) :=
  match locate v.tree dir name with
  | none => none
  | some place =>
    match v.tree[place]? with
    | some (.file number true) => some (v.setContent number (resize (v.content number)))
    | _ => none

end Calls

variable {v v' v'' : Volume α} {place : Location} {content : α}

theorem fileAt_eq_some : v.fileAt place = some content ↔
    ∃ number writable, v.tree[place]? = some (.file number writable) ∧
      v.content number = content := by
  unfold fileAt contentOf
  split
  · rename_i number writable hnode
    constructor
    · intro h
      exact ⟨number, writable, hnode, Option.some.inj h⟩
    · rintro ⟨number', writable', hnode', rfl⟩
      cases hnode.symm.trans hnode'
      rfl
  · rename_i hother
    exact ⟨nofun, fun ⟨number, writable, hnode, _⟩ => (hother number writable hnode).elim⟩

theorem fileAt_congr (hnode : v'.tree[place]? = v.tree[place]?)
    (h : ∀ number writable, v.tree[place]? = some (.file number writable) →
      v'.content number = v.content number) : v'.fileAt place = v.fileAt place := by
  unfold fileAt
  rw [hnode]
  unfold contentOf
  split
  · rename_i number writable hfile
    exact congrArg some (h number writable hfile)
  · rfl

theorem lt_freshNumber {t : Tree Nat} {number : Nat} {writable : Bool}
    (h : t[place]? = some (.file number writable)) : number < freshNumber t := by
  have hmem := List.mem_map_of_mem (f := fun e : Location × Node Nat =>
    match e.2 with
    | .file number _ => number + 1
    | _ => 0) (ExtTreeMap.mem_toList_iff_getElem?_eq_some.mpr h)
  exact List.single_le_sum (fun _ _ => Nat.zero_le _) _ hmem

theorem get_insert_of_ne (t : Tree Nat) {other : Location} (hne : other ≠ place)
    (node : Node Nat) : (t.insert place node)[other]? = t[other]? := by
  rw [ExtTreeMap.getElem?_insert, if_neg fun hcmp => hne (Std.compare_eq_iff_eq.mp hcmp).symm]

section Directories

def Adds (t t' : Tree Nat) : Prop := ∀ place : Location,
  t'[place]? = t[place]? ∨ t[place]? = none ∧ t'[place]? = some (.directory true)

variable {t t' t'' : Tree Nat}

theorem Adds.refl (t : Tree Nat) : Adds t t := fun _ => .inl rfl

theorem Adds.trans (h : Adds t t') (h' : Adds t' t'') : Adds t t'' := by
  intro place
  obtain hsame | ⟨hnone, hmade⟩ := h' place
  · rw [hsame]
    exact h place
  · obtain hsame' | ⟨-, hmade'⟩ := h place
    · exact .inr ⟨hsame' ▸ hnone, hmade⟩
    · cases hnone.symm.trans hmade'

theorem Adds.grows (h : Adds t t') : Grows t t' := by
  intro place node hnode
  obtain hsame | ⟨hnone, -⟩ := h place
  · rw [hsame, hnode]
  · cases hnone.symm.trans hnode

theorem adds_makeMissing (d : Disk Nat) (done rest : List String) :
    Adds d.tree (d.makeMissing done rest).2.tree := by
  induction rest generalizing d done with
  | nil => exact Adds.refl _
  | cons name rest ih =>
    unfold Disk.makeMissing
    split
    · exact Adds.refl _
    · rename_i place writable hentry
      split
      · rename_i hnone
        split
        · refine Adds.trans (fun other => ?_) (ih _ _)
          by_cases hother : other = place
          · subst hother
            exact .inr ⟨hnone, ExtTreeMap.getElem?_insert_self⟩
          · exact .inl (get_insert_of_ne _ hother _)
        · exact Adds.refl _
      · split
        · exact Adds.refl _
        · split
          · exact ih d _
          · exact Adds.refl _

theorem adds_makeDirectories (v : Volume α) (path : List String) :
    Adds v.tree (v.makeDirectories path).tree := by
  unfold makeDirectories Disk.createDirectories
  split
  · exact Adds.refl _
  · exact adds_makeMissing _ _ _

theorem fileAt_of_adds (h : Adds v.tree v'.tree) (hcontent : v'.content = v.content)
    (place : Location) : v'.fileAt place = v.fileAt place := by
  unfold fileAt
  rw [hcontent]
  obtain hsame | ⟨hnone, hmade⟩ := h place
  · rw [hsame]
  · rw [hnone, hmade]
    rfl

theorem contentAt_of_adds (h : Adds v.tree v'.tree) (hcontent : v'.content = v.content)
    {dir : List String} {name : String} (hproper : Proper name)
    (hfile : v.contentAt dir name = some content) : v'.contentAt dir name = some content := by
  obtain ⟨place, hplace, hfile⟩ := Option.bind_eq_some_iff.mp hfile
  obtain ⟨number, writable, hnode, -⟩ := fileAt_eq_some.mp hfile
  have hkept : ∀ {path found}, resolve v.tree path = some found → v.tree[found]? ≠ none →
      ∀ other ∈ route v.tree path, v'.tree[other]? = v.tree[other]? := by
    intro path found hfound hthere other hother
    obtain ⟨node, hnode⟩ := Option.ne_none_iff_exists'.mp (exists_of_route hfound hthere other hother)
    rw [hnode, h.grows other node hnode]
  have hplace' : locate v'.tree dir name = some place := by
    cases hentry : entry v.tree dir name with
    | none => simp only [locate, hentry, reduceCtorEq] at hplace
    | some found =>
      obtain ⟨parent, hparent, hdirectory, -⟩ := entry_eq_some.mp hentry
      exact locate_of_ways hproper (hkept hparent (hdirectory ▸ Option.some_ne_none _))
        (hkept (resolve_of_locate hproper hplace) (hnode ▸ Option.some_ne_none _)) hplace
  rw [contentAt, hplace', Option.bind_some, fileAt_of_adds h hcontent, hfile]

end Directories

/-- The file at the location gets a content; it is the file that was there, or a new
one. -/
structure Puts (place : Location) (content : α) (v v' : Volume α) : Prop where
  others : ∀ other : Location, other ≠ place → v'.tree[other]? = v.tree[other]?
  file : ∃ number writable, v'.tree[place]? = some (.file number writable) ∧
    v'.content number = content ∧ (∀ n, n ≠ number → v'.content n = v.content n) ∧
    ((∃ w, v.tree[place]? = some (.file number w)) ∨
      ∀ (other : Location) w, v.tree[other]? ≠ some (.file number w))

theorem puts_setContent {number : Nat} {writable : Bool}
    (h : v.tree[place]? = some (.file number writable)) :
    Puts place content v (v.setContent number content) :=
  ⟨fun _ _ => rfl, number, writable, h, Function.update_self ..,
    fun _ hne => Function.update_of_ne hne .., .inl ⟨writable, h⟩⟩

theorem puts_create (v : Volume α) (place : Location) (content : α) (writable : Bool) :
    Puts place content v (v.create place content writable) := by
  refine ⟨fun other hne => get_insert_of_ne _ hne _, freshNumber v.tree, writable,
    ExtTreeMap.getElem?_insert_self, Function.update_self ..,
    fun n hne => Function.update_of_ne hne .., .inr fun other w hnode => ?_⟩
  exact absurd (lt_freshNumber hnode) (lt_irrefl _)

section Frame

variable (own : List Location) (watched : Location → Prop)

/-- No file of the locations in `own` is at another location that is watched. -/
def Distinct (v : Volume α) : Prop :=
  ∀ p ∈ own, ∀ q, watched q → p ≠ q → ∀ number w w',
    v.tree[p]? = some (.file number w) → v.tree[q]? ≠ some (.file number w')

/-- Entries change only at `places`; other locations that are watched keep their
content. -/
structure Frame (places : List Location) (v v' : Volume α) : Prop where
  tree : ∀ other : Location, other ∉ places → v'.tree[other]? = v.tree[other]?
  distinct : Distinct own watched v → Distinct own watched v'
  files : Distinct own watched v → ∀ q, watched q → q ∉ places → v'.fileAt q = v.fileAt q

variable {own watched} {places places' : List Location}

theorem Frame.refl (v : Volume α) : Frame own watched [] v v :=
  ⟨fun _ _ => rfl, id, fun _ _ _ _ => rfl⟩

theorem Frame.trans (h : Frame own watched places v v') (h' : Frame own watched places' v' v'') :
    Frame own watched (places ++ places') v v'' := by
  refine ⟨fun other hother => ?_, h'.distinct ∘ h.distinct, fun hdistinct q hq hplaces => ?_⟩
  · rw [List.mem_append, not_or] at hother
    rw [h'.tree other hother.2, h.tree other hother.1]
  · rw [List.mem_append, not_or] at hplaces
    rw [h'.files (h.distinct hdistinct) q hq hplaces.2, h.files hdistinct q hq hplaces.1]

theorem Frame.mono (h : Frame own watched places v v') (hsub : places ⊆ places') :
    Frame own watched places' v v' :=
  ⟨fun other hother => h.tree other fun hmem => hother (hsub hmem), h.distinct,
    fun hdistinct q hq hplaces => h.files hdistinct q hq fun hmem => hplaces (hsub hmem)⟩

theorem Puts.ne (h : Puts place content v v') (hown : place ∈ own)
    (hdistinct : Distinct own watched v) {q : Location} (hq : watched q) (hne : q ≠ place)
    {number : Nat} {w w' : Bool} (hplace : v'.tree[place]? = some (.file number w)) :
    v.tree[q]? ≠ some (.file number w') := by
  obtain ⟨number', writable, hnode, -, -, ⟨old, hold⟩ | hnew⟩ := h.file
  · cases hplace.symm.trans hnode
    exact hdistinct place hown q hq hne.symm _ _ _ hold
  · cases hplace.symm.trans hnode
    exact hnew q w'

theorem Puts.frame (h : Puts place content v v') (hown : place ∈ own)
    (hwatched : ∀ p ∈ own, watched p) : Frame own watched [place] v v' := by
  refine ⟨fun other hother => h.others other (List.ne_of_not_mem_cons hother), ?_, ?_⟩
  · intro hdistinct p hp q hq hne number w w' hpnode hqnode
    by_cases hplace : p = place
    · subst hplace
      rw [h.others q hne.symm] at hqnode
      exact h.ne hown hdistinct hq hne.symm hpnode hqnode
    · rw [h.others p hplace] at hpnode
      by_cases hother : q = place
      · subst hother
        exact h.ne hown hdistinct (hwatched p hp) hplace hqnode hpnode
      · rw [h.others q hother] at hqnode
        exact hdistinct p hp q hq hne _ _ _ hpnode hqnode
  · intro hdistinct q hq hplaces
    have hne : q ≠ place := List.ne_of_not_mem_cons hplaces
    obtain ⟨number, writable, hnode, -, hcontent, -⟩ := h.file
    refine fileAt_congr (h.others q hne) fun n w hqnode => hcontent n ?_
    rintro rfl
    exact h.ne hown hdistinct hq hne hnode hqnode

theorem frame_of_entry (hcontent : v'.content = v.content)
    (hothers : ∀ other : Location, other ≠ place → v'.tree[other]? = v.tree[other]?)
    (hplace : ∀ number w, v'.tree[place]? = some (.file number w) →
      v.tree[place]? = some (.file number w)) : Frame own watched [place] v v' := by
  have hfiles : ∀ (other : Location) number w, v'.tree[other]? = some (.file number w) →
      v.tree[other]? = some (.file number w) := by
    intro other number w hnode
    by_cases hother : other = place
    · subst hother
      exact hplace number w hnode
    · rwa [hothers other hother] at hnode
  refine ⟨fun other hother => hothers other (List.ne_of_not_mem_cons hother), ?_, ?_⟩
  · intro hdistinct p hp q hq hne number w w' hpnode hqnode
    exact hdistinct p hp q hq hne _ _ _ (hfiles _ _ _ hpnode) (hfiles _ _ _ hqnode)
  · intro _ q _ hplaces
    exact fileAt_congr (hothers q (List.ne_of_not_mem_cons hplaces)) fun n _ _ =>
      congrFun hcontent n

end Frame

section Specifications

variable {dir : List String} {name : String} {writable : Bool} {number : Nat}

theorem contentAt_of_locate (h : locate v.tree dir name = some place) :
    v.contentAt dir name = v.fileAt place := by
  rw [contentAt, h, Option.bind_some]

theorem leaf_opens {t : Tree Nat} (h : Disk.opens t place = true) :
    t[place]? = none ∨ ∃ number, t[place]? = some (.file number true) := by
  unfold Disk.opens at h
  split at h
  · rename_i hnone
    exact .inl hnone
  · rename_i number writable hfile
    subst h
    exact .inr ⟨number, hfile⟩
  · cases h

theorem write_eq_some (hplace : locate v.tree dir name = some place)
    (h : v.write dir name content = some v') : Puts place content v v' ∧
      ∃ number, v'.tree[place]? = some (.file number true) ∧ v'.content number = content := by
  simp only [write, hplace] at h
  split at h
  · rename_i hopens
    obtain hnone | ⟨number, hfile⟩ := leaf_opens hopens
    · simp only [hnone] at h
      cases h
      exact ⟨puts_create v place content true, _, ExtTreeMap.getElem?_insert_self,
        Function.update_self ..⟩
    · simp only [hfile] at h
      cases h
      exact ⟨puts_setContent hfile, number, hfile, Function.update_self ..⟩
  · cases h

theorem write_same (hplace : locate v.tree dir name = some place)
    (hfile : v.tree[place]? = some (.file number true)) (hcontent : v.content number = content) :
    v.write dir name content = some v := by
  have hopens : Disk.opens v.tree place = true := by simp only [Disk.opens, hfile]
  simp only [write, hplace, hopens, if_true, hfile, setContent, ← hcontent, Function.update_eq_self]

section

variable (h : entry v.tree dir name = some (place, writable))
include h

theorem remove_get_of_ne {other : Location} (hne : other ≠ place) :
    (v.remove dir name).tree[other]? = v.tree[other]? :=
  Disk.get_remove_of_ne h hne

theorem remove_get_self : (v.remove dir name).tree[place]? = v.tree[place]? ∨
      (v.remove dir name).tree[place]? = none := by
  unfold remove
  obtain hsame | ⟨-, herased⟩ := Disk.remove_cases (d := ⟨v.tree, []⟩) h
  · rw [hsame]
    exact .inl rfl
  · rw [herased]
    exact .inr ExtTreeMap.getElem?_erase_self

theorem remove_frame {own : List Location} {watched : Location → Prop} :
    Frame own watched [place] v (v.remove dir name) := by
  refine frame_of_entry rfl (fun other hne => remove_get_of_ne h hne) fun number w hnode => ?_
  obtain hsame | hnone := remove_get_self h
  · rwa [hsame] at hnode
  · cases hnode.symm.trans hnone

end

theorem createSymlink_eq_some {target : List String}
    (hentry : entry v.tree dir name = some (place, writable))
    (h : v.createSymlink dir name target = some v') :
    writable = true ∧ v.tree[place]? = none ∧
      v' = { v with tree := v.tree.insert place (.link true target) } := by
  simp only [createSymlink, hentry] at h
  split at h
  · rename_i place' hsome
    cases hsome
    split at h <;> cases h
    rename_i hnone
    exact ⟨rfl, Option.isNone_iff_eq_none.mp hnone, rfl⟩
  · cases h

theorem createSymlink_frame {own : List Location} {watched : Location → Prop}
    {target : List String} : Frame own watched [place] v
      { v with tree := v.tree.insert place (.link true target) } := by
  refine frame_of_entry rfl (fun other hne => get_insert_of_ne _ hne _) fun number w hnode => ?_
  cases hnode.symm.trans (ExtTreeMap.getElem?_insert_self (t := v.tree) (k := place))

theorem createSymlink_remove {target : List String}
    (hentry : entry v.tree dir name = some (place, true))
    (hnode : v.tree[place]? = some (.link true target)) (hway : place ∉ route v.tree dir) :
    (v.remove dir name).createSymlink dir name target = some v := by
  have hremove : (v.remove dir name).tree = v.tree.erase place := by
    have herase := Disk.remove_of_node (d := ⟨v.tree, []⟩) hentry hnode nofun
    rw [if_pos rfl] at herase
    rw [remove, herase]
    rfl
  have hentry' : entry (v.remove dir name).tree dir name = some (place, true) := by
    refine entry_of_ways (fun other hother => ?_) hentry
    exact remove_get_of_ne hentry (ne_of_mem_of_not_mem hother hway)
  have hnone : (v.remove dir name).tree[place]?.isNone = true := by
    rw [hremove, ExtTreeMap.getElem?_erase_self]
    rfl
  have htree : (v.remove dir name).tree.insert place (.link true target) = v.tree := by
    refine ExtTreeMap.ext_getElem? fun other => ?_
    rw [hremove, ExtTreeMap.getElem?_insert]
    split
    · rename_i hcmp
      rw [← Std.compare_eq_iff_eq.mp hcmp, hnode]
    · rename_i hcmp
      rw [ExtTreeMap.getElem?_erase, if_neg hcmp]
  simp only [createSymlink, hentry', hnone, if_true, htree]
  rfl

theorem copyFile_eq_some {sourceDir : List String} {sourceName : String}
    (hplace : locate v.tree dir name = some place)
    (h : v.copyFile sourceDir sourceName dir name = some v') :
    ∃ content, Puts place content v v' := by
  unfold copyFile at h
  split at h
  · rename_i number w place' hsource hlocate
    cases hplace.symm.trans hlocate
    split at h
    · rename_i hopens
      obtain hnone | ⟨other, hother⟩ := leaf_opens hopens
      · simp only [hnone] at h
        cases h
        exact ⟨v.content number, puts_create v place _ w⟩
      · simp only [hother] at h
        split at h <;> cases h
        exact ⟨v.content number, puts_setContent hother⟩
    · cases h
  · cases h

theorem resizeFile_eq_some {resize : α → α} (hplace : locate v.tree dir name = some place)
    (h : v.resizeFile dir name resize = some v') :
    ∃ content, v.fileAt place = some content ∧ Puts place (resize content) v v' := by
  simp only [resizeFile, hplace] at h
  split at h <;> cases h
  rename_i number hfile
  exact ⟨v.content number, fileAt_eq_some.mpr ⟨number, true, hfile, rfl⟩, puts_setContent hfile⟩

end Specifications

section Map

variable {β : Type u} (f : α → β)

def map (v : Volume α) : Volume β := ⟨v.tree, f ∘ v.content⟩

variable (v : Volume α) (dir : List String) (name : String)

theorem map_fileAt (place : Location) : (v.map f).fileAt place = (v.fileAt place).map f := by
  rw [fileAt, fileAt, Option.map_map]
  rfl

theorem map_contentAt : (v.map f).contentAt dir name = (v.contentAt dir name).map f := by
  change (locate v.tree dir name).bind (v.map f).fileAt = _
  rw [contentAt]
  cases locate v.tree dir name with
  | none => rfl
  | some place => exact map_fileAt ..

theorem map_setContent (number : Nat) (content : α) :
    (v.map f).setContent number (f content) = (v.setContent number content).map f :=
  congrArg (Volume.mk v.tree) (Function.comp_update ..).symm

theorem map_create (place : Location) (content : α) (writable : Bool) :
    (v.map f).create place (f content) writable = (v.create place content writable).map f :=
  congrArg (Volume.mk _) (Function.comp_update ..).symm

theorem map_write (content : α) :
    (v.map f).write dir name (f content) = (v.write dir name content).map (map f) := by
  unfold write
  rw [show (v.map f).tree = v.tree from rfl]
  split
  · rfl
  · split
    · split
      · rw [map_setContent]
        rfl
      · rw [map_create]
        rfl
    · rfl

theorem map_createSymlink (target : List String) :
    (v.map f).createSymlink dir name target =
      (v.createSymlink dir name target).map (map f) := by
  unfold createSymlink
  rw [show (v.map f).tree = v.tree from rfl]
  split
  · split <;> rfl
  · rfl

theorem map_copyFile (sourceDir : List String) (sourceName : String) :
    (v.map f).copyFile sourceDir sourceName dir name =
      (v.copyFile sourceDir sourceName dir name).map (map f) := by
  unfold copyFile
  rw [show (v.map f).tree = v.tree from rfl]
  split
  · rename_i number writable place hsource hplace
    rw [show (v.map f).content number = f (v.content number) from rfl]
    split
    · split
      · split
        · rfl
        · rw [map_setContent]
          rfl
      · rw [map_create]
        rfl
    · rfl
  · rfl

theorem map_resizeFile {resize : α → α} {resize' : β → β}
    (h : ∀ content, resize' (f content) = f (resize content)) :
    (v.map f).resizeFile dir name resize' = (v.resizeFile dir name resize).map (map f) := by
  unfold resizeFile
  rw [show (v.map f).tree = v.tree from rfl]
  split
  · rfl
  · split
    · rename_i number hfile
      rw [show (v.map f).content number = f (v.content number) from rfl, h, map_setContent]
      rfl
    · rfl

end Map

end Volume

end FileTree
end MacMu
