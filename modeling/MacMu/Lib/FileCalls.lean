import MacMu.Lib.FileTree

/-!
The calls that change a file system. Every call resolves its path anew in the
tree it finds. A directory that is not writable keeps its entries as they are. A
disk keeps the locations at which the calls were directed.
-/

namespace MacMu
namespace FileTree

open Std

universe u
variable {α : Type u}

def hasEntries (t : Tree α) (place : Location) : Bool :=
  t.keys.any fun other => place.isPrefixOf other && other != place

/-- A tree with the locations at which calls that change entries were directed. -/
structure Disk (α : Type u) where
  tree : Tree α
  touched : List Location

namespace Disk

variable (d : Disk α)

def touch (place : Location) : Disk α := { d with touched := d.touched ++ [place] }

def set (place : Location) (node : Node α) : Disk α := { d with tree := d.tree.insert place node }

def erase (place : Location) : Disk α := { d with tree := d.tree.erase place }

/-- Makes the directories that are missing, from the first name on. The names in
`done` lead to a directory. `mkdir` is called where there is no entry. -/
def makeMissing (d : Disk α) (done : List String) : List String → Bool × Disk α
  | [] => (true, d)
  | name :: rest =>
    match entry d.tree done name with
    | none => (false, d)
    | some (place, writable) =>
      match d.tree[place]? with
      | none =>
        if writable then
          makeMissing ((d.touch place).set place (.directory true)) (done ++ [name]) rest
        else (false, d.touch place)
      | some _ =>
        match resolve d.tree (done ++ [name]) with
        | none => (false, d)
        | some found =>
          if isDirectory d.tree found then makeMissing d (done ++ [name]) rest
          else (false, d)

/-- `create_directories`, which first looks where the whole path leads. -/
def createDirectories (path : List String) : Bool × Disk α :=
  if (resolve d.tree path).any (isDirectory d.tree) then (true, d) else makeMissing d [] path

/-- `remove`, which does not follow the last name. A directory must be empty. -/
def remove (dir : List String) (name : String) : Disk α :=
  match entry d.tree dir name with
  | none => d
  | some (place, writable) =>
    let d := d.touch place
    match d.tree[place]? with
    | none => d
    | some (.directory _) =>
      if writable && !hasEntries d.tree place then d.erase place else d
    | some _ => if writable then d.erase place else d

def opens (t : Tree α) (place : Location) : Bool :=
  match t[place]? with
  | none =>
    match t[place.dropLast]? with
    | some (.directory writable) => writable
    | _ => false
  | some (.file _ writable) => writable
  | some _ => false

/-- `open` for writing, which creates or truncates what the path leads to.
`allowed` is false where the call fails for reasons the tree does not show. -/
def openTruncate (dir : List String) (name : String) (empty : α) (allowed : Bool) :
    Option Location × Disk α :=
  match locate d.tree dir name with
  | none => (none, d)
  | some place =>
    let d := d.touch place
    if opens d.tree place && allowed then (some place, d.set place (.file empty true))
    else (none, d)

def write (place : Location) (content : α) : Disk α := d.set place (.file content true)

/-- `chmod` to a mode that lets the owner write. It is meant for files. -/
def chmod (dir : List String) (name : String) (allowed : Bool) : Bool × Disk α :=
  match locate d.tree dir name with
  | none => (false, d)
  | some place =>
    let d := d.touch place
    match d.tree[place]?, allowed with
    | some (.file content _), true => (true, d.set place (.file content true))
    | _, _ => (false, d)

/-- `rename` of what is not a directory, within a directory. -/
def rename (dir : List String) (source target : String) (allowed : Bool) : Bool × Disk α :=
  match entry d.tree dir source, entry d.tree dir target with
  | some (oldPlace, writable), some (newPlace, _) =>
    let d := (d.touch oldPlace).touch newPlace
    match d.tree[oldPlace]? with
    | none | some (.directory _) => (false, d)
    | some node =>
      if isDirectory d.tree newPlace || !(writable && allowed) then (false, d)
      else (true, (d.erase oldPlace).set newPlace node)
  | _, _ => (false, d)

end Disk

variable {t t' : Tree α}

namespace Disk

variable {d : Disk α} {dir : List String} {name : String} {place : Location} {writable : Bool}
variable {node : Node α} {allowed : Bool} {d' : Disk α}

theorem leaf_of_opens (h : opens t place = true) : Leaf t[place]? := by
  unfold opens at h
  split at h
  · rename_i hnone
    rw [hnone]
    trivial
  · rename_i hfile
    rw [hfile]
    trivial
  · cases h

theorem get_set_self (d : Disk α) (place : Location) (node : Node α) :
    (d.set place node).tree[place]? = some node :=
  ExtTreeMap.getElem?_insert_self

theorem get_set_of_ne (d : Disk α) {other : Location} (hne : other ≠ place) (node : Node α) :
    (d.set place node).tree[other]? = d.tree[other]? := by
  change (d.tree.insert place node)[other]? = _
  rw [ExtTreeMap.getElem?_insert, if_neg fun hcmp => hne (Std.compare_eq_iff_eq.mp hcmp).symm]

theorem remove_of_none (h : entry d.tree dir name = none) : d.remove dir name = d := by
  simp only [remove, h]

theorem remove_cases (h : entry d.tree dir name = some (place, writable)) :
    d.remove dir name = d.touch place ∨
      writable = true ∧ d.remove dir name = (d.touch place).erase place := by
  simp only [remove, h]
  split
  · exact .inl rfl
  · split
    · rename_i hcond
      exact .inr ⟨(Bool.and_eq_true_iff.mp hcond).1, rfl⟩
    · exact .inl rfl
  · split
    · exact .inr ⟨‹_›, rfl⟩
    · exact .inl rfl

theorem touched_remove (h : entry d.tree dir name = some (place, writable)) :
    (d.remove dir name).touched = d.touched ++ [place] := by
  obtain hremove | ⟨-, hremove⟩ := remove_cases h
  · rw [hremove]
    rfl
  · rw [hremove]
    rfl

theorem touched_subset_remove (dir : List String) (name : String) :
    d.touched ⊆ (d.remove dir name).touched := by
  cases h : entry d.tree dir name with
  | none => rw [remove_of_none h]; exact List.Subset.refl _
  | some found =>
    rw [touched_remove h]
    exact List.subset_append_left _ _

theorem pruned_remove (dir : List String) (name : String) :
    Pruned (d.remove dir name).tree d.tree := by
  cases h : entry d.tree dir name with
  | none => rw [remove_of_none h]; exact Pruned.refl _
  | some found =>
    obtain hremove | ⟨-, hremove⟩ := remove_cases h
    · rw [hremove]
      exact Pruned.refl _
    · rw [hremove]
      exact pruned_erase _ _

theorem remove_of_node (h : entry d.tree dir name = some (place, writable))
    (hnode : d.tree[place]? = some node) (hplain : ∀ w, node ≠ .directory w) :
    d.remove dir name =
      if writable then (d.touch place).erase place else d.touch place := by
  simp only [remove, h]
  split
  · rename_i hnone
    cases hnone.symm.trans hnode
  · rename_i hdirectory
    exact (hplain _ (Option.some.inj (hnode.symm.trans hdirectory))).elim
  · rfl

theorem touched_subset_openTruncate (dir : List String) (name : String) (empty : α)
    (allowed : Bool) : d.touched ⊆ (d.openTruncate dir name empty allowed).2.touched := by
  unfold openTruncate
  split
  · exact List.Subset.refl _
  · dsimp only
    split <;> exact List.subset_append_left _ _

theorem touched_subset_chmod (dir : List String) (name : String) (allowed : Bool) :
    d.touched ⊆ (d.chmod dir name allowed).2.touched := by
  unfold chmod
  split
  · exact List.Subset.refl _
  · dsimp only
    split <;> exact List.subset_append_left _ _

theorem touched_subset_rename (dir : List String) (source target : String) (allowed : Bool) :
    d.touched ⊆ (d.rename dir source target allowed).2.touched := by
  have htouch : ∀ first second : Location, d.touched ⊆ ((d.touch first).touch second).touched :=
    fun _ _ => List.Subset.trans (List.subset_append_left _ _) (List.subset_append_left _ _)
  unfold rename
  split
  · dsimp only
    split
    · exact htouch _ _
    · exact htouch _ _
    · split <;> exact htouch _ _
  · exact List.Subset.refl _

theorem openTruncate_eq_some {empty : α}
    (h : d.openTruncate dir name empty allowed = (some place, d')) :
    locate d.tree dir name = some place ∧ opens d.tree place = true ∧
      d' = (d.touch place).set place (.file empty true) := by
  unfold openTruncate at h
  split at h
  · cases h
  · rename_i found hfound
    dsimp only at h
    split at h <;> cases h
    rename_i hcond
    exact ⟨hfound, (Bool.and_eq_true_iff.mp hcond).1, rfl⟩

/-- What is removed from a writable directory is gone, or is a directory. -/
theorem get_remove (h : entry d.tree dir name = some (place, true)) :
    (d.remove dir name).tree[place]? = none ∨
      ∃ w, (d.remove dir name).tree[place]? = some (.directory w) := by
  have herased : ((d.touch place).erase place).tree[place]? = none :=
    ExtTreeMap.getElem?_erase_self
  obtain hnone | ⟨w, hnode⟩ | ⟨node, hnode, hplain⟩ : d.tree[place]? = none ∨
      (∃ w, d.tree[place]? = some (.directory w)) ∨
      ∃ node, d.tree[place]? = some node ∧ ∀ w, node ≠ .directory w := by
    match d.tree[place]? with
    | none => exact .inl rfl
    | some (.directory w) => exact .inr (.inl ⟨w, rfl⟩)
    | some (.file content w) => exact .inr (.inr ⟨_, rfl, nofun⟩)
    | some (.link absolute target) => exact .inr (.inr ⟨_, rfl, nofun⟩)
  · obtain hremove | ⟨-, hremove⟩ := remove_cases h
    · rw [hremove]
      exact .inl hnone
    · rw [hremove]
      exact .inl herased
  · obtain hremove | ⟨-, hremove⟩ := remove_cases h
    · rw [hremove]
      exact .inr ⟨w, hnode⟩
    · rw [hremove]
      exact .inl herased
  · rw [remove_of_node h hnode hplain]
    exact .inl herased

theorem get_remove_of_ne (h : entry d.tree dir name = some (place, writable)) {other : Location}
    (hne : other ≠ place) : (d.remove dir name).tree[other]? = d.tree[other]? := by
  obtain hremove | ⟨-, hremove⟩ := remove_cases h
  · rw [hremove]
    rfl
  · rw [hremove]
    change (d.tree.erase place)[other]? = _
    rw [ExtTreeMap.getElem?_erase, if_neg fun hcmp => hne (Std.compare_eq_iff_eq.mp hcmp).symm]

theorem locate_remove (h : entry d.tree dir name = some (place, true))
    (h' : entry (d.remove dir name).tree dir name = some (place, true)) :
    locate (d.remove dir name).tree dir name = some place := by
  refine locate_of_not_link h' ?_
  intro absolute target hlink
  obtain hgone | ⟨w, hstays⟩ := get_remove h
  · cases hgone.symm.trans hlink
  · cases hstays.symm.trans hlink

theorem chmod_eq_true (h : d.chmod dir name allowed = (true, d')) :
    ∃ place content w, locate d.tree dir name = some place ∧
      d.tree[place]? = some (.file content w) ∧
      d' = (d.touch place).set place (.file content true) := by
  unfold chmod at h
  split at h
  · cases h
  · rename_i place hplace
    dsimp only at h
    split at h <;> cases h
    rename_i content w hnode
    exact ⟨place, content, w, hplace, hnode, rfl⟩

theorem rename_eq_true {source target : String}
    (h : d.rename dir source target allowed = (true, d')) :
    ∃ parent node, resolve d.tree dir = some parent ∧
      d.tree[parent]? = some (.directory true) ∧ d.tree[parent ++ [source]]? = some node ∧
      isDirectory d.tree (parent ++ [target]) = false ∧
      d'.tree = (d.tree.erase (parent ++ [source])).insert (parent ++ [target]) node := by
  unfold rename at h
  split at h
  · rename_i oldPlace writable newPlace writable' hold hnew
    obtain ⟨parent, hparent, hnode, rfl⟩ := entry_eq_some.mp hold
    obtain ⟨parent', hparent', -, rfl⟩ := entry_eq_some.mp hnew
    cases hparent.symm.trans hparent'
    dsimp only at h
    split at h
    · cases h
    · cases h
    · rename_i node _ hsource
      split at h
      · cases h
      · rename_i hcond
        obtain ⟨hfree, hallowed⟩ := not_or.mp (fun hor => hcond (Bool.or_eq_true_iff.mpr hor))
        have hwritable : writable = true ∧ allowed = true := by
          simpa only [Bool.not_eq_true', Bool.not_eq_false, Bool.and_eq_true] using hallowed
        cases h
        rw [hwritable.1] at hnode
        exact ⟨parent, node, hparent, hnode, hsource, Bool.not_eq_true _ ▸ hfree, rfl⟩
  · cases h

theorem makeMissing_keeps (done rest : List String) (hnode : d.tree[place]? = some node) :
    (d.makeMissing done rest).2.tree[place]? = some node := by
  induction rest generalizing d done with
  | nil => exact hnode
  | cons name rest ih =>
    unfold makeMissing
    split
    · exact hnode
    · rename_i made writable hentry
      split
      · rename_i habsent
        split
        · refine ih _ ?_
          have hne : made ≠ place := by
            rintro rfl
            cases habsent.symm.trans hnode
          change (d.tree.insert made _)[place]? = _
          rw [ExtTreeMap.getElem?_insert, if_neg fun hcmp => hne (Std.compare_eq_iff_eq.mp hcmp)]
          exact hnode
        · exact hnode
      · split
        · exact hnode
        · split
          · exact ih _ hnode
          · exact hnode

theorem createDirectories_keeps (path : List String) (hnode : d.tree[place]? = some node) :
    (d.createDirectories path).2.tree[place]? = some node := by
  unfold createDirectories
  split
  · exact hnode
  · exact makeMissing_keeps [] path hnode

theorem touched_openTruncate (h : locate d.tree dir name = some place) (empty : α)
    (allowed : Bool) :
    (d.openTruncate dir name empty allowed).2.touched = d.touched ++ [place] := by
  simp only [openTruncate, h]
  split <;> rfl

end Disk

end FileTree
end MacMu
