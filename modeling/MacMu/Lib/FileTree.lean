import Mathlib.Tactic.Common
import Std.Data.ExtTreeMap

/-!
A file system with directories, files and symbolic links. A location is the list
of names from the root; a tree says what is at each location. A path is resolved
by a walk that follows links, up to a limit, and keeps the locations it has
looked at: `passed`. Permissions to search and to read, owners, hard links and
the case of names are left out.
-/

namespace MacMu
namespace FileTree

open Std

universe u
variable {α : Type u}
variable {place parent : Location} {name : String} {writable : Bool} {dir : List String}

abbrev Location := List String

inductive Node (α : Type u) where
  | directory (writable : Bool)
  | file (content : α) (writable : Bool)
  | link (absolute : Bool) (target : List String)
  deriving DecidableEq, Repr

abbrev Tree (α : Type u) := ExtTreeMap Location (Node α)

def Leaf : Option (Node α) → Prop
  | none | some (.file ..) => True
  | _ => False

structure Walk where
  trail : List Location
  result : Option Location
  deriving DecidableEq, Repr

def Walk.after (place : Location) (onward : Walk) : Walk :=
  ⟨place :: onward.trail, onward.result⟩

/-- Follows the names from `here`; `onLink` takes over at a link. -/
def walk (t : Tree α) (onLink : Location → List String → Walk) : Location → List String → Walk
  | here, [] => ⟨[], some here⟩
  | here, name :: rest =>
    if name = "" ∨ name = "." then walk t onLink here rest
    else if name = ".." then walk t onLink here.dropLast rest
    else
      let place := here ++ [name]
      match t[place]? with
      | some (.directory _) => (walk t onLink place rest).after place
      | some (.link absolute target) =>
        (onLink (if absolute then [] else here) (target ++ rest)).after place
      | _ => ⟨[place], if rest = [] then some place else none⟩

def walkFrom (t : Tree α) : Nat → Location → List String → Walk
  | 0 => walk t fun _ _ => ⟨[], none⟩
  | links + 1 => walk t (walkFrom t links)

/-- `MAXSYMLINKS` -/
def maxLinks : Nat := 32

def resolve (t : Tree α) (path : List String) : Option Location :=
  (walkFrom t maxLinks [] path).result

def passed (t : Tree α) (path : List String) : List Location :=
  (walkFrom t maxLinks [] path).trail

/-- The locations a path to a directory leads through, and the directory. -/
def route (t : Tree α) (path : List String) : List Location :=
  passed t path ++ (resolve t path).toList

/-- The entry `name` of the directory that `dir` leads to, and whether the
directory is writable. -/
def entry (t : Tree α) (dir : List String) (name : String) : Option (Location × Bool) :=
  match resolve t dir with
  | none => none
  | some parent =>
    match t[parent]? with
    | some (.directory writable) => some (parent ++ [name], writable)
    | _ => none

/-- Where `dir / name` leads when its last name is followed too. -/
def locate (t : Tree α) (dir : List String) (name : String) : Option Location :=
  match entry t dir name with
  | none => none
  | some (place, _) =>
    match t[place]? with
    | some (.link ..) => resolve t (dir ++ [name])
    | _ => some place

def contentOf : Option (Node α) → Option α
  | some (.file content _) => some content
  | _ => none

def readFile (t : Tree α) (dir : List String) (name : String) : Option α :=
  (locate t dir name).bind fun place => contentOf t[place]?

def isDirectory (t : Tree α) (place : Location) : Bool :=
  match t[place]? with
  | some (.directory _) => true
  | _ => false

variable {t t' : Tree α}

/-- A walk cannot tell what the two trees have at the location apart. -/
def Same (t t' : Tree α) (place : Location) : Prop :=
  t'[place]? = t[place]? ∨ Leaf t[place]? ∧ Leaf t'[place]?

/-- `t'` has what `t` has, or nothing, or a file. -/
def Pruned (t' t : Tree α) : Prop := ∀ place : Location, t'[place]? = t[place]? ∨ Leaf t'[place]?

section Names

variable {onLink : Location → List String → Walk} {here : Location} {name : String}
  {rest : List String} (hplain : ¬(name = "" ∨ name = ".")) (hup : name ≠ "..")

include hplain hup

theorem walk_leaf (hleaf : Leaf t[here ++ [name]]?) :
    walk t onLink here (name :: rest) =
      ⟨[here ++ [name]], if rest = [] then some (here ++ [name]) else none⟩ := by
  rw [walk, if_neg hplain, if_neg hup]
  dsimp only
  split
  · rename_i hnode
    rw [hnode] at hleaf
    exact hleaf.elim
  · rename_i hnode
    rw [hnode] at hleaf
    exact hleaf.elim
  · rfl

theorem walk_directory {writable : Bool} (hnode : t[here ++ [name]]? = some (.directory writable)) :
    walk t onLink here (name :: rest) =
      (walk t onLink (here ++ [name]) rest).after (here ++ [name]) := by
  rw [walk, if_neg hplain, if_neg hup]
  dsimp only
  rw [hnode]

theorem walk_link {absolute : Bool} {target : List String}
    (hnode : t[here ++ [name]]? = some (.link absolute target)) :
    walk t onLink here (name :: rest) =
      (onLink (if absolute then [] else here) (target ++ rest)).after (here ++ [name]) := by
  rw [walk, if_neg hplain, if_neg hup]
  dsimp only
  rw [hnode]

end Names

theorem leaf_or (node : Option (Node α)) :
    Leaf node ∨ (∃ writable, node = some (.directory writable)) ∨
      ∃ absolute target, node = some (.link absolute target) :=
  match node with
  | none | some (.file ..) => .inl trivial
  | some (.directory writable) => .inr (.inl ⟨writable, rfl⟩)
  | some (.link absolute target) => .inr (.inr ⟨absolute, target, rfl⟩)

theorem walk_congr {onLink onLink' : Location → List String → Walk}
    (hlink : ∀ here path, (∀ place ∈ (onLink here path).trail, Same t t' place) →
      onLink' here path = onLink here path)
    (here : Location) (path : List String)
    (h : ∀ place ∈ (walk t onLink here path).trail, Same t t' place) :
    walk t' onLink' here path = walk t onLink here path := by
  induction path generalizing here with
  | nil => rfl
  | cons name rest ih =>
    by_cases hplain : name = "" ∨ name = "."
    · rw [walk, if_pos hplain] at h
      rw [walk, walk, if_pos hplain, if_pos hplain]
      exact ih here h
    by_cases hup : name = ".."
    · rw [walk, if_neg hplain, if_pos hup] at h
      rw [walk, walk, if_neg hplain, if_neg hplain, if_pos hup, if_pos hup]
      exact ih _ h
    -- From here on the entry is looked at, and the trees agree on it or have a leaf there.
    obtain hleaf | ⟨writable, hnode⟩ | ⟨absolute, target, hnode⟩ := leaf_or t[here ++ [name]]?
    · rw [walk_leaf hplain hup hleaf] at h
      have hleaf' : Leaf t'[here ++ [name]]? := by
        obtain hsame | ⟨-, hleaf'⟩ := h _ List.mem_cons_self
        · rwa [hsame]
        · exact hleaf'
      rw [walk_leaf hplain hup hleaf, walk_leaf hplain hup hleaf']
    · rw [walk_directory hplain hup hnode] at h
      have hnode' : t'[here ++ [name]]? = some (.directory writable) := by
        obtain hsame | ⟨hleaf, -⟩ := h _ List.mem_cons_self
        · rwa [hsame]
        · rw [hnode] at hleaf
          exact hleaf.elim
      rw [walk_directory hplain hup hnode, walk_directory hplain hup hnode',
        ih _ fun place hplace => h place (List.mem_cons_of_mem _ hplace)]
    · rw [walk_link hplain hup hnode] at h
      have hnode' : t'[here ++ [name]]? = some (.link absolute target) := by
        obtain hsame | ⟨hleaf, -⟩ := h _ List.mem_cons_self
        · rwa [hsame]
        · rw [hnode] at hleaf
          exact hleaf.elim
      rw [walk_link hplain hup hnode, walk_link hplain hup hnode',
        hlink _ _ fun place hplace => h place (List.mem_cons_of_mem _ hplace)]

theorem walkFrom_congr (links : Nat) (here : Location) (path : List String)
    (h : ∀ place ∈ (walkFrom t links here path).trail, Same t t' place) :
    walkFrom t' links here path = walkFrom t links here path := by
  induction links generalizing here path with
  | zero => exact walk_congr (fun _ _ _ => rfl) here path h
  | succ links ih => exact walk_congr (fun here path => ih here path) here path h

theorem walk_trail {onLink : Location → List String → Walk}
    (hlink : ∀ here path place, (onLink here path).result = some place →
      ∀ other ∈ (onLink here path).trail, ¬Leaf t[other]? ∨ other = place) (here : Location)
    (path : List String) (h : (walk t onLink here path).result = some place) :
    ∀ other ∈ (walk t onLink here path).trail, ¬Leaf t[other]? ∨ other = place := by
  induction path generalizing here with
  | nil => exact nofun
  | cons name rest ih =>
    by_cases hplain : name = "" ∨ name = "."
    · rw [walk, if_pos hplain] at h ⊢
      exact ih here h
    by_cases hup : name = ".."
    · rw [walk, if_neg hplain, if_pos hup] at h ⊢
      exact ih _ h
    obtain hleaf | ⟨writable, hnode⟩ | ⟨absolute, target, hnode⟩ := leaf_or t[here ++ [name]]?
    · rw [walk_leaf hplain hup hleaf] at h ⊢
      dsimp only at h
      split at h
      · intro other hother
        rw [List.mem_singleton.mp hother]
        exact .inr (Option.some.inj h)
      · cases h
    · rw [walk_directory hplain hup hnode] at h ⊢
      exact List.forall_mem_cons.mpr ⟨.inl (by rw [hnode]; exact id), ih _ h⟩
    · rw [walk_link hplain hup hnode] at h ⊢
      exact List.forall_mem_cons.mpr ⟨.inl (by rw [hnode]; exact id), hlink _ _ _ h⟩

theorem walkFrom_trail (links : Nat) (here : Location) (path : List String)
    (h : (walkFrom t links here path).result = some place) :
    ∀ other ∈ (walkFrom t links here path).trail, ¬Leaf t[other]? ∨ other = place := by
  induction links generalizing here path place with
  | zero =>
    refine walk_trail (fun _ _ _ _ _ hmem => ?_) here path h
    cases hmem
  | succ links ih => exact walk_trail (fun here path place => ih here path) here path h

theorem walk_snoc {onLink : Location → List String → Walk} (hplain : ¬(name = "" ∨ name = "."))
    (hup : name ≠ "..") (hparent : t[parent]? = some (.directory writable))
    (hnode : ∀ absolute target, t[parent ++ [name]]? ≠ some (.link absolute target))
    (hlink : ∀ here path, (onLink here path).result = some parent →
      (onLink here (path ++ [name])).result = some (parent ++ [name])) (here : Location)
    (path : List String) (h : (walk t onLink here path).result = some parent) :
    (walk t onLink here (path ++ [name])).result = some (parent ++ [name]) := by
  induction path generalizing here with
  | nil =>
    cases h
    rw [List.nil_append]
    obtain hleaf | ⟨w, hdirectory⟩ | ⟨absolute, target, hlink⟩ := leaf_or t[parent ++ [name]]?
    · rw [walk_leaf hplain hup hleaf]
      rfl
    · rw [walk_directory hplain hup hdirectory]
      rfl
    · exact (hnode absolute target hlink).elim
  | cons first rest ih =>
    rw [List.cons_append]
    by_cases hplain' : first = "" ∨ first = "."
    · rw [walk, if_pos hplain'] at h ⊢
      exact ih here h
    by_cases hup' : first = ".."
    · rw [walk, if_neg hplain', if_pos hup'] at h ⊢
      exact ih _ h
    obtain hleaf | ⟨w, hfirst⟩ | ⟨absolute, target, hfirst⟩ := leaf_or t[here ++ [first]]?
    · rw [walk_leaf hplain' hup' hleaf] at h
      dsimp only at h
      split at h <;> cases h
      rw [hparent] at hleaf
      exact hleaf.elim
    · rw [walk_directory hplain' hup' hfirst] at h ⊢
      exact ih _ h
    · rw [walk_link hplain' hup' hfirst] at h ⊢
      have hnext := hlink _ _ h
      rwa [List.append_assoc] at hnext

theorem resolve_snoc {path : List String} (hplain : ¬(name = "" ∨ name = ".")) (hup : name ≠ "..")
    (hresolve : resolve t path = some parent) (hparent : t[parent]? = some (.directory writable))
    (hnode : ∀ absolute target, t[parent ++ [name]]? ≠ some (.link absolute target)) :
    resolve t (path ++ [name]) = some (parent ++ [name]) := by
  have hwalk : ∀ links here path, (walkFrom t links here path).result = some parent →
      (walkFrom t links here (path ++ [name])).result = some (parent ++ [name]) := by
    intro links
    induction links with
    | zero =>
      intro here path h
      refine walk_snoc hplain hup hparent hnode (fun _ _ hnone => ?_) here path h
      cases hnone
    | succ links ih => exact walk_snoc hplain hup hparent hnode ih
  exact hwalk maxLinks [] path hresolve

theorem entry_eq_some :
    entry t dir name = some (place, writable) ↔
      ∃ parent, resolve t dir = some parent ∧ t[parent]? = some (.directory writable) ∧
        place = parent ++ [name] := by
  constructor
  · intro h
    dsimp only [entry] at h
    split at h
    · cases h
    · rename_i parent hparent
      split at h <;> cases h
      rename_i hnode
      exact ⟨parent, hparent, hnode, rfl⟩
  · rintro ⟨parent, hparent, hnode, rfl⟩
    simp only [entry, hparent, hnode]

theorem isDirectory_iff :
    isDirectory t place = true ↔ ∃ writable, t[place]? = some (.directory writable) := by
  unfold isDirectory
  split
  · rename_i writable hnode
    exact ⟨fun _ => ⟨writable, hnode⟩, fun _ => rfl⟩
  · rename_i hother
    exact ⟨nofun, fun ⟨writable, hnode⟩ => (hother writable hnode).elim⟩

theorem Pruned.walkFrom_eq (h : Pruned t' t) {path : List String}
    (hparent : resolve t' path = some parent) (hnode : t'[parent]? = some (.directory writable)) :
    walkFrom t maxLinks [] path = walkFrom t' maxLinks [] path := by
  refine walkFrom_congr maxLinks [] path fun place hplace => ?_
  obtain hsame | hleaf := h place
  · exact .inl hsame.symm
  · obtain hnot | rfl := walkFrom_trail maxLinks [] path hparent place hplace
    · exact (hnot hleaf).elim
    · rw [hnode] at hleaf
      exact hleaf.elim

theorem Pruned.get_directory (h : Pruned t' t) (hnode : t'[place]? = some (.directory writable)) :
    t[place]? = some (.directory writable) := by
  obtain hsame | hleaf := h place
  · rw [← hsame, hnode]
  · rw [hnode] at hleaf
    exact hleaf.elim

theorem Pruned.entry (h : Pruned t' t) (hentry : entry t' dir name = some (place, writable)) :
    FileTree.entry t dir name = some (place, writable) := by
  obtain ⟨parent, hparent, hnode, rfl⟩ := entry_eq_some.mp hentry
  refine entry_eq_some.mpr ⟨parent, ?_, h.get_directory hnode, rfl⟩
  rw [resolve, h.walkFrom_eq hparent hnode]
  exact hparent

theorem Pruned.refl (t : Tree α) : Pruned t t := fun _ => .inl rfl

theorem Pruned.trans {t'' : Tree α} (h : Pruned t'' t') (h' : Pruned t' t) : Pruned t'' t := by
  intro place
  obtain hsame | hleaf := h place
  · obtain hsame' | hleaf' := h' place
    · exact .inl (hsame.trans hsame')
    · exact .inr (hsame ▸ hleaf')
  · exact .inr hleaf

theorem pruned_erase (t : Tree α) (place : Location) : Pruned (t.erase place) t := by
  intro other
  rw [ExtTreeMap.getElem?_erase]
  split
  · exact .inr trivial
  · exact .inl rfl

theorem pruned_file (t : Tree α) (place : Location) (content : α) (writable : Bool) :
    Pruned (t.insert place (.file content writable)) t := by
  intro other
  rw [ExtTreeMap.getElem?_insert]
  split
  · exact .inr trivial
  · exact .inl rfl

theorem Same.symm (h : Same t t' place) : Same t' t place :=
  h.imp Eq.symm And.symm

/-- A path to a directory is found in `t'` as in `t` if nothing on its route is
changed. -/
theorem entry_of_route (hentry : entry t dir name = some (place, writable))
    (h : ∀ other ∈ route t dir, ¬Leaf t[other]? → t'[other]? = t[other]?) :
    entry t' dir name = some (place, writable) ∧ route t' dir = route t dir := by
  obtain ⟨parent, hparent, hnode, rfl⟩ := entry_eq_some.mp hentry
  have hdirectory : ¬Leaf t[parent]? := by rw [hnode]; exact id
  have hwalk : walkFrom t' maxLinks [] dir = walkFrom t maxLinks [] dir := by
    refine walkFrom_congr maxLinks [] dir fun other hother => .inl ?_
    refine h other (List.mem_append_left _ hother) ?_
    obtain hnot | rfl := walkFrom_trail maxLinks [] dir hparent other hother
    · exact hnot
    · exact hdirectory
  have hreached : parent ∈ route t dir := by
    refine List.mem_append_right _ ?_
    rw [hparent]
    exact List.mem_singleton.mpr rfl
  constructor
  · refine entry_eq_some.mpr ⟨parent, ?_, ?_, rfl⟩
    · rw [resolve, hwalk]
      exact hparent
    · rw [h parent hreached hdirectory, hnode]
  · rw [route, route, passed, passed, resolve, resolve, hwalk]

theorem Pruned.route (h : Pruned t' t)
    (hentry : FileTree.entry t' dir name = some (place, writable)) :
    FileTree.route t' dir = FileTree.route t dir ∧
      ∀ other ∈ FileTree.route t' dir, ¬Leaf t'[other]? := by
  obtain ⟨parent, hparent, hnode, rfl⟩ := entry_eq_some.mp hentry
  have hdirectory : ¬Leaf t'[parent]? := by rw [hnode]; exact id
  have hwalk := h.walkFrom_eq hparent hnode
  constructor
  · rw [FileTree.route, FileTree.route, passed, passed, resolve, resolve, hwalk]
  · intro other hother
    obtain hother | hother := List.mem_append.mp hother
    · obtain hnot | rfl := walkFrom_trail maxLinks [] dir hparent other hother
      · exact hnot
      · exact hdirectory
    · rw [hparent] at hother
      rwa [List.mem_singleton.mp hother]

theorem resolve_of_same (h : ∀ place, Same t t' place) (path : List String) :
    resolve t' path = resolve t path := by
  rw [resolve, walkFrom_congr maxLinks [] path fun place _ => h place, resolve]

theorem Same.get_directory (h : Same t t' place) (hnode : t[place]? = some (.directory writable)) :
    t'[place]? = some (.directory writable) := by
  obtain hsame | ⟨hleaf, -⟩ := h
  · rw [hsame, hnode]
  · rw [hnode] at hleaf
    exact hleaf.elim

theorem entry_of_same (h : ∀ place, Same t t' place) (dir : List String) (name : String) :
    entry t' dir name = entry t dir name := by
  refine Option.ext fun ⟨place, writable⟩ => ?_
  rw [entry_eq_some, entry_eq_some, resolve_of_same h]
  constructor
  · rintro ⟨parent, hparent, hnode, hplace⟩
    exact ⟨parent, hparent, (h parent).symm.get_directory hnode, hplace⟩
  · rintro ⟨parent, hparent, hnode, hplace⟩
    exact ⟨parent, hparent, (h parent).get_directory hnode, hplace⟩

theorem locate_of_not_link (hentry : entry t dir name = some (place, writable))
    (hnode : ∀ absolute target, t[place]? ≠ some (.link absolute target)) :
    locate t dir name = some place := by
  simp only [locate, hentry]

theorem locate_of_link (hentry : entry t dir name = some (place, writable)) {absolute : Bool}
    {target : List String} (hnode : t[place]? = some (.link absolute target)) :
    locate t dir name = resolve t (dir ++ [name]) := by
  simp only [locate, hentry, hnode]

theorem leaf_ne_link {node : Option (Node α)} (h : Leaf node) (absolute : Bool)
    (target : List String) : node ≠ some (.link absolute target) := by
  rintro rfl
  exact h

theorem entry_of_readFile {content : α} (h : readFile t dir name = some content) :
    ∃ place writable, entry t dir name = some (place, writable) := by
  obtain ⟨_, hlocate, -⟩ := Option.bind_eq_some_iff.mp h
  cases hentry : entry t dir name with
  | none => simp only [locate, hentry, reduceCtorEq] at hlocate
  | some found => exact ⟨found.1, found.2, rfl⟩

theorem readFile_of_leaf (hentry : entry t dir name = some (place, writable))
    (hleaf : Leaf t[place]?) : readFile t dir name = contentOf t[place]? := by
  rw [readFile, locate_of_not_link hentry (leaf_ne_link hleaf), Option.bind_some]

theorem locate_of_file {mode : Bool} {content : α}
    (hentry : entry t dir name = some (place, writable))
    (hnode : t[place]? = some (.file content mode)) :
    locate t dir name = some place ∧ readFile t dir name = some content := by
  have hleaf : Leaf t[place]? := by rw [hnode]; trivial
  refine ⟨locate_of_not_link hentry (leaf_ne_link hleaf), ?_⟩
  rw [readFile_of_leaf hentry hleaf, hnode, contentOf]

theorem locate_of_same (h : ∀ place, Same t t' place) (dir : List String) (name : String) :
    locate t' dir name = locate t dir name := by
  cases hentry : entry t dir name with
  | none => simp only [locate, entry_of_same h, hentry]
  | some found =>
    obtain ⟨place, writable⟩ := found
    have hentry' := (entry_of_same h dir name).trans hentry
    obtain hsame | ⟨hleaf, hleaf'⟩ := h place
    · simp only [locate, hentry, hentry', hsame, resolve_of_same h]
    · rw [locate_of_not_link hentry (leaf_ne_link hleaf),
        locate_of_not_link hentry' (leaf_ne_link hleaf')]

theorem same_file (h : Leaf t[place]?) (content : α) (writable : Bool) (other : Location) :
    Same t (t.insert place (.file content writable)) other := by
  rw [Same, ExtTreeMap.getElem?_insert]
  split
  · rename_i hcmp
    rw [← Std.compare_eq_iff_eq.mp hcmp]
    exact .inr ⟨h, trivial⟩
  · exact .inl rfl

end FileTree

export FileTree (Tree)

end MacMu
