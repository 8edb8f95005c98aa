import MacMu.Lib.FileCalls
import Mathlib.Data.List.Induction

/-!
Whole subtrees of a file system: removal, renaming, copying. A subtree is what a
tree has at a location and below it. A path is a list of names as it is written: an
empty name at its end is a slash there. Permissions are not looked at, and whether
two locations are on one volume is given to a rename.
-/

namespace MacMu
namespace FileTree

open Std

universe u
variable {α : Type u}

/-- What is at a location and below it, by the names from there on. -/
def subtree (t : Tree α) (place : Location) : Location → Option (Node α) :=
  fun names => t[place ++ names]?

/-- Takes away a location and all below it, except for what leads to the locations
in `left`. -/
def removeTree (t : Tree α) (place : Location) (left : List Location) : Tree α :=
  t.filter fun other _ => !place.isPrefixOf other || left.any other.isPrefixOf

def entriesUnder (t : Tree α) (place : Location) : List (Location × Node α) :=
  t.toList.filterMap fun e =>
    if place.isPrefixOf e.1 then some (e.1.drop place.length, e.2) else none

def graft (t : Tree α) (place : Location) (entries : List (Location × Node α)) : Tree α :=
  entries.foldl (fun t e => t.insert (place ++ e.1) e.2) t

def moveTree (t : Tree α) (source target : Location) : Tree α :=
  graft (removeTree (removeTree t source []) target []) target (entriesUnder t source)

/-- `.`, `..` and the empty name are no names of entries. -/
def Proper (name : String) : Prop := ¬(name = "" ∨ name = ".") ∧ name ≠ ".."

instance (name : String) : Decidable (Proper name) := inferInstanceAs (Decidable (_ ∧ _))

def withoutSlash (path : List String) : List String :=
  (path.reverse.dropWhile (· = "")).reverse

/-- The entry that a path names for `rename`. A link is followed if a slash comes
after it. -/
def operand (t : Tree α) (path : List String) : Option Location :=
  match (withoutSlash path).getLast? with
  | none => none
  | some name =>
    if Proper name then
      if withoutSlash path = path then (entry t path.dropLast name).map Prod.fst
      else locate t (withoutSlash path).dropLast name
    else none

inductive Renamed (α : Type u) where
  | done (tree : Tree α)
  | crossDevice
  | failed

/-- Whether what is at `source` can take the place of what is at `target`. -/
def fits (t : Tree α) (source target : Location) : Bool :=
  match t[source]?, t[target]? with
  | none, _ => false
  | some _, none => true
  | some (.directory _), some (.directory _) => !hasEntries t target
  | some (.directory _), some _ => false
  | some _, some (.directory _) => false
  | some _, some _ => true

/-- `rename`, which does not follow the last names. -/
def rename (t : Tree α) (old new : List String) (crossVolume : Bool) : Renamed α :=
  match operand t old, operand t new with
  | some source, some target =>
    if t[source]?.isNone then .failed
    else if crossVolume then .crossDevice
    else if source = target then .done t
    else if source.isPrefixOf target || target.isPrefixOf source then .failed
    else if fits t source target then .done (moveTree t source target)
    else .failed
  | _, _ => .failed

/-- Nothing that is copied meets a node of another kind. A link in the way is never
overwritten. -/
def copyFits (t : Tree α) (source target : Location) : Bool :=
  (entriesUnder t source).all fun e =>
    match e.2, t[target ++ e.1]? with
    | _, none => true
    | .directory _, some (.directory _) => true
    | .file .., some (.file ..) => true
    | _, _ => false

/-- A recursive copy that overwrites files and copies links. What is already at the
target stays. -/
def copyTree (t : Tree α) (old new : List String) : Option (Tree α) :=
  match operand t old, operand t new with
  | some source, some target =>
    if t[source]?.isSome && copyFits t source target then
      some (graft t target (entriesUnder t source))
    else none
  | _, _ => none

/-- `remove_all` of an entry, which fails if something is left. -/
def removeAll (t : Tree α) (dir : List String) (name : String) (left : List Location) : Tree α :=
  match entry t dir name with
  | none => t
  | some (place, _) => removeTree t place (left.map (place ++ ·))

def pathExists (t : Tree α) (path : List String) : Bool :=
  (resolve t path).any fun place => t[place]?.isSome

def leadsToDirectory (t : Tree α) (path : List String) : Bool :=
  (resolve t path).any (isDirectory t)

/-- Makes the directories that are missing; the names in `done` lead to a directory. -/
def makeMissing (t : Tree α) (done : List String) : List String → Bool × Tree α
  | [] => (true, t)
  | name :: rest =>
    if leadsToDirectory t (done ++ [name]) then makeMissing t (done ++ [name]) rest
    else
      match entry t done name with
      | none => (false, t)
      | some (place, _) =>
        if t[place]?.isNone then
          makeMissing (t.insert place (.directory true)) (done ++ [name]) rest
        else (false, t)

/-- `create_directories`, which first looks where the whole path leads. -/
def makeDirectories (t : Tree α) (path : List String) : Bool × Tree α :=
  if leadsToDirectory t path then (true, t) else makeMissing t [] path

/-- Makes the directories of one path after another, until one cannot be made. -/
def makeAll (t : Tree α) : List (List String) → Bool × Tree α
  | [] => (true, t)
  | path :: rest =>
    match makeDirectories t path with
    | (true, made) => makeAll made rest
    | (false, made) => (false, made)

def Apart (a b : Location) : Prop := ¬a <+: b ∧ ¬b <+: a

instance (a b : Location) : Decidable (Apart a b) := inferInstanceAs (Decidable (_ ∧ _))

section Get

variable (t : Tree α) {place other : Location}

theorem get_removeTree (left : List Location) :
    (removeTree t place left)[other]? =
      if place <+: other ∧ ∀ kept ∈ left, ¬other <+: kept then none else t[other]? := by
  have hkeeps : (!place.isPrefixOf other || left.any other.isPrefixOf) = true ↔
      ¬(place <+: other ∧ ∀ kept ∈ left, ¬other <+: kept) := by
    simp only [Bool.or_eq_true, Bool.not_eq_true', ← Bool.not_eq_true, List.any_eq_true,
      List.isPrefixOf_iff_prefix]
    constructor
    · rintro (hnot | ⟨kept, hkept, hleads⟩) ⟨hunder, hnone⟩
      · exact hnot hunder
      · exact hnone kept hkept hleads
    · intro h
      by_cases hunder : place <+: other
      · refine .inr (by_contra fun hnone => h ⟨hunder, fun kept hkept hleads => ?_⟩)
        exact hnone ⟨kept, hkept, hleads⟩
      · exact .inl hunder
  rw [removeTree, ExtTreeMap.getElem?_filter']
  split
  · rename_i hgone
    refine Option.filter_eq_none_iff.mpr fun node _ hnode => ?_
    exact hkeeps.mp hnode hgone
  · rename_i hstays
    cases hnode : t[other]? with
    | none => rfl
    | some node => rw [Option.filter_some, if_pos (hkeeps.mpr hstays)]

theorem get_removeTree_nil :
    (removeTree t place [])[other]? = if place <+: other then none else t[other]? := by
  rw [get_removeTree]
  simp only [List.not_mem_nil, false_implies, implies_true, and_true]

theorem mem_entriesUnder {names : Location} {node : Node α} :
    (names, node) ∈ entriesUnder t place ↔ t[place ++ names]? = some node := by
  rw [entriesUnder, List.mem_filterMap]
  constructor
  · rintro ⟨⟨key, value⟩, hmem, hsome⟩
    dsimp only at hsome
    split at hsome <;> cases hsome
    rename_i hunder
    obtain ⟨rest, rfl⟩ := List.isPrefixOf_iff_prefix.mp hunder
    rw [List.drop_left]
    exact ExtTreeMap.mem_toList_iff_getElem?_eq_some.mp hmem
  · intro hnode
    refine ⟨(place ++ names, node), ExtTreeMap.mem_toList_iff_getElem?_eq_some.mpr hnode, ?_⟩
    dsimp only
    rw [if_pos (List.isPrefixOf_iff_prefix.mpr (List.prefix_append _ _)), List.drop_left]

theorem get_graft_of_forall {entries : List (Location × Node α)}
    (h : ∀ e ∈ entries, place ++ e.1 ≠ other) : (graft t place entries)[other]? = t[other]? := by
  induction entries generalizing t with
  | nil => rfl
  | cons e rest ih =>
    obtain ⟨hne, hrest⟩ := List.forall_mem_cons.mp h
    rw [graft, List.foldl_cons, ← graft, ih _ hrest, ExtTreeMap.getElem?_insert,
      if_neg fun hcmp => hne (Std.compare_eq_iff_eq.mp hcmp)]

theorem get_graft_of_mem {entries : List (Location × Node α)} {names : Location} {node : Node α}
    (hmem : (names, node) ∈ entries) (hone : ∀ node', (names, node') ∈ entries → node' = node) :
    (graft t place entries)[place ++ names]? = some node := by
  induction entries generalizing t with
  | nil => cases hmem
  | cons e rest ih =>
    rw [graft, List.foldl_cons, ← graft]
    by_cases hrest : ∃ node', (names, node') ∈ rest
    · obtain ⟨node', hnode'⟩ := hrest
      have heq : node' = node := hone node' (List.mem_cons_of_mem _ hnode')
      exact ih _ (heq ▸ hnode') fun other hother => hone other (List.mem_cons_of_mem _ hother)
    · have hhead : (names, node) = e :=
        (List.mem_cons.mp hmem).resolve_right fun h => hrest ⟨node, h⟩
      subst hhead
      rw [get_graft_of_forall]
      · exact ExtTreeMap.getElem?_insert_self
      · rintro ⟨names', node'⟩ hmem' heq
        cases List.append_cancel_left heq
        exact hrest ⟨node', hmem'⟩

theorem get_graft_entriesUnder (t' : Tree α) (target : Location) :
    (graft t target (entriesUnder t' place))[other]? =
      if target <+: other then (t'[place ++ other.drop target.length]?).or t[other]?
      else t[other]? := by
  split
  · rename_i hunder
    obtain ⟨names, rfl⟩ := hunder
    rw [List.drop_left]
    cases hnode : t'[place ++ names]? with
    | none =>
      refine get_graft_of_forall t fun e he heq => ?_
      cases List.append_cancel_left heq
      cases hnode.symm.trans ((mem_entriesUnder t').mp he)
    | some node =>
      refine get_graft_of_mem t ((mem_entriesUnder t').mpr hnode) fun node' hnode' => ?_
      exact Option.some.inj (((mem_entriesUnder t').mp hnode').symm.trans hnode)
  · rename_i hunder
    refine get_graft_of_forall t fun e _ heq => hunder ⟨e.1, heq⟩

theorem get_moveTree (source target : Location) :
    (moveTree t source target)[other]? =
      if target <+: other then t[source ++ other.drop target.length]?
      else if source <+: other then none
      else t[other]? := by
  rw [moveTree, get_graft_entriesUnder, get_removeTree_nil, get_removeTree_nil]
  split
  · exact Option.or_none
  · rfl

end Get

section Subtrees

variable (t : Tree α) {a b c : Location}

theorem Apart.symm (h : Apart a b) : Apart b a := ⟨h.2, h.1⟩

theorem Apart.not_prefix_append (h : Apart a b) (names : Location) : ¬a <+: b ++ names := by
  intro hprefixed
  rcases List.prefix_or_prefix_of_prefix hprefixed (List.prefix_append b names) with hab | hba
  · exact h.1 hab
  · exact h.2 hba

theorem apart_of_names (place : Location) {x y : String} (h : x ≠ y) :
    Apart (place ++ [x]) (place ++ [y]) := by
  have hone : ∀ x y : String, x ≠ y → ¬place ++ [x] <+: place ++ [y] := by
    intro x y hne hprefixed
    have hsingle := (List.prefix_append_right_inj place).mp hprefixed
    exact hne (List.cons_prefix_cons.mp hsingle).1
  exact ⟨hone x y h, hone y x h.symm⟩

theorem subtree_removeTree_self (left : List Location) :
    subtree (removeTree t a (left.map (a ++ ·))) a = fun names =>
      if ∃ kept ∈ left, names <+: kept then subtree t a names else none := by
  funext names
  have hleads : (∀ kept ∈ left.map (a ++ ·), ¬a ++ names <+: kept) ↔
      ¬∃ kept ∈ left, names <+: kept := by
    simp only [List.forall_mem_map, List.prefix_append_right_inj, not_exists, not_and]
  rw [subtree, get_removeTree]
  simp only [List.prefix_append, true_and, hleads, ite_not]
  rfl

theorem subtree_removeTree_apart (h : Apart a b) (left : List Location) :
    subtree (removeTree t a left) b = subtree t b := by
  funext names
  rw [subtree, get_removeTree, if_neg fun hgone => h.not_prefix_append names hgone.1]
  rfl

theorem subtree_moveTree_target : subtree (moveTree t a b) b = subtree t a := by
  funext names
  rw [subtree, get_moveTree, if_pos (List.prefix_append b names), List.drop_left]
  rfl

theorem subtree_moveTree_source (h : Apart a b) : subtree (moveTree t a b) a = fun _ => none := by
  funext names
  rw [subtree, get_moveTree, if_neg (h.symm.not_prefix_append names),
    if_pos (List.prefix_append a names)]

theorem subtree_moveTree_apart (ha : Apart a c) (hb : Apart b c) :
    subtree (moveTree t a b) c = subtree t c := by
  funext names
  rw [subtree, get_moveTree, if_neg (hb.not_prefix_append names),
    if_neg (ha.not_prefix_append names)]
  rfl

theorem subtree_graft_entriesUnder : subtree (graft t b (entriesUnder t a)) b = fun names =>
    (subtree t a names).or (subtree t b names) := by
  funext names
  rw [subtree, get_graft_entriesUnder, if_pos (List.prefix_append b names), List.drop_left]
  rfl

theorem subtree_graft_apart (h : Apart b c) (entries : List (Location × Node α)) :
    subtree (graft t b entries) c = subtree t c := by
  funext names
  refine get_graft_of_forall t fun e _ heq => h.not_prefix_append names ?_
  exact ⟨e.1, heq⟩

theorem hasEntries_eq_false :
    hasEntries t a = false ↔ ∀ names, names ≠ [] → subtree t a names = none := by
  rw [hasEntries, List.any_eq_false]
  constructor
  · intro h names hne
    by_contra hsome
    obtain ⟨node, hnode⟩ := Option.ne_none_iff_exists'.mp hsome
    refine h (a ++ names) (ExtTreeMap.mem_keys.mpr ?_) ?_
    · exact ExtTreeMap.mem_iff_isSome_getElem?.mpr (Option.isSome_of_eq_some hnode)
    · simp [hne]
  · intro h key hkey hunder
    obtain ⟨hprefixed, hne⟩ := Bool.and_eq_true_iff.mp hunder
    obtain ⟨names, rfl⟩ := List.isPrefixOf_iff_prefix.mp hprefixed
    have hnames : names ≠ [] := by
      rintro rfl
      simp at hne
    have hsome := ExtTreeMap.mem_iff_isSome_getElem?.mp (ExtTreeMap.mem_keys.mp hkey)
    have hnone : t[a ++ names]? = none := h names hnames
    rw [hnone] at hsome
    cases hsome

end Subtrees

section Paths

variable {t t' : Tree α} {dir : List String} {name : String} {place : Location} {writable : Bool}

theorem withoutSlash_snoc (h : name ≠ "") : withoutSlash (dir ++ [name]) = dir ++ [name] := by
  rw [withoutSlash, List.reverse_append, List.reverse_singleton, List.singleton_append,
    List.dropWhile_cons_of_neg (by simpa using h), List.reverse_cons, List.reverse_reverse]

theorem withoutSlash_slash (path : List String) :
    withoutSlash (path ++ [""]) = withoutSlash path := by
  rw [withoutSlash, List.reverse_append, List.reverse_singleton, List.singleton_append,
    List.dropWhile_cons_of_pos (by simp), withoutSlash]

theorem length_withoutSlash_le (path : List String) : (withoutSlash path).length ≤ path.length := by
  have hle := (List.dropWhile_sublist (· = "") (l := path.reverse)).length_le
  rw [List.length_reverse] at hle
  rw [withoutSlash, List.length_reverse]
  exact hle

theorem operand_snoc (h : Proper name) :
    operand t (dir ++ [name]) = (entry t dir name).map Prod.fst := by
  have hslash : withoutSlash (dir ++ [name]) = dir ++ [name] :=
    withoutSlash_snoc fun hempty => h.1 (.inl hempty)
  simp only [operand, hslash, List.getLast?_concat, if_pos h, if_true, List.dropLast_concat]

theorem pathExists_snoc (h : Proper name) (hentry : entry t dir name = some (place, writable))
    (hnode : ∀ absolute target, t[place]? ≠ some (.link absolute target)) :
    pathExists t (dir ++ [name]) = t[place]?.isSome := by
  obtain ⟨parent, hparent, hdirectory, rfl⟩ := entry_eq_some.mp hentry
  rw [pathExists, resolve_snoc h.1 h.2 hparent hdirectory hnode]
  rfl

theorem readFile_snoc (h : Proper name) (hentry : entry t dir name = some (place, writable))
    {w : Bool} (hnode : t[place]? = some (.directory w)) {file : String} {content : α} {mode : Bool}
    (hfile : t[place ++ [file]]? = some (.file content mode)) :
    readFile t (dir ++ [name]) file = some content := by
  obtain ⟨parent, hparent, hdirectory, rfl⟩ := entry_eq_some.mp hentry
  have hresolve : resolve t (dir ++ [name]) = some (parent ++ [name]) :=
    resolve_snoc h.1 h.2 hparent hdirectory fun absolute target hlink => by
      cases hnode.symm.trans hlink
  exact (locate_of_file (entry_eq_some.mpr ⟨_, hresolve, hnode, rfl⟩) hfile).2

def Grows (t t' : Tree α) : Prop :=
  ∀ place : Location, ∀ node, t[place]? = some node → t'[place]? = some node

theorem Grows.pruned (h : Grows t t') : Pruned t t' := by
  intro place
  cases hnode : t[place]? with
  | none => exact .inr trivial
  | some node => exact .inl (h place node hnode).symm

theorem makeMissing_grows (done rest : List String) : Grows t (makeMissing t done rest).2 := by
  induction rest generalizing t done with
  | nil => exact fun _ _ => id
  | cons name rest ih =>
    intro other node hnode
    unfold makeMissing
    split
    · exact ih _ other node hnode
    · split
      · exact hnode
      · rename_i place writable hentry
        split
        · rename_i habsent
          refine ih _ other node ?_
          have hne : place ≠ other := by
            rintro rfl
            rw [hnode] at habsent
            cases habsent
          rw [ExtTreeMap.getElem?_insert, if_neg fun hcmp => hne (Std.compare_eq_iff_eq.mp hcmp)]
          exact hnode
        · exact hnode

theorem Grows.refl (t : Tree α) : Grows t t := fun _ _ => id

theorem Grows.trans {t'' : Tree α} (h : Grows t t') (h' : Grows t' t'') : Grows t t'' :=
  fun place node hnode => h' place node (h place node hnode)

theorem makeDirectories_grows (path : List String) : Grows t (makeDirectories t path).2 := by
  unfold makeDirectories
  split
  · exact Grows.refl t
  · exact makeMissing_grows [] path

theorem makeAll_grows (paths : List (List String)) : Grows t (makeAll t paths).2 := by
  induction paths generalizing t with
  | nil => exact Grows.refl t
  | cons path rest ih =>
    have hgrows := makeDirectories_grows (t := t) path
    unfold makeAll
    split
    · rename_i made hmade
      rw [hmade] at hgrows
      exact hgrows.trans ih
    · rename_i made hmade
      rw [hmade] at hgrows
      exact hgrows

theorem makeAll_cons {path : List String} {rest : List (List String)} {made : Tree α}
    (h : makeAll t (path :: rest) = (true, made)) : ∃ next,
    makeDirectories t path = (true, next) ∧ makeAll next rest = (true, made) := by
  unfold makeAll at h
  split at h
  · rename_i next hnext
    exact ⟨next, hnext, h⟩
  · cases h

theorem makeAll_of_leads {paths : List (List String)}
    (h : ∀ path ∈ paths, leadsToDirectory t path = true) : makeAll t paths = (true, t) := by
  induction paths with
  | nil => rfl
  | cons path rest ih =>
    obtain ⟨hpath, hrest⟩ := List.forall_mem_cons.mp h
    rw [makeAll, makeDirectories, if_pos hpath]
    exact ih hrest

theorem entry_of_not_leads {dir : List String} (h : leadsToDirectory t dir = false)
    (name : String) : entry t dir name = none := by
  unfold entry
  unfold leadsToDirectory at h
  cases hresolve : resolve t dir with
  | none => rfl
  | some parent =>
    rw [hresolve] at h
    have hnot : isDirectory t parent = false := h
    unfold isDirectory at hnot
    dsimp only
    split
    · rename_i w hnode
      rw [hnode] at hnot
      cases hnot
    · rfl

theorem makeMissing_append {done first rest : List String} {made : Tree α}
    (h : makeMissing t done (first ++ rest) = (true, made)) : ∃ halfway,
    makeMissing t done first = (true, halfway) ∧
      makeMissing halfway (done ++ first) rest = (true, made) := by
  induction first generalizing t done with
  | nil =>
    rw [List.append_nil]
    exact ⟨t, rfl, h⟩
  | cons name first ih =>
    have hassoc : done ++ name :: first = done ++ [name] ++ first := by
      rw [List.append_assoc, List.singleton_append]
    rw [List.cons_append, makeMissing] at h
    rw [makeMissing, hassoc]
    split
    · rename_i hleads
      rw [if_pos hleads] at h
      exact ih h
    · rename_i hleads
      rw [if_neg hleads] at h
      split
      · rename_i hentry
        rw [hentry] at h
        cases h
      · rename_i place writable hentry
        rw [hentry] at h
        dsimp only at h
        split
        · rename_i habsent
          rw [if_pos habsent] at h
          exact ih h
        · rename_i habsent
          rw [if_neg habsent] at h
          cases h

theorem walk_of_slash {onLink : Location → List String → Walk}
    (hlink : ∀ here path place, (onLink here (path ++ [""])).result = some place →
      (onLink here path).result = some place)
    (here : Location) (path : List String) {place : Location}
    (h : (walk t onLink here (path ++ [""])).result = some place) :
    (walk t onLink here path).result = some place := by
  induction path generalizing here with
  | nil =>
    rw [List.nil_append, walk, if_pos (.inl rfl)] at h
    exact h
  | cons name rest ih =>
    rw [List.cons_append] at h
    by_cases hplain : name = "" ∨ name = "."
    · rw [walk, if_pos hplain] at h ⊢
      exact ih here h
    by_cases hup : name = ".."
    · rw [walk, if_neg hplain, if_pos hup] at h ⊢
      exact ih _ h
    obtain hleaf | ⟨w, hnode⟩ | ⟨absolute, target, hnode⟩ := leaf_or t[here ++ [name]]?
    · rw [walk_leaf hplain hup hleaf] at h
      dsimp only at h
      rw [if_neg (by simp)] at h
      cases h
    · rw [walk_directory hplain hup hnode] at h ⊢
      exact ih _ h
    · rw [walk_link hplain hup hnode] at h ⊢
      refine hlink _ _ _ ?_
      rw [List.append_assoc]
      exact h

theorem resolve_of_slash {path : List String} (h : resolve t (path ++ [""]) = some place) :
    resolve t path = some place := by
  have hwalk : ∀ links here path place, (walkFrom t links here (path ++ [""])).result = some place →
      (walkFrom t links here path).result = some place := by
    intro links
    induction links with
    | zero => exact fun here path place => walk_of_slash (fun _ _ _ => id) here path
    | succ links ih => exact fun here path place => walk_of_slash ih here path
  exact hwalk maxLinks [] path place h

theorem resolve_withoutSlash {path : List String} (h : resolve t path = some place) :
    resolve t (withoutSlash path) = some place := by
  induction path using List.reverseRecOn with
  | nil => exact h
  | append_singleton path name ih =>
    by_cases hname : name = ""
    · subst hname
      rw [withoutSlash_slash]
      exact ih (resolve_of_slash h)
    · rw [withoutSlash_snoc hname]
      exact h

theorem operand_slash {path : List String} {found : Location}
    (hoperand : operand t (path ++ [""]) = some found) (hresolve : resolve t path = some place) :
    found = place := by
  have hcore := resolve_withoutSlash hresolve
  have hne : withoutSlash path ≠ path ++ [""] := by
    intro heq
    have hlength := congrArg List.length heq
    rw [List.length_append, List.length_singleton] at hlength
    have hle := length_withoutSlash_le path
    omega
  unfold operand at hoperand
  rw [withoutSlash_slash] at hoperand
  cases hlast : (withoutSlash path).getLast? with
  | none =>
    rw [hlast] at hoperand
    cases hoperand
  | some name =>
    rw [hlast] at hoperand
    dsimp only at hoperand
    split at hoperand
    · rename_i hproper
      obtain ⟨dir, hdir⟩ := List.getLast?_eq_some_iff.mp hlast
      rw [hdir] at hcore
      rw [hdir, List.dropLast_concat] at hoperand
      cases hentry : entry t dir name with
      | none => simp [locate, hentry] at hoperand
      | some entered =>
        obtain ⟨entered, w⟩ := entered
        obtain ⟨parent, hparent, hdirectory, rfl⟩ := entry_eq_some.mp hentry
        by_cases hlink : ∃ absolute target, t[parent ++ [name]]? = some (.link absolute target)
        · obtain ⟨absolute, target, hnode⟩ := hlink
          rw [locate_of_link hentry hnode] at hoperand
          exact Option.some.inj (hoperand.symm.trans hcore)
        · have hnode : ∀ absolute target, t[parent ++ [name]]? ≠ some (.link absolute target) :=
            fun absolute target heq => hlink ⟨absolute, target, heq⟩
          rw [locate_of_not_link hentry hnode] at hoperand
          rw [resolve_snoc hproper.1 hproper.2 hparent hdirectory hnode] at hcore
          exact Option.some.inj (hoperand.symm.trans hcore)
    · cases hoperand

end Paths

end FileTree
end MacMu
