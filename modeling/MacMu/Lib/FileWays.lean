import MacMu.Lib.FileMoves

/-!
The way a path takes through a tree, and what leaves it as it is. A walk that ends
takes the same way if it may follow more links, a path whose last name is a link goes
on as the target of the link does, and a change beside the way is not seen.
-/

namespace MacMu
namespace FileTree

open Std

universe u
variable {α : Type u} {t t' : Tree α}

theorem walk_more {onLink onLink' : Location → List String → Walk}
    (hlink : ∀ here path place, (onLink here path).result = some place →
      onLink' here path = onLink here path)
    (here : Location) (path : List String) {place : Location}
    (h : (walk t onLink here path).result = some place) :
    walk t onLink' here path = walk t onLink here path := by
  induction path generalizing here with
  | nil => rfl
  | cons name rest ih =>
    by_cases hplain : name = "" ∨ name = "."
    · rw [walk, if_pos hplain] at h
      rw [walk, walk, if_pos hplain, if_pos hplain]
      exact ih here h
    by_cases hup : name = ".."
    · rw [walk, if_neg hplain, if_pos hup] at h
      rw [walk, walk, if_neg hplain, if_neg hplain, if_pos hup, if_pos hup]
      exact ih _ h
    obtain hleaf | ⟨writable, hnode⟩ | ⟨absolute, target, hnode⟩ := leaf_or t[here ++ [name]]?
    · rw [walk_leaf hplain hup hleaf, walk_leaf hplain hup hleaf]
    · rw [walk_directory hplain hup hnode] at h
      rw [walk_directory hplain hup hnode, walk_directory hplain hup hnode, ih _ h]
    · rw [walk_link hplain hup hnode] at h
      rw [walk_link hplain hup hnode, walk_link hplain hup hnode, hlink _ _ _ h]

theorem walkFrom_succ (links : Nat) (here : Location) (path : List String) {place : Location}
    (h : (walkFrom t links here path).result = some place) :
    walkFrom t (links + 1) here path = walkFrom t links here path := by
  induction links generalizing here path place with
  | zero =>
    refine walk_more (fun _ _ _ hnone => ?_) here path h
    cases hnone
  | succ links ih => exact walk_more (fun here path place => ih here path) here path h

theorem walkFrom_more {links more : Nat} (hle : links ≤ more) {here : Location}
    {path : List String} {place : Location} (h : (walkFrom t links here path).result = some place) :
    walkFrom t more here path = walkFrom t links here path := by
  induction hle with
  | refl => rfl
  | step hle ih => rw [walkFrom_succ _ here path (ih.symm ▸ h), ih]

section SnocLink

variable {name : String} {parent : Location} {absolute : Bool} {target : List String}

theorem walk_snoc_link {onLink : Location → List String → Walk} {P : Location → Walk → Prop}
    (hproper : Proper name) {writable : Bool} (hparent : t[parent]? = some (.directory writable))
    (hnode : t[parent ++ [name]]? = some (.link absolute target))
    (hend : ∀ place, (onLink (if absolute then [] else parent) target).result = some place →
      P place (onLink (if absolute then [] else parent) target))
    (hlink : ∀ here path place, (onLink here path).result = some parent →
      (onLink here (path ++ [name])).result = some place → ∃ next, P place next ∧
        (onLink here (path ++ [name])).trail =
          (onLink here path).trail ++ (parent ++ [name]) :: next.trail)
    (here : Location) (path : List String) {place : Location}
    (h : (walk t onLink here path).result = some parent)
    (hplace : (walk t onLink here (path ++ [name])).result = some place) :
    ∃ next, P place next ∧ (walk t onLink here (path ++ [name])).trail =
      (walk t onLink here path).trail ++ (parent ++ [name]) :: next.trail := by
  induction path generalizing here with
  | nil =>
    cases h
    rw [List.nil_append, walk_link hproper.1 hproper.2 hnode, List.append_nil] at hplace ⊢
    exact ⟨_, hend place hplace, rfl⟩
  | cons first rest ih =>
    rw [List.cons_append] at hplace ⊢
    by_cases hplain : first = "" ∨ first = "."
    · simp only [walk, if_pos hplain] at h hplace ⊢
      exact ih here h hplace
    by_cases hup : first = ".."
    · simp only [walk, if_neg hplain, if_pos hup] at h hplace ⊢
      exact ih _ h hplace
    obtain hleaf | ⟨w, hfirst⟩ | ⟨absolute', target', hfirst⟩ := leaf_or t[here ++ [first]]?
    · rw [walk_leaf hplain hup hleaf] at h
      dsimp only at h
      split at h <;> cases h
      rw [hparent] at hleaf
      exact hleaf.elim
    · rw [walk_directory hplain hup hfirst] at h hplace ⊢
      rw [walk_directory hplain hup hfirst]
      obtain ⟨next, hnext, htrail⟩ := ih _ h hplace
      exact ⟨next, hnext, congrArg (List.cons _) htrail⟩
    · rw [walk_link hplain hup hfirst] at h hplace ⊢
      rw [walk_link hplain hup hfirst]
      rw [← List.append_assoc] at hplace ⊢
      obtain ⟨next, hnext, htrail⟩ := hlink _ _ _ h hplace
      exact ⟨next, hnext, congrArg (List.cons _) htrail⟩

/-- A path whose last name is a link goes on as the target of the link does. -/
theorem resolve_snoc_link {path : List String} {place : Location} (hproper : Proper name)
    (hresolve : resolve t path = some parent) {writable : Bool}
    (hparent : t[parent]? = some (.directory writable))
    (hnode : t[parent ++ [name]]? = some (.link absolute target))
    (hplace : resolve t (path ++ [name]) = some place) :
    (walkFrom t maxLinks (if absolute then [] else parent) target).result = some place ∧
      passed t (path ++ [name]) = passed t path ++ (parent ++ [name]) ::
        (walkFrom t maxLinks (if absolute then [] else parent) target).trail := by
  have hwalk : ∀ links ≤ maxLinks, ∀ here path place,
      (walkFrom t links here path).result = some parent →
      (walkFrom t links here (path ++ [name])).result = some place → ∃ next,
        (next.result = some place ∧
          walkFrom t maxLinks (if absolute then [] else parent) target = next) ∧
        (walkFrom t links here (path ++ [name])).trail =
          (walkFrom t links here path).trail ++ (parent ++ [name]) :: next.trail := by
    intro links
    induction links with
    | zero =>
      intro _ here path place h hplace
      refine walk_snoc_link (P := fun place next => next.result = some place ∧
          walkFrom t maxLinks (if absolute then [] else parent) target = next)
        hproper hparent hnode (fun _ hnone => ?_) (fun _ _ _ hnone => ?_) here path h hplace
      · cases hnone
      · cases hnone
    | succ links ih =>
      intro hle here path place h hplace
      refine walk_snoc_link (P := fun place next => next.result = some place ∧
          walkFrom t maxLinks (if absolute then [] else parent) target = next)
        hproper hparent hnode (fun place hend => ⟨hend, ?_⟩) (ih (Nat.le_of_succ_le hle))
        here path h hplace
      exact walkFrom_more (Nat.le_of_succ_le hle) hend
  obtain ⟨next, ⟨hend, rfl⟩, htrail⟩ := hwalk maxLinks (Nat.le_refl _) [] path place hresolve hplace
  exact ⟨hend, htrail⟩

end SnocLink

section Ways

variable {dir path : List String} {name : String} {place : Location} {writable : Bool}

theorem resolve_of_locate (hproper : Proper name) (h : locate t dir name = some place) :
    resolve t (dir ++ [name]) = some place := by
  unfold locate at h
  split at h
  · cases h
  · rename_i found w hentry
    split at h
    · exact h
    · rename_i hnode
      obtain ⟨parent, hparent, hdirectory, rfl⟩ := entry_eq_some.mp hentry
      cases h
      exact resolve_snoc hproper.1 hproper.2 hparent hdirectory hnode

theorem exists_of_route (h : resolve t path = some place) (hplace : t[place]? ≠ none) :
    ∀ other ∈ route t path, t[other]? ≠ none := by
  intro other hother
  obtain hother | hother := List.mem_append.mp hother
  · obtain hnot | rfl := walkFrom_trail maxLinks [] path h other hother
    · intro hnone
      rw [hnone] at hnot
      exact hnot trivial
    · exact hplace
  · rw [h] at hother
    rwa [List.mem_singleton.mp hother]

theorem mem_route (h : resolve t path = some place) : place ∈ route t path := by
  refine List.mem_append_right _ ?_
  rw [h]
  exact List.mem_singleton.mpr rfl

theorem walkFrom_of_ways (h : ∀ other ∈ route t path, t'[other]? = t[other]?) :
    walkFrom t' maxLinks [] path = walkFrom t maxLinks [] path :=
  walkFrom_congr maxLinks [] path fun other hother => .inl (h other (List.mem_append_left _ hother))

theorem resolve_of_ways (h : ∀ other ∈ route t path, t'[other]? = t[other]?) :
    resolve t' path = resolve t path :=
  congrArg Walk.result (walkFrom_of_ways h)

theorem entry_of_ways (h : ∀ other ∈ route t dir, t'[other]? = t[other]?)
    (hentry : entry t dir name = some (place, writable)) :
    entry t' dir name = some (place, writable) := by
  obtain ⟨parent, hparent, hnode, rfl⟩ := entry_eq_some.mp hentry
  refine entry_eq_some.mpr ⟨parent, ?_, ?_, rfl⟩
  · rw [resolve_of_ways h, hparent]
  · rw [h parent (mem_route hparent), hnode]

theorem locate_of_ways (hproper : Proper name)
    (hdir : ∀ other ∈ route t dir, t'[other]? = t[other]?)
    (hpath : ∀ other ∈ route t (dir ++ [name]), t'[other]? = t[other]?)
    (h : locate t dir name = some place) : locate t' dir name = some place := by
  have hresolve := resolve_of_locate hproper h
  cases hentry : entry t dir name with
  | none => simp only [locate, hentry, reduceCtorEq] at h
  | some found =>
    obtain ⟨found, w⟩ := found
    have hentry' := entry_of_ways hdir hentry
    obtain ⟨parent, hparent, hdirectory, rfl⟩ := entry_eq_some.mp hentry
    by_cases hlink : ∃ absolute target, t[parent ++ [name]]? = some (.link absolute target)
    · obtain ⟨absolute, target, hnode⟩ := hlink
      have hpassed := (resolve_snoc_link hproper hparent hdirectory hnode hresolve).2
      have hmem : parent ++ [name] ∈ route t (dir ++ [name]) := by
        refine List.mem_append_left _ ?_
        rw [hpassed]
        exact List.mem_append_right _ List.mem_cons_self
      rw [locate_of_link hentry' ((hpath _ hmem).trans hnode), resolve_of_ways hpath, hresolve]
    · have hnode : ∀ absolute target, t[parent ++ [name]]? ≠ some (.link absolute target) :=
        fun absolute target hnode => hlink ⟨absolute, target, hnode⟩
      have hplace := locate_of_not_link hentry hnode
      cases h.symm.trans hplace
      refine locate_of_not_link hentry' fun absolute target => ?_
      rw [hpath _ (mem_route hresolve)]
      exact hnode absolute target

theorem leadsToDirectory_iff : leadsToDirectory t path = true ↔
    ∃ place writable, resolve t path = some place ∧ t[place]? = some (.directory writable) := by
  unfold leadsToDirectory
  rw [Option.any_eq_true]
  constructor
  · rintro ⟨place, hplace, hdirectory⟩
    obtain ⟨writable, hnode⟩ := isDirectory_iff.mp hdirectory
    exact ⟨place, writable, hplace, hnode⟩
  · rintro ⟨place, writable, hplace, hnode⟩
    exact ⟨place, hplace, isDirectory_iff.mpr ⟨writable, hnode⟩⟩

theorem leadsToDirectory_of_ways (hway : ∀ other ∈ route t path, t'[other]? = t[other]?)
    (h : leadsToDirectory t path = true) : leadsToDirectory t' path = true := by
  obtain ⟨place, writable, hplace, hnode⟩ := leadsToDirectory_iff.mp h
  refine leadsToDirectory_iff.mpr ⟨place, writable, ?_, ?_⟩
  · rw [resolve_of_ways hway, hplace]
  · rw [hway place (mem_route hplace), hnode]

end Ways

end FileTree
end MacMu
