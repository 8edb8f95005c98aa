import MacMu.Shell.ControlPipeline

/-!
One display as the shell and the emulator see it together. A view holds what the
shell has recorded, what the emulator's table says, and what is on its way
between them in the order of arrival. The invariant says how the three fit: the
last signal on its way tells the table, and when no signal is on its way the
shell knows the table, up to resizes that are not completed. The transitions
below are the changes a view can undergo; which steps of the composition make
which of them is decided elsewhere.
-/

namespace MacMu
namespace DisplayGeometry

inductive Signal where
  | accepted
  | added (geometry : Geometry)
  | removed
  deriving DecidableEq, Repr

inductive Order where
  | add
  | remove
  deriving DecidableEq, Repr

def Positive (g : Geometry) : Prop := 0 < g.width ∧ 0 < g.height ∧ 0 < g.dpi

/-- A display, seen from both ends. `resizes` holds the number and the captured
geometry of each resize that is not completed, `unsent` the captured geometry of
those the running block is still to issue. -/
structure View where
  signals : List Signal
  orders : List Order
  table : Option Geometry
  bound : Prop
  removing : Prop
  profile : Option Geometry
  resizing : Prop
  launching : Prop
  resizes : Nat → Geometry → Prop
  unsent : Geometry → Prop
  followed : Option (Nat × Geometry)
  issued : Nat

namespace View

variable {v v' : View}

/-- The shell knows the table, except for a resize that is under way. A resize
that fails now restores what the table says, or DISPLAY_ADDED has overtaken it. -/
def Agreed (v : View) : Prop :=
  ∃ q, v.table = some q ∧ (v.profile = some q ∨ v.resizing) ∧
    (∀ t g, v.resizes t g → g = q ∨ ∃ n, v.followed = some (n, q) ∧ t < n) ∧
    ∀ g, v.unsent g → g = q

def Told (v : View) : Option Signal → Prop
  | none => v.bound → v.launching ∨ v.Agreed
  | some (.added g) => v.table = some g ∧ Positive g
  | some .accepted | some .removed => False

structure Consistent (v : View) : Prop where
  removedLast : .removed ∉ v.signals.dropLast
  removedEnds : .removed ∈ v.signals → v.orders = [] ∧ v.removing
  removeLast : .remove ∉ v.orders.dropLast
  removeMarked : .remove ∈ v.orders → v.removing
  profiled : v.bound → v.profile.isSome
  resizing : v.resizing → (∃ t g, v.resizes t g) ∨ ∃ g, v.unsent g
  older : ∀ t g, v.resizes t g → t < v.issued
  told : ¬ v.removing → v.Told v.signals.getLast?

theorem Consistent.agree (h : v.Consistent) (hbound : v.bound) (hkept : ¬ v.removing)
    (hsignals : v.signals = []) (hlaunch : ¬ v.launching) (hresizes : ∀ t g, ¬ v.resizes t g)
    (hunsent : ∀ g, ¬ v.unsent g) : ∃ q, v.table = some q ∧ v.profile = some q := by
  have htold := h.told hkept
  rw [hsignals] at htold
  rcases htold hbound with hlaunching | ⟨q, htable, hprofile | hresizing, -⟩
  · exact absurd hlaunching hlaunch
  · exact ⟨q, htable, hprofile⟩
  · rcases h.resizing hresizing with ⟨t, g, hresize⟩ | ⟨g, hg⟩
    · exact absurd hresize (hresizes t g)
    · exact absurd hg (hunsent g)

theorem mem_dropLast_of_sublist {α : Type} {l l' : List α} (h : l'.Sublist l) {a : α}
    (ha : a ∈ l'.dropLast) : a ∈ l.dropLast := by
  have htail := h.reverse.tail
  rw [List.tail_reverse, List.tail_reverse, List.reverse_sublist] at htail
  exact htail.subset ha

theorem Told.of_some {signal : Signal} (h : v.Told (some signal)) (htable : v'.table = v.table) :
    v'.Told (some signal) := by
  match signal with
  | .added g => exact ⟨htable.trans h.1, h.2⟩
  | .accepted | .removed => exact h

theorem Consistent.retell (h : v.Consistent) (hkept : ¬ v.removing) (htable : v'.table = v.table)
    (hsilent : v.Told none → v'.Told none) : v'.Told v.signals.getLast? := by
  have htold := h.told hkept
  cases hlast : v.signals.getLast? with
  | none =>
    rw [hlast] at htold
    exact hsilent htold
  | some signal =>
    rw [hlast] at htold
    exact htold.of_some htable

/-- What is on its way is carried on or dropped, the shell forgets, and the
running block issues its requests. -/
structure Carry (v v' : View) : Prop where
  signals : v'.signals.Sublist v.signals
  last : ¬ v.removing → v'.signals.getLast? = v.signals.getLast?
  orders : v'.orders.Sublist v.orders
  table : ¬ v.removing → v'.table = v.table
  followed : v'.followed = v.followed
  issued : v.issued ≤ v'.issued
  launching : v.launching → v'.launching
  resizes : ∀ t g, v'.resizes t g → v.resizes t g ∨ v.unsent g ∧ t < v'.issued
  unsent : ∀ g, v'.unsent g → v.unsent g
  awaited : (∃ t g, v.resizes t g) ∨ (∃ g, v.unsent g) →
    (∃ t g, v'.resizes t g) ∨ ∃ g, v'.unsent g
  removing : v.removing → v'.removing
  resizing : v'.resizing → v.resizing
  bound : v'.bound → v.bound ∧ v'.profile = v.profile ∧ (v.resizing → v'.resizing)

theorem Carry.refl (v : View) : Carry v v where
  signals := List.Sublist.refl _
  last := fun _ => rfl
  orders := List.Sublist.refl _
  table := fun _ => rfl
  followed := rfl
  issued := Nat.le_refl _
  launching := id
  resizes := fun _ _ => .inl
  unsent := fun _ => id
  awaited := id
  removing := id
  resizing := id
  bound := fun h => ⟨h, rfl, id⟩

theorem Agreed.carry (c : Carry v v') (hkept : ¬ v.removing) (hbound : v'.bound) (h : v.Agreed) :
    v'.Agreed := by
  obtain ⟨q, htable, hknown, hresizes, hunsent⟩ := h
  obtain ⟨-, hprofile, hresizing⟩ := c.bound hbound
  refine ⟨q, (c.table hkept).trans htable, ?_, ?_, fun g hg => hunsent g (c.unsent g hg)⟩
  · rw [hprofile]
    exact hknown.imp id hresizing
  · intro t g hg
    rw [c.followed]
    rcases c.resizes t g hg with hg | ⟨hg, -⟩
    · exact hresizes t g hg
    · exact .inl (hunsent g hg)

theorem Consistent.carry (h : v.Consistent) (c : Carry v v') : v'.Consistent where
  removedLast := fun hmem => h.removedLast (mem_dropLast_of_sublist c.signals hmem)
  removedEnds := by
    intro hmem
    obtain ⟨horders, hremoving⟩ := h.removedEnds (c.signals.subset hmem)
    refine ⟨List.sublist_nil.mp ?_, c.removing hremoving⟩
    rw [← horders]
    exact c.orders
  removeLast := fun hmem => h.removeLast (mem_dropLast_of_sublist c.orders hmem)
  removeMarked := fun hmem => c.removing (h.removeMarked (c.orders.subset hmem))
  profiled := by
    intro hbound
    obtain ⟨hbound, hprofile, -⟩ := c.bound hbound
    rw [hprofile]
    exact h.profiled hbound
  resizing := fun hresizing => c.awaited (h.resizing (c.resizing hresizing))
  older := by
    intro t g hg
    rcases c.resizes t g hg with hg | ⟨-, hlt⟩
    · exact Nat.lt_of_lt_of_le (h.older t g hg) c.issued
    · exact hlt
  told := by
    intro hkept'
    have hkept : ¬ v.removing := fun hremoving => hkept' (c.removing hremoving)
    rw [c.last hkept]
    refine h.retell hkept (c.table hkept) ?_
    intro htold hbound
    exact (htold (c.bound hbound).1).imp c.launching (Agreed.carry c hkept hbound)

section Shell

variable {v : View} (h : v.Consistent)
include h

theorem Consistent.sendRemoval (hkept : ¬ v.removing) :
    Consistent { v with orders := v.orders ++ [.remove], removing := True } where
  removedLast := h.removedLast
  removedEnds := fun hmem => absurd (h.removedEnds hmem).2 hkept
  removeLast := by
    rw [List.dropLast_concat]
    exact fun hmem => hkept (h.removeMarked hmem)
  removeMarked := fun _ => trivial
  profiled := h.profiled
  resizing := h.resizing
  older := h.older
  told := fun hkept' => absurd trivial hkept'

/-- The profile is set ahead of the answer; the old one is captured. -/
theorem Consistent.resize (hkept : ¬ v.removing) (hidle : ¬ v.resizing) {p : Geometry}
    (hprofile : v.profile = some p) (g : Geometry) :
    Consistent { v with
      orders := v.orders ++ [.add], profile := some g, resizing := True
      unsent := fun x => v.unsent x ∨ x = p } where
  removedLast := h.removedLast
  removedEnds := fun hmem => absurd (h.removedEnds hmem).2 hkept
  removeLast := by
    rw [List.dropLast_concat]
    exact fun hmem => hkept (h.removeMarked hmem)
  removeMarked := by
    intro hmem
    rcases List.mem_append.mp hmem with hmem | hmem
    · exact h.removeMarked hmem
    · cases List.mem_singleton.mp hmem
  profiled := fun _ => rfl
  resizing := fun _ => .inr ⟨p, .inr rfl⟩
  older := h.older
  told := by
    intro _
    refine h.retell hkept rfl ?_
    intro htold hbound
    refine (htold hbound).imp id ?_
    rintro ⟨q, htable, hknown, hresizes, hunsent⟩
    have hp : p = q := Option.some.inj (hprofile.symm.trans (hknown.resolve_right hidle))
    exact ⟨q, htable, .inr trivial, hresizes, fun x hx => hx.elim (hunsent x) (·.trans hp)⟩

theorem Consistent.launch (hkept : ¬ v.removing) (g : Geometry) :
    Consistent { v with
      orders := v.orders ++ [.add], bound := True, profile := some g, launching := True } where
  removedLast := h.removedLast
  removedEnds := fun hmem => absurd (h.removedEnds hmem).2 hkept
  removeLast := by
    rw [List.dropLast_concat]
    exact fun hmem => hkept (h.removeMarked hmem)
  removeMarked := by
    intro hmem
    rcases List.mem_append.mp hmem with hmem | hmem
    · exact h.removeMarked hmem
    · cases List.mem_singleton.mp hmem
  profiled := fun _ => rfl
  resizing := h.resizing
  older := h.older
  told := fun _ => h.retell hkept rfl fun _ _ => .inl trivial

theorem Consistent.unbind (launching : Prop) :
    Consistent { v with bound := False, launching := launching } where
  removedLast := h.removedLast
  removedEnds := h.removedEnds
  removeLast := h.removeLast
  removeMarked := h.removeMarked
  profiled := False.elim
  resizing := h.resizing
  older := h.older
  told := fun hkept => h.retell hkept rfl fun _ => False.elim

end Shell

section Emulator

variable {v : View} (h : v.Consistent) {orders : List Order}
include h

theorem Consistent.accept (horders : v.orders = .add :: orders) {g : Geometry}
    (hpositive : Positive g) :
    Consistent { v with
      signals := v.signals ++ [.accepted, .added g], orders := orders, table := some g } := by
  have hremoved : .removed ∉ v.signals := by
    intro hmem
    have hnil := (h.removedEnds hmem).1
    rw [horders] at hnil
    cases hnil
  have hrest : orders.Sublist v.orders := horders ▸ List.sublist_cons_self _ _
  refine ⟨?_, ?_, fun hmem => h.removeLast (mem_dropLast_of_sublist hrest hmem),
    fun hmem => h.removeMarked (hrest.subset hmem), h.profiled, h.resizing, h.older, ?_⟩
  · rw [List.append_cons, List.dropLast_concat]
    intro hmem
    rcases List.mem_append.mp hmem with hmem | hmem
    · exact hremoved hmem
    · cases List.mem_singleton.mp hmem
  · intro hmem
    rcases List.mem_append.mp hmem with hmem | hmem
    · exact absurd hmem hremoved
    · simp at hmem
  · intro _
    rw [List.append_cons, List.getLast?_concat]
    exact ⟨rfl, hpositive⟩

theorem Consistent.remove (horders : v.orders = .remove :: orders) (table : Option Geometry) :
    Consistent { v with
      signals := v.signals ++ [.removed], orders := orders, table := table } := by
  have hmarked : v.removing := h.removeMarked (horders ▸ List.mem_cons_self)
  have hlast : orders = [] := by
    have hnot := h.removeLast
    cases orders with
    | nil => rfl
    | cons order rest =>
      rw [horders, List.dropLast_cons_cons] at hnot
      exact absurd List.mem_cons_self hnot
  subst hlast
  refine ⟨?_, fun _ => ⟨rfl, hmarked⟩, List.not_mem_nil, fun _ => hmarked, h.profiled,
    h.resizing, h.older, fun hkept => absurd hmarked hkept⟩
  rw [List.dropLast_concat]
  intro hmem
  have hnil := (h.removedEnds hmem).1
  rw [horders] at hnil
  cases hnil

end Emulator

section Handling

variable {v : View} (h : v.Consistent) {signals : List Signal}
variable {profile : Option Geometry}
include h

theorem Consistent.event_follows (hsignals : v.signals = .accepted :: signals)
    (hkept : ¬ v.removing) : signals ≠ [] := by
  rintro rfl
  have htold := h.told hkept
  rw [hsignals] at htold
  exact htold

theorem Consistent.retell_rest {signal : Signal} (hsignals : v.signals = signal :: signals)
    (hmore : signals ≠ []) (hkept : ¬ v.removing) {v' : View} (htable : v'.table = v.table) :
    v'.Told signals.getLast? := by
  have htold := h.told hkept
  rw [hsignals, List.getLast?_cons_of_ne_nil hmore, List.getLast?_eq_some_getLast hmore] at htold
  rw [List.getLast?_eq_some_getLast hmore]
  exact htold.of_some htable

theorem Consistent.handleAccepted (hsignals : v.signals = .accepted :: signals)
    {launching resizing : Prop} {resizes : Nat → Geometry → Prop}
    (hprofiled : v.bound → profile.isSome) (hresizes : ∀ t g, resizes t g → v.resizes t g)
    (hresizing : resizing → (∃ t g, resizes t g) ∨ ∃ g, v.unsent g) :
    Consistent { v with
      signals := signals, profile := profile, launching := launching, resizes := resizes
      resizing := resizing } := by
  have hrest : signals.Sublist v.signals := hsignals ▸ List.sublist_cons_self _ _
  exact ⟨fun hmem => h.removedLast (mem_dropLast_of_sublist hrest hmem),
    fun hmem => h.removedEnds (hrest.subset hmem), h.removeLast, h.removeMarked, hprofiled,
    hresizing, fun t g hg => h.older t g (hresizes t g hg),
    fun hkept => h.retell_rest hsignals (h.event_follows hsignals hkept) hkept rfl⟩

/-- A resize fails and the shell restores the captured profile. It is the
table's unless DISPLAY_ADDED of another geometry came in between. -/
theorem Consistent.handleFailed {t : Nat} {p : Geometry} (hpending : v.resizes t p)
    (hovertaken : ∀ n g, v.followed = some (n, g) → t < n → g = p)
    (hprofile : v.bound → profile = some p) {resizes : Nat → Geometry → Prop}
    (hresizes : ∀ t g, resizes t g → v.resizes t g) {resizing : Prop} (hdone : ¬ resizing) :
    Consistent { v with profile := profile, resizes := resizes, resizing := resizing } := by
  refine ⟨h.removedLast, h.removedEnds, h.removeLast, h.removeMarked, ?_, fun hr => absurd hr hdone,
    fun t g hg => h.older t g (hresizes t g hg), ?_⟩
  · intro hbound
    change profile.isSome
    rw [hprofile hbound]
    rfl
  · intro hkept
    refine h.retell hkept rfl ?_
    intro htold hbound
    refine (htold hbound).imp id ?_
    rintro ⟨q, htable, -, hcaptured, hunsent⟩
    have hp : p = q := by
      rcases hcaptured t p hpending with hp | ⟨n, hfollowed, hlt⟩
      · exact hp
      · exact (hovertaken n q hfollowed hlt).symm
    exact ⟨q, htable, .inl (hp ▸ hprofile hbound), fun t g hg => hcaptured t g (hresizes t g hg),
      hunsent⟩

theorem Consistent.handleAdded {g : Geometry} (hsignals : v.signals = .added g :: signals)
    (hunsent : ∀ x, ¬ v.unsent x) (hfollow : v.bound → Positive g → profile = some g)
    (hprofiled : v.bound → profile.isSome) :
    Consistent { v with
      signals := signals, profile := profile, followed := some (v.issued, g) } := by
  have hrest : signals.Sublist v.signals := hsignals ▸ List.sublist_cons_self _ _
  refine ⟨fun hmem => h.removedLast (mem_dropLast_of_sublist hrest hmem),
    fun hmem => h.removedEnds (hrest.subset hmem), h.removeLast, h.removeMarked, hprofiled,
    h.resizing, h.older, ?_⟩
  intro hkept
  change Told _ signals.getLast?
  by_cases hmore : signals = []
  · have htold := h.told hkept
    rw [hsignals, hmore] at htold
    rw [hmore]
    intro hbound
    exact .inr ⟨g, htold.1, .inl (hfollow hbound htold.2),
      fun t x hx => .inr ⟨v.issued, rfl, h.older t x hx⟩, fun x hx => absurd hx (hunsent x)⟩
  · exact h.retell_rest hsignals hmore hkept rfl

theorem Consistent.handleRemoved (hsignals : v.signals = .removed :: signals) :
    Consistent { v with signals := signals, bound := False, removing := False } := by
  have horders := (h.removedEnds (hsignals ▸ List.mem_cons_self)).1
  have hlast : signals = [] := by
    have hnot := h.removedLast
    cases signals with
    | nil => rfl
    | cons signal rest =>
      rw [hsignals, List.dropLast_cons_cons] at hnot
      exact absurd List.mem_cons_self hnot
  subst hlast
  refine ⟨List.not_mem_nil, fun hmem => absurd hmem List.not_mem_nil, h.removeLast, ?_,
    False.elim, h.resizing, h.older, fun _ => False.elim⟩
  change .remove ∈ v.orders → False
  rw [horders]
  exact List.not_mem_nil

end Handling

end View
end DisplayGeometry
end MacMu
