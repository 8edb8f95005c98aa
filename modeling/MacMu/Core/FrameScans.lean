import MacMu.Core.FrameConsumer

/-!
`scan_slots`, which goes through the slots from where the last call has left off. A
call of `read` returns what it does at that moment, and no slot is read twice by one
call, so a call is given by what `read` returns for each slot, and by the cursors.
-/

namespace MacMu
namespace FrameConsumer

structure Scan where
  read : UInt32 → Returned
  lastFrames : UInt32 → UInt64

/-- The slot can be read and has a frame that is new to the caller. -/
def Scan.ready (s : Scan) (id : UInt32) : Bool :=
  (s.read id).result && (s.read id).out.any fun surface =>
    surface.frame.value != 0 && surface.frame.value != s.lastFrames id

/-- The slot that is `offset` slots after the one to start at. -/
def slotAt (nextScanStart : UInt32) (offset : Nat) : UInt32 :=
  (nextScanStart % 16 + .ofNat offset) % 16

/-- The display that is ready, and `nextScanStart_` after the call. -/
def scanSlots (nextScanStart : UInt32) (s : Scan) : Option UInt32 × UInt32 :=
  match ((List.range kMacmuFrameSlotCount).map (slotAt nextScanStart)).find? s.ready with
  | some id => (some id, (id + 1) % 16)
  | none => (none, nextScanStart)

def scans : UInt32 → List Scan → List (Option UInt32)
  | _, [] => []
  | nextScanStart, s :: calls =>
    (scanSlots nextScanStart s).1 :: scans (scanSlots nextScanStart s).2 calls

def distance (nextScanStart id : UInt32) : Nat :=
  (id.toNat + 16 - nextScanStart.toNat % 16) % 16

variable {nextScanStart id : UInt32} {s : Scan} {calls : List Scan}

theorem distance_lt (nextScanStart id : UInt32) : distance nextScanStart id < 16 :=
  Nat.mod_lt _ (by decide)

theorem toNat_slotAt (nextScanStart : UInt32) (offset : Nat) :
    (slotAt nextScanStart offset).toNat = (nextScanStart.toNat % 16 + offset) % 16 := by
  have hstart : nextScanStart.toNat % 16 < 16 := Nat.mod_lt _ (by decide)
  have hslots : (16 : UInt32).toNat = 16 := rfl
  rw [slotAt, UInt32.toNat_mod, UInt32.toNat_add, UInt32.toNat_mod, UInt32.toNat_ofNat', hslots]
  omega

theorem slotAt_distance (h : id < 16) : slotAt nextScanStart (distance nextScanStart id) = id := by
  have hid : id.toNat < 16 := h
  have hstart : nextScanStart.toNat % 16 < 16 := Nat.mod_lt _ (by decide)
  apply UInt32.toNat_inj.mp
  rw [toNat_slotAt, distance]
  omega

theorem distance_next {offset : Nat} (h : offset < distance nextScanStart id) :
    distance ((slotAt nextScanStart offset + 1) % 16) id = distance nextScanStart id - offset - 1 := by
  have hlt := distance_lt nextScanStart id
  have hstart : nextScanStart.toNat % 16 < 16 := Nat.mod_lt _ (by decide)
  have hnext : ((slotAt nextScanStart offset + 1) % 16).toNat =
      (nextScanStart.toNat % 16 + offset + 1) % 16 := by
    have hslots : (16 : UInt32).toNat = 16 := rfl
    rw [UInt32.toNat_mod, UInt32.toNat_add, toNat_slotAt, hslots, UInt32.toNat_one]
    omega
  unfold distance at h ⊢
  rw [hnext]
  omega

theorem scanSlots_of_ready (hid : id < 16) (h : s.ready id = true) :
    ∃ offset ≤ distance nextScanStart id,
      scanSlots nextScanStart s =
        (some (slotAt nextScanStart offset), (slotAt nextScanStart offset + 1) % 16) := by
  have hthere : s.ready (slotAt nextScanStart (distance nextScanStart id)) = true := by
    rwa [slotAt_distance hid]
  cases hfind : (List.range kMacmuFrameSlotCount).find? (s.ready ∘ slotAt nextScanStart) with
  | none =>
    have hnone := List.find?_eq_none.mp hfind (distance nextScanStart id)
      (List.mem_range.mpr (distance_lt _ _))
    exact (hnone hthere).elim
  | some offset =>
    refine ⟨offset, ?_, ?_⟩
    · refine Nat.not_lt.mp fun hlt => ?_
      have hskipped := (List.find?_range_eq_some.mp hfind).2.2 _ hlt
      rw [Function.comp_apply, hthere] at hskipped
      cases hskipped
    · rw [scanSlots, List.find?_map, hfind]
      rfl

theorem scans_drop (calls : List Scan) (first : Nat) (nextScanStart : UInt32) : ∃ later,
    (scans nextScanStart calls).drop first = scans later (calls.drop first) := by
  induction calls generalizing first nextScanStart with
  | nil => exact ⟨nextScanStart, by simp [scans]⟩
  | cons s calls ih =>
    cases first with
    | zero => exact ⟨nextScanStart, rfl⟩
    | succ first => exact ih first _

theorem mem_scans_take (hid : id < 16) (h : ∀ s ∈ calls, s.ready id = true)
    (hlong : distance nextScanStart id < calls.length) :
    some id ∈ (scans nextScanStart calls).take (distance nextScanStart id + 1) := by
  induction calls generalizing nextScanStart with
  | nil => cases hlong
  | cons s calls ih =>
    obtain ⟨hs, hcalls⟩ := List.forall_mem_cons.mp h
    obtain ⟨offset, hoffset, hscan⟩ := scanSlots_of_ready hid hs
    rw [scans, List.take_succ_cons, hscan]
    obtain hbefore | rfl := Nat.lt_or_eq_of_le hoffset
    · refine List.mem_cons_of_mem _ ?_
      have hnext := distance_next hbefore
      rw [List.length_cons] at hlong
      have hlt : distance ((slotAt nextScanStart offset + 1) % 16) id < calls.length := by
        rw [hnext]
        omega
      have hreached := ih hcalls hlt
      refine (List.take_prefix_take_left ?_).subset hreached
      omega
    · rw [slotAt_distance hid]
      exact List.mem_cons_self

theorem isSome_of_mem_scans (hid : id < 16) (h : ∀ s ∈ calls, s.ready id = true) :
    ∀ answer ∈ scans nextScanStart calls, answer.isSome = true := by
  induction calls generalizing nextScanStart with
  | nil => exact fun _ hnone => absurd hnone List.not_mem_nil
  | cons s calls ih =>
    obtain ⟨hs, hcalls⟩ := List.forall_mem_cons.mp h
    obtain ⟨offset, -, hscan⟩ := scanSlots_of_ready hid hs
    rw [scans, hscan]
    exact List.forall_mem_cons.mpr ⟨rfl, ih hcalls⟩

/-- While a slot has a new frame every call finds one, and one of any 16 calls in a row
finds that slot, however busy the others are. -/
theorem scan_fair (nextScanStart : UInt32) (calls : List Scan) (id : UInt32) (hid : id < 16)
    (h : ∀ s ∈ calls, s.ready id = true) :
    (∀ answer ∈ scans nextScanStart calls, answer.isSome = true) ∧
      ∀ first, first + 16 ≤ calls.length →
        some id ∈ ((scans nextScanStart calls).drop first).take 16 := by
  refine ⟨isSome_of_mem_scans hid h, fun first hfirst => ?_⟩
  obtain ⟨later, hdrop⟩ := scans_drop calls first nextScanStart
  have hlt := distance_lt later id
  have hready : ∀ s ∈ calls.drop first, s.ready id = true :=
    fun s hs => h s (List.mem_of_mem_drop hs)
  have hlong : distance later id < (calls.drop first).length := by
    rw [List.length_drop]
    omega
  have hreached := mem_scans_take hid hready hlong
  rw [hdrop]
  exact (List.take_prefix_take_left hlt).subset hreached

/-- All slots have new frames. -/
theorem scan_fair_all : ∃ calls : List Scan, calls.length = 16 ∧
    some 5 ∈ ((scans 0 calls).drop 0).take 16 := by
  have hready : ∀ s ∈ List.replicate 16 (Scan.mk (fun id =>
      ⟨id, true, some ⟨id, ⟨1, none⟩, ⟨1, none⟩, ⟨1, none⟩, ⟨7, none⟩⟩⟩) fun _ => 0),
      s.ready 5 = true := by
    intro s hs
    rw [List.eq_of_mem_replicate hs]
    decide
  exact ⟨_, List.length_replicate, (scan_fair 0 _ 5 (by decide) hready).2 0 (by simp)⟩

end FrameConsumer
end MacMu
