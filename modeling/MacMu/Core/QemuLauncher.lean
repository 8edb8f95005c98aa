import Mathlib.Data.List.Nodup
import Mathlib.Logic.Function.Basic

/-!
The descriptors that `launch_qemu` hands to the emulator. Each channel is duplicated
to a number from 256 on, and the file actions move the duplicate to its place in the
child and close it; what no action names is closed in the child. Any call may fail.
The arguments and the environment of the emulator are left out, and so is the process
group.
-/

namespace MacMu
namespace QemuLauncher

variable {α : Type}

abbrev Table (α : Type) := Nat → Option α

inductive FileAction where
  | inherit (fd : Nat)
  | dup2 (source target : Nat)
  | close (fd : Nat)
  deriving DecidableEq, Repr

/-- The calls that may fail, by the descriptor of the child they are made for. -/
inductive Call where
  | init
  | addInherit (fd : Nat)
  | duplicate (childFd : Nat)
  | addDup2 (childFd : Nat)
  | addClose (childFd : Nat)
  | attributes
  | spawn
  deriving DecidableEq, Repr

def kChildFrameDoorbellFd : Nat := 198

def kInputChildFd : Nat := 199

def kControlChildFd : Nat := 197

def kMinTemporarySpawnFd : Nat := 256

structure Preparation (α : Type) where
  table : Table α
  temporarySpawnFds : List Nat
  fileActions : List FileAction

abbrev Child (α : Type) := Nat → Option (α × Bool)

def FileAction.perform (child : Child α) : FileAction → Option (Child α)
  | inherit fd => (child fd).map fun file => Function.update child fd (some (file.1, true))
  | dup2 source target =>
    (child source).map fun file => Function.update child target (some (file.1, true))
  | close fd => (child fd).map fun _ => Function.update child fd none

/-- `posix_spawn` with `POSIX_SPAWN_CLOEXEC_DEFAULT` -/
def posixSpawn (table : Table α) (actions : List FileAction) : Option (Table α) :=
  (actions.foldlM FileAction.perform fun fd => (table fd).map (·, false)).map fun child fd =>
    (child fd).bind fun file => if file.2 then some file.1 else none

section Launch

variable (limit : Nat) (fails : Call → Bool)

/-- The lowest descriptor from 256 on that is free; there may be no more. -/
def freeFd (table : Table α) : Option Nat :=
  (List.range' kMinTemporarySpawnFd (limit - kMinTemporarySpawnFd)).find? fun fd =>
    (table fd).isNone

/-- `F_DUPFD_CLOEXEC` -/
def duplicateForSpawn (p : Preparation α) (parentFd childFd : Nat) :
    Option (Nat × Preparation α) :=
  if fails (.duplicate childFd) then none
  else
    match p.table parentFd, freeFd limit p.table with
    | some file, some dupFd =>
      some (dupFd, { p with
        table := Function.update p.table dupFd (some file)
        temporarySpawnFds := p.temporarySpawnFds ++ [dupFd] })
    | _, _ => none

def addInheritedFd (p : Preparation α) (parentFd : Option Nat) (childFd : Nat) :
    Bool × Preparation α :=
  match parentFd with
  | none => (true, p)
  | some parentFd =>
    if fails .init then (false, p)
    else
      match duplicateForSpawn limit fails p parentFd childFd with
      | none => (false, p)
      | some (spawnFd, p) =>
        if fails (.addDup2 childFd) then (false, p)
        else
          let p := { p with fileActions := p.fileActions ++ [.dup2 spawnFd childFd] }
          if fails (.addClose childFd) then (false, p)
          else (true, { p with fileActions := p.fileActions ++ [.close spawnFd] })

/-- Standard input, output and error, as far as they are open. -/
def stdio (table : Table α) : List Nat := [0, 1, 2].filter fun fd => (table fd).isSome

def closeTemporarySpawnFds (p : Preparation α) : Table α :=
  p.temporarySpawnFds.foldl (fun table fd => Function.update table fd none) p.table

/-- `launch_qemu` up to the attributes: whether it goes on, and what there is to close. -/
def prepare (table : Table α) (frameDoorbellFd inputFd controlFd : Option Nat) :
    Bool × Preparation α :=
  if (stdio table).any fun fd => fails .init || fails (.addInherit fd) then (false, ⟨table, [], []⟩)
  else
    match addInheritedFd limit fails ⟨table, [], (stdio table).map .inherit⟩ frameDoorbellFd
      kChildFrameDoorbellFd with
    | (false, p) => (false, p)
    | (true, p) =>
      match addInheritedFd limit fails p inputFd kInputChildFd with
      | (false, p) => (false, p)
      | (true, p) => addInheritedFd limit fails p controlFd kControlChildFd

/-- The parent's table afterwards, and the child's if there is one. -/
def launchQemu (table : Table α) (frameDoorbellFd inputFd controlFd : Option Nat) :
    Table α × Option (Table α) :=
  match prepare limit fails table frameDoorbellFd inputFd controlFd with
  | (false, p) => (closeTemporarySpawnFds p, none)
  | (true, p) =>
    (closeTemporarySpawnFds p,
      if fails .attributes || fails .spawn then none else posixSpawn p.table p.fileActions)

end Launch

/-- A channel that has been prepared: its duplicate, its place and its file. -/
structure Link (α : Type) where
  spawnFd : Nat
  childFd : Nat
  file : α

def Link.actions (l : Link α) : List FileAction := [.dup2 l.spawnFd l.childFd, .close l.spawnFd]

/-- What has been prepared for the links, on the way from the parent's table. -/
structure Prepared (table : Table α) (links : List (Link α)) (p : Preparation α) : Prop where
  temporaries : p.temporarySpawnFds = links.map Link.spawnFd
  nodup : (links.map Link.spawnFd).Nodup
  link : ∀ l ∈ links, kMinTemporarySpawnFd ≤ l.spawnFd ∧ l.childFd < kMinTemporarySpawnFd ∧
    table l.spawnFd = none ∧ p.table l.spawnFd = some l.file
  other : ∀ fd, fd ∉ links.map Link.spawnFd → p.table fd = table fd

section Proofs

variable {limit : Nat} {fails : Call → Bool} {table : Table α} {p : Preparation α}
  {links : List (Link α)}

theorem foldl_close (fds : List Nat) (start : Table α) (fd : Nat) :
    fds.foldl (fun table fd => Function.update table fd none) start fd =
      if fd ∈ fds then none else start fd := by
  induction fds generalizing start with
  | nil => simp
  | cons closed fds ih =>
    rw [List.foldl_cons, ih, Function.update_apply]
    by_cases hmem : fd ∈ fds <;> by_cases heq : fd = closed <;> simp [hmem, heq]

/-- Nothing is left of the duplicates. -/
theorem Prepared.closed (h : Prepared table links p) : closeTemporarySpawnFds p = table := by
  funext fd
  rw [closeTemporarySpawnFds, foldl_close, h.temporaries]
  split
  · rename_i hmem
    obtain ⟨l, hl, rfl⟩ := List.mem_map.mp hmem
    exact (h.link l hl).2.2.1.symm
  · rename_i hmem
    exact h.other fd hmem

theorem Prepared.duplicate (h : Prepared table links p) {parentFd childFd dupFd : Nat}
    {p' : Preparation α} (hopen : table parentFd ≠ none) (hchild : childFd < kMinTemporarySpawnFd)
    (hdup : duplicateForSpawn limit fails p parentFd childFd = some (dupFd, p')) :
    ∃ file, table parentFd = some file ∧ p'.fileActions = p.fileActions ∧
      Prepared table (links ++ [⟨dupFd, childFd, file⟩]) p' := by
  unfold duplicateForSpawn at hdup
  split at hdup
  · cases hdup
  split at hdup
  case h_2 => cases hdup
  rename_i file free hfile hfree
  cases hdup
  obtain ⟨hnone, hrange, -⟩ := List.find?_range'_eq_some.mp hfree
  have hlow := (List.mem_range'_1.mp hrange).1
  have hfresh : dupFd ∉ links.map Link.spawnFd := by
    intro hmem
    obtain ⟨l, hl, rfl⟩ := List.mem_map.mp hmem
    rw [(h.link l hl).2.2.2] at hnone
    cases hnone
  have hparent : parentFd ∉ links.map Link.spawnFd := by
    intro hmem
    obtain ⟨l, hl, rfl⟩ := List.mem_map.mp hmem
    exact hopen (h.link l hl).2.2.1
  rw [h.other parentFd hparent] at hfile
  refine ⟨file, hfile, rfl, ?_, ?_, ?_, ?_⟩
  · rw [List.map_append, ← h.temporaries]
    rfl
  · rw [List.map_append]
    exact h.nodup.append (List.nodup_singleton _) (List.disjoint_singleton.mpr hfresh)
  · intro l hl
    rcases List.mem_append.mp hl with hl | hl
    · obtain ⟨hspawn, hplace, hclear, hat⟩ := h.link l hl
      have hne : l.spawnFd ≠ dupFd := fun heq => hfresh (heq ▸ List.mem_map_of_mem hl)
      exact ⟨hspawn, hplace, hclear, (Function.update_of_ne hne ..).trans hat⟩
    · obtain rfl := List.mem_singleton.mp hl
      refine ⟨hlow, hchild, ?_, Function.update_self ..⟩
      rw [← h.other dupFd hfresh]
      exact Option.isNone_iff_eq_none.mp hnone
  · intro fd hfd
    rw [List.map_append, List.mem_append, not_or] at hfd
    have hne : fd ≠ dupFd := fun heq => hfd.2 (heq ▸ List.mem_singleton_self _)
    exact (Function.update_of_ne hne ..).trans (h.other fd hfd.1)

def channel (table : Table α) (parentFd : Option Nat) (childFd : Nat) : List (Nat × α) :=
  (parentFd.bind table).toList.map (childFd, ·)

theorem Prepared.add (h : Prepared table links p) {parentFd : Option Nat} {childFd : Nat}
    {p' : Preparation α} {ok : Bool} (hopen : ∀ fd ∈ parentFd, table fd ≠ none)
    (hchild : childFd < kMinTemporarySpawnFd)
    (hadd : addInheritedFd limit fails p parentFd childFd = (ok, p')) :
    ∃ more, Prepared table (links ++ more) p' ∧ (ok = true →
      p'.fileActions = p.fileActions ++ more.flatMap Link.actions ∧
        more.map (fun l => (l.childFd, l.file)) = channel table parentFd childFd) := by
  have hnone : ∃ more, Prepared table (links ++ more) p ∧ (false = true →
      p.fileActions = p.fileActions ++ more.flatMap Link.actions ∧
        more.map (fun l => (l.childFd, l.file)) = channel table parentFd childFd) :=
    ⟨[], by rwa [List.append_nil], nofun⟩
  unfold addInheritedFd at hadd
  split at hadd
  · cases hadd
    exact ⟨[], by rwa [List.append_nil], fun _ => ⟨(List.append_nil _).symm, rfl⟩⟩
  rename_i fd
  split at hadd
  · cases hadd
    exact hnone
  split at hadd
  · cases hadd
    exact hnone
  rename_i dupFd q hdup
  obtain ⟨file, hfile, hactions, hprepared⟩ := h.duplicate (hopen fd rfl) hchild hdup
  have hmoved : ∀ actions, Prepared table (links ++ [⟨dupFd, childFd, file⟩])
      { q with fileActions := actions } := fun _ => ⟨hprepared.1, hprepared.2, hprepared.3, hprepared.4⟩
  refine ⟨[⟨dupFd, childFd, file⟩], ?_⟩
  split at hadd
  · cases hadd
    exact ⟨hprepared, nofun⟩
  dsimp only at hadd
  split at hadd
  · cases hadd
    exact ⟨hmoved _, nofun⟩
  · cases hadd
    refine ⟨hmoved _, fun _ => ⟨?_, ?_⟩⟩
    · simp [hactions, Link.actions]
    · simp [channel, hfile]

theorem perform_inherit (fds : List Nat) (child : Child α) (h : ∀ fd ∈ fds, child fd ≠ none) :
    ∃ child', (fds.map FileAction.inherit).foldlM FileAction.perform child = some child' ∧
      ∀ fd, child' fd = if fd ∈ fds then (child fd).map fun file => (file.1, true) else child fd := by
  induction fds generalizing child with
  | nil => exact ⟨child, rfl, fun fd => (if_neg List.not_mem_nil).symm⟩
  | cons kept fds ih =>
    obtain ⟨file, hfile⟩ := Option.ne_none_iff_exists'.mp (h kept List.mem_cons_self)
    have hstill : ∀ fd ∈ fds, Function.update child kept (some (file.1, true)) fd ≠ none := by
      intro fd hfd
      rw [Function.update_apply]
      split
      · exact Option.some_ne_none _
      · exact h fd (List.mem_cons_of_mem _ hfd)
    obtain ⟨child', hrun, hchild⟩ := ih _ hstill
    refine ⟨child', ?_, fun fd => ?_⟩
    · rw [List.map_cons, List.foldlM_cons, FileAction.perform, hfile]
      exact hrun
    · rw [hchild fd, Function.update_apply]
      by_cases heq : fd = kept <;> by_cases hmem : fd ∈ fds <;> simp [heq, hmem, hfile]

/-- Each duplicate is moved to its place before it is closed, and no place is the
number of a duplicate. -/
theorem perform_links (links : List (Link α)) (child : Child α)
    (hsource : ∀ l ∈ links, ∃ mark, child l.spawnFd = some (l.file, mark))
    (hspawn : (links.map Link.spawnFd).Nodup) (hplace : (links.map Link.childFd).Nodup)
    (hapart : ∀ l ∈ links, ∀ l' ∈ links, l.childFd ≠ l'.spawnFd) :
    ∃ child', (links.flatMap Link.actions).foldlM FileAction.perform child = some child' ∧
      (∀ l ∈ links, child' l.childFd = some (l.file, true)) ∧
      ∀ fd, fd ∉ links.map Link.childFd →
        child' fd = if fd ∈ links.map Link.spawnFd then none else child fd := by
  induction links generalizing child with
  | nil => exact ⟨child, rfl, nofun, fun fd _ => (if_neg List.not_mem_nil).symm⟩
  | cons l links ih =>
    obtain ⟨mark, hl⟩ := hsource l List.mem_cons_self
    obtain ⟨hfresh, hspawn⟩ := List.nodup_cons.mp hspawn
    obtain ⟨hfree, hplace⟩ := List.nodup_cons.mp hplace
    have hself : l.spawnFd ≠ l.childFd :=
      (hapart l List.mem_cons_self l List.mem_cons_self).symm
    obtain ⟨child', hrun, hlinks, hother⟩ := ih (Function.update
        (Function.update child l.childFd (some (l.file, true))) l.spawnFd none)
      (fun l' hl' => by
        have hne : l'.spawnFd ≠ l.spawnFd := fun heq => hfresh (heq ▸ List.mem_map_of_mem hl')
        have hne' : l'.spawnFd ≠ l.childFd :=
          (hapart l List.mem_cons_self l' (List.mem_cons_of_mem _ hl')).symm
        rw [Function.update_of_ne hne, Function.update_of_ne hne']
        exact hsource l' (List.mem_cons_of_mem _ hl'))
      hspawn hplace
      fun a ha b hb => hapart a (List.mem_cons_of_mem _ ha) b (List.mem_cons_of_mem _ hb)
    refine ⟨child', ?_, ?_, fun fd hfd => ?_⟩
    · have hmoved : Function.update child l.childFd (some (l.file, true)) l.spawnFd =
          some (l.file, mark) := (Function.update_of_ne hself ..).trans hl
      simp only [List.flatMap_cons, Link.actions, List.cons_append, List.nil_append,
        List.foldlM_cons, FileAction.perform, hl, Option.map_some, Option.bind_eq_bind,
        Option.bind_some, hmoved]
      exact hrun
    · refine List.forall_mem_cons.mpr ⟨?_, hlinks⟩
      have hnot : l.childFd ∉ links.map Link.spawnFd := by
        intro hmem
        obtain ⟨l', hl', heq⟩ := List.mem_map.mp hmem
        exact hapart l List.mem_cons_self l' (List.mem_cons_of_mem _ hl') heq.symm
      rw [hother _ hfree, if_neg hnot, Function.update_of_ne hself.symm, Function.update_self]
    · obtain ⟨hne, hfd⟩ := not_or.mp (mt List.mem_cons.mpr hfd)
      rw [hother fd hfd, Function.update_apply, Function.update_of_ne hne]
      by_cases heq : fd = l.spawnFd <;> by_cases hmem : fd ∈ links.map Link.spawnFd <;>
        simp [heq, hmem]

def layout (table : Table α) (frameDoorbellFd inputFd controlFd : Option Nat) : Table α := fun fd =>
  if fd < 3 then table fd
  else if fd = kChildFrameDoorbellFd then frameDoorbellFd.bind table
  else if fd = kInputChildFd then inputFd.bind table
  else if fd = kControlChildFd then controlFd.bind table
  else none

variable {frameDoorbellFd inputFd controlFd : Option Nat}

theorem mem_channel {parentFd : Option Nat} {childFd fd : Nat} {file : α} :
    (fd, file) ∈ channel table parentFd childFd ↔ fd = childFd ∧ parentFd.bind table = some file := by
  simp only [channel, List.mem_map, Option.mem_toList, Prod.mk.injEq]
  grind

theorem Prepared.spawned (h : Prepared table links p)
    (hactions : p.fileActions = (stdio table).map .inherit ++ links.flatMap Link.actions)
    (hlinks : links.map (fun l => (l.childFd, l.file)) =
      channel table frameDoorbellFd kChildFrameDoorbellFd ++
        (channel table inputFd kInputChildFd ++ channel table controlFd kControlChildFd)) :
    posixSpawn p.table p.fileActions = some (layout table frameDoorbellFd inputFd controlFd) := by
  have hspawn : ∀ fd < kMinTemporarySpawnFd, fd ∉ links.map Link.spawnFd := by
    intro fd hlt hmem
    obtain ⟨l, hl, rfl⟩ := List.mem_map.mp hmem
    exact absurd (h.link l hl).1 (Nat.not_le.mpr hlt)
  have hstdio : ∀ fd, fd ∈ stdio table ↔ fd < 3 ∧ table fd ≠ none := by
    intro fd
    have hlow : fd ∈ [0, 1, 2] ↔ fd < 3 := by grind
    rw [stdio, List.mem_filter, hlow, Option.isSome_iff_ne_none]
  have hclear : ∀ fd < 3, p.table fd = table fd := fun fd hlt =>
    h.other fd (hspawn fd (Nat.lt_trans hlt (by decide)))
  have hmem : ∀ fd file, (fd, file) ∈ links.map (fun l => (l.childFd, l.file)) ↔
      (fd = kChildFrameDoorbellFd ∧ frameDoorbellFd.bind table = some file) ∨
      (fd = kInputChildFd ∧ inputFd.bind table = some file) ∨
      (fd = kControlChildFd ∧ controlFd.bind table = some file) := by
    intro fd file
    rw [hlinks, List.mem_append, List.mem_append, mem_channel, mem_channel, mem_channel]
  have hplaces : (links.map Link.childFd).Nodup := by
    have hchildren : links.map Link.childFd =
        (links.map fun l => (l.childFd, l.file)).map Prod.fst := by
      rw [List.map_map]
      rfl
    rw [hchildren, hlinks]
    unfold channel
    cases frameDoorbellFd.bind table <;> cases inputFd.bind table <;>
      cases controlFd.bind table <;>
      simp [kChildFrameDoorbellFd, kInputChildFd, kControlChildFd]
  obtain ⟨kept, hkeep, hkept⟩ := perform_inherit (stdio table)
    (fun fd => (p.table fd).map (·, false)) (fun fd hfd => by
      obtain ⟨hlt, hopen⟩ := (hstdio fd).mp hfd
      rw [hclear fd hlt]
      simpa using hopen)
  have hsource : ∀ l ∈ links, ∃ mark, kept l.spawnFd = some (l.file, mark) := by
    intro l hl
    obtain ⟨hlow, -, -, hat⟩ := h.link l hl
    have hnot : l.spawnFd ∉ stdio table := by
      rw [hstdio]
      unfold kMinTemporarySpawnFd at hlow
      omega
    exact ⟨false, by rw [hkept, if_neg hnot, hat]; rfl⟩
  obtain ⟨child, hrun, hplaced, hother⟩ := perform_links links kept hsource h.nodup hplaces
    fun l hl l' hl' => Nat.ne_of_lt (Nat.lt_of_lt_of_le (h.link l hl).2.1 (h.link l' hl').1)
  rw [posixSpawn, hactions, List.foldlM_append, hkeep]
  simp only [Option.bind_eq_bind, Option.bind_some, hrun, Option.map_some, Option.some.injEq]
  funext fd
  by_cases hplace : fd ∈ links.map Link.childFd
  · obtain ⟨l, hl, rfl⟩ := List.mem_map.mp hplace
    rw [hplaced l hl]
    rcases (hmem _ _).mp (List.mem_map_of_mem hl) with ⟨heq, hfile⟩ | ⟨heq, hfile⟩ | ⟨heq, hfile⟩ <;>
      simp [layout, heq, hfile, kChildFrameDoorbellFd, kInputChildFd, kControlChildFd]
  · have hnone : ∀ file, (fd, file) ∉ links.map fun l => (l.childFd, l.file) := by
      intro file hfile
      obtain ⟨l, hl, heq⟩ := List.mem_map.mp hfile
      exact hplace (List.mem_map.mpr ⟨l, hl, congrArg Prod.fst heq⟩)
    rw [hother fd hplace, hkept]
    have hlayout : layout table frameDoorbellFd inputFd controlFd fd =
        if fd < 3 then table fd else none := by
      have habsent : ∀ {channel : Option α}, (∀ file, channel = some file →
          (fd, file) ∈ links.map fun l => (l.childFd, l.file)) → channel = none := fun hchannel =>
        Option.eq_none_iff_forall_ne_some.mpr fun file hfile => hnone file (hchannel file hfile)
      unfold layout
      split_ifs with hlow hdoorbell hinput hcontrol
      · rfl
      · exact habsent fun file hfile => (hmem _ _).mpr (.inl ⟨hdoorbell, hfile⟩)
      · exact habsent fun file hfile => (hmem _ _).mpr (.inr (.inl ⟨hinput, hfile⟩))
      · exact habsent fun file hfile => (hmem _ _).mpr (.inr (.inr ⟨hcontrol, hfile⟩))
      · rfl
    rw [hlayout]
    by_cases hlow : fd < 3
    · rw [if_neg (hspawn fd (Nat.lt_trans hlow (by decide))), hclear fd hlow, if_pos hlow]
      cases hopen : table fd <;> simp [hstdio, hlow, hopen]
    · simp only [hstdio, hlow, false_and, if_false]
      split <;> cases p.table fd <;> rfl

theorem prepared_of_prepare (hdoorbell : ∀ fd ∈ frameDoorbellFd, table fd ≠ none)
    (hinput : ∀ fd ∈ inputFd, table fd ≠ none) (hcontrol : ∀ fd ∈ controlFd, table fd ≠ none)
    {ok : Bool} (h : prepare limit fails table frameDoorbellFd inputFd controlFd = (ok, p)) :
    ∃ links, Prepared table links p ∧ (ok = true →
      p.fileActions = (stdio table).map .inherit ++ links.flatMap Link.actions ∧
      links.map (fun l => (l.childFd, l.file)) =
        channel table frameDoorbellFd kChildFrameDoorbellFd ++
          (channel table inputFd kInputChildFd ++ channel table controlFd kControlChildFd)) := by
  have hstart : ∀ actions, Prepared table [] (⟨table, [], actions⟩ : Preparation α) := fun _ =>
    ⟨rfl, List.nodup_nil, nofun, fun _ _ => rfl⟩
  unfold prepare at h
  split at h
  · cases h
    exact ⟨[], hstart _, nofun⟩
  split at h
  · rename_i q hfirst
    cases h
    obtain ⟨links, hp, -⟩ := (hstart _).add hdoorbell (by decide) hfirst
    exact ⟨links, hp, nofun⟩
  rename_i q hfirst
  obtain ⟨links, hp, hlinks⟩ := (hstart _).add hdoorbell (by decide) hfirst
  obtain ⟨hactions, hchannel⟩ := hlinks rfl
  split at h
  · rename_i hsecond
    cases h
    obtain ⟨links', hp', -⟩ := hp.add hinput (by decide) hsecond
    exact ⟨_, hp', nofun⟩
  rename_i hsecond
  obtain ⟨links', hp', hlinks'⟩ := hp.add hinput (by decide) hsecond
  obtain ⟨hactions', hchannel'⟩ := hlinks' rfl
  obtain ⟨links'', hp'', hlinks''⟩ := hp'.add hcontrol (by decide) h
  refine ⟨_, hp'', fun hok => ?_⟩
  obtain ⟨hactions'', hchannel''⟩ := hlinks'' hok
  constructor
  · simp [hactions'', hactions', hactions, List.flatMap_append]
  · simp [hchannel, hchannel', hchannel'', List.append_assoc]

/-- The parent has the descriptors it had before, whatever fails; an emulator that is
spawned after the preparation has its own ones only. -/
theorem launchQemu_descriptors (limit : Nat) (fails : Call → Bool) (table : Table α)
    (frameDoorbellFd inputFd controlFd : Option Nat)
    (hdoorbell : ∀ fd ∈ frameDoorbellFd, table fd ≠ none) (hinput : ∀ fd ∈ inputFd, table fd ≠ none)
    (hcontrol : ∀ fd ∈ controlFd, table fd ≠ none) :
    (launchQemu limit fails table frameDoorbellFd inputFd controlFd).1 = table ∧
      (launchQemu limit fails table frameDoorbellFd inputFd controlFd).2 =
        if (prepare limit fails table frameDoorbellFd inputFd controlFd).1 = false ∨
          fails .attributes = true ∨ fails .spawn = true then none
        else some (layout table frameDoorbellFd inputFd controlFd) := by
  rcases hprepare : prepare limit fails table frameDoorbellFd inputFd controlFd with ⟨ok, p⟩
  obtain ⟨links, hp, hlinks⟩ := prepared_of_prepare hdoorbell hinput hcontrol hprepare
  simp only [launchQemu, hprepare]
  cases ok with
  | false => exact ⟨hp.closed, rfl⟩
  | true =>
    obtain ⟨hactions, hchannels⟩ := hlinks rfl
    exact ⟨hp.closed, by simp [hp.spawned hactions hchannels]⟩

end Proofs

/-- The channels are where the others belong, and 256 and standard error are taken. -/
def crossed : Table Nat := fun fd => if fd ∈ [0, 1, 197, 198, 199, 256] then some fd else none

theorem launchQemu_descriptors_crossed :
    launchQemu 300 (fun _ => false) crossed (some 199) (some 256) (some 198) =
      (crossed, some (layout crossed (some 199) (some 256) (some 198))) := by
  have hall := launchQemu_descriptors 300 (fun _ => false) crossed (some 199) (some 256) (some 198)
    (by decide) (by decide) (by decide)
  have hprepared : (prepare 300 (fun _ => false) crossed (some 199) (some 256) (some 198)).1 =
      true := by decide +kernel
  rw [hprepared] at hall
  exact Prod.ext hall.1 hall.2

end QemuLauncher
end MacMu
