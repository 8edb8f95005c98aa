import MacMu.Core.MachineSamples
import MacMu.Core.MachineStages

/-!
What `macmu_create_default_machine` leaves when it returns true, and what it may leave
if a file of the machine is another name of the metadata disk, or if a path of the
options leads through an entry that the call makes.
-/

namespace MacMu
namespace DefaultMachine

open FileTree SystemImage Volume

variable {α : Type}

/-- A machine that was created is there, the files of the image and a valid metadata
disk are as they were, and a second call has nothing to do. -/
theorem create_framed_idempotent (contents : Contents α) (options : Options) (v v' : Volume α)
    (home system : Location)
    (hseparate : Separate options (withDirectories options v).tree home system)
    (hplain : Plain options (withDirectories options v).tree home)
    (h : createDefaultMachine contents options v = (true, v')) :
    machineExists contents options v' = true ∧
      (∀ place, system <+: place → v'.fileAt place = v.fileAt place) ∧
      (metadataDiskExists contents v options.machine kMetadataDisk = true →
        v'.contentAt options.machine kMetadataDisk =
          v.contentAt options.machine kMetadataDisk) ∧
      createDefaultMachine contents options v' = (true, v') := by
  obtain ⟨hnamed, hleads, hadds, hcontent, himage, hrun⟩ := createDefaultMachine_eq_true h
  have hbase : Base options (withDirectories options v).tree home system :=
    ⟨hseparate, hplain, hleads⟩
  have hstart : Stage contents options home system (withDirectories options v) []
      (withDirectories options v) :=
    ⟨Frame.refl _, fun _ hnone => absurd hnone List.not_mem_nil, fun _ hfile _ => hfile⟩
  have hstage := hstart.run hbase (by decide) hrun
  have hinstalled := hstage.installed hbase hnamed himage
  refine ⟨hinstalled.machineExists, fun place hplace => ?_, fun hexists => ?_,
    hinstalled.createDefaultMachine_same⟩
  · have hnot : place ∉ Piece.all.flatMap (Piece.changes options home) := fun hmem =>
      not_under_both hseparate.apart (under_home (Piece.flatMap_changes_subset _ hmem)) hplace
    rw [hstage.frame.files hbase.distinct place (.inr hplace) hnot,
      fileAt_of_adds hadds hcontent]
  · obtain ⟨content, hdisk, hisDisk⟩ := (Option.any_eq_true ..).mp hexists
    have hdisk' := contentAt_of_adds hadds hcontent (proper_image List.mem_cons_self) hdisk
    obtain ⟨writable, hmachine⟩ := hbase.machine_entry
    have hlocate := locate_of_not_link (hmachine _ (fun _ _ => rfl) kMetadataDisk)
      (hplain.unlinked _ (by simp [Options.ownAt]))
    rw [contentAt_of_locate hlocate] at hdisk'
    rw [hdisk, hstage.contentAt_machine hbase (hstage.disk content hdisk' hisDisk)]

theorem create_framed_idempotent_again : ∃ v v' : Volume Bytes,
    createDefaultMachine Contents.bytes (Sample.options "/data") v = (true, v') ∧
      metadataDiskExists Contents.bytes v (Sample.options "/data").machine kMetadataDisk = true ∧
      machineExists Contents.bytes (Sample.options "/data") v' = true ∧
      createDefaultMachine Contents.bytes (Sample.options "/data") v' = (true, v') := by
  have hcreate := Sample.create_bytes (Sample.options "/data") (Sample.machine [])
    (by decide +kernel)
  have hplain : Plain (Sample.options "/data") (withDirectories (Sample.options "/data")
      ((Sample.machine []).map Term.bytes)).tree Sample.home := by
    rw [withDirectories_map]
    exact Sample.plain_of_true (by decide +kernel)
  obtain ⟨hexists, -, -, hagain⟩ := create_framed_idempotent Contents.bytes _ _ _ Sample.home
    Sample.system (Sample.separate_bytes (by decide +kernel)) hplain hcreate
  exact ⟨_, _, hcreate, (metadataDiskExists_map Term.maps ..).trans (by decide +kernel), hexists,
    hagain⟩

/-- The cache of the machine is a link to its metadata disk, or the disk by another name,
and a call enlarges the disk. A path of the options leads through a directory that a call
replaces by a link, and the next call fails. -/
theorem create_disturbs :
    (∀ v ∈ [Sample.linked.map Term.bytes, Sample.doubled.map Term.bytes], ∃ v',
      Separate (Sample.options "/data") (withDirectories (Sample.options "/data") v).tree
          Sample.home Sample.system ∧
        createDefaultMachine Contents.bytes (Sample.options "/data") v = (true, v') ∧
        metadataDiskExists Contents.bytes v (Sample.options "/data").machine kMetadataDisk =
          true ∧
        v'.contentAt (Sample.options "/data").machine kMetadataDisk ≠
          v.contentAt (Sample.options "/data").machine kMetadataDisk) ∧
    ∃ options v v', options = Sample.options "/data/avd/m.avd/vendor-qemu.img/../../.." ∧
      v = Sample.occupied.map Term.bytes ∧
      Separate options (withDirectories options v).tree Sample.home Sample.system ∧
      createDefaultMachine Contents.bytes options v = (true, v') ∧
      (createDefaultMachine Contents.bytes options v').1 = false := by
  refine ⟨List.forall_mem_cons.mpr ⟨?_, List.forall_mem_singleton.mpr ?_⟩, ?_⟩
  · exact Sample.disk_grows (by decide +kernel) (by decide +kernel) (by decide +kernel)
      (by decide +kernel)
  · exact Sample.disk_grows (by decide +kernel) (by decide +kernel) (by decide +kernel)
      (by decide +kernel)
  · refine ⟨_, _, _, rfl, rfl, Sample.separate_bytes (by decide +kernel),
      Sample.create_bytes _ _ (by decide +kernel), ?_⟩
    rw [natural_createDefaultMachine Term.maps]
    decide +kernel

end DefaultMachine
end MacMu
