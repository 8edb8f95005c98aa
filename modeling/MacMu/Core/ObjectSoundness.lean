import MacMu.Core.ObjectCustody

/-!
What the workers guarantee together: a successful acquisition has given every
object one path to a checked file, and no run places anything else than a checked
file at a cached name. That every object has a path follows from the counter,
which passes the end only when each index below it was taken.
-/

namespace MacMu
namespace ObjectAcquisition

open Function Std TransitionSystem ImageManifest ImportTools

variable {env : Setting} {initial : ExtTreeMap String Entry} {w w' : World}

theorem verified_of_ok {path : String} {content : Option (List UInt8)} {reading : Reading}
    {object : ObjectSpec} {bytes : List UInt8}
    (h : verifyFile env.sha256 path content reading object.size object.sha256 = .ok bytes) :
    Verified env object bytes :=
  (verifyFile_eq_ok h).2

theorem Inv.step (h : Inv env initial w) (hdistinct : Distinct env.objects) {a : Step}
    (hstep : w.step env a = some w') : Inv env initial w' := by
  cases a <;> dsimp only [World.step] at hstep
  case loop i =>
    split at hstep <;> cases hstep
    rename_i hphase
    refine h.rest (by rw [hphase]; nofun) (by rw [hphase]; rfl) (by split <;> rfl)
      (Nat.le_refl _) (fun k hge hlt => absurd hlt (Nat.not_lt.mpr hge)) fun hended => .inl ?_
    split at hended
    · assumption
    · cases hended
  case take i =>
    split at hstep
    · rename_i hphase
      have hbusy : w.workers i ≠ .ended := by rw [hphase]; nofun
      have hold : (w.workers i).job? = none := by rw [hphase]; rfl
      split at hstep <;> cases hstep
      · rename_i hpast
        have hle := List.getElem?_eq_none_iff.mp hpast
        exact h.rest hbusy hold rfl (Nat.le_succ _) (fun k hk _ => Nat.le_trans hle hk)
          fun _ => .inr (Nat.le_succ_of_le hle)
      · rename_i object hobject
        exact h.take hbusy hold hobject
    · cases hstep
  case checkSource i content reading =>
    split at hstep
    · rename_i job hphase
      split at hstep
      · cases hstep
      · split at hstep <;> cases hstep
        · exact h.goOn hdistinct hphase
        · rename_i hok
          exact h.goOn hdistinct hphase ⟨verified_of_ok hok, .inl rfl⟩
    · cases hstep
  case createCache i error =>
    split at hstep
    · rename_i job hphase
      split at hstep
      · split at hstep <;> cases hstep <;> exact h.goOn hdistinct hphase
      · cases hstep
    · cases hstep
  case probeCached i reading =>
    split at hstep
    · rename_i job hphase
      split at hstep
      · cases hstep
        exact h.goOn hdistinct hphase
      · split at hstep <;> cases hstep
        · exact h.goOn hdistinct hphase
        · rename_i hok
          exact h.goOn hdistinct hphase ⟨verified_of_ok hok, .inr rfl⟩
    · cases hstep
  case removeCached i removed =>
    split at hstep <;> cases hstep
    rename_i job hphase
    cases removed with
    | false => exact h.goOn hdistinct hphase
    | true =>
      refine h.advance hdistinct hphase (fun _ _ => rfl) trivial fun hash entry hentry => ?_
      change (w.cached.erase job.object.sha256)[hash]? = some entry at hentry
      rw [ExtTreeMap.getElem?_erase] at hentry
      split at hentry
      · cases hentry
      · exact .inl hentry
  case probePartial i =>
    split at hstep <;> cases hstep
    rename_i job hphase
    exact h.goOn hdistinct hphase
  case write i bytes =>
    split at hstep <;> cases hstep
    rename_i job resume hphase
    refine h.advance hdistinct hphase fun hash hne => ?_
    dsimp only
    rw [ExtTreeMap.getElem?_insert, if_neg fun hcmp => hne (Std.compare_eq_iff_eq.mp hcmp).symm]
  case downloaded i result =>
    split at hstep
    · rename_i job resume hphase
      split at hstep
      · cases hstep
        exact h.goOn hdistinct hphase
      · split at hstep <;> cases hstep <;> exact h.goOn hdistinct hphase
    · cases hstep
  case removePartial i removed =>
    split at hstep <;> cases hstep
    · rename_i job hphase
      exact h.clearPartial hdistinct hphase removed fun _ => trivial
    · rename_i job e hphase
      exact h.clearPartial hdistinct hphase removed fun _ => trivial
    · rename_i job bytes hphase
      have hsound := h.sound i
      rw [hphase] at hsound
      exact h.clearPartial hdistinct hphase removed fun _ => ⟨hsound, .inr rfl⟩
  case checkPartial i reading =>
    split at hstep
    · rename_i job hphase
      split at hstep <;> cases hstep
      · exact h.goOn hdistinct hphase
      · rename_i bytes hok
        refine h.goOn hdistinct hphase ⟨verified_of_ok hok, ?_⟩
        obtain ⟨entry, hentry, hcontent⟩ :=
          Option.bind_eq_some_iff.mp (verifyFile_eq_ok hok).1
        cases entry with
        | file found =>
          cases hcontent
          exact hentry
        | other => cases hcontent
    · cases hstep
  case commit i renamed =>
    split at hstep
    · rename_i job bytes hphase
      split at hstep
      · split at hstep <;> cases hstep
        rename_i entry hentry
        exact h.commit hdistinct hphase hentry
      · cases hstep
        exact h.goOn hdistinct hphase
    · cases hstep
  case recheckCached i reading message =>
    split at hstep
    · rename_i job hphase
      split at hstep <;> cases hstep
      · exact h.goOn hdistinct hphase
      · rename_i hok
        exact h.goOn hdistinct hphase (verified_of_ok hok)
    · cases hstep
  case deliver i =>
    split at hstep <;> cases hstep
    rename_i job localPath bytes hphase
    exact h.deliver hphase
  case report i =>
    split at hstep <;> cases hstep
    rename_i job e hphase
    exact h.advance hdistinct hphase fun _ _ => rfl
  case stop i =>
    split at hstep <;> cases hstep
    rename_i job hphase
    exact h.release (by rw [hphase]; rfl) (.inr ⟨rfl, rfl⟩) nofun (List.Subset.refl _)
      (fun g hg => .inl hg) h.once

theorem Inv.complete (h : Inv env initial w) (hjoined : w.Joined env) (hclear : w.failed = false) :
    (w.given.map (·.index)).Perm (List.range env.objects.length) := by
  refine (List.perm_ext_iff_of_nodup h.once List.nodup_range).mpr fun k => ?_
  rw [List.mem_range]
  constructor
  · intro hk
    obtain ⟨g, hg, rfl⟩ := List.mem_map.mp hk
    obtain ⟨-, object, hobject, -⟩ := h.given g hg
    exact (List.getElem?_eq_some_iff.mp hobject).1
  · intro hk
    have hworker : 0 < World.workerCount env := Nat.lt_min.mpr ⟨by decide, Nat.zero_lt_of_lt hk⟩
    obtain hset | hle := h.exhausted 0 hworker (hjoined 0 hworker)
    · rw [hclear] at hset
      cases hset
    · obtain ⟨i, job, hi, -⟩ | hgiven := h.covered hclear k (Nat.lt_of_lt_of_le hk hle) hk
      · have hbusy := ne_ended_of_job? hi
        exact absurd (hjoined i (h.hired i hbusy)) hbusy
      · exact hgiven

/-- Every object of a successful acquisition was given one path, to a file that
had the declared size and hash when it was checked. Whatever the cache held and
the downloads did, only files with the hash they are named by are placed there. -/
theorem object_acquisition_sound {path : String} {data : Option (Except String Json)}
    {manifest : ChunkManifest} (hparse : parseManifest path data = .ok manifest)
    (env : Setting) (hobjects : env.objects = manifest.objects)
    (cached partials : ExtTreeMap String Entry) {w : World}
    (h : Reachable (World.step env) (World.start env cached partials) w) :
    (w.Joined env → w.result = .ok () →
      (w.given.map (·.index)).Perm (List.range manifest.objects.length) ∧
      ∀ g ∈ w.given, ∃ object, manifest.objects[g.index]? = some object ∧
        PathOf env g.index object g.localPath ∧ Verified env object g.bytes) ∧
    (∀ p ∈ w.placed, Named env p.sha256 p.entry) ∧
    ∀ hash entry, w.cached[hash]? = some entry →
      cached[hash]? = some entry ∨ Named env hash entry := by
  obtain ⟨fields, -, hsound⟩ := parseManifest_sound hparse
  have hdistinct : Distinct env.objects := hobjects ▸ hsound.known.distinct
  have hinv : Inv env cached w :=
    Reachable.invariant (fun _ _ _ hs hstep => hs.step hdistinct hstep)
      (inv_start cached partials) h
  refine ⟨fun hjoined hresult => ?_, hinv.placed, hinv.cached⟩
  have hclear : w.failed = false := by
    cases hfailed : w.failed with
    | false => rfl
    | true =>
      rw [World.result, hfailed] at hresult
      cases hresult
  rw [← hobjects]
  exact ⟨hinv.complete hjoined hclear, fun g hg => (hinv.given g hg).2⟩

namespace Sample

def hashA : String := "ca978112ca1bbdcafac231b39a23dc4da786eff8147c4e72b9807785afee48bb"

def hashB : String := "3e23e8160039594a33894f6564e1b1348bbd7a0088d42c4acb73eeaed59c009d"

/-- SHA-256 on the one-byte texts `a` and `b`. -/
def sha256 (bytes : List UInt8) : String :=
  if bytes = [0x61] then hashA else if bytes = [0x62] then hashB else ""

def data : Json :=
  Packager.Manifest.json ⟨"image", 1, "", ⟨1, hashA⟩, [⟨"x", 1, hashB, [⟨0, 1, hashB, ⟨1, hashB⟩⟩]⟩]⟩

def objects : List ObjectSpec :=
  [⟨"objects/" ++ hashA ++ ".zip", 1, hashA⟩, ⟨"objects/" ++ hashB ++ ".zip", 1, hashB⟩]

def manifest : ChunkManifest where
  root := "image"
  baseUrl := ""
  baseObjectIndex := 0
  objects := objects
  files := [⟨"x", 1, hashB, [⟨0, 1, hashB, 1, "payload"⟩]⟩]

def setting : Setting where
  sha256 := sha256
  cacheDir := "cache"
  objects := objects
  source := fun index => if index = 0 then "https://images/a.zip" else "/images/b.zip"

/-- An interrupted import left a wrong file and a wrong beginning. -/
def cached : ExtTreeMap String Entry := (∅ : ExtTreeMap String Entry).insert hashA (.file [7])

def partials : ExtTreeMap String Entry := (∅ : ExtTreeMap String Entry).insert hashA (.file [8])

/-- The first object is downloaded anew after the server refuses to resume; the
second is checked where it is. -/
def run : List Step :=
  [.loop 0, .loop 1, .take 0, .take 1, .createCache 0 none, .probeCached 0 .complete,
    .removeCached 0 true, .probePartial 0, .downloaded 0 ⟨true, 33, ""⟩,
    .checkSource 1 (some [0x62]) .complete, .removePartial 0 true, .write 0 [9], .deliver 1,
    .write 0 [0x61], .downloaded 0 ⟨true, 0, ""⟩, .loop 1, .checkPartial 0 .complete,
    .take 1, .commit 0 true, .deliver 0, .loop 0, .take 0]

end Sample

theorem object_acquisition_sound_resumed :
    ∃ w, exec (World.step Sample.setting) (World.start Sample.setting Sample.cached Sample.partials)
        Sample.run = some w ∧ w.Joined Sample.setting ∧ w.result = .ok () ∧
      (w.given.map (·.index)).Perm [0, 1] := by
  have hparse : parseManifest "manifest.json" (some (.ok Sample.data)) = .ok Sample.manifest := by
    decide +kernel
  obtain ⟨w, hrun, hjoined, hclear⟩ : ∃ w, exec (World.step Sample.setting)
      (World.start Sample.setting Sample.cached Sample.partials) Sample.run = some w ∧
      w.Joined Sample.setting ∧ w.failed = false :=
    exists_of_map_decide (by decide +kernel)
  have hresult : w.result = .ok () := by rw [World.result, hclear]; rfl
  have hsound := object_acquisition_sound hparse Sample.setting rfl Sample.cached Sample.partials
    ⟨Sample.run, hrun⟩
  exact ⟨w, hrun, hjoined, hresult, (hsound.1 hjoined hresult).1⟩

end ObjectAcquisition
end MacMu
