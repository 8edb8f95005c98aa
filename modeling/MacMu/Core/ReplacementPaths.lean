import MacMu.Core.ImageReplacement

/-!
From the text of the system path to the places in the tree. The staging and the
backup directory have their names from the last name of the path, so they stand
beside the destination if that is the name of an entry.
-/

namespace MacMu
namespace ImageReplacement

open FileTree SystemImage

theorem splitSlash_of_not_mem {text : List Char} (h : '/' ∉ text) : splitSlash text = [text] := by
  induction text with
  | nil => rfl
  | cons c rest ih =>
    rw [List.mem_cons, not_or] at h
    rw [splitSlash, if_neg (Ne.symm h.1), ih h.2, List.modifyHead]

theorem splitSlash_append (text : List Char) : ∃ init last, splitSlash text = init ++ [last] ∧
    ∀ more, '/' ∉ more → splitSlash (text ++ more) = init ++ [last ++ more] := by
  induction text with
  | nil => exact ⟨[], [], rfl, fun more hmore => splitSlash_of_not_mem hmore⟩
  | cons c rest ih =>
    obtain ⟨init, last, hsplit, hmore⟩ := ih
    by_cases hc : c = '/'
    · refine ⟨[] :: init, last, ?_, fun more h => ?_⟩
      · rw [splitSlash, if_pos hc, hsplit, List.cons_append]
      · rw [List.cons_append, splitSlash, if_pos hc, hmore more h, List.cons_append]
    · cases init with
      | nil =>
        refine ⟨[], c :: last, ?_, fun more h => ?_⟩
        · rw [splitSlash, if_neg hc, hsplit]
          rfl
        · rw [List.cons_append, splitSlash, if_neg hc, hmore more h]
          rfl
      | cons first init =>
        refine ⟨(c :: first) :: init, last, ?_, fun more h => ?_⟩
        · rw [splitSlash, if_neg hc, hsplit]
          rfl
        · rw [List.cons_append, splitSlash, if_neg hc, hmore more h]
          rfl

theorem pathOf_append (workingDirectory : List String) (text : String) :
    ∃ dir name, pathOf workingDirectory text = dir ++ [name] ∧
      ∀ more : String, more.toList.head? ≠ some '/' → '/' ∉ more.toList →
        pathOf workingDirectory (text ++ more) = dir ++ [name ++ more] := by
  obtain ⟨init, last, hsplit, hmore⟩ := splitSlash_append ..
  refine ⟨(if text.toList.head? = some '/' then [] else workingDirectory) ++
    init.map String.ofList, String.ofList last, ?_, fun more hhead hslash => ?_⟩
  · rw [pathOf, hsplit, List.map_append, List.append_assoc]
    rfl
  · have hstart : (text ++ more).toList.head? = some '/' ↔ text.toList.head? = some '/' := by
      rw [String.toList_append]
      cases text.toList with
      | nil => exact iff_of_false hhead nofun
      | cons c rest => rfl
    have hname : String.ofList (last ++ more.toList) = String.ofList last ++ more := by
      rw [String.ofList_append, String.ofList_toList]
    rw [pathOf, String.toList_append, hmore _ hslash, ← String.toList_append]
    simp only [hstart, List.map_append, List.map_cons, List.map_nil, hname, List.append_assoc]

namespace Setup

variable {α : Type} (setup : Setup α)

theorem paths :
    setup.destination = setup.dir ++ [setup.name] ∧
      setup.importing = setup.dir ++ [setup.name ++ ".importing"] ∧
      setup.previous = setup.dir ++ [setup.name ++ ".previous"] := by
  obtain ⟨dir, name, hpath, hmore⟩ := pathOf_append ..
  have hdir : setup.dir = dir := by
    rw [Setup.dir, destination, hpath, List.dropLast_concat]
  have hname : setup.name = name := by
    rw [Setup.name, destination, hpath, List.getLast?_concat, Option.getD_some]
  rw [hdir, hname]
  exact ⟨hpath, hmore _ (by decide) (by decide), hmore _ (by decide) (by decide)⟩

theorem parent_eq : setup.parent =
    if '/' ∈ setup.systemPath.toList then some setup.dir else none := rfl

end Setup

theorem proper_append {name more : String} (h : 2 < more.length) : Proper (name ++ more) := by
  have hlong : ∀ short : String, short.length ≤ 2 → name ++ more ≠ short := by
    intro short hshort heq
    have hlength := congrArg String.length heq
    rw [String.length_append] at hlength
    omega
  exact ⟨fun hplain => hplain.elim (hlong "" (by decide)) (hlong "." (by decide)),
    hlong ".." (by decide)⟩

theorem name_ne_append {name more : String} (h : 0 < more.length) : name ≠ name ++ more := by
  intro heq
  have hlength := congrArg String.length heq
  rw [String.length_append] at hlength
  omega

theorem append_ne_append {name more more' : String} (h : more ≠ more') :
    name ++ more ≠ name ++ more' := by
  intro heq
  have hlist := congrArg String.toList heq
  rw [String.toList_append, String.toList_append] at hlist
  exact h (String.toList_inj.mp (List.append_cancel_left hlist))

end ImageReplacement
end MacMu
