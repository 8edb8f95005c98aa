import Mathlib.Data.List.Range

/-!
Reads at an offset. A read past the end of the content returns what there is.
-/

namespace MacMu
namespace Slice

universe u
variable {α : Type u}
variable {content : List α} {offset size : Nat}

def readAt (content : List α) (offset size : Nat) : List α := (content.drop offset).take size

def readExactAt (content : List α) (offset size : Nat) : Option (List α) :=
  let data := readAt content offset size
  if data.length = size then some data else none

theorem length_readAt (h : offset + size ≤ content.length) :
    (readAt content offset size).length = size := by
  rw [readAt, List.length_take, List.length_drop]
  omega

theorem readExactAt_of_le (h : offset + size ≤ content.length) :
    readExactAt content offset size = some (readAt content offset size) :=
  if_pos (length_readAt h)

theorem readAt_readAt {inner width : Nat} (h : inner + width ≤ size) :
    readAt (readAt content offset size) inner width = readAt content (offset + inner) width := by
  rw [readAt, readAt, List.drop_take, List.drop_drop, List.take_take, readAt,
    Nat.min_eq_left (by omega)]

theorem drop_readAt {inner : Nat} :
    (readAt content offset size).drop inner = readAt content (offset + inner) (size - inner) := by
  rw [readAt, List.drop_take, List.drop_drop, readAt]

theorem readAt_map_range {f : Nat → α} {length : Nat} (h : offset + size ≤ length) :
    readAt ((List.range length).map f) offset size = (List.range' offset size).map f := by
  have hlength : offset + size ≤ ((List.range length).map f).length := by
    rw [List.length_map, List.length_range]
    exact h
  refine List.ext_getElem ?_ fun index _ _ => ?_
  · rw [length_readAt hlength, List.length_map, List.length_range']
  · simp only [readAt, List.getElem_take, List.getElem_drop, List.getElem_map,
      List.getElem_range, List.getElem_range', Nat.one_mul]

end Slice
end MacMu
