import Mathlib
import Garbling.Proofs.Bits

/-!
# Packing and transposing lose nothing

Every bit that is packed has its place in one byte, and the places that are left are zero. Every bit
of a packed column has its place in one row. So the rows of a matrix come back from its packed
columns, and it makes no difference whether columns or rows are added.
-/

namespace Garbling

namespace Bits

/-- The bytes of a packed column have the bits that were packed in their places, and zeros behind
them. -/
theorem testBit_getElem?_pack (bits : List Bool) {index : Nat}
    (inside : index / 8 < (pack bits).length) :
    ∃ byte, (pack bits)[index / 8]? = some byte ∧
      byte.toNat.testBit (index % 8) = bits[index]?.getD false := by
  have placed := ofColumn_pack bits index
  rw [ofColumn, List.getElem?_eq_getElem inside] at placed
  exact ⟨_, List.getElem?_eq_getElem inside, placed⟩

theorem getElem?_transpose (columns : List Bytes) {count index : Nat} (below : index < count) :
    (transpose columns count)[index]? = some (row columns index) := by
  rw [transpose, List.getElem?_map, List.getElem?_range below, Option.map_some]

/-- The packed columns of a matrix with the given rows. -/
def columnsOf (rows : List (BitVec 128)) : List Bytes :=
  (List.range 128).map fun place => pack (rows.map (BitVec.getLsbD · place))

/-- The columns of a matrix have the bits of its rows. -/
theorem row_columnsOf (rows : List (BitVec 128)) {index : Nat} (below : index < rows.length) :
    row (columnsOf rows) index = rows[index] := by
  apply BitVec.eq_of_getLsbD_eq
  intro place inside
  have column : (columnsOf rows)[place]? = some (pack (rows.map (BitVec.getLsbD · place))) := by
    rw [columnsOf, List.getElem?_map, List.getElem?_range inside, Option.map_some]
  rw [getLsbD_row_of_lt _ _ inside, column, Option.map_some, Option.getD_some, ofColumn_pack,
    List.getElem?_map, List.getElem?_eq_getElem below, Option.map_some, Option.getD_some]

/-- Transposing the packed columns of a matrix gives back its rows. -/
theorem transpose_columnsOf (rows : List (BitVec 128)) :
    transpose (columnsOf rows) rows.length = rows := by
  apply List.ext_getElem (length_transpose _ _)
  intro index inside below
  rw [← row_columnsOf rows below]
  exact Option.some.inj
    ((List.getElem?_eq_getElem inside).symm.trans (getElem?_transpose _ below))

/-- Both lists have the same number of columns, and these have the same lengths. -/
abbrev SameShape (first second : List Bytes) : Prop :=
  List.Forall₂ (fun column other => column.length = other.length) first second

/-- A row of a sum of columns is the sum of the rows. -/
theorem row_xor {first second : List Bytes} (same : SameShape first second) (index : Nat) :
    row (first.zipWith Bytes.xor second) index = row first index ^^^ row second index := by
  apply BitVec.eq_of_getLsbD_eq
  intro place inside
  rw [BitVec.getLsbD_xor, getLsbD_row_of_lt _ _ inside, getLsbD_row_of_lt _ _ inside,
    getLsbD_row_of_lt _ _ inside, List.getElem?_zipWith]
  by_cases within : place < first.length
  · have other : place < second.length := same.length_eq ▸ within
    have width : first[place].length = second[place].length := same.get within other
    rw [List.getElem?_eq_getElem within, List.getElem?_eq_getElem other]
    exact ofColumn_xor width index
  · have other : ¬place < second.length := same.length_eq ▸ within
    rw [List.getElem?_eq_none (Nat.le_of_not_lt within),
      List.getElem?_eq_none (Nat.le_of_not_lt other)]
    rfl

/-- It makes no difference whether columns are added before they are transposed or rows after
it. -/
theorem transpose_xor {first second : List Bytes} (same : SameShape first second) (count : Nat) :
    transpose (first.zipWith Bytes.xor second) count =
      (transpose first count).zipWith (· ^^^ ·) (transpose second count) := by
  rw [transpose, transpose, transpose, List.zipWith_map, List.zipWith_self]
  exact List.map_congr_left fun index _ => row_xor same index

/-- Packing gives as few bytes as can hold the bits. Each bit is in its place and all other places
are zero. Transposing gives the demanded number of rows, whatever the columns are. Bit `place` of
row `index` is bit `index` of column `place` if there is such a byte and such a column among the
first 128, and zero otherwise. So the rows of a matrix come back from its packed columns, and
transposing commutes with the exclusive or of columns of the same shape. -/
theorem packed_and_transposed_exactly :
    (∀ bits : List Bool,
      (pack bits).length = bits.length ⌈/⌉ 8 ∧
        ∀ index, index < 8 * (pack bits).length →
          ∃ byte, (pack bits)[index / 8]? = some byte ∧
            byte.toNat.testBit (index % 8) = bits[index]?.getD false) ∧
    (∀ (columns : List Bytes) (count : Nat),
      (transpose columns count).length = count ∧
        ∀ index, index < count → ∃ row, (transpose columns count)[index]? = some row ∧
          ∀ place, row.getLsbD place =
            if place < 128 then
              match columns[place]?.bind (·[index / 8]?) with
              | some byte => byte.toNat.testBit (index % 8)
              | none => false
            else false) ∧
    (∀ rows : List (BitVec 128), transpose (columnsOf rows) rows.length = rows) ∧
    ∀ (first second : List Bytes) (count : Nat), SameShape first second →
      transpose (first.zipWith Bytes.xor second) count =
        (transpose first count).zipWith (· ^^^ ·) (transpose second count) := by
  refine ⟨fun bits => ⟨?_, fun index inside => ?_⟩, fun columns count => ⟨length_transpose _ _,
    fun index below => ⟨_, getElem?_transpose columns below, fun place => ?_⟩⟩,
    transpose_columnsOf, fun first second count same => transpose_xor same count⟩
  · rw [length_pack, Nat.ceilDiv_eq_add_pred_div]
    rfl
  · exact testBit_getElem?_pack bits (by omega)
  · by_cases inside : place < 128
    · rw [if_pos inside, getLsbD_row_of_lt _ _ inside]
      cases columns[place]? with
      | none => rfl
      | some column => rfl
    · rw [if_neg inside, BitVec.getLsbD_of_ge _ _ (Nat.le_of_not_lt inside)]

/-- Columns of different lengths, one of them empty, are added and transposed into nine rows. -/
theorem packed_and_transposed_ragged_columns :
    SameShape [[2], [3, 255], []] [[1], [1, 1], []] ∧
      transpose ([[2], [3, 255], []].zipWith Bytes.xor [[1], [1, 1], []]) 9 =
        (transpose [[2], [3, 255], []] 9).zipWith (· ^^^ ·) (transpose [[1], [1, 1], []] 9) ∧
      transpose [[2], [3, 255], []] 9 = [2, 3, 0, 0, 0, 0, 0, 0, 2] := by
  have same : SameShape [[2], [3, 255], []] [[1], [1, 1], []] :=
    .cons rfl (.cons rfl (.cons rfl .nil))
  obtain ⟨_, _, _, commutes⟩ := packed_and_transposed_exactly
  exact ⟨same, commutes _ _ 9 same, by decide⟩

end Bits

end Garbling
