import Mathlib
import Garbling.Bits

/-!
# Bits of packed columns

A packed column has the bits that were packed into it, exclusive or acts on a column bit by
bit, and a row of a matrix has one bit of each column.
-/

namespace Garbling

namespace Bytes

theorem xor_eq_zipWith {bytes pad : Bytes} (same : bytes.length = pad.length) :
    xor bytes pad = bytes.zipWith (· ^^^ ·) pad := by
  induction bytes generalizing pad with
  | nil =>
      obtain rfl := List.eq_nil_of_length_eq_zero same.symm
      rfl
  | cons byte rest inductionHypothesis =>
      obtain ⟨mask, pad, rfl⟩ := List.exists_cons_of_length_eq_add_one same.symm
      rw [xor, inductionHypothesis (Nat.succ.inj same), List.zipWith_cons_cons]

/-- Taking one column out of a sum of three leaves the sum of the other two. -/
theorem xor_xor_xor {column own last : Bytes} (same : column.length = own.length)
    (width : column.length = last.length) :
    xor column (xor (xor column own) last) = xor own last := by
  induction column generalizing own last with
  | nil =>
      obtain rfl := List.eq_nil_of_length_eq_zero same.symm
      obtain rfl := List.eq_nil_of_length_eq_zero width.symm
      rfl
  | cons byte column inductionHypothesis =>
      obtain ⟨first, own, rfl⟩ := List.exists_cons_of_length_eq_add_one same.symm
      obtain ⟨mask, last, rfl⟩ := List.exists_cons_of_length_eq_add_one width.symm
      have rest := inductionHypothesis (Nat.succ.inj same) (Nat.succ.inj width)
      have head : byte ^^^ (byte ^^^ first ^^^ mask) = first ^^^ mask := by
        rw [UInt8.xor_assoc, ← UInt8.xor_assoc byte byte, UInt8.xor_self, UInt8.zero_xor]
      simp only [xor, rest, head]

end Bytes

namespace Bits

/-- A column has the exclusive or of the bits of two columns. -/
theorem ofColumn_xor {first second : Bytes} (same : first.length = second.length) (index : Nat) :
    ofColumn (first.xor second) index = (ofColumn first index ^^ ofColumn second index) := by
  rw [Bytes.xor_eq_zipWith same]
  unfold ofColumn
  rw [List.getElem?_zipWith]
  by_cases inside : index / 8 < first.length
  · have other : index / 8 < second.length := same ▸ inside
    rw [List.getElem?_eq_getElem inside, List.getElem?_eq_getElem other]
    simp [Nat.testBit_xor]
  · have other : ¬index / 8 < second.length := same ▸ inside
    rw [List.getElem?_eq_none (Nat.le_of_not_lt inside),
      List.getElem?_eq_none (Nat.le_of_not_lt other)]
    rfl

theorem foldr_testBit (bits : List Bool) (place : Nat) :
    (bits.foldr (fun bit above => Bool.toNat bit + 2 * above) 0).testBit place =
      bits[place]?.getD false := by
  induction bits generalizing place with
  | nil => simp
  | cons bit rest inductionHypothesis =>
      rw [List.foldr_cons]
      cases place with
      | zero => cases bit <;> simp [Nat.testBit_zero, Nat.add_mod]
      | succ place =>
          have half : (bit.toNat + 2 * rest.foldr (fun bit above => bit.toNat + 2 * above) 0) / 2 =
              rest.foldr (fun bit above => bit.toNat + 2 * above) 0 := by
            cases bit <;> simp
            omega
          rw [Nat.testBit_succ, half, inductionHypothesis, List.getElem?_cons_succ]

theorem foldr_lt (bits : List Bool) :
    bits.foldr (fun bit above => Bool.toNat bit + 2 * above) 0 < 2 ^ bits.length := by
  induction bits with
  | nil => simp
  | cons bit rest inductionHypothesis =>
      rw [List.foldr_cons, List.length_cons, Nat.pow_succ]
      have small := bit.toNat_lt
      omega

theorem octet_testBit (bits : List Bool) {place : Nat} (below : place < 8) :
    (octet bits).toNat.testBit place = bits[place]?.getD false := by
  have small := foldr_lt (bits.take 8)
  have bound : 2 ^ (bits.take 8).length ≤ 2 ^ 8 :=
    Nat.pow_le_pow_right (by decide) (List.length_take_le 8 bits)
  rw [octet, UInt8.toNat_ofNat_of_lt' (small.trans_le bound), foldr_testBit,
    List.getElem?_take_of_lt below]

/-- A packed column has the bits that were packed, and zeros after them. -/
theorem ofColumn_pack (bits : List Bool) (index : Nat) :
    ofColumn (pack bits) index = bits[index]?.getD false := by
  unfold ofColumn pack
  rw [List.getElem?_map]
  by_cases inside : index / 8 < (bits.length + 7) / 8
  · rw [List.getElem?_range inside]
    simp only [Option.map_some]
    rw [octet_testBit _ (Nat.mod_lt index (by decide)), List.getElem?_drop, Nat.div_add_mod]
  · have beyond : bits.length ≤ index := by omega
    rw [List.getElem?_eq_none (by simpa using inside), List.getElem?_eq_none beyond]
    rfl

private theorem getLsbD_foldr (columns : List Bytes) (index : Nat) {place : Nat}
    (below : place < 128) :
    (columns.foldr (fun column (above : BitVec 128) =>
      above <<< 1 ||| (BitVec.ofBool (ofColumn column index)).zeroExtend 128) 0).getLsbD place =
         (columns[place]?.map (ofColumn · index)).getD false := by
  induction columns generalizing place with
  | nil => simp
  | cons column rest inductionHypothesis =>
      rw [List.foldr_cons, BitVec.getLsbD_or, BitVec.getLsbD_shiftLeft]
      cases place with
      | zero => simp
      | succ place =>
          rw [Nat.add_sub_cancel, inductionHypothesis (Nat.lt_of_succ_lt below),
            List.getElem?_cons_succ]
          simp [below]

/-- A row has one bit of each of the first 128 columns, and zeros where there are fewer. -/
theorem getLsbD_row_of_lt (columns : List Bytes) (index : Nat) {place : Nat}
    (below : place < 128) :
    (row columns index).getLsbD place = (columns[place]?.map (ofColumn · index)).getD false := by
  rw [row, getLsbD_foldr _ index below, List.getElem?_take_of_lt below]

/-- A row has one bit of each column. -/
theorem getLsbD_row {columns : List Bytes} (width : columns.length = 128) (index place : Nat) :
    (row columns index).getLsbD place = (columns[place]?.map (ofColumn · index)).getD false := by
  by_cases below : place < 128
  · exact getLsbD_row_of_lt columns index below
  · rw [BitVec.getLsbD_of_ge _ _ (Nat.le_of_not_lt below),
      List.getElem?_eq_none (width.trans_le (Nat.le_of_not_lt below))]
    rfl

end Bits

end Garbling
