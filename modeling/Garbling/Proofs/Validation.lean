import Mathlib
import Garbling.Program.Basic

/-!
# Validated code

Validation accepts code exactly if every instruction of it is admissible: it reveals at most 64
wires, jumps no further than the end and mentions small register numbers only. A program has as
many registers as its instructions need and no more.
-/

namespace Garbling

/-- A number is no smaller than the bound of some registers exactly if it is above all of them. -/
theorem registerBound_le_iff {registers : List Register} {number : Nat} :
    registerBound registers ≤ number ↔ ∀ register ∈ registers, register.toNat < number := by
  -- The bound that has been found so far counts too, so the induction is on an arbitrary one.
  have grows (bound : Nat) (registers : List Register) : registers.foldl
      (fun bound register => max bound (register.toNat + 1)) bound ≤ number ↔
        bound ≤ number ∧ ∀ register ∈ registers, register.toNat < number := by
    induction registers generalizing bound with
    | nil => simp
    | cons first rest inductionHypothesis =>
        rw [List.foldl_cons, inductionHypothesis, List.forall_mem_cons, ← and_assoc, max_le_iff,
          Nat.add_one_le_iff]
  rw [registerBound, grows]
  exact and_iff_right (Nat.zero_le number)

instance instLawfulOrderMaxRegister : Std.LawfulOrderMax Register where
  max_eq_or left right := by
    rw [UInt64.max_def]
    split
    · exact .inr rfl
    · exact .inl rfl
  max_le_iff left right bound := by
    rw [UInt64.max_def]
    split
    · next below => exact ⟨fun small => ⟨UInt64.le_trans below small, small⟩, And.right⟩
    · next above =>
        have below : right ≤ left := (UInt64.le_total left right).resolve_left above
        exact ⟨fun small => ⟨small, UInt64.le_trans below small⟩, And.left⟩

namespace Instruction

/-- No register of a list is out of range exactly if all of them are small. -/
theorem registerOutOfRange?_eq_none_iff {registers : List Register} :
    registerOutOfRange? registers = none ↔
      ∀ register ∈ registers, register.toNat < maxRegisters := by
  rw [registerOutOfRange?, Option.filter_eq_none_iff]
  simp only [decide_eq_true_eq, Nat.not_le]
  constructor
  · intro largestSmall register member
    cases largest : registers.max? with
    | none => exact absurd (List.max?_eq_none_iff.mp largest ▸ member) List.not_mem_nil
    | some greatest =>
        have below : register ≤ greatest := (List.max?_eq_some_iff.mp largest).2 register member
        exact (UInt64.le_iff_toNat_le.mp below).trans_lt (largestSmall greatest largest)
  · intro allSmall greatest largest
    exact allSmall greatest (List.max?_eq_some_iff.mp largest).1

/-- An instruction that may stand in code of the given length. -/
structure Admissible (length : Nat) (instruction : Instruction) : Prop where
  width : instruction.width ≤ maxRevealWidth
  target : ∀ target, instruction.target? = some target → target.toNat ≤ length
  secrets : ∀ register ∈ instruction.secrets, register.toNat < maxRegisters
  clears : ∀ register ∈ instruction.clears, register.toNat < maxRegisters

/-- An instruction has no fault exactly if it is admissible. -/
theorem fault?_eq_none_iff {length index : Nat} {instruction : Instruction} :
    instruction.fault? length index = none ↔ instruction.Admissible length := by
  have jumps : instruction.target?.filter (length < ·.toNat) = none ↔
      ∀ target, instruction.target? = some target → target.toNat ≤ length := by
    simp only [Option.filter_eq_none_iff, decide_eq_true_eq, Nat.not_lt]
  constructor
  · intro faultless
    simp only [fault?] at faultless
    split at faultless
    · cases faultless
    · next narrow =>
        split at faultless
        · cases faultless
        · next within =>
            split at faultless
            · cases faultless
            · next secrets =>
                split at faultless
                · cases faultless
                · next clears =>
                    exact ⟨Nat.le_of_not_lt narrow,
                      jumps.mp (Option.eq_none_iff_forall_ne_some.mpr within),
                      registerOutOfRange?_eq_none_iff.mp
                        (Option.eq_none_iff_forall_ne_some.mpr secrets),
                      registerOutOfRange?_eq_none_iff.mp
                        (Option.eq_none_iff_forall_ne_some.mpr clears)⟩
  · rintro ⟨narrow, within, secrets, clears⟩
    rw [fault?, if_neg (Nat.not_lt.mpr narrow), jumps.mpr within,
      registerOutOfRange?_eq_none_iff.mpr secrets, registerOutOfRange?_eq_none_iff.mpr clears]

end Instruction

/-- Code without a fault has admissible instructions only. -/
theorem Code.fault?_eq_none_iff {code : Code} :
    code.fault? = none ↔
      ∀ instruction ∈ code.instructions, instruction.Admissible code.instructions.size := by
  rw [Code.fault?, List.findSome?_eq_none_iff]
  simp only [Instruction.fault?_eq_none_iff, Prod.forall, List.mk_mem_zipIdx_iff_getElem?]
  constructor
  · intro faultless instruction member
    obtain ⟨index, found⟩ := List.mem_iff_getElem?.mp member.val
    exact faultless instruction index found
  · intro admissible instruction index found
    exact admissible instruction ⟨List.mem_iff_getElem?.mpr ⟨index, found⟩⟩

namespace Program

variable {program : Program} {instruction : Instruction} {register : Register}

theorem ofCode_eq_ok_iff {code : Code} : ofCode code = .ok program ↔ program.toCode = code := by
  obtain ⟨own, faultless⟩ := program
  constructor
  · intro accepted
    simp only [ofCode] at accepted
    split at accepted
    · cases accepted
      rfl
    · cases accepted
  · rintro rfl
    simp only [ofCode]
    split
    · rfl
    · next fault found =>
        have absent : own.fault? = none := faultless
        rw [absent] at found
        cases found

/-- Validation accepts exactly the code whose instructions are all admissible. -/
theorem exists_ofCode_iff {code : Code} :
    (∃ program, ofCode code = .ok program) ↔
      ∀ instruction ∈ code.instructions, instruction.Admissible code.instructions.size := by
  rw [← Code.fault?_eq_none_iff]
  constructor
  · rintro ⟨program, accepted⟩
    have same := ofCode_eq_ok_iff.mp accepted
    subst same
    exact program.faultless
  · intro faultless
    exact ⟨⟨code, faultless⟩, ofCode_eq_ok_iff.mpr rfl⟩

/-- Every instruction of a program is admissible. -/
theorem admissible (found : instruction ∈ program.instructions) :
    instruction.Admissible program.instructions.size :=
  Code.fault?_eq_none_iff.mp program.faultless instruction found

/-- The registers that instructions mention, of one kind, are bounded if those of each one are. -/
theorem registerBound_flatMap_le_iff {mentioned : Instruction → List Register} {number : Nat} :
    registerBound (program.instructions.toList.flatMap mentioned) ≤ number ↔
      ∀ instruction ∈ program.instructions,
        ∀ register ∈ mentioned instruction, register.toNat < number := by
  simp only [registerBound_le_iff, List.mem_flatMap, Array.mem_toList_iff]
  constructor
  · intro below instruction found register mentions
    exact below register ⟨instruction, found, mentions⟩
  · rintro below register ⟨instruction, found, mentions⟩
    exact below instruction found register mentions

/-- The secret registers of a program are as many as its instructions need. -/
theorem secretRegisters_le_iff {number : Nat} :
    program.secretRegisters ≤ number ↔ ∀ instruction ∈ program.instructions,
      ∀ register ∈ instruction.secrets, register.toNat < number :=
  registerBound_flatMap_le_iff

/-- The clear registers of a program are as many as its instructions need. -/
theorem clearRegisters_le_iff {number : Nat} :
    program.clearRegisters ≤ number ↔ ∀ instruction ∈ program.instructions,
      ∀ register ∈ instruction.clears, register.toNat < number :=
  registerBound_flatMap_le_iff

/-- A program has every secret register that an instruction of it mentions. -/
theorem lt_secretRegisters (found : instruction ∈ program.instructions)
    (mentions : register ∈ instruction.secrets) : register.toNat < program.secretRegisters :=
  secretRegisters_le_iff.mp (Nat.le_refl _) instruction found register mentions

/-- A program has every clear register that an instruction of it mentions. -/
theorem lt_clearRegisters (found : instruction ∈ program.instructions)
    (mentions : register ∈ instruction.clears) : register.toNat < program.clearRegisters :=
  clearRegisters_le_iff.mp (Nat.le_refl _) instruction found register mentions

/-- A jump of a program leads into it or to its end. -/
theorem target_le {index : Nat} {target : UInt64}
    (found : program.instructions[index]? = some instruction)
    (jumps : instruction.target? = some target) :
    target.toNat ≤ program.instructions.size :=
  (admissible (Array.mem_of_getElem? found)).target target jumps

end Program

end Garbling
