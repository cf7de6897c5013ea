import Mathlib
import Garbling.Proofs.Validation

/-!
# Faults of code

What validation decides is said here in terms of the operands that an instruction has, whichever
way the checks are carried out. Validation accepts code exactly if all its operands are in range,
gives the program the least numbers of registers, and otherwise names the first instruction that
is out of range: by its jump or its width, or else by its largest register.
-/

namespace Garbling

namespace Instruction

/-- The instruction may go on at the target. -/
inductive JumpsTo : Instruction → UInt64 → Prop
  | jumpIfZero {condition : Register} {target : UInt64} :
      JumpsTo (.jumpIfZero condition target) target
  | jump {target : UInt64} : JumpsTo (.jump target) target

/-- The instruction reveals the wires of the registers as one value. -/
inductive Reveals : Instruction → List Register → Prop
  | reveal {dst : Register} {src : List Register} : Reveals (.reveal dst src) src
  | output {src : List Register} : Reveals (.output src) src

/-- The secret register is an operand of the instruction. -/
inductive MentionsSecret : Instruction → Register → Prop
  | garblerInput {dst : Register} : MentionsSecret (.garblerInput dst) dst
  | evaluatorInput {dst : Register} : MentionsSecret (.evaluatorInput dst) dst
  | xorResult {dst lhs rhs : Register} : MentionsSecret (.xor dst lhs rhs) dst
  | xorLeft {dst lhs rhs : Register} : MentionsSecret (.xor dst lhs rhs) lhs
  | xorRight {dst lhs rhs : Register} : MentionsSecret (.xor dst lhs rhs) rhs
  | andResult {dst lhs rhs : Register} : MentionsSecret (.and dst lhs rhs) dst
  | andLeft {dst lhs rhs : Register} : MentionsSecret (.and dst lhs rhs) lhs
  | andRight {dst lhs rhs : Register} : MentionsSecret (.and dst lhs rhs) rhs
  | notResult {dst src : Register} : MentionsSecret (.not dst src) dst
  | notOperand {dst src : Register} : MentionsSecret (.not dst src) src
  | revealed {dst register : Register} {src : List Register} (wire : register ∈ src) :
      MentionsSecret (.reveal dst src) register
  | output {register : Register} {src : List Register} (wire : register ∈ src) :
      MentionsSecret (.output src) register
  | stored {src offset : Register} {base : UInt64} : MentionsSecret (.store src base offset) src
  | loaded {dst offset : Register} {base : UInt64} : MentionsSecret (.load dst base offset) dst

/-- The clear register is an operand of the instruction. -/
inductive MentionsClear : Instruction → Register → Prop
  | revealed {dst : Register} {src : List Register} : MentionsClear (.reveal dst src) dst
  | constant {dst : Register} {value : UInt64} : MentionsClear (.constant dst value) dst
  | storeOffset {src offset : Register} {base : UInt64} :
      MentionsClear (.store src base offset) offset
  | loadOffset {dst offset : Register} {base : UInt64} :
      MentionsClear (.load dst base offset) offset
  | condition {condition : Register} {target : UInt64} :
      MentionsClear (.jumpIfZero condition target) condition

variable {instruction : Instruction} {length index : Nat} {register : Register} {target : UInt64}
  {fault : ProgramFault}

theorem target?_eq_some_iff : instruction.target? = some target ↔ instruction.JumpsTo target := by
  constructor
  · intro found
    cases instruction <;> cases found
    · exact .jumpIfZero
    · exact .jump
  · rintro (_ | _) <;> rfl

theorem Reveals.width {src : List Register} (reveals : instruction.Reveals src) :
    instruction.width = src.length := by
  cases reveals <;> rfl

/-- An instruction with a width reveals as many wires. -/
theorem exists_reveals (wires : 0 < instruction.width) :
    ∃ src, instruction.Reveals src ∧ instruction.width = src.length := by
  cases instruction with
  | reveal dst src => exact ⟨src, .reveal, rfl⟩
  | output src => exact ⟨src, .output, rfl⟩
  | _ => exact absurd wires (Nat.lt_irrefl 0)

theorem mem_secrets_iff : register ∈ instruction.secrets ↔ instruction.MentionsSecret register := by
  constructor
  · intro member
    cases instruction with
    | reveal dst src => exact .revealed member
    | output src => exact .output member
    | constant dst value => cases member
    | jumpIfZero condition target => cases member
    | jump target => cases member
    | _ =>
        simp only [secrets, List.mem_cons, List.not_mem_nil, or_false] at member
        rcases member with rfl | rfl | rfl <;> constructor
  · intro mentions
    cases mentions <;> simp_all [secrets]

theorem mem_clears_iff : register ∈ instruction.clears ↔ instruction.MentionsClear register := by
  constructor
  · intro member
    cases instruction <;> simp only [clears, List.mem_singleton, List.not_mem_nil] at member <;>
      subst member <;> constructor
  · intro mentions
    cases mentions <;> simp [clears]

/-- What validation asks of an instruction in code of the given length. -/
structure Valid (length : Nat) (instruction : Instruction) : Prop where
  jump : ∀ target, instruction.JumpsTo target → target.toNat ≤ length
  reveal : ∀ src, instruction.Reveals src → src.length ≤ 64
  secret : ∀ register, instruction.MentionsSecret register → register.toNat < 2 ^ 24
  clear : ∀ register, instruction.MentionsClear register → register.toNat < 2 ^ 24

/-- What validation says of the instruction at `index`, if it is not valid: a jump or a width that
is out of range comes first, then the largest secret register, then the largest clear one. -/
inductive Breaks (length index : Nat) (instruction : Instruction) : ProgramFault → Prop
  | jump {target : UInt64} (jumps : instruction.JumpsTo target) (past : length < target.toNat) :
      Breaks length index instruction (.invalidJump index target)
  | reveal {src : List Register} (reveals : instruction.Reveals src) (wide : 64 < src.length) :
      Breaks length index instruction (.revealTooWide index src.length)
  | secret {register : Register}
      (jump : ∀ target, instruction.JumpsTo target → target.toNat ≤ length)
      (reveal : ∀ src, instruction.Reveals src → src.length ≤ 64)
      (mentions : instruction.MentionsSecret register)
      (largest : ∀ other, instruction.MentionsSecret other → other ≤ register)
      (outside : 2 ^ 24 ≤ register.toNat) :
      Breaks length index instruction (.registerOutOfRange index register)
  | clear {register : Register}
      (jump : ∀ target, instruction.JumpsTo target → target.toNat ≤ length)
      (reveal : ∀ src, instruction.Reveals src → src.length ≤ 64)
      (secret : ∀ register, instruction.MentionsSecret register → register.toNat < 2 ^ 24)
      (mentions : instruction.MentionsClear register)
      (largest : ∀ other, instruction.MentionsClear other → other ≤ register)
      (outside : 2 ^ 24 ≤ register.toNat) :
      Breaks length index instruction (.registerOutOfRange index register)

/-- The register out of range that is reported is the largest one. -/
theorem registerOutOfRange?_eq_some_iff {registers : List Register} :
    registerOutOfRange? registers = some register ↔
      (register ∈ registers ∧ ∀ other ∈ registers, other ≤ register) ∧
        2 ^ 24 ≤ register.toNat := by
  rw [registerOutOfRange?, Option.filter_eq_some_iff, List.max?_eq_some_iff, decide_eq_true_eq]
  rfl

/-- An instruction that jumps reveals nothing. -/
theorem JumpsTo.width (jumps : instruction.JumpsTo target) : instruction.width = 0 := by
  cases jumps <;> rfl

theorem width_le_iff :
    instruction.width ≤ maxRevealWidth ↔ ∀ src, instruction.Reveals src → src.length ≤ 64 := by
  constructor
  · intro narrow src reveals
    exact reveals.width ▸ narrow
  · intro narrow
    by_contra wide
    obtain ⟨src, reveals, width⟩ := exists_reveals (Nat.zero_lt_of_lt (Nat.lt_of_not_le wide))
    exact wide (width ▸ narrow src reveals)

/-- The checks of an instruction are what is asked of its operands. -/
theorem admissible_iff_valid : instruction.Admissible length ↔ instruction.Valid length := by
  constructor
  · rintro ⟨narrow, within, secrets, clears⟩
    exact
      { jump := fun target jumps => within target (target?_eq_some_iff.mpr jumps)
        reveal := width_le_iff.mp narrow
        secret := fun register mentions => secrets register (mem_secrets_iff.mpr mentions)
        clear := fun register mentions => clears register (mem_clears_iff.mpr mentions) }
  · rintro ⟨jump, reveal, secret, clear⟩
    exact
      { width := width_le_iff.mpr reveal
        target := fun target found => jump target (target?_eq_some_iff.mp found)
        secrets := fun register member => secret register (mem_secrets_iff.mp member)
        clears := fun register member => clear register (mem_clears_iff.mp member) }

/-- No jump is found to be out of range exactly if all targets are within the code. -/
theorem filter_target?_eq_none_iff :
    instruction.target?.filter (length < ·.toNat) = none ↔
      ∀ target, instruction.JumpsTo target → target.toNat ≤ length := by
  simp only [Option.filter_eq_none_iff, decide_eq_true_eq, Nat.not_lt, target?_eq_some_iff]

/-- The fault that is found in an instruction is the one that it is said to show. -/
theorem breaks_of_fault? (found : instruction.fault? length index = some fault) :
    instruction.Breaks length index fault := by
  simp only [fault?] at found
  split at found
  · next wide =>
      cases found
      obtain ⟨src, reveals, width⟩ := exists_reveals (Nat.zero_lt_of_lt wide)
      rw [width] at wide ⊢
      exact .reveal reveals wide
  · next narrow =>
      have reveal := width_le_iff.mp (Nat.le_of_not_lt narrow)
      split at found
      · next target outside =>
          cases found
          obtain ⟨jumps, past⟩ := Option.filter_eq_some_iff.mp outside
          exact .jump (target?_eq_some_iff.mp jumps) (of_decide_eq_true past)
      · next within =>
          have jump := filter_target?_eq_none_iff.mp (Option.eq_none_iff_forall_ne_some.mpr within)
          split at found
          · next register outside =>
              cases found
              obtain ⟨⟨member, largest⟩, large⟩ := registerOutOfRange?_eq_some_iff.mp outside
              exact .secret jump reveal (mem_secrets_iff.mp member)
                (fun other mentions => largest other (mem_secrets_iff.mpr mentions)) large
          · next small =>
              have secrets := registerOutOfRange?_eq_none_iff.mp
                (Option.eq_none_iff_forall_ne_some.mpr small)
              split at found
              · next register outside =>
                  cases found
                  obtain ⟨⟨member, largest⟩, large⟩ := registerOutOfRange?_eq_some_iff.mp outside
                  exact .clear jump reveal
                    (fun register mentions => secrets register (mem_secrets_iff.mpr mentions))
                    (mem_clears_iff.mp member)
                    (fun other mentions => largest other (mem_clears_iff.mpr mentions)) large
              · cases found

/-- The fault that an instruction is said to show is found in it. -/
theorem Breaks.fault?_eq (breaks : instruction.Breaks length index fault) :
    instruction.fault? length index = some fault := by
  cases breaks with
  | @jump target jumps past =>
      have outside : instruction.target?.filter (length < ·.toNat) = some target :=
        Option.filter_eq_some_iff.mpr ⟨target?_eq_some_iff.mpr jumps, decide_eq_true past⟩
      have narrow : ¬maxRevealWidth < instruction.width := by
        rw [jumps.width]
        exact Nat.not_lt_zero _
      rw [fault?, if_neg narrow, outside]
  | reveal reveals wide =>
      rw [fault?, reveals.width]
      exact if_pos wide
  | @secret register jump reveal mentions largest outside =>
      have found : registerOutOfRange? instruction.secrets = some register :=
        registerOutOfRange?_eq_some_iff.mpr ⟨⟨mem_secrets_iff.mpr mentions,
          fun other member => largest other (mem_secrets_iff.mp member)⟩, outside⟩
      rw [fault?, if_neg (Nat.not_lt.mpr (width_le_iff.mpr reveal)),
        filter_target?_eq_none_iff.mpr jump, found]
  | @clear register jump reveal secret mentions largest outside =>
      have small : registerOutOfRange? instruction.secrets = none :=
        registerOutOfRange?_eq_none_iff.mpr fun register member =>
          secret register (mem_secrets_iff.mp member)
      have found : registerOutOfRange? instruction.clears = some register :=
        registerOutOfRange?_eq_some_iff.mpr ⟨⟨mem_clears_iff.mpr mentions,
          fun other member => largest other (mem_clears_iff.mp member)⟩, outside⟩
      rw [fault?, if_neg (Nat.not_lt.mpr (width_le_iff.mpr reveal)),
        filter_target?_eq_none_iff.mpr jump, small, found]

end Instruction

/-- The fault of code is the one of its first instruction that is not valid. -/
theorem Code.fault?_eq_some_iff {code : Code} {fault : ProgramFault} :
    code.fault? = some fault ↔ ∃ (index : Nat) (instruction : Instruction),
      code.instructions[index]? = some instruction ∧
      instruction.Breaks code.instructions.size index fault ∧
      ∀ (earlier : Nat) (other : Instruction), earlier < index →
        code.instructions[earlier]? = some other → other.Valid code.instructions.size := by
  have place (number : Nat) :
      (code.instructions.toList.zipIdx)[number]? =
        code.instructions[number]?.map fun instruction => (instruction, number) := by
    simp
  rw [Code.fault?, List.findSome?_eq_some_iff]
  constructor
  · rintro ⟨passed, ⟨instruction, index⟩, rest, whole, found, faultless⟩
    have here := place passed.length
    rw [whole, List.getElem?_append_right (Nat.le_refl _), Nat.sub_self] at here
    obtain ⟨_, at_index, same⟩ := Option.map_eq_some_iff.mp here.symm
    cases same
    refine ⟨passed.length, instruction, at_index, Instruction.breaks_of_fault? found, ?_⟩
    intro earlier other before at_earlier
    have there := place earlier
    rw [whole, List.getElem?_append_left before, at_earlier] at there
    exact Instruction.admissible_iff_valid.mp
      (Instruction.fault?_eq_none_iff.mp (faultless _ (List.mem_of_getElem? there)))
  · rintro ⟨index, instruction, at_index, breaks, valid⟩
    have here := place index
    rw [at_index, Option.map_some] at here
    obtain ⟨inside, same⟩ := List.getElem?_eq_some_iff.mp here
    refine ⟨code.instructions.toList.zipIdx.take index, (instruction, index),
      code.instructions.toList.zipIdx.drop (index + 1), ?_, breaks.fault?_eq, ?_⟩
    · rw [← same, List.getElem_cons_drop, List.take_append_drop]
    · intro passed member
      obtain ⟨earlier, found⟩ := List.mem_iff_getElem?.mp member
      rw [List.getElem?_take] at found
      split at found
      · next before =>
          rw [place] at found
          obtain ⟨other, at_earlier, rfl⟩ := Option.map_eq_some_iff.mp found
          exact Instruction.fault?_eq_none_iff.mpr
            (Instruction.admissible_iff_valid.mpr (valid earlier other before at_earlier))
      · cases found

namespace Program

variable {program : Program} {code : Code} {fault : ProgramFault}

theorem ofCode_eq_error_iff : ofCode code = .error fault ↔ code.fault? = some fault := by
  unfold ofCode
  split
  · next faultless => simp [faultless]
  · next found faulty => rw [faulty, Except.error.injEq, Option.some.injEq]

/-- The number of secret registers is the least one above all those that are mentioned. -/
theorem isLeast_secretRegisters : IsLeast {bound | ∀ instruction ∈ program.instructions,
    ∀ register, instruction.MentionsSecret register → register.toNat < bound}
      program.secretRegisters := by
  simp only [← Instruction.mem_secrets_iff, ← secretRegisters_le_iff]
  exact isLeast_Ici

/-- The number of clear registers is the least one above all those that are mentioned. -/
theorem isLeast_clearRegisters : IsLeast {bound | ∀ instruction ∈ program.instructions,
    ∀ register, instruction.MentionsClear register → register.toNat < bound}
      program.clearRegisters := by
  simp only [← Instruction.mem_clears_iff, ← clearRegisters_le_iff]
  exact isLeast_Ici

/-- Validation accepts code exactly if all instructions are valid. The program has this code, and
for each kind the least number of registers above all those that are mentioned. Otherwise, and only
then, validation refuses the code, and it names the first instruction that is not valid. -/
theorem validates_exactly (code : Code) :
    ((∃ program, ofCode code = .ok program) ↔
      ∀ instruction ∈ code.instructions, instruction.Valid code.instructions.size) ∧
    (∀ program, ofCode code = .ok program →
      program.toCode = code ∧
      IsLeast {bound | ∀ instruction ∈ code.instructions,
        ∀ register, instruction.MentionsSecret register → register.toNat < bound}
          program.secretRegisters ∧
      IsLeast {bound | ∀ instruction ∈ code.instructions,
        ∀ register, instruction.MentionsClear register → register.toNat < bound}
          program.clearRegisters) ∧
    ∀ fault, ofCode code = .error fault ↔ ∃ (index : Nat) (instruction : Instruction),
      code.instructions[index]? = some instruction ∧
      instruction.Breaks code.instructions.size index fault ∧
      ∀ (earlier : Nat) (other : Instruction), earlier < index →
        code.instructions[earlier]? = some other → other.Valid code.instructions.size := by
  refine ⟨?_, ?_, ?_⟩
  · simp only [exists_ofCode_iff, Instruction.admissible_iff_valid]
  · intro program accepted
    obtain rfl := ofCode_eq_ok_iff.mp accepted
    exact ⟨rfl, isLeast_secretRegisters, isLeast_clearRegisters⟩
  · intro fault
    rw [ofCode_eq_error_iff, Code.fault?_eq_some_iff]

/-- The second instruction is the first that is not valid. Of its secret registers the larger one
is named, and not the clear register. -/
example : ofCode ⟨#[.jumpIfZero 16777215 2, .load 16777216 0 16777217, .jump 3], 1⟩ =
    .error (.registerOutOfRange 1 16777216) := rfl

end Program

end Garbling
