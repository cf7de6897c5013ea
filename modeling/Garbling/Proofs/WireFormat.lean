import Mathlib
import Garbling.Proofs.Canonical

/-!
# The wire format

The wire format of every message is faithful: exactly the encodings of proper values are read,
each as its own value. A value is proper if its lists have fewer than 2^64 elements. A program is
written as its code alone, and it is read exactly if the code is read and passes validation.
-/

namespace Garbling

variable {α : Type}

/-- A format that reads exactly the encodings of proper values. -/
structure Format.Faithful (format : Format α) (proper : α → Prop) : Prop where
  /-- The encoding of a proper value is read as that value, whatever follows it. -/
  exact : ∀ value, proper value → format.ExactAt value
  /-- Whatever is read is a proper value, and what was used up is its encoding. -/
  canonical : format.Canonical proper
  /-- Bytes that do not start with an encoding are refused. -/
  refused : ∀ bytes, (∀ value, proper value → ¬ format.encode value <+: bytes) →
    ∃ error, format.decode bytes = .error error
  /-- An encoding that is cut short is refused. -/
  truncated : ∀ value, proper value → ∀ bytes, bytes <+: format.encode value →
    bytes ≠ format.encode value → ∃ error, format.decode bytes = .error error

/-- Exact and canonical formats are faithful. -/
theorem Format.Faithful.of {format : Format α} {proper : α → Prop}
    (exact : ∀ value, proper value → format.ExactAt value) (canonical : format.Canonical proper) :
    format.Faithful proper where
  exact := exact
  canonical := canonical
  refused := by
    intro bytes unwritten
    cases outcome : format.decode bytes with
    | error error => exact ⟨error, rfl⟩
    | ok found =>
        obtain ⟨value, rest⟩ := found
        obtain ⟨properly, written⟩ := canonical outcome
        exact absurd ⟨rest, written.symm⟩ (unwritten value properly)
  truncated := by
    rintro value properly bytes ⟨missing, whole⟩ short
    cases outcome : format.decode bytes with
    | error error => exact ⟨error, rfl⟩
    | ok found =>
        -- What the beginning is read as would also be read from the whole.
        obtain ⟨other, rest⟩ := found
        obtain ⟨otherProper, rfl⟩ := canonical outcome
        have other := exact other otherProper (rest ++ missing)
        rw [← List.append_assoc, whole, (exact value properly).decode] at other
        cases missing with
        | nil => exact absurd ((List.append_nil _).symm.trans whole) short
        | cons byte others => simp at other

/-- Code whose instructions and lists of wires can be counted by words. -/
structure Code.Countable (code : Code) : Prop where
  instructions : code.instructions.size < UInt64.size
  wires : ∀ instruction ∈ code.instructions, instruction.width < UInt64.size

/-- The wires that an instruction of a program reveals can always be counted. -/
theorem Program.countable_iff {program : Program} :
    program.toCode.Countable ↔ program.instructions.size < UInt64.size := by
  constructor
  · exact Code.Countable.instructions
  · intro short
    refine ⟨short, fun instruction member => ?_⟩
    have narrow := (program.admissible member).width
    exact narrow.trans_lt (by decide)

namespace Layout

theorem label_canonical : fixed.label.Canonical fun _ => True :=
  fixed_word128_canonical.map fun _ _ => rfl

theorem gate_canonical : fixed.gate.Canonical fun _ => True :=
  ((label_canonical.pair label_canonical).map fun _ _ => rfl).weaken fun _ _ => trivial

theorem mask_canonical : mask.Canonical fun _ => True :=
  Format.bool_canonical.map fun _ _ => rfl

theorem gateBatch_canonical : fixed.gateBatch.Canonical fun batch =>
    batch.gates.length < UInt64.size ∧ batch.garblerInputs.length < UInt64.size := by
  have fields := fixed_word64_canonical.pair <| fixed_word64_canonical.pair <|
    (list_canonical gate_canonical).pair <|
      (list_canonical label_canonical).pair fixed_word64_canonical
  refine (fields.map fun _ _ => rfl).weaken ?_
  rintro batch ⟨-, -, gates, garblerInputs, -⟩
  exact ⟨gates.1, garblerInputs.1⟩

theorem maskBatch_canonical :
    fixed.maskBatch.Canonical fun batch => batch.masks.length < UInt64.size := by
  have fields := fixed_word64_canonical.pair (list_canonical mask_canonical)
  refine (fields.map fun _ _ => rfl).weaken ?_
  rintro batch ⟨-, masks⟩
  exact masks.1

theorem labels_canonical : fixed.labels.Canonical fun labels => labels.length < UInt64.size :=
  (list_canonical label_canonical).weaken fun _ proper => proper.1

theorem columns_canonical : fixed.columns.Canonical fun columns =>
    columns.length < UInt64.size ∧ ∀ column ∈ columns, column.length < UInt64.size := by
  refine (list_canonical (list_canonical Format.byte_canonical)).weaken ?_
  rintro columns ⟨short, each⟩
  exact ⟨short, fun column member => (each column member).1⟩

theorem points_canonical : fixed.points.Canonical fun points => points.length < UInt64.size :=
  (list_canonical (Format.block_canonical 32)).weaken fun _ proper => proper.1

theorem ciphertexts_canonical :
    fixed.ciphertexts.Canonical fun pairs => pairs.length < UInt64.size :=
  (list_canonical (fixed_word128_canonical.pair fixed_word128_canonical)).weaken
    fun _ proper => proper.1

theorem handshake_canonical : fixed.handshake.Canonical fun _ => True :=
  (mode_canonical.pair fixed_word64_canonical).weaken fun _ _ => trivial

theorem settings_canonical : fixed.settings.Canonical fun settings =>
    ∀ directory, settings.storeDirectory = some directory →
      (Text.encode directory).length < UInt64.size := by
  have fields := mode_canonical.pair <| fixed_word64_canonical.pair text_canonical.optional
  refine (fields.map fun _ _ => rfl).weaken ?_
  rintro settings ⟨-, -, directory⟩
  exact directory

theorem settings_exactAt {settings : Settings}
    (short : ∀ directory, settings.storeDirectory = some directory →
      (Text.encode directory).length < UInt64.size) : fixed.settings.ExactAt settings :=
  .map ((sound_fixed.mode settings.mode).pair <| (sound_fixed.word64 settings.timeSlice).pair <|
    .optional fun directory found => text_exactAt (short directory found)) rfl

theorem code_canonical : fixed.code.Canonical Code.Countable := by
  refine ((list_canonical instruction_canonical).pair fixed_word64_canonical |>.map
    fun _ _ => rfl).weaken ?_
  rintro code ⟨⟨short, each⟩, -⟩
  rw [Array.length_toList] at short
  exact ⟨short, fun instruction member => each instruction member.val⟩

theorem code_exactAt {code : Code} (countable : code.Countable) : fixed.code.ExactAt code := by
  have short : code.instructions.toList.length < UInt64.size := by
    rw [Array.length_toList]
    exact countable.instructions
  have each (instruction : Instruction) (member : instruction ∈ code.instructions.toList) :
      fixed.instruction.ExactAt instruction :=
    instruction_exactAt (countable.wires instruction ⟨member⟩)
  exact .map ((sound_fixed.list each short).pair (sound_fixed.word64 code.memorySize)) rfl

/-- A program is read exactly if code is read that passes validation. -/
theorem program_decode_eq_ok {bytes rest : Bytes} {program : Program} :
    fixed.program.decode bytes = .ok (program, rest) ↔
      ∃ code, fixed.code.decode bytes = .ok (code, rest) ∧ Program.ofCode code = .ok program := by
  rw [Layout.program, Format.mapChecked_eq_ok]
  refine exists_congr fun code => and_congr_right fun _ => ?_
  cases Program.ofCode code with
  | error fault => exact ⟨nofun, nofun⟩
  | ok accepted => simp [Except.mapError]

theorem program_canonical :
    fixed.program.Canonical fun program => program.instructions.size < UInt64.size := by
  intro bytes rest program found
  obtain ⟨code, codeFound, accepted⟩ := program_decode_eq_ok.mp found
  obtain ⟨countable, rfl⟩ := code_canonical codeFound
  obtain rfl := Program.ofCode_eq_ok_iff.mp accepted
  exact ⟨countable.instructions, rfl⟩

theorem program_exactAt {program : Program} (short : program.instructions.size < UInt64.size) :
    fixed.program.ExactAt program := by
  intro rest
  have found := code_exactAt (Program.countable_iff.mpr short) rest
  exact program_decode_eq_ok.mpr ⟨program.toCode, found, Program.ofCode_eq_ok_iff.mpr rfl⟩

/-- Every message format of a layout is faithful. -/
structure Faithful (layout : Layout) : Prop where
  label : layout.label.Faithful fun _ => True
  gate : layout.gate.Faithful fun _ => True
  mask : mask.Faithful fun _ => True
  gateBatch : layout.gateBatch.Faithful fun batch =>
    batch.gates.length < UInt64.size ∧ batch.garblerInputs.length < UInt64.size
  maskBatch : layout.maskBatch.Faithful fun batch => batch.masks.length < UInt64.size
  labels : layout.labels.Faithful fun labels => labels.length < UInt64.size
  openings : layout.openings.Faithful fun values => values.length < UInt64.size
  columns : layout.columns.Faithful fun columns =>
    columns.length < UInt64.size ∧ ∀ column ∈ columns, column.length < UInt64.size
  point : (Format.block 32).Faithful fun _ => True
  points : layout.points.Faithful fun points => points.length < UInt64.size
  ciphertexts : layout.ciphertexts.Faithful fun pairs => pairs.length < UInt64.size
  handshake : layout.handshake.Faithful fun _ => True
  settings : layout.settings.Faithful fun settings =>
    ∀ directory, settings.storeDirectory = some directory →
      (Text.encode directory).length < UInt64.size
  code : layout.code.Faithful Code.Countable
  program : layout.program.Faithful fun program => program.instructions.size < UInt64.size

theorem fixed_faithful : fixed.Faithful where
  label := .of (fun label _ => sound_fixed.label label) label_canonical
  gate := .of (fun gate _ => sound_fixed.gate gate) gate_canonical
  mask := .of (fun mask _ => mask_exact mask) mask_canonical
  gateBatch := .of (fun _ proper => sound_fixed.gateBatch proper.1 proper.2) gateBatch_canonical
  maskBatch := .of (fun _ short => sound_fixed.maskBatch short) maskBatch_canonical
  labels := .of (fun _ short => sound_fixed.labels short) labels_canonical
  openings := .of (fun _ short => sound_fixed.openings short) registers_canonical
  columns := .of (fun _ proper => sound_fixed.columns proper.1 proper.2) columns_canonical
  point := .of (fun point _ => Format.block_exact 32 point) (Format.block_canonical 32)
  points := .of (fun _ short => sound_fixed.points short) points_canonical
  ciphertexts := .of (fun _ short => sound_fixed.ciphertexts short) ciphertexts_canonical
  handshake := .of (fun handshake _ => sound_fixed.handshake handshake) handshake_canonical
  settings := .of (fun _ short => settings_exactAt short) settings_canonical
  code := .of (fun _ countable => code_exactAt countable) code_canonical
  program := .of (fun _ short => program_exactAt short) program_canonical

/-- What is no encoding is refused by name, at the first place that shows it. -/
structure Refuses (layout : Layout) : Prop where
  bool : ∀ (found : UInt8) (rest : Bytes), 1 < found →
    Format.bool.decode (found :: rest) = .error (.invalidBool found)
  optional : ∀ (found : UInt8) (rest : Bytes), 1 < found →
    (Format.optional layout.text).decode (found :: rest) = .error (.invalidTag found)
  mode : ∀ (found : UInt32) (rest : Bytes), 2 ≤ found.toNat →
    layout.mode.decode (layout.word32.encode found ++ rest) = .error (.invalidVariant found 2)
  instruction : ∀ (found : UInt32) (rest : Bytes), 12 ≤ found.toNat →
    layout.instruction.decode (layout.word32.encode found ++ rest) =
      .error (.invalidVariant found 12)
  text : ∀ content rest : Bytes, content.length < UInt64.size →
    ¬ content.toByteArray.IsValidUTF8 → ∃ fault,
      layout.text.decode (layout.word64.encode (UInt64.ofNat content.length) ++ content ++ rest) =
        .error (.invalidText fault)

theorem variant_decode_error {count : Nat} {found : UInt32} (beyond : count ≤ found.toNat)
    (next : Fin count → Decoder α) (rest : Bytes) :
    (fixed.variant count >>= next) (fixed.word32.encode found ++ rest) =
      .error (.invalidVariant found count) := by
  have refused : fixed.variant count (fixed.word32.encode found ++ rest) =
      .error (.invalidVariant found count) := by
    rw [Layout.variant, Decoder.bind_apply (sound_fixed.word32 found rest),
      dif_neg (Nat.not_lt.mpr beyond)]
    rfl
  exact Decoder.bind_apply_error refused

theorem fixed_refuses : fixed.Refuses where
  bool found rest large := by
    have read : Decoder.byte (found :: rest) = .ok (found, rest) := rfl
    simp only [Format.bool]
    rw [Decoder.bind_apply read]
    split
    · exact absurd large (by decide)
    · exact absurd large (by decide)
    · rfl
  optional found rest large := by
    have read : Decoder.byte (found :: rest) = .ok (found, rest) := rfl
    simp only [Format.optional]
    rw [Decoder.bind_apply read]
    split
    · exact absurd large (by decide)
    · exact absurd large (by decide)
    · rfl
  mode _ rest beyond := variant_decode_error beyond _ rest
  instruction _ rest beyond := variant_decode_error beyond _ rest
  text content rest short invalid := by
    have found := text_decode short rest
    cases verdict : Text.decode content with
    | ok text => exact absurd (Text.exists_decode_iff.mp ⟨text, verdict⟩) invalid
    | error fault =>
        rw [verdict] at found
        exact ⟨fault, found⟩

/-- Programs are written as their code and validated when they are read. -/
structure Validates (layout : Layout) : Prop where
  /-- The instructions and the size of the memory are all that is written. -/
  written : ∀ program : Program, layout.program.encode program =
    (layout.list layout.instruction).encode program.instructions.toList ++
      layout.word64.encode program.memorySize
  /-- A program is read exactly if its fields are read and pass validation. -/
  accepted : ∀ (bytes rest : Bytes) (program : Program),
    layout.program.decode bytes = .ok (program, rest) ↔
      ∃ code, layout.code.decode bytes = .ok (code, rest) ∧ Program.ofCode code = .ok program
  /-- Fields that cannot be read are refused for the same reason. -/
  unread : ∀ (bytes : Bytes) (error : DecodeError), layout.code.decode bytes = .error error →
    layout.program.decode bytes = .error error
  /-- Fields that do not pass validation are refused with their first fault. -/
  invalid : ∀ (bytes rest : Bytes) (code : Code) (fault : ProgramFault),
    layout.code.decode bytes = .ok (code, rest) → Program.ofCode code = .error fault →
      layout.program.decode bytes = .error (.invalidProgram fault)
  /-- A program that is read back has as many registers as before. -/
  recomputed : ∀ (program read : Program) (suffix rest : Bytes),
    program.instructions.size < UInt64.size →
      layout.program.decode (layout.program.encode program ++ suffix) = .ok (read, rest) →
        read.secretRegisters = program.secretRegisters ∧
          read.clearRegisters = program.clearRegisters
  /-- A program that was read has just the registers that its instructions need. -/
  needed : ∀ (bytes rest : Bytes) (program : Program),
    layout.program.decode bytes = .ok (program, rest) → ∀ number,
      (program.secretRegisters ≤ number ↔ ∀ instruction ∈ program.instructions,
        ∀ register ∈ instruction.secrets, register.toNat < number) ∧
      (program.clearRegisters ≤ number ↔ ∀ instruction ∈ program.instructions,
        ∀ register ∈ instruction.clears, register.toNat < number)

theorem fixed_validates : fixed.Validates where
  written _ := rfl
  accepted _ _ _ := program_decode_eq_ok
  unread _ _ failed := Decoder.bind_apply_error failed
  invalid bytes rest code fault found rejected := by
    simp only [Layout.program, Format.mapChecked]
    rw [Decoder.bind_apply found, rejected]
    rfl
  recomputed program read suffix rest short found := by
    rw [program_exactAt short suffix] at found
    cases found
    exact ⟨rfl, rfl⟩
  needed _ _ _ _ _ := ⟨Program.secretRegisters_le_iff, Program.clearRegisters_le_iff⟩

/-- The wire format is exact: every message is read as what was written and nothing but an
encoding is read, so malformed bytes are refused; and programs are validated when they are read. -/
theorem fixed_exact : fixed.Faithful ∧ fixed.Refuses ∧ fixed.Validates :=
  ⟨fixed_faithful, fixed_refuses, fixed_validates⟩

end Layout

end Garbling
