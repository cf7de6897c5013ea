import Mathlib
import Garbling.Proofs.Digits
import Garbling.Proofs.Action
import Garbling.Wire.Messages

/-!
# Reading what was written

A format is exact at a value if reading gives the value back and leaves whatever follows it.
The formats of messages are exact in both layouts, at values whose lists have fewer than
2^64 elements. Lists that were read are as short as that.
-/

namespace Garbling

variable {α β : Type}

namespace Decoder

/-- One value after the other. -/
theorem bind_apply {first : Decoder α} {next : α → Decoder β} {bytes rest : Bytes} {value : α}
    (found : first bytes = .ok (value, rest)) : (first >>= next) bytes = next value rest := by
  change (first bytes >>= fun found => next found.1 found.2) = _
  rw [found]
  rfl

theorem bind_eq_ok {first : Decoder α} {next : α → Decoder β} {bytes rest : Bytes} {result : β} :
    (first >>= next) bytes = .ok (result, rest) ↔
      ∃ value middle, first bytes = .ok (value, middle) ∧
        next value middle = .ok (result, rest) := by
  change (first bytes >>= fun found => next found.1 found.2) = _ ↔ _
  rw [except_bind_eq_ok]
  exact Prod.exists

theorem map_eq_ok {decoder : Decoder α} {change : α → β} {bytes rest : Bytes} {result : β} :
    (change <$> decoder) bytes = .ok (result, rest) ↔
      ∃ value, decoder bytes = .ok (value, rest) ∧ result = change value := by
  rw [← bind_pure_comp, bind_eq_ok]
  constructor
  · rintro ⟨value, middle, found, same⟩
    cases same
    exact ⟨value, found, rfl⟩
  · rintro ⟨value, found, rfl⟩
    exact ⟨value, rest, found, rfl⟩

theorem take_append {count : Nat} {shortage : DecodeError} {taken : Bytes}
    (length : taken.length = count) (rest : Bytes) :
    take count shortage (taken ++ rest) = .ok (taken, rest) := by
  subst length
  simp [take]

theorem take_eq_ok {count : Nat} {shortage : DecodeError} {bytes taken rest : Bytes} :
    take count shortage bytes = .ok (taken, rest) ↔ bytes = taken ++ rest ∧ taken.length = count := by
  constructor
  · intro success
    simp only [take] at success
    split at success
    · next length =>
        cases success
        exact ⟨(List.take_append_drop count bytes).symm, length⟩
    · cases success
  · rintro ⟨rfl, length⟩
    exact take_append length rest

theorem repeated_length {decoder : Decoder α} {count : Nat} {bytes rest : Bytes} {values : List α}
    (success : repeated decoder count bytes = .ok (values, rest)) : values.length = count := by
  induction count generalizing bytes values rest with
  | zero =>
      cases success
      rfl
  | succ count inductionHypothesis =>
      simp only [repeated, bind_eq_ok] at success
      obtain ⟨value, middle, _, others, after, found, same⟩ := success
      cases same
      simp [inductionHypothesis found]

end Decoder

namespace Format

/-- Reading gives the value back and leaves whatever follows it. -/
def ExactAt (format : Format α) (value : α) : Prop :=
  ∀ rest, format.decode (format.encode value ++ rest) = .ok (value, rest)

/-- Reading gives every value back and leaves whatever follows it. -/
def Exact (format : Format α) : Prop := ∀ value, format.ExactAt value

variable {format : Format α} {other : Format β}

/-- A message that holds the value and nothing else is read. -/
theorem ExactAt.decode {value : α} (exact : format.ExactAt value) :
    format.decode (format.encode value) = .ok (value, []) := by
  simpa using exact []

theorem ExactAt.map {into : α → β} {back : β → α} {value : β}
    (exact : format.ExactAt (back value)) (inverse : into (back value) = value) :
    (format.map into back).ExactAt value := by
  intro rest
  exact Decoder.map_eq_ok.mpr ⟨back value, exact rest, inverse.symm⟩

theorem ExactAt.pair {first : α} {second : β} (one : format.ExactAt first)
    (two : other.ExactAt second) : (format.pair other).ExactAt (first, second) := by
  intro rest
  simp only [Format.pair, List.append_assoc]
  rw [Decoder.bind_apply (one _), Decoder.bind_apply (two _)]
  rfl

theorem pair_decode {bytes rest : Bytes} {first : α} {second : β} :
    (format.pair other).decode bytes = .ok ((first, second), rest) ↔
      ∃ middle, format.decode bytes = .ok (first, middle) ∧
        other.decode middle = .ok (second, rest) := by
  simp only [pair, Decoder.bind_eq_ok]
  constructor
  · rintro ⟨one, middle, found, two, _, more, same⟩
    cases same
    exact ⟨middle, found, more⟩
  · rintro ⟨middle, found, more⟩
    exact ⟨first, middle, found, second, rest, more, rfl⟩

/-- Reading a number of fixed width uses up that many bytes. -/
theorem number_decode_length {width value : Nat} {bytes rest : Bytes}
    (success : (number width).decode bytes = .ok (value, rest)) :
    bytes.length = width + rest.length := by
  obtain ⟨taken, found, _⟩ := Decoder.map_eq_ok.mp success
  obtain ⟨rfl, rfl⟩ := Decoder.take_eq_ok.mp found
  exact List.length_append

theorem byte_exact : Format.byte.Exact := fun _ _ => rfl

theorem bool_exact : Format.bool.Exact := by
  intro value rest
  cases value <;> rfl

theorem block_exact (size : Nat) : (Format.block size).Exact := by
  intro value rest
  obtain ⟨bytes, length⟩ := value
  subst length
  simp [Format.block]

theorem number_exactAt {width value : Nat} (small : value < 256 ^ width) :
    (Format.number width).ExactAt value := by
  intro rest
  refine Decoder.map_eq_ok.mpr ⟨Bytes.ofNat width value, Decoder.take_append (Bytes.length_ofNat _ _) rest, ?_⟩
  rw [Bytes.toNat_ofNat, Nat.mod_eq_of_lt small]

/-- A byte below the marks is the number itself. -/
private theorem compactNumber_decode_small {byte : UInt8} (small : byte.toNat < 251)
    (rest : Bytes) : compactNumber.decode (byte :: rest) = .ok (byte.toNat, rest) := by
  have head : Decoder.byte (byte :: rest) = .ok (byte, rest) := rfl
  simp only [compactNumber]
  rw [Decoder.bind_apply head]
  split
  · exact absurd small (by decide)
  · exact absurd small (by decide)
  · exact absurd small (by decide)
  · exact absurd small (by decide)
  · exact absurd small (by decide)
  · rfl

theorem compactNumber_exactAt {value : Nat} (small : value < 256 ^ 16) :
    compactNumber.ExactAt value := by
  intro rest
  simp only [compactNumber]
  split
  · next tiny =>
      have same : (UInt8.ofNat value).toNat = value := by
        rw [UInt8.toNat_ofNat']
        omega
      have found := compactNumber_decode_small (same.trans_lt tiny) rest
      rw [same] at found
      exact found
  · split
    · next fits =>
        have two : value < 256 ^ 2 := by simpa using fits
        exact number_exactAt two rest
    · split
      · next fits =>
          have four : value < 256 ^ 4 := by simpa using fits
          exact number_exactAt four rest
      · split
        · next fits =>
            have eight : value < 256 ^ 8 := by simpa using fits
            exact number_exactAt eight rest
        · exact number_exactAt small rest

end Format

/-- A layout in which every number is read as it was written. -/
structure Layout.Sound (layout : Layout) : Prop where
  word32 : layout.word32.Exact
  word64 : layout.word64.Exact
  word128 : layout.word128.Exact

namespace Layout

theorem sound_ofNumbers {number : Nat → Format Nat}
    (exact : ∀ width value : Nat, width ≤ 16 → value < 256 ^ width → (number width).ExactAt value) :
    (ofNumbers number).Sound where
  word32 value := (exact 4 _ (by decide) value.toNat_lt).map UInt32.ofNat_toNat
  word64 value := (exact 8 _ (by decide) value.toNat_lt).map UInt64.ofNat_toNat
  word128 value := (exact 16 _ (by decide) value.isLt).map (by simp)

theorem sound_fixed : fixed.Sound :=
  sound_ofNumbers fun _ _ _ small => Format.number_exactAt small

theorem sound_compact : compact.Sound :=
  sound_ofNumbers fun _ _ width small =>
    Format.compactNumber_exactAt (small.trans_le (Nat.pow_le_pow_right (by decide) width))

variable {layout : Layout} {format : Format α}

theorem repeated_exact {values : List α} (exact : ∀ value ∈ values, format.ExactAt value)
    (rest : Bytes) :
    Decoder.repeated format.decode values.length (values.flatMap format.encode ++ rest) =
      .ok (values, rest) := by
  induction values with
  | nil => rfl
  | cons value others inductionHypothesis =>
      rw [List.flatMap_cons, List.append_assoc, List.length_cons, Decoder.repeated,
        Decoder.bind_apply (exact value (.head _) _),
        Decoder.bind_apply (inductionHypothesis fun other found => exact other (.tail _ found))]
      rfl

/-- Of a list whose number of values is no word, only the beginning is read. -/
theorem Sound.list_beginning (sound : layout.Sound) {values : List α}
    (exact : ∀ value ∈ values, format.ExactAt value) (rest : Bytes) :
    (layout.list format).decode ((layout.list format).encode values ++ rest) =
      .ok (values.take (values.length % UInt64.size),
        (values.drop (values.length % UInt64.size)).flatMap format.encode ++ rest) := by
  have beginning (value : α) (member : value ∈ values.take (values.length % UInt64.size)) :
      format.ExactAt value := exact value (List.mem_of_mem_take member)
  have found := repeated_exact beginning
    ((values.drop (values.length % UInt64.size)).flatMap format.encode ++ rest)
  have count : (UInt64.ofNat values.length).toNat = values.length % UInt64.size :=
    UInt64.toNat_ofNat'
  rw [List.length_take_of_le (Nat.mod_le _ _), ← List.append_assoc, ← List.flatMap_append,
    List.take_append_drop] at found
  simp only [Layout.list, List.append_assoc]
  rw [Decoder.bind_apply (sound.word64 _ _), count]
  exact found

/-- A list is exact if its values are and their number is a word. -/
theorem Sound.list (sound : layout.Sound) {values : List α}
    (exact : ∀ value ∈ values, format.ExactAt value) (short : values.length < UInt64.size) :
    (layout.list format).ExactAt values := by
  intro rest
  have found := sound.list_beginning exact rest
  rwa [Nat.mod_eq_of_lt short, List.take_length, List.drop_length] at found

/-- A list that was read has a number of values that is a word. -/
theorem list_length_lt {bytes rest : Bytes} {values : List α}
    (success : (layout.list format).decode bytes = .ok (values, rest)) :
    values.length < UInt64.size := by
  simp only [Layout.list, Decoder.bind_eq_ok] at success
  obtain ⟨count, middle, _, found⟩ := success
  rw [Decoder.repeated_length found]
  exact count.toNat_lt_size

theorem Sound.label (sound : layout.Sound) : layout.label.Exact :=
  fun value => (sound.word128 value.bits).map rfl

theorem Sound.gate (sound : layout.Sound) : layout.gate.Exact :=
  fun value => .map ((sound.label value.garblerHalf).pair (sound.label value.evaluatorHalf)) rfl

theorem mask_exact : mask.Exact := fun value => (Format.bool_exact value.color).map rfl

theorem Sound.gateBatch (sound : layout.Sound) {batch : GateBatch}
    (gates : batch.gates.length < UInt64.size)
    (garblerInputs : batch.garblerInputs.length < UInt64.size) :
    layout.gateBatch.ExactAt batch :=
  .map ((sound.word64 batch.number).pair <| (sound.word64 batch.firstGate).pair <|
    (sound.list (fun gate _ => sound.gate gate) gates).pair <|
      (sound.list (fun label _ => sound.label label) garblerInputs).pair <|
        sound.word64 batch.evaluatorInputs) rfl

theorem Sound.maskBatch (sound : layout.Sound) {batch : MaskBatch}
    (masks : batch.masks.length < UInt64.size) : layout.maskBatch.ExactAt batch :=
  .map ((sound.word64 batch.number).pair (sound.list (fun mask _ => mask_exact mask) masks)) rfl

/-- Of a half with more masks than a word can count, only the beginning is read. -/
theorem Sound.maskBatch_beginning (sound : layout.Sound) (batch : MaskBatch) :
    ∃ rest, layout.maskBatch.decode (layout.maskBatch.encode batch) =
      .ok (⟨batch.number, batch.masks.take (batch.masks.length % UInt64.size)⟩, rest) := by
  have masks := sound.list_beginning (fun mask (_ : mask ∈ batch.masks) => mask_exact mask) []
  rw [List.append_nil] at masks
  generalize (batch.masks.drop (batch.masks.length % UInt64.size)).flatMap mask.encode ++ [] =
    rest at masks
  have paired : (layout.word64.pair (layout.list mask)).decode
      ((layout.word64.pair (layout.list mask)).encode (batch.number, batch.masks)) =
        .ok ((batch.number, batch.masks.take (batch.masks.length % UInt64.size)), rest) := by
    simp only [Format.pair]
    rw [Decoder.bind_apply (sound.word64 _ _), Decoder.bind_apply masks]
    rfl
  exact ⟨rest, Decoder.map_eq_ok.mpr ⟨_, paired, rfl⟩⟩

theorem Sound.labels (sound : layout.Sound) {labels : List Label}
    (short : labels.length < UInt64.size) : layout.labels.ExactAt labels :=
  sound.list (fun label _ => sound.label label) short

theorem Sound.openings (sound : layout.Sound) {values : List UInt64}
    (short : values.length < UInt64.size) : layout.openings.ExactAt values :=
  sound.list (fun value _ => sound.word64 value) short

theorem Sound.columns (sound : layout.Sound) {columns : List Bytes}
    (short : columns.length < UInt64.size)
    (each : ∀ column ∈ columns, column.length < UInt64.size) : layout.columns.ExactAt columns :=
  sound.list (fun column found =>
    sound.list (fun byte _ => Format.byte_exact byte) (each column found)) short

theorem Sound.points (sound : layout.Sound) {points : List (Block 32)}
    (short : points.length < UInt64.size) : layout.points.ExactAt points :=
  sound.list (fun point _ => Format.block_exact 32 point) short

theorem Sound.ciphertexts (sound : layout.Sound) {ciphertexts : List (Word × Word)}
    (short : ciphertexts.length < UInt64.size) : layout.ciphertexts.ExactAt ciphertexts :=
  sound.list (fun pair _ => (sound.word128 pair.1).pair (sound.word128 pair.2)) short

theorem Sound.variant (sound : layout.Sound) {count : Nat} (chosen : Fin count)
    (small : count < UInt32.size) (rest : Bytes) :
    layout.variant count (layout.word32.encode (UInt32.ofNat chosen.val) ++ rest) =
      .ok (chosen, rest) := by
  have same : (UInt32.ofNat chosen.val).toNat = chosen.val :=
    UInt32.toNat_ofNat_of_lt' (chosen.isLt.trans small)
  simp only [Layout.variant]
  rw [Decoder.bind_apply (sound.word32 _ _), dif_pos (by rw [same]; exact chosen.isLt)]
  simp only [same]
  rfl

theorem Sound.mode (sound : layout.Sound) : layout.mode.Exact := by
  intro value rest
  cases value with
  | continuous =>
      have chosen := sound.variant (0 : Fin 2) (by decide) rest
      simp only [Layout.mode]
      exact (Decoder.bind_apply chosen).trans rfl
  | buffered =>
      have chosen := sound.variant (1 : Fin 2) (by decide) rest
      simp only [Layout.mode]
      exact (Decoder.bind_apply chosen).trans rfl

theorem Sound.handshake (sound : layout.Sound) : layout.handshake.Exact :=
  fun value => (sound.mode value.1).pair (sound.word64 value.2)

/-- The lists of a half that was read can be counted by words. -/
theorem gateBatch_lengths_lt {batch : GateBatch} {bytes rest : Bytes}
    (success : layout.gateBatch.decode bytes = .ok (batch, rest)) :
    batch.gates.length < UInt64.size ∧ batch.garblerInputs.length < UInt64.size := by
  obtain ⟨⟨number, firstGate, gates, garblerInputs, evaluatorInputs⟩, found, rfl⟩ :=
    Decoder.map_eq_ok.mp success
  obtain ⟨_, _, afterNumber⟩ := Format.pair_decode.mp found
  obtain ⟨_, _, afterFirst⟩ := Format.pair_decode.mp afterNumber
  obtain ⟨_, gatesFound, afterGates⟩ := Format.pair_decode.mp afterFirst
  obtain ⟨_, inputsFound, _⟩ := Format.pair_decode.mp afterGates
  exact ⟨list_length_lt gatesFound, list_length_lt inputsFound⟩

theorem maskBatch_length_lt {batch : MaskBatch} {bytes rest : Bytes}
    (success : layout.maskBatch.decode bytes = .ok (batch, rest)) :
    batch.masks.length < UInt64.size := by
  obtain ⟨⟨number, masks⟩, found, rfl⟩ := Decoder.map_eq_ok.mp success
  obtain ⟨_, _, masksFound⟩ := Format.pair_decode.mp found
  exact list_length_lt masksFound

/-- A message with labels is longer than a tag. -/
theorem labels_length_gt {labels : List Label} {bytes rest : Bytes}
    (success : fixed.labels.decode bytes = .ok (labels, rest)) (some : labels ≠ []) :
    8 < bytes.length := by
  simp only [Layout.labels, Layout.list, Decoder.bind_eq_ok] at success
  obtain ⟨count, middle, counted, found⟩ := success
  obtain ⟨_, countRead, _⟩ := Decoder.map_eq_ok.mp counted
  have head := Format.number_decode_length countRead
  cases number : count.toNat with
  | zero =>
      have none := Decoder.repeated_length found
      rw [number] at none
      exact absurd (List.eq_nil_of_length_eq_zero none) some
  | succ others =>
      rw [number] at found
      simp only [Decoder.repeated, Decoder.bind_eq_ok] at found
      obtain ⟨label, _, labelFound, _⟩ := found
      obtain ⟨_, bitsFound, _⟩ := Decoder.map_eq_ok.mp labelFound
      obtain ⟨_, bitsRead, _⟩ := Decoder.map_eq_ok.mp bitsFound
      have first := Format.number_decode_length bitsRead
      omega

end Layout

/-- The halves of a batch can be written down, apart from the number of masks. -/
structure BatchPair.Writable (batch : BatchPair) : Prop where
  gates : batch.gates.gates.length < UInt64.size
  garblerInputs : batch.gates.garblerInputs.length < UInt64.size

/-- The halves of a batch can be written down and read back. -/
structure BatchPair.Countable (batch : BatchPair) : Prop extends Writable batch where
  masks : batch.masks.masks.length < UInt64.size

/-- The halves of a batch that was read can be written down. -/
theorem BatchPair.Countable.of_decode {layout : Layout} {batch : BatchPair}
    {gates gatesRest masks masksRest : Bytes}
    (gatesRead : layout.gateBatch.decode gates = .ok (batch.gates, gatesRest))
    (masksRead : layout.maskBatch.decode masks = .ok (batch.masks, masksRest)) :
    batch.Countable where
  gates := (Layout.gateBatch_lengths_lt gatesRead).1
  garblerInputs := (Layout.gateBatch_lengths_lt gatesRead).2
  masks := Layout.maskBatch_length_lt masksRead

end Garbling
