import Mathlib
import Garbling.Proofs.RoundTrip
import Garbling.Proofs.Validation
import Garbling.Wire.Program

/-!
# Only encodings are read

In the layout of the wire every value has one encoding, and nothing else is read: whatever is
read is a proper value, and the bytes that were used up are its encoding. Together with exactness
this tells for every byte string whether it is read and as what. What is cut short is refused.
-/

namespace Garbling

variable {α β : Type}

/-- The bytes of a byte array are those of its data. -/
theorem byteArray_toList (bytes : ByteArray) : bytes.toList = bytes.data.toList := by
  have loop (index : Nat) (reversed : List UInt8) :
      ByteArray.toList.loop bytes index reversed =
        reversed.reverse ++ bytes.data.toList.drop index := by
    fun_induction ByteArray.toList.loop bytes index reversed with
    | case1 index reversed within inductionHypothesis =>
        rw [inductionHypothesis, List.reverse_cons, List.append_assoc]
        have inside : index < bytes.data.toList.length := by
          rw [Array.length_toList]
          exact within
        rw [List.drop_eq_getElem_cons inside, List.singleton_append]
        congr 2
        rw [Array.getElem_toList]
        exact getElem!_pos bytes.data index within
    | case2 index reversed beyond =>
        have outside : bytes.data.toList.length ≤ index := by
          rw [Array.length_toList]
          exact Nat.le_of_not_lt beyond
        rw [List.drop_eq_nil_of_le outside, List.append_nil]
  exact loop 0 []

namespace Text

/-- Exactly the encoding of a text is decoded, and to that text. -/
theorem decode_eq_ok_iff {bytes : Bytes} {text : String} :
    decode bytes = .ok text ↔ bytes = encode text := by
  have same (text : String) : text.toByteArray.toList.toByteArray = text.toByteArray := by
    rw [byteArray_toList]
    apply ByteArray.ext
    rw [List.data_toByteArray]
  constructor
  · intro found
    simp only [decode, String.fromUTF8?] at found
    split at found
    · next decoded read =>
      split at read
      · next valid =>
        cases read
        cases found
        simp [encode, byteArray_toList, String.fromUTF8]
      · cases read
    · cases found
  · rintro rfl
    have valid : text.toByteArray.IsValidUTF8 := text.isValidUTF8
    simp only [decode, encode, String.fromUTF8?, same, dif_pos valid]
    rfl

/-- Bytes are decoded exactly if they are UTF-8. -/
theorem exists_decode_iff {bytes : Bytes} :
    (∃ text, decode bytes = .ok text) ↔ bytes.toByteArray.IsValidUTF8 := by
  simp only [decode, String.fromUTF8?]
  constructor
  · rintro ⟨text, found⟩
    split at found
    · next read =>
      split at read
      · assumption
      · cases read
    · cases found
  · intro valid
    rw [dif_pos valid]
    exact ⟨_, rfl⟩

end Text

namespace Decoder

theorem byte_eq_ok {bytes rest : Bytes} {value : UInt8} :
    byte bytes = .ok (value, rest) ↔ bytes = value :: rest := by
  cases bytes with
  | nil => exact ⟨nofun, nofun⟩
  | cons first others =>
      constructor
      · intro found
        cases found
        rfl
      · intro same
        cases same
        rfl

/-- What follows a failure is not reached. -/
theorem bind_apply_error {first : Decoder α} {next : α → Decoder β} {bytes : Bytes}
    {error : DecodeError} (failed : first bytes = .error error) :
    (first >>= next) bytes = .error error := by
  change (first bytes >>= fun found => next found.1 found.2) = _
  rw [failed]
  rfl

theorem throw_ne_ok {error : DecodeError} {bytes rest : Bytes} {value : α} :
    (throw error : Decoder α) bytes ≠ .ok (value, rest) := nofun

end Decoder

namespace Format

/-- Whatever is read is a proper value, and what was used up is its encoding. -/
def Canonical (format : Format α) (proper : α → Prop) : Prop :=
  ∀ ⦃bytes rest : Bytes⦄ ⦃value : α⦄, format.decode bytes = .ok (value, rest) →
    proper value ∧ bytes = format.encode value ++ rest

variable {format : Format α} {other : Format β} {proper : α → Prop} {fitting : β → Prop}

theorem Canonical.map {into : α → β} {back : β → α} (canonical : format.Canonical proper)
    (inverse : ∀ value, proper value → back (into value) = value) :
    (format.map into back).Canonical fun value => proper (back value) := by
  intro bytes rest value found
  obtain ⟨read, readFound, rfl⟩ := Decoder.map_eq_ok.mp found
  have readProper := (canonical readFound).1
  simp only [Format.map, inverse read readProper]
  exact canonical readFound

theorem Canonical.pair (first : format.Canonical proper) (second : other.Canonical fitting) :
    (format.pair other).Canonical fun value => proper value.1 ∧ fitting value.2 := by
  rintro bytes rest ⟨one, two⟩ found
  obtain ⟨middle, oneFound, twoFound⟩ := pair_decode.mp found
  obtain ⟨oneProper, rfl⟩ := first oneFound
  obtain ⟨twoFitting, rfl⟩ := second twoFound
  exact ⟨⟨oneProper, twoFitting⟩, (List.append_assoc _ _ _).symm⟩

theorem Canonical.weaken (canonical : format.Canonical proper) {weaker : α → Prop}
    (weakens : ∀ value, proper value → weaker value) : format.Canonical weaker := by
  intro bytes rest value found
  obtain ⟨properly, written⟩ := canonical found
  exact ⟨weakens value properly, written⟩

theorem byte_canonical : Format.byte.Canonical fun _ => True := by
  intro bytes rest value found
  exact ⟨trivial, Decoder.byte_eq_ok.mp found⟩

theorem bool_canonical : Format.bool.Canonical fun _ => True := by
  intro bytes rest value found
  obtain ⟨byte, middle, byteFound, chosen⟩ := Decoder.bind_eq_ok.mp found
  obtain rfl := Decoder.byte_eq_ok.mp byteFound
  split at chosen
  · cases chosen
    exact ⟨trivial, rfl⟩
  · cases chosen
    exact ⟨trivial, rfl⟩
  · exact absurd chosen Decoder.throw_ne_ok

theorem block_canonical (size : Nat) : (Format.block size).Canonical fun _ => True := by
  intro bytes rest value found
  simp only [Format.block] at found
  split at found
  · cases found
    exact ⟨trivial, (List.take_append_drop size bytes).symm⟩
  · cases found

/-- A number that was read is below the power of its width. -/
theorem number_canonical (width : Nat) :
    (number width).Canonical fun value => value < 256 ^ width := by
  intro bytes rest value found
  obtain ⟨taken, takenFound, rfl⟩ := Decoder.map_eq_ok.mp found
  obtain ⟨rfl, rfl⟩ := Decoder.take_eq_ok.mp takenFound
  refine ⟨Bytes.toNat_lt taken, ?_⟩
  simp only [number, Bytes.ofNat_toNat]

theorem Canonical.optional (canonical : format.Canonical proper) :
    format.optional.Canonical fun value => ∀ inner, value = some inner → proper inner := by
  intro bytes rest value found
  obtain ⟨byte, middle, byteFound, chosen⟩ := Decoder.bind_eq_ok.mp found
  obtain rfl := Decoder.byte_eq_ok.mp byteFound
  split at chosen
  · cases chosen
    exact ⟨nofun, rfl⟩
  · obtain ⟨inner, after, innerFound, same⟩ := Decoder.bind_eq_ok.mp chosen
    cases same
    obtain ⟨innerProper, rfl⟩ := canonical innerFound
    refine ⟨?_, rfl⟩
    intro found same
    cases same
    exact innerProper
  · exact absurd chosen Decoder.throw_ne_ok

theorem ExactAt.optional {value : Option α}
    (exact : ∀ inner, value = some inner → format.ExactAt inner) :
    format.optional.ExactAt value := by
  intro rest
  cases value with
  | none => rfl
  | some inner =>
      have head : Decoder.byte (1 :: (format.encode inner ++ rest)) =
          .ok (1, format.encode inner ++ rest) := rfl
      simp only [Format.optional, List.cons_append]
      rw [Decoder.bind_apply head]
      exact (Decoder.bind_apply (exact inner rfl rest)).trans rfl

/-- Values that are admitted from another type are read if they are admitted. -/
theorem mapChecked_eq_ok {into : α → Except DecodeError β} {back : β → α} {bytes rest : Bytes}
    {value : β} :
    (format.mapChecked into back).decode bytes = .ok (value, rest) ↔
      ∃ read, format.decode bytes = .ok (read, rest) ∧ into read = .ok value := by
  rw [mapChecked, Decoder.bind_eq_ok]
  constructor
  · rintro ⟨read, middle, readFound, admitted⟩
    cases verdict : into read with
    | error error =>
        rw [verdict] at admitted
        cases admitted
    | ok admittedValue =>
        rw [verdict] at admitted
        cases admitted
        exact ⟨read, readFound, verdict⟩
  · rintro ⟨read, readFound, verdict⟩
    refine ⟨read, rest, readFound, ?_⟩
    rw [verdict]
    rfl

end Format

namespace Layout

variable {format : Format α} {proper : α → Prop}

theorem fixed_word32_canonical : fixed.word32.Canonical fun _ => True :=
  ((Format.number_canonical 4).map fun _ small => UInt32.toNat_ofNat_of_lt' small).weaken
    fun _ _ => trivial

theorem fixed_word64_canonical : fixed.word64.Canonical fun _ => True :=
  ((Format.number_canonical 8).map fun _ small => UInt64.toNat_ofNat_of_lt' small).weaken
    fun _ _ => trivial

theorem fixed_word128_canonical : fixed.word128.Canonical fun _ => True :=
  ((Format.number_canonical 16).map fun _ small => Nat.mod_eq_of_lt small).weaken
    fun _ _ => trivial

/-- Values that were read one after the other were written one after the other. -/
theorem repeated_canonical (canonical : format.Canonical proper) {count : Nat}
    {bytes rest : Bytes} {values : List α}
    (found : Decoder.repeated format.decode count bytes = .ok (values, rest)) :
    (∀ value ∈ values, proper value) ∧ bytes = values.flatMap format.encode ++ rest := by
  induction count generalizing bytes values with
  | zero =>
      cases found
      exact ⟨nofun, rfl⟩
  | succ count inductionHypothesis =>
      simp only [Decoder.repeated, Decoder.bind_eq_ok] at found
      obtain ⟨value, middle, valueFound, others, after, othersFound, same⟩ := found
      cases same
      obtain ⟨valueProper, rfl⟩ := canonical valueFound
      obtain ⟨othersProper, rfl⟩ := inductionHypothesis othersFound
      refine ⟨List.forall_mem_cons.mpr ⟨valueProper, othersProper⟩, ?_⟩
      rw [List.flatMap_cons, List.append_assoc]

theorem list_canonical (canonical : format.Canonical proper) :
    (fixed.list format).Canonical fun values =>
      values.length < UInt64.size ∧ ∀ value ∈ values, proper value := by
  intro bytes rest values found
  have short := list_length_lt found
  obtain ⟨count, middle, counted, valuesFound⟩ := Decoder.bind_eq_ok.mp found
  obtain ⟨_, rfl⟩ := fixed_word64_canonical counted
  have length := Decoder.repeated_length valuesFound
  obtain ⟨allProper, rfl⟩ := repeated_canonical canonical valuesFound
  refine ⟨⟨short, allProper⟩, ?_⟩
  simp only [Layout.list, length, UInt64.ofNat_toNat, List.append_assoc]

/-- A number of an alternative that was read is written as that number. -/
theorem variant_canonical {count : Nat} {chosen : Fin count} {bytes rest : Bytes}
    (found : fixed.variant count bytes = .ok (chosen, rest)) :
    bytes = fixed.word32.encode (UInt32.ofNat chosen.val) ++ rest := by
  obtain ⟨number, middle, numberFound, picked⟩ := Decoder.bind_eq_ok.mp found
  obtain ⟨_, rfl⟩ := fixed_word32_canonical numberFound
  split at picked
  · cases picked
    rw [UInt32.ofNat_toNat]
  · exact absurd picked Decoder.throw_ne_ok

theorem text_canonical :
    fixed.text.Canonical fun text => (Text.encode text).length < UInt64.size := by
  intro bytes rest text found
  obtain ⟨count, middle, counted, read⟩ := Decoder.bind_eq_ok.mp found
  obtain ⟨_, rfl⟩ := fixed_word64_canonical counted
  obtain ⟨content, after, taken, decoded⟩ := Decoder.bind_eq_ok.mp read
  obtain ⟨rfl, length⟩ := Decoder.take_eq_ok.mp taken
  cases verdict : Text.decode content with
  | error fault =>
      rw [verdict] at decoded
      exact absurd decoded Decoder.throw_ne_ok
  | ok value =>
      rw [verdict] at decoded
      cases decoded
      obtain rfl := Text.decode_eq_ok_iff.mp verdict
      refine ⟨length.trans_lt count.toNat_lt_size, ?_⟩
      simp only [Layout.text, length, UInt64.ofNat_toNat, List.append_assoc]

/-- A text after the number of its bytes is read as what the bytes decode to. -/
theorem text_decode {content : Bytes} (short : content.length < UInt64.size) (rest : Bytes) :
    fixed.text.decode (fixed.word64.encode (UInt64.ofNat content.length) ++ content ++ rest) =
      match Text.decode content with
      | .ok text => .ok (text, rest)
      | .error fault => .error (.invalidText fault) := by
  have count : (UInt64.ofNat content.length).toNat = content.length :=
    UInt64.toNat_ofNat_of_lt' short
  simp only [Layout.text, List.append_assoc]
  rw [Decoder.bind_apply (sound_fixed.word64 _ _), count,
    Decoder.bind_apply (Decoder.take_append rfl rest)]
  cases Text.decode content <;> rfl

theorem text_exactAt {text : String} (short : (Text.encode text).length < UInt64.size) :
    fixed.text.ExactAt text := by
  intro rest
  have decoded := Text.decode_eq_ok_iff.mpr (rfl : Text.encode text = Text.encode text)
  have found := text_decode short rest
  rw [decoded] at found
  exact found

theorem mode_canonical : fixed.mode.Canonical fun _ => True := by
  intro bytes rest value found
  obtain ⟨chosen, middle, chosenFound, picked⟩ := Decoder.bind_eq_ok.mp found
  obtain rfl := variant_canonical chosenFound
  clear chosenFound found
  match chosen with
  | 0 =>
      cases picked
      exact ⟨trivial, rfl⟩
  | 1 =>
      cases picked
      exact ⟨trivial, rfl⟩

section Words

variable {bytes rest : Bytes} {value : α}

/-- A value that is made of one word. -/
theorem word_eq_ok {make : UInt64 → α} :
    (do return make (← fixed.word64.decode) : Decoder α) bytes = .ok (value, rest) ↔
      ∃ first, value = make first ∧ bytes = fixed.word64.encode first ++ rest := by
  rw [Decoder.bind_eq_ok]
  constructor
  · rintro ⟨first, middle, found, same⟩
    cases same
    exact ⟨first, rfl, (fixed_word64_canonical found).2⟩
  · rintro ⟨first, rfl, rfl⟩
    exact ⟨first, rest, sound_fixed.word64 first rest, rfl⟩

/-- A value that is made of two words. -/
theorem twoWords_eq_ok {make : UInt64 → UInt64 → α} :
    (do return make (← fixed.word64.decode) (← fixed.word64.decode) : Decoder α) bytes =
        .ok (value, rest) ↔
      ∃ first second, value = make first second ∧
        bytes = fixed.word64.encode first ++ (fixed.word64.encode second ++ rest) := by
  rw [Decoder.bind_eq_ok]
  constructor
  · rintro ⟨first, middle, found, others⟩
    obtain ⟨second, rfl, rfl⟩ := word_eq_ok.mp others
    exact ⟨first, second, rfl, (fixed_word64_canonical found).2⟩
  · rintro ⟨first, second, rfl, rfl⟩
    exact ⟨first, _, sound_fixed.word64 first _, word_eq_ok.mpr ⟨second, rfl, rfl⟩⟩

/-- A value that is made of three words. -/
theorem threeWords_eq_ok {make : UInt64 → UInt64 → UInt64 → α} :
    (do return make (← fixed.word64.decode) (← fixed.word64.decode) (← fixed.word64.decode) :
        Decoder α) bytes = .ok (value, rest) ↔
      ∃ first second third, value = make first second third ∧
        bytes = fixed.word64.encode first ++
          (fixed.word64.encode second ++ (fixed.word64.encode third ++ rest)) := by
  rw [Decoder.bind_eq_ok]
  constructor
  · rintro ⟨first, middle, found, others⟩
    obtain ⟨second, third, rfl, rfl⟩ := twoWords_eq_ok.mp others
    exact ⟨first, second, third, rfl, (fixed_word64_canonical found).2⟩
  · rintro ⟨first, second, third, rfl, rfl⟩
    exact ⟨first, _, sound_fixed.word64 first _, twoWords_eq_ok.mpr ⟨second, third, rfl, rfl⟩⟩

end Words

theorem registers_canonical :
    fixed.registers.Canonical fun registers => registers.length < UInt64.size :=
  (list_canonical fixed_word64_canonical).weaken fun _ proper => proper.1

theorem instruction_canonical :
    fixed.instruction.Canonical fun instruction => instruction.width < UInt64.size := by
  intro bytes rest instruction found
  obtain ⟨chosen, middle, chosenFound, picked⟩ := Decoder.bind_eq_ok.mp found
  obtain rfl := variant_canonical chosenFound
  clear chosenFound found
  match chosen with
  | 0 =>
      obtain ⟨dst, rfl, rfl⟩ := word_eq_ok.mp picked
      simp [Layout.instruction, alternative, Instruction.width]
  | 1 =>
      obtain ⟨dst, rfl, rfl⟩ := word_eq_ok.mp picked
      simp [Layout.instruction, alternative, Instruction.width]
  | 2 =>
      obtain ⟨dst, lhs, rhs, rfl, rfl⟩ := threeWords_eq_ok.mp picked
      simp [Layout.instruction, alternative, Instruction.width]
  | 3 =>
      obtain ⟨dst, lhs, rhs, rfl, rfl⟩ := threeWords_eq_ok.mp picked
      simp [Layout.instruction, alternative, Instruction.width]
  | 4 =>
      obtain ⟨dst, src, rfl, rfl⟩ := twoWords_eq_ok.mp picked
      simp [Layout.instruction, alternative, Instruction.width]
  | 5 =>
      obtain ⟨dst, after, dstFound, others⟩ := Decoder.bind_eq_ok.mp picked
      obtain ⟨_, rfl⟩ := fixed_word64_canonical dstFound
      obtain ⟨src, last, srcFound, same⟩ := Decoder.bind_eq_ok.mp others
      cases same
      obtain ⟨short, rfl⟩ := registers_canonical srcFound
      simp [Layout.instruction, alternative, Instruction.width, short]
  | 6 =>
      obtain ⟨src, last, srcFound, same⟩ := Decoder.bind_eq_ok.mp picked
      cases same
      obtain ⟨short, rfl⟩ := registers_canonical srcFound
      simp [Layout.instruction, alternative, Instruction.width, short]
  | 7 =>
      obtain ⟨dst, constant, rfl, rfl⟩ := twoWords_eq_ok.mp picked
      simp [Layout.instruction, alternative, Instruction.width]
  | 8 =>
      obtain ⟨src, base, offset, rfl, rfl⟩ := threeWords_eq_ok.mp picked
      simp [Layout.instruction, alternative, Instruction.width]
  | 9 =>
      obtain ⟨dst, base, offset, rfl, rfl⟩ := threeWords_eq_ok.mp picked
      simp [Layout.instruction, alternative, Instruction.width]
  | 10 =>
      obtain ⟨condition, target, rfl, rfl⟩ := twoWords_eq_ok.mp picked
      simp [Layout.instruction, alternative, Instruction.width]
  | 11 =>
      obtain ⟨target, rfl, rfl⟩ := word_eq_ok.mp picked
      simp [Layout.instruction, alternative, Instruction.width]

/-- An instruction is read by what reads the fields of its alternative. -/
theorem alternative_decode {next : Fin 12 → Decoder α} (number : Fin 12) {fields : List UInt64}
    {more rest : Bytes} {value : α}
    (read : next number (fields.flatMap fixed.word64.encode ++ more) = .ok (value, rest)) :
    (fixed.variant 12 >>= next)
      (fixed.alternative (UInt32.ofNat number.val) fields ++ more) = .ok (value, rest) := by
  rw [alternative, List.append_assoc]
  exact (Decoder.bind_apply (sound_fixed.variant number (by decide) _)).trans read

theorem instruction_exactAt {instruction : Instruction}
    (short : instruction.width < UInt64.size) : fixed.instruction.ExactAt instruction := by
  intro rest
  cases instruction with
  | garblerInput dst => exact alternative_decode 0 (word_eq_ok.mpr ⟨dst, rfl, by simp⟩)
  | evaluatorInput dst => exact alternative_decode 1 (word_eq_ok.mpr ⟨dst, rfl, by simp⟩)
  | xor dst lhs rhs =>
      exact alternative_decode 2 (threeWords_eq_ok.mpr ⟨dst, lhs, rhs, rfl, by simp⟩)
  | and dst lhs rhs =>
      exact alternative_decode 3 (threeWords_eq_ok.mpr ⟨dst, lhs, rhs, rfl, by simp⟩)
  | not dst src => exact alternative_decode 4 (twoWords_eq_ok.mpr ⟨dst, src, rfl, by simp⟩)
  | reveal dst src =>
      have wires := sound_fixed.openings short rest
      simp only [Layout.instruction, List.append_assoc]
      refine alternative_decode 5 ?_
      rw [List.flatMap_singleton]
      exact (Decoder.bind_apply (sound_fixed.word64 dst _)).trans
        ((Decoder.bind_apply wires).trans rfl)
  | output src =>
      have wires := sound_fixed.openings short rest
      simp only [Layout.instruction, List.append_assoc]
      exact alternative_decode 6 ((Decoder.bind_apply wires).trans rfl)
  | constant dst value =>
      exact alternative_decode 7 (twoWords_eq_ok.mpr ⟨dst, value, rfl, by simp⟩)
  | store src base offset =>
      exact alternative_decode 8 (threeWords_eq_ok.mpr ⟨src, base, offset, rfl, by simp⟩)
  | load dst base offset =>
      exact alternative_decode 9 (threeWords_eq_ok.mpr ⟨dst, base, offset, rfl, by simp⟩)
  | jumpIfZero condition target =>
      exact alternative_decode 10 (twoWords_eq_ok.mpr ⟨condition, target, rfl, by simp⟩)
  | jump target => exact alternative_decode 11 (word_eq_ok.mpr ⟨target, rfl, by simp⟩)

end Layout

end Garbling
