import Mathlib
import Garbling.HalfGate

/-!
# Half gates on active labels

Labels form a commutative group of exponent two under exclusive or. An AND gate that was
garbled from two zero labels takes the active labels of its inputs to the active label of
their conjunction, whatever the pad is, as long as the offset changes colors.
-/

namespace Garbling

namespace Label

@[ext] theorem ext {a b : Label} (bits : a.bits = b.bits) : a = b := by
  cases a
  cases b
  cases bits
  rfl

theorem xor_comm (a b : Label) : a ^^^ b = b ^^^ a :=
  ext (BitVec.xor_comm a.bits b.bits)

theorem xor_assoc (a b c : Label) : a ^^^ b ^^^ c = a ^^^ (b ^^^ c) :=
  ext (BitVec.xor_assoc a.bits b.bits c.bits)

theorem xor_left_comm (a b c : Label) : a ^^^ (b ^^^ c) = b ^^^ (a ^^^ c) := by
  rw [← xor_assoc, xor_comm a b, xor_assoc]

@[simp] theorem xor_self (a : Label) : a ^^^ a = zero := ext BitVec.xor_self

@[simp] theorem xor_zero (a : Label) : a ^^^ zero = a := ext BitVec.xor_zero

@[simp] theorem zero_xor (a : Label) : zero ^^^ a = a := ext BitVec.zero_xor

@[simp] theorem xor_xor_cancel_left (a b : Label) : a ^^^ (a ^^^ b) = b := by
  rw [← xor_assoc, xor_self, zero_xor]

@[simp] theorem xor_xor_cancel_right (a b : Label) : a ^^^ b ^^^ b = a := by
  rw [xor_assoc, xor_self, xor_zero]

@[simp] theorem color_xor (a b : Label) : (a ^^^ b).color = (a.color ^^ b.color) :=
  BitVec.getLsbD_xor

@[simp] theorem color_zero : zero.color = false := rfl

@[simp] theorem select_true (a : Label) : a.select true = a := rfl

@[simp] theorem select_false (a : Label) : a.select false = zero := rfl

end Label

namespace Offset

/-- The offset changes colors: its least significant bit is set. -/
def Colored (offset : Offset) : Prop := offset.toLabel.color = true

/-- The offsets that are drawn change colors. -/
theorem colored_colored (bits : Word) : (Offset.colored bits).Colored := by
  simp [Colored, Offset.colored, toLabel, Label.color]

@[simp] theorem times_true (offset : Offset) : offset.times true = offset.toLabel := rfl

@[simp] theorem times_false (offset : Offset) : offset.times false = .zero := rfl

theorem times_xor (offset : Offset) (a b : Bool) :
    offset.times (a ^^ b) = offset.times a ^^^ offset.times b := by
  cases a <;> cases b <;> simp

theorem color_times {offset : Offset} (colored : offset.Colored) (bit : Bool) :
    (offset.times bit).color = bit := by
  cases bit with
  | false => simp
  | true => exact colored

end Offset

/-- The label of a wire with the given zero label that stands for a truth value. -/
def Label.active (zero : Label) (offset : Offset) (bit : Bool) : Label :=
  zero ^^^ offset.times bit

namespace Label

@[simp] theorem active_false (zero : Label) (offset : Offset) : zero.active offset false = zero :=
  zero.xor_zero

theorem active_xor (a b : Label) (offset : Offset) (x y : Bool) :
    (a ^^^ b).active offset (x ^^ y) = a.active offset x ^^^ b.active offset y := by
  simp only [active, Offset.times_xor, xor_assoc, xor_left_comm b]

theorem active_garbleNot (a : Label) (offset : Offset) (x : Bool) :
    (garbleNot offset a).active offset (!x) = a.active offset x := by
  cases x <;> simp [garbleNot, active]

/-- The mask of a wire tells its truth value from its active label. -/
theorem decode_active {offset : Offset} (colored : offset.Colored) (zero : Label) (bit : Bool) :
    Mask.decode ⟨zero.color⟩ (zero.active offset bit) = bit := by
  cases shade : zero.color <;> simp [Mask.decode, active, Offset.color_times colored, shade]

end Label

/-- The half of an AND gate whose input the garbler knows gives the label of the conjunction
of that input with the color of the other zero label. -/
private theorem garblerHalf_active (pad : Pad) {offset : Offset} (colored : offset.Colored)
    (tweak : Word) (a : Label) (x color : Bool) :
    let ciphertext := pad a tweak ^^^ pad (a ^^^ offset.toLabel) tweak ^^^ offset.times color
    pad (a.active offset x) tweak ^^^ ciphertext.select (a.active offset x).color =
      (pad a tweak ^^^ ciphertext.select a.color).active offset (x && color) := by
  cases x <;> cases shade : a.color <;>
    simp [Label.active, shade, Label.xor_comm, Label.xor_left_comm,
      show offset.toLabel.color = true from colored]

/-- The half of an AND gate whose input the evaluator knows gives the label of the
conjunction of the first input with the bit that the color of the second one shows. -/
private theorem evaluatorHalf_active (pad : Pad) {offset : Offset} (colored : offset.Colored)
    (tweak : Word) (a b : Label) (x y : Bool) :
    let ciphertext := pad b tweak ^^^ pad (b ^^^ offset.toLabel) tweak ^^^ a
    pad (b.active offset y) tweak ^^^
        (ciphertext ^^^ a.active offset x).select (b.active offset y).color =
      (pad b tweak ^^^ (ciphertext ^^^ a).select b.color).active offset
        (x && (y ^^ b.color)) := by
  cases x <;> cases y <;> cases shade : b.color <;>
    simp [Label.active, shade, Label.xor_assoc, Label.xor_comm, Label.xor_left_comm,
      show offset.toLabel.color = true from colored]

/-- A garbled gate takes the active labels of its inputs to the active label of its output. -/
theorem Gate.evaluate_active (pad : Pad) {offset : Offset} (colored : offset.Colored)
    (index : UInt64) (a b : Label) (x y : Bool) :
    Gate.evaluate pad (Gate.garble pad offset index a b).1 index (a.active offset x)
        (b.active offset y) =
      (Gate.garble pad offset index a b).2.active offset (x && y) := by
  have first := garblerHalf_active pad colored (tweak index 0) a x b.color
  have second := evaluatorHalf_active pad colored (tweak index 1) a b x y
  have split : (x && y) = ((x && b.color) ^^ (x && (y ^^ b.color))) := by
    cases x <;> cases y <;> simp
  simp only [Gate.evaluate, Gate.garble] at first second ⊢
  rw [first, second, split, Label.active_xor]

end Garbling
