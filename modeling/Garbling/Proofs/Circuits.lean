import Mathlib
import Garbling.Proofs.HalfGate

/-!
# Circuits of half gates

A circuit adds one wire after the other, each the output of a gate over earlier wires. The garbler
finds the zero label of every wire and a garbled gate for every conjunction; the evaluator finds
the active labels from the gates and the active labels of the inputs. Whatever the pad is, every
active label stands for the truth value of its wire, and the color of the zero label tells it.
-/

namespace Garbling

/-- What a wire is made of: a gate over earlier wires, which are given by their numbers. -/
inductive Connective where
  | and (left right : Nat)
  | xor (left right : Nat)
  | not (operand : Nat)

/-- The gates of a circuit, in order. Each adds a wire behind the wires there are. -/
abbrev Circuit := List Connective

namespace Circuit

/-- The label of a wire. -/
def label (labels : List Label) (wire : Nat) : Label := labels.getD wire .zero

/-- The truth values of all wires, from those of the inputs. -/
def values : Circuit → List Bool → List Bool
  | [], bits => bits
  | gate :: rest, bits =>
      let bit (wire : Nat) : Bool := bits.getD wire false
      values rest <| bits ++ [match gate with
        | .and left right => bit left && bit right
        | .xor left right => bit left ^^ bit right
        | .not operand => !bit operand]

/-- The garbled gates and the zero labels of all wires, from the zero labels of the inputs.
`index` is that of the next conjunction. -/
def garble (pad : Pad) (offset : Offset) :
    (index : UInt64) → Circuit → List Label → List Gate × List Label
  | _, [], zeros => ([], zeros)
  | index, .and left right :: rest, zeros =>
      let (gate, zero) := Gate.garble pad offset index (label zeros left) (label zeros right)
      let (gates, zeros) := garble pad offset (index + 1) rest (zeros ++ [zero])
      (gate :: gates, zeros)
  | index, .xor left right :: rest, zeros =>
      garble pad offset index rest (zeros ++ [label zeros left ^^^ label zeros right])
  | index, .not operand :: rest, zeros =>
      garble pad offset index rest (zeros ++ [garbleNot offset (label zeros operand)])

/-- The active labels of all wires, from those of the inputs and from the garbled gates. Without a
gate for a conjunction there are no further wires. -/
def evaluate (pad : Pad) : (index : UInt64) → Circuit → List Gate → List Label → List Label
  | _, [], _, actives => actives
  | index, .and left right :: rest, gate :: gates, actives =>
      evaluate pad (index + 1) rest gates
        (actives ++ [gate.evaluate pad index (label actives left) (label actives right)])
  | _, .and .. :: _, [], actives => actives
  | index, .xor left right :: rest, gates, actives =>
      evaluate pad index rest gates (actives ++ [label actives left ^^^ label actives right])
  | index, .not operand :: rest, gates, actives =>
      evaluate pad index rest gates (actives ++ [label actives operand])

/-- Every wire has the active label that stands for its truth value. -/
structure Active (offset : Offset) (zeros actives : List Label) (bits : List Bool) : Prop where
  zeros_length : zeros.length = bits.length
  actives_length : actives.length = bits.length
  label_eq (wire : Nat) :
    label actives wire = (label zeros wire).active offset (bits.getD wire false)

namespace Active

variable {offset : Offset} {zeros actives : List Label} {bits : List Bool}

/-- The wires of some zero labels and truth values. -/
theorem of_zipWith (length : zeros.length = bits.length) :
    Active offset zeros (List.zipWith (fun zero bit => zero.active offset bit) zeros bits) bits where
  zeros_length := length
  actives_length := by simp [length]
  label_eq wire := by
    by_cases below : wire < bits.length
    · have found : wire < zeros.length := length ▸ below
      simp [label, found, below]
    · have beyond : ¬wire < zeros.length := length ▸ below
      simp [label, List.getD, beyond, below]

/-- One more wire. -/
theorem push (active : Active offset zeros actives bits) (zero : Label) (bit : Bool) :
    Active offset (zeros ++ [zero]) (actives ++ [zero.active offset bit]) (bits ++ [bit]) where
  zeros_length := by simp [active.zeros_length]
  actives_length := by simp [active.actives_length]
  label_eq wire := by
    have held := active.label_eq wire
    simp only [label, List.getD_eq_getElem?_getD, List.getElem?_append, active.zeros_length,
      active.actives_length] at held ⊢
    by_cases below : wire < bits.length
    · simpa only [if_pos below] using held
    · simp only [if_neg below]
      cases wire - bits.length <;> simp

/-- Evaluating the garbled gates gives every wire of the circuit its active label. -/
theorem evaluate_garble (pad : Pad) (colored : offset.Colored) (index : UInt64) (circuit : Circuit)
    (active : Active offset zeros actives bits) :
    Active offset (garble pad offset index circuit zeros).2
      (evaluate pad index circuit (garble pad offset index circuit zeros).1 actives)
      (circuit.values bits) := by
  induction circuit generalizing index zeros actives bits with
  | nil => exact active
  | cons gate rest inductionHypothesis =>
      cases gate with
      | and left right =>
          simp only [garble, evaluate, values, active.label_eq left, active.label_eq right,
            Gate.evaluate_active pad colored]
          exact inductionHypothesis (index + 1) (active.push _ _)
      | xor left right =>
          simp only [garble, evaluate, values, active.label_eq left, active.label_eq right,
            ← Label.active_xor]
          exact inductionHypothesis index (active.push _ _)
      | not operand =>
          simp only [garble, evaluate, values, active.label_eq operand]
          rw [← Label.active_garbleNot]
          exact inductionHypothesis index (active.push _ _)

/-- The mask of a wire decodes its active label. -/
theorem decode (active : Active offset zeros actives bits) (colored : offset.Colored)
    (wire : Nat) : Mask.decode ⟨(label zeros wire).color⟩ (label actives wire) =
      bits.getD wire false := by
  rw [active.label_eq]
  exact Label.decode_active colored _ _

end Active

/-- A garbled AND gate takes active labels to the active label of the conjunction. In a circuit of
AND, XOR and NOT gates every wire gets its active label, and its mask decodes it to the truth value
of the wire. -/
theorem evaluates_and_decodes (pad : Pad) {offset : Offset} (colored : offset.Colored) :
    (∀ (index : UInt64) (a b : Label) (x y : Bool),
      Gate.evaluate pad (Gate.garble pad offset index a b).1 index (a ^^^ offset.times x)
          (b ^^^ offset.times y) =
        (Gate.garble pad offset index a b).2 ^^^ offset.times (x && y)) ∧
    ∀ (index : UInt64) (circuit : Circuit) (zeros : List Label) (bits : List Bool),
      zeros.length = bits.length →
      let (gates, allZeros) := circuit.garble pad offset index zeros
      let actives := circuit.evaluate pad index gates
        (zeros.zipWith (fun zero bit => zero ^^^ offset.times bit) bits)
      actives.length = (circuit.values bits).length ∧
      ∀ wire,
        label actives wire =
          label allZeros wire ^^^ offset.times ((circuit.values bits).getD wire false) ∧
        Mask.decode ⟨(label allZeros wire).color⟩ (label actives wire) =
          (circuit.values bits).getD wire false := by
  refine ⟨fun index a b x y => Gate.evaluate_active pad colored index a b x y, ?_⟩
  intro index circuit zeros bits length
  have active := (Active.of_zipWith length).evaluate_garble pad colored index circuit
  exact ⟨active.actives_length, fun wire => ⟨active.label_eq wire, active.decode colored wire⟩⟩

/-- The conjunction of a negated wire and of the difference of two others, garbled with an offset
that has two bits set. -/
theorem difference_evaluates_and_decodes :
    let pad : Pad := fun label tweak => ⟨label.bits * 3 + tweak⟩
    let offset : Offset := ⟨9⟩
    let zeros : List Label := [⟨2⟩, ⟨7⟩, ⟨12⟩]
    let bits := [false, true, false]
    let circuit : Circuit := [.not 0, .xor 1 2, .and 3 4]
    let (gates, allZeros) := circuit.garble pad offset 4 zeros
    let actives := circuit.evaluate pad 4 gates
      (zeros.zipWith (fun zero bit => zero ^^^ offset.times bit) bits)
    offset.Colored ∧ zeros.length = bits.length ∧ gates.length = 1 ∧
      actives.length = 6 ∧ Mask.decode ⟨(label allZeros 5).color⟩ (label actives 5) = true := by
  intro pad offset zeros bits circuit
  have colored : offset.Colored := by unfold Offset.Colored; decide
  obtain ⟨length, wires⟩ := (evaluates_and_decodes pad colored).2 4 circuit zeros bits rfl
  exact ⟨colored, rfl, rfl, length, (wires 5).2.trans rfl⟩

end Circuit

end Garbling
