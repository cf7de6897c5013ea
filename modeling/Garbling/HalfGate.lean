import Garbling.Label

/-!
# Half gates

An AND gate is garbled as two ciphertexts, one for the half in which the garbler knows an
input and one for the half in which the evaluator does. XOR gates need no ciphertext, and a
NOT gate exchanges the roles of the two labels of its wire.
-/

namespace Garbling

/-- The two ciphertexts of a garbled AND gate. -/
structure Gate where
  /-- The ciphertext of the half whose input the garbler knows. -/
  garblerHalf : Label
  /-- The ciphertext of the half whose input the evaluator knows. -/
  evaluatorHalf : Label
deriving DecidableEq

/-- A function that turns a label and a tweak into a pad. -/
abbrev Pad := Label → Word → Label

/-- The tweak of one half of the gate with the given index. Only the lowest bit of `half`
counts, so distinct gates and halves have distinct tweaks. -/
def tweak (index : UInt64) (half : UInt8) : Word :=
  BitVec.ofNat 128 (2 * index.toNat + half.toNat % 2)

namespace Gate

/-- Garbles an AND gate from the zero labels of its inputs. The result is the gate and the
zero label of its output. -/
def garble (pad : Pad) (offset : Offset) (index : UInt64) (a b : Label) : Gate × Label :=
  let first := tweak index 0
  let second := tweak index 1
  let padA := pad a first
  let padB := pad b second
  let garblerHalf := padA ^^^ pad (a ^^^ offset.toLabel) first ^^^ offset.times b.color
  let evaluatorHalf := padB ^^^ pad (b ^^^ offset.toLabel) second ^^^ a
  let outputGarbler := padA ^^^ garblerHalf.select a.color
  let outputEvaluator := padB ^^^ (evaluatorHalf ^^^ a).select b.color
  (⟨garblerHalf, evaluatorHalf⟩, outputGarbler ^^^ outputEvaluator)

/-- The active label of the output of an AND gate from the active labels of its inputs. -/
def evaluate (pad : Pad) (gate : Gate) (index : UInt64) (a b : Label) : Label :=
  let outputGarbler := pad a (tweak index 0) ^^^ gate.garblerHalf.select a.color
  let outputEvaluator := pad b (tweak index 1) ^^^ (gate.evaluatorHalf ^^^ a).select b.color
  outputGarbler ^^^ outputEvaluator

end Gate

/-- The zero label of the output of a NOT gate; the active label stays what it is. -/
def garbleNot (offset : Offset) (a : Label) : Label := a ^^^ offset.toLabel

end Garbling
