import Mathlib
import Garbling.Proofs.Together
import Garbling.Transfer.Base

/-!
# Base transfers deliver the chosen words

What the protocol needs of a suite is that a generator gives as many bytes as it is asked for,
and that points are names of the elements of a commutative group. Then the receiver of the base
transfers has the key of the word that it has chosen in each pair: the multiple of the sender's
point by the receiver's secret is the multiple of the receiver's point by the sender's secret,
once the choice has been taken out.
-/

namespace Garbling

/-- The elements of a commutative group that points of a suite stand for. -/
structure Suite.Interpretation (suite : Suite) (Group : Type) [AddCommGroup Group] where
  base : Group
  /-- The point stands for the element. There may be points that stand for none. -/
  Names : suite.Point → Group → Prop
  factor : suite.Scalar → Nat
  mulGenerator (scalar : suite.Scalar) : Names (suite.mulGenerator scalar) (factor scalar • base)
  mul {point : suite.Point} {element : Group} (scalar : suite.Scalar)
    (names : Names point element) : Names (suite.mul scalar point) (factor scalar • element)
  add {first second : suite.Point} {one two : Group} (names : Names first one)
    (others : Names second two) : Names (suite.add first second) (one + two)
  sub {first second : suite.Point} {one two : Group} (names : Names first one)
    (others : Names second two) : Names (suite.sub first second) (one - two)
  /-- Decoding undoes encoding. -/
  decode {point : suite.Point} {element : Group} (names : Names point element) :
    ∃ found, suite.decode (suite.encode point) = some found ∧ Names found element
  /-- The secret of a transfer depends on the element only. -/
  pointKey {first second : suite.Point} {element : Group} (index : Nat)
    (names : Names first element) (others : Names second element) :
    suite.pointKey first index = suite.pointKey second index

/-- What the protocol needs of a suite. -/
structure Suite.Lawful (suite : Suite) : Prop where
  length_fill (generator : suite.Generator) (count : Nat) :
    (suite.fill generator count).1.length = count
  interpreted : ∃ (Group : Type) (_ : AddCommGroup Group), Nonempty (suite.Interpretation Group)

/-- The word of a pair that a choice selects. -/
def selectWord (choice : Bool) (pair : Word × Word) : Word :=
  if choice then pair.2 else pair.1

namespace BaseTransfer

open Session

variable {suite : Suite} {Group : Type} [AddCommGroup Group]
  {interpretation : suite.Interpretation Group} {opening shared : suite.Point}
  {secret : suite.Scalar}

theorem drawScalar_succeeds (generator : suite.Generator) :
    (drawScalar suite).Succeeds generator [] (suite.scalar generator).1
      (suite.scalar generator).2 :=
  succeeds_modifyGet _ _

/-- The point that hides a choice, with the given secret of the receiver. -/
def hide (suite : Suite) (opening : suite.Point) (choice : Bool) (scalar : suite.Scalar) :
    suite.Point :=
  if choice then suite.add opening (suite.mulGenerator scalar) else suite.mulGenerator scalar

/-- The element that hides a choice. -/
def hiddenElement (interpretation : suite.Interpretation Group) (secret : suite.Scalar) (choice : Bool)
    (scalar : suite.Scalar) : Group :=
  if choice then
    interpretation.factor secret • interpretation.base +
      interpretation.factor scalar • interpretation.base
  else interpretation.factor scalar • interpretation.base

theorem names_hide
    (opens : interpretation.Names opening (interpretation.factor secret • interpretation.base))
    (choice : Bool) (scalar : suite.Scalar) :
    interpretation.Names (hide suite opening choice scalar)
      (hiddenElement interpretation secret choice scalar) := by
  cases choice with
  | false => exact interpretation.mulGenerator scalar
  | true => exact interpretation.add opens (interpretation.mulGenerator scalar)

/-- The sender's key for the chosen word is the receiver's key. -/
theorem pointKey_hide
    (opens : interpretation.Names opening (interpretation.factor secret • interpretation.base))
    (shares : interpretation.Names shared
      (interpretation.factor secret • interpretation.factor secret • interpretation.base))
    {choice : Bool} {scalar : suite.Scalar} {found : suite.Point}
    (names : interpretation.Names found (hiddenElement interpretation secret choice scalar))
    (index : Nat) :
    (if choice then suite.pointKey (suite.sub (suite.mul secret found) shared) index
      else suite.pointKey (suite.mul secret found) index) =
        suite.pointKey (suite.mul scalar opening) index := by
  have receiver := interpretation.mul scalar opens
  have sender := interpretation.mul secret names
  rw [smul_comm] at receiver
  cases choice with
  | false => exact interpretation.pointKey index sender receiver
  | true =>
      have other := interpretation.sub sender shares
      rw [hiddenElement, if_pos rfl, smul_add, add_sub_cancel_left] at other
      exact interpretation.pointKey index other receiver

/-- The generator from which the given number of scalars has been drawn. -/
def afterScalars (suite : Suite) : (count : Nat) → suite.Generator → suite.Generator
  | 0, generator => generator
  | count + 1, generator => afterScalars suite count (suite.scalar generator).2

/-- Hiding the choices leads to keys with which the sender's ciphertexts give the chosen
words. -/
theorem hideAll_encryptAll
    (opens : interpretation.Names opening (interpretation.factor secret • interpretation.base))
    (shares : interpretation.Names shared
      (interpretation.factor secret • interpretation.factor secret • interpretation.base))
    {choices : List Bool} {pairs : List (Word × Word)} (same : choices.length = pairs.length)
    (index : Nat) (garbler : suite.Generator) :
    ∃ hidden, (hideAll suite opening index choices).Succeeds garbler [] hidden
        (afterScalars suite choices.length garbler) ∧ hidden.length = choices.length ∧
      ∀ evaluator : suite.Generator, ∃ ciphertexts,
        (encryptAll suite secret shared index ((hidden.map Prod.fst).zip pairs)).Succeeds evaluator
          [] ciphertexts evaluator ∧ ciphertexts.length = choices.length ∧
        (choices.zip ((hidden.map Prod.snd).zip ciphertexts)).map
            (fun (choice, key, first, second) => key ^^^ if choice then second else first) =
          choices.zipWith selectWord pairs := by
  induction choices generalizing index garbler pairs with
  | nil =>
      refine ⟨[], succeeds_pure _ _, rfl, fun evaluator => ?_⟩
      exact ⟨[], succeeds_pure _ _, rfl, rfl⟩
  | cons choice choices inductionHypothesis =>
      obtain ⟨pair, pairs, rfl⟩ := List.exists_cons_of_length_eq_add_one same.symm
      have draws := drawScalar_succeeds garbler
      rw [List.length_cons, afterScalars]
      generalize suite.scalar garbler = drawn at draws ⊢
      obtain ⟨scalar, garblerNext⟩ := drawn
      have left : choices.length = pairs.length := Nat.succ.inj same
      obtain ⟨hidden, hides, length, encrypts⟩ :=
        inductionHypothesis left (index + 1) garblerNext
      refine ⟨(suite.encode (hide suite opening choice scalar),
        suite.pointKey (suite.mul scalar opening) index) :: hidden, ?_, ?_, ?_⟩
      · apply Succeeds.bind draws
        apply Succeeds.bind hides
        exact succeeds_pure _ _
      · simp [length]
      · intro evaluator
        obtain ⟨ciphertexts, encrypted, count, words⟩ := encrypts evaluator
        obtain ⟨found, decoded, names⟩ := interpretation.decode (names_hide opens choice scalar)
        have key := pointKey_hide opens shares names index
        have decodes : (decodePoint suite (suite.encode (hide suite opening choice scalar))).Succeeds
            evaluator [] found evaluator := by
          simp [decodePoint, decoded]
        refine ⟨(suite.pointKey (suite.mul secret found) index ^^^ pair.1,
          suite.pointKey (suite.sub (suite.mul secret found) shared) index ^^^ pair.2) ::
            ciphertexts, ?_, ?_, ?_⟩
        · apply Succeeds.bind decodes
          apply Succeeds.bind encrypted
          exact succeeds_pure _ _
        · simp [count]
        · simp only [List.map_cons, List.zip_cons_cons, List.zipWith_cons_cons, words]
          rw [← key]
          cases choice <;> simp [selectWord]

/-- The receiver learns the word of each pair that its choice selects. The receiver, which is
the garbler, draws a scalar for each choice and sends one message. -/
theorem agree_receive_of (interpretation : suite.Interpretation Group) {choices : List Bool}
    {pairs : List (Word × Word)} (same : choices.length = pairs.length)
    (short : pairs.length < UInt64.size) (garbler evaluator : suite.Generator) :
    ∃ message evaluatorAfter,
      Agree (receive suite choices) (send suite pairs) garbler evaluator [message]
        (choices.zipWith selectWord pairs, afterScalars suite choices.length garbler)
        ((), evaluatorAfter) := by
  have draws := drawScalar_succeeds evaluator
  generalize suite.scalar evaluator = drawn at draws
  obtain ⟨secret, evaluatorAfter⟩ := drawn
  have generated := interpretation.mulGenerator secret
  obtain ⟨opening, decoded, opens⟩ := interpretation.decode generated
  obtain ⟨hidden, hides, length, encrypts⟩ :=
    hideAll_encryptAll opens (interpretation.mul secret generated) same 0 garbler
  obtain ⟨ciphertexts, encrypted, count, words⟩ := encrypts evaluatorAfter
  have decodes : (decodePoint suite (suite.encode (suite.mulGenerator secret))).Succeeds garbler []
      opening garbler := by
    simp [decodePoint, decoded]
  have points : Layout.fixed.points.ExactAt (hidden.map Prod.fst) :=
    Layout.sound_fixed.points (by simpa [length, same] using short)
  have encoded : Layout.fixed.ciphertexts.ExactAt ciphertexts :=
    Layout.sound_fixed.ciphertexts (by simpa [count, same] using short)
  refine ⟨Layout.fixed.points.encode (hidden.map Prod.fst), evaluatorAfter, ?_⟩
  apply Agree.bind_evaluator draws
  apply Agree.bind (agree_receive_send (Format.block_exact 32 _))
  apply Agree.bind_garbler decodes
  apply Agree.bind_garbler hides
  apply Agree.bind (agree_send_receiveList points (by simp [length, same]))
  apply Agree.bind_evaluator encrypted
  apply Agree.garbler_then (agree_receiveList_send encoded count)
  exact pure_succeeds.mpr ⟨rfl, words.symm, rfl⟩

/-- A lawful suite has base transfers in which the receiver learns the chosen words. -/
theorem agree_receive (lawful : suite.Lawful) {choices : List Bool} {pairs : List (Word × Word)}
    (same : choices.length = pairs.length) (short : pairs.length < UInt64.size)
    (garbler evaluator : suite.Generator) :
    ∃ message evaluatorAfter,
      Agree (receive suite choices) (send suite pairs) garbler evaluator [message]
        (choices.zipWith selectWord pairs, afterScalars suite choices.length garbler)
        ((), evaluatorAfter) := by
  obtain ⟨Group, group, ⟨interpretation⟩⟩ := lawful.interpreted
  exact agree_receive_of interpretation same short garbler evaluator

end BaseTransfer

end Garbling
