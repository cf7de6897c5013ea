import Mathlib
import Garbling.Proofs.Exponents
import Garbling.Proofs.Utterances

/-!
# The chosen words

A base transfer against its other side comes to an end on both sides, in whatever order they take
their steps and whichever party is the receiver. The receiver has the second word of each pair
where its choice is set, and the first word where it is not.
-/

namespace Garbling

/-- The roles of the parties can be exchanged. -/
theorem Dialogue.symm {messages : List Bytes} {garbler evaluator : List Exchange}
    (dialogue : Dialogue messages garbler evaluator) :
    Dialogue (Exchange.outgoing evaluator) evaluator garbler :=
  ⟨dialogue.fits.symm, Event.sent_exchanged evaluator⟩

/-- The roles of the parties can be exchanged. -/
theorem Session.Agree.symm {α β σ τ : Type} {garbler : Session σ α} {evaluator : Session τ β}
    {garblerState : σ} {evaluatorState : τ} {messages : List Bytes} {garblerAfter : α × σ}
    {evaluatorAfter : β × τ}
    (agree : Agree garbler evaluator garblerState evaluatorState messages garblerAfter
      evaluatorAfter) :
    ∃ answers, Agree evaluator garbler evaluatorState garblerState answers evaluatorAfter
      garblerAfter := by
  obtain ⟨sent, answered, garblerReaches, evaluatorReaches, dialogue⟩ := agree
  exact ⟨_, answered, sent, evaluatorReaches, garblerReaches, dialogue.symm⟩

namespace BaseTransfer

variable {suite : Suite} {Group : Type} [AddCommGroup Group]

/-- The words that some choices select of as many pairs. -/
structure Chosen (choices : List Bool) (pairs : List (Word × Word)) (words : List Word) :
    Prop where
  length : words.length = pairs.length
  word : ∀ (index : Nat) (choice : Bool) (first second : Word),
    choices[index]? = some choice → pairs[index]? = some (first, second) →
      words[index]? = some (if choice then second else first)

theorem chosen_zipWith {choices : List Bool} {pairs : List (Word × Word)}
    (same : choices.length = pairs.length) :
    Chosen choices pairs (choices.zipWith selectWord pairs) where
  length := by rw [List.length_zipWith, same, Nat.min_self]
  word index choice first second chooses holds := by
    rw [List.getElem?_zipWith, chooses, holds]
    rfl

/-- Both sides come to an end, whichever party is the receiver, and the receiver has the words that
its choices select. -/
theorem receive_chooses (interpretation : suite.Interpretation Group) (choices : List Bool)
    (pairs : List (Word × Word)) (same : choices.length = pairs.length)
    (short : pairs.length < UInt64.size) (receiver sender : suite.Generator) :
    ∃ words receiverAfter senderAfter, Chosen choices pairs words ∧
      (let parties := Parties.once (receive suite choices receiver) (send suite pairs sender)
      (Network.start parties () () {}).Leads parties (fun _ => True) fun network =>
        network.garbler = .ended (.ok words, receiverAfter) ∧
        network.evaluator = .ended (.ok (), senderAfter)) ∧
      (let parties := Parties.once (send suite pairs sender) (receive suite choices receiver)
      (Network.start parties () () {}).Leads parties (fun _ => True) fun network =>
        network.garbler = .ended (.ok (), senderAfter) ∧
        network.evaluator = .ended (.ok words, receiverAfter)) := by
  obtain ⟨message, senderAfter, agree⟩ :=
    agree_receive_of interpretation same short receiver sender
  obtain ⟨answers, exchanged⟩ := agree.symm
  exact ⟨_, _, senderAfter, chosen_zipWith same, Parties.once_leads agree,
    Parties.once_leads exchanged⟩

/-- Three pairs, of which the first and the last one have their second words chosen. -/
theorem receive_chooses_three :
    let choices := [true, false, true]
    let pairs : List (Word × Word) := [(3, 5), (7, 7), (0, 9)]
    choices.length = pairs.length ∧ pairs.length < UInt64.size ∧
    ∃ words receiverAfter senderAfter, Chosen choices pairs words ∧
      (let parties := Parties.once
        (receive Suite.exponents choices (Suite.exponents.expand 1))
        (send Suite.exponents pairs (Suite.exponents.expand 2))
      (Network.start parties () () {}).Leads parties (fun _ => True) fun network =>
        network.garbler = .ended (.ok words, receiverAfter) ∧
        network.evaluator = .ended (.ok (), senderAfter)) ∧
      (let parties := Parties.once
        (send Suite.exponents pairs (Suite.exponents.expand 2))
        (receive Suite.exponents choices (Suite.exponents.expand 1))
      (Network.start parties () () {}).Leads parties (fun _ => True) fun network =>
        network.garbler = .ended (.ok (), senderAfter) ∧
        network.evaluator = .ended (.ok words, receiverAfter)) := by
  have same : [true, false, true].length = [((3 : Word), (5 : Word)), (7, 7), (0, 9)].length := rfl
  have short : [((3 : Word), (5 : Word)), (7, 7), (0, 9)].length < UInt64.size := by decide
  exact ⟨same, short, receive_chooses Suite.ofExponents _ _ same short _ _⟩

end BaseTransfer

end Garbling
