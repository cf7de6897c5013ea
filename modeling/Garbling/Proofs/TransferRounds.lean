import Mathlib
import Garbling.Proofs.Exponents
import Garbling.Proofs.Extension

/-!
# Rounds of extended transfers

The two sides are set up and then carry out any number of rounds, each of any length. Every
round leaves them with rows that differ by the offset where the choice is set, because the
generators of the columns are in step again after it.
-/

namespace Garbling

namespace Extension

open Session

variable {suite : Suite} {offset : Offset}

/-- Rounds of transfers one after the other, each with its number of transfers and with the
choices of this side. -/
def extendAll : List (Nat × List Bool) → Session (Extension suite) (List (List Label))
  | [] => return []
  | (count, choices) :: rest => do
      let rows ← extend count choices
      return rows :: (← extendAll rest)

/-- The setup of one side and the rounds after it. -/
def transferAll (offset : Option Offset) (rounds : List (Nat × List Bool)) :
    Session (Extension suite × suite.Generator) (List (List Label)) := do
  setup offset
  Session.zoom Prod.fst (fun extension state => (extension, state.2)) (extendAll rounds)

/-- What the sender asks for when the receiver makes the given choices in each round. -/
def sending (rounds : List (List Bool)) : List (Nat × List Bool) :=
  rounds.map fun choices => (choices.length, [])

/-- What the receiver asks for when it makes the given choices in each round. -/
def receiving (rounds : List (List Bool)) : List (Nat × List Bool) :=
  rounds.map fun choices => (choices.length, choices)

/-- Both sides have a row for each choice. The rows differ by the offset where the choice is
set, and are the same where it is not. -/
structure Correlated (offset : Offset) (choices : List Bool) (sent received : List Label) :
    Prop where
  lengthSent : sent.length = choices.length
  lengthReceived : received.length = choices.length
  row : ∀ (index : Nat) (inside : index < choices.length),
    received[index] = sent[index] ^^^ offset.times choices[index]

/-- In every column the sender has the generator that the bit of the offset selects. -/
theorem Synced.getElem? {index : Nat} {senders : List suite.Generator}
    {receivers : List (suite.Generator × suite.Generator)}
    (synced : Synced offset index senders receivers) (place : Nat) :
    senders[place]? = receivers[place]?.map fun (first, second) =>
      if offset.bit (index + place) then second else first := by
  induction synced generalizing place with
  | nil => rfl
  | cons rest inductionHypothesis =>
      cases place with
      | zero => rfl
      | succ place =>
          rw [List.getElem?_cons_succ, List.getElem?_cons_succ, inductionHypothesis,
            Nat.add_right_comm]
          rfl

/-- Rows and the rows that the choices select of them are correlated. -/
theorem correlated_active {choices : List Bool} {rows : List Label}
    (length : rows.length = choices.length) :
    Correlated offset choices (rows.zipWith (·.active offset ·) choices) rows where
  lengthSent := by simp [length]
  lengthReceived := length
  row index inside := by
    rw [List.getElem_zipWith, Label.active, Label.xor_xor_cancel_right]

/-- Any number of rounds. Every round is correlated, and both sides stay in step. -/
theorem agree_extendAll (lawful : suite.Lawful) {senders : List suite.Generator}
    {receivers : List (suite.Generator × suite.Generator)}
    (synced : Synced offset 0 senders receivers) (width : receivers.length = columnCount)
    {rounds : List (List Bool)} (short : ∀ choices ∈ rounds, choices.length < UInt64.size) :
    ∃ rows sendersAfter receiversAfter,
      Agree (extendAll (sending rounds)) (extendAll (receiving rounds)) (.sender offset senders)
        (.receiver receivers) [] (rows.map Prod.fst, .sender offset sendersAfter)
        (rows.map Prod.snd, .receiver receiversAfter) ∧
      List.Forall₂ (fun choices (sent, received) => Correlated offset choices sent received)
        rounds rows ∧
      Synced offset 0 sendersAfter receiversAfter ∧ receiversAfter.length = columnCount := by
  induction rounds generalizing senders receivers with
  | nil =>
      exact ⟨[], senders, receivers, agree_of_silent (succeeds_pure _ _) (succeeds_pure _ _), .nil,
        synced, width⟩
  | cons choices rounds inductionHypothesis =>
      obtain ⟨shortHead, shortTail⟩ := List.forall_mem_cons.mp short
      obtain ⟨row, sendersMiddle, receiversMiddle, round, syncedMiddle, widthMiddle, length⟩ :=
        agree_extend lawful synced width shortHead
      obtain ⟨rows, sendersAfter, receiversAfter, others, correlated, syncedAfter, widthAfter⟩ :=
        inductionHypothesis syncedMiddle widthMiddle shortTail
      refine ⟨(row.zipWith (·.active offset ·) choices, row) :: rows, sendersAfter,
        receiversAfter, ?_, .cons (correlated_active length) correlated, syncedAfter, widthAfter⟩
      apply Agree.bind round
      refine Agree.garbler_then (Agree.evaluator_then others ?_) ?_
      · exact succeeds_pure _ _
      · exact succeeds_pure _ _

/-- The setup and any number of rounds after it. -/
theorem agree_transferAll (lawful : suite.Lawful) (offset : Offset)
    (sender receiver : suite.Generator) {rounds : List (List Bool)}
    (short : ∀ choices ∈ rounds, choices.length < UInt64.size) :
    ∃ message rows senders receivers senderAfter receiverAfter,
      Agree (transferAll (some offset) (sending rounds)) (transferAll none (receiving rounds))
        (.idle, sender) (.idle, receiver) [message]
        (rows.map Prod.fst, .sender offset senders, senderAfter)
        (rows.map Prod.snd, .receiver receivers, receiverAfter) ∧
      List.Forall₂ (fun choices (sent, received) => Correlated offset choices sent received)
        rounds rows ∧
      Synced offset 0 senders receivers ∧ receivers.length = columnCount := by
  obtain ⟨message, sendersMiddle, receiversMiddle, receiverAfter, prepared, syncedMiddle,
    widthMiddle⟩ := agree_setup lawful offset sender receiver
  obtain ⟨rows, senders, receivers, extended, correlated, synced, width⟩ :=
    agree_extendAll lawful syncedMiddle widthMiddle short
  refine ⟨message, rows, senders, receivers, BaseTransfer.afterScalars suite columnCount sender,
    receiverAfter, ?_, correlated, synced, width⟩
  apply prepared.bind
  apply Agree.zoom_garbler
  apply Agree.zoom_evaluator
  exact extended

/-- Whatever order of steps is taken, both sides come through the setup and all rounds. Then
every round is correlated, and in every column the sender has the generator of the receiver that
the bit of the offset selects. -/
theorem transferAll_correlates (lawful : suite.Lawful) (offset : Offset)
    (sender receiver : suite.Generator) (rounds : List (List Bool))
    (short : ∀ choices ∈ rounds, choices.length < UInt64.size) :
    ∃ rows senders receivers senderAfter receiverAfter,
      List.Forall₂ (fun choices (sent, received) => Correlated offset choices sent received)
        rounds rows ∧
      receivers.length = columnCount ∧
      (∀ column : Nat, senders[column]? = receivers[column]?.map fun (first, second) =>
        if offset.bit column then second else first) ∧
      let parties := Parties.once (transferAll (some offset) (sending rounds) (.idle, sender))
        (transferAll none (receiving rounds) (.idle, receiver))
      (Network.start parties () () {}).Leads parties (fun _ => True) fun network =>
        network.garbler =
          .ended (.ok (rows.map Prod.fst), .sender offset senders, senderAfter) ∧
        network.evaluator =
          .ended (.ok (rows.map Prod.snd), .receiver receivers, receiverAfter) := by
  obtain ⟨message, rows, senders, receivers, senderAfter, receiverAfter, agree, correlated,
    synced, width⟩ := agree_transferAll lawful offset sender receiver short
  refine ⟨rows, senders, receivers, senderAfter, receiverAfter, correlated, width, ?_,
    Parties.once_leads agree⟩
  intro column
  rw [synced.getElem? column, Nat.zero_add]

/-- Three rounds over a group that obeys the laws: nine transfers, none, and three. -/
theorem transferAll_correlates_nine_none_three :
    let rounds := [List.replicate 9 true, [], [true, false, true]]
    Suite.exponents.Lawful ∧ (∀ choices ∈ rounds, choices.length < UInt64.size) ∧
    ∃ rows senders receivers senderAfter receiverAfter,
      List.Forall₂ (fun choices (sent, received) => Correlated ⟨5⟩ choices sent received)
        rounds rows ∧
      receivers.length = columnCount ∧
      (∀ column : Nat, senders[column]? = receivers[column]?.map fun (first, second) =>
        if Offset.bit ⟨5⟩ column then second else first) ∧
      let parties := Parties.once
        (transferAll (some ⟨5⟩) (sending rounds) (.idle, Suite.exponents.expand 1))
        (transferAll none (receiving rounds) (.idle, Suite.exponents.expand 2))
      (Network.start parties () () {}).Leads parties (fun _ => True) fun network =>
        network.garbler =
          .ended (.ok (rows.map Prod.fst), .sender ⟨5⟩ senders, senderAfter) ∧
        network.evaluator =
          .ended (.ok (rows.map Prod.snd), .receiver receivers, receiverAfter) := by
  have short : ∀ choices ∈ [List.replicate 9 true, [], [true, false, true]],
      choices.length < UInt64.size := by decide
  exact ⟨Suite.exponents_lawful, short, transferAll_correlates Suite.exponents_lawful ⟨5⟩ _ _ _
    short⟩

end Extension

end Garbling
