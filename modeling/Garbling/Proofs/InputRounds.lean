import Mathlib
import Garbling.Proofs.Exponents
import Garbling.Proofs.Fate
import Garbling.Proofs.InputLabels
import Garbling.Proofs.Reception

/-!
# Rounds of input labels

The garbler queues the zero labels of any number of batches and serves the queue whenever it
likes; the evaluator asks once for each batch that has inputs. A batch without inputs costs no
message, and every other one its own round, in the order in which the batches were queued: so
the evaluator learns, wire by wire, the label that its choice selects.
-/

namespace Garbling

/-- A wire of the evaluator's inputs: the zero label that the garbler has drawn for it, and the
choice of the evaluator. -/
structure InputWire where
  zero : Label
  choice : Bool

namespace InputWire

/-- The label that the choice selects. -/
def label (offset : Offset) (wire : InputWire) : Label :=
  if wire.choice then wire.zero ^^^ offset.toLabel else wire.zero

theorem zipWith_active (offset : Offset) (wires : List InputWire) :
    (wires.map zero).zipWith (·.active offset ·) (wires.map choice) = wires.map (label offset) := by
  induction wires with
  | nil => rfl
  | cons wire wires inductionHypothesis =>
      have head : wire.zero.active offset wire.choice = wire.label offset := by
        rw [label]
        cases wire.choice with
        | false => exact Label.active_false _ _
        | true => rfl
      rw [List.map_cons, List.map_cons, List.map_cons, List.zipWith_cons_cons, head,
        inductionHypothesis]

/-- A batch has inputs if it has zero labels. -/
theorem filter_map_zero (batches : List (List InputWire)) :
    (batches.map (·.map zero)).filter (!·.isEmpty) =
      (batches.filter (!·.isEmpty)).map (·.map zero) := by
  rw [List.filter_map]
  simp [Function.comp_def]

end InputWire

namespace LabelTransfer

open Session

variable {suite : Suite} {offset : Offset} {garbler evaluator transfer final : LabelTransfer suite}
  {exchanges : List Exchange}

/-- Queues the zero labels of some batches, one batch after the other. -/
def enqueueAll (batches : List (List Label)) (transfer : LabelTransfer suite) :
    LabelTransfer suite :=
  batches.foldl enqueue transfer

/-- Queues the batches of each group, and serves the queue after each group. -/
def serveGroups : (groups : List (List (List Label))) → Session (LabelTransfer suite) Unit
  | [] => return ()
  | batches :: groups => do
      modify (enqueueAll batches)
      serve
      serveGroups groups

/-- The garbler's side: the setup, and then groups of batches. -/
def offerAll (offset : Offset) (groups : List (List (List Label))) :
    Session (LabelTransfer suite × suite.Generator) Unit := do
  setup (some offset)
  withoutGenerator (serveGroups groups)

/-- The evaluator's side: the setup, and then one request for each batch. -/
def takeAll (batches : List (List Bool)) :
    Session (LabelTransfer suite × suite.Generator) (List (List Label)) := do
  setup none
  withoutGenerator (receiveAll batches)

/-- The batches that have inputs join the queue, in order. -/
theorem enqueueAll_eq (batches : List (List Label)) (transfer : LabelTransfer suite) :
    enqueueAll batches transfer =
      { transfer with queued := transfer.queued ++ batches.filter (!·.isEmpty) } := by
  induction batches generalizing transfer with
  | nil => simp [enqueueAll]
  | cons zeroLabels batches inductionHypothesis =>
      rw [enqueueAll, List.foldl_cons, ← enqueueAll, inductionHypothesis, enqueue_eq]
      cases zeroLabels with
      | nil => simp
      | cons zero zeroLabels => simp

theorem receiveAll_append (first rest : List (List Bool)) :
    (receiveAll (first ++ rest) : Session (LabelTransfer suite) (List (List Label))) = do
      let labels ← receiveAll first
      let others ← receiveAll rest
      return labels ++ others := by
  induction first with
  | nil => simp [receiveAll]
  | cons choices first inductionHypothesis =>
      simp only [List.cons_append, receiveAll, inductionHypothesis, bind_assoc, pure_bind]

/-- Serving the queue is one round for each batch in it. -/
theorem Linked.agree_serveAll (linked : Linked offset garbler evaluator) (lawful : suite.Lawful)
    {batches : List (List InputWire)} (short : ∀ wires ∈ batches, wires.length < UInt64.size)
    (queue : garbler.queued = batches.map (·.map InputWire.zero)) :
    ∃ messages garblerAfter evaluatorAfter,
      Agree (serveAll (batches.map (·.map InputWire.zero)))
        (receiveAll (batches.map (·.map InputWire.choice))) garbler evaluator messages
        ((), garblerAfter) (batches.map (·.map (·.label offset)), evaluatorAfter) ∧
      Linked offset garblerAfter evaluatorAfter ∧ garblerAfter.queued = [] := by
  induction batches generalizing garbler evaluator with
  | nil =>
      exact ⟨[], garbler, evaluator, agree_of_silent (succeeds_pure _ _) (succeeds_pure _ _), linked,
        queue⟩
  | cons wires batches inductionHypothesis =>
      obtain ⟨shortHead, shortTail⟩ := List.forall_mem_cons.mp short
      have same : (wires.map InputWire.zero).length = (wires.map InputWire.choice).length := by
        simp
      obtain ⟨masked, garblerMiddle, evaluatorMiddle, round, linkedMiddle, left, _⟩ :=
        linked.agree_serveBatch lawful same (by simpa using shortHead)
          (batches.map (·.map InputWire.zero))
      obtain ⟨messages, garblerAfter, evaluatorAfter, others, linkedAfter, empty⟩ :=
        inductionHypothesis linkedMiddle shortTail left
      refine ⟨[Layout.fixed.labels.encode masked] ++ messages, garblerAfter, evaluatorAfter, ?_,
        linkedAfter, empty⟩
      rw [List.map_cons, serveAll_cons]
      rw [InputWire.zipWith_active] at round
      apply Agree.bind round
      apply Agree.evaluator_then others
      exact succeeds_pure _ _

/-- However the batches are grouped, the evaluator asks for those that have inputs, one after the
other. -/
theorem Linked.agree_serveGroups (linked : Linked offset garbler evaluator) (lawful : suite.Lawful)
    {groups : List (List (List InputWire))}
    (short : ∀ group ∈ groups, ∀ wires ∈ group, wires.length < UInt64.size)
    (empty : garbler.queued = []) :
    ∃ messages garblerAfter evaluatorAfter,
      Agree (serveGroups (groups.map (·.map (·.map InputWire.zero))))
        (receiveAll ((groups.flatten.filter (!·.isEmpty)).map (·.map InputWire.choice)))
        garbler evaluator messages ((), garblerAfter)
        ((groups.flatten.filter (!·.isEmpty)).map (·.map (·.label offset)), evaluatorAfter) ∧
      garblerAfter.queued = [] := by
  induction groups generalizing garbler evaluator with
  | nil =>
      exact ⟨[], garbler, evaluator, agree_of_silent (succeeds_pure _ _) (succeeds_pure _ _), empty⟩
  | cons group groups inductionHypothesis =>
      obtain ⟨shortHead, shortTail⟩ := List.forall_mem_cons.mp short
      have queue : (enqueueAll (group.map (·.map InputWire.zero)) garbler).queued =
          (group.filter (!·.isEmpty)).map (·.map InputWire.zero) := by
        rw [enqueueAll_eq, empty, List.nil_append, InputWire.filter_map_zero]
      have linkedStart : Linked offset (enqueueAll (group.map (·.map InputWire.zero)) garbler)
          evaluator := by
        rw [enqueueAll_eq]
        exact linked
      obtain ⟨first, garblerMiddle, evaluatorMiddle, served, linkedMiddle, emptyMiddle⟩ :=
        linkedStart.agree_serveAll lawful
          (fun wires member => shortHead wires (List.mem_of_mem_filter member)) queue
      obtain ⟨rest, garblerAfter, evaluatorAfter, others, emptyAfter⟩ :=
        inductionHypothesis linkedMiddle shortTail emptyMiddle
      refine ⟨first ++ rest, garblerAfter, evaluatorAfter, ?_, emptyAfter⟩
      rw [List.flatten_cons, List.filter_append, List.map_append, List.map_append,
        receiveAll_append]
      apply Agree.bind_garbler (succeeds_modify _ _)
      have serving : Agree serve
          (receiveAll ((group.filter (!·.isEmpty)).map (·.map InputWire.choice)))
          (enqueueAll (group.map (·.map InputWire.zero)) garbler) evaluator first
          ((), garblerMiddle)
          ((group.filter (!·.isEmpty)).map (·.map (·.label offset)), evaluatorMiddle) := by
        apply Agree.bind_garbler (succeeds_get _)
        rw [queue]
        exact served
      apply Agree.bind serving
      apply Agree.evaluator_then others
      exact succeeds_pure _ _

/-- The messages of the round of a batch: the evaluator's columns, and then the masked labels. -/
structure InputRound where
  columns : Bytes
  masked : List Label

/-- What the garbler exchanges in some rounds. -/
def served (rounds : List InputRound) : List Exchange :=
  rounds.flatMap fun round =>
    [.into round.columns, .out (Layout.fixed.labels.encode round.masked)]

/-- A round of the sender is one message from the other side, and gives a row for each transfer. -/
theorem sender_of_extend {columns : List suite.Generator} {count : Nat} {rows : List Label}
    (succeeds : (extend count []).Succeeds transfer exchanges rows final)
    (sender : transfer.extension = .sender offset columns) :
    ∃ message columnsAfter, exchanges = [.into message] ∧ rows.length = count ∧
      final = { transfer with extension := .sender offset columnsAfter } := by
  obtain ⟨extension, reaches, rfl⟩ := zoom_succeeds.mp succeeds
  rw [sender] at reaches
  obtain ⟨_, _, _, _, rfl, got, received⟩ := bind_succeeds.mp reaches
  obtain ⟨rfl, rfl, rfl⟩ := get_succeeds.mp got
  obtain ⟨_, _, masked, _, rfl, into, computed⟩ := bind_succeeds.mp received
  obtain ⟨message, rest, _, _, rfl, rfl⟩ := receiveList_succeeds.mp into
  obtain ⟨_, _, _, _, rfl, moved, checked⟩ := bind_succeeds.mp computed
  obtain ⟨rfl, rfl⟩ := set_succeeds.mp moved
  obtain ⟨_, _, own, _, rfl, allows, done⟩ := bind_succeeds.mp checked
  obtain ⟨_, rfl, rfl⟩ := allowed_succeeds.mp allows
  obtain ⟨rfl, rfl, rfl⟩ := pure_succeeds.mp done
  refine ⟨message, _, rfl, ?_, rfl⟩
  simp

/-- Serving some batches is one round for each of them, and leaves no other batch behind. -/
theorem served_of_serveAll {columns : List suite.Generator} {batches : List (List Label)}
    (succeeds : (serveAll batches).Succeeds transfer exchanges () final)
    (sender : transfer.extension = .sender offset columns) (queue : transfer.queued = batches) :
    ∃ rounds columnsAfter, exchanges = served rounds ∧
      List.Forall₂ (fun zeroLabels round => round.masked.length = zeroLabels.length)
        batches rounds ∧
      final = { transfer with extension := .sender offset columnsAfter, queued := [] } := by
  induction batches generalizing transfer exchanges columns with
  | nil =>
      obtain ⟨rfl, _, rfl⟩ := pure_succeeds.mp succeeds
      refine ⟨[], columns, rfl, .nil, ?_⟩
      rw [← sender, ← queue]
  | cons zeroLabels batches inductionHypothesis =>
      obtain ⟨_, _, _, _, rfl, left, extended⟩ := bind_succeeds.mp succeeds
      obtain ⟨rfl, rfl⟩ := modify_succeeds.mp left
      obtain ⟨_, _, rows, _, rfl, round, sends⟩ := bind_succeeds.mp extended
      obtain ⟨message, columnsMiddle, rfl, length, rfl⟩ := sender_of_extend round sender
      obtain ⟨_, _, _, _, rfl, sent, others⟩ := bind_succeeds.mp sends
      obtain ⟨rfl, rfl⟩ := send_succeeds.mp sent
      obtain ⟨rounds, columnsAfter, rfl, lengths, rfl⟩ := inductionHypothesis others rfl rfl
      refine ⟨⟨message, zeroLabels.zipWith (· ^^^ ·) rows⟩ :: rounds, columnsAfter, rfl,
        .cons ?_ lengths, rfl⟩
      rw [List.length_zipWith, length, Nat.min_self]

/-- However the batches are grouped, the garbler serves those that have inputs, one after the
other. -/
theorem served_of_serveGroups {columns : List suite.Generator} {groups : List (List (List Label))}
    (succeeds : (serveGroups groups).Succeeds transfer exchanges () final)
    (sender : transfer.extension = .sender offset columns) (empty : transfer.queued = []) :
    ∃ rounds, exchanges = served rounds ∧
      List.Forall₂ (fun zeroLabels round => round.masked.length = zeroLabels.length)
        (groups.flatten.filter (!·.isEmpty)) rounds := by
  induction groups generalizing transfer exchanges columns with
  | nil =>
      obtain ⟨rfl, _, _⟩ := pure_succeeds.mp succeeds
      exact ⟨[], rfl, .nil⟩
  | cons batches groups inductionHypothesis =>
      obtain ⟨_, _, _, _, rfl, joined, serves⟩ := bind_succeeds.mp succeeds
      obtain ⟨rfl, rfl⟩ := modify_succeeds.mp joined
      obtain ⟨_, _, _, _, rfl, within, others⟩ := bind_succeeds.mp serves
      obtain ⟨_, _, _, _, rfl, got, round⟩ := bind_succeeds.mp within
      obtain ⟨rfl, rfl, rfl⟩ := get_succeeds.mp got
      rw [enqueueAll_eq, empty, List.nil_append] at round
      obtain ⟨first, columnsMiddle, rfl, lengths, rfl⟩ := served_of_serveAll round sender rfl
      obtain ⟨rest, rfl, lengthsRest⟩ := inductionHypothesis others rfl rfl
      refine ⟨first ++ rest, ?_, ?_⟩
      · simp [served]
      · rw [List.flatten_cons, List.filter_append]
        exact List.rel_append lengths lengthsRest

/-- The setup of a sender is three messages, the first and the last of them from the other
side. -/
theorem sender_of_setup {start final : LabelTransfer suite × suite.Generator}
    (succeeds : (setup (some offset)).Succeeds start exchanges () final)
    (fresh : start.1.extension = .idle) :
    ∃ opening points ciphertexts columns,
      exchanges = [.into opening, .out points, .into ciphertexts] ∧
      final.1.extension = .sender offset columns ∧ final.1.queued = start.1.queued := by
  obtain ⟨_, _, received, rfl⟩ := succeeds_of_setup fresh succeeds
  obtain ⟨_, _, seeds, _, rfl, words, named⟩ := bind_succeeds.mp received
  obtain ⟨rfl, rfl, rfl⟩ := pure_succeeds.mp named
  obtain ⟨_, _, _, _, rfl, into, decoded⟩ := bind_succeeds.mp words
  obtain ⟨opening, _, _, rfl, rfl⟩ := receive_succeeds.mp into
  obtain ⟨_, _, _, _, rfl, point, hidden⟩ := bind_succeeds.mp decoded
  rw [BaseTransfer.silent_decodePoint _ point]
  obtain ⟨_, _, _, _, rfl, hides, sends⟩ := bind_succeeds.mp hidden
  rw [BaseTransfer.silent_hideAll _ _ _ hides]
  obtain ⟨_, _, _, _, rfl, sent, others⟩ := bind_succeeds.mp sends
  obtain ⟨rfl, rfl⟩ := send_succeeds.mp sent
  obtain ⟨_, _, _, _, rfl, answered, last⟩ := bind_succeeds.mp others
  obtain ⟨ciphertexts, _, _, _, rfl, rfl⟩ := receiveList_succeeds.mp answered
  obtain ⟨rfl, _, rfl⟩ := pure_succeeds.mp last
  exact ⟨opening, _, ciphertexts, _, rfl, rfl, rfl⟩

/-- The garbler exchanges the messages of the setup, and those of the round of each batch that has
inputs. -/
theorem served_of_offerAll {groups : List (List (List Label))} {generator : suite.Generator}
    {after : LabelTransfer suite × suite.Generator}
    (succeeds : (offerAll offset groups).Succeeds ({}, generator) exchanges () after) :
    ∃ opening points ciphertexts rounds,
      exchanges = [.into opening, .out points, .into ciphertexts] ++ served rounds ∧
      List.Forall₂ (fun zeroLabels round => round.masked.length = zeroLabels.length)
        (groups.flatten.filter (!·.isEmpty)) rounds := by
  obtain ⟨_, _, _, _, rfl, prepared, serves⟩ := bind_succeeds.mp succeeds
  obtain ⟨opening, points, ciphertexts, columns, rfl, sender, empty⟩ :=
    sender_of_setup prepared rfl
  obtain ⟨_, within, rfl⟩ := zoom_succeeds.mp serves
  obtain ⟨rounds, rfl, lengths⟩ := served_of_serveGroups within sender empty
  exact ⟨opening, points, ciphertexts, rounds, rfl, lengths⟩

/-- Both sides from the start. -/
theorem agree_offerAll (lawful : suite.Lawful) (offset : Offset)
    (garbler evaluator : suite.Generator) {groups : List (List (List InputWire))}
    (short : ∀ group ∈ groups, ∀ wires ∈ group, wires.length < UInt64.size) :
    ∃ messages garblerAfter evaluatorAfter,
      Agree (offerAll offset (groups.map (·.map (·.map InputWire.zero))))
        (takeAll ((groups.flatten.filter (!·.isEmpty)).map (·.map InputWire.choice)))
        ({}, garbler) ({}, evaluator) messages ((), garblerAfter)
        ((groups.flatten.filter (!·.isEmpty)).map (·.map (·.label offset)), evaluatorAfter) ∧
      garblerAfter.1.queued = [] := by
  obtain ⟨message, garblerMiddle, evaluatorMiddle, evaluatorGenerator, prepared, linked, empty⟩ :=
    agree_setup lawful offset garbler evaluator
  obtain ⟨messages, garblerAfter, evaluatorAfter, transferred, emptyAfter⟩ :=
    linked.agree_serveGroups lawful short empty
  refine ⟨[message] ++ messages,
    (garblerAfter, BaseTransfer.afterScalars suite columnCount garbler),
    (evaluatorAfter, evaluatorGenerator), ?_, emptyAfter⟩
  apply prepared.bind
  apply Agree.zoom_garbler
  apply Agree.zoom_evaluator
  exact transferred

/-- Whatever order of steps is taken, and however the garbler groups its batches, both sides come
through the setup and all rounds. Then the queue is empty, and the evaluator has, for every batch
that has inputs, in order, the labels that its choices select. After the setup, the parties have
exchanged the two messages of a round for each of these batches, and no other message. -/
theorem takeAll_selects (lawful : suite.Lawful) (offset : Offset)
    (garbler evaluator : suite.Generator) (groups : List (List (List InputWire)))
    (short : ∀ group ∈ groups, ∀ wires ∈ group, wires.length < UInt64.size) :
    let batches := groups.flatten.filter (!·.isEmpty)
    let parties := Parties.once
      (offerAll offset (groups.map (·.map (·.map InputWire.zero))) ({}, garbler))
      (takeAll (batches.map (·.map InputWire.choice)) ({}, evaluator))
    let start := Network.start parties () () {}
    ∃ garblerAfter evaluatorAfter,
      garblerAfter.1.queued = [] ∧
      start.Leads parties (fun _ => True) (fun network =>
        network.garbler = .ended (.ok (), garblerAfter) ∧
        network.evaluator =
          .ended (.ok (batches.map fun wires => wires.map fun wire =>
            if wire.choice then wire.zero ^^^ offset.toLabel else wire.zero), evaluatorAfter)) ∧
      ∀ {garblerEvents evaluatorEvents final first second},
        Network.Run parties start garblerEvents evaluatorEvents final →
        final.garbler = .ended first → final.evaluator = .ended second →
        ∃ opening points ciphertexts rounds,
          List.Forall₂ (fun wires (round : InputRound) => round.masked.length = wires.length)
            batches rounds ∧
          garblerEvents =
            ([Exchange.into opening, .out points, .into ciphertexts] ++ served rounds).map
              .exchanged ++ [.ended] ∧
          Event.sent evaluatorEvents = Event.received garblerEvents ∧
          Event.received evaluatorEvents = Event.sent garblerEvents := by
  intro batches parties start
  obtain ⟨messages, garblerAfter, evaluatorAfter, agree, empty⟩ :=
    agree_offerAll lawful offset garbler evaluator short
  refine ⟨garblerAfter, evaluatorAfter, empty, Parties.once_leads agree, ?_⟩
  intro garblerEvents evaluatorEvents final first second run garblerEnds evaluatorEnds
  obtain ⟨exchanges, answers, succeeds, _, course⟩ := Parties.once_on_course agree
  obtain rfl := course.garbler_of_run run garblerEnds
  obtain rfl := course.evaluator_of_run run evaluatorEnds
  obtain ⟨opening, points, ciphertexts, rounds, rfl, lengths⟩ := served_of_offerAll succeeds
  refine ⟨opening, points, ciphertexts, rounds, ?_, rfl, course.fits.symm.received_eq.symm,
    course.fits.received_eq⟩
  rw [← List.map_flatten, InputWire.filter_map_zero, List.forall₂_map_left_iff] at lengths
  simpa only [List.length_map] using lengths

/-- Two groups with batches of two wires, of none and of one wire in the first, a group without
batches, and two batches more in the last, one of them without wires. -/
theorem takeAll_selects_three_batches :
    let groups : List (List (List InputWire)) :=
      [[[⟨⟨3⟩, true⟩, ⟨⟨9⟩, false⟩], [], [⟨⟨4⟩, true⟩]], [], [[], [⟨⟨6⟩, false⟩]]]
    let batches := groups.flatten.filter (!·.isEmpty)
    let parties := Parties.once
      (offerAll ⟨5⟩ (groups.map (·.map (·.map InputWire.zero)))
        ({}, Suite.exponents.expand 1))
      (takeAll (batches.map (·.map InputWire.choice)) ({}, Suite.exponents.expand 2))
    let start := Network.start parties () () {}
    Suite.exponents.Lawful ∧
    (∀ group ∈ groups, ∀ wires ∈ group, wires.length < UInt64.size) ∧
    ∃ garblerAfter evaluatorAfter,
      garblerAfter.1.queued = [] ∧
      start.Leads parties (fun _ => True) (fun network =>
        network.garbler = .ended (.ok (), garblerAfter) ∧
        network.evaluator =
          .ended (.ok (batches.map fun wires => wires.map fun wire =>
            if wire.choice then wire.zero ^^^ Offset.toLabel ⟨5⟩ else wire.zero),
            evaluatorAfter)) ∧
      ∀ {garblerEvents evaluatorEvents final first second},
        Network.Run parties start garblerEvents evaluatorEvents final →
        final.garbler = .ended first → final.evaluator = .ended second →
        ∃ opening points ciphertexts rounds,
          List.Forall₂ (fun wires (round : InputRound) => round.masked.length = wires.length)
            batches rounds ∧
          garblerEvents =
            ([Exchange.into opening, .out points, .into ciphertexts] ++ served rounds).map
              .exchanged ++ [.ended] ∧
          Event.sent evaluatorEvents = Event.received garblerEvents ∧
          Event.received evaluatorEvents = Event.sent garblerEvents := by
  intro groups batches parties start
  have short : ∀ group ∈ groups, ∀ wires ∈ group, wires.length < UInt64.size := by decide
  exact ⟨Suite.exponents_lawful, short, takeAll_selects Suite.exponents_lawful ⟨5⟩ _ _ groups
    short⟩

end LabelTransfer

end Garbling
