import Mathlib
import Garbling.Proofs.ContinuousRun
import Garbling.Proofs.Scripted
import Garbling.Proofs.Visits

/-!
# Slices of the garbler

In continuous mode a slice of the garbler has two parts: it executes and presents what comes of
it, and then, unless time was up, it waits for the values that are not open. What the first part
leaves behind does not depend on the other party, apart from the state of the transfers.
-/

namespace Garbling

namespace Garbler

open Session

variable {suite : Suite} {task : Task} {garbler final : Garbler suite} {ending : Break}
  {exchanges : List Exchange}

/-- The setup of the garbler is a handshake and the setup of its transfers. Whatever the other
party sends in it, the garbler is at the start of its program then. -/
theorem of_enter {before after : LabelTransfer suite × suite.Generator}
    (succeeds : (enter task).Succeeds before exchanges garbler after) :
    ∃ first rest announced generator offset, exchanges = first ++ rest ∧
      (handshake task.typed task.settings).Succeeds before first () announced ∧
      (LabelTransfer.setup (some offset)).Succeeds (announced.1, generator) rest () after ∧
      garbler = .entered task offset after.1 after.2 := by
  obtain ⟨first, _, _, announced, rfl, shakes, draws⟩ := bind_succeeds.mp succeeds
  obtain ⟨_, _, offset, _, rfl, drawn, sets⟩ := bind_succeeds.mp draws
  obtain ⟨rfl, rfl, rfl⟩ := modifyGet_succeeds.mp drawn
  obtain ⟨rest, _, _, _, rfl, set, ends⟩ := bind_succeeds.mp sets
  obtain ⟨_, _, _, _, rfl, got, last⟩ := bind_succeeds.mp ends
  obtain ⟨rfl, rfl, rfl⟩ := get_succeeds.mp got
  obtain ⟨rfl, rfl, rfl⟩ := pure_succeeds.mp last
  refine ⟨first, rest, announced, _, _, ?_, shakes, set, rfl⟩
  simp only [List.append_nil, List.nil_append]

/-- A garbler that visits some rounds from its setup on begins its program after the setup. -/
theorem of_visits_entering {generator : suite.Generator}
    {visited : List (Phase suite × List Exchange)} {outputs : Outputs}
    (visits : (rounds task).Visits (.entering generator) visited (.ok outputs)) :
    ∃ setup offset transfer rest others,
      visited = (.entering generator, setup) :: others ∧
      (rounds task (.entering generator)).Follows setup
        (.again (.slicing (entered task offset transfer rest))) ∧
      (rounds task).Visits (.slicing (entered task offset transfer rest)) others
        (.ok outputs) := by
  generalize ended : Except.ok outputs = result at visits
  cases visits with
  | finish follows =>
      subst ended
      obtain ⟨_, succeeds⟩ := toRound_follows_finish.mp follows
      obtain ⟨_, _, _, _, rfl, _, last⟩ := bind_succeeds.mp succeeds
      cases (pure_succeeds.mp last).2.1
  | again follows others =>
      subst ended
      obtain ⟨_, _, succeeds, rfl⟩ := toRound_follows_again.mp follows
      obtain ⟨_, _, _, _, rfl, enters, last⟩ := bind_succeeds.mp succeeds
      cases (pure_succeeds.mp last).2.1
      obtain ⟨_, _, _, _, offset, _, _, _, rfl⟩ := of_enter enters
      exact ⟨_, offset, _, _, _, rfl, follows, others⟩

/-- What the garbler does after a slice until it waits for openings, if it waits for any. -/
def untilOpenings : Break → Session (Garbler suite) Break
  | .restart => do
      rewind
      return .restart
  | .time => return .time
  | .done => do
      BatchStream.sendDone
      return .done

/-- The first part of a slice: its execution, its batch, and the labels of its inputs. -/
def present (task : Task) : Session (Garbler suite) Break := onSlice task untilOpenings

/-- The second part of a slice, given how it has ended. -/
def concludeSlice : Break → Session (Garbler suite) (Next Unit Outputs)
  | .restart => do
      receiveOpenings
      return .again ()
  | .time => return .again ()
  | .done => do
      receiveOpenings
      return .finish (← get).outputs

theorem sliceContinuous_eq_present (task : Task) :
    (sliceContinuous task : Session (Garbler suite) _) = present task >>= concludeSlice := by
  have closes : (close : Break → Session (Garbler suite) _) =
      fun ending => untilOpenings ending >>= concludeSlice := by
    funext ending
    cases ending with
    | restart | done => simp only [close, untilOpenings, concludeSlice, bind_assoc, pure_bind]
    | time => simp only [close, untilOpenings, concludeSlice, pure_bind]
  rw [sliceContinuous_eq, closes]
  simp only [present, onSlice, bind_assoc]

theorem of_executeSlice (succeeds : (executeSlice task).Succeeds garbler exchanges ending final) :
    ∃ machine, exchanges = [] ∧
      Machine.execute (GarblingState.backend suite garbler.offset) task.program
        task.settings.timeSlice.toNat garbler.machine = (.ok ending, machine) ∧
      final = { garbler with machine } := by
  obtain ⟨rfl, outcome⟩ := Process.done_follows.mp succeeds
  obtain ⟨executes, rfl⟩ := Prod.mk.inj outcome
  exact ⟨_, rfl, Prod.ext executes.symm rfl, rfl⟩

/-- Sending a slice is sending its batch. -/
theorem of_sendSlice (succeeds : sendSlice.Succeeds garbler exchanges () final) :
    exchanges = (BatchStream.messages
        (garbler.machine.backend.draft.batch garbler.nextBatch)).map Exchange.out ∧
      final = garbler.afterBatch := by
  obtain ⟨_, _, _, _, rfl, got, taken⟩ := bind_succeeds.mp succeeds
  obtain ⟨rfl, rfl, rfl⟩ := get_succeeds.mp got
  obtain ⟨_, _, _, _, rfl, emptied, sends⟩ := bind_succeeds.mp taken
  obtain ⟨rfl, rfl⟩ := set_succeeds.mp emptied
  obtain ⟨_, _, _, _, rfl, sent, queues⟩ := bind_succeeds.mp sends
  obtain ⟨rfl, rfl⟩ := modify_succeeds.mp queues
  obtain ⟨_, _, _, _, rfl, announced, halves⟩ := bind_succeeds.mp sent
  obtain ⟨rfl, rfl⟩ := sendBytes_succeeds.mp announced
  obtain ⟨_, _, _, _, rfl, gates, masks⟩ := bind_succeeds.mp halves
  obtain ⟨rfl, rfl⟩ := send_succeeds.mp gates
  obtain ⟨rfl, rfl⟩ := send_succeeds.mp masks
  exact ⟨rfl, rfl⟩

theorem of_serveInputs (succeeds : serveInputs.Succeeds garbler exchanges () final) :
    ∃ transfer, LabelTransfer.serve.Succeeds garbler.transfer exchanges () transfer ∧
      final = { garbler with transfer } :=
  zoom_succeeds.mp succeeds

/-- The garbler when it has presented a slice. -/
def presented (garbler : Garbler suite) (transfer : LabelTransfer suite)
    (machine : Machine Label (GarblingState suite)) (ending : Break) : Garbler suite :=
  garbler.afterSlice transfer (machine.settled ending)

/-- What presenting a slice comes to. -/
theorem of_present (succeeds : (present task).Succeeds garbler exchanges ending final) :
    ∃ machine transfer,
      Machine.execute (GarblingState.backend suite garbler.offset) task.program
        task.settings.timeSlice.toNat garbler.machine = (.ok ending, machine) ∧
      final = garbler.presented transfer machine ending := by
  obtain ⟨_, _, found, _, rfl, executed, sends⟩ := bind_succeeds.mp succeeds
  obtain ⟨machine, rfl, executes, rfl⟩ := of_executeSlice executed
  obtain ⟨_, _, _, _, rfl, sent, serves⟩ := bind_succeeds.mp sends
  obtain ⟨rfl, rfl⟩ := of_sendSlice sent
  obtain ⟨_, _, _, _, rfl, served, waits⟩ := bind_succeeds.mp serves
  obtain ⟨transfer, _, rfl⟩ := of_serveInputs served
  cases found with
  | restart =>
      obtain ⟨_, _, _, _, rfl, rewound, last⟩ := bind_succeeds.mp waits
      obtain ⟨rfl, rfl⟩ := modify_succeeds.mp rewound
      obtain ⟨rfl, rfl, rfl⟩ := pure_succeeds.mp last
      exact ⟨machine, transfer, executes, rfl⟩
  | time =>
      obtain ⟨rfl, rfl, rfl⟩ := pure_succeeds.mp waits
      exact ⟨machine, transfer, executes, rfl⟩
  | done =>
      obtain ⟨_, _, _, _, rfl, done, last⟩ := bind_succeeds.mp waits
      obtain ⟨rfl, rfl⟩ := sendBytes_succeeds.mp done
      obtain ⟨rfl, rfl, rfl⟩ := pure_succeeds.mp last
      exact ⟨machine, transfer, executes, rfl⟩

/-- Receiving openings is receiving one message, which fills in the log. -/
theorem of_receiveOpenings (succeeds : receiveOpenings.Succeeds garbler exchanges () final) :
    ∃ message values rest log, exchanges = [.into message] ∧
      Layout.fixed.openings.decode message = .ok (values, rest) ∧
      garbler.machine.processor.log.applyOpenings values = .ok log ∧
      final = garbler.opened log := by
  obtain ⟨_, _, values, _, rfl, received, others⟩ := bind_succeeds.mp succeeds
  obtain ⟨message, rest, decoded, rfl, rfl⟩ := receive_succeeds.mp received
  obtain ⟨_, _, _, _, rfl, got, filled⟩ := bind_succeeds.mp others
  obtain ⟨rfl, rfl, rfl⟩ := get_succeeds.mp got
  obtain ⟨_, _, processor, _, rfl, allows, moved⟩ := bind_succeeds.mp filled
  obtain ⟨applied, rfl, rfl⟩ := allowed_succeeds.mp allows
  obtain ⟨rfl, rfl⟩ := set_succeeds.mp moved
  simp only [Processor.applyOpenings, except_bind_eq_ok, except_pure_eq_ok] at applied
  obtain ⟨log, fits, rfl⟩ := applied
  exact ⟨message, values, rest, log, rfl, decoded, fits, rfl⟩

end Garbler

end Garbling
