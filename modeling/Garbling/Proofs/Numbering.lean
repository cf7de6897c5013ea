import Mathlib
import Garbling.Proofs.GateCalls
import Garbling.Proofs.ModesAgree
import Garbling.Proofs.Sending

/-!
# The numbers of batches and gates

In both modes, and whatever the other party sends, the garbler numbers its batches one after the
other, and its gates as well: the first gate of a batch comes after the gates of the batches before
it, and each gate is garbled with its place in the run as its index.
-/

namespace Garbling

open Session

variable {suite : Suite}

namespace Garbler

variable {task : Task} {garbler final : Garbler suite} {slices gates : Nat} {ending : Break}
  {machine : Machine Label (GarblingState suite)}

/-- The calls that garble the gates of the slice which begins in the phase. -/
def gateCalls (task : Task) : Phase suite → List GateCall
  | .entering _ => []
  | .slicing garbler =>
      Machine.gateCalls garbler.offset task.program task.settings.timeSlice.toNat garbler.machine

/-- Between two slices the draft is empty, and the given numbers of batches and gates lie behind
the garbler. -/
structure Counting (slices gates : Nat) (garbler : Garbler suite) : Prop where
  number : garbler.nextBatch = .ofNat slices
  draft : garbler.machine.backend.draft = { firstGate := .ofNat gates }
  count : garbler.machine.backend.gateCount = .ofNat gates
  lowered : garbler.machine.processor.taint = {}
  serving : garbler.transfer.Serving

/-- A batch has the numbers of its place in the run, and it holds the gates of the calls. The labels
are as many as it tells. -/
structure IssuedAt (suite : Suite) (slices gates : Nat) (calls : List GateCall)
    (issue : BatchPair × List Label) : Prop where
  number : issue.1.gates.number = .ofNat slices
  masks : issue.1.masks.number = .ofNat slices
  first : issue.1.gates.firstGate = .ofNat gates
  gates : issue.1.gates.gates = calls.map (GateCall.gate suite)
  labels : issue.1.gates.evaluatorInputs.toNat = issue.2.length

namespace Counting

/-- The garbler has counted nothing when it has been set up. -/
theorem entered (task : Task) (offset : Offset) {transfer : LabelTransfer suite}
    (serving : transfer.Serving) (generator : suite.Generator) :
    Counting 0 0 (.entered task offset transfer generator) where
  number := rfl
  draft := rfl
  count := rfl
  lowered := rfl
  serving := serving

theorem numbered_calls (counting : Counting slices gates garbler) (task : Task) :
    GateCall.Numbered (.ofNat gates) (gateCalls task (.slicing garbler)) :=
  counting.count ▸ Machine.numbered_gateCalls ..

/-- The items of a slice can be counted by words, masks excepted. -/
theorem small (counting : Counting slices gates garbler)
    (executes : Machine.execute (GarblingState.backend suite garbler.offset) task.program
      task.settings.timeSlice.toNat garbler.machine = (.ok ending, machine)) :
    machine.backend.draft.Small :=
  Draft.small_of_execute (counting.count ▸ counting.draft) task.settings.timeSlice.toNat_lt_size
    executes

/-- The batch of a slice has its place in the run. -/
theorem issuedAt (counting : Counting slices gates garbler)
    (executes : Machine.execute (GarblingState.backend suite garbler.offset) task.program
      task.settings.timeSlice.toNat garbler.machine = (.ok ending, machine)) :
    IssuedAt suite slices gates (gateCalls task (.slicing garbler))
      (machine.backend.draft.batch garbler.nextBatch,
        machine.backend.draft.evaluatorInputs.toList) := by
  have short : machine.backend.draft.amount .evaluatorInput < UInt64.size :=
    counting.small executes .evaluatorInput Item.noConfusion
  obtain ⟨executed, slice⟩ := Machine.execute_eq_ok_iff.mp executes
  have kept := GarblingState.firstGate_of_effects (slice.effects counting.lowered)
  obtain ⟨garbled, _⟩ := slice.garbles counting.lowered
  rw [counting.draft] at garbled kept
  exact {
    number := counting.number
    masks := counting.number
    first := kept
    gates := garbled
    labels := (UInt64.toNat_ofNat_of_lt' short).trans Array.length_toList.symm }

/-- After a slice there is one more batch, and the gates of the slice, behind the garbler. -/
theorem after (counting : Counting slices gates garbler)
    (executes : Machine.execute (GarblingState.backend suite garbler.offset) task.program
      task.settings.timeSlice.toNat garbler.machine = (.ok ending, machine))
    (after : After garbler machine final) :
    Counting (slices + 1) (gates + (gateCalls task (.slicing garbler)).length) final := by
  obtain ⟨executed, slice⟩ := Machine.execute_eq_ok_iff.mp executes
  have count : machine.backend.gateCount =
      .ofNat (gates + (gateCalls task (.slicing garbler)).length) := by
    rw [(slice.garbles counting.lowered).2, counting.count, UInt64.ofNat_add]
    rfl
  exact {
    number := by rw [after.number, counting.number, UInt64.ofNat_add]; rfl
    draft := by rw [after.backend, ← count]; rfl
    count := by rw [after.backend, ← count]; rfl
    lowered := after.taint.trans (slice.taint counting.lowered)
    serving := after.serving }

end Counting

/-- The slices that begin in the phases follow one after the other, and only the last one may fail
to send its batch. -/
inductive Numbered (task : Task) : (slices gates : Nat) → List (Phase suite) → Prop
  | nil {slices gates : Nat} : Numbered task slices gates []
  | last {slices gates : Nat} {phase : Phase suite} (none : issued task phase = none)
      (calls : GateCall.Numbered (.ofNat gates) (gateCalls task phase)) :
      Numbered task slices gates [phase]
  | cons {slices gates : Nat} {phase : Phase suite} {rest : List (Phase suite)}
      {issue : BatchPair × List Label} (issues : issued task phase = some issue)
      (place : IssuedAt suite slices gates (gateCalls task phase) issue)
      (calls : GateCall.Numbered (.ofNat gates) (gateCalls task phase))
      (others : Numbered task (slices + 1) (gates + (gateCalls task phase).length) rest) :
      Numbered task slices gates (phase :: rest)

namespace Numbered

variable {phases : List (Phase suite)}

/-- The calls of all slices are numbered one after the other. -/
theorem calls (numbered : Numbered task slices gates phases) :
    GateCall.Numbered (.ofNat gates) (phases.flatMap (gateCalls task)) := by
  induction numbered with
  | nil => exact .nil
  | last none calls =>
      rw [List.flatMap_singleton]
      exact calls
  | cons issues place calls others inductionHypothesis =>
      rw [List.flatMap_cons]
      refine calls.append ?_
      rw [← UInt64.ofNat_add]
      exact inductionHypothesis

/-- The batches hold the gates of the calls, one after the other. -/
theorem garbled (numbered : Numbered task slices gates phases) :
    (phases.filterMap (issued task)).flatMap (·.1.gates.gates) <+:
      (phases.flatMap (gateCalls task)).map (GateCall.gate suite) := by
  induction numbered with
  | nil => exact List.nil_prefix
  | last none calls =>
      rw [List.filterMap_cons_none none]
      exact List.nil_prefix
  | cons issues place calls others inductionHypothesis =>
      rw [List.filterMap_cons_some issues, List.flatMap_cons, List.flatMap_cons, List.map_append,
        place.gates]
      exact (List.prefix_append_right_inj _).mpr inductionHypothesis

/-- A batch has the number of its place, and its first gate comes after the gates of the batches
before it. -/
theorem at_place (numbered : Numbered task slices gates phases) {place : Nat}
    {issue : BatchPair × List Label} (found : (phases.filterMap (issued task))[place]? = some issue) :
    ∃ calls, IssuedAt suite (slices + place)
      (gates + (((phases.filterMap (issued task)).take place).map (·.1.gates.gates.length)).sum)
      calls issue := by
  induction numbered generalizing place with
  | nil => cases found
  | last none calls =>
      rw [List.filterMap_cons_none none] at found
      cases found
  | @cons slices gates phase rest first issues fits calls others inductionHypothesis =>
      rw [List.filterMap_cons_some issues] at found ⊢
      cases place with
      | zero =>
          cases found
          exact ⟨_, fits⟩
      | succ place =>
          obtain ⟨calls, fitsToo⟩ := inductionHypothesis found
          rw [Nat.add_right_comm slices 1 place, Nat.add_assoc gates] at fitsToo
          rw [List.take_succ_cons, List.map_cons, List.sum_cons, fits.gates, List.length_map]
          exact ⟨calls, fitsToo⟩

end Numbered

/-- A slice that is going on, or has been the last one, is numbered, and its messages tell its
batch. -/
theorem Counting.numbered_last {exchanges : List Exchange}
    {goal : Process (Next (Phase suite) (Except Error Outputs))}
    (counting : Counting slices gates garbler)
    (reaches : (rounds task (.slicing garbler)).Reaches exchanges goal) :
    Numbered task slices gates [.slicing garbler] ∧
      (Transcript.ofStream (Exchange.outgoing exchanges)).filter Entry.inStream <+:
        streamOf ([Phase.slicing garbler].filterMap (issued task)) ++ [.done] := by
  have writable : ∀ issue ∈ issued task (.slicing garbler), issue.1.Writable := by
    intro issue found
    obtain ⟨_, _, executes, rfl, _⟩ := of_issued found
    exact (counting.small executes).writable garbler.nextBatch
  have tells := (utters_slice counting.serving writable).of_toRound reaches
  have calls := counting.numbered_calls task
  cases found : issued task (.slicing garbler) with
  | none =>
      rw [found] at tells
      rw [List.filterMap_cons_none found]
      exact ⟨.last found calls, tells⟩
  | some issue =>
      rw [found] at tells
      rw [List.filterMap_cons_some found]
      obtain ⟨_, _, executes, rfl, _⟩ := of_issued found
      exact ⟨.cons found (counting.issuedAt executes) calls .nil, tells⟩

/-- Whatever the other party does, the slices follow one after the other, and the messages tell
their batches. -/
theorem Counting.numbered {events : List (Event (Phase suite))}
    {activity : Activity (Phase suite) (Except Error Outputs)}
    (counting : Counting slices gates garbler)
    (follows : (Activity.running (rounds task (.slicing garbler))).Follows (rounds task) events
      activity) :
    Numbered task slices gates (.slicing garbler :: Event.begun events) ∧
      (Transcript.ofStream (Event.sent events)).filter Entry.inStream <+:
        streamOf ((Phase.slicing garbler :: Event.begun events).filterMap (issued task)) ++
          [.done] := by
  induction count : events.length using Nat.strong_induction_on
    generalizing garbler slices gates events with
  | _ count inductionHypothesis =>
      subst count
      obtain ⟨exchanges, rest, rfl, place⟩ := follows.of_running
      rw [Event.begun_append, Event.begun_exchanged, Event.sent_append, Event.sent_exchanged,
        List.nil_append]
      rcases place with ⟨goal, reaches, rfl, _⟩ | ⟨value, finishes, rfl, _⟩ |
        ⟨next, more, continues, rfl, others⟩
      · rw [Event.sent, List.filterMap_nil, List.append_nil]
        exact counting.numbered_last reaches
      · change _ ∧ (Transcript.ofStream (_ ++ [])).filter _ <+: _
        rw [List.append_nil]
        exact counting.numbered_last finishes
      · obtain ⟨phase, final, succeeds, rfl⟩ := toRound_follows_again.mp continues
        obtain ⟨ending, machine, labels, executes, sends, sent, long, after⟩ :=
          of_slice_again counting.serving succeeds
        have issues := issued_slicing executes sends
        obtain ⟨numbered, stream⟩ := inductionHypothesis _ (by simp; omega)
          (counting.after executes after) others rfl
        constructor
        · exact .cons issues (counting.issuedAt executes) (counting.numbered_calls task) numbered
        · have writable := (counting.small executes).writable garbler.nextBatch
          have carries := (Transcript.carries_arrived writable).append long.carries
          rw [sent, List.filterMap_cons_some issues]
          change (Transcript.ofStream (_ ++ Event.sent more)).filter _ <+: _
          rw [carries, List.append_nil, streamOf, List.flatMap_cons, List.append_assoc]
          exact (List.prefix_append_right_inj _).mpr stream

/-- The batches of the slices that begin in the course of some events. -/
def issues (task : Task) (events : List (Event (Phase suite))) : List (BatchPair × List Label) :=
  (Event.begun events).filterMap (issued task)

/-- The calls that garble gates in the course of some events. -/
def allCalls (task : Task) (events : List (Event (Phase suite))) : List GateCall :=
  (Event.begun events).flatMap (gateCalls task)

/-- From its setup on, whatever the other party does, the slices of the garbler follow one after the
other, and its messages tell their batches. -/
theorem numbered_of_entering {generator : suite.Generator} {events : List (Event (Phase suite))}
    {activity : Activity (Phase suite) (Except Error Outputs)}
    (follows : (Activity.running (rounds task (.entering generator))).Follows (rounds task) events
      activity) :
    Numbered task 0 0 (Event.begun events) ∧
      Event.stream events <+: streamOf (issues task events) ++ [.done] := by
  have utters : (do return Next.again (← enter task) : Session _ (Next _ Outputs)).Utters
      (·.length ≤ 2) (({}, generator) : LabelTransfer suite × suite.Generator) :=
    (utters_enter task generator).then_mute fun _ => mute_pure _
  obtain ⟨exchanges, rest, rfl, place⟩ := follows.of_running
  rw [issues, Event.stream, Event.begun_append, Event.begun_exchanged, Event.sent_append,
    Event.sent_exchanged, List.nil_append]
  have setup {goal : Process (Next (Phase suite) (Except Error Outputs))}
      (reaches : (rounds task (.entering generator)).Reaches exchanges goal) :
      (Transcript.ofGarbler (Exchange.outgoing exchanges ++ [])).filter Entry.inStream = [] := by
    rw [List.append_nil]
    exact Transcript.ofGarbler_setup (utters.of_toRound reaches)
  rcases place with ⟨goal, reaches, rfl, _⟩ | ⟨value, finishes, rfl, _⟩ |
    ⟨next, more, continues, rfl, others⟩
  · refine ⟨.nil, ?_⟩
    rw [Event.sent, List.filterMap_nil, setup reaches]
    exact List.nil_prefix
  · refine ⟨.nil, ?_⟩
    change (Transcript.ofGarbler (_ ++ [])).filter _ <+: _
    rw [setup finishes]
    exact List.nil_prefix
  · obtain ⟨_, _, succeeds, rfl⟩ := toRound_follows_again.mp continues
    obtain ⟨_, _, _, _, rfl, enters, last⟩ := bind_succeeds.mp succeeds
    obtain ⟨rfl, same, rfl⟩ := pure_succeeds.mp last
    cases same
    obtain ⟨announcement, points, offset, transfer, drawn, sent, rfl, serving⟩ :=
      sent_of_enter enters
    rw [List.append_nil, sent]
    exact (Counting.entered task offset serving drawn).numbered others

/-- Batches and gates are numbered in what a garbler has gone through. -/
structure WellNumbered (task : Task) (events : List (Event (Phase suite))) : Prop where
  /-- What was sent tells the batches, one after the other, and perhaps the end. -/
  stream : Event.stream events <+: streamOf (issues task events) ++ [.done]
  /-- A batch is sent after the slice was executed, and its labels join the queue if there are any. -/
  queued : ∀ garbler, .slicing garbler ∈ Event.begun events → ∀ issue,
    issued task (.slicing garbler) = some issue →
    ∃ ending machine,
      Machine.execute (GarblingState.backend suite garbler.offset) task.program
        task.settings.timeSlice.toNat garbler.machine = (.ok ending, machine) ∧
      ∀ exchanges final, sendSlice.Succeeds { garbler with machine } exchanges () final →
        exchanges = (BatchStream.messages issue.1).map Exchange.out ∧
          final.transfer = { garbler.transfer with
            queued := garbler.transfer.queued ++ if issue.2.isEmpty then [] else [issue.2] }
  batches : ∀ (place : Nat) issue, (issues task events)[place]? = some issue →
    issue.1.gates.number = .ofNat place ∧ issue.1.masks.number = .ofNat place ∧
      issue.1.gates.firstGate.toNat =
        (((issues task events).take place).map (·.1.gates.gates.length)).sum ∧
      issue.1.gates.evaluatorInputs.toNat = issue.2.length
  /-- The gates of all batches come of the calls, one after the other. -/
  gates : (issues task events).flatMap (·.1.gates.gates) <+:
    (allCalls task events).map (GateCall.gate suite)
  indices : ∀ (place : Nat) call, (allCalls task events)[place]? = some call →
    call.index.toNat = place
  /-- What a call garbles depends on the pads for its own tweaks only. -/
  hashes : ∀ call ∈ allCalls task events, ∀ pad other : Pad,
    (∀ tweak ∈ call.tweaks, ∀ label, pad label tweak = other label tweak) →
      Gate.garble pad call.offset call.index call.left call.right =
        Gate.garble other call.offset call.index call.left call.right
  /-- No two halves of gates have the same tweak. -/
  tweaks : ((allCalls task events).flatMap GateCall.tweaks).Nodup

/-- In both modes and at any time, whatever the other party does: as long as the gates can be
counted by a word, the batches have the numbers of their places, each gate is garbled with its place
in the run as its index, and no two halves of gates hash with the same tweak. -/
theorem numbers_batches_and_gates (task : Task) (generator : suite.Generator)
    {events : List (Event (Phase suite))}
    {activity : Activity (Phase suite) (Except Error Outputs)}
    (follows : (Activity.running (rounds task (.entering generator))).Follows (rounds task) events
      activity)
    (few : (allCalls task events).length < UInt64.size) : WellNumbered task events := by
  obtain ⟨numbered, stream⟩ := numbered_of_entering follows
  have calls : GateCall.Numbered 0 (allCalls task events) := numbered.calls
  have garbled := numbered.garbled
  refine {
    stream
    queued := ?_
    batches := ?_
    gates := garbled
    indices := ?_
    hashes := fun call _ _ _ => call.garble_congr
    tweaks := calls.nodup_tweaks few.le }
  · intro garbler _ issue found
    obtain ⟨ending, machine, executes, _, sends⟩ := of_issued found
    exact ⟨ending, machine, executes, sends⟩
  · intro place issue found
    obtain ⟨_, fits⟩ := numbered.at_place found
    rw [Nat.zero_add, Nat.zero_add] at fits
    refine ⟨fits.number, fits.masks, ?_, fits.labels⟩
    have below : (((issues task events).take place).map (·.1.gates.gates.length)).sum <
        UInt64.size := by
      have some := ((List.take_sublist place (issues task events)).map
        (·.1.gates.gates.length)).sum_le_sum fun _ _ => Nat.zero_le _
      have all := garbled.length_le
      rw [List.length_flatMap, List.length_map] at all
      exact (some.trans all).trans_lt few
    rw [fits.first]
    exact UInt64.toNat_ofNat_of_lt' below
  · intro place call found
    have inside := (List.getElem?_eq_some_iff.mp found).1
    rw [calls.index_eq found, UInt64.zero_add]
    exact UInt64.toNat_ofNat_of_lt' (inside.trans few)

/-- The first slice of the conjunction sends one batch, with the gate number zero. -/
theorem conjunction_numbers_batches_and_gates :
    let task := Task.ofConjunction
    let generator : Suite.exponents.Generator := .ofSeed []
    let begin_ : Activity (Phase Suite.exponents) (Except Error Outputs) :=
      .running (rounds task (.entering generator))
    ∃ events garbler activity, begin_.Follows (rounds task) events activity ∧
      Event.begun events = [.slicing garbler] ∧ (issues task events).length = 1 ∧
      (allCalls task events).length = 1 ∧ (allCalls task events).length < UInt64.size ∧
      WellNumbered task events := by
  intro task generator begin_
  obtain ⟨events, _, network, run, ends, _⟩ := @Run.exists_run Suite.exponents (fun _ => true)
    Suite.exponents_lawful _ _ .ofConjunction generator generator _ _
    Reference.finishes_conjunction (by decide) (by decide)
  have follows : begin_.Follows (rounds task) events (.ended (.ok { revealed := [1] })) :=
    ends ▸ run.follows.1
  obtain ⟨visited, visits, rfl⟩ := follows.visits
  obtain ⟨setup, offset, transfer, rest, others, rfl, enters, slices⟩ := of_visits_entering visits
  let garbler : Garbler Suite.exponents := entered task offset transfer rest
  obtain ⟨exchanges, goal, reaches⟩ : ∃ exchanges goal,
      (rounds task (.slicing garbler)).Reaches exchanges goal := by
    cases slices with
    | finish reaches => exact ⟨_, _, reaches⟩
    | again reaches _ => exact ⟨_, _, reaches⟩
  -- the events up to the end of the first slice
  let events : List (Event (Phase Suite.exponents)) :=
    setup.map .exchanged ++ .began (.slicing garbler) :: exchanges.map .exchanged
  have first : begin_.Follows (rounds task) events (.running goal) :=
    (Activity.Follows.of_reaches enters).trans (.step .began (.of_reaches reaches))
  have begun : Event.begun events = [.slicing garbler] := by
    rw [Event.begun_append, Event.begun_exchanged]
    exact congrArg (_ :: ·) (Event.begun_exchanged exchanges)
  have issue : (issues task events).length = 1 := by
    rw [issues, begun]
    rfl
  have one : (allCalls task events).length = 1 := by
    rw [allCalls, begun]
    rfl
  have few : (allCalls task events).length < UInt64.size := one.trans_lt (by decide)
  exact ⟨events, garbler, _, first, begun, issue, one, few,
    numbers_batches_and_gates task generator first few⟩

end Garbler

end Garbling
