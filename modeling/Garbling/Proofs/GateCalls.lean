import Mathlib
import Garbling.Proofs.Footprints

/-!
# Calls that garble gates

Each conjunction that is executed is one call of the function that garbles a gate, and the number
of the gates before it is its index. So the calls are numbered one after the other, and the halves
of the gates hash with tweaks of which no two are the same, as long as the gates can be counted by
a word.
-/

namespace Garbling

variable {suite : Suite}

theorem toNat_tweak (index : UInt64) (half : UInt8) :
    (tweak index half).toNat = 2 * index.toNat + half.toNat % 2 := by
  have small := index.toNat_lt
  rw [tweak, BitVec.toNat_ofNat, Nat.mod_eq_of_lt]
  omega

/-- A tweak tells the gate and the half. -/
theorem tweak_inj {first second : UInt64} {half other : UInt8} :
    tweak first half = tweak second other ↔
      first = second ∧ half.toNat % 2 = other.toNat % 2 := by
  constructor
  · intro same
    have numbers := congrArg BitVec.toNat same
    rw [toNat_tweak, toNat_tweak] at numbers
    exact ⟨UInt64.toNat_inj.mp (by omega), by omega⟩
  · rintro ⟨rfl, same⟩
    rw [tweak, tweak, same]

/-- What the function that garbles a gate is called with. -/
structure GateCall where
  offset : Offset
  index : UInt64
  /-- The zero labels of the inputs. -/
  left : Label
  right : Label

namespace GateCall

/-- The gate that comes of a call. -/
def gate (suite : Suite) (call : GateCall) : Gate :=
  (Gate.garble suite.pad call.offset call.index call.left call.right).1

/-- The tweaks that the halves of the gate hash with. -/
def tweaks (call : GateCall) : List Word := [tweak call.index 0, tweak call.index 1]

/-- Garbling depends on the pads for the two tweaks only. -/
theorem garble_congr (call : GateCall) {pad other : Pad}
    (agree : ∀ tweak ∈ call.tweaks, ∀ label, pad label tweak = other label tweak) :
    Gate.garble pad call.offset call.index call.left call.right =
      Gate.garble other call.offset call.index call.left call.right := by
  have first := agree _ (.head _)
  have second := agree _ (.tail _ (.head _))
  simp only [Gate.garble, first, second]

/-- The calls are numbered one after the other, from the given index on. -/
inductive Numbered : UInt64 → List GateCall → Prop
  | nil {index : UInt64} : Numbered index []
  | cons {index : UInt64} {call : GateCall} {rest : List GateCall} (same : call.index = index)
      (others : Numbered (index + 1) rest) : Numbered index (call :: rest)

namespace Numbered

variable {index : UInt64} {calls rest : List GateCall}

theorem append (numbered : Numbered index calls)
    (others : Numbered (index + UInt64.ofNat calls.length) rest) :
    Numbered index (calls ++ rest) := by
  induction numbered with
  | nil =>
      rw [List.length_nil] at others
      simpa using others
  | cons same _ inductionHypothesis =>
      refine .cons same (inductionHypothesis ?_)
      rw [List.length_cons, Nat.add_comm, UInt64.ofNat_add, ← UInt64.add_assoc] at others
      exact others

/-- A call has its place as its index. -/
theorem index_eq (numbered : Numbered index calls) {place : Nat} {call : GateCall}
    (found : calls[place]? = some call) : call.index = index + UInt64.ofNat place := by
  induction numbered generalizing place with
  | nil => cases found
  | cons same _ inductionHypothesis =>
      cases place with
      | zero =>
          cases found
          exact same.trans (UInt64.add_zero _).symm
      | succ place =>
          rw [inductionHypothesis found, UInt64.add_assoc, Nat.add_comm, UInt64.ofNat_add]
          rfl

/-- Calls with fewer places than a word can count have different indices. -/
theorem index_ne (numbered : Numbered index calls) (few : calls.length ≤ UInt64.size)
    {first second : Nat} (before : first < second) (inside : second < calls.length) :
    calls[first].index ≠ calls[second].index := by
  have one := numbered.index_eq (List.getElem?_eq_getElem (before.trans inside))
  have two := numbered.index_eq (List.getElem?_eq_getElem inside)
  intro same
  rw [one, two, UInt64.add_right_inj] at same
  have places := congrArg UInt64.toNat same
  rw [UInt64.toNat_ofNat_of_lt' (by omega), UInt64.toNat_ofNat_of_lt' (by omega)] at places
  omega

/-- No two halves of the gates hash with the same tweak. -/
theorem nodup_tweaks (numbered : Numbered index calls) (few : calls.length ≤ UInt64.size) :
    (calls.flatMap tweaks).Nodup := by
  rw [List.nodup_flatMap]
  constructor
  · intro call _
    have halves : tweak call.index 0 ≠ tweak call.index 1 := by
      intro same
      cases (tweak_inj.mp same).2
    simpa [tweaks] using halves
  · rw [List.pairwise_iff_getElem]
    intro first second firstInside secondInside before shared one two
    have different := numbered.index_ne few before secondInside
    simp only [tweaks, List.mem_cons, List.not_mem_nil, or_false] at one two
    rcases one with rfl | rfl <;> rcases two with same | same <;>
      exact different (tweak_inj.mp same).1

end Numbered

end GateCall

/-- Garbling an instruction that needs no gate leaves the gates of the draft as they are. -/
theorem GarblingState.gates_of_effect {offset : Offset} {instruction : Instruction}
    {before after : GarblingState suite}
    (effect : (backend suite offset).Effect instruction before after)
    (none : instruction.needs .gate = 0) : after.draft.gates = before.draft.gates := by
  have count := amount_of_effect effect .gate
  rw [none] at count
  exact (Array.toList_inj.mp ((begins_of_effect effect).gates.eq_of_length count.symm)).symm

/-- The call that garbles the gate of an executed instruction, if it is a conjunction. -/
def Executed.call? (offset : Offset) (executed : Executed Label (GarblingState suite)) :
    Option GateCall :=
  match executed.instruction with
  | .and _ lhs rhs =>
      match executed.before.processor.read lhs, executed.before.processor.read rhs with
      | .ok left, .ok right => some ⟨offset, executed.before.backend.gateCount, left, right⟩
      | _, _ => none
  | _ => none

namespace Machine

variable {offset : Offset} {program : Program} {budget : Nat}
  {before middle after : Machine Label (GarblingState suite)} {instruction : Instruction}
  {executed : List Instruction} {ending : Break} {checkpoint : Checkpoint}

/-- The calls that garble the gates of a slice. -/
def gateCalls (offset : Offset) (program : Program) (budget : Nat)
    (machine : Machine Label (GarblingState suite)) : List GateCall :=
  (history (GarblingState.backend suite offset) program budget machine).filterMap
    (Executed.call? offset)

theorem gateCalls_of_proceed
    (next : program.instructions[before.processor.counter]? = some instruction)
    (attempted : attempt (GarblingState.backend suite offset) instruction before =
      (.ok .proceed, after)) :
    gateCalls offset program (budget + 1) before =
      ((⟨instruction, before, after⟩ : Executed _ _).call? offset).toList ++
        gateCalls offset program budget after := by
  rw [gateCalls, history_of_proceed next attempted, List.filterMap_cons]
  cases (⟨instruction, before, after⟩ : Executed _ _).call? offset <;> rfl

/-- An attempt garbles the gate of its call, if it makes one, and counts it. -/
theorem garbles_of_attempt
    (attempted : attempt (GarblingState.backend suite offset) instruction before =
      (.ok checkpoint, after)) :
    let calls := ((⟨instruction, before, after⟩ : Executed _ _).call? offset).toList
    after.backend.draft.gates.toList =
        before.backend.draft.gates.toList ++ calls.map (GateCall.gate suite) ∧
      after.backend.gateCount = before.backend.gateCount + UInt64.ofNat calls.length ∧
      GateCall.Numbered before.backend.gateCount calls := by
  obtain ⟨completed, completes, _, rfl⟩ := attempt_eq_ok_iff.mp attempted
  cases instruction with
  | and dst lhs rhs =>
      obtain ⟨left, right, label, rest, leftRead, rightRead, performed, rfl⟩ := completes
      rw [GarblingState.runFrom_and] at performed
      cases performed
      have leftFound : before.processor.read lhs = .ok left := leftRead
      have rightFound : before.processor.read rhs = .ok right := rightRead
      simp only [Executed.call?, leftFound, rightFound, Option.toList_some]
      refine ⟨?_, rfl, .cons rfl .nil⟩
      exact Array.toList_push
  | _ =>
      have gates := GarblingState.gates_of_effect completes.effect rfl
      have count := (GarblingState.gateCount_of_effect completes.effect).1
      refine ⟨?_, count, .nil⟩
      simp [Executed.call?, gates]

/-- The calls of a slice are numbered from the number of the gates before it on, also if the slice
fails. -/
theorem numbered_gateCalls (offset : Offset) (program : Program) (budget : Nat)
    (machine : Machine Label (GarblingState suite)) :
    GateCall.Numbered machine.backend.gateCount (gateCalls offset program budget machine) := by
  induction budget generalizing machine with
  | zero => exact .nil
  | succ budget inductionHypothesis =>
      cases next : program.instructions[machine.processor.counter]? with
      | none =>
          rw [gateCalls, history_of_end next]
          exact .nil
      | some instruction =>
          rcases attempted : attempt (GarblingState.backend suite offset) instruction machine with
            ⟨error | (_ | _), after⟩
          · simp only [gateCalls, history, next, attempted]
            exact .nil
          · rw [gateCalls_of_proceed next attempted]
            obtain ⟨_, count, numbered⟩ := garbles_of_attempt attempted
            exact numbered.append (count ▸ inductionHypothesis after)
          · simp only [gateCalls, history, next, attempted]
            exact .nil

/-- A slice garbles the gates of its calls, and counts them. -/
theorem Slice.garbles
    (slice : Slice (GarblingState.backend suite offset) program budget before executed ending after)
    (lowered : before.processor.taint = {}) :
    after.backend.draft.gates.toList = before.backend.draft.gates.toList ++
        (gateCalls offset program budget before).map (GateCall.gate suite) ∧
      after.backend.gateCount = before.backend.gateCount +
        UInt64.ofNat (gateCalls offset program budget before).length := by
  induction slice with
  | done finished =>
      rw [gateCalls, history_of_end finished]
      exact ⟨(List.append_nil _).symm, (UInt64.add_zero _).symm⟩
  | time next => exact ⟨(List.append_nil _).symm, (UInt64.add_zero _).symm⟩
  | restart next attempted =>
      obtain ⟨rfl, _⟩ := restart_of_attempt lowered attempted
      simp only [gateCalls, history, next, attempted]
      exact ⟨(List.append_nil _).symm, (UInt64.add_zero _).symm⟩
  | step next attempted slice inductionHypothesis =>
      obtain ⟨gates, count, _⟩ := garbles_of_attempt attempted
      obtain ⟨gatesAfter, countAfter⟩ := inductionHypothesis (taint_of_attempt attempted)
      rw [gateCalls_of_proceed next attempted, List.map_append, List.length_append]
      constructor
      · rw [gatesAfter, gates, List.append_assoc]
      · rw [countAfter, count, UInt64.add_assoc, UInt64.ofNat_add]

end Machine

end Garbling
