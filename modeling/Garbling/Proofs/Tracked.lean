import Mathlib
import Garbling.Proofs.Coupling
import Garbling.Proofs.Operations

/-!
# Tracked garbling

The product of two backends carries out every operation with both of them. Garbling together
with a plain execution tracks the truth value of every wire beside its zero label. It follows
a plain execution, and it follows garbling as long as there are inputs for the evaluator; its
two halves are garbling and plain execution themselves.
-/

namespace Garbling

namespace Action

variable {σ τ ρ φ : Type}

/-- One action after the other, each on its own half of the state. -/
def both (first : Action σ ρ) (second : Action τ φ) : Action (σ × τ) (ρ × φ) :=
  fun (left, right) =>
    match first left with
    | (.error error, left) => (.error error, (left, right))
    | (.ok value, left) =>
        match second right with
        | (.error error, right) => (.error error, (left, right))
        | (.ok other, right) => (.ok (value, other), (left, right))

/-- Two actions together succeed exactly if both do. -/
theorem runFrom_both_eq_ok {first : Action σ ρ} {second : Action τ φ} {before after : σ × τ}
    {value : ρ × φ} :
    (first.both second).runFrom before = (.ok value, after) ↔
      first.runFrom before.1 = (.ok value.1, after.1) ∧
        second.runFrom before.2 = (.ok value.2, after.2) := by
  obtain ⟨left, right⟩ := before
  obtain ⟨leftAfter, rightAfter⟩ := after
  obtain ⟨one, other⟩ := value
  have outcome : (first.both second).runFrom (left, right) =
      match first.runFrom left with
      | (.error error, left) => (.error error, (left, right))
      | (.ok value, left) =>
          match second.runFrom right with
          | (.error error, right) => (.error error, (left, right))
          | (.ok other, right) => (.ok (value, other), (left, right)) := rfl
  rw [outcome]
  rcases first.runFrom left with ⟨_ | _, _⟩
  · simp
  · rcases second.runFrom right with ⟨_ | _, _⟩
    · simp
    · simp only [Prod.mk.injEq, Except.ok.injEq]
      tauto

theorem runFrom_both {first : Action σ ρ} {second : Action τ φ} {left leftAfter : σ}
    {right rightAfter : τ} {value : ρ} {other : φ}
    (one : first.runFrom left = (.ok value, leftAfter))
    (two : second.runFrom right = (.ok other, rightAfter)) :
    (first.both second).runFrom (left, right) = (.ok (value, other), (leftAfter, rightAfter)) :=
  runFrom_both_eq_ok.mpr ⟨one, two⟩

end Action

namespace Backend

variable {α β σ τ : Type}

/-- The backend that carries out every operation with both of two backends. It knows of
a revealed value what the first one knows. -/
def pair (first : Backend α σ) (second : Backend β τ) : Backend (α × β) (σ × τ) where
  garblerInput := first.garblerInput.both second.garblerInput
  evaluatorInput := first.evaluatorInput.both second.evaluatorInput
  and a b := (first.and a.1 b.1).both (second.and a.2 b.2)
  xor a b := (first.xor a.1 b.1, second.xor a.2 b.2)
  not a := (first.not a.1, second.not a.2)
  reveal wires := Prod.fst <$> (first.reveal (wires.map Prod.fst)).both
    (second.reveal (wires.map Prod.snd))
  output wires := do
    let _ ← (first.output (wires.map Prod.fst)).both (second.output (wires.map Prod.snd))

variable {first : Backend α σ} {second : Backend β τ} {before after : σ × τ}

theorem pair_garblerInput_eq_ok {value : α × β} :
    (pair first second).garblerInput.runFrom before = (.ok value, after) ↔
      first.garblerInput.runFrom before.1 = (.ok value.1, after.1) ∧
        second.garblerInput.runFrom before.2 = (.ok value.2, after.2) :=
  Action.runFrom_both_eq_ok

theorem pair_evaluatorInput_eq_ok {value : α × β} :
    (pair first second).evaluatorInput.runFrom before = (.ok value, after) ↔
      first.evaluatorInput.runFrom before.1 = (.ok value.1, after.1) ∧
        second.evaluatorInput.runFrom before.2 = (.ok value.2, after.2) :=
  Action.runFrom_both_eq_ok

theorem pair_and_eq_ok {left right value : α × β} :
    ((pair first second).and left right).runFrom before = (.ok value, after) ↔
      (first.and left.1 right.1).runFrom before.1 = (.ok value.1, after.1) ∧
        (second.and left.2 right.2).runFrom before.2 = (.ok value.2, after.2) :=
  Action.runFrom_both_eq_ok

theorem pair_reveal_eq_ok {wires : List (α × β)} {value : Option UInt64} :
    ((pair first second).reveal wires).runFrom before = (.ok value, after) ↔
      (first.reveal (wires.map Prod.fst)).runFrom before.1 = (.ok value, after.1) ∧
        ∃ other, (second.reveal (wires.map Prod.snd)).runFrom before.2 =
          (.ok other, after.2) := by
  simp only [pair, Action.runFrom_map_eq_ok, Action.runFrom_both_eq_ok, Prod.exists]
  constructor
  · rintro ⟨_, other, ⟨one, two⟩, rfl⟩
    exact ⟨one, other, two⟩
  · rintro ⟨one, other, two⟩
    exact ⟨value, other, ⟨one, two⟩, rfl⟩

theorem pair_reveal_ok {first : Backend α σ} {second : Backend β τ} {left leftAfter : σ}
    {right rightAfter : τ} {wires : List (α × β)} {value other : Option UInt64}
    (one : (first.reveal (wires.map Prod.fst)).runFrom left = (.ok value, leftAfter))
    (two : (second.reveal (wires.map Prod.snd)).runFrom right = (.ok other, rightAfter)) :
    ((pair first second).reveal wires).runFrom (left, right) =
      (.ok value, (leftAfter, rightAfter)) :=
  pair_reveal_eq_ok.mpr ⟨one, other, two⟩

theorem pair_output_eq_ok {wires : List (α × β)} {result : Unit} :
    ((pair first second).output wires).runFrom before = (.ok result, after) ↔
      (first.output (wires.map Prod.fst)).runFrom before.1 = (.ok (), after.1) ∧
        (second.output (wires.map Prod.snd)).runFrom before.2 = (.ok (), after.2) := by
  simp only [pair, Action.runFrom_bind_eq_ok, Action.runFrom_both_eq_ok, Action.runFrom_pure_eq_ok]
  constructor
  · rintro ⟨_, _, both, _, rfl⟩
    exact both
  · intro both
    exact ⟨((), ()), after, both, trivial, rfl⟩

/-- What the product does to its second half, the second backend does. -/
theorem Effect.snd {instruction : Instruction}
    (effect : (pair first second).Effect instruction before after) :
    second.Effect instruction before.2 after.2 := by
  cases instruction with
  | garblerInput dst =>
      obtain ⟨value, performed⟩ := effect
      exact ⟨_, (pair_garblerInput_eq_ok.mp performed).2⟩
  | evaluatorInput dst =>
      obtain ⟨value, performed⟩ := effect
      exact ⟨_, (pair_evaluatorInput_eq_ok.mp performed).2⟩
  | and dst lhs rhs =>
      obtain ⟨left, right, value, performed⟩ := effect
      exact ⟨_, _, _, (pair_and_eq_ok.mp performed).2⟩
  | reveal dst src =>
      obtain ⟨wires, value, length, performed⟩ := effect
      obtain ⟨_, other, revealed⟩ := pair_reveal_eq_ok.mp performed
      exact ⟨_, other, by simpa using length, revealed⟩
  | output src =>
      obtain ⟨wires, value, length, performed⟩ := effect
      exact ⟨_, (), by simpa using length, (pair_output_eq_ok.mp performed).2⟩
  | xor | not | constant | store | load | jumpIfZero | jump => exact congrArg Prod.snd effect

end Backend

/-- Wires that are halves of others, taken together. -/
private theorem map_eq_of_forall₂ {α β : Type} {half : β → α} {wires : List α} {pairs : List β}
    (same : List.Forall₂ (fun wire pair => half pair = wire) wires pairs) :
    pairs.map half = wires := by
  induction same with
  | nil => rfl
  | cons head _ inductionHypothesis => rw [List.map_cons, head, inductionHypothesis]

namespace Tracked

variable {suite : Suite} {offset : Offset}

/-- Garbling that tracks the truth values of all wires. -/
abbrev backend (suite : Suite) (offset : Offset) :
    Backend (Bool × Label) (Plain × GarblingState suite) :=
  (Plain.backend true).pair (GarblingState.backend suite offset)

/-- Tracked garbling follows a plain execution. -/
def ofPlain (suite : Suite) (offset : Offset) :
    Coupling (Plain.backend true) (backend suite offset) where
  wire bit tracked := tracked.1 = bit
  entry left right := left = right
  state plain state := state.1 = plain ∧ state.2.inputs = plain.garblerInputs
  within _ := True
  within_of_effect _ _ := trivial
  garblerInput := by
    rintro plain ⟨_, garbling⟩ bit after ⟨rfl, inputs⟩ performed -
    obtain ⟨rest, held, rfl⟩ := Plain.garblerInput_eq_ok.mp performed
    refine ⟨(bit, _), (_, _), Backend.pair_garblerInput_eq_ok.mpr ⟨performed,
      GarblingState.garblerInput_eq_ok.mpr ⟨bit, rest, inputs.trans held, rfl, rfl⟩⟩, rfl, rfl, rfl⟩
  evaluatorInput := by
    rintro plain ⟨_, garbling⟩ bit after ⟨rfl, inputs⟩ performed -
    obtain ⟨rest, held, rfl⟩ := Plain.evaluatorInput_eq_ok.mp performed
    exact ⟨(bit, _), (_, _), Backend.pair_evaluatorInput_eq_ok.mpr ⟨performed,
      GarblingState.runFrom_evaluatorInput⟩, rfl, rfl, inputs⟩
  and := by
    rintro left right ⟨_, leftZero⟩ ⟨_, rightZero⟩ rfl rfl plain ⟨_, garbling⟩ bit after
      ⟨rfl, inputs⟩ performed -
    cases performed
    exact ⟨_, _, Action.runFrom_both (Plain.runFrom_and true ..) (GarblingState.runFrom_and ..),
      rfl, rfl, inputs⟩
  xor := by
    rintro left right ⟨_, leftZero⟩ ⟨_, rightZero⟩ rfl rfl
    rfl
  not := by
    rintro value ⟨_, zero⟩ rfl
    rfl
  reveal := by
    rintro bits tracked same plain ⟨_, garbling⟩ value after ⟨rfl, inputs⟩ performed -
    obtain rfl := map_eq_of_forall₂ same
    cases performed
    exact ⟨_, _, Backend.pair_reveal_ok (Plain.runFrom_reveal _) (GarblingState.runFrom_reveal _),
      rfl, rfl, inputs⟩
  output := by
    rintro bits tracked same plain ⟨_, garbling⟩ value after ⟨rfl, inputs⟩ performed -
    obtain rfl := map_eq_of_forall₂ same
    cases performed
    exact ⟨(), (_, _), Backend.pair_output_eq_ok.mpr ⟨rfl, GarblingState.runFrom_output _⟩,
      trivial, rfl, inputs⟩

/-- Garbling is one half of tracked garbling. -/
def toGarbling (suite : Suite) (offset : Offset) :
    Coupling (backend suite offset) (GarblingState.backend suite offset) where
  wire tracked zero := tracked.2 = zero
  entry _ right := right = none
  state state garbling := state.2 = garbling
  within _ := True
  within_of_effect _ _ := trivial
  garblerInput := by
    rintro state _ tracked after rfl performed -
    exact ⟨_, _, (Backend.pair_garblerInput_eq_ok.mp performed).2, rfl, rfl⟩
  evaluatorInput := by
    rintro state _ tracked after rfl performed -
    exact ⟨_, _, (Backend.pair_evaluatorInput_eq_ok.mp performed).2, rfl, rfl⟩
  and := by
    rintro left right _ _ rfl rfl state _ tracked after rfl performed -
    exact ⟨_, _, (Backend.pair_and_eq_ok.mp performed).2, rfl, rfl⟩
  xor := by
    rintro left right _ _ rfl rfl
    rfl
  not := by
    rintro tracked _ rfl
    rfl
  reveal := by
    rintro tracked zeroLabels same state _ value after rfl performed -
    obtain rfl : tracked.map Prod.snd = zeroLabels := by
      rwa [← List.forall₂_eq_eq_eq, List.forall₂_map_left_iff]
    obtain ⟨_, other, revealed⟩ := Backend.pair_reveal_eq_ok.mp performed
    rw [GarblingState.runFrom_reveal] at revealed
    exact ⟨none, _, GarblingState.runFrom_reveal _, rfl, (congrArg Prod.snd revealed).symm⟩
  output := by
    rintro tracked zeroLabels same state _ value after rfl performed -
    obtain rfl : tracked.map Prod.snd = zeroLabels := by
      rwa [← List.forall₂_eq_eq_eq, List.forall₂_map_left_iff]
    exact ⟨(), _, (Backend.pair_output_eq_ok.mp performed).2, trivial, rfl⟩

/-- Tracked garbling follows garbling if there are as many inputs for the evaluator as the
final draft has. -/
def ofGarbling (suite : Suite) (offset : Offset) (final : Draft) :
    Coupling (GarblingState.backend suite offset) (backend suite offset) where
  wire zero tracked := tracked.2 = zero
  entry left right := left = none ∧ right.isSome
  state garbling state := state.2 = garbling ∧ state.1.garblerInputs = garbling.inputs ∧
    final.evaluatorInputs.size ≤
      garbling.draft.evaluatorInputs.size + state.1.evaluatorInputs.length
  within garbling := garbling.draft.Begins final
  within_of_effect effect := (GarblingState.begins_of_effect effect).trans
  garblerInput := by
    rintro _ ⟨plain, garbling⟩ zero after ⟨rfl, inputs, enough⟩ performed -
    obtain ⟨bit, rest, held, rfl, rfl⟩ := GarblingState.garblerInput_eq_ok.mp performed
    exact ⟨(bit, _), (_, _), Backend.pair_garblerInput_eq_ok.mpr
      ⟨Plain.garblerInput_eq_ok.mpr ⟨rest, inputs.trans held, rfl⟩, performed⟩, rfl, rfl, rfl,
      enough⟩
  evaluatorInput := by
    rintro _ ⟨plain, garbling⟩ zero after ⟨rfl, inputs, enough⟩ performed begins
    rw [GarblingState.runFrom_evaluatorInput] at performed
    cases performed
    have room := begins.evaluatorInputs.length_le
    simp only [Draft.addEvaluatorInput, Array.toList_push, List.length_append, Array.length_toList,
      List.length_singleton] at room
    cases bits : plain.evaluatorInputs with
    | nil =>
        simp only [bits, List.length_nil] at enough
        exact absurd (room.trans enough) (Nat.not_succ_le_self _)
    | cons bit rest =>
        refine ⟨(bit, _), (_, _), Backend.pair_evaluatorInput_eq_ok.mpr
          ⟨Plain.evaluatorInput_eq_ok.mpr ⟨rest, bits, rfl⟩,
            GarblingState.runFrom_evaluatorInput⟩, rfl, rfl, inputs, ?_⟩
        simp only [bits, List.length_cons] at enough
        simp only [Draft.addEvaluatorInput, Array.size_push]
        exact enough.trans_eq (Nat.add_right_comm _ 1 _).symm
  and := by
    rintro _ _ ⟨leftBit, left⟩ ⟨rightBit, right⟩ rfl rfl _ ⟨plain, garbling⟩ zero after
      ⟨rfl, inputs, enough⟩ performed -
    rw [GarblingState.runFrom_and] at performed
    cases performed
    exact ⟨_, _, Action.runFrom_both (Plain.runFrom_and true ..) (GarblingState.runFrom_and ..),
      rfl, rfl, inputs, enough⟩
  xor := by
    rintro _ _ left right rfl rfl
    rfl
  not := by
    rintro _ tracked rfl
    rfl
  reveal := by
    rintro zeroLabels tracked same _ ⟨plain, garbling⟩ value after ⟨rfl, inputs, enough⟩
      performed -
    obtain rfl := map_eq_of_forall₂ same
    rw [GarblingState.runFrom_reveal] at performed
    cases performed
    exact ⟨_, _, Backend.pair_reveal_ok (Plain.runFrom_reveal _) (GarblingState.runFrom_reveal _),
      ⟨rfl, rfl⟩, rfl, inputs, enough⟩
  output := by
    rintro zeroLabels tracked same _ ⟨plain, garbling⟩ value after ⟨rfl, inputs, enough⟩
      performed -
    obtain rfl := map_eq_of_forall₂ same
    rw [GarblingState.runFrom_output] at performed
    cases performed
    exact ⟨(), (_, _), Backend.pair_output_eq_ok.mpr ⟨rfl, GarblingState.runFrom_output _⟩,
      trivial, rfl, inputs, enough⟩

end Tracked

end Garbling
