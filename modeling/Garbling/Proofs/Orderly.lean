import Mathlib
import Garbling.Proofs.BufferedRun

/-!
# Runs never get stuck

On a course to the end of both parties nothing can go wrong, whatever order of steps is taken: some
party can take a step until both have ended, no message fails, no party fails, no message is left
in the end, and both parties come to the same results in every order. If the reference interpreter
finishes the program then honest parties are on such a course from their start, in either mode.
-/

namespace Garbling

/-- No message fails where what both parties go through fits together. -/
theorem Fits.succeeded {σ τ : Type} {u v : List Bytes} {garbler : List (Event σ)}
    {evaluator : List (Event τ)} (fits : Fits u v garbler evaluator) :
    ∀ event ∈ garbler, event.Succeeded := by
  induction fits with
  | nil => exact List.forall_mem_nil _
  | @garblerSilent _ _ event _ _ silent _ inductionHypothesis =>
      refine List.forall_mem_cons.mpr ⟨?_, inductionHypothesis⟩
      cases event with
      | exchanged exchange => exact silent.elim
      | began state => trivial
      | ended => trivial
  | garblerSends _ _ inductionHypothesis | garblerReceives _ inductionHypothesis =>
      exact List.forall_mem_cons.mpr ⟨trivial, inductionHypothesis⟩
  | evaluatorSilent _ _ inductionHypothesis | evaluatorReceives _ inductionHypothesis
  | evaluatorSends _ _ inductionHypothesis => exact inductionHypothesis

/-- The party has failed, or is about to end with a failure. A message that cannot be received, or
that is not of the kind and the length that a party expects, makes it fail. -/
def Activity.Failing {σ ε α : Type} : Activity σ (Except ε α) → Prop
  | .ended (.error _) | .running (.done (.finish (.error _))) => True
  | _ => False

/-- A party that will end with a result is not failing. -/
theorem Activity.Follows.not_failing {σ ε α : Type} {rounds : Rounds σ (Except ε α)}
    {activity : Activity σ (Except ε α)} {events : List (Event σ)} {outputs : α}
    (follows : activity.Follows rounds events (.ended (.ok outputs))) : ¬activity.Failing := by
  intro failing
  match activity, failing with
  | .ended (.error _), _ => cases follows.of_ended.2
  | .running (.done (.finish (.error _))), _ =>
      obtain _ | ⟨acts, others⟩ := follows
      cases acts
      cases others.of_ended.2

namespace Network

variable {σ τ ε α β : Type} {parties : Parties σ (Except ε α) τ (Except ε β)}
  {network : Network σ (Except ε α) τ (Except ε β)} {first : α} {second : β}

/-- Whatever steps are taken from the network, in any order, the condition holds of what both
parties have gone through and of the network that they have come to. -/
def Always (parties : Parties σ (Except ε α) τ (Except ε β))
    (condition : List (Event σ) → List (Event τ) → Network σ (Except ε α) τ (Except ε β) → Prop)
    (network : Network σ (Except ε α) τ (Except ε β)) : Prop :=
  ∀ garbler evaluator final, Run parties network garbler evaluator final →
    condition garbler evaluator final

/-- Nothing has gone wrong, nothing can keep the parties from going on, and they will end with the
given results. -/
structure Orderly (parties : Parties σ (Except ε α) τ (Except ε β)) (first : α) (second : β)
    (network : Network σ (Except ε α) τ (Except ε β)) : Prop where
  progress : network.garbler.result? = none ∨ network.evaluator.result? = none →
    ∃ role next, network.step parties role = some next
  garblerSound : ¬network.garbler.Failing
  evaluatorSound : ¬network.evaluator.Failing
  garblerResult : ∀ outcome, network.garbler = .ended outcome → outcome = .ok first
  evaluatorResult : ∀ outcome, network.evaluator = .ended outcome → outcome = .ok second
  emptied : network.garbler.result?.isSome → network.evaluator.result?.isSome →
    network.connection.fromGarbler = [] ∧ network.connection.fromEvaluator = []
  leads : network.Leads parties (fun _ => True) fun final =>
    final.garbler = .ended (.ok first) ∧ final.evaluator = .ended (.ok second)

namespace OnCourse

variable {garblerAhead : List (Event σ)} {evaluatorAhead : List (Event τ)}

/-- A network on course to the end of both parties is orderly. -/
theorem orderly (course : OnCourse parties network garblerAhead evaluatorAhead
    (.ended (.ok first)) (.ended (.ok second))) : network.Orderly parties first second where
  progress running := by
    apply course.progress
    rcases running with garbler | evaluator
    · left
      rintro rfl
      rw [course.garbler.eq_of_nil] at garbler
      cases garbler
    · right
      rintro rfl
      rw [course.evaluator.eq_of_nil] at evaluator
      cases evaluator
  garblerSound := course.garbler.not_failing
  evaluatorSound := course.evaluator.not_failing
  garblerResult outcome ended := by
    have follows := course.garbler
    rw [ended] at follows
    cases follows.of_ended.2
    rfl
  evaluatorResult outcome ended := by
    have follows := course.evaluator
    rw [ended] at follows
    cases follows.of_ended.2
    rfl
  emptied garblerEnded evaluatorEnded := by
    have garblerThrough : garblerAhead = [] := by
      by_contra ahead
      rw [course.garbler.result?_of_ahead ahead] at garblerEnded
      cases garblerEnded
    have evaluatorThrough : evaluatorAhead = [] := by
      by_contra ahead
      rw [course.evaluator.result?_of_ahead ahead] at evaluatorEnded
      cases evaluatorEnded
    subst garblerThrough evaluatorThrough
    exact ⟨course.fits.symm.queue_eq_nil, course.fits.queue_eq_nil⟩
  leads := course.leads

/-- On a course to the end of both parties no message fails, and the network stays orderly. -/
theorem stays_orderly (course : OnCourse parties network garblerAhead evaluatorAhead
    (.ended (.ok first)) (.ended (.ok second))) :
    network.Always parties fun garbler evaluator final =>
      (∀ event ∈ garbler, event.Succeeded) ∧ (∀ event ∈ evaluator, event.Succeeded) ∧
        final.Orderly parties first second := by
  intro garbler evaluator final run
  obtain ⟨garblerRest, evaluatorRest, rfl, rfl, onCourse⟩ := course.of_run run
  exact ⟨fun event member => course.fits.succeeded event (List.mem_append_left _ member),
    fun event member => course.fits.symm.succeeded event (List.mem_append_left _ member),
    onCourse.orderly⟩

end OnCourse

end Network

variable {suite : Suite} {usable : String → Bool}

/-- Honest parties with the same valid settings never get stuck, in either mode, if the reference
interpreter finishes the program; in buffered mode the store must be usable, and no instruction may
need a value that was revealed before it. Whatever order of steps is taken, no message and no party
fails, some party can go on until both have ended, no message is left then, and both come to the
values of the reference interpreter. The parties count their messages by 64 bit words, so there
must be fewer values and masks. -/
theorem Run.always_orderly (lawful : suite.Lawful) {garblerTask evaluatorTask : Task}
    (alike : Alike garblerTask evaluatorTask)
    (garblerGenerator evaluatorGenerator : suite.Generator) {path : List Instruction}
    {final : Reference}
    (finishes : Reference.Finishes garblerTask.program
      (.start garblerTask.program garblerTask.inputs evaluatorTask.inputs) path final)
    (buffers : garblerTask.typed = .buffered → Instruction.NeverWaits ∅ path ∧
      ∃ storage, Storage.select usable evaluatorTask.settings.storeDirectory = .ok storage)
    (masks : (path.map Instruction.width).sum < UInt64.size)
    (values : final.revealed.length < UInt64.size) :
    (Run.start suite usable garblerTask evaluatorTask garblerGenerator evaluatorGenerator).Always
      (Run.parties suite usable garblerTask evaluatorTask) fun garbler evaluator network =>
        (∀ event ∈ garbler, event.Succeeded) ∧ (∀ event ∈ evaluator, event.Succeeded) ∧
          network.Orderly (Run.parties suite usable garblerTask evaluatorTask)
            { revealed := final.revealed }
            { revealed := final.revealed, evaluatorOnly := final.outputs } := by
  cases mode : garblerTask.typed with
  | continuous =>
      have continuous : Continuous garblerTask evaluatorTask := ⟨alike, mode⟩
      obtain ⟨_, _, joint⟩ := continuous.joint_of_finishes lawful garblerGenerator
        evaluatorGenerator finishes masks values
      obtain ⟨_, _, course, _, _⟩ := Run.on_course joint
      exact course.stays_orderly
  | buffered =>
      have buffered : Buffered garblerTask evaluatorTask := ⟨alike, mode⟩
      obtain ⟨never, storage, selected⟩ := buffers mode
      obtain ⟨_, _, joint⟩ := buffered.joint_of_finishes lawful selected garblerGenerator
        evaluatorGenerator finishes never masks values
      obtain ⟨_, _, course, _, _⟩ := Run.on_course joint
      exact course.stays_orderly

/-- Both parties learn whether both of them have a set bit, and nothing depends on it. -/
def Program.product : Program where
  instructions := #[.garblerInput 0, .evaluatorInput 1, .and 2 0 1, .reveal 0 [2]]
  memorySize := 0
  faultless := by decide

/-- The task of a party with a set bit, in slices of two instructions. -/
def Task.ofProduct (mode : Mode) : Task := .ofSettings { mode, timeSlice := 2 } .product [true]

theorem Alike.ofProduct (mode : Mode) : Alike (.ofProduct mode) (.ofProduct mode) := by
  cases mode <;> exact ⟨rfl, rfl, rfl, rfl, rfl⟩

/-- What the reference interpreter comes to if both parties have a set bit. -/
def Reference.ofProduct : Reference where
  counter := 4
  secrets := #[some true, some true, some true]
  clears := #[some 1]
  memory := Program.product.memory
  garblerInputs := []
  evaluatorInputs := []
  revealed := [1]

theorem Reference.finishes_product :
    Finishes .product (.start .product [true] [true]) Program.product.instructions.toList
      .ofProduct where
  executes := .step rfl rfl (.step rfl rfl (.step rfl rfl (.step rfl rfl .refl)))
  finished := rfl

theorem Instruction.neverWaits_product : NeverWaits ∅ Program.product.instructions.toList :=
  ⟨nofun, nofun, nofun, nofun, trivial⟩

/-- Parties with a set bit each never get stuck in buffered mode, and learn that both have one. -/
theorem Run.product_orderly :
    let generator := ChaCha20.Generator.ofSeed []
    let task := Task.ofProduct .buffered
    let parties := Run.parties Suite.exponents (fun _ => true) task task
    Suite.exponents.Lawful ∧ Alike task task ∧
      Reference.Finishes task.program (.start task.program task.inputs task.inputs)
        Program.product.instructions.toList .ofProduct ∧
      (task.typed = .buffered → Instruction.NeverWaits ∅ Program.product.instructions.toList ∧
        ∃ storage, Storage.select (fun _ => true) task.settings.storeDirectory = .ok storage) ∧
      (Program.product.instructions.toList.map Instruction.width).sum < UInt64.size ∧
      Reference.ofProduct.revealed.length < UInt64.size ∧
      (Run.start Suite.exponents (fun _ => true) task task generator generator).Always parties
        fun garbler evaluator network =>
          (∀ event ∈ garbler, event.Succeeded) ∧ (∀ event ∈ evaluator, event.Succeeded) ∧
            network.Orderly parties { revealed := [1] } { revealed := [1] } := by
  intro generator task parties
  have buffers : task.typed = .buffered →
      Instruction.NeverWaits ∅ Program.product.instructions.toList ∧
        ∃ storage, Storage.select (fun _ => true) task.settings.storeDirectory = .ok storage :=
    fun _ => ⟨Instruction.neverWaits_product, .memory, rfl⟩
  have masks : (Program.product.instructions.toList.map Instruction.width).sum <
      UInt64.size := by decide
  have values : Reference.ofProduct.revealed.length < UInt64.size := by decide
  exact ⟨Suite.exponents_lawful, .ofProduct .buffered, Reference.finishes_product, buffers, masks,
    values, Run.always_orderly Suite.exponents_lawful (.ofProduct .buffered) generator generator
      Reference.finishes_product buffers masks values⟩

end Garbling
