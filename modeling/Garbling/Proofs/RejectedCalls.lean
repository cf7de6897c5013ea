import Mathlib
import Garbling.Proofs.Endings
import Garbling.Proofs.Exponents
import Garbling.Proofs.InputLabels
import Garbling.Proofs.Results

/-!
# Calls that are rejected

One side of the transfer of labels can be called in any order. Until a setup has succeeded, it is
as it was before the first one, and rejects what needs a setup; from then on it rejects every other
setup. A call that is rejected exchanges no message and changes nothing, so the calls around it
have the outcomes that they would have without it.
-/

namespace Garbling

namespace LabelTransfer

open Session

variable {suite : Suite}

/-- What one side can be called for. -/
inductive Call where
  | setup (offset : Option Offset)
  | derive
  | enqueue (zeroLabels : List Label)
  | extend (count : Nat) (choices : List Bool)
  | serve
  | receive (choices : List Bool)

/-- What one side does when it is called. The labels that it answers with, if the call is for
labels, are the result. -/
def Call.session : Call → Session (LabelTransfer suite × suite.Generator) (List Label)
  | .setup offset => do
      LabelTransfer.setup offset
      return []
  | .derive => do
      let outcome ← modifyGet fun (transfer, generator) =>
        let (outcome, generator) := transfer.derive generator
        (outcome, transfer, generator)
      let (zero, one) ← allowed outcome
      return [zero, one]
  | .enqueue zeroLabels => do
      modify fun (transfer, generator) => (transfer.enqueue zeroLabels, generator)
      return []
  | .extend count choices => withoutGenerator (LabelTransfer.extend count choices)
  | .serve => do
      withoutGenerator LabelTransfer.serve
      return []
  | .receive choices => withoutGenerator (LabelTransfer.receive choices)

/-- The outcomes of some calls, and one side with its generator after them. -/
abbrev Performance (suite : Suite) : Type :=
  List (Except Error (List Label)) × LabelTransfer suite × suite.Generator

/-- Some calls, one after the other, whether they fail or not. -/
def perform (calls : List Call) (state : LabelTransfer suite × suite.Generator) :
    Process (Performance suite) :=
  playAll (calls.map Call.session) state

theorem perform_cons (call : Call) (calls : List Call)
    (state : LabelTransfer suite × suite.Generator) :
    perform (call :: calls) state = do
      let (outcome, state) ← call.session state
      let (outcomes, state) ← perform calls state
      return (outcome :: outcomes, state) :=
  rfl

/-- The first call is made, and then the others. -/
theorem perform_cons_follows {call : Call} {calls : List Call}
    {state final : LabelTransfer suite × suite.Generator} {exchanges : List Exchange}
    {outcomes : List (Except Error (List Label))} :
    (perform (call :: calls) state).Follows exchanges (outcomes, final) ↔
      ∃ first rest outcome others middle, exchanges = first ++ rest ∧ outcomes = outcome :: others ∧
        (call.session state).Follows first (outcome, middle) ∧
        (perform calls middle).Follows rest (others, final) := by
  rw [perform_cons]
  constructor
  · intro performed
    obtain ⟨first, _, ⟨outcome, middle⟩, rfl, one, tail⟩ := Process.bind_follows.mp performed
    obtain ⟨rest, _, ⟨others, _⟩, rfl, two, done⟩ := Process.bind_follows.mp tail
    obtain ⟨rfl, ⟨⟩⟩ := Process.done_follows.mp done
    exact ⟨first, rest, outcome, others, middle, by rw [List.append_nil], rfl, one, two⟩
  · rintro ⟨first, rest, outcome, others, middle, rfl, rfl, one, two⟩
    refine Process.bind_follows.mpr ⟨first, rest, _, rfl, one, ?_⟩
    exact Process.bind_follows.mpr ⟨rest, [], _, (List.append_nil rest).symm, two, .refl⟩

/-- Two sides get somewhere with their calls on a connection. -/
def PerformTogether (garblerCalls evaluatorCalls : List Call)
    (garbler evaluator : LabelTransfer suite × suite.Generator) (connection : Connection)
    (garblerEvents evaluatorEvents : List (Event Unit))
    (network : Network Unit (Performance suite) Unit (Performance suite)) : Prop :=
  let parties := Parties.once (perform garblerCalls garbler) (perform evaluatorCalls evaluator)
  Network.Run parties (.start parties () () connection) garblerEvents evaluatorEvents network

/-- Whether one side has been set up, and as which one. -/
inductive Stage where
  | fresh
  /-- The garbler's side has an offset. -/
  | setUp (offset : Option Offset)

namespace Stage

/-- The stage after a call with the given outcome. -/
def next : Stage → Call → Except Error (List Label) → Stage
  | .fresh, .setup offset, .ok _ => .setUp offset
  | stage, _, _ => stage

/-- The stage after some calls with the given outcomes. -/
def after : Stage → List Call → List (Except Error (List Label)) → Stage
  | stage, call :: calls, outcome :: outcomes => (stage.next call outcome).after calls outcomes
  | stage, _, _ => stage

/-- Why a call is rejected at a stage, if it is. -/
def rejects? : Stage → Call → Option Violation
  | .fresh, .derive => some .transferNotSetUp
  | .fresh, .extend .. => some .transferNotSetUp
  | .fresh, .receive _ => some .transferNotSetUp
  | .setUp _, .setup _ => some .transferSetupRepeated
  | .setUp none, .derive => some .transferNotSetUp
  | .setUp none, .extend count choices =>
      if choices.length ≠ count then some (.missingInputLabels count choices.length) else none
  | _, _ => none

/-- The calls that are not rejected. -/
def accepted (stage : Stage) (calls : List Call) : List Call :=
  calls.filter fun call => (stage.rejects? call).isNone

/-- The outcomes of all calls, from those of the calls that are not rejected. -/
def withRefusals (stage : Stage) :
    List Call → List (Except Error (List Label)) → List (Except Error (List Label))
  | [], _ => []
  | call :: calls, outcomes =>
      match stage.rejects? call, outcomes with
      | some breach, outcomes => .error (.violation breach) :: stage.withRefusals calls outcomes
      | none, outcome :: outcomes => outcome :: stage.withRefusals calls outcomes
      | none, [] => []

/-- The stage that an extension belongs to. -/
def ofExtension : Extension suite → Stage
  | .idle => .fresh
  | .sender offset _ => .setUp (some offset)
  | .receiver _ => .setUp none

/-- The offset of a side at a stage. -/
def offset : Stage → Option Offset
  | .fresh => none
  | .setUp offset => offset

/-- The extension of a side and its offset belong to the stage. -/
structure Holds (stage : Stage) (transfer : LabelTransfer suite) : Prop where
  extension : ofExtension transfer.extension = stage
  offset : transfer.offset = stage.offset

variable {stage : Stage} {call : Call} {breach : Violation} {transfer : LabelTransfer suite}

/-- The stage of a side that has been set up does not change. -/
theorem next_of_ne_fresh (set : stage ≠ .fresh) (call : Call)
    (outcome : Except Error (List Label)) : stage.next call outcome = stage := by
  cases stage with
  | fresh => exact absurd rfl set
  | setUp offset => rfl

/-- Only a setup can have another stage after it. -/
theorem next_of_ne_setup (other : ∀ offset, call ≠ .setup offset)
    (outcome : Except Error (List Label)) : stage.next call outcome = stage := by
  cases stage with
  | setUp => rfl
  | fresh =>
      cases call with
      | setup offset => exact absurd rfl (other offset)
      | derive | enqueue | extend | serve | receive => rfl

theorem next_ne_fresh_iff {outcome : Except Error (List Label)} :
    fresh.next call outcome ≠ fresh ↔
      ∃ offset labels, (Call.setup offset, Except.ok labels) = (call, outcome) := by
  cases call <;> cases outcome <;> simp [next]

theorem after_of_ne_fresh (set : stage ≠ .fresh) (calls : List Call)
    (outcomes : List (Except Error (List Label))) : stage.after calls outcomes = stage := by
  induction calls generalizing outcomes with
  | nil => rfl
  | cons call calls inductionHypothesis =>
      cases outcomes with
      | nil => rfl
      | cons outcome outcomes => rw [after, next_of_ne_fresh set, inductionHypothesis]

/-- A side has been set up once a setup has succeeded. -/
theorem after_ne_fresh_iff {calls : List Call} {outcomes : List (Except Error (List Label))} :
    fresh.after calls outcomes ≠ fresh ↔
      ∃ offset labels, (Call.setup offset, Except.ok labels) ∈ calls.zip outcomes := by
  induction calls generalizing outcomes with
  | nil => simp [after]
  | cons call calls inductionHypothesis =>
      cases outcomes with
      | nil => simp [after]
      | cons outcome outcomes =>
          rw [after, List.zip_cons_cons]
          by_cases first : fresh.next call outcome = fresh
          · rw [first, inductionHypothesis]
            refine exists_congr fun offset => exists_congr fun labels => ?_
            have other : (Call.setup offset, Except.ok labels) ≠ (call, outcome) :=
              fun same => next_ne_fresh_iff.mpr ⟨offset, labels, same⟩ first
            simp only [List.mem_cons, other, false_or]
          · rw [after_of_ne_fresh first]
            obtain ⟨offset, labels, same⟩ := next_ne_fresh_iff.mp first
            exact iff_of_true first ⟨offset, labels, same ▸ List.mem_cons_self⟩

theorem holds_fresh : fresh.Holds ({} : LabelTransfer suite) := ⟨rfl, rfl⟩

/-- A side that has not been set up has nothing but its queue. -/
theorem Holds.eq_of_fresh (holds : fresh.Holds transfer) :
    transfer = { queued := transfer.queued } := by
  obtain ⟨extension, offset, queued⟩ := transfer
  obtain ⟨same, none⟩ := holds
  cases extension with
  | idle =>
      cases none
      rfl
  | sender | receiver => cases same

theorem Holds.enqueue (holds : stage.Holds transfer) (zeroLabels : List Label) :
    stage.Holds (transfer.enqueue zeroLabels) := by
  rw [LabelTransfer.enqueue_eq]
  exact ⟨holds.extension, holds.offset⟩

/-- A round of transfers does not change the stage. -/
theorem keeps_extend (stage : Stage) (count : Nat) (choices : List Bool) :
    (LabelTransfer.extend count choices : Session (LabelTransfer suite) _).Keeps stage.Holds := by
  have keeps : (Extension.extend count choices : Session (Extension suite) _).Keeps
      (ofExtension · = stage) := by
    refine keeps_get_bind fun extension belongs => ?_
    cases extension with
    | idle => exact keeps_throw _ belongs
    | sender offset columns =>
        refine Keeps.bind (keeps_receiveList _ _ _) (fun masked => ?_) belongs
        refine Keeps.bind (keeps_set belongs) fun _ => ?_
        exact Keeps.bind (keeps_allowed _) fun _ => keeps_pure _
    | receiver columns =>
        dsimp only
        split
        · exact keeps_throw _ belongs
        · refine Keeps.bind (keeps_set ?_) (fun _ => ?_) belongs
          · exact belongs
          · exact Keeps.bind (keeps_send _ _ _) fun _ => keeps_pure _
  exact Keeps.zoom keeps (fun _ holds => holds.extension)
    fun _ _ holds belongs => ⟨belongs, holds.offset⟩

theorem keeps_serveAll (stage : Stage) (batches : List (List Label)) :
    (serveAll batches : Session (LabelTransfer suite) Unit).Keeps stage.Holds := by
  induction batches with
  | nil => exact keeps_pure ()
  | cons zeroLabels batches inductionHypothesis =>
      refine Keeps.bind (keeps_modify fun _ holds => ⟨holds.extension, holds.offset⟩) fun _ => ?_
      refine Keeps.bind (stage.keeps_extend _ _) fun rows => ?_
      exact Keeps.bind (keeps_send _ _ _) fun _ => inductionHypothesis

theorem keeps_receive (stage : Stage) (choices : List Bool) :
    (LabelTransfer.receive choices : Session (LabelTransfer suite) _).Keeps stage.Holds := by
  refine Keeps.bind (stage.keeps_extend _ _) fun rows => ?_
  exact Keeps.bind (keeps_receiveList _ _ _) fun masked => keeps_pure _

theorem keeps_withoutGenerator {α : Type} {session : Session (LabelTransfer suite) α}
    (keeps : session.Keeps stage.Holds) :
    (withoutGenerator session).Keeps fun state => stage.Holds state.1 :=
  Keeps.zoom keeps (fun _ holds => holds) fun _ _ _ held => held

theorem ofExtension_of_setupSender {offset : Offset} {generator final : suite.Generator}
    {exchanges : List Exchange} {extension : Extension suite}
    (succeeds : (Extension.setupSender suite offset).Succeeds generator exchanges extension final) :
    ofExtension extension = setUp (some offset) := by
  obtain ⟨_, _, seeds, _, _, _, done⟩ := bind_succeeds.mp succeeds
  obtain ⟨_, rfl, _⟩ := pure_succeeds.mp done
  rfl

theorem ofExtension_of_setupReceiver {generator final : suite.Generator}
    {exchanges : List Exchange} {extension : Extension suite}
    (succeeds : (Extension.setupReceiver suite).Succeeds generator exchanges extension final) :
    ofExtension extension = setUp none := by
  obtain ⟨_, _, seeds, _, _, _, others⟩ := bind_succeeds.mp succeeds
  obtain ⟨_, _, _, _, _, _, done⟩ := bind_succeeds.mp others
  obtain ⟨_, rfl, _⟩ := pure_succeeds.mp done
  rfl

/-- The extension is replaced at the very end of its setup, by one that belongs to the stage after
it. -/
theorem ensures_setupExtension (offset : Option Offset) (generator : suite.Generator) :
    (Extension.setup offset).Ensures (fun outcome final =>
      match outcome with
      | .ok _ => ofExtension final.1 = setUp offset
      | .error _ => final.1 = .idle) (.idle, generator) := by
  refine Ensures.bind (ensures_of_done rfl (Ensures.bind (Ensures.zoom ?_)))
  intro exchanges outcome final follows
  cases outcome with
  | error error => rfl
  | ok extension =>
      refine ensures_of_done rfl ?_
      cases offset with
      | some offset => exact ofExtension_of_setupSender follows
      | none => exact ofExtension_of_setupReceiver follows

/-- A setup that fails leaves the side as it was. One that succeeds brings both the extension and
the offset to the next stage. -/
theorem Holds.ensures_setup (holds : fresh.Holds transfer) (offset : Option Offset)
    (generator : suite.Generator) :
    (LabelTransfer.setup offset).Ensures (fun outcome final =>
      match outcome with
      | .ok _ => (setUp offset).Holds final.1
      | .error _ => final.1 = transfer) (transfer, generator) := by
  rw [holds.eq_of_fresh]
  refine Ensures.bind (Ensures.zoom ((ensures_setupExtension offset generator).mono ?_))
  intro outcome final ends
  cases outcome with
  | ok => exact ensures_of_done rfl ⟨ends, rfl⟩
  | error error =>
      have same : final.1 = .idle := ends
      simp only [same]

theorem fails_withoutGenerator {α : Type} {session : Session (LabelTransfer suite) α}
    {exchanges : List Exchange} {error : Error} {final : LabelTransfer suite}
    (fails : session.Fails transfer exchanges error final) (generator : suite.Generator) :
    (withoutGenerator session).Fails (transfer, generator) exchanges error (final, generator) :=
  Fails.zoom fails

/-- A round of transfers that is rejected fails at once, whoever asks for it. -/
theorem Holds.fails_extend (holds : stage.Holds transfer) {count : Nat} {choices : List Bool}
    (rejects : stage.rejects? (.extend count choices) = some breach) :
    (LabelTransfer.extend count choices).Fails transfer [] (.violation breach) transfer := by
  have fails : (Extension.extend count choices).Fails transfer.extension [] (.violation breach)
      transfer.extension := by
    rw [← holds.extension] at rejects
    refine (succeeds_get _).fails ?_
    cases held : transfer.extension with
    | idle =>
        rw [held] at rejects
        cases rejects
        exact fails_throw _ _
    | sender offset columns =>
        rw [held] at rejects
        cases rejects
    | receiver columns =>
        rw [held] at rejects
        obtain ⟨differs, ⟨⟩⟩ := Option.ite_none_right_eq_some.mp rejects
        simp only [ne_eq, differs, not_false_eq_true, if_true]
        exact Fails.bind (fails_throw _ _)
  exact Fails.zoom fails

/-- A call that is rejected exchanges nothing and changes nothing. -/
theorem Holds.session_of_rejects (holds : stage.Holds transfer)
    (rejects : stage.rejects? call = some breach) (generator : suite.Generator) :
    call.session (transfer, generator) =
      .done (.error (.violation breach), transfer, generator) := by
  cases call with
  | setup other =>
      obtain ⟨extension, offset, queued⟩ := transfer
      have belongs : ofExtension extension = stage := holds.extension
      subst belongs
      cases extension with
      | idle => cases rejects
      | sender | receiver =>
          cases rejects
          rfl
  | derive =>
      have without : transfer.offset = none ∧ breach = .transferNotSetUp := by
        rw [holds.offset]
        match stage, rejects with
        | .fresh, rfl => exact ⟨rfl, rfl⟩
        | .setUp none, rfl => exact ⟨rfl, rfl⟩
      obtain ⟨extension, offset, queued⟩ := transfer
      obtain ⟨rfl, rfl⟩ := without
      rfl
  | extend count choices =>
      exact (fails_withoutGenerator (holds.fails_extend rejects) generator).eq_done
  | receive choices =>
      match stage, rejects with
      | .fresh, rfl =>
          have fails : (LabelTransfer.receive choices).Fails transfer []
              (.violation .transferNotSetUp) transfer :=
            Fails.bind (holds.fails_extend rfl)
          exact (fails_withoutGenerator fails generator).eq_done
  | enqueue | serve =>
      match stage, rejects with
      | .fresh, rejects | .setUp none, rejects | .setUp (some _), rejects => cases rejects

/-- Serving the queue fails with its first batch if a round for that batch is rejected. The batch
is lost, and nothing else is. -/
theorem Holds.serve_of_rejects (holds : stage.Holds transfer) {zeroLabels : List Label}
    {queued : List (List Label)} (waiting : transfer.queued = zeroLabels :: queued)
    (rejects : stage.rejects? (.extend zeroLabels.length []) = some breach)
    (generator : suite.Generator) :
    Call.serve.session (transfer, generator) =
      .done (.error (.violation breach), { transfer with queued }, generator) := by
  have left : stage.Holds { transfer with queued } := ⟨holds.extension, holds.offset⟩
  have fails : LabelTransfer.serve.Fails transfer [] (.violation breach)
      { transfer with queued } := by
    refine (succeeds_get _).fails ?_
    rw [waiting]
    refine (succeeds_modify _ _).fails ?_
    exact Fails.bind (left.fails_extend rejects)
  exact (Fails.bind (fails_withoutGenerator fails generator)).eq_done

/-- Only a setup can bring a side to another stage. -/
theorem keeps_session (stage : Stage) {call : Call} (other : ∀ offset, call ≠ .setup offset) :
    (call.session : Session (LabelTransfer suite × suite.Generator) _).Keeps
      fun state => stage.Holds state.1 := by
  cases call with
  | setup offset => exact absurd rfl (other offset)
  | derive =>
      refine Keeps.bind (keeps_modifyGet fun _ holds => holds) fun outcome => ?_
      exact Keeps.bind (keeps_allowed outcome) fun labels => keeps_pure _
  | enqueue zeroLabels =>
      refine Keeps.bind (keeps_modify fun _ holds => ?_) fun _ => keeps_pure _
      exact holds.enqueue zeroLabels
  | extend count choices => exact keeps_withoutGenerator (stage.keeps_extend count choices)
  | serve =>
      have keeps : (LabelTransfer.serve : Session (LabelTransfer suite) Unit).Keeps stage.Holds :=
        keeps_get_bind fun _ holds => stage.keeps_serveAll _ holds
      exact Keeps.bind (keeps_withoutGenerator keeps) fun _ => keeps_pure _
  | receive choices => exact keeps_withoutGenerator (stage.keeps_receive choices)

/-- A call brings a side to the stage that its outcome tells. -/
theorem Holds.ensures_session (holds : stage.Holds transfer) (call : Call)
    (generator : suite.Generator) :
    call.session.Ensures (fun outcome final => (stage.next call outcome).Holds final.1)
      (transfer, generator) := by
  by_cases other : ∀ offset, call ≠ .setup offset
  · refine Ensures.mono (stage.keeps_session other holds) fun outcome final held => ?_
    rw [next_of_ne_setup other]
    exact held
  · obtain ⟨offset, rfl⟩ := not_forall_not.mp other
    cases stage with
    | setUp => exact ensures_of_done (holds.session_of_rejects rfl generator) holds
    | fresh =>
        refine Ensures.bind ((holds.ensures_setup offset generator).mono ?_)
        intro outcome final ends
        cases outcome with
        | ok => exact ensures_of_done rfl ends
        | error error =>
            have same : final.1 = transfer := ends
            exact same ▸ holds

/-- Some calls bring a side to the stage that their outcomes tell. -/
theorem Holds.of_perform (holds : stage.Holds transfer) {calls : List Call}
    {generator : suite.Generator} {exchanges : List Exchange}
    {outcomes : List (Except Error (List Label))}
    {final : LabelTransfer suite × suite.Generator}
    (performed : (perform calls (transfer, generator)).Follows exchanges (outcomes, final)) :
    (stage.after calls outcomes).Holds final.1 := by
  induction calls generalizing stage transfer generator exchanges outcomes with
  | nil =>
      obtain ⟨_, ⟨⟩⟩ := Process.done_follows.mp performed
      exact holds
  | cons call calls inductionHypothesis =>
      obtain ⟨_, _, _, _, _, _, rfl, one, others⟩ := perform_cons_follows.mp performed
      exact inductionHypothesis (holds.ensures_session call generator one) others

theorem accepted_cons_of_rejects (rejects : stage.rejects? call = some breach)
    (calls : List Call) : stage.accepted (call :: calls) = stage.accepted calls := by
  simp [accepted, rejects]

theorem accepted_cons (accepts : stage.rejects? call = none) (calls : List Call) :
    stage.accepted (call :: calls) = call :: stage.accepted calls := by
  simp [accepted, accepts]

theorem withRefusals_cons_of_rejects (rejects : stage.rejects? call = some breach)
    (calls : List Call) (outcomes : List (Except Error (List Label))) :
    stage.withRefusals (call :: calls) outcomes =
      .error (.violation breach) :: stage.withRefusals calls outcomes := by
  simp only [withRefusals, rejects]

theorem withRefusals_cons (accepts : stage.rejects? call = none) (calls : List Call)
    (outcome : Except Error (List Label)) (outcomes : List (Except Error (List Label))) :
    stage.withRefusals (call :: calls) (outcome :: outcomes) =
      outcome :: stage.withRefusals calls outcomes := by
  simp only [withRefusals, accepts]

/-- Once a side has been set up, it makes no difference whether calls are rejected or not made at
all, whatever comes of the messages of the others. -/
theorem Holds.perform_eq (holds : stage.Holds transfer) (set : stage ≠ .fresh) (calls : List Call)
    (generator : suite.Generator) :
    perform calls (transfer, generator) =
      Prod.map (stage.withRefusals calls) id <$>
        perform (stage.accepted calls) (transfer, generator) := by
  induction calls generalizing transfer generator with
  | nil => rfl
  | cons call calls inductionHypothesis =>
      cases rejects : stage.rejects? call with
      | some breach =>
          rw [perform_cons, holds.session_of_rejects rejects generator,
            accepted_cons_of_rejects rejects]
          simp only [Process.done_bind, inductionHypothesis holds, map_eq_pure_bind, bind_assoc,
            pure_bind, Prod.map, withRefusals_cons_of_rejects rejects, id_eq]
      | none =>
          rw [perform_cons, accepted_cons rejects, perform_cons, map_bind]
          refine Process.bind_congr fun exchanges (outcome, middle) follows => ?_
          have still : (stage.next call outcome).Holds middle.1 :=
            holds.ensures_session call generator follows
          rw [next_of_ne_fresh set] at still
          simp only [inductionHypothesis still, map_eq_pure_bind, bind_assoc, pure_bind, Prod.map,
            withRefusals_cons rejects]

/-- A setup that fails changes nothing but the generator. -/
theorem Holds.transfer_of_setup_error (holds : stage.Holds transfer) {offset : Option Offset}
    {generator : suite.Generator} {exchanges : List Exchange} {error : Error}
    {final : LabelTransfer suite × suite.Generator}
    (fails : ((Call.setup offset).session (transfer, generator)).Follows exchanges
      (.error error, final)) : final.1 = transfer := by
  cases stage with
  | setUp =>
      rw [holds.session_of_rejects rfl] at fails
      obtain ⟨_, ⟨⟩⟩ := Process.done_follows.mp fails
      rfl
  | fresh =>
      have ensures : (Call.setup offset).session.Ensures (fun outcome final =>
          match outcome with
          | .ok _ => True
          | .error _ => final.1 = transfer) (transfer, generator) := by
        refine Ensures.bind ((holds.ensures_setup offset generator).mono ?_)
        intro outcome final ends
        cases outcome with
        | ok => exact ensures_of_done rfl trivial
        | error error => exact ends
      exact ensures fails

/-- What is true of one side at a stage, whatever it is called for next. -/
structure Governs (stage : Stage) (transfer : LabelTransfer suite) (generator : suite.Generator) :
    Prop where
  holds : stage.Holds transfer
  /-- What is rejected exchanges nothing and changes nothing. -/
  rejected : ∀ call breach, stage.rejects? call = some breach →
    call.session (transfer, generator) = .done (.error (.violation breach), transfer, generator)
  /-- The queue is not served if a round for its first batch is rejected. That batch is lost. -/
  unserved : ∀ zeroLabels queued breach, transfer.queued = zeroLabels :: queued →
    stage.rejects? (.extend zeroLabels.length []) = some breach →
    Call.serve.session (transfer, generator) =
      .done (.error (.violation breach), { transfer with queued }, generator)
  /-- A setup that fails changes nothing but the generator. -/
  failed : ∀ offset exchanges error final,
    ((Call.setup offset).session (transfer, generator)).Follows exchanges (.error error, final) →
      final.1 = transfer
  /-- Once the side has been set up, calls that are rejected might as well not be made, whatever
  the other party does. -/
  alone : stage ≠ .fresh → ∀ calls, perform calls (transfer, generator) =
    Prod.map (stage.withRefusals calls) id <$> perform (stage.accepted calls) (transfer, generator)
  /-- Two sides that have been set up come to the same networks by the same events with calls
  that are rejected and without them, except that the outcomes tell of those calls. -/
  together : stage ≠ .fresh →
    ∀ (other : Stage) (peer : LabelTransfer suite) (peerGenerator : suite.Generator),
      other ≠ .fresh → other.Holds peer →
      ∀ calls peerCalls connection events peerEvents final,
        PerformTogether calls peerCalls (transfer, generator) (peer, peerGenerator) connection
            events peerEvents final ↔
          ∃ network, PerformTogether (stage.accepted calls) (other.accepted peerCalls)
              (transfer, generator) (peer, peerGenerator) connection events peerEvents network ∧
            final = network.mapResults (Prod.map (stage.withRefusals calls) id)
              (Prod.map (other.withRefusals peerCalls) id)

theorem Holds.governs (holds : stage.Holds transfer) (generator : suite.Generator) :
    stage.Governs transfer generator where
  holds := holds
  rejected call breach rejects := holds.session_of_rejects rejects generator
  unserved zeroLabels queued breach waiting rejects :=
    holds.serve_of_rejects waiting rejects generator
  failed offset exchanges error final := holds.transfer_of_setup_error
  alone set calls := holds.perform_eq set calls generator
  together set other peer peerGenerator peerSet peerHolds calls peerCalls connection events
      peerEvents final := by
    unfold PerformTogether
    rw [holds.perform_eq set calls, peerHolds.perform_eq peerSet peerCalls]
    exact Parties.run_once_map_iff _ _ _ _ connection events peerEvents final

end Stage

/-- Whatever one side has been called for, and whatever has come of its messages: the outcomes tell
its stage, which it has left at the start only if a setup has succeeded, and as long as none has, it
is as if there had been none. The stage decides which calls are rejected, and those change
nothing. -/
theorem rejected_calls_change_nothing {calls : List Call} {start generator : suite.Generator}
    {exchanges : List Exchange} {outcomes : List (Except Error (List Label))}
    {transfer : LabelTransfer suite}
    (performed : (perform calls ({}, start)).Follows exchanges (outcomes, transfer, generator)) :
    (Stage.fresh.after calls outcomes).Governs transfer generator ∧
    (Stage.fresh.after calls outcomes ≠ .fresh ↔
      ∃ offset labels, (Call.setup offset, Except.ok labels) ∈ calls.zip outcomes) ∧
    (Stage.fresh.after calls outcomes = .fresh → transfer = { queued := transfer.queued }) := by
  have holds := Stage.holds_fresh.of_perform performed
  refine ⟨holds.governs generator, Stage.after_ne_fresh_iff, fun fresh => ?_⟩
  rw [fresh] at holds
  exact holds.eq_of_fresh

/-- A side that was asked for labels too early, and then was set up as the garbler's side. -/
theorem rejected_calls_change_nothing_after_setup :
    ∃ exchanges transfer generator,
      let calls := [.derive, .setup (some ⟨5⟩)]
      let outcomes := [.error (.violation .transferNotSetUp), .ok []]
      (perform calls ({}, Suite.exponents.expand 1)).Follows exchanges
        (outcomes, transfer, generator) ∧
      (Stage.fresh.after calls outcomes).Governs transfer generator ∧
      (Stage.fresh.after calls outcomes ≠ .fresh ↔
        ∃ offset labels, (Call.setup offset, Except.ok labels) ∈ calls.zip outcomes) ∧
      (Stage.fresh.after calls outcomes = .fresh → transfer = { queued := transfer.queued }) := by
  obtain ⟨message, transfer, _, _, agree, _⟩ :=
    agree_setup Suite.exponents_lawful ⟨5⟩ (Suite.exponents.expand 1) (Suite.exponents.expand 2)
  obtain ⟨exchanges, _, succeeds, _⟩ := agree
  have sets : (Call.setup (some ⟨5⟩)).session.Succeeds ({}, Suite.exponents.expand 1)
      (exchanges ++ []) [] (transfer, _) :=
    Succeeds.bind succeeds (succeeds_pure _ _)
  have performed : (perform [.derive, .setup (some ⟨5⟩)] ({}, Suite.exponents.expand 1)).Follows
      (exchanges ++ [] ++ []) ([.error (.violation .transferNotSetUp), .ok []], transfer, _) :=
    perform_cons_follows.mpr ⟨[], _, _, _, _, rfl, rfl, .refl,
      perform_cons_follows.mpr ⟨_, [], _, _, _, rfl, rfl, sets, .refl⟩⟩
  exact ⟨_, _, _, performed, rejected_calls_change_nothing performed⟩

end LabelTransfer

end Garbling
