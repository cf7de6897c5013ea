import Mathlib
import Garbling.Proofs.Delivery
import Garbling.Proofs.RoundTrip
import Garbling.Role.Task

/-!
# Going on together

Two processes get somewhere together if each can make exchanges that lead it there and these
exchanges fit together. What two parties do is put together from such pieces: a message and its
receipt, one session after the other, one round after the other. A description of what both
parties do says what every run of them does.
-/

namespace Garbling

/-- The exchanges of both parties fit together, and the garbler sends the given messages. -/
structure Dialogue (messages : List Bytes) (garbler evaluator : List Exchange) : Prop where
  fits : ∀ {σ τ : Type}, Fits [] [] (garbler.map Event.exchanged : List (Event σ))
    (evaluator.map Event.exchanged : List (Event τ))
  sent : ∀ {σ : Type}, Event.sent (garbler.map Event.exchanged : List (Event σ)) = messages

namespace Dialogue

theorem nil : Dialogue [] [] [] := ⟨.nil, rfl⟩

theorem append {first second : List Bytes}
    {garbler garblerMore evaluator evaluatorMore : List Exchange}
    (one : Dialogue first garbler evaluator) (two : Dialogue second garblerMore evaluatorMore) :
    Dialogue (first ++ second) (garbler ++ garblerMore) (evaluator ++ evaluatorMore) where
  fits := by
    intro σ τ
    rw [List.map_append, List.map_append]
    exact one.fits.append two.fits
  sent := by
    intro σ
    rw [List.map_append, Event.sent, List.filterMap_append]
    exact congrArg₂ (· ++ ·) one.sent two.sent

/-- A message from the garbler to the evaluator. -/
theorem fromGarbler (message : Bytes) :
    Dialogue [message] [Exchange.out message] [Exchange.into message] :=
  ⟨.garblerSends (by decide) (.evaluatorReceives .nil), rfl⟩

/-- A message from the evaluator to the garbler. -/
theorem fromEvaluator (message : Bytes) :
    Dialogue [] [Exchange.into message] [Exchange.out message] :=
  ⟨.evaluatorSends (by decide) (.garblerReceives .nil), rfl⟩

/-- Both parties send a message before they receive the other one's. -/
theorem crossing (message other : Bytes) :
    Dialogue [message] [Exchange.out message, Exchange.into other]
      [Exchange.out other, Exchange.into message] :=
  ⟨.garblerSends (by decide) (.evaluatorSends (by decide)
    (.evaluatorReceives (.garblerReceives .nil))), rfl⟩

end Dialogue

namespace Process

variable {α β γ δ : Type} {garbler garblerMiddle garblerAfter : Process α}
  {evaluator evaluatorMiddle evaluatorAfter : Process β} {messages more : List Bytes}

/-- The processes of the garbler and of the evaluator get somewhere together, and on the way
the garbler sends the given messages. -/
def Together (garbler : Process α) (evaluator : Process β) (messages : List Bytes)
    (garblerAfter : Process α) (evaluatorAfter : Process β) : Prop :=
  ∃ first second, garbler.Reaches first garblerAfter ∧ evaluator.Reaches second evaluatorAfter ∧
    Dialogue messages first second

namespace Together

theorem refl : Together garbler evaluator [] garbler evaluator :=
  ⟨[], [], .refl, .refl, .nil⟩

theorem trans (one : Together garbler evaluator messages garblerMiddle evaluatorMiddle)
    (two : Together garblerMiddle evaluatorMiddle more garblerAfter evaluatorAfter) :
    Together garbler evaluator (messages ++ more) garblerAfter evaluatorAfter := by
  obtain ⟨first, second, garblerOne, evaluatorOne, dialogue⟩ := one
  obtain ⟨third, fourth, garblerTwo, evaluatorTwo, continued⟩ := two
  exact ⟨first ++ third, second ++ fourth, garblerOne.trans garblerTwo,
    evaluatorOne.trans evaluatorTwo, dialogue.append continued⟩

/-- Whatever the processes go on with, they get as far as on their own. -/
theorem bind (together : Together garbler evaluator messages garblerAfter evaluatorAfter)
    (garblerNext : α → Process γ) (evaluatorNext : β → Process δ) :
    Together (garbler >>= garblerNext) (evaluator >>= evaluatorNext) messages
      (garblerAfter >>= garblerNext) (evaluatorAfter >>= evaluatorNext) := by
  obtain ⟨first, second, garblerReaches, evaluatorReaches, dialogue⟩ := together
  exact ⟨first, second, garblerReaches.bind garblerNext, evaluatorReaches.bind evaluatorNext,
    dialogue⟩

/-- What the garbler goes on with does not matter to the evaluator. -/
theorem bind_garbler (together : Together garbler evaluator messages garblerAfter evaluatorAfter)
    (next : α → Process γ) :
    Together (garbler >>= next) evaluator messages (garblerAfter >>= next) evaluatorAfter := by
  obtain ⟨first, second, garblerReaches, evaluatorReaches, dialogue⟩ := together
  exact ⟨first, second, garblerReaches.bind next, evaluatorReaches, dialogue⟩

/-- What the evaluator goes on with does not matter to the garbler. -/
theorem bind_evaluator (together : Together garbler evaluator messages garblerAfter evaluatorAfter)
    (next : β → Process δ) :
    Together garbler (evaluator >>= next) messages garblerAfter (evaluatorAfter >>= next) := by
  obtain ⟨first, second, garblerReaches, evaluatorReaches, dialogue⟩ := together
  exact ⟨first, second, garblerReaches, evaluatorReaches.bind next, dialogue⟩

end Together

end Process

namespace Session

variable {α β γ δ σ τ : Type} {garbler : Session σ α} {evaluator : Session τ β}
  {garblerNext : α → Session σ γ} {evaluatorNext : β → Session τ δ}
  {garblerState garblerMiddle : σ} {evaluatorState evaluatorMiddle : τ} {first : α} {second : β}
  {messages more : List Bytes}

/-- The sessions of the garbler and of the evaluator succeed together with the given results and
states, and the garbler sends the given messages. -/
def Agree (garbler : Session σ α) (evaluator : Session τ β) (garblerState : σ)
    (evaluatorState : τ) (messages : List Bytes) (garblerAfter : α × σ) (evaluatorAfter : β × τ) :
    Prop :=
  Process.Together (garbler garblerState) (evaluator evaluatorState) messages
    (.done (.ok garblerAfter.1, garblerAfter.2)) (.done (.ok evaluatorAfter.1, evaluatorAfter.2))

theorem agree_of_succeeds {garblerAfter : α × σ} {evaluatorAfter : β × τ}
    {sent answered : List Exchange}
    (garblerSucceeds : garbler.Succeeds garblerState sent garblerAfter.1 garblerAfter.2)
    (evaluatorSucceeds : evaluator.Succeeds evaluatorState answered evaluatorAfter.1
      evaluatorAfter.2) (dialogue : Dialogue messages sent answered) :
    Agree garbler evaluator garblerState evaluatorState messages garblerAfter evaluatorAfter :=
  ⟨sent, answered, garblerSucceeds, evaluatorSucceeds, dialogue⟩

theorem agree_of_silent {garblerAfter : α × σ} {evaluatorAfter : β × τ}
    (garblerSucceeds : garbler.Succeeds garblerState [] garblerAfter.1 garblerAfter.2)
    (evaluatorSucceeds : evaluator.Succeeds evaluatorState [] evaluatorAfter.1 evaluatorAfter.2) :
    Agree garbler evaluator garblerState evaluatorState [] garblerAfter evaluatorAfter :=
  agree_of_succeeds garblerSucceeds evaluatorSucceeds .nil

/-- Sessions that agree go on with what follows them. -/
theorem Agree.together
    (agree : Agree garbler evaluator garblerState evaluatorState messages (first, garblerMiddle)
      (second, evaluatorMiddle)) :
    Process.Together ((garbler >>= garblerNext) garblerState)
      ((evaluator >>= evaluatorNext) evaluatorState) messages (garblerNext first garblerMiddle)
      (evaluatorNext second evaluatorMiddle) := by
  rw [bind_apply, bind_apply]
  exact Process.Together.bind agree _ _

/-- Sessions agree if their parts do. -/
theorem Agree.bind {garblerAfter : γ × σ} {evaluatorAfter : δ × τ}
    (one : Agree garbler evaluator garblerState evaluatorState messages (first, garblerMiddle)
      (second, evaluatorMiddle))
    (two : Agree (garblerNext first) (evaluatorNext second) garblerMiddle evaluatorMiddle more
      garblerAfter evaluatorAfter) :
    Agree (garbler >>= garblerNext) (evaluator >>= evaluatorNext) garblerState evaluatorState
      (messages ++ more) garblerAfter evaluatorAfter :=
  one.together.trans two

/-- The process of a session that exchanges nothing is what follows it. -/
theorem bind_apply_of_succeeds (silent : garbler.Succeeds garblerState [] first garblerMiddle) :
    (garbler >>= garblerNext) garblerState = garblerNext first garblerMiddle := by
  have process : garbler garblerState = .done (.ok first, garblerMiddle) :=
    Process.Reaches.eq_of_nil silent
  rw [bind_apply, process]
  rfl

/-- A part of the garbler's session that exchanges nothing can be carried out at once. -/
theorem Agree.bind_garbler {garblerAfter : γ × σ} {evaluatorAfter : β × τ}
    (silent : garbler.Succeeds garblerState [] first garblerMiddle)
    (agree : Agree (garblerNext first) evaluator garblerMiddle evaluatorState messages garblerAfter
      evaluatorAfter) :
    Agree (garbler >>= garblerNext) evaluator garblerState evaluatorState messages garblerAfter
      evaluatorAfter := by
  rw [Agree, bind_apply_of_succeeds silent]
  exact agree

/-- A part of the evaluator's session that exchanges nothing can be carried out at once. -/
theorem Agree.bind_evaluator {garblerAfter : α × σ} {evaluatorAfter : δ × τ}
    (silent : evaluator.Succeeds evaluatorState [] second evaluatorMiddle)
    (agree : Agree garbler (evaluatorNext second) garblerState evaluatorMiddle messages
      garblerAfter evaluatorAfter) :
    Agree garbler (evaluator >>= evaluatorNext) garblerState evaluatorState messages garblerAfter
      evaluatorAfter := by
  rw [Agree, bind_apply_of_succeeds silent]
  exact agree

/-- The garbler's session can end with a part that exchanges nothing. -/
theorem Agree.garbler_then {garblerAfter : γ × σ} {evaluatorAfter : β × τ}
    (agree : Agree garbler evaluator garblerState evaluatorState messages (first, garblerMiddle)
      evaluatorAfter)
    (silent : (garblerNext first).Succeeds garblerMiddle [] garblerAfter.1 garblerAfter.2) :
    Agree (garbler >>= garblerNext) evaluator garblerState evaluatorState messages garblerAfter
      evaluatorAfter := by
  obtain ⟨sent, answered, garblerReaches, evaluatorReaches, dialogue⟩ := agree
  have garblerSucceeds := Succeeds.bind garblerReaches silent
  rw [List.append_nil] at garblerSucceeds
  exact agree_of_succeeds garblerSucceeds evaluatorReaches dialogue

/-- The evaluator's session can end with a part that exchanges nothing. -/
theorem Agree.evaluator_then {garblerAfter : α × σ} {evaluatorAfter : δ × τ}
    (agree : Agree garbler evaluator garblerState evaluatorState messages garblerAfter
      (second, evaluatorMiddle))
    (silent : (evaluatorNext second).Succeeds evaluatorMiddle [] evaluatorAfter.1
      evaluatorAfter.2) :
    Agree garbler (evaluator >>= evaluatorNext) garblerState evaluatorState messages garblerAfter
      evaluatorAfter := by
  obtain ⟨sent, answered, garblerReaches, evaluatorReaches, dialogue⟩ := agree
  have evaluatorSucceeds := Succeeds.bind evaluatorReaches silent
  rw [List.append_nil] at evaluatorSucceeds
  exact agree_of_succeeds garblerReaches evaluatorSucceeds dialogue

/-- A session on a part of the garbler's state agrees as it does on its own. -/
theorem Agree.zoom_garbler {υ : Type} {view : υ → σ} {update : σ → υ → υ} {garblerState : υ}
    {evaluatorAfter : β × τ}
    (agree : Agree garbler evaluator (view garblerState) evaluatorState messages
      (first, garblerMiddle) evaluatorAfter) :
    Agree (Session.zoom view update garbler) evaluator garblerState evaluatorState messages
      (first, update garblerMiddle garblerState) evaluatorAfter := by
  obtain ⟨sent, answered, garblerReaches, evaluatorReaches, dialogue⟩ := agree
  exact agree_of_succeeds (zoom_succeeds.mpr ⟨_, garblerReaches, rfl⟩) evaluatorReaches dialogue

/-- A session on a part of the evaluator's state agrees as it does on its own. -/
theorem Agree.zoom_evaluator {ω : Type} {view : ω → τ} {update : τ → ω → ω} {evaluatorState : ω}
    {garblerAfter : α × σ}
    (agree : Agree garbler evaluator garblerState (view evaluatorState) messages garblerAfter
      (second, evaluatorMiddle)) :
    Agree garbler (Session.zoom view update evaluator) garblerState evaluatorState messages
      garblerAfter (second, update evaluatorMiddle evaluatorState) := by
  obtain ⟨sent, answered, garblerReaches, evaluatorReaches, dialogue⟩ := agree
  exact agree_of_succeeds garblerReaches (zoom_succeeds.mpr ⟨_, evaluatorReaches, rfl⟩) dialogue

variable {phase other : Phase} {format : Format α} {value : α}

/-- The evaluator receives the value that the garbler sends. -/
theorem agree_send_receive (exact : format.ExactAt value) :
    Agree (send phase format value) (receive other format) garblerState evaluatorState
      [format.encode value] ((), garblerState) (value, evaluatorState) :=
  agree_of_succeeds (succeeds_send _ _ _ _)
    (receive_succeeds.mpr ⟨_, [], exact.decode, rfl, rfl⟩) (.fromGarbler _)

/-- The garbler receives the value that the evaluator sends. -/
theorem agree_receive_send (exact : format.ExactAt value) :
    Agree (receive phase format) (send other format value) garblerState evaluatorState []
      (value, garblerState) ((), evaluatorState) :=
  agree_of_succeeds (receive_succeeds.mpr ⟨_, [], exact.decode, rfl, rfl⟩)
    (succeeds_send _ _ _ _) (.fromEvaluator _)

variable {lists : Format (List α)} {values : List α} {length : Nat}

/-- The evaluator receives the list that the garbler sends. -/
theorem agree_send_receiveList (exact : lists.ExactAt values) (expected : values.length = length) :
    Agree (send phase lists values) (receiveList other lists length) garblerState evaluatorState
      [lists.encode values] ((), garblerState) (values, evaluatorState) :=
  agree_of_succeeds (succeeds_send _ _ _ _)
    (receiveList_succeeds.mpr ⟨_, [], exact.decode, expected, rfl, rfl⟩) (.fromGarbler _)

/-- The garbler receives the list that the evaluator sends. -/
theorem agree_receiveList_send (exact : lists.ExactAt values) (expected : values.length = length) :
    Agree (receiveList phase lists length) (send other lists values) garblerState evaluatorState []
      (values, garblerState) ((), evaluatorState) :=
  agree_of_succeeds (receiveList_succeeds.mpr ⟨_, [], exact.decode, expected, rfl, rfl⟩)
    (succeeds_send _ _ _ _) (.fromEvaluator _)

end Session

/-- The rounds that a party has begun in the course of some events, each by its state. -/
def Event.begun {state : Type} (events : List (Event state)) : List state :=
  events.filterMap fun
    | .began state => some state
    | _ => none

theorem Event.begun_append {state : Type} (first rest : List (Event state)) :
    Event.begun (first ++ rest) = Event.begun first ++ Event.begun rest :=
  List.filterMap_append

theorem Event.begun_exchanged {state : Type} (exchanges : List Exchange) :
    Event.begun (exchanges.map Event.exchanged : List (Event state)) = [] := by
  simp [Event.begun]

namespace Parties

variable {σ α τ β : Type} {parties : Parties σ α τ β}
  {garbler garblerMiddle garblerAfter : Activity σ α}
  {evaluator evaluatorMiddle evaluatorAfter : Activity τ β} {messages more : List Bytes}
  {begun others : List σ}

/-- The parties get somewhere together. On the way the garbler sends the given messages and
begins rounds in the given states. -/
def Joint (parties : Parties σ α τ β) (garbler : Activity σ α) (evaluator : Activity τ β)
    (messages : List Bytes) (begun : List σ) (garblerAfter : Activity σ α)
    (evaluatorAfter : Activity τ β) : Prop :=
  ∃ first second, garbler.Follows parties.garbler first garblerAfter ∧
    evaluator.Follows parties.evaluator second evaluatorAfter ∧ Fits [] [] first second ∧
    Event.sent first = messages ∧ Event.begun first = begun

namespace Joint

theorem refl : parties.Joint garbler evaluator [] [] garbler evaluator :=
  ⟨[], [], .refl, .refl, .nil, rfl, rfl⟩

theorem trans
    (one : parties.Joint garbler evaluator messages begun garblerMiddle evaluatorMiddle)
    (two : parties.Joint garblerMiddle evaluatorMiddle more others garblerAfter evaluatorAfter) :
    parties.Joint garbler evaluator (messages ++ more) (begun ++ others) garblerAfter
      evaluatorAfter := by
  obtain ⟨first, second, garblerOne, evaluatorOne, fits, rfl, rfl⟩ := one
  obtain ⟨third, fourth, garblerTwo, evaluatorTwo, fitsTwo, rfl, rfl⟩ := two
  exact ⟨first ++ third, second ++ fourth, garblerOne.trans garblerTwo,
    evaluatorOne.trans evaluatorTwo, fits.append fitsTwo, List.filterMap_append,
    Event.begun_append _ _⟩

theorem of_together {first firstAfter : Process (Next σ α)}
    {second secondAfter : Process (Next τ β)}
    (together : Process.Together first second messages firstAfter secondAfter) :
    parties.Joint (.running first) (.running second) messages [] (.running firstAfter)
      (.running secondAfter) := by
  obtain ⟨sent, answered, garblerReaches, evaluatorReaches, dialogue⟩ := together
  exact ⟨_, _, .of_reaches garblerReaches, .of_reaches evaluatorReaches, dialogue.fits,
    dialogue.sent, Event.begun_exchanged sent⟩

theorem garbler_begins (state : σ) :
    parties.Joint (.running (.done (.again state))) evaluator [] [state]
      (.running (parties.garbler state)) evaluator :=
  ⟨[.began state], [], .step .began .refl, .refl, .garblerSilent trivial .nil, rfl, rfl⟩

theorem evaluator_begins (state : τ) :
    parties.Joint garbler (.running (.done (.again state))) [] [] garbler
      (.running (parties.evaluator state)) :=
  ⟨[], [.began state], .refl, .step .began .refl, .evaluatorSilent trivial .nil, rfl, rfl⟩

theorem garbler_ends (value : α) :
    parties.Joint (.running (.done (.finish value))) evaluator [] [] (.ended value) evaluator :=
  ⟨[.ended], [], .step .ended .refl, .refl, .garblerSilent trivial .nil, rfl, rfl⟩

theorem evaluator_ends (value : β) :
    parties.Joint garbler (.running (.done (.finish value))) [] [] garbler (.ended value) :=
  ⟨[], [.ended], .refl, .step .ended .refl, .evaluatorSilent trivial .nil, rfl, rfl⟩

/-- Where the parties get together from their start, a run from there is on course to it. -/
theorem on_course {firstState : σ} {secondState : τ}
    (joint : parties.Joint (.running (parties.garbler firstState))
      (.running (parties.evaluator secondState)) messages begun garblerAfter evaluatorAfter) :
    ∃ garblerAhead evaluatorAhead,
      Network.OnCourse parties (Network.start parties firstState secondState {}) garblerAhead
        evaluatorAhead garblerAfter evaluatorAfter ∧
      Event.sent garblerAhead = messages ∧ Event.begun garblerAhead = begun := by
  obtain ⟨first, second, garblerFollows, evaluatorFollows, fits, sent, begins⟩ := joint
  exact ⟨first, second,
    { garbler := garblerFollows
      evaluator := evaluatorFollows
      fits := fits
      garblerOpen := Bool.noConfusion
      evaluatorOpen := Bool.noConfusion }, sent, begins⟩

/-- If the parties end together from their start, then every run from there ends so. -/
theorem leads {firstState : σ} {secondState : τ} {first : α} {second : β}
    (joint : parties.Joint (.running (parties.garbler firstState))
      (.running (parties.evaluator secondState)) messages begun (.ended first) (.ended second)) :
    (Network.start parties firstState secondState {}).Leads parties (fun _ => True)
      fun network => network.garbler = .ended first ∧ network.evaluator = .ended second := by
  obtain ⟨_, _, course, _, _⟩ := joint.on_course
  exact course.leads

end Joint

/-- Two parties that carry out a process each. -/
def once (garbler : Process α) (evaluator : Process β) : Parties Unit α Unit β :=
  { garbler := fun () => Next.finish <$> garbler
    evaluator := fun () => Next.finish <$> evaluator
    closing := false }

/-- Two processes that come to their results together are on course to the end of both. -/
theorem once_on_course {garbler : Process α} {evaluator : Process β} {messages : List Bytes}
    {first : α} {second : β}
    (together : Process.Together garbler evaluator messages (.done first) (.done second)) :
    ∃ exchanges answers, garbler.Follows exchanges first ∧ evaluator.Follows answers second ∧
      Network.OnCourse (once garbler evaluator) (Network.start (once garbler evaluator) () () {})
        (exchanges.map .exchanged ++ [.ended]) (answers.map .exchanged ++ [.ended])
        (.ended first) (.ended second) := by
  obtain ⟨exchanges, answers, garblerFollows, evaluatorFollows, dialogue⟩ := together
  refine ⟨exchanges, answers, garblerFollows, evaluatorFollows, ?_, ?_, ?_, Bool.noConfusion,
    Bool.noConfusion⟩
  · have finishes := garblerFollows.bind (fun value => .done (.finish value : Next Unit α))
    exact (Activity.Follows.of_reaches finishes).trans (.step .ended .refl)
  · have finishes := evaluatorFollows.bind (fun value => .done (.finish value : Next Unit β))
    exact (Activity.Follows.of_reaches finishes).trans (.step .ended .refl)
  · exact dialogue.fits.append (.garblerSilent trivial (.evaluatorSilent trivial .nil))

/-- If two processes come to their results together, then every run of them does. -/
theorem once_leads {garbler : Process α} {evaluator : Process β} {messages : List Bytes}
    {first : α} {second : β}
    (together : Process.Together garbler evaluator messages (.done first) (.done second)) :
    (Network.start (once garbler evaluator) () () {}).Leads (once garbler evaluator)
      (fun _ => True)
      fun network => network.garbler = .ended first ∧ network.evaluator = .ended second := by
  obtain ⟨_, _, _, _, course⟩ := once_on_course together
  exact course.leads

end Parties

namespace Session

variable {σ τ γ δ ι φ ψ : Type}
  {parties : Parties φ (Except Error Outputs) ψ (Except Error Outputs)}
  {garblerState garblerMiddle : σ} {evaluatorState evaluatorMiddle : τ}
  {wrapGarbler : σ → γ → φ} {wrapEvaluator : τ → δ → ψ} {messages : List Bytes}

/-- How the round of a session ends, given what the session comes to. -/
def conclusion (wrap : σ → γ → φ) :
    Except Error (Next γ Outputs) × σ → Next φ (Except Error Outputs)
  | (.ok (.again phase), state) => .again (wrap state phase)
  | (.ok (.finish outputs), _) => .finish (.ok outputs)
  | (.error error, _) => .finish (.error error)

theorem toRound_eq_bind (session : Session σ (Next γ Outputs)) (state : σ) (wrap : σ → γ → φ) :
    session.toRound state wrap =
      (session state >>= fun outcome => .done (conclusion wrap outcome)) := by
  unfold toRound
  congr 1
  funext outcome
  obtain ⟨_ | _ | _, _⟩ := outcome <;> rfl

section

variable {garbler : Session σ (Next γ Outputs)} {evaluator : Session τ (Next δ Outputs)}
  {first : Next γ Outputs} {second : Next δ Outputs}

/-- Sessions that agree make a round of each party. -/
theorem Agree.toRound
    (agree : Agree garbler evaluator garblerState evaluatorState messages (first, garblerMiddle)
      (second, evaluatorMiddle)) :
    Process.Together (garbler.toRound garblerState wrapGarbler)
      (evaluator.toRound evaluatorState wrapEvaluator) messages
      (.done (conclusion wrapGarbler (.ok first, garblerMiddle)))
      (.done (conclusion wrapEvaluator (.ok second, evaluatorMiddle))) := by
  rw [toRound_eq_bind, toRound_eq_bind]
  exact Process.Together.bind agree _ _

/-- The first part of a round of the garbler may agree with a whole round of the evaluator. -/
theorem Agree.toRound_garbler {part : Session σ ι} {value : ι}
    {rest : ι → Session σ (Next γ Outputs)}
    (agree : Agree part evaluator garblerState evaluatorState messages (value, garblerMiddle)
      (second, evaluatorMiddle)) :
    Process.Together ((part >>= rest).toRound garblerState wrapGarbler)
      (evaluator.toRound evaluatorState wrapEvaluator) messages
      ((rest value).toRound garblerMiddle wrapGarbler)
      (.done (conclusion wrapEvaluator (.ok second, evaluatorMiddle))) := by
  rw [toRound_eq_bind, toRound_eq_bind, toRound_eq_bind, bind_apply, Process.bind_assoc]
  exact Process.Together.bind agree _ _

end

/-- The first part of a round of the garbler may agree with a whole round of the evaluator, which
begins its next round then. -/
theorem Agree.evaluator_again {evaluator : Session τ (Next δ Outputs)} {part : Session σ ι}
    {value : ι} {rest : ι → Session σ (Next γ Outputs)} {second : δ}
    (agree : Agree part evaluator garblerState evaluatorState messages (value, garblerMiddle)
      (.again second, evaluatorMiddle)) :
    parties.Joint (.running ((part >>= rest).toRound garblerState wrapGarbler))
      (.running (evaluator.toRound evaluatorState wrapEvaluator)) messages []
      (.running ((rest value).toRound garblerMiddle wrapGarbler))
      (.running (parties.evaluator (wrapEvaluator evaluatorMiddle second))) := by
  rw [← List.append_nil messages]
  exact (Parties.Joint.of_together agree.toRound_garbler).trans
    (Parties.Joint.evaluator_begins _)

/-- A whole round of the garbler, which begins its next round then, may agree with the first part of
a round of the evaluator. -/
theorem Agree.garbler_again {garbler : Session σ (Next γ Outputs)} {part : Session τ ι} {value : ι}
    {rest : ι → Session τ (Next δ Outputs)} {first : γ}
    (agree : Agree garbler part garblerState evaluatorState messages (.again first, garblerMiddle)
      (value, evaluatorMiddle)) :
    parties.Joint (.running (garbler.toRound garblerState wrapGarbler))
      (.running ((part >>= rest).toRound evaluatorState wrapEvaluator)) messages
      [wrapGarbler garblerMiddle first]
      (.running (parties.garbler (wrapGarbler garblerMiddle first)))
      (.running ((rest value).toRound evaluatorMiddle wrapEvaluator)) := by
  have together : Process.Together (garbler.toRound garblerState wrapGarbler)
      ((part >>= rest).toRound evaluatorState wrapEvaluator) messages
      (.done (.again (wrapGarbler garblerMiddle first)))
      ((rest value).toRound evaluatorMiddle wrapEvaluator) := by
    rw [toRound_eq_bind, toRound_eq_bind, toRound_eq_bind, bind_apply, Process.bind_assoc]
    exact Process.Together.bind agree _ _
  rw [← List.append_nil messages]
  exact (Parties.Joint.of_together together).trans (Parties.Joint.garbler_begins _)

/-- What is left of a round after a part that exchanges nothing. -/
theorem toRound_of_succeeds {part : Session σ ι} {value : ι}
    {rest : ι → Session σ (Next γ Outputs)}
    (silent : part.Succeeds garblerState [] value garblerMiddle) :
    (part >>= rest).toRound garblerState wrapGarbler =
      (rest value).toRound garblerMiddle wrapGarbler := by
  rw [toRound_eq_bind, toRound_eq_bind, bind_apply_of_succeeds silent]

/-- A round of the evaluator in which it exchanges nothing leads to its next round. -/
theorem Succeeds.evaluator_again {evaluator : Session τ (Next δ Outputs)} {second : δ}
    (silent : evaluator.Succeeds evaluatorState [] (.again second) evaluatorMiddle)
    (garbler : Activity φ (Except Error Outputs)) :
    parties.Joint garbler (.running (evaluator.toRound evaluatorState wrapEvaluator)) [] []
      garbler (.running (parties.evaluator (wrapEvaluator evaluatorMiddle second))) := by
  have process : evaluator evaluatorState = .done (.ok (.again second), evaluatorMiddle) :=
    Process.Reaches.eq_of_nil silent
  rw [toRound_eq_bind, process]
  exact Parties.Joint.evaluator_begins _

/-- What is left of the sessions is left of the rounds. -/
theorem joint_of_together {garbler garblerRest : Session σ (Next γ Outputs)}
    {evaluator evaluatorRest : Session τ (Next δ Outputs)}
    (together : Process.Together (garbler garblerState) (evaluator evaluatorState) messages
      (garblerRest garblerMiddle) (evaluatorRest evaluatorMiddle)) :
    parties.Joint (.running (garbler.toRound garblerState wrapGarbler))
      (.running (evaluator.toRound evaluatorState wrapEvaluator)) messages []
      (.running (garblerRest.toRound garblerMiddle wrapGarbler))
      (.running (evaluatorRest.toRound evaluatorMiddle wrapEvaluator)) := by
  rw [toRound_eq_bind, toRound_eq_bind, toRound_eq_bind, toRound_eq_bind]
  exact Parties.Joint.of_together (together.bind _ _)

/-- The garbler ends with its session if that fails without an exchange. -/
theorem Fails.garbler_ends {session : Session σ (Next γ Outputs)} {error : Error} {final : σ}
    (fails : session.Fails garblerState [] error final) (evaluator : Activity ψ (Except Error Outputs)) :
    parties.Joint (.running (session.toRound garblerState wrapGarbler)) evaluator [] []
      (.ended (.error error)) evaluator := by
  rw [toRound_eq_bind, fails.eq_done]
  exact Parties.Joint.garbler_ends _

/-- The evaluator ends with its session if that fails without an exchange. -/
theorem Fails.evaluator_ends {session : Session τ (Next δ Outputs)} {error : Error} {final : τ}
    (fails : session.Fails evaluatorState [] error final)
    (garbler : Activity φ (Except Error Outputs)) :
    parties.Joint garbler (.running (session.toRound evaluatorState wrapEvaluator)) [] []
      garbler (.ended (.error error)) := by
  rw [toRound_eq_bind, fails.eq_done]
  exact Parties.Joint.evaluator_ends _

/-- Sessions that both ask for another round lead to the start of these rounds. -/
theorem Agree.again {garbler : Session σ (Next γ Outputs)} {evaluator : Session τ (Next δ Outputs)}
    {first : γ} {second : δ}
    (agree : Agree garbler evaluator garblerState evaluatorState messages
      (.again first, garblerMiddle) (.again second, evaluatorMiddle)) :
    parties.Joint (.running (garbler.toRound garblerState wrapGarbler))
      (.running (evaluator.toRound evaluatorState wrapEvaluator)) messages
      [wrapGarbler garblerMiddle first]
      (.running (parties.garbler (wrapGarbler garblerMiddle first)))
      (.running (parties.evaluator (wrapEvaluator evaluatorMiddle second))) := by
  rw [← List.append_nil messages]
  exact (Parties.Joint.of_together agree.toRound).trans
    ((Parties.Joint.garbler_begins _).trans (Parties.Joint.evaluator_begins _))

/-- Sessions that both finish lead to the end of both parties. -/
theorem Agree.finish {garbler : Session σ (Next γ Outputs)}
    {evaluator : Session τ (Next δ Outputs)} {first second : Outputs}
    (agree : Agree garbler evaluator garblerState evaluatorState messages
      (.finish first, garblerMiddle) (.finish second, evaluatorMiddle)) :
    parties.Joint (.running (garbler.toRound garblerState wrapGarbler))
      (.running (evaluator.toRound evaluatorState wrapEvaluator)) messages []
      (.ended (.ok first)) (.ended (.ok second)) := by
  rw [← List.append_nil messages]
  exact (Parties.Joint.of_together agree.toRound).trans
    ((Parties.Joint.garbler_ends _).trans (Parties.Joint.evaluator_ends _))

end Session

end Garbling
