import Mathlib
import Garbling.Network.Session

/-!
# What a session exchanges

A process follows a list of exchanges to a result if it sends and receives exactly those
messages, with those outcomes, before it comes to that result. A session that succeeds has
followed the exchanges of its parts, one part after the other.
-/

namespace Garbling

/-- A message that was sent or waited for, and what came of it. -/
inductive Exchange where
  | sent (message : Bytes) (outcome : Except SendFailure Unit)
  | received (outcome : Except ReceiveFailure Bytes)

namespace Exchange

/-- A message that was sent. -/
abbrev out (message : Bytes) : Exchange := .sent message (.ok ())

/-- A message that was received. -/
abbrev into (message : Bytes) : Exchange := .received (.ok message)

end Exchange

namespace Process

variable {α β : Type}

/-- The process makes the given exchanges and goes on as another process. -/
inductive Reaches : Process α → List Exchange → Process α → Prop
  | refl {process : Process α} : Reaches process [] process
  | send {message : Bytes} {next : Except SendFailure Unit → Process α}
      {outcome : Except SendFailure Unit} {rest : List Exchange} {goal : Process α}
      (reaches : Reaches (next outcome) rest goal) :
      Reaches (.send message next) (.sent message outcome :: rest) goal
  | receive {next : Except ReceiveFailure Bytes → Process α}
      {outcome : Except ReceiveFailure Bytes} {rest : List Exchange} {goal : Process α}
      (reaches : Reaches (next outcome) rest goal) :
      Reaches (.receive next) (.received outcome :: rest) goal

/-- The process makes the given exchanges and comes to the result. -/
def Follows (process : Process α) (exchanges : List Exchange) (result : α) : Prop :=
  process.Reaches exchanges (.done result)

@[simp] theorem done_follows {value result : α} {exchanges : List Exchange} :
    (Process.done value).Follows exchanges result ↔ exchanges = [] ∧ result = value := by
  constructor
  · rintro ⟨⟩
    exact ⟨rfl, rfl⟩
  · rintro ⟨rfl, rfl⟩
    exact .refl

@[simp] theorem send_follows {message : Bytes} {next : Except SendFailure Unit → Process α}
    {exchanges : List Exchange} {result : α} :
    (Process.send message next).Follows exchanges result ↔
      ∃ outcome rest, exchanges = .sent message outcome :: rest ∧
        (next outcome).Follows rest result := by
  constructor
  · intro follows
    cases follows with
    | send reaches => exact ⟨_, _, rfl, reaches⟩
  · rintro ⟨outcome, rest, rfl, follows⟩
    exact .send follows

@[simp] theorem receive_follows {next : Except ReceiveFailure Bytes → Process α}
    {exchanges : List Exchange} {result : α} :
    (Process.receive next).Follows exchanges result ↔
      ∃ outcome rest, exchanges = .received outcome :: rest ∧
        (next outcome).Follows rest result := by
  constructor
  · intro follows
    cases follows with
    | receive reaches => exact ⟨_, _, rfl, reaches⟩
  · rintro ⟨outcome, rest, rfl, follows⟩
    exact .receive follows

/-- A part of a process makes its exchanges within the whole. -/
theorem Reaches.bind {process goal : Process α} {exchanges : List Exchange}
    (reaches : process.Reaches exchanges goal) (next : α → Process β) :
    (process >>= next).Reaches exchanges (goal >>= next) := by
  induction reaches with
  | refl => exact .refl
  | send reaches inductionHypothesis => exact .send inductionHypothesis
  | receive reaches inductionHypothesis => exact .receive inductionHypothesis

theorem Reaches.eq_of_nil {process goal : Process α} (reaches : process.Reaches [] goal) :
    process = goal := by
  cases reaches
  rfl

theorem Reaches.trans {process middle goal : Process α} {first rest : List Exchange}
    (one : process.Reaches first middle) (two : middle.Reaches rest goal) :
    process.Reaches (first ++ rest) goal := by
  induction one with
  | refl => exact two
  | send reaches inductionHypothesis => exact .send (inductionHypothesis two)
  | receive reaches inductionHypothesis => exact .receive (inductionHypothesis two)

/-- One process after the other makes the exchanges of both. -/
theorem bind_follows {process : Process α} {next : α → Process β} {exchanges : List Exchange}
    {result : β} :
    (process >>= next).Follows exchanges result ↔
      ∃ first rest value, exchanges = first ++ rest ∧ process.Follows first value ∧
        (next value).Follows rest result := by
  constructor
  · intro follows
    induction process generalizing exchanges with
    | done value => exact ⟨[], exchanges, value, rfl, done_follows.mpr ⟨rfl, rfl⟩, follows⟩
    | send message others inductionHypothesis =>
        rw [send_bind, send_follows] at follows
        obtain ⟨outcome, tail, rfl, follows⟩ := follows
        obtain ⟨first, rest, value, rfl, one, two⟩ := inductionHypothesis outcome follows
        exact ⟨_, rest, value, rfl, send_follows.mpr ⟨outcome, first, rfl, one⟩, two⟩
    | receive others inductionHypothesis =>
        rw [receive_bind, receive_follows] at follows
        obtain ⟨outcome, tail, rfl, follows⟩ := follows
        obtain ⟨first, rest, value, rfl, one, two⟩ := inductionHypothesis outcome follows
        exact ⟨_, rest, value, rfl, receive_follows.mpr ⟨outcome, first, rfl, one⟩, two⟩
  · rintro ⟨first, rest, value, rfl, one, two⟩
    exact (Reaches.bind one next).trans two

end Process

namespace Session

variable {α β σ τ : Type}

/-- The session makes the given exchanges, and succeeds with the given result and state. -/
def Succeeds (session : Session σ α) (state : σ) (exchanges : List Exchange) (value : α)
    (final : σ) : Prop :=
  (session state).Follows exchanges (.ok value, final)

variable {state final : σ} {exchanges : List Exchange}

@[simp] theorem pure_succeeds {value result : α} :
    (pure value : Session σ α).Succeeds state exchanges result final ↔
      exchanges = [] ∧ result = value ∧ final = state := by
  simp only [Succeeds, show (pure value : Session σ α) state = .done (.ok value, state) from rfl,
    Process.done_follows, Prod.mk.injEq, Except.ok.injEq]

@[simp] theorem throw_succeeds {error : Error} {result : α} :
    (throw error : Session σ α).Succeeds state exchanges result final ↔ False := by
  simp only [Succeeds,
    show (throw error : Session σ α) state = .done (.error error, state) from rfl,
    Process.done_follows, Prod.mk.injEq, reduceCtorEq, false_and, and_false]

@[simp] theorem get_succeeds {result : σ} :
    (get : Session σ σ).Succeeds state exchanges result final ↔
      exchanges = [] ∧ result = state ∧ final = state := by
  simp only [Succeeds, show (get : Session σ σ) state = .done (.ok state, state) from rfl,
    Process.done_follows, Prod.mk.injEq, Except.ok.injEq]

@[simp] theorem set_succeeds {next : σ} {result : PUnit} :
    (set next : Session σ PUnit).Succeeds state exchanges result final ↔
      exchanges = [] ∧ final = next := by
  simp only [Succeeds, show (set next : Session σ PUnit) state = .done (.ok (), next) from rfl,
    Process.done_follows, Prod.mk.injEq, true_and]

@[simp] theorem modify_succeeds {change : σ → σ} {result : PUnit} :
    (modify change : Session σ PUnit).Succeeds state exchanges result final ↔
      exchanges = [] ∧ final = change state := by
  simp only [Succeeds,
    show (modify change : Session σ PUnit) state = .done (.ok (), change state) from rfl,
    Process.done_follows, Prod.mk.injEq, true_and]

@[simp] theorem modifyGet_succeeds {change : σ → α × σ} {result : α} :
    (modifyGet change : Session σ α).Succeeds state exchanges result final ↔
      exchanges = [] ∧ result = (change state).1 ∧ final = (change state).2 := by
  simp only [Succeeds, show (modifyGet change : Session σ α) state =
    .done (.ok (change state).1, (change state).2) from rfl, Process.done_follows, Prod.mk.injEq,
    Except.ok.injEq]

theorem succeeds_pure (value : α) (state : σ) :
    (pure value : Session σ α).Succeeds state [] value state :=
  .refl

theorem succeeds_get (state : σ) : (get : Session σ σ).Succeeds state [] state state :=
  .refl

theorem succeeds_set (next state : σ) : (set next : Session σ PUnit).Succeeds state [] () next :=
  .refl

theorem succeeds_modify (change : σ → σ) (state : σ) :
    (modify change : Session σ PUnit).Succeeds state [] () (change state) :=
  .refl

theorem succeeds_modifyGet (change : σ → α × σ) (state : σ) :
    (modifyGet change : Session σ α).Succeeds state [] (change state).1 (change state).2 :=
  .refl

/-- The process of a session that goes on with another one. -/
theorem bind_apply (session : Session σ α) (next : α → Session σ β) (state : σ) :
    (session >>= next) state = (session state >>= fun outcome =>
      match outcome with
      | (.ok value, state) => next value state
      | (.error error, state) => .done (.error error, state)) := by
  change (session state >>= fun outcome => ExceptT.bindCont next outcome.1 outcome.2) = _
  congr 1
  funext outcome
  obtain ⟨_ | _, _⟩ := outcome <;> rfl

/-- A session succeeds if its parts succeed one after the other. -/
theorem bind_succeeds {session : Session σ α} {next : α → Session σ β} {result : β} :
    (session >>= next).Succeeds state exchanges result final ↔
      ∃ first rest value middle, exchanges = first ++ rest ∧
        session.Succeeds state first value middle ∧
          (next value).Succeeds middle rest result final := by
  simp only [Succeeds, bind_apply, Process.bind_follows]
  constructor
  · rintro ⟨first, rest, ⟨_ | value, middle⟩, rfl, one, two⟩
    · simp at two
    · exact ⟨first, rest, value, middle, rfl, one, two⟩
  · rintro ⟨first, rest, value, middle, rfl, one, two⟩
    exact ⟨first, rest, (.ok value, middle), rfl, one, two⟩

theorem Succeeds.bind {session : Session σ α} {next : α → Session σ β} {middle : σ}
    {first rest : List Exchange} {value : α} {result : β}
    (one : session.Succeeds state first value middle)
    (two : (next value).Succeeds middle rest result final) :
    (session >>= next).Succeeds state (first ++ rest) result final :=
  bind_succeeds.mpr ⟨first, rest, value, middle, rfl, one, two⟩

theorem succeeds_allowed {outcome : Except Violation α} {value : α} (allows : outcome = .ok value)
    (state : σ) : (allowed outcome : Session σ α).Succeeds state [] value state := by
  subst allows
  exact .refl

@[simp] theorem allowed_succeeds {outcome : Except Violation α} {result : α} :
    (allowed outcome : Session σ α).Succeeds state exchanges result final ↔
      outcome = .ok result ∧ exchanges = [] ∧ final = state := by
  cases outcome with
  | error breach => simp [allowed]
  | ok value =>
      simp only [allowed, pure_succeeds, Except.ok.injEq]
      tauto

@[simp] theorem sendBytes_succeeds {phase : Phase} {message : Bytes} {result : Unit} :
    (sendBytes phase message : Session σ Unit).Succeeds state exchanges result final ↔
      exchanges = [.out message] ∧ final = state := by
  simp only [Succeeds, sendBytes, Process.send_follows]
  constructor
  · rintro ⟨failure | _, rest, rfl, follows⟩
    · simp at follows
    · simp only [Process.done_follows, Prod.mk.injEq] at follows
      obtain ⟨rfl, _, rfl⟩ := follows
      exact ⟨rfl, rfl⟩
  · rintro ⟨rfl, rfl⟩
    exact ⟨.ok (), [], rfl, by simp⟩

@[simp] theorem receiveBytes_succeeds {phase : Phase} {message : Bytes} :
    (receiveBytes phase : Session σ Bytes).Succeeds state exchanges message final ↔
      exchanges = [.into message] ∧ final = state := by
  simp only [Succeeds, receiveBytes, Process.receive_follows]
  constructor
  · rintro ⟨failure | found, rest, rfl, follows⟩
    · simp at follows
    · simp only [Process.done_follows, Prod.mk.injEq, Except.ok.injEq] at follows
      obtain ⟨rfl, rfl, rfl⟩ := follows
      exact ⟨rfl, rfl⟩
  · rintro ⟨rfl, rfl⟩
    exact ⟨.ok message, [], rfl, by simp⟩

theorem succeeds_receiveBytes (phase : Phase) (message : Bytes) (state : σ) :
    (receiveBytes phase : Session σ Bytes).Succeeds state [.into message] message state :=
  receiveBytes_succeeds.mpr ⟨rfl, rfl⟩

@[simp] theorem send_succeeds {phase : Phase} {format : Format α} {value : α} {result : Unit} :
    (send phase format value : Session σ Unit).Succeeds state exchanges result final ↔
      exchanges = [.out (format.encode value)] ∧ final = state :=
  sendBytes_succeeds

theorem succeeds_send (phase : Phase) (format : Format α) (value : α) (state : σ) :
    (send phase format value).Succeeds state [.out (format.encode value)] () state :=
  send_succeeds.mpr ⟨rfl, rfl⟩

@[simp] theorem receive_succeeds {phase : Phase} {format : Format α} {value : α} :
    (receive phase format : Session σ α).Succeeds state exchanges value final ↔
      ∃ message rest, format.decode message = .ok (value, rest) ∧
        exchanges = [.into message] ∧ final = state := by
  simp only [receive, bind_succeeds, receiveBytes_succeeds]
  constructor
  · rintro ⟨_, _, message, _, rfl, ⟨rfl, rfl⟩, success⟩
    split at success
    · next found rest decoded =>
        obtain ⟨rfl, rfl, rfl⟩ := pure_succeeds.mp success
        exact ⟨message, rest, decoded, rfl, rfl⟩
    · exact (throw_succeeds.mp success).elim
  · rintro ⟨message, rest, decoded, rfl, rfl⟩
    exact ⟨_, [], message, _, rfl, ⟨rfl, rfl⟩, by rw [decoded]; simp⟩

@[simp] theorem receiveList_succeeds {phase : Phase} {format : Format (List α)} {length : Nat}
    {values : List α} :
    (receiveList phase format length : Session σ (List α)).Succeeds state exchanges values final ↔
      ∃ message rest, format.decode message = .ok (values, rest) ∧ values.length = length ∧
        exchanges = [.into message] ∧ final = state := by
  simp only [receiveList, bind_succeeds, receive_succeeds]
  constructor
  · rintro ⟨_, _, found, _, rfl, ⟨message, rest, decoded, rfl, rfl⟩, success⟩
    by_cases expected : found.length = length
    · simp [expected] at success
      obtain ⟨rfl, rfl, rfl⟩ := success
      exact ⟨message, rest, decoded, expected, rfl, rfl⟩
    · simp [expected] at success
  · rintro ⟨message, rest, decoded, expected, rfl, rfl⟩
    exact ⟨_, [], values, _, rfl, ⟨message, rest, decoded, rfl, rfl⟩, by simp [expected]⟩

@[simp] theorem zoom_succeeds {view : σ → τ} {update : τ → σ → σ} {session : Session τ α}
    {value : α} :
    (zoom view update session).Succeeds state exchanges value final ↔
      ∃ part, session.Succeeds (view state) exchanges value part ∧ final = update part state := by
  simp only [Succeeds, zoom, Process.bind_follows]
  constructor
  · rintro ⟨first, rest, ⟨outcome, part⟩, rfl, one, two⟩
    simp only [Process.pure_eq_done, Process.done_follows, Prod.mk.injEq] at two
    obtain ⟨rfl, rfl, rfl⟩ := two
    exact ⟨part, by simpa using one, rfl⟩
  · rintro ⟨part, one, rfl⟩
    exact ⟨exchanges, [], (.ok value, part), by simp, one, by simp⟩

/-- The session makes the given exchanges, and fails with the given error and state. -/
def Fails (session : Session σ α) (state : σ) (exchanges : List Exchange) (error : Error)
    (final : σ) : Prop :=
  (session state).Follows exchanges (.error error, final)

section

variable {session : Session σ α} {next : α → Session σ β} {error : Error} {first rest : List Exchange}
  {value : α} {middle : σ}

theorem fails_throw (error : Error) (state : σ) :
    (throw error : Session σ α).Fails state [] error state :=
  .refl

theorem fails_allowed {outcome : Except Violation α} {breach : Violation}
    (refuses : outcome = .error breach) (state : σ) :
    (allowed outcome : Session σ α).Fails state [] (.violation breach) state := by
  subst refuses
  exact .refl

/-- A session fails if its first part does. -/
theorem Fails.bind (fails : session.Fails state exchanges error final) :
    (session >>= next).Fails state exchanges error final := by
  rw [Fails, bind_apply, ← List.append_nil exchanges]
  exact (Process.Reaches.bind fails _).trans .refl

/-- A session fails if its first part succeeds and the rest of it fails. -/
theorem Succeeds.fails (one : session.Succeeds state first value middle)
    (two : (next value).Fails middle rest error final) :
    (session >>= next).Fails state (first ++ rest) error final := by
  rw [Fails, bind_apply]
  exact (Process.Reaches.bind one _).trans two

/-- A message that cannot be decoded makes the session fail. -/
theorem fails_receive {phase : Phase} {format : Format α} {message : Bytes} {fault : DecodeError}
    (decoded : format.decode message = .error fault) (state : σ) :
    (receive phase format : Session σ α).Fails state [.into message]
      (.message ⟨phase, .malformed fault⟩) state := by
  refine (succeeds_receiveBytes phase message state).fails ?_
  rw [decoded]
  exact fails_throw _ _

/-- A session on a part of the state fails as it does on its own. -/
theorem Fails.zoom {view : σ → τ} {update : τ → σ → σ} {part : Session τ α} {partAfter : τ}
    (fails : part.Fails (view state) exchanges error partAfter) :
    (Session.zoom view update part).Fails state exchanges error (update partAfter state) := by
  rw [Fails, ← List.append_nil exchanges]
  exact (Process.Reaches.bind fails _).trans .refl

/-- The process of a session that fails without an exchange. -/
theorem Fails.eq_done (fails : session.Fails state [] error final) :
    session state = .done (.error error, final) :=
  Process.Reaches.eq_of_nil fails

end

/-- The session exchanges nothing when it succeeds. -/
def Silent (session : Session σ α) : Prop :=
  ∀ ⦃state final : σ⦄ ⦃exchanges : List Exchange⦄ ⦃value : α⦄,
    session.Succeeds state exchanges value final → exchanges = []

theorem silent_pure (value : α) : (pure value : Session σ α).Silent :=
  fun _ _ _ _ succeeds => (pure_succeeds.mp succeeds).1

theorem silent_throw (error : Error) : (throw error : Session σ α).Silent :=
  fun _ _ _ _ succeeds => (throw_succeeds.mp succeeds).elim

theorem silent_modifyGet (change : σ → α × σ) : (modifyGet change : Session σ α).Silent :=
  fun _ _ _ _ succeeds => (modifyGet_succeeds.mp succeeds).1

theorem Silent.bind {session : Session σ α} {next : α → Session σ β} (first : session.Silent)
    (rest : ∀ value, (next value).Silent) : (session >>= next).Silent := by
  intro state final exchanges value succeeds
  obtain ⟨_, _, _, _, rfl, one, two⟩ := bind_succeeds.mp succeeds
  rw [first one, rest _ two, List.append_nil]

end Session

end Garbling
