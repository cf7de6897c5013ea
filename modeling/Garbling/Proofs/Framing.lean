import Mathlib
import Garbling.Network.Chunks
import Garbling.Proofs.Digits
import Garbling.Proofs.Together

/-!
# Short messages travel in one piece

A message that fits into a chunk is a single chunk, and its receiver has the whole message as soon
as this chunk comes in. So two parties all of whose messages are short go through the same exchanges
with their messages in chunks as without, only that the chunk stands for the message.
-/

namespace Garbling

namespace Chunk

variable {message : Bytes}

/-- The bytes of a message that is a single chunk. -/
def whole (message : Bytes) : Bytes := encode ⟨0, 1, message⟩

/-- Reading a chunk gives back what was written. -/
theorem decode?_encode (chunk : Chunk) : decode? chunk.encode = some chunk := by
  obtain ⟨index, count, payload⟩ := chunk
  have number (value : UInt32) :
      UInt32.ofNat (Bytes.toNat (Bytes.ofNat 4 value.toNat)) = value := by
    have small : value.toNat < 256 ^ 4 := value.toNat_lt
    rw [Bytes.toNat_ofNat, Nat.mod_eq_of_lt small, UInt32.ofNat_toNat]
  have long : ¬(encode ⟨index, count, payload⟩).length < 8 := by
    simp only [encode, List.length_append, Bytes.length_ofNat]
    omega
  have first : (encode ⟨index, count, payload⟩).take 4 = Bytes.ofNat 4 index.toNat := by
    rw [encode, List.append_assoc]
    exact List.take_left' (Bytes.length_ofNat 4 _)
  have others : (encode ⟨index, count, payload⟩).drop 4 = Bytes.ofNat 4 count.toNat ++ payload := by
    rw [encode, List.append_assoc]
    exact List.drop_left' (Bytes.length_ofNat 4 _)
  have second : (Bytes.ofNat 4 count.toNat ++ payload).take 4 = Bytes.ofNat 4 count.toNat :=
    List.take_left' (Bytes.length_ofNat 4 _)
  have last : (encode ⟨index, count, payload⟩).drop 8 = payload :=
    List.drop_left' (by rw [List.length_append, Bytes.length_ofNat, Bytes.length_ofNat])
  rw [decode?, if_neg long, first, others, second, last, number, number]

/-- A message in one piece is finished once its chunk has come in. -/
theorem absorb_whole (message : Bytes) : absorb [] (whole message) = .finished message := by
  rw [absorb, whole, decode?_encode]
  rfl

/-- A message in one piece is taken from the front of a queue as it is. -/
theorem assemble_whole (message : Bytes) (rest : List Bytes) :
    assemble [] (whole message :: rest) = (some (.ok message), rest) := by
  simp only [assemble, absorb_whole]

/-- A short message is a single chunk. -/
theorem ofMessage_of_short (short : message.length ≤ chunkSize) :
    ofMessage message = [⟨0, 1, message⟩] := by
  cases message with
  | nil => rfl
  | cons byte rest =>
      have one : ((byte :: rest).length + (chunkSize - 1)) / chunkSize = 1 := by
        rw [List.length_cons] at short ⊢
        unfold chunkSize at short ⊢
        omega
      have payload : ((byte :: rest).drop (0 * chunkSize)).take chunkSize = byte :: rest := by
        rw [Nat.zero_mul, List.drop_zero, List.take_of_length_le short]
      simp only [ofMessage, one, List.range_one, List.map_singleton, payload]
      rfl

/-- Every message has a chunk. -/
theorem ofMessage_ne_nil (message : Bytes) : ofMessage message ≠ [] := by
  cases message with
  | nil => exact List.cons_ne_nil _ _
  | cons byte rest =>
      have some : ((byte :: rest).length + (chunkSize - 1)) / chunkSize ≠ 0 := by
        rw [List.length_cons]
        unfold chunkSize
        omega
      simpa only [ofMessage, ne_eq, List.map_eq_nil_iff, List.range_eq_nil] using some

end Chunk

/-! ## Exchanges in chunks -/

namespace Exchange

/-- Whether the message, if there is one, fits into a chunk. -/
def Short : Exchange → Prop
  | .sent message _ => message.length ≤ chunkSize
  | .received (.ok message) => message.length ≤ chunkSize
  | .received (.error _) => True

/-- The exchange with another message in the place of its own. -/
def mapMessage (change : Bytes → Bytes) : Exchange → Exchange
  | .sent message outcome => .sent (change message) outcome
  | .received outcome => .received (outcome.map change)

end Exchange

namespace Process

variable {σ α : Type} {message : Bytes}

theorem sendInChunks_of_short (short : message.length ≤ chunkSize) :
    sendInChunks message = .send (Chunk.whole message) .done := by
  rw [sendInChunks, Chunk.ofMessage_of_short short]
  refine congrArg (Process.send _) (funext fun outcome => ?_)
  cases outcome <;> rfl

/-- With its messages in chunks a process makes its exchanges, as long as these are short. -/
theorem Reaches.inChunks {process goal : Process (Next σ α)} {exchanges : List Exchange}
    (reaches : process.Reaches exchanges goal) (short : ∀ exchange ∈ exchanges, exchange.Short) :
    process.inChunks.Reaches (exchanges.map (Exchange.mapMessage Chunk.whole)) goal.inChunks := by
  induction reaches with
  | refl => exact .refl
  | send reaches inductionHypothesis =>
      have later := inductionHypothesis fun exchange later => short exchange (.tail _ later)
      rw [Process.inChunks, sendInChunks_of_short (short _ (.head _))]
      exact .send later
  | @receive next outcome rest goal reaches inductionHypothesis =>
      have later := inductionHypothesis fun exchange later => short exchange (.tail _ later)
      refine .receive ?_
      cases outcome with
      | error failure => exact later
      | ok message =>
          simp only [Except.map, Chunk.absorb_whole]
          exact later

end Process

/-! ## Dialogues in chunks -/

namespace Event

variable {state : Type}

/-- The event with another message in the place of its own. -/
def mapMessage (change : Bytes → Bytes) : Event state → Event state
  | .exchanged exchange => .exchanged (exchange.mapMessage change)
  | event => event

theorem Silent.mapMessage {event : Event state} (silent : event.Silent) (change : Bytes → Bytes) :
    (event.mapMessage change).Silent := by
  cases event with
  | exchanged exchange => exact silent
  | began state => trivial
  | ended => trivial

theorem sent?_mapMessage (change : Bytes → Bytes) (event : Event state) :
    (event.mapMessage change).sent? = event.sent?.map change := by
  rcases event with ⟨_ | _⟩ | _ | _
  case exchanged.sent message outcome => cases outcome <;> rfl
  all_goals rfl

end Event

variable {σ τ : Type}

/-- What fits together still does if every message is exchanged for another one. -/
theorem Fits.mapMessage {u v : List Bytes} {garbler : List (Event σ)} {evaluator : List (Event τ)}
    (fits : Fits u v garbler evaluator) (change : Bytes → Bytes) :
    Fits (u.map change) (v.map change) (garbler.map (Event.mapMessage change))
      (evaluator.map (Event.mapMessage change)) := by
  induction fits with
  | nil => exact .nil
  | garblerSilent silent _ inductionHypothesis =>
      exact .garblerSilent (silent.mapMessage change) inductionHypothesis
  | evaluatorSilent silent _ inductionHypothesis =>
      exact .evaluatorSilent (silent.mapMessage change) inductionHypothesis
  | garblerSends room _ inductionHypothesis =>
      rw [List.map_append] at inductionHypothesis
      exact .garblerSends ((List.length_map change).symm ▸ room) inductionHypothesis
  | evaluatorReceives _ inductionHypothesis => exact .evaluatorReceives inductionHypothesis
  | evaluatorSends room _ inductionHypothesis =>
      rw [List.map_append] at inductionHypothesis
      exact .evaluatorSends ((List.length_map change).symm ▸ room) inductionHypothesis
  | garblerReceives _ inductionHypothesis => exact .garblerReceives inductionHypothesis

/-- Every message of a dialogue can be exchanged for another one. -/
theorem Dialogue.mapMessage {messages : List Bytes} {garbler evaluator : List Exchange}
    (dialogue : Dialogue messages garbler evaluator) (change : Bytes → Bytes) :
    Dialogue (messages.map change) (garbler.map (Exchange.mapMessage change))
      (evaluator.map (Exchange.mapMessage change)) := by
  have events {state : Type} (exchanges : List Exchange) :
      ((exchanges.map (Exchange.mapMessage change)).map .exchanged : List (Event state)) =
        (exchanges.map .exchanged).map (Event.mapMessage change) := by
    rw [List.map_map, List.map_map]
    rfl
  refine ⟨?_, ?_⟩
  · intro σ τ
    rw [events, events]
    exact dialogue.fits.mapMessage change
  · intro σ
    have sent : (garbler.map Event.exchanged : List (Event σ)).filterMap Event.sent? = messages :=
      dialogue.sent
    rw [events, Event.sent, List.filterMap_map, ← sent, List.map_filterMap]
    exact congrArg (List.filterMap · _) (funext (Event.sent?_mapMessage change))

namespace Parties

variable {α β : Type} {garbler : Process α} {evaluator : Process β}
  {exchanges answers : List Exchange} {messages : List Bytes} {first : α} {second : β}

/-- Two parties that carry out a process each with their messages in chunks, and close their ends
then or leave them open. -/
def onceInChunks (garbler : Process α) (evaluator : Process β) (closing : Bool) :
    Parties (Assembling Unit α) α (Assembling Unit β) β :=
  Parties.inChunks { once garbler evaluator with closing }

/-- Two processes that come to their results together also do so with their messages in chunks, if
all their messages are short. -/
theorem onceInChunks_joint (garblerFollows : garbler.Follows exchanges first)
    (evaluatorFollows : evaluator.Follows answers second)
    (dialogue : Dialogue messages exchanges answers)
    (garblerShort : ∀ exchange ∈ exchanges, exchange.Short)
    (evaluatorShort : ∀ exchange ∈ answers, exchange.Short) (closing : Bool) :
    let parties := onceInChunks garbler evaluator closing
    parties.Joint (.running (parties.garbler (.round ()))) (.running (parties.evaluator (.round ())))
      (messages.map Chunk.whole) [] (.ended first) (.ended second) := by
  intro parties
  have garblerFinishes := garblerFollows.bind fun value => .done (.finish value : Next Unit α)
  have evaluatorFinishes := evaluatorFollows.bind fun value => .done (.finish value : Next Unit β)
  have together : Process.Together (parties.garbler (.round ())) (parties.evaluator (.round ()))
      (messages.map Chunk.whole) (.done (.finish first)) (.done (.finish second)) :=
    ⟨_, _, garblerFinishes.inChunks garblerShort, evaluatorFinishes.inChunks evaluatorShort,
      dialogue.mapMessage Chunk.whole⟩
  have ends : parties.Joint (.running (.done (.finish first))) (.running (.done (.finish second)))
      [] [] (.ended first) (.ended second) :=
    (Joint.garbler_ends first).trans (Joint.evaluator_ends second)
  rw [← List.append_nil (messages.map Chunk.whole)]
  exact (Joint.of_together together).trans ends

/-- If two processes come to their results together and all their messages are short, then every
run of them with their messages in chunks comes to these results. -/
theorem onceInChunks_leads (garblerFollows : garbler.Follows exchanges first)
    (evaluatorFollows : evaluator.Follows answers second)
    (dialogue : Dialogue messages exchanges answers)
    (garblerShort : ∀ exchange ∈ exchanges, exchange.Short)
    (evaluatorShort : ∀ exchange ∈ answers, exchange.Short) (closing : Bool) :
    let parties := onceInChunks garbler evaluator closing
    (Network.start parties (.round ()) (.round ()) {}).Leads parties (fun _ => True)
      fun network => network.garbler = .ended first ∧ network.evaluator = .ended second :=
  (onceInChunks_joint garblerFollows evaluatorFollows dialogue garblerShort evaluatorShort
    closing).leads

end Parties

end Garbling
