import Garbling.Network.Process

/-!
# Interception

Somebody in the middle of one direction writes down every message as it was sent, and may
change some of them on their way: drop, repeat, delay, add or overwrite.
-/

namespace Garbling

/-- What happens to a message. -/
inductive Tampering where
  | drop
  | duplicate
  /-- The message follows the next one, or gets lost if there is none. -/
  | hold
  /-- Another message comes first. -/
  | insert (message : Bytes)
  /-- Another message comes instead. -/
  | replace (message : Bytes)
  | append (bytes : Bytes)
  | truncate (length : Nat)
  /-- Bytes are overwritten from a position on; a negative one counts from the end. -/
  | patch (position : Int) (bytes : Bytes)
  /-- Bytes are combined by exclusive or from a position on. -/
  | flip (position : Int) (bytes : Bytes)
deriving DecidableEq

/-- One of the things that happen to the message with the given index. -/
structure Fault where
  index : Nat
  tampering : Tampering
deriving DecidableEq

/-- Combines bytes with those of a message from a position on. What would come to lie outside
of the message is ignored. -/
def Bytes.overlay (message : Bytes) (position : Int) (bytes : Bytes)
    (combine : UInt8 → UInt8 → UInt8) : Bytes :=
  let start := if position < 0 then position + message.length else position
  message.zipIdx.map fun (byte, index) =>
    let offset := (index : Int) - start
    if offset < 0 then byte
    else
      match bytes[offset.toNat]? with
      | some other => combine byte other
      | none => byte

/-- A message on its way. -/
structure Passage where
  message : Bytes
  /-- The messages that go ahead of it. -/
  ahead : List Bytes := []
  /-- How often it is sent. -/
  copies : Nat := 1
  /-- Whether it waits for the next message instead. -/
  isHeld : Bool := false

namespace Passage

/-- The passage after one more thing has happened to its message. -/
def tamper (passage : Passage) : Tampering → Passage
  | .drop => { passage with copies := 0 }
  | .duplicate => { passage with copies := 2 }
  | .hold => { passage with isHeld := true }
  | .insert other => { passage with ahead := passage.ahead ++ [other] }
  | .replace other => { passage with message := other }
  | .append bytes => { passage with message := passage.message ++ bytes }
  | .truncate length => { passage with message := passage.message.take length }
  | .patch position bytes =>
      { passage with message := passage.message.overlay position bytes fun _ other => other }
  | .flip position bytes =>
      { passage with message := passage.message.overlay position bytes (· ^^^ ·) }

/-- The messages that are sent now. -/
def sent (passage : Passage) : List Bytes :=
  passage.ahead ++ if passage.isHeld then [] else List.replicate passage.copies passage.message

/-- The message that is sent after the next one, if it waits. -/
def held (passage : Passage) : List Bytes :=
  if passage.isHeld then [passage.message] else []

end Passage

/-- The one who listens to a direction and changes its messages. -/
structure Interception where
  faults : List Fault := []
  /-- The messages so far, as they were sent. -/
  log : Array Bytes := #[]
  /-- The message that is held back. -/
  held : List Bytes := []

namespace Interception

/-- Sends some messages until one fails. -/
def sendAll : List Bytes → Process (Except SendFailure Unit)
  | [] => .done (.ok ())
  | message :: rest => .send message fun
      | .ok () => sendAll rest
      | .error failure => .done (.error failure)

/-- The passage of the next message: everything that happens to it, in the order of the faults. -/
def passage (interception : Interception) (message : Bytes) : Passage :=
  (interception.faults.filter (·.index == interception.log.size)).foldl
    (fun passage fault => passage.tamper fault.tampering) { message }

/-- Lets a message pass, after writing it down. -/
def pass (message : Bytes) : StateT Interception Process (Except SendFailure Unit) := do
  let state ← get
  let passage := state.passage message
  set { state with log := state.log.push message, held := passage.held }
  sendAll (passage.sent ++ state.held)

end Interception

end Garbling
