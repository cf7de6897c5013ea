import Mathlib
import Garbling.Proofs.Cells
import Garbling.Proofs.Slice

/-!
# Related machines

Two machines are related if they are at the same place of a program, hold related wires in the
same registers and cells, and agree on everything that both parties know. Values that are not
open yet may be known to one of them only, and the states of the backends are related in a way
of their own.
-/

namespace Garbling

variable {α β γ : Type}

/-- Two arrays hold related things in the same places, and nothing elsewhere. -/
structure CellsRelated (wire : α → β → Prop) (first : Array (Option α))
    (second : Array (Option β)) : Prop where
  size : first.size = second.size
  held : ∀ index : Nat, Option.Rel wire first[index]?.join second[index]?.join

namespace CellsRelated

variable {wire : α → β → Prop} {first : Array (Option α)} {second : Array (Option β)}

theorem replicate (count : Nat) :
    CellsRelated wire (.replicate count none) (.replicate count none) := by
  refine ⟨by simp, fun index => ?_⟩
  simp only [Array.getElem?_replicate]
  split <;> exact .none

theorem set (related : CellsRelated wire first second) (index : Nat) {left : α} {right : β}
    (same : wire left right) :
    CellsRelated wire (first.setIfInBounds index (some left))
      (second.setIfInBounds index (some right)) := by
  refine ⟨by simp [related.size], fun other => ?_⟩
  simp only [Array.getElem?_setIfInBounds, related.size]
  by_cases place : index = other
  · simp only [place, if_true]
    split
    · exact .some same
    · exact .none
  · simp only [place, if_false]
    exact related.held other

/-- What the first array holds has a counterpart in the second one. -/
theorem held_of_first (related : CellsRelated wire first second) {index : Nat} {left : α}
    (holds : first[index]?.join = some left) :
    ∃ right, second[index]?.join = some right ∧ wire left right := by
  have both := related.held index
  rw [holds] at both
  generalize second[index]?.join = other at both
  cases both with
  | some same => exact ⟨_, rfl, same⟩

variable {third : Array (Option γ)} {left : α → γ → Prop} {right : γ → β → Prop}

theorem trans (one : CellsRelated left first third) (two : CellsRelated right third second)
    (composed : ∀ a c b, left a c → right c b → wire a b) : CellsRelated wire first second := by
  refine ⟨one.size.trans two.size, fun index => ?_⟩
  have firstHeld := one.held index
  have secondHeld := two.held index
  generalize first[index]?.join = a at firstHeld ⊢
  generalize third[index]?.join = c at firstHeld secondHeld
  generalize second[index]?.join = b at secondHeld ⊢
  cases firstHeld with
  | none =>
      cases secondHeld with
      | none => exact .none
  | some one =>
      cases secondHeld with
      | some two => exact .some (composed _ _ _ one two)

/-- If related things have something between them, so have related arrays. -/
theorem split (related : CellsRelated wire first second)
    (between : ∀ a b, wire a b → ∃ c, left a c ∧ right c b) :
    ∃ third : Array (Option γ), CellsRelated left first third ∧ CellsRelated right third second := by
  have cell (index : Nat) : ∃ c : Option γ, Option.Rel left first[index]?.join c ∧
      Option.Rel right c second[index]?.join := by
    have held := related.held index
    generalize first[index]?.join = a at held ⊢
    generalize second[index]?.join = b at held ⊢
    cases held with
    | none => exact ⟨none, .none, .none⟩
    | some same =>
        obtain ⟨c, one, two⟩ := between _ _ same
        exact ⟨some c, .some one, .some two⟩
  choose middle one two using cell
  have found (index : Nat) :
      (Array.ofFn fun place : Fin first.size => middle place)[index]?.join = middle index := by
    rw [Array.getElem?_ofFn]
    split
    · rfl
    · next beyond =>
        have nothing := one index
        rw [Array.getElem?_eq_none (by omega)] at nothing
        cases held : middle index with
        | none => rfl
        | some c =>
            rw [held] at nothing
            cases nothing
  refine ⟨Array.ofFn fun place : Fin first.size => middle place, ⟨by simp, fun index => ?_⟩,
    ⟨by simp [related.size], fun index => ?_⟩⟩
  · rw [found]
    exact one index
  · rw [found]
    exact two index

end CellsRelated

namespace RevealLog

/-- Two logs are as long as each other, open to the same place, and agree on the open values. -/
structure Related (entry : Option UInt64 → Option UInt64 → Prop) (first second : RevealLog) :
    Prop where
  size : first.values.size = second.values.size
  opened : first.opened = second.opened
  bounded : first.opened ≤ first.values.size
  agree : ∀ index : Nat, index < first.opened → first.values[index]? = second.values[index]?
  pending : ∀ (index : Nat) (left right : Option UInt64), first.opened ≤ index →
    first.values[index]? = some left → second.values[index]? = some right → entry left right

namespace Related

variable {entry : Option UInt64 → Option UInt64 → Prop} {first second : RevealLog}

theorem empty : Related entry {} {} where
  size := rfl
  opened := rfl
  bounded := Nat.zero_le _
  agree _ below := by cases below
  pending index left right _ found _ := by simp at found

theorem push (related : Related entry first second) {left right : Option UInt64}
    (known : entry left right) : Related entry (first.push left) (second.push right) where
  size := by simp [RevealLog.push, related.size]
  opened := related.opened
  bounded := by
    have bounded := related.bounded
    simp only [RevealLog.push, Array.size_push]
    omega
  agree index below := by
    have bounded := related.bounded
    have open_ : index < first.opened := below
    have place : index ≠ first.values.size := by omega
    simp only [RevealLog.push, Array.getElem?_push, ← related.size, if_neg place]
    exact related.agree index below
  pending index firstEntry secondEntry beyond firstFound secondFound := by
    simp only [RevealLog.push, Array.getElem?_push, ← related.size] at firstFound secondFound
    by_cases place : index = first.values.size
    · rw [if_pos place] at firstFound secondFound
      cases firstFound
      cases secondFound
      exact known
    · rw [if_neg place] at firstFound secondFound
      exact related.pending index firstEntry secondEntry beyond firstFound secondFound

theorem trans {third : RevealLog} {left right : Option UInt64 → Option UInt64 → Prop}
    (one : Related left first third) (two : Related right third second)
    (composed : ∀ a c b, left a c → right c b → entry a b) : Related entry first second where
  size := one.size.trans two.size
  opened := one.opened.trans two.opened
  bounded := one.bounded
  agree index below := (one.agree index below).trans (two.agree index (one.opened ▸ below))
  pending index a b beyond firstFound secondFound := by
    have below : index < first.values.size := (Array.getElem?_eq_some_iff.mp firstFound).1
    have inside : index < third.values.size := one.size ▸ below
    have found : third.values[index]? = some third.values[index] :=
      Array.getElem?_eq_getElem inside
    exact composed _ _ _ (one.pending index _ _ beyond firstFound found)
      (two.pending index _ _ (one.opened ▸ beyond) found secondFound)

theorem refl {log : RevealLog} (bounded : log.opened ≤ log.values.size)
    (known : ∀ (index : Nat) (found : Option UInt64), log.opened ≤ index →
      log.values[index]? = some found → entry found found) : Related entry log log where
  size := rfl
  opened := rfl
  bounded := bounded
  agree _ _ := rfl
  pending index left right beyond firstFound secondFound := by
    rw [firstFound] at secondFound
    cases secondFound
    exact known index left beyond firstFound

theorem mono {other : Option UInt64 → Option UInt64 → Prop} (related : Related entry first second)
    (weaker : ∀ left right, entry left right → other left right) : Related other first second :=
  { related with
    pending := fun index left right beyond firstFound secondFound =>
      weaker _ _ (related.pending index left right beyond firstFound secondFound) }

end Related

end RevealLog

namespace Processor

/-- Two processors are at the same place and hold related wires in the same registers. -/
structure Related (wire : α → β → Prop) (entry : Option UInt64 → Option UInt64 → Prop)
    (first : Processor α) (second : Processor β) : Prop where
  counter : first.counter = second.counter
  secrets : CellsRelated wire first.secrets second.secrets
  clears : first.clears = second.clears
  log : RevealLog.Related entry first.log second.log
  taint : first.taint = second.taint

namespace Related

variable {wire : α → β → Prop} {entry : Option UInt64 → Option UInt64 → Prop}
  {first : Processor α} {second : Processor β}

theorem start (program : Program) : Related wire entry program.processor program.processor where
  counter := rfl
  secrets := .replicate _
  clears := rfl
  log := .empty
  taint := rfl

theorem advance (related : Related wire entry first second) :
    Related wire entry first.advance second.advance :=
  { related with counter := congrArg (· + 1) related.counter }

theorem rewind (related : Related wire entry first second) :
    Related wire entry first.rewind second.rewind :=
  { related with counter := congrArg (· - 1) related.counter }

theorem jump (related : Related wire entry first second) (target : Nat) :
    Related wire entry { first with counter := target } { second with counter := target } :=
  { related with counter := rfl }

theorem flag (related : Related wire entry first second) (taint : Taint) :
    Related wire entry { first with taint } { second with taint } :=
  { related with taint := rfl }

theorem write (related : Related wire entry first second) (register : Register) {left : α}
    {right : β} (same : wire left right) :
    Related wire entry (first.write register left) (second.write register right) :=
  { related with secrets := related.secrets.set register.toNat same }

theorem writeClear (related : Related wire entry first second) (register : Register)
    (clear : Clear) :
    Related wire entry (first.writeClear register clear) (second.writeClear register clear) where
  counter := related.counter
  secrets := related.secrets
  clears := by simp only [Processor.writeClear, related.clears]
  log := related.log
  taint := related.taint

theorem reveal (related : Related wire entry first second) (register : Register)
    {left right : Option UInt64} (known : entry left right) :
    Related wire entry (first.reveal register left) (second.reveal register right) where
  counter := related.counter
  secrets := related.secrets
  clears := by
    simp only [Processor.reveal, Processor.writeClear, related.clears, related.log.size]
  log := related.log.push known
  taint := related.taint

theorem trans {third : Processor γ} {left : α → γ → Prop} {right : γ → β → Prop}
    {known open_ : Option UInt64 → Option UInt64 → Prop} (one : Related left known first third)
    (two : Related right open_ third second)
    (wires : ∀ a c b, left a c → right c b → wire a b)
    (entries : ∀ a c b, known a c → open_ c b → entry a b) : Related wire entry first second where
  counter := one.counter.trans two.counter
  secrets := one.secrets.trans two.secrets wires
  clears := one.clears.trans two.clears
  log := one.log.trans two.log entries
  taint := one.taint.trans two.taint

/-- A wire that the first processor reads has a counterpart in the second one. -/
theorem read (related : Related wire entry first second) {register : Register} {left : α}
    (success : first.read register = .ok left) :
    ∃ right, second.read register = .ok right ∧ wire left right := by
  unfold Processor.read at success
  split at success
  · next holds =>
      cases success
      obtain ⟨right, found, same⟩ := related.secrets.held_of_first holds
      exact ⟨right, by rw [Processor.read, found], same⟩
  · cases success

/-- Wires that the first processor reads have counterparts in the second one. -/
theorem readAll (related : Related wire entry first second) {registers : List Register}
    {left : List α} (success : first.readAll registers = .ok left) :
    ∃ right, second.readAll registers = .ok right ∧ List.Forall₂ wire left right := by
  induction registers generalizing left with
  | nil =>
      cases success
      exact ⟨[], rfl, .nil⟩
  | cons register rest inductionHypothesis =>
      obtain ⟨head, tail, one, others, rfl⟩ := readAll_cons_ok.mp success
      obtain ⟨value, found, same⟩ := related.read one
      obtain ⟨values, foundAll, sameAll⟩ := inductionHypothesis others
      exact ⟨value :: values, readAll_cons_ok.mpr ⟨value, values, found, foundAll, rfl⟩,
        .cons same sameAll⟩

/-- Related processors find the same in a clear register, and stay related. -/
theorem readClear (related : Related wire entry first second) {register : Register}
    {found : Option UInt64} {firstAfter : Processor α}
    (success : first.readClear register = .ok (found, firstAfter)) :
    ∃ secondAfter, second.readClear register = .ok (found, secondAfter) ∧
      Related wire entry firstAfter secondAfter := by
  unfold Processor.readClear at success ⊢
  rw [← related.clears]
  split at success
  · cases success
  · cases success
    exact ⟨second, rfl, related⟩
  · next index held =>
      rw [← related.log.opened]
      split at success
      · next below =>
          cases success
          exact ⟨second, by rw [if_pos below, related.log.agree index below], related⟩
      · next pending =>
          cases success
          refine ⟨{ second with taint := ⟨true⟩ }, ?_, related.flag ⟨true⟩⟩
          rw [if_neg pending, related.clears]
          rfl

end Related

end Processor

namespace Memory

variable {wire : α → β → Prop} {first : Memory α} {second : Memory β}

theorem address_congr (related : CellsRelated wire first.cells second.cells)
    (base offset : UInt64) : first.address base offset = second.address base offset := by
  simp only [Memory.address, related.size]

/-- What can be stored in the first memory can be stored in the second one. -/
theorem store_related (related : CellsRelated wire first.cells second.cells)
    {base offset : UInt64} {left : α} {right : β} {firstAfter : Memory α} (same : wire left right)
    (success : first.store base offset left = .ok firstAfter) :
    ∃ secondAfter, second.store base offset right = .ok secondAfter ∧
      CellsRelated wire firstAfter.cells secondAfter.cells := by
  obtain ⟨within, rfl⟩ := store_eq_ok_iff.mp success
  exact ⟨_, store_eq_ok_iff.mpr ⟨related.size ▸ within, rfl⟩, related.set _ same⟩

/-- What can be loaded from the first memory has a counterpart in the second one. -/
theorem load_related (related : CellsRelated wire first.cells second.cells)
    {base offset : UInt64} {left : α} (success : first.load base offset = .ok left) :
    ∃ right, second.load base offset = .ok right ∧ wire left right := by
  obtain ⟨right, found, same⟩ := related.held_of_first (load_eq_ok_iff.mp success)
  exact ⟨right, load_eq_ok_iff.mpr found, same⟩

end Memory

namespace Machine

variable {σ τ : Type}

/-- Two machines are related if their parts are. -/
structure Related (wire : α → β → Prop) (entry : Option UInt64 → Option UInt64 → Prop)
    (state : σ → τ → Prop) (first : Machine α σ) (second : Machine β τ) : Prop where
  processor : Processor.Related wire entry first.processor second.processor
  memory : CellsRelated wire first.memory.cells second.memory.cells
  backend : state first.backend second.backend

variable {wire : α → β → Prop} {entry : Option UInt64 → Option UInt64 → Prop}
  {state : σ → τ → Prop}

/-- Machines at the start of the same program are related. -/
theorem Related.start (program : Program) {first : σ} {second : τ} (same : state first second) :
    Related wire entry state (.start program first) (.start program second) :=
  ⟨.start program, .replicate _, same⟩

end Machine

end Garbling
