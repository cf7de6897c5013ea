import Mathlib
import Garbling.Proofs.Related
import Garbling.Proofs.Restart

/-!
# Opening what was revealed

The evaluator opens all values that it knows, and the garbler fills them in. Afterwards both
have the same log, all of it open, so the parties stay related.
-/

namespace Garbling

namespace RevealLog

variable {entry other : Option UInt64 → Option UInt64 → Prop} {first second log : RevealLog}

/-- All values of the log are open. -/
def opening (log : RevealLog) : RevealLog := { log with opened := log.values.size }

/-- The open values of a log of which all values are open. -/
theorem revealed_opening : log.opening.revealed = log.values.toList.filterMap id := by
  rw [revealed, opening, ← Array.length_toList, List.take_length]

/-- A log of which all values are open is related to itself. -/
theorem Related.opening (log : RevealLog) : Related entry log.opening log.opening := by
  apply Related.refl (Nat.le_refl _)
  intro index found beyond held
  have inside := (Array.getElem?_eq_some_iff.mp held).1
  exact absurd inside (Nat.not_lt.mpr beyond)

theorem Related.symm (related : Related entry first second) :
    Related (fun left right => entry right left) second first where
  size := related.size.symm
  opened := related.opened.symm
  bounded := by
    rw [← related.opened, ← related.size]
    exact related.bounded
  agree index below := (related.agree index (related.opened ▸ below)).symm
  pending index left right beyond firstFound secondFound :=
    related.pending index right left (related.opened ▸ beyond) secondFound firstFound

/-- Logs with the same entries are the same. -/
theorem Related.eq (related : Related Eq first second) : first = second := by
  have values : first.values = second.values := by
    apply Array.ext_getElem?
    intro index
    by_cases below : index < first.opened
    · exact related.agree index below
    · by_cases inside : index < first.values.size
      · have other : index < second.values.size := related.size ▸ inside
        rw [Array.getElem?_eq_getElem inside, Array.getElem?_eq_getElem other]
        exact congrArg some (related.pending index _ _ (Nat.le_of_not_lt below)
          (Array.getElem?_eq_getElem inside) (Array.getElem?_eq_getElem other))
      · have other : ¬index < second.values.size := related.size ▸ inside
        rw [Array.getElem?_eq_none (Nat.le_of_not_lt inside),
          Array.getElem?_eq_none (Nat.le_of_not_lt other)]
  have opened := related.opened
  cases first
  cases second
  cases values
  cases opened
  rfl

private theorem map_some_filterMap {values : List (Option UInt64)}
    (known : ∀ value ∈ values, value.isSome) : (values.filterMap id).map some = values := by
  induction values with
  | nil => rfl
  | cons value rest inductionHypothesis =>
      obtain ⟨word, rfl⟩ := Option.isSome_iff_exists.mp (known value (.head _))
      have others := inductionHypothesis fun other member => known other (.tail _ member)
      have head : (some word :: rest).filterMap id = word :: rest.filterMap id := rfl
      rw [head, List.map_cons, others]

/-- All values that are not open yet are known. -/
def Known (log : RevealLog) : Prop :=
  ∀ (index : Nat) (value : Option UInt64), log.opened ≤ index → log.values[index]? = some value →
    value.isSome

/-- A party that fills in what the other one opens comes to the same log. -/
theorem Related.applyOpenings (related : Related entry first second) (known : first.Known) :
    second.applyOpenings first.takeOpenings.1 = .ok first.opening := by
  have all : (first.takeOpenings.1).map some = first.values.toList.drop first.opened := by
    apply map_some_filterMap
    intro value member
    obtain ⟨index, held⟩ := List.mem_iff_getElem?.mp member
    rw [List.getElem?_drop, Array.getElem?_toList] at held
    exact known _ value (Nat.le_add_right _ _) held
  have count : first.takeOpenings.1.length = second.pending := by
    have length := congrArg List.length all
    rw [List.length_map, List.length_drop, Array.length_toList] at length
    rw [length, RevealLog.pending, related.size, related.opened]
  have before : second.values.toList.take second.opened =
      first.values.toList.take first.opened := by
    apply List.ext_getElem?
    intro index
    rw [List.getElem?_take, List.getElem?_take, ← related.opened]
    by_cases below : index < first.opened
    · rw [if_pos below, if_pos below, Array.getElem?_toList, Array.getElem?_toList,
        related.agree index below]
    · rw [if_neg below, if_neg below]
  have values : second.values.take second.opened ++ (first.takeOpenings.1.map some).toArray =
      first.values := by
    apply Array.toList_inj.mp
    rw [all, Array.toList_append, Array.take_eq_extract, Array.toList_extract]
    simp [before]
  rw [RevealLog.applyOpenings, if_pos count, values, RevealLog.opening, related.size]

end RevealLog

namespace Processor

variable {α β : Type} {wire : α → β → Prop} {other : Option UInt64 → Option UInt64 → Prop}
  {first : Processor α} {second : Processor β}

/-- A sound processor knows all values. -/
theorem Sound.log_known {processor : Processor α} (sound : processor.Sound) :
    processor.log.Known :=
  fun index value _ => sound.known index value

/-- Processors with the same entries stay related when both open their values. -/
theorem Related.opened (related : Related wire Eq first second) :
    Related wire other first.opened second.opened where
  counter := related.counter
  secrets := related.secrets
  clears := related.clears
  log := by
    have same := related.log.eq
    simp only [Processor.opened, same]
    exact .opening second.log
  taint := related.taint

end Processor

end Garbling
