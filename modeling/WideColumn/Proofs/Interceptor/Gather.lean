import WideColumn.Interceptor.Basic
import WideColumn.Proofs.Outcome

/-!
Cascades that run at once. They succeed if all of them do, and then what they give is in the order of
registration, whenever each of them ends.
-/
namespace WideColumn

open Outcome

namespace Timed

variable {α : Type} {ts : List (Timed α)} {e : Error}

theorem firstFailure_eq_some {delay : Nat} (h : firstFailure ts = some (delay, e)) :
    ∃ t ∈ ts, t.outcome = .error e := by
  induction ts generalizing delay e with
  | nil => cases h
  | cons t ts ih =>
    have later {d : Nat} {e : Error} (h : firstFailure ts = some (d, e)) :
        ∃ t' ∈ t :: ts, t'.outcome = .error e := by
      obtain ⟨t', ht, he⟩ := ih h
      exact ⟨t', List.mem_cons_of_mem _ ht, he⟩
    rw [firstFailure] at h
    split at h
    · exact later h
    · rename_i e' delay' next ht hl
      split at h <;> cases h
      · exact later hl
      · exact ⟨t, List.mem_cons_self, ht⟩
    · rename_i ht _
      cases h
      exact ⟨t, List.mem_cons_self, ht⟩

theorem inOrder_eq_ok {rs : List α} :
    (inOrder ts).outcome = .ok rs ↔ ts.map outcome = rs.map .ok := by
  induction ts generalizing rs with
  | nil => cases rs <;> simp [inOrder]
  | cons t ts ih =>
    rw [inOrder]
    cases ht : t.outcome with
    | error e => cases rs <;> simp [ht]
    | ok a =>
      cases rs with
      | nil => cases (inOrder ts).outcome <;> simp [Except.map]
      | cons r rs =>
        rw [List.map_cons, List.map_cons, List.cons.injEq, ← ih, ht]
        cases (inOrder ts).outcome <;> simp [Except.map]

/-- All at once succeed just when each does, in the order in which they were started. -/
theorem all_eq_ok {rs : List α} : (all ts).outcome = .ok rs ↔ ts.map outcome = rs.map .ok := by
  rw [all, ← inOrder_eq_ok]
  split
  · rename_i delay e h
    split at h
    · obtain ⟨t, ht, he⟩ := firstFailure_eq_some h
      refine ⟨nofun, fun hr => ?_⟩
      have := List.mem_map_of_mem (f := outcome) ht
      rw [inOrder_eq_ok.mp hr, he] at this
      simp at this
    · cases h
  · exact Iff.rfl

end Timed

namespace Registry

variable {ρ : Type} {cascades : List (Timed (List (Member ρ)))}

/-- What the cascades give, in order of registration; a cascade that fails gives nothing. -/
def produced (cascades : List (Timed (List (Member ρ)))) : List (Member ρ) :=
  cascades.flatMap fun t => t.outcome.toOption.getD []

theorem produced_of_outcomes {rs : List (List (Member ρ))}
    (h : cascades.map Timed.outcome = rs.map .ok) : produced cascades = rs.flatten := by
  induction cascades generalizing rs with
  | nil => cases rs with
    | nil => rfl
    | cons r rs => cases h
  | cons t cascades ih =>
    cases rs with
    | nil => cases h
    | cons r rs =>
      obtain ⟨ht, h⟩ := List.cons.inj h
      rw [produced, List.flatMap_cons, ht, ← produced, ih h]
      rfl

theorem exists_outcomes (h : ∀ t ∈ cascades, ∃ kids, t.outcome = .ok kids) :
    ∃ rs : List (List (Member ρ)), cascades.map Timed.outcome = rs.map .ok := by
  induction cascades with
  | nil => exact ⟨[], rfl⟩
  | cons t cascades ih =>
    obtain ⟨⟨kids, hk⟩, hs⟩ := List.forall_mem_cons.mp h
    obtain ⟨rs, hr⟩ := ih hs
    exact ⟨kids :: rs, by rw [List.map_cons, List.map_cons, hk, hr]⟩

/-- Together the cascades succeed just when each of them does, and then the order in which they end
makes no difference to what they give. -/
theorem gather_eq_ok {ms : List (Member ρ)} : (gather cascades).outcome = .ok ms ↔
    (∀ t ∈ cascades, ∃ kids, t.outcome = .ok kids) ∧ ms = produced cascades := by
  rw [gather]
  constructor
  · intro h
    cases ha : (Timed.all cascades).outcome with
    | error e => simp [ha, Except.map] at h
    | ok rs =>
      simp only [ha, Except.map, Except.ok.injEq] at h
      have hr := Timed.all_eq_ok.mp ha
      refine ⟨fun t ht => ?_, by rw [produced_of_outcomes hr, h]⟩
      obtain ⟨kids, -, hk⟩ := List.mem_map.mp (hr ▸ List.mem_map_of_mem (f := Timed.outcome) ht)
      exact ⟨kids, hk.symm⟩
  · rintro ⟨h, rfl⟩
    obtain ⟨rs, hr⟩ := exists_outcomes h
    simp only [Timed.all_eq_ok.mpr hr, Except.map, produced_of_outcomes hr]

end Registry
end WideColumn
