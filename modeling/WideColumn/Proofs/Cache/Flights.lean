import Mathlib.Data.List.Nodup
import WideColumn.Cache.Traffic

/-!
Who loads at a place and who is in line there, and what the steps of traffic do to them. A step only
concerns its own place.
-/
namespace WideColumn

namespace Flight

def at? (flights : List Flight) (slot : Nat) : Option Flight := flights.find? (·.slot = slot)

/-- The caller whose load is under way. -/
def loader? (flights : List Flight) (slot : Nat) : Option Nat :=
  (at? flights slot).bind fun f => if f.running then some f.loader else none

/-- Those who are at a place and do not load. The first of them is to load next. -/
def queue (flights : List Flight) (slot : Nat) : List Nat :=
  match at? flights slot with
  | some f => if f.running then f.waiting else f.loader :: f.waiting
  | none => []

/-- A caller goes to the end of the line. -/
def join (flights : List Flight) (slot caller : Nat) : List Flight :=
  match at? flights slot with
  | some f => Traffic.replace flights { f with waiting := f.waiting ++ [caller] }
  | none => flights ++ [⟨slot, caller, false, []⟩]

/-- There is at most one flight at a place. -/
def Apart (flights : List Flight) : Prop := (flights.map Flight.slot).Nodup

variable {flights : List Flight} {f g : Flight} {slot s caller : Nat}

theorem at?_cons : at? (f :: flights) slot = if f.slot = slot then some f else at? flights slot := by
  by_cases h : f.slot = slot <;> simp [at?, h]

theorem slot_of_at? (h : at? flights slot = some f) : f.slot = slot := by
  simpa using List.find?_some h

theorem mem_of_at? (h : at? flights slot = some f) : f ∈ flights := List.mem_of_find?_eq_some h

theorem at?_eq_none : at? flights slot = none ↔ ∀ f ∈ flights, f.slot ≠ slot := by
  simp [at?]

theorem at?_of_mem (apart : Apart flights) (h : f ∈ flights) : at? flights f.slot = some f := by
  cases found : at? flights f.slot with
  | none => exact absurd rfl (at?_eq_none.mp found f h)
  | some g =>
    rw [List.inj_on_of_nodup_map apart (mem_of_at? found) h (slot_of_at? found)]

theorem at?_map {change : Flight → Flight} (kept : ∀ f, (change f).slot = f.slot) :
    at? (flights.map change) slot = (at? flights slot).map change := by
  induction flights with
  | nil => rfl
  | cons f flights ih =>
    rw [List.map_cons, at?_cons, at?_cons, kept, ih]
    split <;> rfl

theorem at?_replace : at? (Traffic.replace flights g) slot =
    if slot = g.slot then (at? flights slot).map fun _ => g else at? flights slot := by
  rw [Traffic.replace, at?_map fun f => by split <;> simp_all]
  cases found : at? flights slot with
  | none => simp
  | some f =>
    rw [Option.map_some, Option.map_some, slot_of_at? found]
    split <;> rfl

theorem at?_concat (new : at? flights g.slot = none) :
    at? (flights ++ [g]) slot = if slot = g.slot then some g else at? flights slot := by
  by_cases hs : slot = g.slot
  · subst hs
    rw [if_pos rfl, at?, List.find?_append, ← at?, new]
    simp
  · rw [if_neg hs, at?, List.find?_append]
    simp [at?, Ne.symm hs]

theorem at?_filter : at? (flights.filter (·.slot ≠ s)) slot =
    if slot = s then none else at? flights slot := by
  induction flights with
  | nil => simp [at?]
  | cons f flights ih =>
    by_cases hf : f.slot = s
    · rw [List.filter_cons_of_neg (by simp [hf]), ih, at?_cons]
      by_cases hs : slot = s <;> simp [hs, hf, eq_comm]
    · rw [List.filter_cons_of_pos (by simp [hf]), at?_cons, at?_cons, ih]
      grind

/-- One flight changes, or ends. -/
theorem at?_filterMap {change : Flight → Option Flight} (apart : Apart flights)
    (kept : ∀ f g, change f = some g → g.slot = f.slot) :
    at? (flights.filterMap fun f => if f.slot = s then change f else some f) slot =
      if slot = s then (at? flights s).bind change else at? flights slot := by
  induction flights with
  | nil => simp [at?]
  | cons f flights ih =>
    obtain ⟨new, apart⟩ := List.nodup_cons.mp apart
    have rest := ih apart
    by_cases hf : f.slot = s
    · subst hf
      -- the rest has no other flight at this place
      have none : at? flights f.slot = none := at?_eq_none.mpr fun g hg same =>
        new (same ▸ List.mem_map_of_mem hg)
      rw [none] at rest
      rw [List.filterMap_cons, if_pos rfl, at?_cons, at?_cons, if_pos rfl]
      cases hc : change f with
      | none =>
        simp only [Option.bind_some, hc, rest, Option.bind_none]
        grind
      | some g =>
        simp only [Option.bind_some, hc, at?_cons, rest, kept f g hc, Option.bind_none]
        grind
    · rw [List.filterMap_cons, if_neg hf]
      simp only [at?_cons, rest, if_neg hf]
      grind

theorem loader?_eq_some : loader? flights slot = some caller ↔
    ∃ f, at? flights slot = some f ∧ f.running = true ∧ f.loader = caller := by
  rw [loader?, Option.bind_eq_some_iff]
  refine exists_congr fun f => and_congr_right fun _ => ?_
  cases f.running <;> simp

/-- The flight of a place where it is somebody's turn. -/
theorem exists_of_turn {rest : List Nat} (idle : loader? flights slot = none)
    (line : queue flights slot = caller :: rest) :
    ∃ f, at? flights slot = some f ∧ f.running = false ∧ f.loader = caller ∧ f.waiting = rest := by
  rw [queue] at line
  split at line
  · rename_i f hf
    have still : f.running = false := by
      cases hr : f.running <;> simp [loader?, hf, hr] at idle ⊢
    rw [still] at line
    obtain ⟨loader, waiting⟩ := List.cons.inj line
    exact ⟨f, hf, still, loader, waiting⟩
  · cases line

section Join

theorem at?_join : at? (join flights slot caller) s =
    if s = slot then
      match at? flights slot with
      | some f => some { f with waiting := f.waiting ++ [caller] }
      | none => some ⟨slot, caller, false, []⟩
    else at? flights s := by
  rw [join]
  cases found : at? flights slot with
  | none => exact at?_concat found
  | some f =>
    obtain rfl := slot_of_at? found
    dsimp only
    rw [at?_replace]
    split
    · rename_i same
      rw [same, found, Option.map_some]
    · rfl

theorem queue_join : queue (join flights slot caller) s =
    queue flights s ++ if s = slot then [caller] else [] := by
  rw [queue, at?_join]
  by_cases hs : s = slot
  · subst hs
    rw [if_pos rfl, if_pos rfl, queue]
    cases at? flights s with
    | none => rfl
    | some f => cases hr : f.running <;> simp [hr]
  · rw [if_neg hs, if_neg hs, List.append_nil, queue]

theorem loader?_join : loader? (join flights slot caller) s = loader? flights s := by
  rw [loader?, at?_join, loader?]
  by_cases hs : s = slot
  · subst hs
    rw [if_pos rfl]
    cases at? flights s <;> rfl
  · rw [if_neg hs]

/-- No place has a flight that had none, but the one joined. -/
theorem of_mem_join (h : g ∈ join flights slot caller) :
    g.slot = slot ∨ ∃ f ∈ flights, f.slot = g.slot := by
  rw [join] at h
  split at h
  · rename_i f found
    obtain ⟨f', hf', rfl⟩ := List.mem_map.mp h
    split
    · exact .inl (show f.slot = slot from slot_of_at? found)
    · exact .inr ⟨f', hf', rfl⟩
  · obtain h | h := List.mem_append.mp h
    · exact .inr ⟨g, h, rfl⟩
    · exact .inl (List.mem_singleton.mp h ▸ rfl)

end Join

namespace Apart

theorem map {change : Flight → Flight} (h : Apart flights) (kept : ∀ f, (change f).slot = f.slot) :
    Apart (flights.map change) := by
  rw [Apart, List.map_map, show Flight.slot ∘ change = Flight.slot from funext kept]
  exact h

theorem filterMap {change : Flight → Option Flight} (h : Apart flights)
    (kept : ∀ f g, change f = some g → g.slot = f.slot) : Apart (flights.filterMap change) := by
  refine List.Nodup.sublist ?_ h
  induction flights with
  | nil => exact .slnil
  | cons f flights ih =>
    have rest := ih (List.nodup_cons.mp h).2
    cases hc : change f with
    | none =>
      rw [List.filterMap_cons_none hc]
      exact rest.cons _
    | some g =>
      rw [List.filterMap_cons_some hc, List.map_cons, List.map_cons, kept f g hc]
      exact rest.cons_cons _

theorem filter (h : Apart flights) (p : Flight → Bool) : Apart (flights.filter p) :=
  h.sublist (List.filter_sublist.map _)

theorem join (h : Apart flights) : Apart (join flights slot caller) := by
  rw [Flight.join]
  split
  · refine h.map fun g => ?_
    split
    · rename_i same
      exact same.symm
    · rfl
  · rename_i new
    rw [Apart, List.map_append]
    refine List.nodup_append.mpr ⟨h, List.nodup_singleton _, ?_⟩
    rintro _ hs _ hg rfl
    obtain ⟨f, hf, same⟩ := List.mem_map.mp hs
    rw [List.map_singleton, List.mem_singleton] at hg
    exact at?_eq_none.mp new f hf (same.trans hg)

end Apart
end Flight

open Flight (at? queue loader? Apart)

namespace Traffic

variable {κ ν : Type} {t : Traffic κ ν} {f g : Flight} {slot s : Nat}

section Begin

private theorem at?_begin : at? (t.begin slot).flights s =
    (at? t.flights s).map fun f => if f.slot = slot then { f with running := true } else f :=
  Flight.at?_map fun f => by split <;> rfl

theorem loader?_begin (hf : at? t.flights slot = some f) : loader? (t.begin slot).flights s =
    if s = slot then some f.loader else loader? t.flights s := by
  rw [loader?, at?_begin]
  by_cases hs : s = slot
  · subst hs
    simp [hf, Flight.slot_of_at? hf]
  · rw [if_neg hs, loader?]
    cases found : at? t.flights s with
    | none => rfl
    | some g => simp [Flight.slot_of_at? found, hs]

theorem queue_begin (hf : at? t.flights slot = some f) : queue (t.begin slot).flights s =
    if s = slot then f.waiting else queue t.flights s := by
  rw [queue, at?_begin]
  by_cases hs : s = slot
  · subst hs
    simp [hf, Flight.slot_of_at? hf]
  · rw [if_neg hs, queue]
    cases found : at? t.flights s with
    | none => rfl
    | some g => simp [Flight.slot_of_at? found, hs]

theorem apart_begin (apart : Apart t.flights) : Apart (t.begin slot).flights :=
  apart.map fun f => by split <;> rfl

end Begin

section Succeed

variable {v : ν}

theorem loader?_succeed : loader? (t.succeed slot v).2.flights s =
    if s = slot then none else loader? t.flights s := by
  rw [loader?, succeed, Flight.at?_filter]
  split <;> rfl

theorem queue_succeed : queue (t.succeed slot v).2.flights s =
    if s = slot then [] else queue t.flights s := by
  rw [queue, succeed, Flight.at?_filter]
  by_cases hs : s = slot
  · rw [if_pos hs, if_pos hs]
  · rw [if_neg hs, if_neg hs, queue]

/-- Those who get the value. -/
theorem mem_succeed {i j : Nat} (apart : Apart t.flights) (loads : loader? t.flights slot = some i) :
    j ∈ (t.succeed slot v).1 ↔ j = i ∨ j ∈ queue t.flights slot := by
  obtain ⟨f, hf, running, rfl⟩ := Flight.loader?_eq_some.mp loads
  have behind : queue t.flights slot = f.waiting := by simp [queue, hf, running]
  rw [behind]
  simp only [succeed, List.mem_flatMap, List.mem_filter, decide_eq_true_eq, List.mem_cons]
  constructor
  · rintro ⟨g, ⟨hg, rfl⟩, caller⟩
    rw [Flight.at?_of_mem apart hg] at hf
    cases hf
    exact caller
  · exact fun caller => ⟨f, ⟨Flight.mem_of_at? hf, Flight.slot_of_at? hf⟩, caller⟩

end Succeed

section Fail

theorem slot_of_handOver (f g : Flight) (h : Flight.handOver f = some g) : g.slot = f.slot := by
  rw [Flight.handOver] at h
  split at h <;> cases h
  rfl

private theorem at?_fail (apart : Apart t.flights) : at? (t.fail slot).flights s =
    if s = slot then (at? t.flights slot).bind Flight.handOver else at? t.flights s :=
  Flight.at?_filterMap apart slot_of_handOver

theorem loader?_fail (apart : Apart t.flights) : loader? (t.fail slot).flights s =
    if s = slot then none else loader? t.flights s := by
  rw [loader?, at?_fail apart]
  split
  · cases at? t.flights slot with
    | none => rfl
    | some f => cases hw : f.waiting <;> simp [Flight.handOver, hw]
  · rfl

/-- The next in line is to load next. -/
theorem queue_fail (apart : Apart t.flights) {i : Nat} (loads : loader? t.flights slot = some i) :
    queue (t.fail slot).flights s = queue t.flights s := by
  rw [queue, at?_fail apart]
  by_cases hs : s = slot
  · subst hs
    obtain ⟨f, hf, running, -⟩ := Flight.loader?_eq_some.mp loads
    rw [if_pos rfl, queue, hf]
    cases hw : f.waiting <;> simp [Flight.handOver, hw, running]
  · rw [if_neg hs, queue]

theorem apart_fail (apart : Apart t.flights) : Apart (t.fail slot).flights := by
  refine apart.filterMap fun f g hg => ?_
  split at hg
  · exact slot_of_handOver f g hg
  · exact Option.some.inj hg ▸ rfl

end Fail

end Traffic
end WideColumn
