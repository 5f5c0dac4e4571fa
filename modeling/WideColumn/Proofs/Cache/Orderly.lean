import WideColumn.Proofs.Cache.Hub

/-!
Order at a cache: those who wait at a place are in line there just as they have come, and the one who
loads has been at the head of the line. Every step keeps that.
-/
namespace WideColumn.Hub

variable {κ ν ε : Type} {h : Hub κ ν ε} {i j slot : Nat} {k : κ}

structure Orderly (h : Hub κ ν ε) : Prop where
  slots : ∀ p ∈ h.cache.places, p.slot < h.cache.nextSlot
  flown : ∀ f ∈ h.flights, f.slot < h.cache.nextSlot
  apart : Flight.Apart h.flights
  once : h.arrived.Nodup
  come : ∀ i, h.stand i = .away ↔ i ∉ h.arrived
  line : ∀ slot, h.line slot = Flight.queue h.flights slot
  loads : ∀ i slot, (h.stand i).loadsAt slot = true ↔ Flight.loader? h.flights slot = some i

/-- Who comes goes to the end of the line. -/
theorem line_concat (new : i ∉ h.arrived) (t : Traffic κ ν) (s : Stand κ ν ε) (slot : Nat) :
    line ⟨t, Function.update h.stand i s, h.arrived ++ [i]⟩ slot =
      h.line slot ++ if s.waitsAt slot then [i] else [] := by
  have others : h.arrived.filter (fun j => (Function.update h.stand i s j).waitsAt slot) =
      h.line slot := by
    refine List.filter_congr fun j hj => ?_
    rw [Function.update_of_ne]
    rintro rfl
    exact new hj
  rw [line, List.filter_append, others]
  cases hs : s.waitsAt slot <;> simp [hs]

/-- Who stops waiting leaves the line. -/
theorem line_update (t : Traffic κ ν) {s : Stand κ ν ε} (hs : s.waitsAt slot = false) :
    line ⟨t, Function.update h.stand i s, h.arrived⟩ slot = (h.line slot).filter (· ≠ i) := by
  rw [line, line, List.filter_filter]
  refine List.filter_congr fun j _ => ?_
  by_cases hj : j = i
  · subst hj
    simp [hs]
  · simp [hj]

theorem line_kept (t : Traffic κ ν) {s : Stand κ ν ε} (hs : s.waitsAt slot = false)
    (hi : (h.stand i).waitsAt slot = false) :
    line ⟨t, Function.update h.stand i s, h.arrived⟩ slot = h.line slot := by
  rw [line_update t hs, List.filter_eq_self]
  intro j hj
  have waits := (List.mem_filter.mp hj).2
  rw [decide_eq_true_eq]
  rintro rfl
  rw [hi] at waits
  cases waits

/-- How one caller stands anew has no bearing on who else loads. -/
theorem loadsAt_update {s : Stand κ ν ε} (loader : Nat → Option Nat)
    (hs : s.loadsAt slot = true ↔ loader slot = some i)
    (others : j ≠ i → ((h.stand j).loadsAt slot = true ↔ loader slot = some j)) :
    (Function.update h.stand i s j).loadsAt slot = true ↔ loader slot = some j := by
  by_cases hj : j = i
  · subst hj
    rwa [Function.update_self]
  · rw [Function.update_of_ne hj]
    exact others hj

namespace Orderly

theorem new (capacity : Nat) : (Hub.new capacity : Hub κ ν ε).Orderly where
  slots := nofun
  flown := nofun
  apart := List.nodup_nil
  once := List.nodup_nil
  come _ := by simp [Hub.new]
  line _ := rfl
  loads _ _ := ⟨nofun, nofun⟩

theorem mem_line (orderly : h.Orderly) : i ∈ h.line slot ↔ (h.stand i).waitsAt slot = true := by
  rw [Hub.line, List.mem_filter, and_iff_right_iff_imp]
  intro waits
  by_contra away
  rw [(orderly.come i).mpr away] at waits
  cases waits

/-- It is the turn of the first in line, once nobody loads. -/
theorem isTurn_iff (orderly : h.Orderly) : h.isTurn i slot = true ↔
    Flight.loader? h.flights slot = none ∧ ∃ rest, h.line slot = i :: rest := by
  rw [orderly.line]
  simp only [isTurn, List.any_eq_true, Bool.and_eq_true, decide_eq_true_eq, Bool.not_eq_true']
  constructor
  · rintro ⟨f, hf, ⟨rfl, rfl⟩, idle⟩
    simp [Flight.loader?, Flight.queue, Flight.at?_of_mem orderly.apart hf, idle]
  · rintro ⟨idle, rest, first⟩
    obtain ⟨f, hf, still, loader, -⟩ := Flight.exists_of_turn idle first
    exact ⟨f, Flight.mem_of_at? hf, ⟨Flight.slot_of_at? hf, loader⟩, still⟩

theorem loader (orderly : h.Orderly) (hi : h.stand i = .loading k slot) :
    Flight.loader? h.flights slot = some i :=
  (orderly.loads i slot).mp (by simp [hi, Stand.loadsAt])

/-- The value of a load goes to the loader and to those who wait behind it. -/
theorem mem_callers (orderly : h.Orderly) (hi : h.stand i = .loading k slot) {v : ν} :
    j ∈ (h.traffic.succeed slot v).1 ↔ j = i ∨ (h.stand j).waitsAt slot = true := by
  rw [Traffic.mem_succeed orderly.apart (orderly.loader hi), ← orderly.line, mem_line orderly]

theorem stand_succeed (orderly : h.Orderly) (hi : h.stand i = .loading k slot) (v : ν) (j : Nat) :
    (h.settle i k slot (.ok v)).stand j =
      if j = i ∨ (h.stand j).waitsAt slot = true then (h.stand j).receive v else h.stand j :=
  if_congr (orderly.mem_callers hi (v := v)) rfl rfl

private theorem shifts (orderly : h.Orderly) {cache : Cache κ ν} (hc : h.cache.Shifts cache) :
    (h.withCache cache).Orderly where
  slots p hp := by
    obtain old | ⟨new, lt⟩ := hc.places p hp
    · exact Nat.lt_of_lt_of_le (orderly.slots p old) hc.slots
    · exact new ▸ lt
  flown f hf := Nat.lt_of_lt_of_le (orderly.flown f hf) hc.slots
  apart := orderly.apart
  once := orderly.once
  come := orderly.come
  line := orderly.line
  loads := orderly.loads

/-- Who comes is counted once. -/
private theorem come_concat (orderly : h.Orderly) (hi : h.stand i = .away) {s : Stand κ ν ε}
    (hs : s ≠ .away) : (h.arrived ++ [i]).Nodup ∧
      ∀ j, Function.update h.stand i s j = .away ↔ j ∉ h.arrived ++ [i] := by
  have new : i ∉ h.arrived := (orderly.come i).mp hi
  constructor
  · rw [List.nodup_append]
    refine ⟨orderly.once, List.nodup_singleton i, ?_⟩
    rintro j hj _ hi rfl
    exact new (List.mem_singleton.mp hi ▸ hj)
  · intro j
    by_cases hj : j = i
    · subst hj
      simp [hs]
    · simp [hj, orderly.come]

private theorem come_update (orderly : h.Orderly) (hi : h.stand i ≠ .away) {s : Stand κ ν ε}
    (hs : s ≠ .away) (j : Nat) : Function.update h.stand i s j = .away ↔ j ∉ h.arrived := by
  by_cases hj : j = i
  · subst hj
    simp [hs, ← orderly.come, hi]
  · simp [hj, orderly.come]

/-- Who comes to a place joins its line and does not load yet. -/
private theorem arrives (orderly : h.Orderly) (hi : h.stand i = .away) {cache : Cache κ ν}
    (hc : h.cache.Shifts cache) {flights : List Flight} {s : Stand κ ν ε} (hs : s ≠ .away)
    (idle : ∀ t, s.loadsAt t = false) (flown : ∀ f ∈ flights, f.slot < cache.nextSlot)
    (apart : Flight.Apart flights)
    (queue : ∀ t, Flight.queue flights t =
      Flight.queue h.flights t ++ if s.waitsAt t then [i] else [])
    (loader : ∀ t, Flight.loader? flights t = Flight.loader? h.flights t) :
    Orderly ⟨⟨cache, flights⟩, Function.update h.stand i s, h.arrived ++ [i]⟩ where
  slots := (orderly.shifts hc).slots
  flown := flown
  apart := apart
  once := (orderly.come_concat hi hs).1
  come := (orderly.come_concat hi hs).2
  line t := by rw [line_concat ((orderly.come i).mp hi), orderly.line, queue]
  loads j t := by
    rw [loader]
    refine loadsAt_update _ ?_ fun _ => orderly.loads j t
    rw [idle, ← orderly.loads, hi]
    exact Iff.rfl

private theorem waits_iff {t : Nat} (hi : h.stand i = .waiting k slot) :
    (h.stand i).waitsAt t = true ↔ t = slot := by
  simp [hi, Stand.waitsAt, eq_comm]

/-- The first in line leaves it to load. -/
private theorem begins (orderly : h.Orderly) (hi : h.stand i = .waiting k slot)
    (turn : h.isTurn i slot = true) : Orderly { h with
      traffic := h.traffic.begin slot
      stand := Function.update h.stand i (.loading k slot) } := by
  obtain ⟨idle, rest, first⟩ := orderly.isTurn_iff.mp turn
  have once : (h.line slot).Nodup := orderly.once.filter _
  obtain ⟨f, hf, -, rfl, rfl⟩ := Flight.exists_of_turn idle (orderly.line slot ▸ first)
  refine ⟨orderly.slots, fun g hg => ?_, Traffic.apart_begin orderly.apart, orderly.once,
    orderly.come_update (by simp [hi]) nofun, fun t => ?_, fun j t => ?_⟩
  · obtain ⟨g', hg', rfl⟩ := List.mem_map.mp hg
    have flown := orderly.flown g' hg'
    split <;> exact flown
  · rw [line_update _ rfl, Traffic.queue_begin hf]
    by_cases ht : t = slot
    · subst ht
      rw [if_pos rfl, first, List.filter_cons_of_neg (by simp), List.filter_eq_self]
      rw [first] at once
      intro j hj
      have other := (List.nodup_cons.mp once).1
      grind
    · rw [if_neg ht, ← orderly.line, List.filter_eq_self]
      intro j hj
      rw [decide_eq_true_eq]
      rintro rfl
      exact ht ((waits_iff hi).mp (orderly.mem_line.mp hj))
  · rw [Traffic.loader?_begin hf]
    by_cases ht : t = slot
    · subst ht
      rw [if_pos rfl]
      refine loadsAt_update (fun _ => some f.loader) (by simp [Stand.loadsAt]) fun other => ?_
      rw [orderly.loads, idle]
      simp [Ne.symm other]
    · rw [if_neg ht]
      refine loadsAt_update _ ?_ fun _ => orderly.loads j t
      rw [← orderly.loads, hi]
      simp [Stand.loadsAt, Ne.symm ht]

/-- Nobody is left at a place whose load has succeeded, and at the others nothing changes. -/
theorem stays_succeed (orderly : h.Orderly) (hi : h.stand i = .loading k slot) (v : ν) (j t : Nat) :
    ((h.settle i k slot (.ok v)).stand j).waitsAt t =
      (if t = slot then false else (h.stand j).waitsAt t) ∧
    ((h.settle i k slot (.ok v)).stand j).loadsAt t =
      (if t = slot then false else (h.stand j).loadsAt t) := by
  have loads := orderly.loads j slot
  rw [orderly.loader hi] at loads
  rw [orderly.stand_succeed hi]
  cases hj : h.stand j <;> grind [Stand.waitsAt, Stand.loadsAt, Stand.receive]

private theorem succeeds (orderly : h.Orderly) (hi : h.stand i = .loading k slot) (v : ν) :
    (h.settle i k slot (.ok v)).Orderly := by
  have stays := orderly.stays_succeed hi v
  refine ⟨fun p hp => ?_, fun f hf => ?_, ?_, orderly.once, fun j => ?_, fun t => ?_, fun j t => ?_⟩
  · obtain ⟨q, hq, rfl⟩ := List.mem_map.mp hp
    have lt := orderly.slots q hq
    split <;> exact lt
  · exact orderly.flown f (List.mem_filter.mp hf).1
  · exact orderly.apart.filter _
  · rw [orderly.stand_succeed hi]
    refine Iff.trans ?_ (orderly.come j)
    cases h.stand j <;> grind [Stand.receive]
  · show h.arrived.filter _ = Flight.queue (h.traffic.succeed slot v).2.flights t
    rw [Traffic.queue_succeed, ← orderly.line]
    simp only [(stays _ t).1]
    split
    · simp
    · rfl
  · show _ ↔ Flight.loader? (h.traffic.succeed slot v).2.flights t = some j
    rw [Traffic.loader?_succeed, (stays j t).2]
    by_cases ht : t = slot
    · simp [ht]
    · rw [if_neg ht, if_neg ht]
      exact orderly.loads j t

/-- Whoever waits goes on waiting when a load has failed. -/
private theorem fails (orderly : h.Orderly) (hi : h.stand i = .loading k slot) (e : ε) :
    (h.settle i k slot (.error e)).Orderly := by
  have loader := orderly.loader hi
  refine ⟨orderly.slots, fun f hf => ?_, Traffic.apart_fail orderly.apart, orderly.once,
    orderly.come_update (by simp [hi]) nofun, fun t => ?_, fun j t => ?_⟩
  · obtain ⟨g, hg, made⟩ := List.mem_filterMap.mp hf
    have flown := orderly.flown g hg
    split at made
    · exact Traffic.slot_of_handOver g f made ▸ flown
    · exact Option.some.inj made ▸ flown
  · refine (line_kept _ rfl (by simp [hi, Stand.waitsAt])).trans ?_
    rw [orderly.line]
    exact (Traffic.queue_fail orderly.apart loader).symm
  · show _ ↔ Flight.loader? (h.traffic.fail slot).flights t = some j
    rw [Traffic.loader?_fail orderly.apart]
    by_cases ht : t = slot
    · subst ht
      rw [if_pos rfl]
      refine loadsAt_update (fun _ => none) (by simp [Stand.loadsAt]) fun other => ?_
      rw [orderly.loads, loader]
      simp [Ne.symm other]
    · rw [if_neg ht]
      refine loadsAt_update _ ?_ fun _ => orderly.loads j t
      rw [← orderly.loads, hi]
      simp [Stand.loadsAt, Ne.symm ht]

variable [DecidableEq κ] [Hashed κ]

theorem happens (orderly : h.Orderly) {m : Move κ ν ε} {h' : Hub κ ν ε} (made : h.Happens m h') :
    h'.Orderly := by
  cases made with
  | nothing => exact orderly
  | shifts _ hc => exact orderly.shifts hc
  | @served i k v hi hv =>
    have moved := orderly.shifts (h.cache.shifts_acquire k)
    exact orderly.arrives hi (h.cache.shifts_acquire k) nofun (fun _ => rfl) moved.flown orderly.apart
      (fun t => (List.append_nil _).symm) fun _ => rfl
  | @joins i k hi hv =>
    have moved := orderly.shifts (h.cache.shifts_acquire k)
    refine orderly.arrives hi (h.cache.shifts_acquire k) nofun (fun _ => rfl) (fun g hg => ?_)
      orderly.apart.join (fun t => ?_) fun _ => Flight.loader?_join
    · obtain same | ⟨f, hf, same⟩ := Flight.of_mem_join hg
      · exact same ▸ Cache.acquired_slot orderly.slots k
      · exact same ▸ moved.flown f hf
    · rw [Flight.queue_join]
      grind [Stand.waitsAt]
  | begins hi turn => exact orderly.begins hi turn
  | succeeds hi => exact orderly.succeeds hi _
  | fails hi => exact orderly.fails hi _

theorem run (orderly : h.Orderly) (moves : List (Move κ ν ε)) : (h.run moves).Orderly := by
  induction moves generalizing h with
  | nil => exact orderly
  | cons m moves ih => exact ih (orderly.happens (h.happens m))

end Orderly
end WideColumn.Hub
