import WideColumn.Proofs.Cache.Orderly

/-!
Callers that miss the same place share one load. Loads of a place follow one another, each failure goes
to one caller, and a value to all who are there. A place that the cache has lost is of no concern to
those who come later.
-/
namespace WideColumn

variable {κ ν ε : Type}

namespace Hub

variable [DecidableEq κ] [Hashed κ]

variable {h h' g : Hub κ ν ε} {m : Move κ ν ε} {i j slot : Nat} {k : κ}

section Next

/-- The caller is the first in line at the place, and nobody loads. -/
private structure Awaits (next slot : Nat) (h : Hub κ ν ε) : Prop where
  orderly : h.Orderly
  first : ∃ rest, h.line slot = next :: rest
  idle : ∀ j, (h.stand j).loadsAt slot = false

private theorem Awaits.happens {next : Nat} (awaits : Awaits next slot h) (made : h.Happens m h')
    (others : m ≠ .begin next) : Awaits next slot h' := by
  have orderly := awaits.orderly
  obtain ⟨rest, first⟩ := awaits.first
  have idle_update {s : Stand κ ν ε} (i : Nat) (hs : s.loadsAt slot = false) (j : Nat) :
      (Function.update h.stand i s j).loadsAt slot = false := by
    rw [Function.update_apply]
    split
    · exact hs
    · exact awaits.idle j
  suffices kept : (∃ rest, h'.line slot = next :: rest) ∧ ∀ j, (h'.stand j).loadsAt slot = false from
    ⟨orderly.happens made, kept.1, kept.2⟩
  cases made with
  | nothing | shifts => exact ⟨⟨rest, first⟩, awaits.idle⟩
  | served hi | joins hi =>
    rw [line_concat ((orderly.come _).mp hi), first]
    exact ⟨⟨_, List.cons_append⟩, idle_update _ rfl⟩
  | @begins i k t hi turn =>
    have behind : i ≠ next := fun same => others (same ▸ rfl)
    -- at this place it would be the turn of the first in line
    have elsewhere : t ≠ slot := by
      rintro rfl
      obtain ⟨-, _, turn⟩ := orderly.isTurn_iff.mp turn
      exact behind (List.cons.inj (turn.symm.trans first)).1
    rw [line_update _ rfl, first, List.filter_cons_of_pos (by simpa using Ne.symm behind)]
    exact ⟨⟨_, rfl⟩, idle_update _ (by simpa [Stand.loadsAt] using elsewhere)⟩
  | @succeeds i k t v hi =>
    have elsewhere : slot ≠ t := by
      rintro rfl
      have := awaits.idle i
      simp [hi, Stand.loadsAt] at this
    have stays (j : Nat) := orderly.stays_succeed hi v j slot
    simp only [if_neg elsewhere] at stays
    exact ⟨⟨rest, first ▸ List.filter_congr fun j _ => (stays j).1⟩,
      fun j => (stays j).2.trans (awaits.idle j)⟩
  | @fails i k t e hi =>
    exact ⟨⟨rest, first ▸ line_kept _ rfl (by simp [hi, Stand.waitsAt])⟩, idle_update _ rfl⟩

/-- A failed load leaves the line as it is, and nobody loads. -/
private theorem Orderly.awaits (orderly : h.Orderly) (hi : h.stand i = .loading k slot) (e : ε)
    {next : Nat} {rest : List Nat} (first : h.line slot = next :: rest) :
    Awaits next slot (h.step (.finish i (.error e))) := by
  have failed : h.step (.finish i (.error e)) = h.settle i k slot (.error e) := by
    rw [step, hi]
  have after := orderly.happens (h.happens (.finish i (.error e)))
  refine ⟨after, ⟨rest, ?_⟩, fun j => ?_⟩
  · rw [failed]
    exact (line_kept _ rfl (by simp [hi, Stand.waitsAt])).trans first
  · rw [← Bool.not_eq_true, after.loads, failed]
    show ¬ Flight.loader? (h.traffic.fail slot).flights slot = some j
    simp [Traffic.loader?_fail orderly.apart]

private theorem Awaits.begin {next : Nat} (awaits : Awaits next slot h) :
    ((h.step (.begin next)).stand next).loadsAt slot = true := by
  obtain ⟨rest, first⟩ := awaits.first
  have inLine : next ∈ h.line slot := first ▸ List.mem_cons_self
  obtain ⟨k, waits⟩ := Stand.waitsAt_iff.mp (awaits.orderly.mem_line.mp inLine)
  have idle : Flight.loader? h.flights slot = none :=
    Option.eq_none_iff_forall_ne_some.mpr fun j loads => by
      rw [← awaits.orderly.loads, awaits.idle j] at loads
      cases loads
  have turn : h.isTurn next slot = true := awaits.orderly.isTurn_iff.mpr ⟨idle, rest, first⟩
  simp [step, waits, turn, Stand.loadsAt]

end Next

section Done

/-- The load of the place has succeeded. -/
private structure Done (slot : Nat) (h : Hub κ ν ε) : Prop where
  used : slot < h.cache.nextSlot
  empty : ∀ j k, (h.stand j).place? ≠ some (k, slot)
  filled : ∀ p ∈ h.cache.places, p.slot = slot → p.value ≠ none

private theorem Done.happens (done : Done slot h) (made : h.Happens m h') : Done slot h' := by
  obtain ⟨slots, origin⟩ := made.origin
  refine ⟨Nat.lt_of_lt_of_le done.used slots, fun j k hj => ?_, fun p hp same => ?_⟩
  · obtain before | ⟨-, hv, rfl⟩ := (made.turns j).place hj
    · exact done.empty j k before
    · -- the place that has been acquired is not filled
      obtain ⟨p, hp, -, acquired⟩ | ⟨-, acquired⟩ := h.cache.acquire_cases k
      · rw [acquired] at hv
        exact done.filled p hp (by rw [acquired]) hv
      · exact Nat.ne_of_lt done.used (by rw [acquired])
  · obtain ⟨q, hq, slot, kept⟩ | new := origin p hp
    · exact kept (done.filled q hq (slot.trans same))
    · exact absurd (same.symm.trans new) (Nat.ne_of_lt done.used)

/-- Nobody is left at a place that is filled. -/
private theorem Orderly.done (orderly : h.Orderly) (hi : h.stand i = .loading k slot) (v : ν) :
    Done slot (h.step (.finish i (.ok v))) := by
  have loaded : h.step (.finish i (.ok v)) = h.settle i k slot (.ok v) := by
    rw [step, hi]
  rw [loaded]
  refine ⟨?_, fun j k' => ?_, fun p hp same => ?_⟩
  · obtain ⟨f, hf, -⟩ := Flight.loader?_eq_some.mp (orderly.loader hi)
    exact Flight.slot_of_at? hf ▸ orderly.flown f (Flight.mem_of_at? hf)
  · have stays := orderly.stays_succeed hi v j slot
    simp only [if_pos] at stays
    cases hj : (h.settle i k slot (.ok v)).stand j <;> rw [hj] at stays <;>
      simp_all [Stand.place?, Stand.waitsAt, Stand.loadsAt]
  · obtain ⟨q, hq, rfl⟩ := List.mem_map.mp hp
    by_cases ht : q.slot = slot
    · simp [ht]
    · rw [if_neg ht] at same
      exact absurd same ht

end Done

section Lost

variable {elsewhere : Nat → Bool}

/-- The cache has lost the place. All who are not elsewhere are there, or have been. -/
private structure Lost (slot : Nat) (elsewhere : Nat → Bool) (h : Hub κ ν ε) : Prop where
  orderly : h.Orderly
  used : slot < h.cache.nextSlot
  gone : ∀ p ∈ h.cache.places, p.slot ≠ slot
  came : ∀ i, elsewhere i = false → h.stand i ≠ .away
  whose : ∀ i k t, (h.stand i).place? = some (k, t) → (elsewhere i = true ↔ t ≠ slot)

/-- Those who are elsewhere see no difference. -/
private structure Same (elsewhere : Nat → Bool) (h g : Hub κ ν ε) : Prop where
  cache : h.cache = g.cache
  arrived : h.arrived = g.arrived
  stand : ∀ i, elsewhere i = true → h.stand i = g.stand i

private theorem Lost.happens (lost : Lost slot elsewhere h) (made : h.Happens m h') :
    Lost slot elsewhere h' := by
  obtain ⟨slots, origin⟩ := made.origin
  refine ⟨lost.orderly.happens made, Nat.lt_of_lt_of_le lost.used slots, fun p hp => ?_,
    fun i hi => (made.turns i).came (lost.came i hi), fun i k t hi => ?_⟩
  · obtain ⟨q, hq, same, -⟩ | new := origin p hp
    · exact same ▸ lost.gone q hq
    · exact new ▸ Nat.ne_of_gt lost.used
  · obtain before | ⟨away, -, rfl⟩ := (made.turns i).place hi
    · exact lost.whose i k t before
    · have outside : elsewhere i = true := by
        by_contra inside
        exact lost.came i (by simpa using inside) away
      simp only [outside, true_iff]
      obtain ⟨p, hp, -, acquired⟩ | ⟨-, acquired⟩ := h.cache.acquire_cases k <;> rw [acquired]
      · exact lost.gone p hp
      · exact Nat.ne_of_gt lost.used

/-- What those do who are not elsewhere makes no difference. -/
private theorem Lost.own (lost : Lost slot elsewhere h) (made : h.Happens m h')
    (hm : m.caller? = some i) (inside : elsewhere i = false) : Same elsewhere h h' := by
  have update (s : Stand κ ν ε) (j : Nat) (hj : elsewhere j = true) :
      h.stand j = Function.update h.stand i s j := by
    rw [Function.update_of_ne]
    rintro rfl
    rw [inside] at hj
    cases hj
  cases made with
  | nothing => exact ⟨rfl, rfl, fun _ _ => rfl⟩
  | shifts apart =>
    rw [apart] at hm
    cases hm
  | served away | joins away =>
    cases hm
    exact absurd away (lost.came i inside)
  | begins =>
    cases hm
    exact ⟨rfl, rfl, update _⟩
  | fails =>
    cases hm
    exact ⟨rfl, rfl, update _⟩
  | @succeeds _ k t v hi =>
    cases hm
    have here : t = slot := by
      by_contra other
      have := (lost.whose i k t (by rw [hi]; rfl)).mpr other
      rw [inside] at this
      cases this
    subst here
    refine ⟨?_, rfl, fun j hj => ?_⟩
    · -- no place is left to fill
      have kept : h.cache.places.map (fun p => if p.slot = t then { p with value := some v } else p) =
          h.cache.places := List.map_congr_left (g := id) (fun p hp => if_neg (lost.gone p hp)) |>.trans
            (List.map_id _)
      exact (congrArg (fun places => { h.cache with places }) kept).symm
    · rw [lost.orderly.stand_succeed hi, if_neg]
      rintro (rfl | waits)
      · rw [inside] at hj
        cases hj
      · obtain ⟨k', waits⟩ := Stand.waitsAt_iff.mp waits
        exact (lost.whose j k' t (by rw [waits]; rfl)).mp hj rfl

section Lookalikes

variable (lost : Lost slot elsewhere h) (lost' : Lost slot elsewhere g) (same : Same elsewhere h g)
include lost lost' same

omit [DecidableEq κ] [Hashed κ] in
/-- The two agree on who is at the places that are not lost. -/
private theorem Same.at {t : Nat} (ht : t ≠ slot) (j : Nat) :
    (h.stand j).waitsAt t = (g.stand j).waitsAt t ∧ (h.stand j).loadsAt t = (g.stand j).loadsAt t := by
  cases hj : elsewhere j with
  | true => rw [same.stand j hj]; exact ⟨rfl, rfl⟩
  | false =>
    have nowhere {h : Hub κ ν ε} (lost : Lost slot elsewhere h) :
        (h.stand j).waitsAt t = false ∧ (h.stand j).loadsAt t = false := by
      have whose := lost.whose j
      cases hs : h.stand j <;> simp_all [Stand.waitsAt, Stand.loadsAt, Stand.place?] <;> grind
    rw [(nowhere lost).1, (nowhere lost).2, (nowhere lost').1, (nowhere lost').2]
    exact ⟨rfl, rfl⟩

omit [DecidableEq κ] [Hashed κ] in
private theorem Same.isTurn {t : Nat} (ht : t ≠ slot) (i : Nat) : h.isTurn i t = g.isTurn i t := by
  have agree := same.at lost lost' ht
  have line : h.line t = g.line t := by
    rw [line, line, same.arrived]
    exact List.filter_congr fun j _ => (agree j).1
  have loader : Flight.loader? h.flights t = Flight.loader? g.flights t :=
    Option.ext fun j => by
      rw [← lost.orderly.loads, ← lost'.orderly.loads, (agree j).2]
  rw [Bool.eq_iff_iff, lost.orderly.isTurn_iff, lost'.orderly.isTurn_iff, line, loader]

/-- What others do has the same effect on both. -/
private theorem Same.step (m : Move κ ν ε) (outside : m.caller?.all elsewhere = true) :
    Same elsewhere (h.step m) (g.step m) := by
  have update (s : Stand κ ν ε) (i j : Nat) (hj : elsewhere j = true) :
      Function.update h.stand i s j = Function.update g.stand i s j := by
    rw [Function.update_apply, Function.update_apply, same.stand j hj]
  cases m with
  | lookUp i k =>
    rw [Hub.step, Hub.step, ← same.stand i outside]
    split
    · cases hv : (h.cache.acquire k).1.value with
      | some v =>
        rw [arrive_served i hv, arrive_served i (same.cache ▸ hv)]
        exact ⟨congrArg (fun c => (c.acquire k).2) same.cache, congrArg (· ++ [i]) same.arrived,
          update _ i⟩
      | none =>
        rw [arrive_empty i hv, arrive_empty i (same.cache ▸ hv), ← same.cache]
        exact ⟨rfl, congrArg (· ++ [i]) same.arrived, update _ i⟩
    · exact same
  | begin i =>
    rw [Hub.step, Hub.step, ← same.stand i outside]
    split
    · rename_i k t hi
      have apart := (lost.whose i k t (by rw [hi]; rfl)).mp outside
      rw [← same.isTurn lost lost' apart]
      split
      · exact ⟨same.cache, same.arrived, update _ i⟩
      · exact same
    · exact same
  | finish i outcome =>
    rw [Hub.step, Hub.step, ← same.stand i outside]
    split
    · rename_i k t hi
      have apart := (lost.whose i k t (by rw [hi]; rfl)).mp outside
      cases outcome with
      | ok v =>
        refine ⟨congrArg (·.settle t v) same.cache, same.arrived, fun j hj => ?_⟩
        rw [lost.orderly.stand_succeed hi, lost'.orderly.stand_succeed (same.stand i outside ▸ hi),
          same.stand j hj]
      | error e => exact ⟨same.cache, same.arrived, update _ i⟩
    · exact same
  | get k => exact ⟨congrArg (fun c => (c.get k).2) same.cache, same.arrived, same.stand⟩
  | insert k v => exact ⟨congrArg (·.insert k v) same.cache, same.arrived, same.stand⟩
  | remove k => exact ⟨congrArg (·.remove k) same.cache, same.arrived, same.stand⟩
  | clear => exact ⟨congrArg (·.clear) same.cache, same.arrived, same.stand⟩

end Lookalikes

private theorem Same.run (lost : Lost slot elsewhere h) (lost' : Lost slot elsewhere g)
    (same : Same elsewhere h g) (later : List (Move κ ν ε)) :
    Same elsewhere (h.run later) (g.run (later.filter fun m => m.caller?.all elsewhere)) := by
  induction later generalizing h g with
  | nil => exact same
  | cons m later ih =>
    have lostNext := lost.happens (h.happens m)
    cases outside : m.caller?.all elsewhere with
    | true =>
      rw [List.filter_cons_of_pos (by exact outside)]
      exact ih lostNext (lost'.happens (g.happens m)) (same.step lost lost' m outside)
    | false =>
      rw [List.filter_cons_of_neg (by simp [outside])]
      obtain ⟨i, hm, inside⟩ : ∃ i, m.caller? = some i ∧ elsewhere i = false := by
        cases hm : m.caller? <;> simp_all
      have kept := lost.own (h.happens m) hm inside
      exact ih lostNext lost' ⟨kept.cache.symm.trans same.cache, kept.arrived.symm.trans same.arrived,
        fun j hj => (kept.stand j hj).symm.trans (same.stand j hj)⟩

end Lost

end Hub
end WideColumn
