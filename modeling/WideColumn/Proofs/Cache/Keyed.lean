import WideColumn.Proofs.Cache.Hub

/-!
Slots and keys. Each slot is for one key only, that of its place and of all who wait or load there; so
what is loaded for one key never gets to another.
-/
namespace WideColumn.Hub

variable {κ ν ε : Type} {h h' : Hub κ ν ε} {m : Move κ ν ε} {i j slot : Nat} {k : κ}

structure Keyed (h : Hub κ ν ε) : Prop where
  sound : h.cache.Sound
  slots : ∀ {i k slot}, (h.stand i).place? = some (k, slot) → slot < h.cache.nextSlot
  places : ∀ {i k slot}, (h.stand i).place? = some (k, slot) → ∀ p ∈ h.cache.places,
    p.slot = slot → p.key = k
  callers : ∀ {i j k k' slot}, (h.stand i).place? = some (k, slot) →
    (h.stand j).place? = some (k', slot) → k = k'

namespace Keyed

theorem new (capacity : Nat) : (Hub.new capacity : Hub κ ν ε).Keyed :=
  ⟨.of_empty rfl, nofun, nofun, nofun⟩

/-- Nobody has come to a place, and each place goes back to one of the same key, or is new. -/
private theorem kept (keyed : h.Keyed) (sound : h'.cache.Sound)
    (slots : h.cache.nextSlot ≤ h'.cache.nextSlot)
    (places : ∀ p ∈ h'.cache.places,
      (∃ q ∈ h.cache.places, q.slot = p.slot ∧ q.key = p.key) ∨ p.slot = h.cache.nextSlot)
    (stands : ∀ i k slot, (h'.stand i).place? = some (k, slot) → (h.stand i).place? = some (k, slot)) :
    h'.Keyed where
  sound := sound
  slots hi := Nat.lt_of_lt_of_le (keyed.slots (stands _ _ _ hi)) slots
  places {i k slot} hi p hp same := by
    have hi := stands i k slot hi
    obtain ⟨q, hq, qslot, qkey⟩ | new := places p hp
    · exact qkey ▸ keyed.places hi q hq (qslot.trans same)
    · exact absurd (keyed.slots hi) (by omega)
  callers hi hj := keyed.callers (stands _ _ _ hi) (stands _ _ _ hj)

variable [DecidableEq κ] [Hashed κ]

/-- Whoever is at the place that is acquired for a key is there for that key. -/
private theorem acquired (keyed : h.Keyed) {k' : κ}
    (hj : (h.stand j).place? = some (k', (h.cache.acquire k).1.slot)) : k' = k := by
  obtain ⟨p, hp, key, found⟩ | ⟨-, found⟩ := h.cache.acquire_cases k <;> rw [found] at hj
  · exact (keyed.places hj p hp rfl).symm.trans key
  · exact absurd (keyed.slots hj) (Nat.lt_irrefl _)

/-- Who comes to a place comes for its key. -/
private theorem joins (keyed : h.Keyed) (flights : List Flight) (i : Nat) (k : κ) : Keyed
    ⟨⟨(h.cache.acquire k).2, flights⟩,
      Function.update h.stand i (.waiting k (h.cache.acquire k).1.slot), h.arrived ++ [i]⟩ := by
  have hc := h.cache.shifts_acquire k
  have stands {j k' slot} (hj : (Function.update h.stand i
      (.waiting k (h.cache.acquire k).1.slot) j).place? = some (k', slot)) :
      (h.stand j).place? = some (k', slot) ∨ k' = k ∧ slot = (h.cache.acquire k).1.slot := by
    rw [Function.update_apply] at hj
    split at hj
    · cases hj
      exact .inr ⟨rfl, rfl⟩
    · exact .inl hj
  refine ⟨hc.sound keyed.sound, fun hj => ?_, fun hj p hp same => ?_, fun hi hj => ?_⟩
  · obtain old | ⟨rfl, rfl⟩ := stands hj
    · exact Nat.lt_of_lt_of_le (keyed.slots old) hc.slots
    · exact Cache.acquired_slot keyed.sound.slots _
  · obtain old | ⟨rfl, rfl⟩ := stands hj
    · obtain there | ⟨new, -⟩ := hc.places p hp
      · exact keyed.places old p there same
      · exact absurd (keyed.slots old) (by omega)
    · exact (keyed.sound.acquire _).2.2 p hp same
  · obtain old | ⟨rfl, rfl⟩ := stands hi <;> obtain old' | ⟨rfl, same⟩ := stands hj
    · exact keyed.callers old old'
    · exact keyed.acquired (same ▸ old)
    · exact (keyed.acquired old').symm
    · rfl

theorem happens (keyed : h.Keyed) (made : h.Happens m h') : h'.Keyed := by
  have updated {i : Nat} {s : Stand κ ν ε}
      (hs : ∀ k slot, s.place? = some (k, slot) → (h.stand i).place? = some (k, slot)) (j k slot)
      (hj : (Function.update h.stand i s j).place? = some (k, slot)) :
      (h.stand j).place? = some (k, slot) := by
    rw [Function.update_apply] at hj
    split at hj
    · rename_i same
      exact same ▸ hs k slot hj
    · exact hj
  have same : ∀ p ∈ h.cache.places,
      (∃ q ∈ h.cache.places, q.slot = p.slot ∧ q.key = p.key) ∨ p.slot = h.cache.nextSlot :=
    fun p hp => .inl ⟨p, hp, rfl, rfl⟩
  have shifted {cache : Cache κ ν} (hc : h.cache.Shifts cache) : ∀ p ∈ cache.places,
      (∃ q ∈ h.cache.places, q.slot = p.slot ∧ q.key = p.key) ∨ p.slot = h.cache.nextSlot :=
    fun p hp => (hc.places p hp).imp (fun old => ⟨p, old, rfl, rfl⟩) And.left
  cases made with
  | nothing => exact keyed
  | shifts _ hc => exact keyed.kept (hc.sound keyed.sound) hc.slots (shifted hc) fun _ _ _ hi => hi
  | @served i k v hi hv =>
    have hc := h.cache.shifts_acquire k
    exact keyed.kept (hc.sound keyed.sound) hc.slots (shifted hc) (updated nofun)
  | joins hi hv => exact keyed.joins _ _ _
  | begins hi =>
    exact keyed.kept keyed.sound (Nat.le_refl _) same (updated (by rw [hi]; exact fun _ _ hs => hs))
  | fails hi => exact keyed.kept keyed.sound (Nat.le_refl _) same (updated nofun)
  | @succeeds i k t v hi =>
    refine keyed.kept (keyed.sound.settle fun _ _ _ => trivial) (Nat.le_refl _) (fun p hp => .inl ?_) ?_
    · obtain ⟨q, hq, rfl⟩ := List.mem_map.mp hp
      refine ⟨q, hq, ?_⟩
      split <;> exact ⟨rfl, rfl⟩
    · intro j k' slot hj
      change Stand.place? (if _ then (h.stand j).receive v else h.stand j) = _ at hj
      split at hj
      · cases hs : h.stand j <;> rw [hs] at hj <;> first | exact hj | cases hj
      · exact hj

end Keyed
end WideColumn.Hub
