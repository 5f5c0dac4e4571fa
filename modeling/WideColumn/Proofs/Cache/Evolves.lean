import WideColumn.Proofs.Cache.Holds

/-!
How the places of a cache come about from those of an earlier one. A place is new, or has been there
already, and then at most a value has come to it.
-/
namespace WideColumn.Cache

variable {κ : Type u} {ν : Type v} {P Q : κ → Nat → ν → Prop} {c d e : Cache κ ν}

/-- The place comes about from this cache. Each value that has come to a place satisfies the condition,
together with the key and the slot. -/
inductive Arises (P : κ → Nat → ν → Prop) (c : Cache κ ν) : Place κ ν → Prop
  | kept {p : Place κ ν} : p ∈ c.places → Arises P c p
  | filled {p : Place κ ν} {v : ν} : p ∈ c.places → p.value = none → P p.key p.slot v →
      Arises P c { p with value := some v }
  | new {p : Place κ ν} : c.nextSlot ≤ p.slot → (∀ v, p.value = some v → P p.key p.slot v) →
      Arises P c p

/-- All places of the later cache come about from the earlier one. -/
structure Evolves (P : κ → Nat → ν → Prop) (c d : Cache κ ν) : Prop where
  slots : c.nextSlot ≤ d.nextSlot
  places : ∀ p ∈ d.places, c.Arises P p
  sound : c.Sound → d.Sound

namespace Evolves

theorem refl (c : Cache κ ν) : c.Evolves P c := ⟨Nat.le_refl _, fun _ => .kept, id⟩

theorem trans (h : c.Evolves P d) (h' : d.Evolves P e) : c.Evolves P e := by
  refine ⟨Nat.le_trans h.slots h'.slots, fun p hp => ?_, h'.sound ∘ h.sound⟩
  cases h'.places p hp with
  | kept hp => exact h.places p hp
  | @filled q v hq none fits =>
    cases h.places q hq with
    | kept hq => exact .filled hq none fits
    | filled => cases none
    | new late _ => exact .new late fun u hu => Option.some.inj hu ▸ fits
  | new late fits => exact .new (Nat.le_trans h.slots late) fits

/-- Values that satisfy the condition are followed by such. -/
theorem values (h : c.Evolves P d) (hc : ∀ p ∈ c.places, ∀ v, p.value = some v → P p.key p.slot v) :
    ∀ p ∈ d.places, ∀ v, p.value = some v → P p.key p.slot v := by
  intro p hp v hv
  cases h.places p hp with
  | kept hp => exact hc p hp v hv
  | filled _ _ fits => exact Option.some.inj hv ▸ fits
  | new _ fits => exact fits v hv

theorem of_subset (hp : d.places ⊆ c.places) (hn : d.nextSlot = c.nextSlot) : c.Evolves P d :=
  ⟨Nat.le_of_eq hn.symm, fun _ h => .kept (hp h), fun sound => sound.of_subset hp hn⟩

theorem settle {slot : Nat} {v : ν}
    (h : ∀ p ∈ c.places, p.slot = slot → p.value = none ∧ P p.key slot v) :
    c.Evolves P (c.settle slot v) := by
  refine ⟨Nat.le_refl _, fun p hp => ?_, fun sound => sound.settle fun _ _ _ => trivial⟩
  obtain ⟨q, hq, rfl⟩ := List.mem_map.mp hp
  split
  · rename_i same
    obtain ⟨none, fits⟩ := h q hq same
    exact .filled hq none (same ▸ fits)
  · exact .kept hq

variable [DecidableEq κ] [Hashed κ] {k : κ}

private theorem add {value : Option ν} (h : ∀ v, value = some v → P k c.nextSlot v) :
    c.Evolves P { c.put ⟨k, c.nextSlot, value⟩ with nextSlot := c.nextSlot + 1 } where
  slots := Nat.le_succ _
  places p hp := by
    obtain rfl | hp := List.mem_cons.mp (Holds.put_subset _ hp)
    · exact .new (Nat.le_refl _) h
    · exact .kept hp
  sound sound := sound.add fun _ _ => trivial

theorem insert {v : ν} (h : P k c.nextSlot v) : c.Evolves P (c.insert k v) :=
  add fun _ same => Option.some.inj same ▸ h

private theorem put {p : Place κ ν} (hp : p ∈ c.places) : c.Evolves P (c.put p) :=
  .of_subset (fun _ hq => (List.mem_cons.mp (Holds.put_subset p hq)).elim (· ▸ hp) id) rfl

theorem acquire : c.Evolves P (c.acquire k).2 := by
  obtain ⟨p, hp, -, acquired⟩ | ⟨-, acquired⟩ := c.acquire_cases k <;> rw [acquired]
  · exact put hp
  · exact add nofun

end Evolves

section Acquired

variable [DecidableEq κ] [Hashed κ] {k : κ}

/-- An empty place that has been acquired for a key is filled with a value for it. -/
theorem Evolves.load (sound : c.Sound) (none : (c.acquire k).1.value = none) {v : ν}
    (h : P k (c.acquire k).1.slot v) :
    c.Evolves P ((c.acquire k).2.settle (c.acquire k).1.slot v) := by
  refine acquire.trans (.settle fun p hp same => ?_)
  have key : p.key = k := (Holds.acquire sound k).2.2 p hp same
  exact ⟨eq_acquired hp key ▸ none, key ▸ h⟩

end Acquired
end WideColumn.Cache
