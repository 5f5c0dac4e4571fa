import WideColumn.Proofs.Collection.KeepFirst

/-!
Conditions on the values of a cache that every operation keeps. A place that stands empty is filled
with what was loaded for its key, and never with what was loaded for another.
-/
namespace WideColumn.Cache

variable {κ : Type u} {ν : Type v} {P Q : κ → ν → Prop} {c d : Cache κ ν}

/-- All values satisfy the condition together with their keys. No slot is used for two keys, and those
to come are new. -/
structure Holds (P : κ → ν → Prop) (c : Cache κ ν) : Prop where
  values : ∀ p ∈ c.places, ∀ v, p.value = some v → P p.key v
  slots : ∀ p ∈ c.places, p.slot < c.nextSlot
  keys : ∀ p ∈ c.places, ∀ q ∈ c.places, p.slot = q.slot → p.key = q.key

/-- No slot is used for two keys, and those to come are new. -/
abbrev Sound (c : Cache κ ν) : Prop := c.Holds fun _ _ => True

/-- What is left when the places of other keys are lost. -/
def keep (c : Cache κ ν) (kept : κ → Bool) : Cache κ ν :=
  { c with places := c.places.filter fun p => kept p.key }

namespace Holds

theorem of_empty (h : c.places = []) : c.Holds P := by
  constructor <;> simp [h]

theorem mono (h : c.Holds P) (hpq : ∀ k v, P k v → Q k v) : c.Holds Q :=
  ⟨fun p hp v hv => hpq _ _ (h.values p hp v hv), h.slots, h.keys⟩

/-- Places may be lost and moved. -/
theorem of_subset (h : c.Holds P) (hp : d.places ⊆ c.places) (hn : d.nextSlot = c.nextSlot) :
    d.Holds P where
  values p hd := h.values p (hp hd)
  slots p hd := hn ▸ h.slots p (hp hd)
  keys p hd q hq := h.keys p (hp hd) q (hp hq)

theorem keep (h : c.Holds P) (kept : κ → Bool) : (c.keep kept).Holds P :=
  h.of_subset List.filter_sublist.subset rfl

theorem clear (h : c.Holds P) : c.clear.Holds P := h.of_subset (List.nil_subset _) rfl

theorem settle {slot : Nat} {v : ν} (h : c.Holds P) (hv : ∀ p ∈ c.places, p.slot = slot → P p.key v) :
    (c.settle slot v).Holds P := by
  -- Neither the slot nor the key of a place changes.
  have origin : ∀ q ∈ (c.settle slot v).places, ∃ p ∈ c.places, q.slot = p.slot ∧ q.key = p.key ∧
      (q.value = p.value ∨ p.slot = slot ∧ q.value = some v) := by
    intro q hq
    obtain ⟨p, hp, rfl⟩ := List.mem_map.mp hq
    refine ⟨p, hp, ?_⟩
    by_cases hs : p.slot = slot <;> simp [hs]
  constructor
  · intro q hq u hu
    obtain ⟨p, hp, -, key, value | ⟨hs, value⟩⟩ := origin q hq
    · exact key ▸ h.values p hp u (value ▸ hu)
    · rw [value] at hu
      exact Option.some.inj hu ▸ key ▸ hv p hp hs
  · intro q hq
    obtain ⟨p, hp, hs, -⟩ := origin q hq
    exact hs ▸ h.slots p hp
  · intro q hq q' hq' same
    obtain ⟨p, hp, slot, key, -⟩ := origin q hq
    obtain ⟨p', hp', slot', key', -⟩ := origin q' hq'
    rw [key, key']
    exact h.keys p hp p' hp' (slot ▸ slot' ▸ same)

variable [DecidableEq κ] {k : κ}

theorem find?_some {p : Place κ ν} (hp : c.find? k = some p) : p ∈ c.places ∧ p.key = k :=
  ⟨List.mem_of_find?_eq_some hp, by simpa using List.find?_some hp⟩

theorem remove (h : c.Holds P) : (c.remove k).Holds P :=
  h.of_subset (List.filter_sublist.subset) rfl

variable [Hashed κ]

theorem put_subset (p : Place κ ν) : (c.put p).places ⊆ p :: c.places := fun q hq => by
  rcases List.mem_cons.mp ((keepFirst_sublist _ _ _).subset hq) with rfl | hq
  · exact List.mem_cons_self
  · exact List.mem_cons_of_mem _ (List.mem_filter.mp hq).1

/-- A place that is there comes to the front. -/
theorem put (h : c.Holds P) {p : Place κ ν} (hp : p ∈ c.places) : (c.put p).Holds P :=
  h.of_subset (fun _ hq => (List.mem_cons.mp (put_subset p hq)).elim (· ▸ hp) id) rfl

/-- A new place gets the slot that is next. -/
theorem add (h : c.Holds P) {value : Option ν} (hv : ∀ v, value = some v → P k v) :
    Holds P { c.put ⟨k, c.nextSlot, value⟩ with nextSlot := c.nextSlot + 1 } := by
  have origin : ∀ q ∈ (c.put ⟨k, c.nextSlot, value⟩).places, q = ⟨k, c.nextSlot, value⟩ ∨
      q ∈ c.places := fun q hq => List.mem_cons.mp (put_subset _ hq)
  constructor
  · intro q hq v hqv
    obtain rfl | hq := origin q hq
    · exact hv v hqv
    · exact h.values q hq v hqv
  · intro q hq
    obtain rfl | hq := origin q hq
    · exact Nat.lt_succ_self _
    · exact Nat.lt_succ_of_lt (h.slots q hq)
  · intro q hq q' hq' same
    obtain rfl | hq := origin q hq <;> obtain rfl | hq' := origin q' hq'
    · rfl
    · exact absurd (h.slots q' hq') (same ▸ Nat.lt_irrefl _)
    · exact absurd (h.slots q hq) (same ▸ Nat.lt_irrefl _)
    · exact h.keys q hq q' hq' same

theorem insert (h : c.Holds P) {v : ν} (hv : P k v) : (c.insert k v).Holds P :=
  h.add fun _ same => Option.some.inj same ▸ hv

theorem get (h : c.Holds P) : (c.get k).2.Holds P := by
  rw [Cache.get]
  cases hp : c.find? k with
  | none => exact h
  | some p => exact h.put (find?_some hp).1

/-- The place acquired for a key is the only one of its slot, and is for that key. -/
theorem acquire (h : c.Holds P) (k : κ) : (c.acquire k).2.Holds P ∧
    (∀ v, (c.acquire k).1.value = some v → P k v) ∧
    ∀ p ∈ (c.acquire k).2.places, p.slot = (c.acquire k).1.slot → p.key = k := by
  cases hp : c.find? k with
  | some p =>
    obtain ⟨mem, rfl⟩ := find?_some hp
    rw [Cache.acquire, hp]
    refine ⟨h.put mem, h.values p mem, fun q hq same => h.keys q ?_ p mem same⟩
    exact (List.mem_cons.mp (put_subset p hq)).elim (· ▸ mem) id
  | none =>
    rw [Cache.acquire, hp]
    have added : Holds P { c.put ⟨k, c.nextSlot, none⟩ with nextSlot := c.nextSlot + 1 } :=
      h.add (by simp)
    refine ⟨added, by simp, fun q hq same => ?_⟩
    obtain rfl | hq := List.mem_cons.mp (put_subset _ hq)
    · rfl
    · exact absurd (h.slots q hq) (same ▸ Nat.lt_irrefl _)

end Holds

section Acquire

variable [DecidableEq κ] [Hashed κ] {k : κ}

/-- The place acquired for a key has been there, or is new and empty. -/
theorem acquire_cases (c : Cache κ ν) (k : κ) :
    (∃ p ∈ c.places, p.key = k ∧ c.acquire k = (p, c.put p)) ∨
      (∀ p ∈ c.places, p.key ≠ k) ∧ c.acquire k = (⟨k, c.nextSlot, none⟩,
        { c.put ⟨k, c.nextSlot, none⟩ with nextSlot := c.nextSlot + 1 }) := by
  rw [acquire]
  cases hp : c.find? k with
  | some p =>
    obtain ⟨mem, key⟩ := Holds.find?_some hp
    exact .inl ⟨p, mem, key, rfl⟩
  | none => exact .inr ⟨by simpa [find?] using hp, rfl⟩

theorem acquired_slot (slots : ∀ p ∈ c.places, p.slot < c.nextSlot) (k : κ) :
    (c.acquire k).1.slot < (c.acquire k).2.nextSlot := by
  obtain ⟨p, hp, -, acquired⟩ | ⟨-, acquired⟩ := c.acquire_cases k <;> rw [acquired]
  · exact slots p hp
  · exact Nat.lt_succ_self _

/-- A place put into a cache is the only one of its key. -/
theorem eq_of_mem_put {p q : Place κ ν} (hq : q ∈ (c.put p).places) (key : q.key = p.key) : q = p := by
  obtain same | others := List.mem_cons.mp ((keepFirst_sublist _ _ _).subset hq)
  · exact same
  · have := (List.mem_filter.mp others).2
    simp [key] at this

/-- After a key has been looked up, its only place is the one acquired for it. -/
theorem eq_acquired {p : Place κ ν} (hp : p ∈ (c.acquire k).2.places) (key : p.key = k) :
    p = (c.acquire k).1 := by
  obtain ⟨q, -, rfl, acquired⟩ | ⟨-, acquired⟩ := c.acquire_cases k <;> rw [acquired] at hp ⊢
  · exact eq_of_mem_put hp key
  · exact eq_of_mem_put hp key

end Acquire
end WideColumn.Cache
