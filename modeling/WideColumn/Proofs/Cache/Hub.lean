import Mathlib.Logic.Function.Basic
import WideColumn.Proofs.Cache.Flights
import WideColumn.Proofs.Cache.Holds

/-!
A cache with all who call for its values. That a caller looks its key up, that a load starts, that it
ends, and that the cache changes for other reasons are steps of their own, and come in any order.
-/
namespace WideColumn

/-- Where a caller stands. -/
inductive Stand (κ ν ε : Type)
  | away
  /-- At a place without a value, until its turn to load comes or another's load succeeds. -/
  | waiting (k : κ) (slot : Nat)
  | loading (k : κ) (slot : Nat)
  | served (k : κ) (v : ν)
  | failed (k : κ) (e : ε)
  deriving DecidableEq

structure Hub (κ ν ε : Type) where
  traffic : Traffic κ ν
  stand : Nat → Stand κ ν ε := fun _ => .away
  /-- All who have come, in order of arrival. -/
  arrived : List Nat := []

variable {κ ν ε : Type}

namespace Stand

/-- The key and the place that the caller is at. -/
def place? : Stand κ ν ε → Option (κ × Nat)
  | waiting k slot | loading k slot => some (k, slot)
  | _ => none

def waitsAt (s : Stand κ ν ε) (slot : Nat) : Bool :=
  match s with
  | waiting _ t => t = slot
  | _ => false

def loadsAt (s : Stand κ ν ε) (slot : Nat) : Bool :=
  match s with
  | loading _ t => t = slot
  | _ => false

/-- The caller has got a value or an error. -/
def isOver : Stand κ ν ε → Bool
  | served _ _ | failed _ _ => true
  | _ => false

/-- Whoever is at a place takes the value with it. -/
def receive (v : ν) : Stand κ ν ε → Stand κ ν ε
  | waiting k _ | loading k _ => served k v
  | s => s

/-- How a caller stands after it has looked its key up. -/
def ofArrival (k : κ) : Traffic.Arrival ν → Stand κ ν ε
  | .served v => served k v
  | .loads slot | .waits slot => waiting k slot

variable {s : Stand κ ν ε} {slot : Nat}

theorem waitsAt_iff : s.waitsAt slot = true ↔ ∃ k, s = waiting k slot := by
  cases s <;> simp [waitsAt]

theorem place?_of_over (ended : s.isOver = true) : s.place? = none := by
  cases s <;> first | rfl | cases ended

end Stand

namespace Hub

/-- What happens at a cache. What cannot happen as things stand has no effect. -/
inductive Move (κ ν ε : Type)
  | lookUp (caller : Nat) (k : κ)
  | begin (caller : Nat)
  | finish (caller : Nat) (outcome : Except ε ν)
  /-- The cache is asked for a value that is not to be loaded. -/
  | get (k : κ)
  | insert (k : κ) (v : ν)
  /-- Also stands for an eviction, by whatever rule. -/
  | remove (k : κ)
  | clear

def Move.caller? : Move κ ν ε → Option Nat
  | lookUp i _ | begin i | finish i _ => some i
  | _ => none

def new (capacity : Nat) : Hub κ ν ε := { traffic := { cache := .ofCapacity capacity } }

abbrev cache (h : Hub κ ν ε) : Cache κ ν := h.traffic.cache

abbrev flights (h : Hub κ ν ε) : List Flight := h.traffic.flights

def withCache (h : Hub κ ν ε) (cache : Cache κ ν) : Hub κ ν ε :=
  { h with traffic := { h.traffic with cache } }

/-- Those who wait at a place, in order of arrival. -/
def line (h : Hub κ ν ε) (slot : Nat) : List Nat :=
  h.arrived.filter fun i => (h.stand i).waitsAt slot

/-- The load of the place is up to this caller, and has not begun. -/
def isTurn (h : Hub κ ν ε) (caller slot : Nat) : Bool :=
  h.flights.any fun f => f.slot = slot && f.loader = caller && !f.running

/-- A load has ended: its value goes to all who are at the place, a failure to the loader alone. -/
def settle (h : Hub κ ν ε) (caller : Nat) (k : κ) (slot : Nat) : Except ε ν → Hub κ ν ε
  | .ok v =>
    let (callers, traffic) := h.traffic.succeed slot v
    { h with traffic, stand := fun j => if j ∈ callers then (h.stand j).receive v else h.stand j }
  | .error e =>
    { h with
      traffic := h.traffic.fail slot
      stand := Function.update h.stand caller (.failed k e) }

variable [DecidableEq κ] [Hashed κ]

def arrive (h : Hub κ ν ε) (caller : Nat) (k : κ) : Hub κ ν ε :=
  let (arrival, traffic) := h.traffic.lookUp caller k
  { traffic
    stand := Function.update h.stand caller (.ofArrival k arrival)
    arrived := h.arrived ++ [caller] }

def step (h : Hub κ ν ε) : Move κ ν ε → Hub κ ν ε
  | .lookUp i k =>
    match h.stand i with
    | .away => h.arrive i k
    | _ => h
  | .begin i =>
    match h.stand i with
    | .waiting k slot =>
      if h.isTurn i slot then
        { h with
          traffic := h.traffic.begin slot
          stand := Function.update h.stand i (.loading k slot) }
      else h
    | _ => h
  | .finish i outcome =>
    match h.stand i with
    | .loading k slot => h.settle i k slot outcome
    | _ => h
  | .get k => h.withCache (h.cache.get k).2
  | .insert k v => h.withCache (h.cache.insert k v)
  | .remove k => h.withCache (h.cache.remove k)
  | .clear => h.withCache h.cache.clear

def run (h : Hub κ ν ε) (moves : List (Move κ ν ε)) : Hub κ ν ε := moves.foldl step h

end Hub

section Shifts

namespace Cache

variable {c d : Cache κ ν} {k : κ}

/-- From the one cache to the other places are lost and moved, and at most one is new, in the slot that
was next. -/
structure Shifts (c d : Cache κ ν) : Prop where
  slots : c.nextSlot ≤ d.nextSlot
  places : ∀ p ∈ d.places, p ∈ c.places ∨ p.slot = c.nextSlot ∧ c.nextSlot < d.nextSlot
  sound : c.Sound → d.Sound

theorem Shifts.of_subset (hp : d.places ⊆ c.places) (hn : d.nextSlot = c.nextSlot) : c.Shifts d :=
  ⟨Nat.le_of_eq hn.symm, fun _ h => .inl (hp h), fun sound => sound.of_subset hp hn⟩

variable [DecidableEq κ] [Hashed κ]

theorem shifts_put {p : Place κ ν} (hp : p ∈ c.places) : c.Shifts (c.put p) :=
  .of_subset (fun _ hq => (List.mem_cons.mp (Holds.put_subset p hq)).elim (· ▸ hp) id) rfl

theorem shifts_add (value : Option ν) :
    c.Shifts { c.put ⟨k, c.nextSlot, value⟩ with nextSlot := c.nextSlot + 1 } where
  slots := Nat.le_succ _
  places _ hq := (List.mem_cons.mp (Holds.put_subset _ hq)).elim
    (fun same => .inr ⟨same ▸ rfl, Nat.lt_succ_self _⟩) .inl
  sound sound := sound.add fun _ _ => trivial

theorem shifts_acquire (c : Cache κ ν) (k : κ) : c.Shifts (c.acquire k).2 := by
  obtain ⟨p, hp, -, acquired⟩ | ⟨-, acquired⟩ := c.acquire_cases k <;> rw [acquired]
  · exact shifts_put hp
  · exact shifts_add none

theorem shifts_get (c : Cache κ ν) (k : κ) : c.Shifts (c.get k).2 := by
  rw [get]
  cases hp : c.find? k with
  | none => exact .of_subset (List.Subset.refl _) rfl
  | some p => exact shifts_put (Holds.find?_some hp).1

end Cache

end Shifts

namespace Traffic

variable [DecidableEq κ] [Hashed κ] {t : Traffic κ ν} {k : κ}

theorem lookUp_served {v : ν} (caller : Nat) (h : (t.cache.acquire k).1.value = some v) :
    t.lookUp caller k = (.served v, ⟨(t.cache.acquire k).2, t.flights⟩) := by
  simp only [lookUp, h]

/-- Without a value there the caller goes to the end of the line, which may be empty. -/
theorem lookUp_empty (caller : Nat) (h : (t.cache.acquire k).1.value = none) :
    ∃ arrival, t.lookUp caller k = (arrival, ⟨(t.cache.acquire k).2,
        Flight.join t.flights (t.cache.acquire k).1.slot caller⟩) ∧
      (Stand.ofArrival k arrival : Stand κ ν ε) = .waiting k (t.cache.acquire k).1.slot := by
  simp only [lookUp, h]
  rw [Flight.join, ← Flight.at?]
  cases Flight.at? t.flights (t.cache.acquire k).1.slot with
  | none => exact ⟨.loads _, rfl, rfl⟩
  | some f => exact ⟨.waits _, rfl, rfl⟩

end Traffic

namespace Hub

variable [DecidableEq κ] [Hashed κ] {h h' : Hub κ ν ε} {m : Move κ ν ε} {i j : Nat} {k : κ}

/-- All that a move can do. -/
inductive Happens (h : Hub κ ν ε) : Move κ ν ε → Hub κ ν ε → Prop
  | nothing (m : Move κ ν ε) : Happens h m h
  | shifts {m : Move κ ν ε} {cache : Cache κ ν} : m.caller? = none → h.cache.Shifts cache →
      Happens h m (h.withCache cache)
  | served {i : Nat} {k : κ} {v : ν} : h.stand i = .away → (h.cache.acquire k).1.value = some v →
      Happens h (.lookUp i k) ⟨⟨(h.cache.acquire k).2, h.flights⟩,
        Function.update h.stand i (.served k v), h.arrived ++ [i]⟩
  | joins {i : Nat} {k : κ} : h.stand i = .away → (h.cache.acquire k).1.value = none →
      Happens h (.lookUp i k) ⟨⟨(h.cache.acquire k).2,
          Flight.join h.flights (h.cache.acquire k).1.slot i⟩,
        Function.update h.stand i (.waiting k (h.cache.acquire k).1.slot), h.arrived ++ [i]⟩
  | begins {i : Nat} {k : κ} {slot : Nat} : h.stand i = .waiting k slot → h.isTurn i slot = true →
      Happens h (.begin i) { h with
        traffic := h.traffic.begin slot
        stand := Function.update h.stand i (.loading k slot) }
  | succeeds {i : Nat} {k : κ} {slot : Nat} {v : ν} : h.stand i = .loading k slot →
      Happens h (.finish i (.ok v)) (h.settle i k slot (.ok v))
  | fails {i : Nat} {k : κ} {slot : Nat} {e : ε} : h.stand i = .loading k slot →
      Happens h (.finish i (.error e)) (h.settle i k slot (.error e))

theorem arrive_served {v : ν} (i : Nat) (hv : (h.cache.acquire k).1.value = some v) :
    h.arrive i k = ⟨⟨(h.cache.acquire k).2, h.flights⟩,
      Function.update h.stand i (.served k v), h.arrived ++ [i]⟩ := by
  rw [arrive, Traffic.lookUp_served i hv]
  rfl

theorem arrive_empty (i : Nat) (hv : (h.cache.acquire k).1.value = none) :
    h.arrive i k = ⟨⟨(h.cache.acquire k).2, Flight.join h.flights (h.cache.acquire k).1.slot i⟩,
      Function.update h.stand i (.waiting k (h.cache.acquire k).1.slot), h.arrived ++ [i]⟩ := by
  obtain ⟨arrival, found, waiting⟩ := Traffic.lookUp_empty (ε := ε) i hv
  rw [arrive, found]
  dsimp only
  rw [waiting]

theorem happens (h : Hub κ ν ε) (m : Move κ ν ε) : h.Happens m (h.step m) := by
  cases m with
  | lookUp i k =>
    rw [step]
    split
    · rename_i hi
      cases hv : (h.cache.acquire k).1.value with
      | some v =>
        rw [arrive_served i hv]
        exact .served hi hv
      | none =>
        rw [arrive_empty i hv]
        exact .joins hi hv
    · exact .nothing _
  | begin i =>
    rw [step]
    split
    · rename_i k slot hi
      split
      · rename_i turn
        exact .begins hi turn
      · exact .nothing _
    · exact .nothing _
  | finish i outcome =>
    rw [step]
    split
    · rename_i k slot hi
      cases outcome with
      | ok v => exact .succeeds hi
      | error e => exact .fails hi
    · exact .nothing _
  | get k => exact .shifts rfl (h.cache.shifts_get k)
  | insert k v => exact .shifts rfl (Cache.shifts_add (some v))
  | remove k => exact .shifts rfl (.of_subset List.filter_sublist.subset rfl)
  | clear => exact .shifts rfl (.of_subset (List.nil_subset _) rfl)

theorem run_append (h : Hub κ ν ε) (ms ms' : List (Move κ ν ε)) :
    h.run (ms ++ ms') = (h.run ms).run ms' := List.foldl_append

/-- What the moves of a run keep is so at its end. -/
theorem run_induction {P : Hub κ ν ε → Prop} {ms : List (Move κ ν ε)} (start : P h)
    (step : ∀ h, ∀ m ∈ ms, P h → P (h.step m)) : P (h.run ms) := by
  induction ms generalizing h with
  | nil => exact start
  | cons m ms ih =>
    exact ih (step h m List.mem_cons_self start) fun h m hm => step h m (List.mem_cons_of_mem _ hm)

section Turns

/-- All that a move can do to how one caller stands. -/
inductive Turns (h : Hub κ ν ε) : Stand κ ν ε → Stand κ ν ε → Prop
  | stays (s : Stand κ ν ε) : Turns h s s
  | served {k : κ} (v : ν) : Turns h .away (.served k v)
  | joins {k : κ} : (h.cache.acquire k).1.value = none →
      Turns h .away (.waiting k (h.cache.acquire k).1.slot)
  | begins (k : κ) (slot : Nat) : Turns h (.waiting k slot) (.loading k slot)
  | answered {s s' : Stand κ ν ε} : s.place?.isSome = true → s'.isOver = true → Turns h s s'

theorem Happens.turns (made : h.Happens m h') (j : Nat) : h.Turns (h.stand j) (h'.stand j) := by
  have update {i : Nat} {s : Stand κ ν ε} (turns : h.Turns (h.stand i) s) :
      h.Turns (h.stand j) (Function.update h.stand i s j) := by
    rw [Function.update_apply]
    split
    · rename_i same
      exact same ▸ turns
    · exact .stays _
  cases made with
  | nothing | shifts => exact .stays _
  | served hi => exact update (hi ▸ .served _)
  | joins hi hv => exact update (hi ▸ .joins hv)
  | begins hi => exact update (hi ▸ .begins _ _)
  | fails hi => exact update (hi ▸ .answered rfl rfl)
  | @succeeds i k t v hi =>
    show h.Turns (h.stand j) (if _ then (h.stand j).receive v else h.stand j)
    split
    · cases h.stand j <;> first | exact .stays _ | exact .answered rfl rfl
    · exact .stays _

variable {s s' : Stand κ ν ε}

/-- A caller is where it was, or has just come. -/
theorem Turns.place (turns : h.Turns s s') {t : Nat} (hs' : s'.place? = some (k, t)) :
    s.place? = some (k, t) ∨ s = .away ∧ (h.cache.acquire k).1.value = none ∧
      t = (h.cache.acquire k).1.slot := by
  cases turns with
  | stays | begins => exact .inl hs'
  | served => cases hs'
  | joins hv =>
    cases hs'
    exact .inr ⟨rfl, hv, rfl⟩
  | answered _ ended =>
    rw [Stand.place?_of_over ended] at hs'
    cases hs'

/-- Nobody leaves without an answer. -/
theorem Turns.came (turns : h.Turns s s') (hs : s ≠ .away) : s' ≠ .away := by
  cases turns with
  | stays => exact hs
  | answered _ ended =>
    rintro rfl
    cases ended
  | _ => nofun

theorem Turns.ended (turns : h.Turns s s') (ended : s.isOver = true) : s' = s := by
  cases turns with
  | stays => rfl
  | answered present _ =>
    rw [Stand.place?_of_over ended] at present
    cases present
  | _ => cases ended

end Turns

/-- A place is one that was there, and is not emptied, or has the slot that was next. -/
theorem Happens.origin (made : h.Happens m h') : h.cache.nextSlot ≤ h'.cache.nextSlot ∧
    ∀ p ∈ h'.cache.places, (∃ q ∈ h.cache.places, q.slot = p.slot ∧ (q.value ≠ none → p.value ≠ none)) ∨
      p.slot = h.cache.nextSlot := by
  have shifted {cache : Cache κ ν} (hc : h.cache.Shifts cache) :
      h.cache.nextSlot ≤ cache.nextSlot ∧ ∀ p ∈ cache.places,
        (∃ q ∈ h.cache.places, q.slot = p.slot ∧ (q.value ≠ none → p.value ≠ none)) ∨
          p.slot = h.cache.nextSlot :=
    ⟨hc.slots, fun p hp => (hc.places p hp).imp (fun old => ⟨p, old, rfl, id⟩) And.left⟩
  have same : h.cache.Shifts h.cache := .of_subset (List.Subset.refl _) rfl
  cases made with
  | nothing | begins | fails => exact shifted same
  | shifts _ hc => exact shifted hc
  | served | joins => exact shifted (h.cache.shifts_acquire _)
  | @succeeds i k t v hi =>
    refine ⟨Nat.le_refl _, fun p hp => .inl ?_⟩
    obtain ⟨q, hq, rfl⟩ := List.mem_map.mp hp
    refine ⟨q, hq, ?_⟩
    split <;> simp

end Hub
end WideColumn
