import WideColumn.Proofs.Cache.Shards
import WideColumn.Proofs.Engine.Course

/-!
A table that a refresh has before it. Its old places are going to be replaced or dropped, whatever else
goes on, if the refresh is not dropped itself and the store does not fail.
-/
namespace WideColumn

variable {σ : Type} {id : TableId} {told : Option Table} {mark : Nat} {o : Outlook σ}

/-- The refresh has come to the table and been told this, or has yet to come to it. -/
structure Visit.Covers (id : TableId) (told : Option Table) (v : Visit) : Prop where
  ahead : v.table = id ∨ id ∈ v.later
  answer : v.table = id → v.answer = .ok told

namespace Catalog

variable {c : Catalog}

/-- A refresh that begins has all expired entries before it. -/
theorem mem_stale {p : Place TableId TableEntry} {entry : TableEntry} {now : Nat}
    (hp : p ∈ c.tables.places) (value : p.value = some entry)
    (expired : entry.isExpired now c.expiry = true) : p.key ∈ c.stale now := by
  refine List.mem_map.mpr ⟨(p.key, entry), List.mem_filter.mpr ⟨?_, expired⟩, rfl⟩
  exact c.tables.loaded_perm.mem_iff.mpr (List.mem_filterMap.mpr ⟨p, hp, by rw [value]; rfl⟩)

end Catalog

namespace Engine

variable {e : Engine σ}

/-- The refresh is going to come to the place: the table is before it, or will be found expired when it
settles what it visits. -/
def ComesTo (e : Engine σ) (id : TableId) (told : Option Table) (p : Place TableId TableEntry) : Prop :=
  match e.visit with
  | some v => v.Covers id told
  | none => ∃ entry, p.value = some entry ∧ entry.isExpired e.world.clock e.catalog.expiry = true

/-- The store has answered the last question of the refresh. -/
def Answered (e : Engine σ) : Prop := ∀ v, e.visit = some v → ∃ known, v.answer = .ok known

instance (e : Engine σ) : Decidable e.Answered :=
  decidable_of_iff (e.visit.all (·.answer.isOk) = true) <| by
    rw [Answered]
    rcases e.visit with _ | ⟨_, answer, _⟩
    · exact ⟨fun _ => nofun, fun _ => rfl⟩
    · cases answer <;> simp [Except.isOk, Except.toBool]

/-- Places of the table below the mark are there only until the refresh comes to them. -/
structure Due (id : TableId) (told : Option Table) (mark : Nat) (e : Engine σ) : Prop where
  passed : mark ≤ e.catalog.tables.nextSlot
  old : ∀ p ∈ e.catalog.tables.places, p.key = id → p.slot < mark →
    e.catalog.refreshing = true ∧ e.ComesTo id told p

/-- No such place is left. -/
structure Renewed (id : TableId) (mark : Nat) (e : Engine σ) : Prop where
  passed : mark ≤ e.catalog.tables.nextSlot
  places : ∀ p ∈ e.catalog.tables.places, p.key = id → mark ≤ p.slot

/-- A refresh that has ended has come to all of them. -/
theorem Due.renewed (due : e.Due id told mark) (ended : e.catalog.refreshing = false) :
    e.Renewed id mark := by
  refine ⟨due.passed, fun p hp key => Nat.le_of_not_lt fun old => ?_⟩
  exact Bool.false_ne_true (ended.symm.trans (due.old p hp key old).1)

theorem Renewed.due (renewed : e.Renewed id mark) : e.Due id told mark :=
  ⟨renewed.passed, fun p hp key old => absurd old (Nat.not_lt.mpr (renewed.places p hp key))⟩

theorem Renewed.evolves {e' : Engine σ} (renewed : e.Renewed id mark)
    (h : e.catalog.tables.Evolves o.entry e'.catalog.tables) : e'.Renewed id mark := by
  refine ⟨Nat.le_trans renewed.passed h.slots, fun p hp key => ?_⟩
  cases h.places p hp with
  | kept there => exact renewed.places p there key
  | @filled q _ there => exact renewed.places q there key
  | new late => exact Nat.le_trans renewed.passed late

/-- What another step leaves of a place the refresh comes to, it still comes to. -/
theorem ComesTo.steps {e' : Engine σ} {p q : Place TableId TableEntry} (comes : e.ComesTo id told p)
    (steps : e.Steps o e') (same : ∀ entry, p.value = some entry → q.value = some entry) :
    e'.ComesTo id told q := by
  rw [ComesTo] at comes ⊢
  rw [steps.visit]
  cases hv : e.visit <;> rw [hv] at comes
  · obtain ⟨entry, value, expired⟩ := comes
    refine ⟨entry, same entry value, ?_⟩
    rw [TableEntry.isExpired, decide_eq_true_eq] at expired ⊢
    rw [steps.world.expiry]
    exact Nat.lt_of_lt_of_le expired (Nat.sub_le_sub_right steps.world.clock _)
  · exact comes

theorem Due.steps {e' : Engine σ} (due : e.Due id told mark) (steps : e.Steps o e') :
    e'.Due id told mark := by
  refine ⟨Nat.le_trans due.passed steps.world.tables.slots, fun p hp key old => ?_⟩
  cases steps.world.tables.places p hp with
  | kept there =>
    obtain ⟨flag, comes⟩ := due.old p there key old
    exact ⟨steps.world.flag flag, comes.steps steps fun _ value => value⟩
  | @filled q v there none =>
    obtain ⟨flag, comes⟩ := due.old q there key old
    exact ⟨steps.world.flag flag, comes.steps steps fun entry value => nomatch none.symm.trans value⟩
  | new late => exact absurd old (Nat.not_lt.mpr (Nat.le_trans due.passed late))

/-- Once the refresh has used what it was told about a table, only that is left of it. -/
theorem keepAnswer_places {v : Visit} {p : Place TableId TableEntry} (answer : v.answer = .ok told)
    (hp : p ∈ (e.keepAnswer v).catalog.tables.places) (key : p.key = v.table) :
    e.catalog.tables.nextSlot ≤ p.slot := by
  rw [Engine.keepAnswer, answer] at hp
  cases told with
  | none => simpa [key] using List.of_mem_filter hp
  | some table =>
    obtain rfl := Cache.eq_of_mem_put hp key
    exact Nat.le_refl _

variable [Store σ]

/-- A refresh that goes on to questions the table is among is going to come to it. -/
theorem visitNext_comes {ids : List TableId} (mem : id ∈ ids) (flag : e.catalog.refreshing = true)
    (true_told : ∀ known, (Store.describeTable id e.world.store).1 = .ok known → known = told)
    (answered : (e.visitNext ids).Answered)
    (p : Place TableId TableEntry) :
    (e.visitNext ids).catalog.refreshing = true ∧ (e.visitNext ids).ComesTo id told p := by
  cases ids with
  | nil => cases mem
  | cons i later =>
    refine ⟨flag, (List.mem_cons.mp mem).imp Eq.symm fun h => h, ?_⟩
    rintro rfl
    obtain ⟨known, answer⟩ := answered _ rfl
    exact answer.trans (congrArg Except.ok (true_told known answer))

/-- Each step of the refresh leaves the table before it, or nothing old of the table. -/
theorem Due.advance (due : e.Due id told mark)
    (evolves : e.catalog.tables.Evolves o.entry (e.step .advance).catalog.tables)
    (true_told : ∀ known, (Store.describeTable id e.world.store).1 = .ok known → known = told)
    (answered : (e.step .advance).Answered) :
    (e.step .advance).Due id told mark := by
  refine ⟨Nat.le_trans due.passed evolves.slots, fun p hp key old => ?_⟩
  obtain ⟨q, hq, qkey, qslot⟩ : ∃ q ∈ e.catalog.tables.places, q.key = p.key ∧ q.slot = p.slot := by
    cases evolves.places p hp with
    | kept there => exact ⟨p, there, rfl, rfl⟩
    | @filled q _ there => exact ⟨q, there, rfl, rfl⟩
    | new late => exact absurd old (Nat.not_lt.mpr (Nat.le_trans due.passed late))
  obtain ⟨flag, comes⟩ := due.old q hq (qkey.trans key) (qslot ▸ old)
  rw [step_advance] at hp answered ⊢
  rw [ComesTo] at comes
  cases hv : e.visit with
  | some v =>
    simp only [hv] at hp answered comes ⊢
    rw [visitNext_tables] at hp
    by_cases here : v.table = id
    · have fresh := keepAnswer_places (comes.answer here) hp (key.trans here.symm)
      exact absurd old (Nat.not_lt.mpr (Nat.le_trans due.passed fresh))
    · have flag' : (e.keepAnswer v).catalog.refreshing = true := by
        rw [← flag, Engine.keepAnswer]
        rcases v.answer with _ | _ | _ <;> rfl
      exact visitNext_comes (comes.ahead.resolve_left here) flag' true_told answered p
  | none =>
    simp only [hv, flag, if_true] at answered comes ⊢
    obtain ⟨entry, value, expired⟩ := comes
    have mem := Catalog.mem_stale hq value expired
    rw [qkey, key] at mem
    exact visitNext_comes mem flag true_told answered p

variable {moves : List (Move σ)}

/-- The table stays before the refresh, whatever is done, unless the refresh is dropped or is not
answered. -/
theorem Due.run (due : e.Due id told mark) (ho : o.Holds) (keeps : e.Keeps o)
    (after : ∀ taken, taken <+: moves → o.store (e.run taken).world.store) (undropped : .cut ∉ moves)
    (true_told : ∀ s known, o.store s → (Store.describeTable id s).1 = .ok known → known = told)
    (answered : ∀ taken, taken <+: moves → (e.run taken).Answered) : (e.run moves).Due id told mark := by
  refine run_induction due fun before m h due => ?_
  have kept := keeps.run ho fun taken h' => after taken (h'.trans ((List.prefix_append ..).trans h))
  have after := after _ h
  have answered := answered _ h
  rw [run_concat] at after answered ⊢
  by_cases refresh : m = .advance
  · subst refresh
    exact due.advance (kept.step ho .advance after).2 (fun known => true_told _ known kept.store) answered
  · have other : m ≠ .cut := by
      rintro rfl
      exact undropped (h.subset (List.mem_append_right _ List.mem_cons_self))
    exact due.steps ((e.run before).steps ho kept m ⟨refresh, other⟩ after)

/-- An old place does not come back. -/
theorem Renewed.run (renewed : e.Renewed id mark) (ho : o.Holds) (keeps : e.Keeps o)
    (after : ∀ taken, taken <+: moves → o.store (e.run taken).world.store) :
    (e.run moves).Renewed id mark := by
  refine run_induction renewed fun before m h renewed => ?_
  have kept := keeps.run ho fun taken h' => after taken (h'.trans ((List.prefix_append ..).trans h))
  have after := after _ h
  rw [run_concat] at after ⊢
  exact renewed.evolves (kept.step ho m after).2

end Engine
end WideColumn
