import Mathlib.Data.List.DropRight
import WideColumn.Proofs.Cache.Holds
import WideColumn.Proofs.Engine.Events

/-!
What stands in the caches of an engine is what the store has answered since they were dropped last.
Whatever asks the store only when a cache has no value keeps this, and so do its results.
-/
namespace WideColumn

variable {σ : Type}

namespace World

variable {w v u : World σ} {es : List Event}

/-- What has happened since the caches were dropped last. -/
def recent (w : World σ) : List Event := w.events.rtakeWhile fun e => !e.isDrop

theorem recent_append (h : v.events = w.events ++ es) (he : ∀ e ∈ es, e.isDrop = false) :
    v.recent = w.recent ++ es := by
  have grow (past : List Event) :
      (past ++ es).rtakeWhile (fun e => !e.isDrop) = past.rtakeWhile (fun e => !e.isDrop) ++ es := by
    clear h
    induction es generalizing past with
    | nil => simp
    | cons e es ih =>
      obtain ⟨kept, rest⟩ := List.forall_mem_cons.mp he
      rw [List.append_cons, ih rest, List.rtakeWhile_concat_pos _ _ _ (by simp [kept]),
        List.append_assoc]
      rfl
  rw [recent, h, grow, recent]

theorem recent_of_events (h : v.events = w.events) : v.recent = w.recent := by
  rw [recent, h, recent]

/-- Each value in a cache is an answer of the store since the caches were dropped last. -/
structure Backed (w : World σ) : Prop where
  tables : w.catalog.tables.Holds fun id entry =>
    .describeTable id (.ok (some entry.table)) ∈ w.recent
  types : w.catalog.types.Holds fun name type => .describeType name (.ok (some type)) ∈ w.recent
  statements : w.statements.Holds fun text prepared => .prepare text (.ok prepared) ∈ w.recent

theorem Backed.of_kept (h : w.Backed) (kept : w.CachesKept v) (grown : w.recent ⊆ v.recent) :
    v.Backed where
  tables := kept.tables ▸ h.tables.mono fun _ _ he => grown he
  types := kept.types ▸ h.types.mono fun _ _ he => grown he
  statements := kept.statements ▸ h.statements.mono fun _ _ he => grown he

theorem CachesEmpty.backed (h : v.CachesEmpty) : v.Backed where
  tables := .of_empty h.tables
  types := .of_empty h.types
  statements := .of_empty h.statements

/-- From the one world to the other the store has been asked questions, and nothing else has happened. -/
def Asked (w v : World σ) : Prop := ∃ es, v.events = w.events ++ es ∧ ∀ e ∈ es, e.isQuestion = true

namespace Asked

theorem of_events (h : v.events = w.events) : w.Asked v := ⟨[], by simp [h], by simp⟩

theorem trans (h : w.Asked v) (h' : v.Asked u) : w.Asked u := by
  obtain ⟨es, hes, asked⟩ := h
  obtain ⟨fs, hfs, asked'⟩ := h'
  exact ⟨es ++ fs, by rw [hfs, hes, List.append_assoc], List.forall_mem_append.mpr ⟨asked, asked'⟩⟩

theorem recent (h : w.Asked v) : ∃ es, v.events = w.events ++ es ∧ v.recent = w.recent ++ es ∧
    ∀ e ∈ es, e.isQuestion = true := by
  obtain ⟨es, events, asked⟩ := h
  refine ⟨es, events, recent_append events fun e he => ?_, asked⟩
  have question := asked e he
  cases e <;> first | rfl | cases question

theorem subset (h : w.Asked v) : w.recent ⊆ v.recent := by
  obtain ⟨es, -, recent, -⟩ := h.recent
  exact recent ▸ List.subset_append_left _ _

end Asked
end World

/-- What holds after some events holds after more of them. -/
def Lasting (P : List Event → Prop) : Prop := ∀ past later, P past → P (past ++ later)

theorem Lasting.mem (e : Event) : Lasting (e ∈ ·) := fun _ _ h => List.mem_append_left _ h

theorem Lasting.asked {P : List Event → Prop} (hP : Lasting P) {w v : World σ} (h : w.Asked v)
    (hw : P w.recent) : P v.recent := by
  obtain ⟨es, -, recent, -⟩ := h.recent
  exact recent ▸ hP _ es hw

namespace Op

variable {α β : Type} {P P' : List Event → Prop} {Q Q' : List Event → α → Prop}

/-- From backed caches the operation does nothing but ask, and leaves them backed. What it gives is what
the second condition says of the recent events, if they satisfy the first before. -/
def Asks (P : List Event → Prop) (x : Op σ α) (Q : List Event → α → Prop) : Prop :=
  ∀ w, w.Backed → P w.recent → w.Asked (x.run w).2 ∧ (x.run w).2.Backed ∧
    ∀ a, (x.run w).1 = .ok a → Q (x.run w).2.recent a

namespace Asks

theorem of_kept {x : Op σ α} (hx : ∀ w, w.CachesKept (x.run w).2 ∧ (x.run w).2.events = w.events)
    (hQ : ∀ w a, P w.recent → (x.run w).1 = .ok a → Q w.recent a) : Asks P x Q := by
  intro w backed hP
  obtain ⟨kept, events⟩ := hx w
  have same := World.recent_of_events events
  exact ⟨.of_events events, backed.of_kept kept (same ▸ List.Subset.refl _),
    fun a ha => same ▸ hQ w a hP ha⟩

theorem pure {a : α} (h : ∀ past, P past → Q past a) : Asks P (Pure.pure a : Op σ α) Q :=
  .of_kept (fun _ => ⟨⟨rfl, rfl, rfl⟩, rfl⟩) fun w _ hP ha => Except.ok.inj ha ▸ h w.recent hP

theorem throw {e : Error} : Asks P (MonadExcept.throw e : Op σ α) Q :=
  .of_kept (fun _ => ⟨⟨rfl, rfl, rfl⟩, rfl⟩) fun _ _ _ ha => by cases ha

theorem ofExcept {x : Except Error α} (h : ∀ past a, P past → x = .ok a → Q past a) :
    Asks P (Op.ofExcept x : Op σ α) Q := by
  cases x with
  | error e => exact .throw
  | ok a => exact .pure fun past hP => h past a hP rfl

theorem bind {R : List Event → β → Prop} {x : Op σ α} {k : α → Op σ β} (hx : Asks P x Q)
    (hk : ∀ a, Asks (Q · a) (k a) R) : Asks P (x >>= k) R := by
  intro w backed hP
  obtain ⟨asked, backed', hQ⟩ := hx w backed hP
  rcases run : x.run w with ⟨e | a, v⟩ <;> rw [run] at asked backed' hQ
  · rw [run_bind_error run]
    exact ⟨asked, backed', fun _ ha => by cases ha⟩
  · rw [run_bind_ok run]
    obtain ⟨asked', backed'', hR⟩ := hk a v backed' (hQ a rfl)
    exact ⟨asked.trans asked', backed'', hR⟩

theorem get_bind {k : World σ → Op σ α} (h : ∀ w, Asks (fun past => P past ∧ past = w.recent) (k w) Q) :
    Asks P (MonadState.get >>= k) Q := fun w backed hP => h w w backed ⟨hP, rfl⟩

end Asks
end Op
end WideColumn
