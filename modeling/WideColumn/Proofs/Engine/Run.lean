import WideColumn.Engine.Compile
import WideColumn.Proofs.Cache.Holds
import WideColumn.Proofs.Outcome

/-!
Operations run step by step: each from the world that the one before it left.
-/
namespace WideColumn.Op

variable {σ α β : Type} {w w' : World σ}

@[simp] theorem run_pure (a : α) (w : World σ) : (pure a : Op σ α).run w = (.ok a, w) := rfl

@[simp] theorem run_throw (e : Error) (w : World σ) :
    (throw e : Op σ α).run w = (.error e, w) := rfl

@[simp] theorem run_get (w : World σ) : (get : Op σ (World σ)).run w = (.ok w, w) := rfl

@[simp] theorem run_set (v w : World σ) : (set v : Op σ PUnit).run w = (.ok ⟨⟩, v) := rfl

@[simp] theorem run_modify (f : World σ → World σ) (w : World σ) :
    (modify f : Op σ PUnit).run w = (.ok ⟨⟩, f w) := rfl

theorem run_ofExcept (x : Except Error α) (w : World σ) : (ofExcept x : Op σ α).run w = (x, w) := by
  cases x <;> rfl

/-- An action that cannot fail is an operation that succeeds. -/
theorem run_lift {x : StateM (World σ) α} {a : α} (h : x.run w = (a, w')) :
    (liftM x : Op σ α).run w = (.ok a, w') :=
  congrArg (fun p : α × World σ => (Except.ok p.1, p.2)) h

theorem run_bind (x : Op σ α) (f : α → Op σ β) (w : World σ) :
    (x >>= f).run w =
      match x.run w with
      | (.ok a, w') => (f a).run w'
      | (.error e, w') => (.error e, w') := by
  unfold Op.run ExceptT.run StateT.run Id.run
  simp only [bind, ExceptT.bind, ExceptT.mk, StateT.bind]
  cases x w with
  | mk outcome v => cases outcome <;> rfl

theorem run_bind_ok {x : Op σ α} {f : α → Op σ β} {a : α} (h : x.run w = (.ok a, w')) :
    (x >>= f).run w = (f a).run w' := by
  rw [run_bind, h]

theorem run_bind_error {x : Op σ α} {f : α → Op σ β} {e : Error} (h : x.run w = (.error e, w')) :
    (x >>= f).run w = (.error e, w') := by
  rw [run_bind, h]

/-- What is done about a failure starts from the world the failure left. -/
theorem run_tryCatch (x : Op σ α) (handle : Error → Op σ α) (w : World σ) :
    (tryCatch x handle).run w =
      match x.run w with
      | (.ok a, w') => (.ok a, w')
      | (.error e, w') => (handle e).run w' := by
  unfold Op.run ExceptT.run StateT.run Id.run
  simp only [tryCatch, tryCatchThe, MonadExceptOf.tryCatch, ExceptT.tryCatch, ExceptT.mk, bind, StateT.bind]
  cases x w with
  | mk outcome v => cases outcome <;> rfl

/-- An operation of two steps succeeds if both do, the second from where the first has left off. -/
theorem run_bind_eq_ok {x : Op σ α} {f : α → Op σ β} {r : β} :
    (x >>= f).run w = (.ok r, w') ↔
      ∃ a v, x.run w = (.ok a, v) ∧ (f a).run v = (.ok r, w') := by
  rw [run_bind]
  rcases x.run w with ⟨_ | _, v⟩
  · simp
  · constructor
    · intro h
      exact ⟨_, _, rfl, h⟩
    · rintro ⟨_, _, ⟨⟩, h⟩
      exact h

theorem run_bind_eq_error {x : Op σ α} {f : α → Op σ β} {e : Error} :
    (x >>= f).run w = (.error e, w') ↔
      x.run w = (.error e, w') ∨ ∃ a v, x.run w = (.ok a, v) ∧ (f a).run v = (.error e, w') := by
  rw [run_bind]
  rcases x.run w with ⟨_ | _, v⟩
  · simp
  · constructor
    · intro h
      exact Or.inr ⟨_, _, rfl, h⟩
    · rintro (h | ⟨_, _, ⟨⟩, h⟩)
      · cases h
      · exact h

/-- Looking at the store's answer about a table changes nothing. -/
theorem tableEntry_run (id : TableId) (answer : Except Fault (Option Table)) (w : World σ) :
    ∃ outcome, (tableEntry id answer).run w = (outcome, w) ∧
      ∀ entry, outcome = .ok entry → answer = .ok (some entry.table) ∧ entry.loadedAt = w.clock := by
  rcases answer with fault | _ | table
  · exact ⟨_, rfl, nofun⟩
  · exact ⟨_, rfl, nofun⟩
  · exact ⟨_, rfl, fun entry same => Except.ok.inj same ▸ ⟨rfl, rfl⟩⟩

theorem knownType_run (name : TypeName) (answer : Except Fault (Option UserType)) (w : World σ) :
    ∃ outcome, (knownType name answer).run w = (outcome, w) ∧
      ∀ type, outcome = .ok type → answer = .ok (some type) := by
  rcases answer with fault | _ | type
  · exact ⟨_, rfl, nofun⟩
  · exact ⟨_, rfl, nofun⟩
  · exact ⟨_, rfl, fun type same => Except.ok.inj same ▸ rfl⟩

/-- Serving an entry gives it out; only a refresh may be started. -/
theorem run_serve (entry : TableEntry) (w : World σ) : (serve entry).run w = (.ok entry,
    if entry.isExpired w.clock w.catalog.expiry then
      { w with catalog := w.catalog.startRefresh true } else w) := by
  rw [serve, run_bind_ok (run_get w)]
  cases entry.isExpired w.clock w.catalog.expiry <;> rfl

/-- How a value comes about: it is found, or its load fails, or it is loaded and kept. -/
inductive Got {κ ν : Type} [DecidableEq κ] [Hashed κ] (shelf : Shelf σ κ ν) (k : κ) (load : Op σ ν)
    (w : World σ) : Except Error ν × World σ → Prop
  | found {v : ν} : ((shelf.get w).acquire k).1.value = some v →
      Got shelf k load w (.ok v, shelf.set ((shelf.get w).acquire k).2 w)
  | failed {e : Error} {u : World σ} : ((shelf.get w).acquire k).1.value = none →
      load.run (shelf.set ((shelf.get w).acquire k).2 w) = (.error e, u) →
      Got shelf k load w (.error e, u)
  | loaded {v : ν} {u : World σ} : ((shelf.get w).acquire k).1.value = none →
      load.run (shelf.set ((shelf.get w).acquire k).2 w) = (.ok v, u) →
      Got shelf k load w
        (.ok v, shelf.set ((shelf.get u).settle ((shelf.get w).acquire k).1.slot v) u)

/-- A value that is there is given out, and nothing is loaded. -/
theorem getOrLoad_found {κ ν : Type} [DecidableEq κ] [Hashed κ] {shelf : Shelf σ κ ν} {k : κ}
    {load : Op σ ν} {v : ν} (found : ((shelf.get w).acquire k).1.value = some v) :
    (getOrLoad shelf k load).run w = (.ok v, shelf.set ((shelf.get w).acquire k).2 w) := by
  rw [getOrLoad, run_bind_ok (run_get w), run_bind_ok (run_set _ w), found]
  rfl

theorem got {κ ν : Type} [DecidableEq κ] [Hashed κ] (shelf : Shelf σ κ ν) (k : κ) (load : Op σ ν)
    (w : World σ) : Got shelf k load w ((getOrLoad shelf k load).run w) := by
  cases hv : ((shelf.get w).acquire k).1.value with
  | some v =>
    rw [getOrLoad_found hv]
    exact .found hv
  | none =>
    rw [getOrLoad, run_bind_ok (run_get w), run_bind_ok (run_set _ w), hv]
    dsimp only
    rcases ran : load.run (shelf.set ((shelf.get w).acquire k).2 w) with ⟨e | v, u⟩
    · rw [run_bind_error ran]
      exact .failed hv ran
    · rw [run_bind_ok ran]
      exact .loaded hv ran

/-- A value that is got is that of a place of its key, or it has been loaded. -/
theorem getOrLoad_ok {κ ν : Type} [DecidableEq κ] [Hashed κ] {shelf : Shelf σ κ ν} {k : κ}
    {load : Op σ ν} {v : ν} (ran : (getOrLoad shelf k load).run w = (.ok v, w')) :
    (∃ p ∈ (shelf.get w).places, p.key = k ∧ p.value = some v) ∨
      ∃ u, load.run (shelf.set ((shelf.get w).acquire k).2 w) = (.ok v, u) := by
  have got := got shelf k load w
  rw [ran] at got
  generalize hr : (Except.ok v, w') = r at got
  cases got with
  | failed => cases hr
  | found value =>
    obtain ⟨⟨⟩, -⟩ := Prod.mk.inj hr
    obtain ⟨p, hp, key, acquired⟩ | ⟨-, acquired⟩ := (shelf.get w).acquire_cases k <;>
      rw [acquired] at value
    · exact .inl ⟨p, hp, key, value⟩
    · cases value
  | @loaded v u none ran =>
    obtain ⟨⟨⟩, -⟩ := Prod.mk.inj hr
    exact .inr ⟨u, ran⟩

end WideColumn.Op
