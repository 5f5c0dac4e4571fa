import Mathlib.Data.List.Forall2

/-!
Outcomes that are not errors: what the steps of a computation gave if the whole gave something.
-/
namespace WideColumn.Outcome

variable {ε α β : Type}

theorem bind_eq_ok {x : Except ε α} {f : α → Except ε β} {r : β} :
    x >>= f = .ok r ↔ ∃ a, x = .ok a ∧ f a = .ok r := by
  cases x with
  | error e => simp [bind, Except.bind]
  | ok a => simp [bind, Except.bind]

theorem bind_eq_error {x : Except ε α} {f : α → Except ε β} {e : ε} :
    x >>= f = .error e ↔ x = .error e ∨ ∃ a, x = .ok a ∧ f a = .error e := by
  cases x with
  | error e => simp [bind, Except.bind]
  | ok a => simp [bind, Except.bind]

theorem pure_eq_ok {a r : α} : (pure a : Except ε α) = .ok r ↔ a = r := by
  simp [pure, Except.pure]

/-- A list of results has one for each member, in order. -/
theorem forall₂_mapM {f : α → Except ε β} {xs : List α} {ys : List β}
    (h : xs.mapM f = .ok ys) : List.Forall₂ (fun x y => f x = .ok y) xs ys := by
  induction xs generalizing ys with
  | nil =>
    simp only [List.mapM_nil, pure_eq_ok] at h
    subst h
    exact .nil
  | cons x xs ih =>
    simp only [List.mapM_cons, bind_eq_ok, pure_eq_ok] at h
    obtain ⟨y, hy, ys, hys, rfl⟩ := h
    exact .cons hy (ih hys)

theorem mapM_of_forall₂ {f : α → Except ε β} {xs : List α} {ys : List β}
    (h : List.Forall₂ (fun x y => f x = .ok y) xs ys) : xs.mapM f = .ok ys := by
  induction h with
  | nil => rfl
  | cons hy _ ih => rw [List.mapM_cons, hy, ih]; rfl

theorem exists_mapM {f : α → Except ε β} {xs : List α} (h : ∀ x ∈ xs, ∃ y, f x = .ok y) :
    ∃ ys, xs.mapM f = .ok ys := by
  induction xs with
  | nil => exact ⟨[], rfl⟩
  | cons x xs ih =>
    obtain ⟨⟨y, hy⟩, others⟩ := List.forall_mem_cons.mp h
    obtain ⟨ys, hys⟩ := ih others
    exact ⟨y :: ys, by rw [List.mapM_cons, hy, hys]; rfl⟩

/-- Without a list of results some member has none either. -/
theorem of_mapM_error {f : α → Except ε β} {xs : List α} {e : ε}
    (h : xs.mapM f = .error e) : ∃ x ∈ xs, f x = .error e := by
  induction xs with
  | nil => cases h
  | cons x xs ih =>
    rw [List.mapM_cons] at h
    cases hx : f x with
    | error e' =>
      rw [hx] at h
      cases h
      exact ⟨x, List.mem_cons_self, hx⟩
    | ok y =>
      cases hxs : xs.mapM f with
      | error e' =>
        rw [hx, hxs] at h
        cases h
        obtain ⟨x', member, he⟩ := ih hxs
        exact ⟨x', List.mem_cons_of_mem _ member, he⟩
      | ok ys =>
        rw [hx, hxs] at h
        cases h

/-- Each member has its counterpart. -/
theorem exists_of_forall₂ {R : α → β → Prop} {xs : List α} {ys : List β} (h : List.Forall₂ R xs ys) {x : α}
    (hx : x ∈ xs) : ∃ y ∈ ys, R x y := by
  induction h with
  | nil => cases hx
  | cons hr _ ih =>
    obtain rfl | hx := List.mem_cons.mp hx
    · exact ⟨_, List.mem_cons_self, hr⟩
    · obtain ⟨y, hy, hr⟩ := ih hx
      exact ⟨y, List.mem_cons_of_mem _ hy, hr⟩

/-- Lists with the same results have members with the same results, in order. -/
theorem shared_of_forall₂ {α' : Type} {R : α → β → Prop} {R' : α' → β → Prop} {xs : List α}
    {xs' : List α'} {ys : List β} (h : List.Forall₂ R xs ys) (h' : List.Forall₂ R' xs' ys) :
    List.Forall₂ (fun x x' => ∃ y, R x y ∧ R' x' y) xs xs' := by
  induction h generalizing xs' with
  | nil =>
    cases h'
    exact .nil
  | cons made _ ih =>
    cases h' with
    | cons made' rest => exact .cons ⟨_, made, made'⟩ (ih rest)

/-- Results that agree member by member are the same. -/
theorem eq_of_forall₂ {α' : Type} {R : α → β → Prop} {R' : α' → β → Prop} {xs : List α}
    {xs' : List α'} {ys ys' : List β} (h : List.Forall₂ R xs ys) (h' : List.Forall₂ R' xs' ys')
    (each : List.Forall₂ (fun x x' => ∀ y y', R x y → R' x' y' → y = y') xs xs') : ys = ys' := by
  induction each generalizing ys ys' with
  | nil =>
    cases h
    cases h'
    rfl
  | cons same _ ih =>
    cases h with
    | cons made rest =>
      cases h' with
      | cons made' rest' => rw [same _ _ made made', ih rest rest']

/-- What holds of any two members holds of any two results, if the one says the same as the other. -/
theorem pairwise_iff_of_forall₂ {R : α → β → Prop} {P : α → α → Prop} {Q : β → β → Prop} {xs : List α}
    {ys : List β} (h : List.Forall₂ R xs ys)
    (same : ∀ x y x' y', R x y → R x' y' → (P x x' ↔ Q y y')) : xs.Pairwise P ↔ ys.Pairwise Q := by
  induction h with
  | nil => simp
  | @cons x y xs ys made rest ih =>
    rw [List.pairwise_cons, List.pairwise_cons, ih]
    refine and_congr_left' ⟨fun each y' hy => ?_, fun each x' hx => ?_⟩
    · obtain ⟨x', hx, made'⟩ := exists_of_forall₂ rest.flip hy
      exact (same _ _ _ _ made made').mp (each x' hx)
    · obtain ⟨y', hy, made'⟩ := exists_of_forall₂ rest hx
      exact (same _ _ _ _ made made').mpr (each y' hy)

/-- What the counterparts come to is what the members come to. -/
theorem map_eq_of_forall₂ {γ : Type} {f : α → γ} {g : β → γ} {xs : List α} {ys : List β}
    (h : List.Forall₂ (fun x y => g y = f x) xs ys) : ys.map g = xs.map f := by
  induction h with
  | nil => rfl
  | cons same _ ih => rw [List.map_cons, List.map_cons, same, ih]

/-- Each member of a list of results is the result for some member. -/
theorem of_mem_mapM {f : α → Except ε β} {xs : List α} {ys : List β} (h : xs.mapM f = .ok ys)
    {y : β} (hy : y ∈ ys) : ∃ x ∈ xs, f x = .ok y :=
  exists_of_forall₂ (R := fun y x => f x = .ok y) (forall₂_mapM h).flip hy

/-- Each member has its result in the list of results. -/
theorem exists_of_mapM {f : α → Except ε β} {xs : List α} {ys : List β} (h : xs.mapM f = .ok ys) {x : α}
    (hx : x ∈ xs) : ∃ y ∈ ys, f x = .ok y :=
  exists_of_forall₂ (forall₂_mapM h) hx

theorem mem_mapM_iff {f : α → Except ε β} {xs : List α} {ys : List β} (h : xs.mapM f = .ok ys)
    {y : β} : y ∈ ys ↔ ∃ x ∈ xs, f x = .ok y := by
  constructor
  · exact of_mem_mapM h
  · rintro ⟨x, hx, hy⟩
    obtain ⟨y', hy', same⟩ := exists_of_mapM h hx
    obtain rfl : y = y' := Except.ok.inj (hy.symm.trans same)
    exact hy'

/-- If each member comes back from its result, so does the whole list. -/
theorem exists_mapM_inverse {δ ι : Type} {f : α → Except ε β} {g : ι → β → Except δ α} {xs : List α}
    (h : ∀ x ∈ xs, ∃ y, f x = .ok y ∧ ∀ i, g i y = .ok x) :
    ∃ ys, xs.mapM f = .ok ys ∧ ∀ i, ys.mapM (g i) = .ok xs := by
  induction xs with
  | nil => exact ⟨[], rfl, fun _ => rfl⟩
  | cons x xs ih =>
    obtain ⟨⟨y, hy, back⟩, others⟩ := List.forall_mem_cons.mp h
    obtain ⟨ys, hys, backs⟩ := ih others
    refine ⟨y :: ys, ?_, fun i => ?_⟩
    · rw [List.mapM_cons, hy, hys]
      rfl
    · rw [List.mapM_cons, back i, backs i]
      rfl

/-- The same members in another order have the same results in another order. -/
theorem mapM_rearranged {f : α → Except ε β} {xs xs' : List α} {ys : List β} (h : xs.mapM f = .ok ys)
    (same : ∀ x, x ∈ xs' ↔ x ∈ xs) : ∃ ys', xs'.mapM f = .ok ys' ∧ ∀ y, y ∈ ys' ↔ y ∈ ys := by
  have each : ∀ x ∈ xs', ∃ y, f x = .ok y := by
    intro x hx
    obtain ⟨y, -, hy⟩ := exists_of_mapM h ((same x).mp hx)
    exact ⟨y, hy⟩
  obtain ⟨ys', h'⟩ := exists_mapM each
  refine ⟨ys', h', fun y => ?_⟩
  rw [mem_mapM_iff h, mem_mapM_iff h']
  simp only [same]

end WideColumn.Outcome
