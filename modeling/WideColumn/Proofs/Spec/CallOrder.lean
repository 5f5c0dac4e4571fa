import WideColumn.Proofs.Collection.Commuting
import WideColumn.Spec.Write

/-!
The order in which a write is refined. It matters only among steps with a common target: all others can
be swapped, and so two orders of the same steps that agree for every target make the same write.
-/
namespace WideColumn.Write

/-- What steps are aimed at, as far as their order matters. -/
inductive Target
  | key (name : String)
  | conditions
  | value (column : String)
  | prepends (column : String)
  | appends (column : String)
  | listRemoves (column : String)
  | entry (column : String) (key : Value)
  | onlyIf
  | ttl
  deriving DecidableEq

/-- Members can be put into a set in any order, so steps that do just that have no target. -/
def Step.targets : Step → List Target
  | .key n _ => [.key n]
  | .condition _ => [.conditions]
  | .value n _ | .without n => [.value n]
  | .values es => es.map fun e => .value e.1
  | .addToSet _ _ | .removeFromSet _ _ | .ifNotExists => []
  | .prepend n _ => [.prepends n]
  | .append n _ => [.appends n]
  | .removeFromList n _ => [.listRemoves n]
  | .put n k _ => [.entry n k]
  | .onlyIf _ => [.onlyIf]
  | .ttl _ => [.ttl]

/-- The steps that are aimed at the target, in their order. -/
def aimedAt (t : Target) (steps : List Step) : List Step := steps.filter fun s => t ∈ s.targets

/-- The same steps in another order, which is the same one for each target. -/
structure Rearranged (steps steps' : List Step) : Prop where
  perm : steps.Perm steps'
  order : ∀ t, aimedAt t steps = aimedAt t steps'

section Swap

variable (w : Write) {a b : Step}

/-- Steps without a common target can be swapped. -/
theorem apply_comm (apart : ∀ t ∈ a.targets, t ∉ b.targets) :
    (w.apply a).apply b = (w.apply b).apply a := by
  have swapped : ∀ t ∈ b.targets, t ∉ a.targets := fun t ht hta => apart t hta ht
  have valued (es fs : List (String × Value))
      (apart : ∀ t ∈ (Step.values es).targets, t ∉ (Step.values fs).targets) :
      (w.apply (.values es)).apply (.values fs) = (w.apply (.values fs)).apply (.values es) :=
    congrArg (fun m => { w with values := m }) <| w.values.foldl_insert_foldl_comm fun e he f hf same =>
      apart (.value e.1) (List.mem_map_of_mem he) (List.mem_map.mpr ⟨f, hf, congrArg _ same.symm⟩)
  have erased (n : String) (es : List (String × Value))
      (apart : ∀ t ∈ (Step.without n).targets, t ∉ (Step.values es).targets) :
      (w.apply (.values es)).apply (.without n) = (w.apply (.without n)).apply (.values es) :=
    congrArg (fun m => { w with values := m }) <| w.values.erase_foldl_comm fun e he same =>
      apart (.value n) List.mem_cons_self (List.mem_map.mpr ⟨e, he, congrArg _ same.symm⟩)
  -- steps of different sorts change different parts of the write, but for those that set plain values
  cases a <;> cases b <;> try rfl
  case key.key n x m y =>
    exact congrArg (fun m => { w with keys := m })
      (w.keys.insert_comm (by simpa [Step.targets] using apart) x y)
  case condition.condition => simp [Step.targets] at apart
  case value.value n x m y => exact valued [(n, x)] [(m, y)] apart
  case value.values n x es => exact valued [(n, x)] es apart
  case value.without n x m => exact erased m [(n, x)] swapped
  case values.value es n x => exact valued es [(n, x)] apart
  case values.values es fs => exact valued es fs apart
  case values.without es n => exact erased n es swapped
  case without.value n m x => exact (erased n [(m, x)] apart).symm
  case without.values n es => exact (erased n es apart).symm
  case without.without n m => exact congrArg (fun m => { w with values := m }) (w.values.erase_comm n m)
  case addToSet.addToSet n x m y =>
    refine congrArg (fun adds => { w with setAdds := adds }) (w.setAdds.update_comm ?_)
    exact fun _ o => SortedSet.insert_comm _ x y
  case removeFromSet.removeFromSet n x m y =>
    refine congrArg (fun removes => { w with setRemoves := removes }) (w.setRemoves.update_comm ?_)
    exact fun _ o => SortedSet.insert_comm _ x y
  case prepend.prepend n x m y =>
    refine congrArg (fun prepends => { w with listPrepends := prepends }) (w.listPrepends.update_comm ?_)
    exact fun same => absurd same (by simpa [Step.targets] using apart)
  case append.append n x m y =>
    refine congrArg (fun appends => { w with listAppends := appends }) (w.listAppends.update_comm ?_)
    exact fun same => absurd same (by simpa [Step.targets] using apart)
  case removeFromList.removeFromList n x m y =>
    refine congrArg (fun removes => { w with listRemoves := removes }) (w.listRemoves.update_comm ?_)
    exact fun same => absurd same (by simpa [Step.targets] using apart)
  case put.put n j x m k y =>
    have entries (same : n = m) (o : Option (SortedMap Value Value)) :
        ((o.getD .empty).insert j x).insert k y = ((o.getD .empty).insert k y).insert j x :=
      (o.getD .empty).insert_comm (by simpa [Step.targets, same] using apart) x y
    exact congrArg (fun puts => { w with mapPuts := puts })
      (w.mapPuts.update_comm (f := fun o => (o.getD .empty).insert j x)
        (g := fun o => (o.getD .empty).insert k y) entries)
  case onlyIf.onlyIf => simp [Step.targets] at apart
  case ttl.ttl => simp [Step.targets] at apart

/-- A step can be made before others that it has no target in common with. -/
theorem applyAll_apply {front : List Step} (apart : ∀ r ∈ front, ∀ t ∈ a.targets, t ∉ r.targets) :
    (w.applyAll front).apply a = (w.apply a).applyAll front := by
  induction front generalizing w with
  | nil => rfl
  | cons r front ih =>
    obtain ⟨first, rest⟩ := List.forall_mem_cons.mp apart
    calc (w.applyAll (r :: front)).apply a
        = ((w.apply r).applyAll front).apply a := rfl
      _ = ((w.apply r).apply a).applyAll front := ih (w.apply r) rest
      _ = ((w.apply a).apply r).applyAll front := by rw [w.apply_comm first]
      _ = (w.apply a).applyAll (r :: front) := rfl

end Swap

section Rearrangement

variable {s r : Step} {t : Target} {front back steps steps' : List Step}

theorem aimedAt_append (t : Target) (front back : List Step) :
    aimedAt t (front ++ back) = aimedAt t front ++ aimedAt t back := List.filter_append ..

theorem aimedAt_cons_of_mem (h : t ∈ s.targets) (steps : List Step) :
    aimedAt t (s :: steps) = s :: aimedAt t steps := List.filter_cons_of_pos (by simpa using h)

theorem aimedAt_cons_of_not_mem (h : t ∉ s.targets) (steps : List Step) :
    aimedAt t (s :: steps) = aimedAt t steps := List.filter_cons_of_neg (by simpa using h)

theorem aimedAt_eq_nil : aimedAt t steps = [] ↔ ∀ r ∈ steps, t ∉ r.targets := by
  simp [aimedAt]

/-- The first step of one order can be found in the other behind steps that it has no target in common
with, and what is left are again two orders of the same steps. -/
theorem Rearranged.uncons (h : Rearranged (s :: steps) steps') : ∃ front back,
    steps' = front ++ s :: back ∧ (∀ r ∈ front, ∀ t ∈ s.targets, t ∉ r.targets) ∧
      Rearranged steps (front ++ back) := by
  obtain ⟨front, back, rfl, fresh⟩ := List.eq_append_cons_of_mem (h.perm.subset List.mem_cons_self)
  -- of the steps aimed at a target of `s` the first is `s` itself, which is not in front
  have none (t : Target) (ht : t ∈ s.targets) : aimedAt t front = [] := by
    have order := h.order t
    rw [aimedAt_append, aimedAt_cons_of_mem ht] at order
    cases first : aimedAt t front with
    | nil => rfl
    | cons q qs =>
      rw [first, List.cons_append] at order
      obtain ⟨rfl, -⟩ := List.cons.inj order
      have member : s ∈ aimedAt t front := first ▸ List.mem_cons_self
      exact absurd ((List.mem_filter.mp member).1) fresh
  refine ⟨front, back, rfl, fun r hr t ht => aimedAt_eq_nil.mp (none t ht) r hr,
    (h.perm.trans List.perm_middle).cons_inv, fun t => ?_⟩
  have order := h.order t
  rw [aimedAt_append] at order ⊢
  by_cases ht : t ∈ s.targets
  · rw [none t ht, aimedAt_cons_of_mem ht, aimedAt_cons_of_mem ht] at order
    rw [none t ht]
    exact (List.cons.inj order).2
  · rwa [aimedAt_cons_of_not_mem ht, aimedAt_cons_of_not_mem ht] at order

/-- The order of steps with different targets makes no difference to the write. -/
theorem applyAll_rearranged (w : Write) (h : Rearranged steps steps') :
    w.applyAll steps = w.applyAll steps' := by
  induction steps generalizing w steps' with
  | nil =>
    obtain rfl := h.perm.nil_eq
    rfl
  | cons s steps ih =>
    obtain ⟨front, back, rfl, apart, rest⟩ := h.uncons
    calc w.applyAll (s :: steps)
        = (w.apply s).applyAll (front ++ back) := ih (w.apply s) rest
      _ = ((w.apply s).applyAll front).applyAll back := List.foldl_append
      _ = ((w.applyAll front).apply s).applyAll back := by rw [w.applyAll_apply apart]
      _ = (w.applyAll front).applyAll (s :: back) := rfl
      _ = w.applyAll (front ++ s :: back) := List.foldl_append.symm

/-- Two orders have to be compared only for targets that some step has. -/
theorem rearranged_iff : Rearranged steps steps' ↔
    steps.Perm steps' ∧ ∀ t ∈ steps.flatMap Step.targets, aimedAt t steps = aimedAt t steps' := by
  constructor
  · rintro ⟨perm, order⟩
    exact ⟨perm, fun t _ => order t⟩
  · rintro ⟨perm, order⟩
    refine ⟨perm, fun t => ?_⟩
    by_cases aimed : t ∈ steps.flatMap Step.targets
    · exact order t aimed
    · have none : ∀ r ∈ steps, t ∉ r.targets := by simpa using aimed
      rw [aimedAt_eq_nil.mpr none, aimedAt_eq_nil.mpr fun r hr => none r (perm.symm.subset hr)]

instance : Decidable (Rearranged steps steps') := decidable_of_iff _ rearranged_iff.symm

end Rearrangement
end WideColumn.Write
