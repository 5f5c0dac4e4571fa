import WideColumn.Proofs.Engine.TextKey
import WideColumn.Proofs.Plan.Insertion
import WideColumn.Proofs.Statement.Clauses

/-!
What a mutation says about its rows and its conditions all comes out in its statement: none of its
restrictions, guards and columns is lost on the way.
-/
namespace WideColumn

open Outcome

namespace Binder

variable {b : Binder}

/-- The relation says what the clause says, its values in the form of the store. -/
inductive Becomes (b : Binder) : Clause → Relation → Prop
  | compare {column : String} {comparison : Comparison} {v : Value} {d : Datum} :
      b.bind column v = .ok d → Becomes b (.compare column comparison v) (.compare column comparison d)
  | isIn {column : String} {vs : List Value} {ds : List Datum} :
      vs ≠ [] → List.Forall₂ (fun v d => b.bind column v = .ok d) vs ds →
      Becomes b (.isIn column vs) (.isIn column ds)

/-- The relations are an equation for each key, by ascending name, then the conditions in order, and at
least one in total. -/
structure Restricts (b : Binder) (keys : SortedMap String Value) (conditions : List Clause)
    (rs : List Relation) : Prop where
  ascending : Ascending id keys.keys
  each : List.Forall₂ b.Becomes
    (keys.toList.map (fun key => .compare key.1 .eq key.2) ++ conditions) rs
  nonempty : rs ≠ []

theorem relation_becomes {c : Clause} {r : Relation} (h : b.relation c = .ok r) : b.Becomes c r := by
  cases c with
  | compare column comparison v =>
    simp only [relation, bind_eq_ok, pure_eq_ok] at h
    obtain ⟨d, hd, rfl⟩ := h
    exact .compare hd
  | isIn column vs =>
    rw [relation] at h
    split at h
    · cases h
    · rename_i some
      simp only [bind_eq_ok, pure_eq_ok] at h
      obtain ⟨ds, hds, rfl⟩ := h
      exact .isIn (fun none => some (List.isEmpty_iff.mpr none)) (forall₂_mapM hds)

theorem conditions_become {cs : List Clause} {rs : List Relation}
    (h : cs.mapM b.relation = .ok rs) : List.Forall₂ b.Becomes cs rs :=
  (forall₂_mapM h).imp fun _ _ => relation_becomes

theorem relations_become {keys : SortedMap String Value} {conditions : List Clause}
    {rs : List Relation} (h : b.relations keys conditions = .ok rs) : List.Forall₂ b.Becomes
      (keys.toList.map (fun key => .compare key.1 .eq key.2) ++ conditions) rs := by
  simp only [relations, bind_eq_ok, pure_eq_ok] at h
  obtain ⟨ks, hk, cs, hc, rfl⟩ := h
  have keyed : List.Forall₂ b.Becomes
      (keys.toList.map fun key => .compare key.1 .eq key.2) ks := by
    refine List.forall₂_map_left_iff.mpr ((forall₂_mapM hk).imp fun key r hr => ?_)
    simp only [keyRelation, bind_eq_ok, pure_eq_ok] at hr
    obtain ⟨d, hd, rfl⟩ := hr
    exact .compare hd
  exact List.rel_append keyed (conditions_become hc)

theorem relations_restrict {keys : SortedMap String Value} {conditions : List Clause}
    {rs : List Relation} (h : b.relations keys conditions = .ok rs)
    (aimed : keys.isEmpty = false ∨ conditions.isEmpty = false) :
    b.Restricts keys conditions rs := by
  have each := relations_become h
  refine ⟨keys.ascending_keys, each, fun none => ?_⟩
  rw [none, List.forall₂_nil_right_iff, List.append_eq_nil_iff, List.map_eq_nil_iff] at each
  rcases aimed with aimed | aimed
  · rw [SortedMap.isEmpty, each.1] at aimed
    cases aimed
  · rw [each.2] at aimed
    cases aimed

end Binder

/-- The statement does to the rows of the mutation, under the conditions of the mutation, what is to be
done, and its text says so. -/
def Mutation.Upheld (b : Binder) (k : Binding) (text : List Char) : Mutation → Statement → Prop
  | write w, .insert s =>
    w.conditions = [] ∧ w.onlyIf = [] ∧
      Ascending id (s.cells.map Prod.fst) ∧
      (∀ n, n ∈ s.cells.map Prod.fst ↔ n ∈ w.keys.keys ∨ n ∈ w.mutated) ∧
      text = "INSERT INTO ".toList ++ w.table.cql ++ " (".toList ++
        ", ".toList.intercalate ((s.cells.map Prod.fst).map Identifier.quote) ++
        ") VALUES (".toList ++
        ", ".toList.intercalate (s.cells.map fun c => (Piece.slot c.2).render k) ++ ")".toList ++
        (if w.ifNotExists then " IF NOT EXISTS".toList else []) ++ rendered k (ttlPieces s.ttl)
  | write w, .update s =>
    w.ifNotExists = false ∧ b.Restricts w.keys w.conditions s.relations ∧
      List.Forall₂ b.Becomes w.onlyIf s.onlyIf ∧
      text = rendered k s.head ++ whereText k s.relations ++ ifText k s.onlyIf
  | counter u, .counter s =>
    b.Restricts u.keys u.conditions s.relations ∧
      text = rendered k s.head ++ whereText k s.relations
  | delete d, .delete s =>
    b.Restricts d.keys d.conditions s.relations ∧ List.Forall₂ b.Becomes d.onlyIf s.onlyIf ∧
      (d.ifExists = true → d.onlyIf = []) ∧
      text = "DELETE FROM ".toList ++ d.table.cql ++ whereText k s.relations ++
        if d.ifExists then " IF EXISTS".toList else ifText k s.onlyIf
  | _, _ => False

section Plan

variable {b : Binder} {p : Plan}

/-- A write without conditions may become an insertion, and only one that is aimed at some rows becomes
an update. -/
theorem Write.plan_cases {w : Write} (hc : w.check = .ok ()) (h : w.plan b = .ok p) :
    (w.conditions = [] ∧ ∃ s, w.insertion b = .ok s ∧ p.statement = .insert s) ∨
      (w.ifNotExists = false ∧ (w.keys.isEmpty = false ∨ w.conditions.isEmpty = false) ∧
        ∃ s, w.rowUpdate b = .ok s ∧ p.statement = .update s) := by
  rw [plan] at h
  split at h
  · rename_i inserts
    simp only [bind_eq_ok, pure_eq_ok] at h
    obtain ⟨s, hs, rfl⟩ := h
    have anywhere : w.conditions.isEmpty = true := (Bool.and_eq_true_iff.mp inserts).1
    exact .inl ⟨List.isEmpty_iff.mp anywhere, s, hs, rfl⟩
  · rename_i updates
    simp only [updatePlan, bind_eq_ok, pure_eq_ok] at h
    obtain ⟨s, hs, rfl⟩ := h
    rw [check] at hc
    split at hc
    · cases hc
    rename_i compatible
    rw [isInsertion] at updates
    cases anywhere : w.conditions.isEmpty with
    | true =>
      simp only [anywhere, Bool.true_and, Bool.or_eq_true, not_or, Bool.not_eq_true] at updates
      exact .inr ⟨updates.1.1, .inl updates.1.2, s, hs, rfl⟩
    | false => exact .inr ⟨by simpa [anywhere] using compatible, .inr rfl, s, hs, rfl⟩

theorem Write.plan_upheld {w : Write} (hc : w.check = .ok ()) (h : w.plan b = .ok p) :
    (Mutation.write w).Upheld b p.binding (p.statement.render p.binding) p.statement := by
  obtain ⟨anywhere, s, hs, same⟩ | ⟨unguarded, aimed, s, hs, same⟩ := plan_cases hc h
  · obtain ⟨onlyIf, guard, ascending, names⟩ := insertion_names hs
    rw [same]
    refine ⟨anywhere, onlyIf, ascending, names, ?_⟩
    rw [← guard, ← (insertion_parts hs).1]
    exact s.rendered_pieces
  · obtain ⟨-, -, -, hr, hq⟩ := rowUpdate_parts hs
    rw [same]
    exact ⟨unguarded, Binder.relations_restrict hr aimed, Binder.conditions_become hq,
      s.rendered_pieces⟩

theorem CounterUpdate.plan_upheld {u : CounterUpdate} (hc : u.check = .ok ())
    (h : u.plan b = .ok p) :
    (Mutation.counter u).Upheld b p.binding (p.statement.render p.binding) p.statement := by
  rw [check] at hc
  split at hc
  · cases hc
  rename_i aimed
  simp only [plan, bind_eq_ok] at h
  obtain ⟨c, -, h⟩ := h
  split at h
  · cases h
  simp only [bind_eq_ok, pure_eq_ok] at h
  obtain ⟨rs, hr, rfl⟩ := h
  exact ⟨Binder.relations_restrict hr (by simpa [← Bool.not_eq_true, ← not_and_or] using aimed),
    CounterMove.rendered_pieces _⟩

theorem Deletion.plan_upheld {d : Deletion} (hc : d.check = .ok ()) (h : d.plan b = .ok p) :
    (Mutation.delete d).Upheld b p.binding (p.statement.render p.binding) p.statement := by
  rw [check] at hc
  split at hc
  · cases hc
  rename_i aimed
  split at hc
  · cases hc
  rename_i guarded
  simp only [plan, bind_eq_ok, pure_eq_ok] at h
  obtain ⟨rs, hr, qs, hq, rfl⟩ := h
  exact ⟨Binder.relations_restrict hr (by simpa [← Bool.not_eq_true, ← not_and_or] using aimed),
    Binder.conditions_become hq, by simpa using guarded, RowDelete.rendered_pieces _⟩

end Plan

variable {σ : Type} [Store σ] {w v : World σ}

/-- A compiled mutation has been checked, and planned against the metadata of its table. -/
theorem Mutation.compiled {m : Mutation} {ctx : Context} {c : Compiled}
    (h : (Op.compile (.mutation m) ctx).run w = (.ok c, v)) :
    ∃ b u, (Op.binder m.table).run w = (.ok b, u) ∧ m.check = .ok () ∧ m.plan b = .ok c.plan := by
  obtain ⟨b, u, hb, planned, -⟩ := Op.compile_ok h
  simp only [Specification.plan, bind_eq_ok] at planned
  obtain ⟨_, checked, planned⟩ := planned
  exact ⟨b, u, hb, checked, planned⟩

/-- Compilation loses no restriction, no guard and no column of a mutation. -/
theorem compile_upholds {m : Mutation} {ctx : Context} {c : Compiled}
    (h : (Op.compile (.mutation m) ctx).run w = (.ok c, v)) :
    ∃ b u, (Op.binder m.table).run w = (.ok b, u) ∧
      m.Upheld b c.plan.binding c.text.toList c.statement := by
  obtain ⟨b, u, hb, hp, -⟩ := Op.compile_ok h
  simp only [Specification.plan, bind_eq_ok] at hp
  obtain ⟨_, checked, planned⟩ := hp
  refine ⟨b, u, hb, ?_⟩
  rw [Compiled.text, Plan.text, Statement.text, String.toList_ofList]
  cases m with
  | write w => exact w.plan_upheld checked planned
  | counter u => exact u.plan_upheld checked planned
  | delete d => exact d.plan_upheld checked planned

/-- Keys, a condition on the rows and a guard, all in the text of one update. -/
theorem update_upheld :
    let id : TableId := ⟨"shop", "orders"⟩
    let w : World Script := World.new {} { tables := [⟨id, [⟨"id", .int, .partitionKey⟩,
      ⟨"Seq", .int, .clustering⟩, ⟨"state", .text, .regular⟩, ⟨"log", .list .text, .regular⟩]⟩] }
    let m : Mutation := .write {
      table := id
      keys := .ofList [("id", .int 1), ("Seq", .int 2)]
      conditions := [.compare "state" .ne (.text "it's")]
      listAppends := .ofList [("log", [.text "sent"])]
      onlyIf := [.isIn "state" [.text "new", .text "paid"]] }
    ∃ c v, (Op.compile (.mutation m) {}).run w = (.ok c, v) ∧
      c.text = "UPDATE shop.orders SET log = log + ['sent'] WHERE \"Seq\" = 2 AND id = 1 AND " ++
        "state != 'it''s' IF state IN ('new', 'paid')" ∧
      ∃ b u, (Op.binder m.table).run w = (.ok b, u) ∧
        m.Upheld b c.plan.binding c.text.toList c.statement := by
  intro id w m
  obtain ⟨c, v, compiled, text⟩ : ∃ c v, (Op.compile (.mutation m) {}).run w = (.ok c, v) ∧
      c.text = "UPDATE shop.orders SET log = log + ['sent'] WHERE \"Seq\" = 2 AND id = 1 AND " ++
        "state != 'it''s' IF state IN ('new', 'paid')" :=
    ⟨_, _, rfl, by decide +kernel⟩
  exact ⟨c, v, compiled, text, compile_upholds compiled⟩

end WideColumn
