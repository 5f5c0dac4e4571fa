import WideColumn.Proofs.Datum.Coincide
import WideColumn.Proofs.Plan.Restrictions

/-!
The keys of entries that are put into a map. No two of them are the same value, and still they may be the
same to the store.
-/
namespace WideColumn

open Outcome

namespace Binder

variable {b : Binder} {n : String} {k : Column} {key value : ColumnType} {es : SortedMap Value Value}
  {ds : List (Datum × Datum)}

/-- The entries are bound in their order, without those that lack a value. -/
theorem bindMap_each (hk : b.column n = .ok k) (type : k.type = .map key value)
    (h : b.bindMap n es = .ok (.map ds)) :
    List.Forall₂ (fun e d => b.convert e.1 n key = .ok d.1) (es.toList.filter fun e => !e.2.isNull) ds := by
  obtain ⟨k', key', value', items, hk', type', made, ⟨⟩⟩ := bindMap_eq_ok.mp h
  cases hk.symm.trans hk'
  cases type.symm.trans type'
  rw [convertEntries_eq_mapM] at made
  refine (forall₂_mapM made).imp fun e d bound => ?_
  simp only [bind_eq_ok, pure_eq_ok] at bound
  obtain ⟨dk, keyed, -, -, rfl⟩ := bound
  exact keyed

/-- Two of the keys are the same just if they coincide. -/
theorem bindMap_keys (hk : b.column n = .ok k) (type : k.type = .map key value)
    (h : b.bindMap n es = .ok (.map ds)) : (ds.map Prod.fst).Nodup ↔
      (es.toList.filter fun e => !e.2.isNull).Pairwise fun e f => ¬ Coincide b.types key e.1 f.1 := by
  rw [List.Nodup, List.pairwise_map]
  exact (pairwise_iff_of_forall₂ (bindMap_each hk type h) fun _ _ _ _ keyed keyed' =>
    not_congr (convert_eq_iff keyed keyed').symm).symm

/-- Where keys have one form each, none is put twice. -/
theorem bindMap_strict_keys (hk : b.column n = .ok k) (type : k.type = .map key value)
    (h : b.bindMap n es = .ok (.map ds)) (strict : key.isStrict = true) : (ds.map Prod.fst).Nodup := by
  rw [List.Nodup, List.pairwise_map]
  have apart : (es.toList.filter fun e => !e.2.isNull).Pairwise fun e f => e.1 ≠ f.1 :=
    List.Pairwise.filter _ (List.pairwise_map.mp es.nodup_keys)
  refine (pairwise_iff_of_forall₂ (bindMap_each hk type h) fun e d f d' keyed keyed' => ?_).mp apart
  refine not_congr ⟨fun same => ?_, fun same => ?_⟩
  · exact Except.ok.inj (keyed.symm.trans (same ▸ keyed'))
  · exact convert_injective strict keyed (same ▸ keyed')

end Binder

/-- The statement puts the entries into the column. An update leaves the column out if there are none. -/
def Statement.Puts (n : String) (ds : List (Datum × Datum)) : Statement → Prop
  | insert s => (n, .map ds) ∈ s.cells
  | update s => ds = [] ∨ ⟨n, .add, .map ds⟩ ∈ s.assignments
  | _ => False

namespace Write

variable {w : Write} {b : Binder} {p : Plan} {n : String} {es : SortedMap Value Value}

/-- What is put into a map is in the plan, in the form in which it is bound. -/
theorem plan_puts (checked : w.check = .ok ()) (h : w.plan b = .ok p) (given : w.mapPuts.get? n = some es) :
    ∃ k key value ds, b.column n = .ok k ∧ k.type = .map key value ∧ b.bindMap n es = .ok (.map ds) ∧
      p.statement.Puts n ds := by
  have bound_eq {d : Datum} (bound : b.bindMap n es = .ok d) : ∃ k key value ds,
      b.column n = .ok k ∧ k.type = .map key value ∧ d = .map ds := by
    obtain ⟨k, key, value, ds, hk, type, -, rfl⟩ := Binder.bindMap_eq_ok.mp bound
    exact ⟨k, key, value, ds, hk, type, rfl⟩
  obtain ⟨-, s, inserted, same⟩ | ⟨-, -, s, updated, same⟩ := plan_cases checked h <;> rw [same]
  · obtain ⟨-, -, -, -, put⟩ := insertion_bound inserted (n := n)
    obtain ⟨d, bound⟩ := put es given
    obtain ⟨k, key, value, ds, hk, type, rfl⟩ := bound_eq bound
    exact ⟨k, key, value, ds, hk, type, bound, (mem_insertion inserted).mpr (.map given bound)⟩
  · obtain ⟨-, -, assigned, -, -⟩ := rowUpdate_parts updated
    obtain ⟨-, -, -, -, -, -, puts, -, -, -, -, -, -, hm, -⟩ := assignments_parts assigned
    obtain ⟨d, bound⟩ := assignEach_bound hm given
    obtain ⟨k, key, value, ds, hk, type, rfl⟩ := bound_eq bound
    refine ⟨k, key, value, ds, hk, type, bound, (em (ds = [])).imp_right fun some => ?_⟩
    exact (mem_assignments assigned).mpr (.mapPut given bound (by simpa using some))

end Write

/-- Whatever a compiled write puts into a map has keys that differ if and only if no two of the keys that
are put with a value coincide, so they always differ where the keys are of a strict type. -/
theorem compiled_map_keys {σ : Type} [Store σ] {w : Write} {ctx : Context} {c : Compiled} {u v : World σ}
    (compiled : (Op.compile (.mutation (.write w)) ctx).run u = (.ok c, v)) :
    ∃ b x, (Op.binder w.table).run u = (.ok b, x) ∧ ∀ n es, w.mapPuts.get? n = some es →
      ∃ k key value ds, b.column n = .ok k ∧ k.type = .map key value ∧ b.bindMap n es = .ok (.map ds) ∧
        c.statement.Puts n ds ∧
        ((ds.map Prod.fst).Nodup ↔
          (es.toList.filter fun e => !e.2.isNull).Pairwise fun e f => ¬ Coincide b.types key e.1 f.1) ∧
        (key.isStrict = true → (ds.map Prod.fst).Nodup) := by
  obtain ⟨b, x, hb, checked, planned⟩ := Mutation.compiled compiled
  refine ⟨b, x, hb, fun n es given => ?_⟩
  obtain ⟨k, key, value, ds, hk, type, bound, puts⟩ := w.plan_puts checked planned given
  exact ⟨k, key, value, ds, hk, type, bound, puts, Binder.bindMap_keys hk type bound,
    Binder.bindMap_strict_keys hk type bound⟩

/-- A symbol and a text, and an entry without a value whose key would coincide with the text. -/
theorem puts_of_marks :
    let id : TableId := ⟨"k", "a"⟩
    let world : World Script := World.new {} { tables := [⟨id, [⟨"id", .int, .partitionKey⟩,
      ⟨"marks", .map .text .int, .regular⟩]⟩] }
    let w : Write := {
      table := id
      keys := .ofList [("id", .int 1)]
      mapPuts := .ofList [("marks", .ofList [(.text "a", .int 5), (.enum "b", .int 6), (.enum "a", .null)])] }
    ∃ c v, (Op.compile (.mutation (.write w)) {}).run world = (.ok c, v) ∧
      c.values = [.map [(.text "a", .int 5), (.text "b", .int 6)], .int 1] ∧
      ∃ b x, (Op.binder w.table).run world = (.ok b, x) ∧ ∀ n es, w.mapPuts.get? n = some es →
        ∃ k key value ds, b.column n = .ok k ∧ k.type = .map key value ∧ b.bindMap n es = .ok (.map ds) ∧
          c.statement.Puts n ds ∧
          ((ds.map Prod.fst).Nodup ↔
            (es.toList.filter fun e => !e.2.isNull).Pairwise fun e f => ¬ Coincide b.types key e.1 f.1) ∧
          (key.isStrict = true → (ds.map Prod.fst).Nodup) := by
  intro id world w
  obtain ⟨c, v, compiled, values⟩ : ∃ c v, (Op.compile (.mutation (.write w)) {}).run world = (.ok c, v) ∧
      c.values = [.map [(.text "a", .int 5), (.text "b", .int 6)], .int 1] :=
    ⟨_, _, rfl, by decide +kernel⟩
  exact ⟨c, v, compiled, values, compiled_map_keys compiled⟩

/-- A small and a large number under which entries are put come to one key, in an update and in an
insertion. -/
theorem marks_put_twice :
    let id : TableId := ⟨"k", "a"⟩
    let world : World Script := World.new {} { tables := [⟨id, [⟨"id", .int, .partitionKey⟩,
      ⟨"marks", .map .bigint .text, .regular⟩]⟩] }
    let puts : List Write.Step :=
      [.put "marks" (.int 1) (.text "x"), .put "marks" (.bigint 1) (.text "x")]
    let entries : List (Datum × Datum) := [(.bigint 1, .text "x"), (.bigint 1, .text "x")]
    ∃ c v c' v', (Op.compile (.mutation (.write (.applyAll { table := id }
        (.key "id" (.int 1) :: puts)))) {}).run world = (.ok c, v) ∧
      c.text = "UPDATE k.a SET marks = marks + ? WHERE id = ?" ∧ c.values = [.map entries, .int 1] ∧
      (Op.compile (.mutation (.write (.applyAll { table := id }
        (.value "id" (.int 1) :: puts)))) {}).run world = (.ok c', v') ∧
      c'.text = "INSERT INTO k.a (id, marks) VALUES (?, ?)" ∧ c'.values = [.int 1, .map entries] ∧
      ¬ (entries.map Prod.fst).Nodup := by
  exact ⟨_, _, _, _, rfl, by decide +kernel, by decide +kernel, rfl, by decide +kernel, by decide +kernel,
    by simp⟩

end WideColumn
