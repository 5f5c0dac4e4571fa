import WideColumn.Interceptor.Constraints
import WideColumn.Proofs.Datum.Blank
import WideColumn.Proofs.Plan.Restrictions

/-!
What becomes of the columns under constraints once a write that keeps the constraints is compiled.
-/
namespace WideColumn

open Outcome

namespace Write

variable {w : Write} {b : Binder} {n : String} {d : Datum}

section Filled

/-- No collection is changed by nothing. -/
structure Filled (w : Write) : Prop where
  setAdds : ∀ n vs, w.setAdds.get? n = some vs → vs.toList ≠ []
  setRemoves : ∀ n vs, w.setRemoves.get? n = some vs → vs.toList ≠ []
  listPrepends : ∀ n vs, w.listPrepends.get? n = some vs → vs ≠ []
  listAppends : ∀ n vs, w.listAppends.get? n = some vs → vs ≠ []
  listRemoves : ∀ n vs, w.listRemoves.get? n = some vs → vs ≠ []

private theorem member_filled (v : Value) (s : Option (SortedSet Value)) : (member v s).toList ≠ [] :=
  List.ne_nil_of_mem (SortedSet.mem_insert.mpr (.inl rfl))

private theorem last_filled (v : Value) (l : Option (List Value)) : last v l ≠ [] := by
  simp [last]

private theorem update_filled {α : Type} {m : SortedMap String α} {p : α → Prop} {k : String}
    {f : Option α → α} (h : ∀ n a, m.get? n = some a → p a) (made : ∀ o, p (f o)) :
    ∀ n a, (m.update k f).get? n = some a → p a := by
  intro n a found
  rw [SortedMap.update, SortedMap.get?_insert] at found
  split at found
  · cases found
    exact made _
  · exact h n a found

theorem Filled.apply (h : w.Filled) (step : Step) : (w.apply step).Filled := by
  cases step with
  | addToSet n v => exact { h with setAdds := update_filled h.setAdds (member_filled v) }
  | removeFromSet n v => exact { h with setRemoves := update_filled h.setRemoves (member_filled v) }
  | prepend n v => exact { h with listPrepends := update_filled h.listPrepends (last_filled v) }
  | append n v => exact { h with listAppends := update_filled h.listAppends (last_filled v) }
  | removeFromList n v => exact { h with listRemoves := update_filled h.listRemoves (last_filled v) }
  | key | condition | value | values | without | put | onlyIf | ifNotExists | ttl => exact { h with }

theorem Filled.applyAll (h : w.Filled) (steps : List Step) : (w.applyAll steps).Filled := by
  induction steps generalizing w with
  | nil => exact h
  | cons step steps ih => exact ih (h.apply step)

theorem Filled.start (id : TableId) : ({ table := id } : Write).Filled := by
  constructor <;> intro n vs found <;> cases found

end Filled

/-- An assignment leaves nothing in the cell only if it assigns a whole value, and a blank one. -/
theorem Filled.assigned_cell (filled : w.Filled) {a : Assignment} (h : w.Assigns b a) :
    a.value.cell = none ↔
      a.change = .set ∧ ∃ x, w.values.get? a.column = some x ∧ x.isBlank = true := by
  cases h with
  | plain _ _ given bound => simp [given, Binder.bind_cell bound]
  | setAdd given bound => simp [Binder.bindSet_cell bound, filled.setAdds _ _ given]
  | setRemove given bound => simp [Binder.bindSet_cell bound, filled.setRemoves _ _ given]
  | listPrepend given bound => simp [Binder.bindList_cell bound, filled.listPrepends _ _ given]
  | listAppend given bound => simp [Binder.bindList_cell bound, filled.listAppends _ _ given]
  | listRemove given bound => simp [Binder.bindList_cell bound, filled.listRemoves _ _ given]
  | mapPut given bound kept =>
    obtain ⟨_, _, _, items, -, -, -, rfl⟩ := Binder.bindMap_eq_ok.mp bound
    simpa using kept

/-- What is put before a list and what is put behind it are not both nothing. -/
theorem Filled.ends_ne_nil (filled : w.Filled)
    (given : n ∈ w.listPrepends.keys ∨ n ∈ w.listAppends.keys) :
    (w.listPrepends.get? n).getD [] ++ (w.listAppends.get? n).getD [] ≠ [] := by
  intro nothing
  obtain ⟨front, back⟩ := List.append_eq_nil_iff.mp nothing
  obtain given | given := given
  · obtain ⟨vs, given⟩ := SortedMap.mem_keys.mp given
    rw [given] at front
    exact absurd front (filled.listPrepends _ _ given)
  · obtain ⟨vs, given⟩ := SortedMap.mem_keys.mp given
    rw [given] at back
    exact absurd back (filled.listAppends _ _ given)

/-- An insertion of the write makes no cell for the column, although it names it. -/
inductive Clears (w : Write) (n : String) : Prop
  | key {x : Value} (given : w.keys.get? n = some x) (blank : x.isBlank = true)
  | value {x : Value} (unkeyed : w.keys.get? n = none) (given : w.values.get? n = some x)
      (blank : x.isBlank = true)
  | map {es : SortedMap Value Value} (given : w.mapPuts.get? n = some es)
      (valueless : ∀ e ∈ es.toList, e.2.isNull = true)

theorem Filled.inserts_cell (filled : w.Filled) (h : w.Inserts b n d) (none : d.cell = none) :
    w.Clears n := by
  cases h with
  | key given bound => exact .key given ((Binder.bind_cell bound).mp none)
  | value unkeyed given bound => exact .value unkeyed given ((Binder.bind_cell bound).mp none)
  | set given bound => exact absurd ((Binder.bindSet_cell bound).mp none) (filled.setAdds _ _ given)
  | list given bound => exact absurd ((Binder.bindList_cell bound).mp none) (filled.ends_ne_nil given)
  | map given bound => exact .map given ((Binder.bindMap_cell bound).mp none)

theorem Clears.inserts {s : Insertion} (h : w.insertion b = .ok s) (cleared : w.Clears n) :
    ∃ d, w.Inserts b n d ∧ d.cell = none := by
  obtain ⟨keyed, valued, -, -, put⟩ := insertion_bound h (n := n)
  cases cleared with
  | key given blank =>
    obtain ⟨d, bound⟩ := keyed _ given
    exact ⟨d, .key given bound, (Binder.bind_cell bound).mpr blank⟩
  | value unkeyed given blank =>
    obtain ⟨d, bound⟩ := valued _ given
    exact ⟨d, .value unkeyed given bound, (Binder.bind_cell bound).mpr blank⟩
  | map given valueless =>
    obtain ⟨d, bound⟩ := put _ given
    exact ⟨d, .map given bound, (Binder.bindMap_cell bound).mpr valueless⟩

theorem Filled.inserted_cell (filled : w.Filled) {s : Insertion} (h : w.insertion b = .ok s)
    (hd : (n, d) ∈ s.cells) : d.cell = none ↔ w.Clears n := by
  refine ⟨filled.inserts_cell ((mem_insertion h).mp hd), fun cleared => ?_⟩
  -- what clears the column asks for a cell itself, and the column has only one
  obtain ⟨d', asked, none⟩ := cleared.inserts h
  rw [insertion_cell_unique h hd ((mem_insertion h).mpr asked)]
  exact none

/-- A compiled write is an insertion, or it is aimed at rows that exist and an update. -/
theorem compiled_cases {σ : Type} [Store σ] {ctx : Context} {c : Compiled} {u v : World σ}
    (h : (Op.compile (.mutation (.write w)) ctx).run u = (.ok c, v)) :
    ∃ b, (∃ s, w.insertion b = .ok s ∧ c.statement = .insert s) ∨
      ∃ s, w.assignments b = .ok s.assignments ∧ c.statement = .update s ∧ w.isUpdateIntent = true := by
  obtain ⟨b, -, -, checked, planned⟩ := Mutation.compiled h
  refine ⟨b, ?_⟩
  obtain ⟨-, s, inserted, same⟩ | ⟨unguarded, aimed, s, updated, same⟩ := plan_cases checked planned
  · exact .inl ⟨s, inserted, same⟩
  · obtain ⟨-, -, assigned, -, -⟩ := rowUpdate_parts updated
    exact .inr ⟨s, assigned, same, by simpa [isUpdateIntent, unguarded] using aimed⟩

end Write

namespace Constraints

variable {k : Constraints} {w w' : Write} {n : String}

theorem intercept_eq_ok : k.intercept w = .ok w' ↔ k.refusal? w = none ∧ w = w' := by
  rw [intercept]
  cases k.refusal? w with
  | some refusal => simp
  | none => simp

/-- A write that is aimed at rows may neither touch what is immutable nor give null to what may not be
null. -/
theorem accepts_update (update : w.isUpdateIntent = true) :
    k.refusal? w = none ↔ (∀ n, k.immutable.contains n = true → n ∉ w.mutated) ∧
      ∀ n, k.notNull.contains n = true → w.values.get? n ≠ some .null := by
  rw [refusal?, if_pos update]
  cases touched : w.mutated.find? k.immutable.contains with
  | some m =>
    have fixed : k.immutable.contains m = true := List.find?_some touched
    refine iff_of_false (by simp) fun accepts => ?_
    exact accepts.1 m fixed (List.mem_of_find?_eq_some touched)
  | none =>
    have untouched : ∀ n, k.immutable.contains n = true → n ∉ w.mutated := by
      intro n fixed member
      exact List.find?_eq_none.mp touched n member fixed
    have nulled : ((w.values.toList.filter fun e => e.2.isNull && k.notNull.contains e.1).map
        Prod.fst).isEmpty = true ↔ ∀ n, k.notNull.contains n = true → w.values.get? n ≠ some .null := by
      rw [List.isEmpty_iff, List.map_eq_nil_iff, List.filter_eq_nil_iff]
      constructor
      · intro allowed n required given
        exact allowed (n, .null) (SortedMap.mem_toList.mpr given) (by simp [Value.isNull, required])
      · rintro allowed ⟨n, x⟩ entry both
        obtain ⟨null, required⟩ := Bool.and_eq_true_iff.mp both
        obtain rfl := Value.isNull_iff.mp null
        exact allowed n required ((SortedMap.mem_toList (e := (n, Value.null))).mp entry)
    simp only [ite_eq_left_iff, reduceCtorEq, imp_false, not_not]
    exact nulled.trans (and_iff_right untouched).symm

/-- A write that makes a row has to set all that may not be null. -/
theorem accepts_creation (creates : w.isUpdateIntent = false) :
    k.refusal? w = none ↔ ∀ n, k.notNull.contains n = true → isSet w n = true := by
  rw [refusal?, if_neg (by simp [creates])]
  simp [SortedSet.contains_iff]

theorem named_of_isSet (h : isSet w n = true) : n ∈ w.keys.keys ∨ n ∈ w.mutated := by
  simp only [isSet, Bool.or_eq_true, SortedMap.contains_iff] at h
  simp only [Write.mutated, List.mem_append]
  obtain (((assigned | h) | h) | h) | h := h
  · cases valued : w.values.get? n with
    | some x => simp [SortedMap.mem_keys.mpr ⟨x, valued⟩]
    | none =>
      rw [valued, Option.any_eq_true] at assigned
      obtain ⟨x, keyed, -⟩ := assigned
      exact .inl (SortedMap.mem_keys.mpr ⟨x, keyed⟩)
  all_goals simp [h]

/-- Where a plain null counts as set, the column is added to as well, and that does not compile. -/
theorem values_ne_null_of_set {b : Binder} {s : Insertion} (h : w.insertion b = .ok s)
    (set : isSet w n = true) : w.values.get? n ≠ some .null := by
  intro null
  have valued : n ∈ w.values.keys := SortedMap.mem_keys.mpr ⟨_, null⟩
  refine (Write.whole_apart h ((or_congr_right or_left_comm).mp ?_)).1 valued
  simpa [isSet, null, Value.isNull, SortedMap.contains_iff, or_assoc] using set

end Constraints

/-- The column is not set, except as a key of a row that is made. -/
def Statement.Spares (keys : List String) (n : String) : Statement → Prop
  | insert s => n ∈ s.cells.map Prod.fst ↔ n ∈ keys
  | update s => ∀ a ∈ s.assignments, a.column ≠ n
  | _ => False

/-- A row is not made without the column, and the column is left without a cell only by a blank value or
by entries that lack theirs. -/
def Statement.Fills (w : Write) (n : String) : Statement → Prop
  | insert s => (w.isUpdateIntent = false → n ∈ s.cells.map Prod.fst) ∧
      ∀ d, (n, d) ∈ s.cells → (d.cell = none ↔ w.Clears n)
  | update s => w.isUpdateIntent = true ∧ ∀ a ∈ s.assignments, a.column = n →
      (a.value.cell = none ↔ a.change = .set ∧ ∃ x, w.values.get? n = some x ∧ x.isBlank = true)
  | _ => False

namespace Constraints

variable {σ : Type} [Store σ] {k : Constraints} {w : Write} {ctx : Context} {c : Compiled} {u v : World σ}
  {n : String}

/-- An accepted write to rows that exist leaves alone what is immutable, unless that is one of its
keys. -/
theorem immutable_spared {given : Write} (update : given.isUpdateIntent = true)
    (accepted : k.intercept given = .ok w)
    (compiled : (Op.compile (.mutation (.write w)) ctx).run u = (.ok c, v))
    (fixed : k.immutable.contains n = true) : c.statement.Spares w.keys.keys n := by
  obtain ⟨allowed, rfl⟩ := intercept_eq_ok.mp accepted
  have untouched : n ∉ given.mutated := ((accepts_update update).mp allowed).1 n fixed
  obtain ⟨b, ⟨s, inserted, statement⟩ | ⟨s, assigned, statement, -⟩⟩ := Write.compiled_cases compiled
  · rw [statement]
    obtain ⟨-, -, -, names⟩ := Write.insertion_names inserted
    exact (names n).trans (or_iff_left untouched)
  · rw [statement]
    rintro a ha rfl
    exact untouched (Write.mutated_of_assigns (Write.assigns_of_mem assigned ha))

/-- What is immutable may be a key, and is written as such where the row is made. -/
theorem immutable_key_spared :
    let id : TableId := ⟨"k", "a"⟩
    let world : World Script := World.new {} { tables := [⟨id, [⟨"id", .int, .partitionKey⟩,
      ⟨"owner", .text, .regular⟩, ⟨"note", .text, .regular⟩]⟩] }
    let k : Constraints := { immutable := .ofList ["id", "owner"] }
    let w : Write := {
      table := id
      keys := .ofList [("id", .int 1)]
      values := .ofList [("note", .text "x")] }
    ∃ c v, w.isUpdateIntent = true ∧ k.intercept w = .ok w ∧
      (Op.compile (.mutation (.write w)) {}).run world = (.ok c, v) ∧
      c.text = "INSERT INTO k.a (id, note) VALUES (?, ?)" ∧
      ∀ n ∈ ["id", "owner"], c.statement.Spares w.keys.keys n := by
  intro id world k w
  obtain ⟨c, v, compiled, text⟩ : ∃ c v,
      (Op.compile (.mutation (.write w)) {}).run world = (.ok c, v) ∧
      c.text = "INSERT INTO k.a (id, note) VALUES (?, ?)" := ⟨_, _, rfl, by decide +kernel⟩
  have update : w.isUpdateIntent = true := rfl
  have accepted : k.intercept w = .ok w := rfl
  have fixed : ∀ n ∈ ["id", "owner"], k.immutable.contains n = true := by decide
  exact ⟨c, v, update, accepted, compiled, text,
    fun n named => immutable_spared update accepted compiled (fixed n named)⟩

/-- A column outside of the primary key may be named as a key too, and is then set although it is
immutable. -/
theorem immutable_set_as_key :
    let id : TableId := ⟨"k", "a"⟩
    let world : World Script := World.new {} { tables := [⟨id, [⟨"id", .int, .partitionKey⟩,
      ⟨"owner", .text, .regular⟩]⟩] }
    let k : Constraints := { immutable := .ofList ["owner"] }
    let w : Write := {
      table := id
      keys := .ofList [("owner", .text "x")]
      values := .ofList [("id", .int 1)] }
    ∃ b u c v s, (Op.binder id).run world = (.ok b, u) ∧ b.entry.isPrimaryKey "owner" = false ∧
      w.isUpdateIntent = true ∧ k.intercept w = .ok w ∧
      (Op.compile (.mutation (.write w)) {}).run world = (.ok c, v) ∧
      k.immutable.contains "owner" = true ∧ c.statement = .insert s ∧ "owner" ∈ s.cells.map Prod.fst := by
  exact ⟨_, _, _, _, _, rfl, rfl, rfl, rfl, rfl, by decide, rfl, by decide +kernel⟩

/-- An accepted write gives no null for a column that may not be null, and a row that it makes has such a
column. -/
theorem not_null_filled {id : TableId} {steps : List Write.Step}
    (accepted : k.intercept (.applyAll { table := id } steps) = .ok w)
    (compiled : (Op.compile (.mutation (.write w)) ctx).run u = (.ok c, v))
    (required : k.notNull.contains n = true) :
    w.values.get? n ≠ some .null ∧ c.statement.Fills w n := by
  obtain ⟨allowed, same⟩ := intercept_eq_ok.mp accepted
  rw [same] at allowed
  have filled : w.Filled := same ▸ (Write.Filled.start id).applyAll steps
  obtain ⟨b, ⟨s, inserted, statement⟩ | ⟨s, assigned, statement, update⟩⟩ := Write.compiled_cases compiled
  · rw [statement]
    obtain ⟨-, -, -, names⟩ := Write.insertion_names inserted
    refine ⟨?_, fun creates => ?_, fun d hd => filled.inserted_cell inserted hd⟩
    · cases update : w.isUpdateIntent with
      | true => exact ((accepts_update update).mp allowed).2 n required
      | false => exact values_ne_null_of_set inserted ((accepts_creation update).mp allowed n required)
    · exact (names n).mpr (named_of_isSet ((accepts_creation creates).mp allowed n required))
  · rw [statement]
    refine ⟨((accepts_update update).mp allowed).2 n required, update, ?_⟩
    rintro a ha rfl
    exact filled.assigned_cell (Write.assigns_of_mem assigned ha)

/-- A row is made of plain values and of what is added to a collection. -/
theorem tags_filled :
    let id : TableId := ⟨"k", "a"⟩
    let world : World Script := World.new {} { tables := [⟨id, [⟨"id", .int, .partitionKey⟩,
      ⟨"name", .text, .regular⟩, ⟨"tags", .set .text, .regular⟩]⟩] }
    let k : Constraints := { notNull := .ofList ["name", "tags"] }
    let w : Write := .applyAll { table := id }
      [.value "id" (.int 1), .value "name" (.text ""), .addToSet "tags" (.text "new")]
    ∃ c v s, k.intercept w = .ok w ∧ (Op.compile (.mutation (.write w)) {}).run world = (.ok c, v) ∧
      c.statement = .insert s ∧ s.cells.lookup "tags" = some (.set [.text "new"]) ∧
      ∀ n ∈ ["name", "tags"], w.values.get? n ≠ some .null ∧ c.statement.Fills w n := by
  intro id world k w
  obtain ⟨c, v, s, compiled, inserted, tags⟩ : ∃ c v s,
      (Op.compile (.mutation (.write w)) {}).run world = (.ok c, v) ∧ c.statement = .insert s ∧
      s.cells.lookup "tags" = some (.set [.text "new"]) := ⟨_, _, _, rfl, rfl, by decide +kernel⟩
  have accepted : k.intercept w = .ok w := by decide +kernel
  have required : ∀ n ∈ ["name", "tags"], k.notNull.contains n = true := by decide
  exact ⟨c, v, s, accepted, compiled, inserted, tags,
    fun n named => not_null_filled accepted compiled (required n named)⟩

/-- A plain value that is a set of nothing counts as set, and is bound to null. -/
theorem empty_set_accepted :
    let id : TableId := ⟨"k", "a"⟩
    let world : World Script := World.new {} { tables := [⟨id, [⟨"id", .int, .partitionKey⟩,
      ⟨"tags", .set .text, .regular⟩]⟩] }
    let k : Constraints := { notNull := .ofList ["tags"] }
    let w : Write := .applyAll { table := id } [.value "id" (.int 1), .value "tags" (.set [])]
    ∃ c v s, k.intercept w = .ok w ∧ (Op.compile (.mutation (.write w)) {}).run world = (.ok c, v) ∧
      k.notNull.contains "tags" = true ∧ c.statement = .insert s ∧ ("tags", .null) ∈ s.cells := by
  exact ⟨_, _, _, rfl, rfl, by decide, rfl, by decide +kernel⟩

end Constraints
end WideColumn
