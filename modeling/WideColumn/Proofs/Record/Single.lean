import WideColumn.Proofs.Record.Reading

/-!
Reads of at most one row. Pages are asked for as long as there are fewer than two rows, and what is
answered depends on how many rows all the pages hold together.
-/
namespace WideColumn

variable {σ : Type} [Store σ]

/-- What is left to fetch is fetched page by page, until the store refuses one. -/
inductive BreaksOff : Option (Compiled × Bytes) → World σ → List Page → Fault → World σ → Prop
  | refused {c : Compiled} {state : Bytes} {w v : World σ} {fault : Fault} :
      (Op.fetchPage c (some state)).run w = (.error (.transport fault), v) →
      BreaksOff (some (c, state)) w [] fault v
  | page {c : Compiled} {state : Bytes} {w v u : World σ} {p : Page} {ps : List Page} {fault : Fault} :
      (Op.fetchPage c (some state)).run w = (.ok p, v) →
      BreaksOff (p.pagingState.map (c, ·)) v ps fault u →
      BreaksOff (some (c, state)) w (p :: ps) fault u

/-- To these records further ones are fetched: a page at a time, and only as long as there are fewer than
`n` records and pages left. -/
inductive Seeks (n : Nat) : List Record → Option (Compiled × Bytes) → World σ → List Page →
    Except Error (List Record) → World σ → Prop
  | enough {records : List Record} (next : Option (Compiled × Bytes)) (w : World σ) :
      n ≤ records.length → Seeks n records next w [] (.ok records) w
  | all (records : List Record) (w : World σ) : Seeks n records none w [] (.ok records) w
  | fault {records : List Record} {c : Compiled} {state : Bytes} {w v : World σ} {e : Error} :
      records.length < n → (Op.fetchPage c (some state)).run w = (.error e, v) →
      Seeks n records (some (c, state)) w [] (.error e) v
  | page {records : List Record} {c : Compiled} {state : Bytes} {w v u : World σ} {p : Page}
      {ps : List Page} {found : Except Error (List Record)} :
      records.length < n → (Op.fetchPage c (some state)).run w = (.ok p, v) →
      Seeks n (records ++ Rows.recordsOf p) (p.pagingState.map (c, ·)) v ps found u →
      Seeks n records (some (c, state)) w (p :: ps) found u

/-- The only one of these records, if there is any. -/
def Rows.sole (table : TableId) (result : ResultMeta) : List Record → Except Error (Option Record)
  | [] => .ok none
  | [record] => .ok (some record)
  | _ :: _ :: _ => .error (.tooManyResults s!"more than one record exists for {table.display}" result)

namespace Seeks

variable {n : Nat} {r r' : Rows} {w v u x : World σ} {records : List Record} {record : Record}
  {next : Option (Compiled × Bytes)} {asked ps : List Page} {found : Except Error (List Record)}
  {e : Error}

section Filling

/-- Whoever waits for one row and then goes on seeks all along. -/
theorem of_filling {t : Taken Unit} (hn : 0 < n) (h : Rows.Filling r w t v) (ht : t.outcome = .ok ())
    (later : Seeks n t.rows.buffered t.rows.continuation v ps found u) :
    ∃ asked, Seeks n r.buffered r.continuation w asked found u := by
  induction h with
  | ready => exact ⟨ps, later⟩
  | error => cases ht
  | @page r c state p w v u t hb next fetched _ ih =>
    obtain ⟨asked, seeks⟩ := ih ht later
    rw [Rows.continuation_withPage (Rows.of_continuation next).1] at seeks
    rw [next]
    exact ⟨p :: asked, .page (by rwa [hb]) fetched seeks⟩

/-- A failure ends it for whoever waits and for whoever seeks. -/
theorem of_failure {t : Taken Unit} (hn : 0 < n) (h : Rows.Filling r w t v) (ht : t.outcome = .error e) :
    ∃ asked, Seeks n r.buffered r.continuation w asked (.error e) v := by
  induction h with
  | ready => cases ht
  | error hb next refused =>
    cases ht
    rw [next]
    exact ⟨[], .fault (by rwa [hb]) refused⟩
  | @page r c state p w v u t hb next fetched _ ih =>
    obtain ⟨asked, seeks⟩ := ih ht
    rw [Rows.continuation_withPage (Rows.of_continuation next).1] at seeks
    rw [next]
    exact ⟨p :: asked, .page (by rwa [hb]) fetched seeks⟩

/-- Waiting for a row is seeking one. -/
theorem of_waiting {t : Taken Unit} (h : Rows.Filling r w t v) :
    ∃ asked, Seeks 1 r.buffered r.continuation w asked (t.outcome.map fun _ => t.rows.buffered) v := by
  cases ht : t.outcome with
  | error e => exact of_failure Nat.one_pos h ht
  | ok =>
    have later : Seeks 1 t.rows.buffered t.rows.continuation v [] (.ok t.rows.buffered) v := by
      cases hb : t.rows.buffered with
      | nil =>
        rw [h.waits ht hb]
        exact .all [] v
      | cons record rest => exact .enough _ v (Nat.le_add_left 1 _)
    exact of_filling Nat.one_pos h ht later

/-- A record in front counts as one. -/
theorem cons (record : Record) (h : Seeks n records next w asked found u) :
    Seeks (n + 1) (record :: records) next w asked (found.map (record :: ·)) u := by
  induction h with
  | enough next w enough => exact .enough next w (Nat.succ_le_succ enough)
  | all records w => exact .all _ w
  | fault few refused => exact .fault (Nat.succ_lt_succ few) refused
  | page few fetched _ ih => exact .page (Nat.succ_lt_succ few) fetched ih

end Filling

/-- A single read seeks two records. -/
theorem of_single [LawfulStore σ] (r : Rows) (table : TableId) (w : World σ) : ∃ asked found u,
    Seeks 2 r.buffered r.continuation w asked found u ∧
      (r.single table).run w = (found >>= Rows.sole table r.result, u) := by
  obtain ⟨r', v, ⟨filled, taken⟩ | ⟨e, filled, taken⟩⟩ := r.next_cases w
  · have first : (Op.ofExcept r'.takeFirst.outcome).run v = (.ok r'.buffered.head?, v) := rfl
    rw [Rows.single, Op.run_bind_ok (Op.run_lift taken), Op.run_bind_ok first]
    cases hb : r'.buffered with
    | nil =>
      have later : Seeks 2 r'.buffered r'.continuation v [] (.ok []) v := by
        rw [filled.waits rfl hb, hb]
        exact .all [] v
      obtain ⟨asked, seeks⟩ := of_filling Nat.two_pos filled rfl later
      exact ⟨asked, _, v, seeks, rfl⟩
    | cons record rest =>
      have waited := Rows.filling r'.takeFirst.rows v
      rcases more : r'.takeFirst.rows.fill.run v with ⟨t, u⟩
      rw [more] at waited
      obtain ⟨asked, seeks⟩ := of_waiting waited
      have later := seeks.cons record
      rw [Rows.takeFirst, hb] at later
      change Seeks 2 (record :: rest) r'.continuation v asked _ u at later
      rw [← hb] at later
      obtain ⟨asked, seeks⟩ := of_filling Nat.two_pos filled rfl later
      refine ⟨asked, _, u, seeks, ?_⟩
      simp only [List.head?_cons]
      rw [Op.run_bind_ok (Op.run_lift more)]
      rcases t with ⟨e | _, rows⟩
      · rfl
      · rw [Op.run_bind_ok (Op.run_ofExcept _ _)]
        cases hb' : rows.buffered <;> rfl
  · obtain ⟨asked, seeks⟩ := of_failure Nat.two_pos filled rfl
    refine ⟨asked, _, v, seeks, ?_⟩
    rw [Rows.single, Op.run_bind_ok (Op.run_lift taken)]
    rfl

section Pages

/-- No page is asked for once there are enough records. -/
theorem few_before (h : Seeks n records next w asked found x) {before after : List Page} {p : Page}
    (split : asked = before ++ p :: after) :
    (records ++ before.flatMap Rows.recordsOf).length < n := by
  induction h generalizing before with
  | enough | all | fault => simp at split
  | @page records c state w v u q ps found few fetched _ ih =>
    cases before with
    | nil => simpa using few
    | cons q' before =>
      obtain ⟨rfl, rest⟩ := List.cons.inj split
      simpa using ih rest

/-- Where no request fails, those of the pages that are left are asked for that are needed. -/
theorem of_left (h : Seeks n records next w asked found x) (left : PagesLeft next w ps u) :
    ∃ unasked, ps = asked ++ unasked ∧ found = .ok (records ++ asked.flatMap Rows.recordsOf) ∧
      (unasked = [] ∨ n ≤ (records ++ asked.flatMap Rows.recordsOf).length) := by
  induction h generalizing ps with
  | enough next w enough => exact ⟨ps, rfl, by simp, .inr (by simpa using enough)⟩
  | all =>
    cases left
    exact ⟨[], rfl, by simp, .inl rfl⟩
  | fault _ refused =>
    cases left with
    | page fetched => cases refused.symm.trans fetched
  | page _ fetched _ ih =>
    cases left with
    | page fetched' rest =>
      cases fetched.symm.trans fetched'
      obtain ⟨unasked, rfl, found, enough⟩ := ih rest
      exact ⟨unasked, rfl, by simpa using found, by simpa using enough⟩

/-- A request that fails is met unless there are enough records before it. -/
theorem of_broken {fault : Fault} (h : Seeks n records next w asked found x)
    (broken : BreaksOff next w ps fault u) :
    (found = .error (.transport fault) ∧ x = u ∧ (records ++ ps.flatMap Rows.recordsOf).length < n) ∨
      ∃ unasked, ps = asked ++ unasked ∧ found = .ok (records ++ asked.flatMap Rows.recordsOf) ∧
        n ≤ (records ++ asked.flatMap Rows.recordsOf).length := by
  induction h generalizing ps with
  | enough next w enough => exact .inr ⟨ps, rfl, by simp, by simpa using enough⟩
  | all => cases broken
  | fault few refused =>
    cases broken with
    | refused refused' =>
      cases refused.symm.trans refused'
      exact .inl ⟨rfl, rfl, by simpa using few⟩
    | page fetched => cases refused.symm.trans fetched
  | page _ fetched _ ih =>
    cases broken with
    | refused refused => cases refused.symm.trans fetched
    | page fetched' rest =>
      cases fetched.symm.trans fetched'
      obtain ⟨found, same, few⟩ | ⟨unasked, rfl, found, enough⟩ := ih rest
      · exact .inl ⟨found, same, by simpa using few⟩
      · exact .inr ⟨unasked, rfl, by simpa using found, by simpa using enough⟩

/-- Each page that is asked for is asked for once. -/
theorem events (h : Seeks n records next w asked found x) {all : List Record} (ok : found = .ok all) :
    ∃ es, x.events = w.events ++ es ∧ es.map Event.page? = asked.map some := by
  induction h with
  | enough | all => exact ⟨[], by simp⟩
  | fault => cases ok
  | page _ fetched _ ih =>
    obtain ⟨es, later, pages⟩ := ih ok
    obtain ⟨-, first, -⟩ := Op.dispatch_ok fetched
    exact ⟨_ :: es, by rw [later, first, List.append_assoc]; rfl, by rw [List.map_cons, pages]; rfl⟩

end Pages

end Seeks

/-- Of two records and more it does not matter which they are. -/
theorem Rows.sole_append {records : List Record} (two : 2 ≤ records.length) (table : TableId)
    (result : ResultMeta) (more : List Record) :
    sole table result (records ++ more) = sole table result records := by
  match records with
  | [] | [_] => simp at two
  | _ :: _ :: _ => rfl

/-- A single read of a query answers by the number of rows that all its pages hold, with the result of the
first page alone if they are too many. It asks for no page behind the second row and for every page if
there is no second row. A request that fails before a second row is there fails the read. -/
theorem single_counts_rows [LawfulStore σ] {c : Compiled} {r : Rows} {w v : World σ}
    (queried : (Op.query c).run w = (.ok r, v)) (table : TableId) :
    ∃ first, (Op.fetchPage c none).run w = (.ok first, v) ∧ r = .ofPage c first ∧
      let held (ps : List Page) := (first :: ps).flatMap Rows.recordsOf
      (NeverFails v.store → ∃ ps u, PagesLeft r.continuation v ps u) ∧
      (∀ ps u, PagesLeft r.continuation v ps u → ∃ asked unasked es x, ps = asked ++ unasked ∧
        (r.single table).run v = (Rows.sole table (.ofPage first) (held ps), x) ∧
        x.events = v.events ++ es ∧ es.map Event.page? = asked.map some ∧
        (∀ before p after, asked = before ++ p :: after → (held before).length < 2) ∧
        ((held ps).length < 2 → unasked = [])) ∧
      ∀ ps fault u, BreaksOff r.continuation v ps fault u →
        ((held ps).length < 2 → (r.single table).run v = (.error (.transport fault), u)) ∧
        (2 ≤ (held ps).length →
          ((r.single table).run v).1 = Rows.sole table (.ofPage first) (held ps)) := by
  obtain ⟨first, _, fetched, same⟩ := Op.run_bind_eq_ok.mp queried
  cases same
  refine ⟨first, fetched, rfl, ?_⟩
  intro held
  obtain ⟨asked, found, x, seeks, ran⟩ := Seeks.of_single (.ofPage c first) table v
  have start (ps : List Page) :
      (Rows.ofPage c first).buffered ++ ps.flatMap Rows.recordsOf = held ps := rfl
  have held_append (ps qs : List Page) : held (ps ++ qs) = held ps ++ qs.flatMap Rows.recordsOf := by
    simp [held]
  refine ⟨fun never => PagesLeft.exists_of_neverFails never _, fun ps u left => ?_,
    fun ps fault u broken => ?_⟩
  · obtain ⟨unasked, rfl, rfl, enough⟩ := seeks.of_left left
    obtain ⟨es, events, pages⟩ := seeks.events rfl
    rw [start] at enough ran
    refine ⟨asked, unasked, es, x, rfl, ?_, events, pages, fun before p after => seeks.few_before,
      fun few => ?_⟩
    · rw [ran, held_append]
      obtain rfl | two := enough
      · rw [List.flatMap_nil, List.append_nil]
        rfl
      · rw [Rows.sole_append two]
        rfl
    · rw [held_append, List.length_append] at few
      exact enough.resolve_right (by omega)
  · obtain ⟨rfl, rfl, few⟩ | ⟨unasked, rfl, rfl, two⟩ := seeks.of_broken broken
    · exact ⟨fun _ => ran, fun two => absurd two (Nat.not_le_of_lt few)⟩
    · rw [start] at two ran
      refine ⟨fun few => ?_, fun _ => ?_⟩
      · rw [held_append, List.length_append] at few
        omega
      · rw [ran, held_append, Rows.sole_append two]
        rfl

/-- The rows of a read with empty pages between them are too many as soon as the second one is there, on
the fourth of five pages. -/
theorem second_row_on_fourth_page :
    let c : Compiled :=
      ⟨⟨.select ⟨⟨"shop", "orders"⟩, false, none, [], none, false⟩, .markers, true, none, none⟩, none, {}⟩
    let page (ns : List Int32) (state : Option Bytes) : Page :=
      { columns := ["n"], rows := ns.map fun n => [.int n], pagingState := state }
    let first := page [1] (some [7])
    let ps := [page [] (some [8]), page [] (some [9]), page [2] (some [10]), page [3] none]
    let w : World Script := World.new {} { answers := (first :: ps).map .ok }
    ∃ r v u, (Op.query c).run w = (.ok r, v) ∧ PagesLeft r.continuation v ps u ∧
      ∃ asked unasked es x, ps = asked ++ unasked ∧
        (r.single ⟨"shop", "orders"⟩).run v =
          (.error (.tooManyResults "more than one record exists for shop.orders" (.ofPage first)), x) ∧
        x.events = v.events ++ es ∧ es.map Event.page? = asked.map some ∧
        page [3] none ∉ asked := by
  intro c page first ps w
  obtain ⟨r, v, u, queried, left⟩ : ∃ r v u, (Op.query c).run w = (.ok r, v) ∧
      PagesLeft r.continuation v ps u :=
    ⟨_, _, _, rfl, .page rfl (.page rfl (.page rfl (.page rfl (.done _))))⟩
  obtain ⟨first', fetched, -, -, answers, -⟩ := single_counts_rows queried ⟨"shop", "orders"⟩
  obtain rfl : first = first' := by
    cases fetched
    rfl
  obtain ⟨asked, unasked, es, x, same, ran, events, pages, before, -⟩ := answers ps u left
  refine ⟨r, v, u, queried, left, asked, unasked, es, x, same, ran, events, pages, fun last => ?_⟩
  -- In front of the last page there are the three others, and two rows with the first.
  obtain ⟨front, back, rfl⟩ := List.append_of_mem last
  have few := before front _ back rfl
  match front with
  | [] | [_] | [_, _] => simp [ps, page] at same
  | p :: q :: p' :: rest =>
    obtain ⟨rfl, rfl, rfl, -⟩ : page [] (some [8]) = p ∧ page [] (some [9]) = q ∧
        page [2] (some [10]) = p' ∧ _ := by simpa [ps] using same
    simp only [first, page, Rows.recordsOf, List.flatMap_cons, List.length_append, List.length_map,
      List.length_cons, List.length_nil] at few
    omega

end WideColumn
