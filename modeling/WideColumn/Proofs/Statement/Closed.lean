import WideColumn.Proofs.Datum.Closed
import WideColumn.Proofs.Engine.TextKey
import WideColumn.Proofs.Statement.Pieces

/-!
Text and values of a statement are in step: outside of quotes the text has one marker for each value
that is sent beside it, and it ends outside of quotes.
-/
namespace WideColumn

namespace Piece

/-- The values that go beside the piece. -/
def sent : Binding → Piece → List Datum
  | .markers, p => p.value?.toList
  | .literals, _ => []

private theorem Proper.closed {p : Piece} (h : p.Proper) (k : Binding) :
    Closed (p.sent k).length (p.render k) := by
  cases h with
  | word inert =>
    have closed := Closed.of_inert (inert_of_all inert)
    cases k <;> exact closed
  | name n => cases k <;> exact .quote n
  | table t => cases k <;> exact .cql t
  | slot v =>
    cases k with
    | markers => rfl
    | literals => exact v.literal_closed

private theorem amount_closed (d : Int64) (k : Binding) :
    Closed ((amount d).sent k).length ((amount d).render k) := by
  cases k with
  | markers => rfl
  | literals =>
    have sign : Closed 0 (if d.toInt < 0 then ['-', ' '] else ['+', ' ']) := by
      split <;> exact .of_inert (inert_of_all (by decide))
    exact sign.append (.of_inert (inert_toDigits _))

theorem closed_pieces {ps : List Piece} (h : ∀ p ∈ ps, p.Proper ∨ ∃ d, p = .amount d)
    (k : Binding) : Closed (ps.flatMap (sent k)).length (ps.flatMap (render k)) := by
  induction ps with
  | nil => exact .nil
  | cons p ps ih =>
    obtain ⟨hp, hps⟩ := List.forall_mem_cons.mp h
    have closed : Closed (p.sent k).length (p.render k) := by
      obtain hp | ⟨d, rfl⟩ := hp
      · exact hp.closed k
      · exact amount_closed d k
    rw [List.flatMap_cons, List.flatMap_cons, List.length_append]
    exact closed.append (ih hps)

end Piece

theorem Statement.values_sent (k : Binding) (s : Statement) :
    s.values k = s.pieces.flatMap (Piece.sent k) := by
  cases k with
  | markers => exact List.filterMap_eq_flatMap_toList _ _
  | literals => exact (List.flatMap_eq_nil_iff.mpr fun _ _ => rfl).symm

theorem Statement.text_closed (k : Binding) (s : Statement) :
    scan none (s.text k).toList = (none, (s.values k).length) := by
  rw [scan_eq_sweep (by simp), text, String.toList_ofList, values_sent]
  exact Piece.closed_pieces s.proper k

variable {σ : Type} [Store σ]

/-- The compiler emits no text with an open quote, and as many markers as values. Where the values are
in the text there are none beside it, and that text is not prepared. -/
theorem compile_closed {q : Specification} {ctx : Context} {w v : World σ} {c : Compiled}
    (h : (Op.compile q ctx).run w = (.ok c, v)) :
    scan none c.text.toList = (none, c.values.length) ∧
      (c.plan.binding = .literals → c.values = [] ∧ c.prepared = none) := by
  refine ⟨Statement.text_closed _ _, fun literals => ⟨?_, ?_⟩⟩
  · rw [Compiled.values, Plan.values, literals]
    rfl
  · obtain ⟨b, -, -, planned, prepares⟩ := Op.compile_ok h
    have markers := (Specification.plan_suits planned).markers
    rw [literals] at markers
    refine Option.eq_none_iff_forall_ne_some.mpr fun p hp => ?_
    have prepared := prepares (by rw [hp]; rfl)
    cases markers prepared

/-- Markers, both kinds of quotes and numbers of all kinds, inside of names, values and fields. -/
theorem quoted_update_closed :
    let id : TableId := ⟨"shop", "what?"⟩
    let home : UserType := ⟨⟨"shop", "address"⟩, [("st'reet", .text), ("no?", .double)]⟩
    let w : World Script := World.new {} {
      tables := [⟨id, [⟨"id", .int, .partitionKey⟩, ⟨"a\"?", .text, .regular⟩,
        ⟨"home", .udt "address", .regular⟩]⟩]
      types := [home] }
    let m : Mutation := .write {
      table := id
      keys := .ofList [("id", .int (-1))]
      values := .ofList [("a\"?", .text "it's \"?\""),
        ("home", .fields [("st'reet", .text "?'"), ("no?", .double ⟨0⟩)])]
      conditions := [.isIn "a\"?" [.text "'", .text "\""]] }
    ∃ c v, (Op.compile (.mutation m) {}).run w = (.ok c, v) ∧ c.plan.binding = .literals ∧
      c.text = "UPDATE shop.\"what?\" SET \"a\"\"?\" = 'it''s \"?\"', home = \x7b\"st'reet\": '?''', " ++
        "\"no?\": 0.0\x7d WHERE id = -1 AND \"a\"\"?\" IN ('''', '\"')" ∧
      scan none c.text.toList = (none, c.values.length) ∧ c.values = [] ∧ c.prepared = none := by
  intro id home w m
  obtain ⟨c, v, compiled, literals, text⟩ : ∃ c v, (Op.compile (.mutation m) {}).run w = (.ok c, v) ∧
      c.plan.binding = .literals ∧
      c.text = "UPDATE shop.\"what?\" SET \"a\"\"?\" = 'it''s \"?\"', home = \x7b\"st'reet\": '?''', " ++
        "\"no?\": 0.0\x7d WHERE id = -1 AND \"a\"\"?\" IN ('''', '\"')" :=
    ⟨_, _, rfl, rfl, by decide +kernel⟩
  obtain ⟨closed, inlined⟩ := compile_closed compiled
  exact ⟨c, v, compiled, literals, text, closed, inlined literals⟩

end WideColumn
