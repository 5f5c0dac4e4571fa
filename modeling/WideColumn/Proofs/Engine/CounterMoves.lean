import WideColumn.Dao.Basic
import WideColumn.Proofs.Engine.Events
import WideColumn.Proofs.Engine.TextKey
import WideColumn.Proofs.Statement.Clauses

/-!
Counters are moved by what a statement says, in its text and in the value beside it. What it says is
what was asked for, but for a decrease by the least amount.
-/
namespace WideColumn

open Outcome

/-- The number that a value adds to a counter. -/
def Datum.amount? : Datum → Option Int
  | .bigint n => some n.toInt
  | _ => none

/-- The amount in front of the conditions: a number, or a marker for the first of the values. -/
def quantity? (text : List Char) (values : List Datum) : Option Int :=
  let digits := text.takeWhile Char.isDigit
  if " WHERE ".toList.isPrefixOf (text.dropWhile Char.isDigit) && !digits.isEmpty then
    some (Nat.ofDigitChars 10 digits 0)
  else if "? WHERE ".toList.isPrefixOf text then values.head?.bind Datum.amount?
  else none

/-- What comes before the sign, where a column of a table is set to itself and more. -/
def moveHead (table : TableId) (column : String) : List Char :=
  "UPDATE ".toList ++ table.cql ++ " SET ".toList ++ Identifier.quote column ++ " = ".toList ++
    Identifier.quote column ++ " ".toList

/-- How far the statement moves the counter: an amount is added to the column, or taken from it. -/
def moved? (table : TableId) (column : String) (text : String) (values : List Datum) : Option Int :=
  match (moveHead table column).isPrefixOf? text.toList with
  | some ('+' :: ' ' :: text) => quantity? text values
  | some ('-' :: ' ' :: text) => (quantity? text values).map (- ·)
  | _ => none

section Reading

variable {text : List Char} {values : List Datum}

theorem isPrefixOf?_append (head rest : List Char) : head.isPrefixOf? (head ++ rest) = some rest := by
  induction head with
  | nil => rfl
  | cons c head ih =>
    rw [List.cons_append, List.isPrefixOf?, if_pos (beq_self_eq_true c)]
    exact ih

theorem quantity?_number (n : Nat) :
    quantity? (Nat.toDigits 10 n ++ (" WHERE ".toList ++ text)) values = some (n : Int) := by
  have digits : ∀ c ∈ Nat.toDigits 10 n, c.isDigit = true := fun c hc =>
    Nat.isDigit_of_mem_toDigits (by decide) (by decide) hc
  have number : (Nat.toDigits 10 n ++ (" WHERE ".toList ++ text)).takeWhile Char.isDigit =
      Nat.toDigits 10 n := (List.takeWhile_append_of_pos digits).trans (List.append_nil _)
  have ended : " WHERE ".toList.isPrefixOf
      ((Nat.toDigits 10 n ++ (" WHERE ".toList ++ text)).dropWhile Char.isDigit) = true := by
    rw [List.dropWhile_append_of_pos digits]
    exact List.isPrefixOf_iff_prefix.mpr (List.prefix_append _ _)
  have digit : (Nat.toDigits 10 n).isEmpty = false := by simp
  rw [quantity?, number, if_pos (by rw [ended, digit]; rfl), Nat.ofDigitChars_toDigits (by decide) (by decide)]

theorem quantity?_marker (n : Int64) :
    quantity? ('?' :: (" WHERE ".toList ++ text)) (.bigint n :: values) = some n.toInt := by
  have ended : "? WHERE ".toList.isPrefixOf ('?' :: (" WHERE ".toList ++ text)) = true :=
    List.isPrefixOf_iff_prefix.mpr (List.prefix_append "? WHERE ".toList text)
  rw [quantity?, if_neg (by simp), if_pos ended]
  rfl

end Reading

namespace CounterMove

theorem rendered_head (s : CounterMove) (k : Binding) :
    rendered k s.head = moveHead s.table s.column ++ Piece.render k (.amount s.delta) := by
  show _ = ("UPDATE ".toList ++ s.table.cql ++ " SET ".toList ++ Identifier.quote s.column ++
    " = ".toList ++ Identifier.quote s.column ++ " ".toList) ++ _
  simp only [head, rendered_cons, rendered_nil, List.append_assoc, List.append_nil]
  rfl

theorem text_eq (s : CounterMove) (k : Binding) :
    ((Statement.counter s).text k).toList = moveHead s.table s.column ++
      (Piece.render k (.amount s.delta) ++ (" WHERE ".toList ++ conjunction k s.relations)) := by
  rw [Statement.text, String.toList_ofList, ← List.append_assoc, ← rendered_head]
  exact s.rendered_pieces

/-- Both forms of a counter's statement say how far it is moved. -/
theorem moved_text (s : CounterMove) (binding : Binding) :
    moved? s.table s.column ((Statement.counter s).text binding) ((Statement.counter s).values binding) =
      some s.delta.toInt := by
  rw [moved?, s.text_eq, isPrefixOf?_append]
  cases binding with
  | markers => exact quantity?_marker s.delta
  | literals =>
    -- The sign is apart from the digits, and these are those of the absolute amount.
    rw [Piece.render]
    by_cases negative : s.delta.toInt < 0
    · rw [if_pos negative]
      show (quantity? (Nat.toDigits 10 s.delta.toInt.natAbs ++ _) _).map (- ·) = _
      rw [quantity?_number, Option.map_some, Option.some.injEq]
      omega
    · rw [if_neg negative]
      show quantity? (Nat.toDigits 10 s.delta.toInt.natAbs ++ _) _ = _
      rw [quantity?_number, Option.some.injEq]
      omega

end CounterMove

section Compile

variable {σ : Type} [Store σ]

/-- A text is prepared, if it is not so already, unless the store fails to. -/
theorem Op.prepare_cases (text : String) (w : World σ) :
    (∃ prepared v, (prepare text).run w = (.ok prepared, v)) ∨
      ∃ fault v, (Store.prepare text w.store).1 = .error fault ∧
        (prepare text).run w = (.error (.transport fault), v) := by
  have got := got .statements text (do orFault (← ask (Store.prepare text) (.prepare text))) w
  rw [prepare]
  generalize (getOrLoad .statements text (do orFault (← ask (Store.prepare text) (.prepare text)))).run w =
    r at got ⊢
  cases got with
  | found => exact .inl ⟨_, _, rfl⟩
  | loaded => exact .inl ⟨_, _, rfl⟩
  | failed _ ran =>
    rw [run_bind_ok (run_ask _ _ _)] at ran
    have ran : (orFault (Store.prepare text w.store).1 : Op σ Prepared).run _ = _ := ran
    cases answer : (Store.prepare text w.store).1 with
    | ok prepared =>
      rw [answer] at ran
      cases ran
    | error fault =>
      rw [answer] at ran
      cases ran
      exact .inr ⟨fault, _, rfl, rfl⟩

theorem Op.finish_cases (p : Plan) (ctx : Context) (w : World σ) :
    (∃ c v, (finish p ctx).run w = (.ok c, v)) ∨
      ∃ fault v, (Store.prepare p.text w.store).1 = .error fault ∧
        (finish p ctx).run w = (.error (.transport fault), v) := by
  rw [finish]
  split
  · obtain ⟨prepared, v, ran⟩ | ⟨fault, v, answer, ran⟩ := prepare_cases p.text w
    · exact .inl ⟨_, v, run_bind_ok (run_bind_ok ran)⟩
    · exact .inr ⟨fault, v, answer, run_bind_error (run_bind_error ran)⟩
  · exact .inl ⟨_, w, rfl⟩

end Compile

namespace CounterUpdate

variable {u : CounterUpdate} {b : Binder} {p : Plan}

theorem plan_eq_ok : u.plan b = .ok p ↔ ∃ c relations, b.column u.column = .ok c ∧
    c.type.isCounter = true ∧ b.relations u.keys u.conditions = .ok relations ∧
    p = .of (.counter ⟨u.table, u.column, u.delta, relations⟩)
      (if u.conditions.isEmpty then .markers else .literals) none := by
  simp only [plan, bind_eq_ok]
  constructor
  · rintro ⟨c, declared, planned⟩
    split at planned
    · cases planned
    · rename_i counter
      simp only [bind_eq_ok, pure_eq_ok] at planned
      obtain ⟨relations, related, rfl⟩ := planned
      exact ⟨c, relations, declared, by simpa using counter, related, rfl⟩
  · rintro ⟨c, relations, declared, counter, related, rfl⟩
    refine ⟨c, declared, ?_⟩
    rw [if_neg (by simp [counter])]
    simp only [bind_eq_ok]
    exact ⟨relations, related, rfl⟩

/-- Compilation of the update makes of it statements that move the counter by the change. It makes one of
it wherever the column is a counter and there are keys or conditions, which the columns take, unless the
store fails to prepare it. -/
structure Moves (u : CounterUpdate) (change : Int) : Prop where
  moves {σ : Type} [Store σ] {w v : World σ} {ctx : Context} {c : Compiled} :
    (Op.compile (.mutation (.counter u)) ctx).run w = (.ok c, v) →
      moved? u.table u.column c.text c.values = some change
  compiles {σ : Type} [Store σ] {w v : World σ} {ctx : Context} {b : Binder} {c : Column}
      {relations : List Relation} :
    (u.keys.isEmpty && u.conditions.isEmpty) = false → (Op.binder u.table).run w = (.ok b, v) →
      b.column u.column = .ok c → c.type.isCounter = true →
      b.relations u.keys u.conditions = .ok relations →
      (∃ compiled v', (Op.compile (.mutation (.counter u)) ctx).run w = (.ok compiled, v')) ∨
        ∃ text fault v', (Store.prepare text v.store).1 = .error fault ∧
          (Op.compile (.mutation (.counter u)) ctx).run w = (.error (.transport fault), v')

theorem moves_delta (u : CounterUpdate) : u.Moves u.delta.toInt where
  moves ran := by
    rename_i c
    obtain ⟨b, _, -, planned, -⟩ := Op.compile_steps ran
    obtain ⟨_, planned⟩ := bind_eq_ok.mp planned
    obtain ⟨_, relations, -, -, -, plan⟩ := plan_eq_ok.mp planned.2
    rw [Compiled.text, Compiled.values, plan]
    exact CounterMove.moved_text ⟨u.table, u.column, u.delta, relations⟩ _
  compiles targeted bound declared counter related := by
    rename_i w v ctx b c relations
    have planned := plan_eq_ok.mpr ⟨c, relations, declared, counter, related, rfl⟩
    have checked : u.check = .ok () := if_neg (by simp [targeted])
    rw [Op.compile_run (q := .mutation (.counter u)) bound (bind_eq_ok.mpr ⟨_, checked, planned⟩)]
    obtain finished | ⟨fault, v', refused, failed⟩ := Op.finish_cases _ ctx v
    · exact .inl finished
    · exact .inr ⟨_, fault, v', refused, failed⟩

end CounterUpdate

namespace Draft

theorem toInt_saturatingNeg (amount : Int64) : (saturatingNeg amount).toInt =
    if amount = Int64.minValue then Int64.maxValue.toInt else -amount.toInt := by
  rw [saturatingNeg]
  split
  · rfl
  · rename_i other
    have least : amount.toInt ≠ -2 ^ 63 := fun same =>
      other (Int64.toInt_inj.mp (same.trans Int64.toInt_minValue.symm))
    have low := amount.le_toInt
    have high := amount.toInt_lt
    rw [Int64.toInt_neg, Int.bmod_eq_of_le (by omega) (by omega)]

variable {ρ : Type}

/-- An increase moves the counter by its amount, and a decrease by the opposite. The least amount has no
opposite among the amounts, and moves the counter by the greatest. -/
theorem counter_moves (d : Draft ρ Write) (column : String) (amount : Int64) :
    (d.incrBy column amount).spec.Moves amount.toInt ∧
      (d.decrBy column amount).spec.Moves
        (if amount = Int64.minValue then Int64.maxValue.toInt else -amount.toInt) := by
  refine ⟨CounterUpdate.moves_delta _, ?_⟩
  rw [← toInt_saturatingNeg]
  exact CounterUpdate.moves_delta _

/-- With keys the amount is bound, and with conditions it is written into the text, under its sign. -/
theorem counter_moves_both_forms :
    let id : TableId := ⟨"k", "c"⟩
    let w : World Script := World.new {}
      { tables := [⟨id, [⟨"id", .int, .partitionKey⟩, ⟨"Hits", .counter, .regular⟩]⟩] }
    let keyed : Draft Empty Write := ⟨none, {}, { table := id, keys := .ofList [("id", .int 1)] }⟩
    let aimed : Draft Empty Write := ⟨none, {}, { table := id, conditions := [.compare "id" .eq (.int 1)] }⟩
    (∃ c v, (Op.compile (.mutation (.counter (keyed.decrBy "Hits" 3).spec)) {}).run w = (.ok c, v) ∧
      c.text = "UPDATE k.c SET \"Hits\" = \"Hits\" + ? WHERE id = ?" ∧
      c.values = [.bigint (-3), .int 1] ∧ moved? id "Hits" c.text c.values = some (-3)) ∧
    ∃ c v, (Op.compile (.mutation (.counter (aimed.incrBy "Hits" Int64.minValue).spec)) {}).run w =
        (.ok c, v) ∧
      c.text = "UPDATE k.c SET \"Hits\" = \"Hits\" - 9223372036854775808 WHERE id = 1" ∧
      c.values = [] ∧ moved? id "Hits" c.text c.values = some (-9223372036854775808) := by
  intro id w keyed aimed
  obtain ⟨c, v, ran, text, values⟩ : ∃ c v,
      (Op.compile (.mutation (.counter (keyed.decrBy "Hits" 3).spec)) {}).run w = (.ok c, v) ∧
      c.text = "UPDATE k.c SET \"Hits\" = \"Hits\" + ? WHERE id = ?" ∧
      c.values = [.bigint (-3), .int 1] := ⟨_, _, rfl, by decide +kernel, rfl⟩
  obtain ⟨c', v', ran', text', values'⟩ : ∃ c v,
      (Op.compile (.mutation (.counter (aimed.incrBy "Hits" Int64.minValue).spec)) {}).run w =
        (.ok c, v) ∧
      c.text = "UPDATE k.c SET \"Hits\" = \"Hits\" - 9223372036854775808 WHERE id = 1" ∧
      c.values = [] := ⟨_, _, rfl, by decide +kernel, rfl⟩
  exact ⟨⟨c, v, ran, text, values, (counter_moves keyed "Hits" 3).2.moves ran⟩,
    c', v', ran', text', values', (counter_moves aimed "Hits" Int64.minValue).1.moves ran'⟩

/-- A decrease by the least amount is taken for one by the amount above it, and is no error. -/
theorem least_decrease_saturates :
    let id : TableId := ⟨"k", "c"⟩
    let w : World Script := World.new {}
      { tables := [⟨id, [⟨"id", .int, .partitionKey⟩, ⟨"hits", .counter, .regular⟩]⟩] }
    let d : Draft Empty Write := ⟨none, {}, { table := id, keys := .ofList [("id", .int 1)] }⟩
    ∃ c v, (Op.compile (.mutation (.counter (d.decrBy "hits" Int64.minValue).spec)) {}).run w =
        (.ok c, v) ∧
      moved? id "hits" c.text c.values = some 9223372036854775807 ∧
      (9223372036854775807 : Int) ≠ -Int64.minValue.toInt := by
  intro id w d
  exact ⟨_, _, rfl, by decide +kernel, by decide⟩

end Draft
end WideColumn
