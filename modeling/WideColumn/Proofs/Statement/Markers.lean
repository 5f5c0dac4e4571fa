import WideColumn.Plan.Write
import WideColumn.Proofs.Outcome
import WideColumn.Proofs.Statement.Pieces
import WideColumn.Proofs.Statement.Values

/-!
The two forms of a statement agree: the text with literals is the text with markers in which every
marker has given way to the literal of its value.
-/
namespace WideColumn

/-- The text with every `?` outside of double quotes replaced by the literal of the next value; none
if there are more markers than values or more values than markers. -/
def fillMarkers : (quoted : Bool) → List Char → List Datum → Option (List Char)
  | _, [], [] => some []
  | _, [], _ :: _ => none
  | quoted, c :: cs, vs =>
    if c = '?' ∧ quoted = false then
      match vs with
      | [] => none
      | v :: vs => (fillMarkers quoted cs vs).map (v.literal ++ ·)
    else (fillMarkers (quoted != (c == '"')) cs vs).map (c :: ·)

theorem fillMarkers_marker (cs : List Char) (v : Datum) (vs : List Datum) :
    fillMarkers false ('?' :: cs) (v :: vs) = (fillMarkers false cs vs).map (v.literal ++ ·) := by
  simp [fillMarkers]

theorem fillMarkers_cons {quoted : Bool} {c : Char} (h : c = '?' → quoted = true) (cs : List Char)
    (vs : List Datum) :
    fillMarkers quoted (c :: cs) vs = (fillMarkers (quoted != (c == '"')) cs vs).map (c :: ·) := by
  have : ¬ (c = '?' ∧ quoted = false) := by
    rintro ⟨hc, hq⟩
    simp [h hc] at hq
  cases vs <;> simp [fillMarkers, this]

/-- A part of a text that has no markers and closes the quotes it opens. -/
def Settled (cs : List Char) : Prop :=
  ∀ rest vs, fillMarkers false (cs ++ rest) vs = (fillMarkers false rest vs).map (cs ++ ·)

namespace Settled

variable {cs ds : List Char}

theorem nil : Settled [] := by simp [Settled]

theorem append (hc : Settled cs) (hd : Settled ds) : Settled (cs ++ ds) := by
  intro rest vs
  rw [List.append_assoc, hc, hd, Option.map_map]
  simp [Function.comp_def]

theorem cons {c : Char} (hc : c ≠ '?') (hq : c ≠ '"') (h : Settled cs) : Settled (c :: cs) := by
  intro rest vs
  have hb : (false != (c == '"')) = false := by simp [hq]
  rw [List.cons_append, fillMarkers_cons (fun h => (hc h).elim), hb, h, Option.map_map]
  rfl

theorem of_inert (h : ∀ c ∈ cs, isInert c = true) : Settled cs := by
  induction cs with
  | nil => exact .nil
  | cons c cs ih =>
    obtain ⟨hc, hcs⟩ := List.forall_mem_cons.mp h
    obtain ⟨marker, -, quote⟩ : c ≠ '?' ∧ c ≠ '\'' ∧ c ≠ '"' := by simpa [isInert, isQuote] using hc
    exact .cons marker quote (ih hcs)

/-- Inside of quotes markers do not count, and a doubled quote ends nothing. -/
private theorem fill_double (cs rest : List Char) (vs : List Datum) :
    fillMarkers true (Quoted.double '"' cs ++ rest) vs =
      (fillMarkers true rest vs).map (Quoted.double '"' cs ++ ·) := by
  induction cs with
  | nil => simp
  | cons c cs ih =>
    by_cases hc : c = '"'
    · simp [Quoted.double, hc, fillMarkers_cons, ih, Function.comp_def]
    · have hb : (true != (c == '"')) = true := by simp [hc]
      simp only [Quoted.double, hc, ↓reduceIte, List.cons_append]
      rw [fillMarkers_cons (fun _ => rfl), hb, ih, Option.map_map]
      rfl

theorem enclose (cs : List Char) : Settled (Quoted.enclose '"' cs) := by
  intro rest vs
  simp [Quoted.enclose, fillMarkers_cons, fill_double, Function.comp_def]

theorem quote (name : String) : Settled (Identifier.quote name) := by
  cases h : Identifier.isPlain name.toList with
  | false =>
    rw [Identifier.quote_of_not_plain h]
    exact enclose _
  | true =>
    rw [Identifier.quote_of_plain h]
    exact of_inert fun c hc => isInert_of (by decide) (Identifier.isPlainRest_of_plain h c hc)

theorem cql (t : TableId) : Settled t.cql :=
  (quote t.keyspace).append (.cons (by decide) (by decide) (quote t.table))

end Settled

/-- The literal form of the piece comes out when its marker is filled. -/
def Piece.Fills (p : Piece) : Prop :=
  ∀ rest vs, fillMarkers false (p.render .markers ++ rest) (p.value?.toList ++ vs) =
    (fillMarkers false rest vs).map (p.render .literals ++ ·)

namespace Piece

theorem Proper.fills {p : Piece} (h : p.Proper) : p.Fills := by
  cases h with
  | word inert => exact Settled.of_inert (List.all_eq_true.mp inert)
  | name n => exact Settled.quote n
  | table t => exact Settled.cql t
  | slot v => exact fun rest vs => fillMarkers_marker rest v vs

/-- Values and markers of a row of pieces come in the same order and number. -/
theorem fill_pieces {ps : List Piece} (h : ∀ p ∈ ps, p.Fills) :
    fillMarkers false (ps.flatMap (render .markers)) (ps.filterMap value?) =
      some (ps.flatMap (render .literals)) := by
  induction ps with
  | nil => rfl
  | cons p ps ih =>
    obtain ⟨hp, hps⟩ := List.forall_mem_cons.mp h
    have split : (p :: ps).filterMap value? = p.value?.toList ++ ps.filterMap value? := by
      rw [List.filterMap_cons]
      cases p.value? <;> rfl
    rw [List.flatMap_cons, List.flatMap_cons, split, hp, ih hps]
    rfl

end Piece

open Piece

theorem Relation.fills (r : Relation) : ∀ p ∈ r.pieces, p.Fills := fun p hp => (r.proper p hp).fills

theorem RowUpdate.fills (u : RowUpdate) : ∀ p ∈ u.pieces, p.Fills := fun p hp => (u.proper p hp).fills

/-- The two forms of an update agree. They are refused for the same reason; otherwise the text with
literals comes from the text with markers by filling in the values in the order in which the update
lists them, and has none beside it. The same holds of every relation that keys and conditions are
turned into. -/
theorem updatePlan_bindings_agree (w : Write) (b : Binder) :
    (∀ e, w.updatePlan b .literals = .error e ↔ w.updatePlan b .markers = .error e) ∧
      (∀ p, w.updatePlan b .markers = .ok p → ∃ q, w.updatePlan b .literals = .ok q ∧
        p.values = p.statement.bound.map Prod.snd ∧
        fillMarkers false p.text.toList p.values = some q.text.toList ∧ q.values = []) ∧
      ∀ keys conditions rs,
        b.relations keys conditions = .ok rs ∨ conditions.mapM b.relation = .ok rs →
        ∀ r ∈ rs, fillMarkers false (r.pieces.flatMap (Piece.render .markers))
          (r.bound.map Prod.snd) = some (r.pieces.flatMap (Piece.render .literals)) := by
  refine ⟨?_, ?_, ?_⟩
  · intro e
    simp only [Write.updatePlan]
    cases w.rowUpdate b <;> simp [bind, Except.bind, pure, Except.pure]
  · intro p hp
    simp only [Write.updatePlan, Outcome.bind_eq_ok, Outcome.pure_eq_ok] at hp ⊢
    obtain ⟨u, hu, rfl⟩ := hp
    refine ⟨_, ⟨u, hu, rfl⟩, Statement.values_markers _, ?_, rfl⟩
    simpa [Plan.of, Plan.text, Plan.values, Statement.text, Statement.values, Statement.render,
      Statement.pieces] using fill_pieces u.fills
  · intro _ _ rs _ r _
    rw [← r.values_pieces]
    exact fill_pieces r.fills

/-- Markers and quotes inside of names and texts are no markers of the statement. -/
theorem update_of_marked_names :
    let b : Binder := ⟨⟨⟨⟨"shop", "notes?"⟩, [⟨"k? = ?", .int, .partitionKey⟩,
      ⟨"a\"?", .text, .regular⟩, ⟨"log", .list .text, .regular⟩]⟩, 0⟩, []⟩
    let w : Write := {
      table := ⟨"shop", "notes?"⟩
      keys := .ofList [("k? = ?", .int 1)]
      values := .ofList [("a\"?", .text "?'")]
      listPrepends := .ofList [("log", [.text "? = ?"])]
      onlyIf := [.isIn "a\"?" [.text "\"", .text "?"]] }
    ∃ p q, w.updatePlan b .markers = .ok p ∧ w.updatePlan b .literals = .ok q ∧
      p.values.length = 5 ∧ fillMarkers false p.text.toList p.values = some q.text.toList ∧
      q.values = [] := by
  intro b w
  obtain ⟨q, hq, -, hf, none⟩ := (updatePlan_bindings_agree w b).2.1 _ rfl
  exact ⟨_, q, rfl, hq, rfl, hf, none⟩

end WideColumn
