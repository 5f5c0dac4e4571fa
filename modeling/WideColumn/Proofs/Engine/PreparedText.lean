import WideColumn.Proofs.Engine.Runs
import WideColumn.Proofs.Engine.TextKey
import WideColumn.Proofs.Plan.Alike
import WideColumn.Scenario.Script

/-!
No value gets into a text that is prepared. Requests that differ in their values alone are prepared with
one text, and whatever an engine does, what it hands to the store for preparation is written with markers.
-/
namespace WideColumn

open Op

variable {σ ρ : Type} [Store σ]

/-- The text of something planned with markers, in which every value has been left out. -/
def Valueless (text : String) : Prop :=
  ∃ (q : Specification) (b : Binder) (p : Plan),
    q.plan b = .ok p ∧ p.binding = .markers ∧ text = p.statement.shape.text .markers

theorem Specification.text_of_prepare {q : Specification} {b : Binder} {p : Plan}
    (planned : q.plan b = .ok p) (prepare : p.prepare = true) : p.text = p.statement.shape.text .markers := by
  rw [Plan.text, (plan_suits planned).markers prepare, Statement.text_markers]

/-- If the event is a preparation, it is that of a text of this sort. -/
def Event.Prepares (T : String → Prop) (e : Event) : Prop :=
  ∀ text answer, e = .prepare text answer → T text

section Prepares

variable {T : String → Prop}

theorem compiles_prepares (valueless : ∀ text, Valueless text → T text) :
    Compiles (Event.Prepares T) where
  table _ _ _ _ other := by cases other
  type _ _ _ _ other := by cases other
  planned q b p planned prepare _ _ _ same := by
    cases same
    exact valueless _ ⟨q, b, p, planned, (q.plan_suits planned).markers prepare,
      q.text_of_prepare planned prepare⟩

/-- Since the one world no other text has been prepared. -/
def World.Prepares (T : String → Prop) (w v : World σ) : Prop :=
  ∃ es, v.events = w.events ++ es ∧ ∀ e ∈ es, e.Prepares T

omit [Store σ] in
theorem World.Prepares.append {w v u : World σ} (h : w.Prepares T v) {es : List Event}
    (grown : u.events = v.events ++ es) (each : ∀ e ∈ es, e.Prepares T) : w.Prepares T u := by
  obtain ⟨past, events, before⟩ := h
  exact ⟨past ++ es, by rw [grown, events, List.append_assoc], List.forall_mem_append.mpr ⟨before, each⟩⟩

/-- Execution prepares nothing. -/
theorem World.Prepares.stable (w : World σ) : StableUnder (Event.Prepares T) (w.Prepares T) where
  logs h logged := by
    obtain ⟨es, grown, each⟩ := logged.events
    exact h.append grown each
  dispatched request options h := by
    have other {e : Event} (unlike : ∀ text answer, e ≠ .prepare text answer) : e.Prepares T :=
      fun text answer same => (unlike text answer same).elim
    rcases run : (Op.dispatch request options).run _ with ⟨e | page, v⟩
    · obtain ⟨fault, drops, -, -, grown, ends⟩ := dispatch_error run
      refine h.append grown (List.forall_mem_cons.mpr ⟨other (by simp), fun e he => ?_⟩)
      obtain ⟨rfl, -⟩ | ⟨rfl, -⟩ := ends
      · cases he
      · obtain rfl | rfl := List.mem_pair.mp he <;> exact other (by simp)
    · obtain ⟨-, grown, -⟩ := dispatch_ok run
      exact h.append grown (List.forall_mem_singleton.mpr (other (by simp)))

end Prepares

theorem compile_text_of_alike {w w' v v' : World σ} {q r : Specification} {ctx ctx' : Context}
    {c d : Compiled} {columns : List Column} (alike : q.Alike r)
    (hc : (compile q ctx).run w = (.ok c, v)) (hd : (compile r ctx').run w' = (.ok d, v'))
    (hw : w.Describes q.table columns) (hw' : w'.Describes r.table columns)
    (pc : c.prepared.isSome = true) (pd : d.prepared.isSome = true) : c.text = d.text := by
  obtain ⟨b, u, hb, hp, prepare⟩ := compile_ok hc
  obtain ⟨b', u', hb', hp', prepare'⟩ := compile_ok hd
  have shape := Specification.plan_shape_of_alike alike ((hw b u hb).trans (hw' b' u' hb').symm) hp hp'
    (prepare pc) (prepare' pd)
  rw [Compiled.text, Compiled.text, q.text_of_prepare hp (prepare pc),
    r.text_of_prepare hp' (prepare' pd), shape]

/-- No value gets into a text that is prepared. Two requests of one sort, for a table of the same columns
both times, that name the same columns in the same ways are prepared with the same text, in whatever
state the caches are. In every run all that the store is given to prepare, apart from texts that were
handed in to be prepared, is written with a marker in the place of each value. -/
theorem prepared_valueless :
    (∀ {q r : Specification} {ctx ctx' : Context} {w w' v v' : World σ} {c d : Compiled}
        {columns : List Column}, q.Alike r → (compile q ctx).run w = (.ok c, v) →
      (compile r ctx').run w' = (.ok d, v') → w.Describes q.table columns → w'.Describes r.table columns →
      c.prepared.isSome = true → d.prepared.isSome = true → c.text = d.text) ∧
    ∀ {owners : ρ → Registry σ ρ}, (∀ o, (owners o).OnlyDraws) →
      ∀ (w : World σ) (actions : List (Action σ ρ)),
        ∃ es, (w.performAll owners actions).events = w.events ++ es ∧
          ∀ text answer, .prepare text answer ∈ es → .prepare text ∈ actions ∨ Valueless text := by
  refine ⟨compile_text_of_alike, fun ho w actions => ?_⟩
  let T (text : String) : Prop := .prepare text ∈ actions ∨ Valueless text
  have compiles : Compiles (Event.Prepares T) := compiles_prepares fun _ valueless => .inr valueless
  have start : w.Prepares T w := ⟨[], by simp, by simp⟩
  obtain ⟨es, grown, each⟩ := (World.Prepares.stable w).performAll compiles ho start actions
    fun text given _ _ _ same => by
      cases same
      exact .inl given
  exact ⟨es, grown, fun text answer he => each _ he text answer rfl⟩

/-- Two updates with other keys, values, additions to a set and lifetimes, one of which drops an entry of
a map. The second is prepared already when its turn comes. -/
theorem updates_of_one_text :
    let id : TableId := ⟨"k", "a"⟩
    let columns := [⟨"id", .int, .partitionKey⟩, ⟨"note", .text, .regular⟩,
      ⟨"tags", .set .text, .regular⟩, ⟨"marks", .map .text .int, .regular⟩]
    let world : World Script := World.new {} { tables := [⟨id, columns⟩] }
    let update (n : Int32) (note : Value) (tags : List Value) (marks : List (Value × Value))
        (seconds : Nat) : Specification := .mutation (.write {
      table := id, keys := .ofList [("id", .int n)], values := .ofList [("note", note)]
      setAdds := .ofList [("tags", .ofList tags)], mapPuts := .ofList [("marks", .ofList marks)]
      ttl := some (.ofSeconds seconds) })
    let q := update 1 (.text "? = 'x'") [] [(.text "x", .int 5), (.text "y", .null)] 60
    let r := update 2 .null [.text "a", .text "b"] [(.text "z", .int 7)] 90
    let text := "UPDATE k.a USING TTL ? SET note = ?, tags = tags + ?, marks = marks + ? WHERE id = ?"
    let ran := world.performAll (fun _ : Unit => {}) [.compile q {}, .compile r {}]
    ∃ c v d v', q.Alike r ∧ (compile q {}).run world = (.ok c, v) ∧
      (compile r {}).run world = (.ok d, v') ∧ world.Describes id columns ∧
      c.prepared.isSome = true ∧ d.prepared.isSome = true ∧ c.text = text ∧ c.text = d.text ∧
      (ran.events.filterMap fun | .prepare text _ => some text | _ => none) = [text] ∧
      ∃ es, ran.events = world.events ++ es ∧ ∀ text answer, .prepare text answer ∈ es →
        .prepare text ∈ ([.compile q {}, .compile r {}] : List (Action Script Unit)) ∨ Valueless text := by
  intro id columns world update q r text ran
  have described : world.Describes id columns := by
    intro b v h
    cases h
    rfl
  have alike : q.Alike r := by
    refine .write ⟨rfl, rfl, rfl, rfl, rfl, rfl, rfl, rfl, rfl, fun n => ?_, rfl, rfl⟩
    simp only [Write.puts, SortedMap.ofList, List.foldl, SortedMap.get?_insert]
    split <;> rfl
  obtain ⟨c, v, d, v', hc, hd, pc, pd, written⟩ : ∃ c v d v', (compile q {}).run world = (.ok c, v) ∧
      (compile r {}).run world = (.ok d, v') ∧ c.prepared.isSome = true ∧ d.prepared.isSome = true ∧
      c.text = text := ⟨_, _, _, _, rfl, rfl, rfl, rfl, by decide +kernel⟩
  have valueless := @prepared_valueless Script Unit _
  refine ⟨c, v, d, v', alike, hc, hd, described, pc, pd, written,
    valueless.1 alike hc hd described described pc pd, by decide +kernel, ?_⟩
  exact valueless.2 (fun _ f hf => by cases hf) world _

end WideColumn
