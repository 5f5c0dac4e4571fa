import WideColumn.Proofs.Datum.Blank

/-!
Values that conversion does not tell apart. Small numbers stand for the same as large ones, symbols for
the same as their names, lists for the same as sets where a set is asked for, and everything blank for
null.
-/
namespace WideColumn

open Outcome

namespace Value

/-- A whole number, in the widest kind. -/
def integer? : Value → Option Int64
  | int i => some i.toInt64
  | bigint i => some i
  | _ => none

/-- A number of the binary formats, in the widest one. -/
def floating? : Value → Option Binary64
  | float x => some x.widen
  | double x => some x
  | _ => none

def word? : Value → Option String
  | text s | enum s => some s
  | _ => none

/-- The elements of a list or of a set. -/
def items? : Value → Option (List Value)
  | list items | set items => some items
  | _ => none

section Full

variable {v : Value}

theorem integer_full {n : Int64} (h : v.integer? = some n) : v.isBlank = false := by
  cases v <;> first | rfl | cases h

theorem floating_full {x : Binary64} (h : v.floating? = some x) : v.isBlank = false := by
  cases v <;> first | rfl | cases h

theorem word_full {s : String} (h : v.word? = some s) : v.isBlank = false := by
  cases v <;> first | rfl | cases h

theorem isBlank_items {vs : List Value} (h : v.items? = some vs) : v.isBlank = vs.isEmpty := by
  cases v <;> cases h <;> rfl

end Full

/-- The values right inside of a value. -/
def parts : Value → List Value
  | list items | set items => items
  | map entries => entries.map Prod.fst ++ entries.map Prod.snd
  | fields entries => entries.map Prod.snd
  | _ => []

theorem sizeOf_lt_of_mem_parts {v x : Value} (h : x ∈ v.parts) : sizeOf x < sizeOf v := by
  cases v with
  | list items | set items =>
    have := List.sizeOf_lt_of_mem (show x ∈ items from h)
    simp only [list.sizeOf_spec, set.sizeOf_spec]
    omega
  | map entries =>
    rw [parts, List.mem_append] at h
    obtain h | h := h <;> obtain ⟨⟨k, u⟩, he, rfl⟩ := List.mem_map.mp h
    all_goals
      have := List.sizeOf_lt_of_mem he
      simp only [map.sizeOf_spec, Prod.mk.sizeOf_spec] at this ⊢
      omega
  | fields entries =>
    obtain ⟨⟨n, u⟩, he, rfl⟩ := List.mem_map.mp h
    have := List.sizeOf_lt_of_mem he
    simp only [fields.sizeOf_spec, Prod.mk.sizeOf_spec] at this ⊢
    omega
  | _ => cases h

/-- What passes from the values right inside of a value to the value itself holds of every value. -/
theorem parts_induction {P : Value → Prop} (h : ∀ v, (∀ x ∈ v.parts, P x) → P v) (v : Value) : P v :=
  h v fun x _ => parts_induction h x
termination_by sizeOf v
decreasing_by exact sizeOf_lt_of_mem_parts ‹_›

end Value

/-- A type to which values of one kind alone are converted, no two of them to the same. -/
def ColumnType.isStrict : ColumnType → Bool
  | int | boolean | float | blob | timestamp | uuid | timeuuid => true
  | _ => false

/-- A type whose values have no parts. -/
def ColumnType.isSimple : ColumnType → Bool
  | list _ | set _ | map _ _ | udt _ => false
  | _ => true

theorem ColumnType.isSimple_of_isStrict (type : ColumnType) (h : type.isStrict = true) :
    type.isSimple = true := by
  cases type <;> first | rfl | cases h

/-- Two values that stand for the same in a column of the type. -/
inductive Coincide (types : TypeDefs) : ColumnType → Value → Value → Prop
  | same {type : ColumnType} {v : Value} : Coincide types type v v
  | blank {type : ColumnType} {v v' : Value} : v.isBlank = true → v'.isBlank = true →
      Coincide types type v v'
  | integer {type : ColumnType} {v v' : Value} {n : Int64} : type = .bigint ∨ type = .counter →
      v.integer? = some n → v'.integer? = some n → Coincide types type v v'
  | floating {v v' : Value} {x : Binary64} : v.floating? = some x → v'.floating? = some x →
      Coincide types .double v v'
  | word {type : ColumnType} {v v' : Value} {s : String} : type.isTextual = true →
      v.word? = some s → v'.word? = some s → Coincide types type v v'
  | list {element : ColumnType} {vs vs' : List Value} : vs.length = vs'.length →
      (∀ p ∈ vs.zip vs', Coincide types element p.1 p.2) →
      Coincide types (.list element) (.list vs) (.list vs')
  /-- Each element has a counterpart on the other side. -/
  | set {element : ColumnType} {v v' : Value} {vs vs' : List Value} (there back : Value → Value) :
      v.items? = some vs → v'.items? = some vs' →
      (∀ x ∈ vs, there x ∈ vs') → (∀ x ∈ vs, Coincide types element x (there x)) →
      (∀ y ∈ vs', back y ∈ vs) → (∀ y ∈ vs', Coincide types element (back y) y) →
      Coincide types (.set element) v v'
  | map {key value : ColumnType} {es es' : List (Value × Value)} : es.length = es'.length →
      (∀ p ∈ es.zip es', Coincide types key p.1.1 p.2.1) →
      (∀ p ∈ es.zip es', Coincide types value p.1.2 p.2.2) →
      Coincide types (.map key value) (.map es) (.map es')
  /-- A field that is not given is null. -/
  | fields {name : String} {definition : UserType} {es es' : List (String × Value)} :
      types.lookup name = some definition →
      (∀ f ∈ definition.fields,
        Coincide types f.2 ((es.lookup f.1).getD .null) ((es'.lookup f.1).getD .null)) →
      Coincide types (.udt name) (.fields es) (.fields es')

/-- Only blank values coincide with blank ones. -/
theorem Coincide.isBlank {types : TypeDefs} {type : ColumnType} {v v' : Value}
    (h : Coincide types type v v') : v.isBlank = v'.isBlank := by
  cases h with
  | same => rfl
  | blank blank blank' => rw [blank, blank']
  | integer _ hn hn' => rw [Value.integer_full hn, Value.integer_full hn']
  | floating hx hx' => rw [Value.floating_full hx, Value.floating_full hx']
  | word _ hs hs' => rw [Value.word_full hs, Value.word_full hs']
  | list len | map len =>
    rw [Bool.eq_iff_iff, Value.isBlank, Value.isBlank, List.isEmpty_iff_length_eq_zero,
      List.isEmpty_iff_length_eq_zero, len]
  | @set _ _ _ vs vs' there back items items' ht _ hb =>
    rw [Value.isBlank_items items, Value.isBlank_items items', Bool.eq_iff_iff, List.isEmpty_iff,
      List.isEmpty_iff, List.eq_nil_iff_forall_not_mem, List.eq_nil_iff_forall_not_mem]
    exact ⟨fun none y hy => none _ (hb y hy), fun none x hx => none _ (ht x hx)⟩
  | fields => rfl

namespace Binder

variable {b : Binder} {column : String} {d e : Datum} {v v' : Value} {type : ColumnType}

/-- How a value that is not blank is converted. -/
inductive Comes (b : Binder) (column : String) : Value → ColumnType → Datum → Prop
  | scalar {v : Value} {type : ColumnType} {d : Datum} : scalar? v type = some d → Comes b column v type d
  | list {vs : List Value} {element : ColumnType} {ds : List Datum} :
      List.Forall₂ (fun x d => b.convert x column element = .ok d) vs ds →
      Comes b column (.list vs) (.list element) (.list ds)
  | set {v : Value} {vs : List Value} {element : ColumnType} {ds : List Datum} :
      v.items? = some vs → List.Forall₂ (fun x d => b.convert x column element = .ok d) vs ds →
      Comes b column v (.set element) (.set (SortedSet.ofList ds).toList)
  | map {es : List (Value × Value)} {key value : ColumnType} {ds : List (Datum × Datum)} :
      List.Forall₂ (fun e d => b.convert e.1 column key = .ok d.1 ∧
        b.convert e.2 column value = .ok d.2) es ds →
      Comes b column (.map es) (.map key value) (.map ds)
  | fields {es : List (String × Value)} {name : String} {definition : UserType}
      {ds : List (String × Datum)} : b.types.lookup name = some definition →
      List.Forall₂ (fun f d => d.1 = f.1 ∧
        b.convert ((es.lookup f.1).getD .null) (column ++ "." ++ f.1) f.2 = .ok d.2) definition.fields ds →
      Comes b column (.fields es) (.udt name) (.udt b.entry.id.keyspace name ds)

section Scalar

@[simp] theorem scalar_bigint (v : Value) : scalar? v .bigint = v.integer?.map .bigint := by
  cases v <;> rfl

@[simp] theorem scalar_counter (v : Value) : scalar? v .counter = v.integer?.map .bigint := by
  cases v <;> rfl

@[simp] theorem scalar_double (v : Value) : scalar? v .double = v.floating?.map .double := by
  cases v <;> rfl

@[simp] theorem scalar_text (v : Value) : scalar? v .text = v.word?.map .text := by
  cases v <;> rfl

@[simp] theorem scalar_ascii (v : Value) : scalar? v .ascii = v.word?.bind asciiText := by
  cases v <;> rfl

theorem scalar_isSimple (h : scalar? v type = some d) : type.isSimple = true := by
  fun_cases scalar? v type <;> first | rfl | simp [scalar?] at h

/-- Only one value of its kind comes to a value of a strict type. -/
theorem scalar_injective (strict : type.isStrict = true) (h : scalar? v type = some d)
    (h' : scalar? v' type = some d) : v = v' := by
  cases type <;> cases strict
  all_goals
    cases v <;> simp only [scalar?, Option.some.injEq, reduceCtorEq] at h
    subst h
    cases v' <;> simp_all [scalar?]

theorem coincide_of_scalar (h : scalar? v type = some d) (h' : scalar? v' type = some d) :
    Coincide b.types type v v' := by
  cases type with
  | bigint | counter =>
    simp only [scalar_bigint, scalar_counter, Option.map_eq_some_iff] at h h'
    obtain ⟨n, hn, rfl⟩ := h
    obtain ⟨n, hn', ⟨⟩⟩ := h'
    exact .integer (by simp) hn hn'
  | double =>
    simp only [scalar_double, Option.map_eq_some_iff] at h h'
    obtain ⟨x, hx, rfl⟩ := h
    obtain ⟨x, hx', ⟨⟩⟩ := h'
    exact .floating hx hx'
  | text =>
    simp only [scalar_text, Option.map_eq_some_iff] at h h'
    obtain ⟨s, hs, rfl⟩ := h
    obtain ⟨s, hs', ⟨⟩⟩ := h'
    exact .word rfl hs hs'
  | ascii =>
    simp only [scalar_ascii, asciiText, Option.bind_eq_some_iff, Option.ite_none_right_eq_some,
      Option.some.injEq] at h h'
    obtain ⟨s, hs, -, rfl⟩ := h
    obtain ⟨s, hs', -, ⟨⟩⟩ := h'
    exact .word rfl hs hs'
  | int | boolean | float | blob | timestamp | uuid | timeuuid =>
    exact scalar_injective rfl h h' ▸ .same
  | list | set | map | udt => cases scalar_isSimple h

end Scalar

section Inversion

theorem Comes.scalar_inv (simple : type.isSimple = true) (h : b.Comes column v type d) :
    scalar? v type = some d := by
  cases h with
  | scalar hs => exact hs
  | _ => cases simple

theorem Comes.list_inv {element : ColumnType} (h : b.Comes column v (.list element) d) : ∃ vs ds,
    v = .list vs ∧ d = .list ds ∧
      List.Forall₂ (fun x d => b.convert x column element = .ok d) vs ds := by
  cases h with
  | scalar hs => cases scalar_isSimple hs
  | list each => exact ⟨_, _, rfl, rfl, each⟩

theorem Comes.set_inv {element : ColumnType} (h : b.Comes column v (.set element) d) : ∃ vs ds,
    v.items? = some vs ∧ d = .set (SortedSet.ofList ds).toList ∧
      List.Forall₂ (fun x d => b.convert x column element = .ok d) vs ds := by
  cases h with
  | scalar hs => cases scalar_isSimple hs
  | set items each => exact ⟨_, _, items, rfl, each⟩

theorem Comes.map_inv {key value : ColumnType} (h : b.Comes column v (.map key value) d) : ∃ es ds,
    v = .map es ∧ d = .map ds ∧ List.Forall₂ (fun e d => b.convert e.1 column key = .ok d.1 ∧
      b.convert e.2 column value = .ok d.2) es ds := by
  cases h with
  | scalar hs => cases scalar_isSimple hs
  | map each => exact ⟨_, _, rfl, rfl, each⟩

theorem Comes.fields_inv {name : String} {definition : UserType}
    (known : b.types.lookup name = some definition) (h : b.Comes column v (.udt name) d) : ∃ es ds,
    v = .fields es ∧ d = .udt b.entry.id.keyspace name ds ∧ List.Forall₂ (fun f d => d.1 = f.1 ∧
      b.convert ((es.lookup f.1).getD .null) (column ++ "." ++ f.1) f.2 = .ok d.2) definition.fields ds := by
  cases h with
  | scalar hs => cases scalar_isSimple hs
  | fields known' each =>
    cases known.symm.trans known'
    exact ⟨_, _, rfl, rfl, each⟩

end Inversion

/-- A field that is given is converted. -/
theorem lookup_converters (es : List (String × Value)) (n : String) : (b.converters es).lookup n =
    (es.lookup n).map fun v column type => b.convert v column type := by
  induction es with
  | nil =>
    rw [converters]
    rfl
  | cons e es ih =>
    obtain ⟨field, v⟩ := e
    rw [converters]
    by_cases same : n = field
    · simp [same]
    · rw [lookup_cons_of_ne same, lookup_cons_of_ne same, ih]

/-- The fields of a definition are converted in its order, those that are not given as null. -/
theorem takeFields_converters {es : List (String × Value)} {declared : List (String × ColumnType)}
    {ds : List (String × Datum)} (h : takeFields column (b.converters es) declared = .ok ds) :
    List.Forall₂ (fun f d => d.1 = f.1 ∧
      b.convert ((es.lookup f.1).getD .null) (column ++ "." ++ f.1) f.2 = .ok d.2) declared ds := by
  induction declared generalizing ds with
  | nil =>
    cases h
    exact .nil
  | cons f rest ih =>
    obtain ⟨field, type⟩ := f
    simp only [takeFields, lookup_converters] at h
    cases given : es.lookup field with
    | none =>
      simp only [given, Option.map_none, bind_eq_ok, pure_eq_ok] at h
      obtain ⟨d, hd, others, ho, rfl⟩ := h
      exact .cons ⟨rfl, by simpa [given, convert] using hd⟩ (ih ho)
    | some v =>
      simp only [given, Option.map_some, bind_eq_ok, pure_eq_ok] at h
      obtain ⟨d, hd, others, ho, rfl⟩ := h
      exact .cons ⟨rfl, by simpa [given] using hd⟩ (ih ho)

/-- A collection of something is made of its parts. -/
private theorem collection_parts {α β : Type} {items : List α} {parts : Except Error (List β)}
    {make : List β → Datum} (full : items.isEmpty = false)
    (h : (if items.isEmpty then .ok .null else return make (← parts)) = .ok d) :
    ∃ ds, parts = .ok ds ∧ make ds = d := by
  simpa only [full, Bool.false_eq_true, if_false, bind_eq_ok, pure_eq_ok] using h

theorem convert_comes (h : b.convert v column type = .ok d) (full : v.isBlank = false) :
    b.Comes column v type d := by
  cases v with
  | null => cases full
  | list items =>
    cases type <;> simp only [convert, convertItems_eq_mapM, reduceCtorEq] at h
    case list =>
      obtain ⟨ds, hs, rfl⟩ := collection_parts full h
      exact .list (forall₂_mapM hs)
    case set =>
      obtain ⟨ds, hs, rfl⟩ := collection_parts full h
      exact .set rfl (forall₂_mapM hs)
  | set items =>
    cases type <;> simp only [convert, convertItems_eq_mapM, reduceCtorEq] at h
    case list =>
      rw [if_neg (by simpa [Value.isBlank] using full)] at h
      cases h
    case set =>
      obtain ⟨ds, hs, rfl⟩ := collection_parts full h
      exact .set rfl (forall₂_mapM hs)
  | map entries =>
    cases type <;> simp only [convert, convertEntries_eq_mapM, reduceCtorEq] at h
    case map =>
      obtain ⟨ds, hs, rfl⟩ := collection_parts full h
      refine .map ((forall₂_mapM hs).imp fun e d made => ?_)
      simp only [bind_eq_ok, pure_eq_ok] at made
      obtain ⟨dk, keyed, dv, valued, rfl⟩ := made
      exact ⟨keyed, valued⟩
  | fields entries =>
    cases type <;> simp only [convert, reduceCtorEq] at h
    case udt name =>
      split at h
      · cases h
      rename_i definition known
      split at h
      · cases h
      simp only [bind_eq_ok, pure_eq_ok] at h
      obtain ⟨ds, taken, rfl⟩ := h
      exact .fields known (takeFields_converters taken)
  | boolean | int | bigint | float | double | text | enum | bytes | timestamp | uuid =>
    simp only [convert] at h
    split at h
    · rename_i hs
      cases h
      exact .scalar hs
    · cases h

/-- Sets with the same members coincide if the elements do that come to one member. -/
theorem coincide_of_members {vs vs' : List Value} {element : ColumnType} {ds ds' : List Datum}
    (items : v.items? = some vs) (items' : v'.items? = some vs')
    (each : List.Forall₂ (fun x d => b.convert x column element = .ok d) vs ds)
    (each' : List.Forall₂ (fun x d => b.convert x column element = .ok d) vs' ds')
    (members : ∀ d, d ∈ ds ↔ d ∈ ds')
    (alike : ∀ x ∈ vs, ∀ y d, b.convert x column element = .ok d → b.convert y column element = .ok d →
      Coincide b.types element x y) : Coincide b.types (.set element) v v' := by
  have there : ∀ x ∈ vs, ∃ y ∈ vs', Coincide b.types element x y := by
    intro x hx
    obtain ⟨d, hd, made⟩ := exists_of_forall₂ each hx
    obtain ⟨y, hy, made'⟩ := exists_of_forall₂ each'.flip ((members d).mp hd)
    exact ⟨y, hy, alike x hx y d made made'⟩
  have back : ∀ y ∈ vs', ∃ x ∈ vs, Coincide b.types element x y := by
    intro y hy
    obtain ⟨d, hd, made'⟩ := exists_of_forall₂ each' hy
    obtain ⟨x, hx, made⟩ := exists_of_forall₂ each.flip ((members d).mpr hd)
    exact ⟨x, hx, alike x hx y d made made'⟩
  choose! there ht using there
  choose! back hb using back
  exact .set there back items items' (fun x hx => (ht x hx).1) (fun x hx => (ht x hx).2)
    (fun y hy => (hb y hy).1) fun y hy => (hb y hy).2

/-- Values that come to the same coincide. -/
theorem coincide_of_eq (h : b.convert v column type = .ok d) (h' : b.convert v' column type = .ok e)
    (same : d = e) : Coincide b.types type v v' := by
  induction v using Value.parts_induction generalizing v' column type d e with
  | h v ih =>
  cases blank : v.isBlank with
  | true =>
    have none : e.cell = none := same ▸ (convert_cell h).mpr blank
    exact .blank blank ((convert_cell h').mp none)
  | false =>
    have full : v'.isBlank = false := by
      rw [← Bool.not_eq_true, ← convert_cell h', ← same, convert_cell h, blank]
      decide
    have made' := convert_comes h' full
    cases convert_comes h blank with
    | scalar hs => exact coincide_of_scalar hs (same ▸ made'.scalar_inv (scalar_isSimple hs))
    | list each =>
      obtain ⟨vs', ds', rfl, rfl, each'⟩ := made'.list_inv
      cases same
      obtain ⟨len, shared⟩ := List.forall₂_iff_zip.mp (shared_of_forall₂ each each')
      refine .list len fun p hp => ?_
      obtain ⟨d, hd, hd'⟩ := shared hp
      exact ih p.1 (List.of_mem_zip hp).1 hd hd' rfl
    | @set _ vs element ds items each =>
      obtain ⟨vs', ds', items', rfl, each'⟩ := made'.set_inv
      have inside : ∀ x ∈ vs, x ∈ v.parts := by
        cases v <;> cases items <;> exact fun _ => id
      refine coincide_of_members items items' each each' (fun d => ?_) fun x hx y d made made' =>
        ih x (inside x hx) made made' rfl
      rw [← SortedSet.mem_ofList, Datum.set.inj same, SortedSet.mem_ofList]
    | map each =>
      obtain ⟨es', ds', rfl, rfl, each'⟩ := made'.map_inv
      cases same
      obtain ⟨len, shared⟩ := List.forall₂_iff_zip.mp (shared_of_forall₂ each each')
      refine .map len (fun p hp => ?_) fun p hp => ?_
      all_goals obtain ⟨d, ⟨keyed, valued⟩, keyed', valued'⟩ := shared hp
      all_goals have member := (List.of_mem_zip hp).1
      · exact ih p.1.1 (List.mem_append_left _ (List.mem_map_of_mem member)) keyed keyed' rfl
      · exact ih p.1.2 (List.mem_append_right _ (List.mem_map_of_mem member)) valued valued' rfl
    | @fields es name definition ds known each =>
      obtain ⟨es', ds', rfl, rfl, each'⟩ := made'.fields_inv known
      cases same
      refine .fields known fun f hf => ?_
      obtain ⟨d, ⟨-, made⟩, -, made'⟩ := List.forall₂_same.mp (shared_of_forall₂ each each') f hf
      cases given : es.lookup f.1 with
      | some x =>
        rw [given] at made
        exact ih x (List.mem_map_of_mem (mem_of_lookup given)) made made' rfl
      | none =>
        have null : .null = d.2 := by simpa [given, convert] using made
        exact .blank rfl ((convert_cell made').mp (by rw [← null]; rfl))

theorem eq_of_scalar (simple : type.isSimple = true) (same : scalar? v type = scalar? v' type)
    (made : b.Comes column v type d) (made' : b.Comes column v' type e) : d = e :=
  Option.some.inj ((made.scalar_inv simple).symm.trans (same.trans (made'.scalar_inv simple)))

theorem eq_of_comes (alike : v.isBlank = v'.isBlank) (h : b.convert v column type = .ok d)
    (h' : b.convert v' column type = .ok e)
    (full : b.Comes column v type d → b.Comes column v' type e → d = e) : d = e := by
  cases blank : v.isBlank with
  | true => rw [eq_null_of_isBlank blank h, eq_null_of_isBlank (alike ▸ blank) h']
  | false => exact full (convert_comes h blank) (convert_comes h' (alike ▸ blank))

/-- Values that coincide come to the same. -/
theorem eq_of_coincide (same : Coincide b.types type v v') (h : b.convert v column type = .ok d)
    (h' : b.convert v' column type = .ok e) : d = e := by
  induction same generalizing column d e with
  | same => exact Except.ok.inj (h.symm.trans h')
  | blank blank blank' => rw [eq_null_of_isBlank blank h, eq_null_of_isBlank blank' h']
  | integer wide hn hn' =>
    have alike := (Value.integer_full hn).trans (Value.integer_full hn').symm
    refine eq_of_comes alike h h' fun made made' => ?_
    obtain rfl | rfl := wide <;> exact eq_of_scalar rfl (by simp [hn, hn']) made made'
  | floating hx hx' =>
    have alike := (Value.floating_full hx).trans (Value.floating_full hx').symm
    refine eq_of_comes alike h h' fun made made' => ?_
    exact eq_of_scalar rfl (by simp [hx, hx']) made made'
  | word textual hs hs' =>
    have alike := (Value.word_full hs).trans (Value.word_full hs').symm
    refine eq_of_comes alike h h' fun made made' => ?_
    rename_i type _ _ _
    cases type <;> cases textual <;> exact eq_of_scalar rfl (by simp [hs, hs']) made made'
  | list len each ih =>
    refine eq_of_comes (Coincide.list len each).isBlank h h' fun made made' => ?_
    obtain ⟨_, ds, ⟨⟩, rfl, items⟩ := made.list_inv
    obtain ⟨_, ds', ⟨⟩, rfl, items'⟩ := made'.list_inv
    rw [eq_of_forall₂ items items' (List.forall₂_iff_zip.mpr ⟨len, fun hp _ _ => ih _ hp⟩)]
  | set there back items items' ht same hb same' ih ih' =>
    have alike := (Coincide.set there back items items' ht same hb same').isBlank
    refine eq_of_comes alike h h' fun made made' => ?_
    obtain ⟨vs, ds, given, rfl, each⟩ := made.set_inv
    obtain ⟨vs', ds', given', rfl, each'⟩ := made'.set_inv
    obtain rfl := Option.some.inj (given.symm.trans items)
    obtain rfl := Option.some.inj (given'.symm.trans items')
    refine congrArg Datum.set (Ascending.ext (SortedSet.ofList ds).ascending
      (SortedSet.ofList ds').ascending fun d => ?_)
    rw [SortedSet.mem_ofList, SortedSet.mem_ofList]
    constructor
    · intro hd
      obtain ⟨x, hx, hxd⟩ := exists_of_forall₂ each.flip hd
      obtain ⟨d', hd', hyd⟩ := exists_of_forall₂ each' (ht x hx)
      exact ih x hx hxd hyd ▸ hd'
    · intro hd
      obtain ⟨y, hy, hyd⟩ := exists_of_forall₂ each'.flip hd
      obtain ⟨d', hd', hxd⟩ := exists_of_forall₂ each (hb y hy)
      exact ih' y hy hxd hyd ▸ hd'
  | map len keys values ih ih' =>
    refine eq_of_comes (Coincide.map len keys values).isBlank h h' fun made made' => ?_
    obtain ⟨_, ds, ⟨⟩, rfl, entries⟩ := made.map_inv
    obtain ⟨_, ds', ⟨⟩, rfl, entries'⟩ := made'.map_inv
    refine congrArg Datum.map (eq_of_forall₂ entries entries' (List.forall₂_iff_zip.mpr ⟨len, ?_⟩))
    exact fun hp d e made made' => Prod.ext (ih _ hp made.1 made'.1) (ih' _ hp made.2 made'.2)
  | fields known each ih =>
    refine eq_of_comes (Coincide.fields known each).isBlank h h' fun made made' => ?_
    obtain ⟨_, ds, ⟨⟩, rfl, fields⟩ := made.fields_inv known
    obtain ⟨_, ds', ⟨⟩, rfl, fields'⟩ := made'.fields_inv known
    refine congrArg (Datum.udt _ _) (eq_of_forall₂ fields fields' (List.forall₂_same.mpr ?_))
    exact fun f hf d e made made' => Prod.ext (made.1.trans made'.1.symm) (ih f hf made.2 made'.2)

/-- Of two values that fit a type the store is given the same if and only if they coincide. -/
theorem convert_eq_iff (h : b.convert v column type = .ok d) (h' : b.convert v' column type = .ok e) :
    d = e ↔ Coincide b.types type v v' :=
  ⟨coincide_of_eq h h', fun same => eq_of_coincide same h h'⟩

/-- Nothing but null is blank in a column of a strict type. -/
theorem eq_null_of_strict (strict : type.isStrict = true) (h : b.convert v column type = .ok d)
    (blank : v.isBlank = true) : v = .null := by
  cases v with
  | null => rfl
  | list | set | map => cases type <;> cases strict <;> simp [convert] at h
  | _ => cases blank

/-- To a strict type conversion never gives two values one form. -/
theorem convert_injective (strict : type.isStrict = true) (h : b.convert v column type = .ok d)
    (h' : b.convert v' column type = .ok d) : v = v' := by
  have alike : v.isBlank = v'.isBlank := by
    rw [Bool.eq_iff_iff, ← convert_cell h, ← convert_cell h']
  cases blank : v.isBlank with
  | true => rw [eq_null_of_strict strict h blank, eq_null_of_strict strict h' (alike ▸ blank)]
  | false =>
    have simple := type.isSimple_of_isStrict strict
    exact scalar_injective strict ((convert_comes h blank).scalar_inv simple)
      ((convert_comes h' (alike ▸ blank)).scalar_inv simple)

end Binder
end WideColumn
