import WideColumn.Proofs.Engine.Callers
import WideColumn.Scenario.Script

/-!
What calls are told of tables after the metadata has been dropped. The cache is empty then, and loads
that had begun before do not fill it; a refresh that has a question open does.
-/
namespace WideColumn.Concourse

variable {σ : Type} {a b c : Concourse σ}

/-- The store had described the table so for a refresh, which has not used that answer yet. -/
def Outstanding (a : Concourse σ) (id : TableId) (table : Table) : Prop :=
  ∃ (n : Nat) (v : Visit), a.errands[n]? = some (.asked v) ∧ v.table = id ∧ v.answer = .ok (some table)

/-- The store has described the table so since then, or a refresh was about to use such an answer. -/
def Told (a : Concourse σ) (w : World σ) (id : TableId) (table : Table) : Prop :=
  .describeTable id (.ok (some table)) ∈ w.events.drop a.world.events.length ∨ a.Outstanding id table

/-- What the answer says of the table has been told since then. -/
def Tells (a : Concourse σ) (w : World σ) (id : TableId) (answer : Except Fault (Option Table)) : Prop :=
  ∀ table, answer = .ok (some table) → a.Told w id table

/-- The place has been made since then, and what it holds has been told since then. -/
def Fresh (a : Concourse σ) (w : World σ) (p : Place TableId TableEntry) : Prop :=
  a.catalog.tables.nextSlot ≤ p.slot ∧ ∀ entry, p.value = some entry → a.Told w p.key entry.table

/-- What a caller has, or will get, comes from a place made since then, or has been told since then. -/
def Follows (a : Concourse σ) (w : World σ) : Stand TableId TableEntry Error → Prop
  | .waiting _ slot | .loading _ slot => a.catalog.tables.nextSlot ≤ slot
  | .served id entry => a.Told w id entry.table
  | .away | .failed _ _ => True

/-- All that gets into the cache, and to those who have come since, has been told since. Loads that had
begun before may go on, but at places that are lost. -/
structure Since (a b : Concourse σ) : Prop where
  log : a.world.events.length ≤ b.world.events.length
  slots : a.catalog.tables.nextSlot ≤ b.catalog.tables.nextSlot
  places : ∀ p ∈ b.catalog.tables.places, a.Fresh b.world p
  loads : ∀ i id slot, b.stand i = .loading id slot → a.catalog.tables.nextSlot ≤ slot →
    a.Tells b.world id (b.answers i)
  visits : ∀ (n : Nat) (v : Visit), b.errands[n]? = some (.asked v) → a.Tells b.world v.table v.answer
  callers : ∀ i, a.stand i = .away → a.Follows b.world (b.stand i)

section Later

variable {v w : World σ} {id : TableId} {new : List Event} (log : a.world.events.length ≤ v.events.length)

include log

theorem Told.later {table : Table} (told : a.Told v id table) (events : w.events = v.events ++ new) :
    a.Told w id table := by
  refine told.imp_left fun since => ?_
  rw [events, List.drop_append_of_le_length log]
  exact List.mem_append_left _ since

theorem Tells.later {answer : Except Fault (Option Table)} (tells : a.Tells v id answer)
    (events : w.events = v.events ++ new) : a.Tells w id answer :=
  fun table ht => (tells table ht).later log events

theorem Fresh.later {p : Place TableId TableEntry} (fresh : a.Fresh v p)
    (events : w.events = v.events ++ new) : a.Fresh w p :=
  ⟨fresh.1, fun entry he => (fresh.2 entry he).later log events⟩

theorem Follows.later {s : Stand TableId TableEntry Error} (follows : a.Follows v s)
    (events : w.events = v.events ++ new) : a.Follows w s := by
  cases s with
  | served => exact Told.later log follows events
  | _ => exact follows

/-- What the store says now is told since. -/
theorem tells_now {answer : Except Fault (Option Table)}
    (events : w.events = v.events ++ [.describeTable id answer]) : a.Tells w id answer := by
  rintro table rfl
  refine .inl ?_
  rw [events, List.drop_append_of_le_length log]
  exact List.mem_append_right _ List.mem_cons_self

end Later

namespace Since

variable {b' : Concourse σ} {new : List Event}

/-- It is enough to look at what is new. -/
theorem next (since : Since a b) (events : b'.world.events = b.world.events ++ new)
    (slots : b.catalog.tables.nextSlot ≤ b'.catalog.tables.nextSlot)
    (places : ∀ p ∈ b'.catalog.tables.places, p ∈ b.catalog.tables.places ∨ a.Fresh b'.world p)
    (loads : ∀ i id slot, b'.stand i = .loading id slot →
      b.stand i = .loading id slot ∧ b'.answers i = b.answers i ∨ a.Tells b'.world id (b'.answers i))
    (visits : ∀ (n : Nat) (v : Visit), b'.errands[n]? = some (.asked v) →
      b.errands[n]? = some (.asked v) ∨ a.Tells b'.world v.table v.answer)
    (callers : ∀ i, a.stand i = .away → b'.stand i = b.stand i ∨ a.Follows b'.world (b'.stand i)) :
    Since a b' where
  log := by
    rw [events, List.length_append]
    exact Nat.le_add_right_of_le since.log
  slots := Nat.le_trans since.slots slots
  places p hp := (places p hp).elim (fun old => (since.places p old).later since.log events) fun h => h
  loads i id slot hi late := by
    obtain ⟨old, same⟩ | tells := loads i id slot hi
    · exact same ▸ (since.loads i id slot old late).later since.log events
    · exact tells
  visits n v hn := (visits n v hn).elim (fun old => (since.visits n v old).later since.log events) fun h => h
  callers i away := by
    obtain same | follows := callers i away
    · exact same ▸ (since.callers i away).later since.log events
    · exact follows

/-- A step that the callers have no part in. -/
theorem aside (since : Since a b) (stand : b'.stand = b.stand) (answers : b'.answers = b.answers)
    (events : b'.world.events = b.world.events ++ new)
    (slots : b.catalog.tables.nextSlot ≤ b'.catalog.tables.nextSlot)
    (places : ∀ p ∈ b'.catalog.tables.places, p ∈ b.catalog.tables.places ∨ a.Fresh b'.world p)
    (visits : ∀ (n : Nat) (v : Visit), b'.errands[n]? = some (.asked v) →
      b.errands[n]? = some (.asked v) ∨ a.Tells b'.world v.table v.answer) : Since a b' :=
  since.next events slots places (fun _ _ _ hi => .inl ⟨stand ▸ hi, by rw [answers]⟩) visits
    fun _ _ => .inl (by rw [stand])

/-- A step of one caller. -/
theorem turn (since : Since a b) (i : Nat) {s : Stand TableId TableEntry Error}
    (stand : b'.stand = Function.update b.stand i s) (answers : ∀ j, j ≠ i → b'.answers j = b.answers j)
    (errands : b'.errands = b.errands) (events : b'.world.events = b.world.events ++ new)
    (slots : b.catalog.tables.nextSlot ≤ b'.catalog.tables.nextSlot)
    (places : ∀ p ∈ b'.catalog.tables.places, p ∈ b.catalog.tables.places ∨ a.Fresh b'.world p)
    (loads : ∀ id slot, s = .loading id slot → a.Tells b'.world id (b'.answers i))
    (follows : a.stand i = .away → a.Follows b'.world s) : Since a b' := by
  refine since.next events slots places (fun j id slot hj => ?_) (fun n v hn => .inl (errands ▸ hn))
    fun j away => ?_ <;> by_cases same : j = i
  · subst same
    rw [stand, Function.update_self] at hj
    exact .inr (loads id slot hj)
  · rw [stand, Function.update_of_ne same] at hj
    exact .inl ⟨hj, answers j same⟩
  · subst same
    rw [stand, Function.update_self]
    exact .inr (follows away)
  · rw [stand, Function.update_of_ne same]
    exact .inl rfl

/-- Nothing is cached, and whoever loads does so at a place that is lost. -/
theorem of_empty (empty : a.catalog.tables.places = []) (keyed : a.hub.Keyed) : Since a a where
  log := Nat.le_refl _
  slots := Nat.le_refl _
  places p hp := by
    rw [empty] at hp
    cases hp
  loads i id slot hi late :=
    absurd (keyed.slots (congrArg Stand.place? hi)) (Nat.not_lt.mpr late)
  visits n v hn table answer := .inr ⟨n, v, hn, rfl, answer⟩
  callers i away := away ▸ trivial

/-- Any place that is acquired is fresh, and so are the others. -/
private theorem acquired (since : Since a b) (id : TableId) :
    a.catalog.tables.nextSlot ≤ (b.catalog.tables.acquire id).1.slot ∧
    (∀ entry, (b.catalog.tables.acquire id).1.value = some entry → a.Told b.world id entry.table) ∧
    ∀ p ∈ (b.catalog.tables.acquire id).2.places, p ∈ b.catalog.tables.places ∨ a.Fresh b.world p := by
  obtain ⟨p, hp, rfl, found⟩ | ⟨-, found⟩ := b.catalog.tables.acquire_cases id <;> rw [found]
  · refine ⟨(since.places p hp).1, (since.places p hp).2, fun q hq => .inl ?_⟩
    exact (List.mem_cons.mp (Cache.Holds.put_subset p hq)).elim (· ▸ hp) fun old => old
  · refine ⟨since.slots, nofun, fun q hq => ?_⟩
    obtain rfl | old := List.mem_cons.mp (Cache.Holds.put_subset _ hq)
    · exact .inr ⟨since.slots, nofun⟩
    · exact .inl old

private theorem asked_of_set {errands : List Errand} {n k : Nat} {e : Errand} {v : Visit}
    (h : (errands.set n e)[k]? = some (.asked v)) (closed : ∀ u, e ≠ .asked u) :
    errands[k]? = some (.asked v) := by
  grind

private theorem quiet {w : World σ} : w.events = w.events ++ [] := (List.append_nil _).symm

/-- A load that ends well fills the place, and serves all who are there, with what it has been told; that
is for their key. -/
private theorem succeed (since : Since a b) (ordered : b.Ordered) {i slot : Nat} {id : TableId}
    {entry : TableEntry} (hi : b.hub.stand i = .loading id slot)
    (told : a.catalog.tables.nextSlot ≤ slot → a.Told b.world id entry.table) :
    Since a (b.withHub (b.hub.settle i id slot (.ok entry))) := by
  have place : (b.hub.stand i).place? = some (id, slot) := congrArg Stand.place? hi
  have stand (j : Nat) := ordered.orderly.stand_succeed hi entry j
  refine since.next quiet (Nat.le_refl _) (fun p hp => ?_) (fun j id' slot' hj => ?_)
    (fun _ _ => .inl) fun j away => ?_
  · obtain ⟨q, hq, rfl⟩ := List.mem_map.mp hp
    split
    · rename_i same
      have late := (since.places q hq).1
      refine .inr ⟨late, fun _ value => ?_⟩
      obtain rfl := Option.some.inj value
      exact ordered.keyed.places place q hq same ▸ told (same ▸ late)
    · exact .inl hq
  · change (b.hub.settle i id slot (.ok entry)).stand j = _ at hj
    rw [stand] at hj
    split at hj
    · cases hs : b.hub.stand j <;> rw [hs] at hj <;> cases hj
    · exact .inl ⟨hj, rfl⟩
  · have follows : a.Follows b.world (b.hub.stand j) := since.callers j away
    show (b.hub.settle i id slot (.ok entry)).stand j = b.hub.stand j ∨
      a.Follows b.world ((b.hub.settle i id slot (.ok entry)).stand j)
    rw [stand]
    split
    · rename_i there
      obtain rfl | waits := there
      · rw [hi] at follows ⊢
        exact .inr (told follows)
      · obtain ⟨k, hk⟩ := Stand.waitsAt_iff.mp waits
        obtain rfl : k = id := ordered.keyed.callers (congrArg Stand.place? hk) place
        rw [hk] at follows ⊢
        exact .inr (told follows)
    · exact .inl rfl

variable [Store σ]

/-- Who comes finds what has been told since, or a place made since. -/
private theorem lookUp (since : Since a b) (i : Nat) (id : TableId) : Since a (b.step (.lookUp i id)) := by
  obtain ⟨late, told, places⟩ := since.acquired id
  have slots := (b.catalog.tables.shifts_acquire id).slots
  rw [Concourse.step, Hub.step]
  cases hi : b.hub.stand i with
  | away =>
    dsimp only
    cases hv : (b.hub.cache.acquire id).1.value with
    | some entry =>
      rw [Hub.arrive_served i hv]
      exact since.turn i rfl (fun _ _ => rfl) rfl quiet slots places (by simp) fun _ => told entry hv
    | none =>
      rw [Hub.arrive_empty i hv]
      exact since.turn i rfl (fun _ _ => rfl) rfl quiet slots places (by simp) fun _ => late
  | _ => exact since

private theorem begin (since : Since a b) (i : Nat) : Since a (b.step (.begin i)) := by
  have follows := since.callers i
  cases hi : b.stand i with
  | waiting id slot =>
    rw [hi] at follows
    cases turn : b.hub.isTurn i slot with
    | true =>
      rw [step_begin hi turn]
      have events := b.world.answered_events (Store.describeTable id b.world.store).2
        (.describeTable id (Store.describeTable id b.world.store).1)
      refine since.turn i rfl (fun j other => Function.update_of_ne other ..) rfl events (Nat.le_refl _)
        (fun _ => .inl) (fun id' slot' hs => ?_) follows
      cases hs
      show a.Tells _ id (Function.update b.answers i (Store.describeTable id b.world.store).1 i)
      rw [Function.update_self]
      exact tells_now since.log events
    | false =>
      simp only [Concourse.step, hi, turn]
      exact since
  | _ => simpa only [Concourse.step, hi] using since

private theorem finish (since : Since a b) (ordered : b.Ordered) (i : Nat) :
    Since a (b.step (.finish i)) := by
  cases hi : b.hub.stand i with
  | loading id slot =>
    obtain ⟨outcome, ran, answer⟩ := Op.tableEntry_run id (b.answers i) b.world
    have step : b.step (.finish i) = b.withHub (b.hub.settle i id slot outcome) := by
      rw [Concourse.step, show b.stand i = _ from hi]
      dsimp only
      rw [ran, Hub.step, hi]
    rw [step]
    cases outcome with
    | error e =>
      exact since.turn i rfl (fun _ _ => rfl) rfl quiet (Nat.le_refl _) (fun _ => .inl) (by simp)
        fun _ => trivial
    | ok entry =>
      exact since.succeed ordered hi fun late => since.loads i id slot hi late _ (answer entry rfl).1
  | _ =>
    rw [Concourse.step, show b.stand i = _ from hi]
    exact since

/-- A refresh stores what it has been told, and asks anew. -/
private theorem advance (since : Since a b) (n : Nat) : Since a (b.step (.advance n)) := by
  rw [Concourse.step]
  split
  · exact since.aside rfl rfl quiet (Nat.le_refl _) (fun _ => .inl)
      fun _ _ hk => .inl (asked_of_set hk fun _ same => by cases same)
  · rename_i ids he
    cases ids with
    | nil =>
      exact since.aside rfl rfl quiet (Nat.le_refl _) (fun _ => .inl)
        fun _ _ hk => .inl (asked_of_set hk fun _ same => by cases same)
    | cons id later =>
      have events := b.world.answered_events (Store.describeTable id b.world.store).2
        (.describeTable id (Store.describeTable id b.world.store).1)
      refine since.aside rfl rfl events (Nat.le_refl _) (fun _ => .inl) fun k v hk => ?_
      change (b.errands.set n (.asked ⟨id, (Store.describeTable id b.world.store).1, later⟩))[k]? = _ at hk
      by_cases same : n = k
      · subst same
        rw [List.getElem?_set_self (List.getElem?_eq_some_iff.mp he).1] at hk
        cases hk
        exact .inr (tells_now since.log events)
      · rw [List.getElem?_set_ne same] at hk
        exact .inl hk
  · rename_i v he
    obtain ⟨id, fault | _ | table, later⟩ := v
    · exact since.aside rfl rfl quiet (Nat.le_refl _) (fun _ => .inl)
        fun _ _ hk => .inl (asked_of_set hk fun _ same => by cases same)
    · exact since.aside rfl rfl quiet (Nat.le_refl _) (fun p hp => .inl (List.mem_filter.mp hp).1)
        fun _ _ hk => .inl (asked_of_set hk fun _ same => by cases same)
    · have told := since.visits n _ he table rfl
      refine since.aside rfl rfl quiet (Nat.le_succ _) (fun p hp => ?_)
        fun _ _ hk => .inl (asked_of_set hk fun _ same => by cases same)
      obtain rfl | old := List.mem_cons.mp (Cache.Holds.put_subset _ hp)
      · exact .inr ⟨since.slots, fun entry value => Option.some.inj value ▸ told⟩
      · exact .inl old
  · exact since

private theorem leave (since : Since a b) (i : Nat) : Since a (b.step (.leave i)) := by
  rw [Concourse.step]
  split
  · rename_i entry _
    have hub := b.takeLeave_hub i entry
    have tables : (b.takeLeave i entry).catalog.tables = b.catalog.tables := congrArg Hub.cache hub
    obtain ⟨answers, events, errands⟩ := b.takeLeave_kept i entry
    refine since.aside (congrArg Hub.stand hub) answers (events.trans quiet)
      (Nat.le_of_eq (congrArg _ tables.symm)) (fun p hp => .inl (tables ▸ hp)) fun k v hk => .inl ?_
    obtain same | same := errands <;> rw [same] at hk
    · exact hk
    · grind
  · exact since

/-- Every step keeps to what has been told since. -/
theorem step (since : Since a b) (ordered : b.Ordered) (m : Move σ) : Since a (b.step m) := by
  cases m with
  | lookUp i id => exact since.lookUp i id
  | begin i => exact since.begin i
  | finish i => exact since.finish ordered i
  | leave i => exact since.leave i
  | advance n => exact since.advance n
  | evict id =>
    exact since.aside rfl rfl quiet (Nat.le_refl _) (fun p hp => .inl (List.mem_filter.mp hp).1)
      fun _ _ => .inl
  | wait | change =>
    exact since.aside rfl rfl quiet (Nat.le_refl _) (fun _ => .inl) fun _ _ => .inl
  | invalidate =>
    rw [Concourse.step, Op.run_invalidateMetadata]
    split
    · exact since.aside rfl rfl (World.events_of_trace rfl) (Nat.le_refl _) (fun _ hp => by cases hp)
        fun _ _ => .inl
    · exact since
  | cut n =>
    rw [Concourse.step]
    split
    · exact since
    · exact since
    · exact since.aside rfl rfl quiet (Nat.le_refl _) (fun _ => .inl)
        fun _ _ hn => .inl (asked_of_set hn fun _ same => by cases same)

end Since

variable [Store σ]

/-- Whoever calls after the metadata has been dropped gets what the store has described since, or what it
had described for a refresh that was just about to store it. -/
theorem described_since_drop (reached : c.Reached)
    (dropped : (Op.invalidateMetadata.run c.world).1 = .ok true) {i : Nat}
    (away : (c.step .invalidate).stand i = .away) {later : List (Move σ)} {id : TableId}
    {entry : TableEntry} (served : ((c.step .invalidate).run later).stand i = .served id entry) :
    .describeTable id (.ok (some entry.table)) ∈ ((c.step .invalidate).run later).world.events.drop
        (c.step .invalidate).world.events.length ∨
      (c.step .invalidate).Outstanding id entry.table := by
  have ordered : (c.step .invalidate).Ordered := reached.ordered.step .invalidate
  have empty : (c.step .invalidate).catalog.tables.places = [] := by
    show (Op.invalidateMetadata.run c.world).2.catalog.tables.places = []
    rw [Op.invalidateMetadata_ok dropped]
    rfl
  generalize c.step .invalidate = a at away served ordered empty
  have since : Since a (a.run later) ∧ (a.run later).Ordered :=
    run_induction (P := fun b => Since a b ∧ b.Ordered) ⟨.of_empty empty ordered.keyed, ordered⟩
      fun b m ⟨since, ordered⟩ => ⟨since.step ordered m, ordered.step m⟩
  have follows := since.1.callers i away
  rw [served] at follows
  exact follows

/-- A call after the invalidation finds nothing and asks the store. -/
theorem described_after_drop :
    let id : TableId := ⟨"shop", "orders"⟩
    let old : Table := ⟨id, [⟨"id", .int, .partitionKey⟩]⟩
    let table : Table := ⟨id, [⟨"id", .int, .partitionKey⟩, ⟨"state", .text, .regular⟩]⟩
    let c := (new {} { tables := [old] }).run
      [.lookUp 0 id, .begin 0, .finish 0, .leave 0, .change ({ tables := [table] } : Script)]
    let a := c.step .invalidate
    let b := a.run [.lookUp 1 id, .begin 1, .finish 1]
    c.Reached ∧ (Op.invalidateMetadata.run c.world).1 = .ok true ∧ a.stand 1 = .away ∧
      b.stand 1 = .served id ⟨table, 0⟩ ∧
      (.describeTable id (.ok (some table)) ∈ b.world.events.drop a.world.events.length ∨
        a.Outstanding id table) := by
  intro id old table c a b
  have reached : c.Reached := ⟨_, _, _, _, rfl⟩
  have dropped : (Op.invalidateMetadata.run c.world).1 = .ok true := by decide +kernel
  have away : a.stand 1 = .away := by decide +kernel
  have served : b.stand 1 = .served id ⟨table, 0⟩ := by decide +kernel
  clear_value c
  exact ⟨reached, dropped, away, served, described_since_drop reached dropped away served⟩

/-- The refresh asks for the table, which is then changed. The metadata is dropped, and after that the
refresh stores what it has been told: a call that starts then is served it, and the store is not asked. -/
theorem refresh_undoes_drop :
    let id : TableId := ⟨"shop", "orders"⟩
    let table (columns : List Column) : Table := ⟨id, ⟨"id", .int, .partitionKey⟩ :: columns⟩
    let store : Script := { tables := [table [⟨"state", .text, .regular⟩]] }
    let c := (new { metadataExpiry := 10 } { tables := [table []] }).run
      [.lookUp 0 id, .begin 0, .finish 0, .leave 0, .wait 11, .lookUp 1 id, .leave 1, .leave 1, .leave 1,
        .leave 1, .advance 0, .advance 0, .change store]
    let a := c.step .invalidate
    let b := a.run [.advance 0, .lookUp 2 id]
    (Op.invalidateMetadata.run c.world).1 = .ok true ∧ a.stand 2 = .away ∧
      b.stand 2 = .served id ⟨table [], 11⟩ ∧
      .describeTable id (.ok (some (table []))) ∉ b.world.events.drop a.world.events.length := by
  intro id table store c a b
  have silent : (b.world.events.drop a.world.events.length).isEmpty = true := by decide +kernel
  refine ⟨by decide +kernel, by decide +kernel, by decide +kernel, ?_⟩
  rw [List.isEmpty_iff.mp silent]
  exact List.not_mem_nil

end WideColumn.Concourse
