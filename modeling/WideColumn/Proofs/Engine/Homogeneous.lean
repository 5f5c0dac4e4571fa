import WideColumn.Proofs.Engine.CascadeDepth
import WideColumn.Proofs.Engine.Guarded

/-!
Counter updates and other mutations never go into one batch. Which mutations meet in a batch is not known
before all cascades have been gathered, so a combination that cannot be sent is refused only then.
-/
namespace WideColumn

open Outcome

variable {σ ρ : Type}

def Mutation.isCounter : Mutation → Bool
  | counter _ => true
  | _ => false

/-- The kind of a batch of statements, some of them counter updates, fits them and what was asked for. -/
structure Homogeneous (asked : Option BatchKind) (counters : List Bool) (kind : BatchKind) : Prop where
  nonempty : counters ≠ []
  unmixed : true ∉ counters ∨ false ∉ counters
  counter : kind = .counter ↔ false ∉ counters
  unlogged : kind = .unlogged ↔ asked = some .unlogged
  logged : kind = .logged ↔ false ∈ counters ∧ asked ≠ some .unlogged
  kept : ∀ other, asked = some other → kind = other

/-- Counter updates stand among others, or alone but are not to go into a counter batch. -/
inductive Clash (asked : Option BatchKind) (counters : List Bool) : Prop
  | mixed (some : true ∈ counters) (other : false ∈ counters)
  | overridden (all : false ∉ counters) (logged : asked = some .logged ∨ asked = some .unlogged)

section Kinds

variable {asked : Option BatchKind} {counters : List Bool} {kind : BatchKind}

/-- A counter batch is for counter updates only. -/
theorem Homogeneous.of_counters (nonempty : counters ≠ []) (only : false ∉ counters)
    (free : ∀ other, asked = some other → .counter = other) : Homogeneous asked counters .counter where
  nonempty
  unmixed := .inr only
  counter := by simp [only]
  unlogged := ⟨nofun, free _⟩
  logged := by simp [only]
  kept := free

/-- Other mutations go into a logged batch unless something else is asked for. -/
theorem Homogeneous.of_others (none : true ∉ counters) (other : false ∈ counters)
    (free : asked ≠ some .counter) : Homogeneous asked counters (asked.getD .logged) where
  nonempty := List.ne_nil_of_mem other
  unmixed := .inl none
  counter := by rcases asked with _ | _ | _ | _ <;> simp [other] at free ⊢
  unlogged := by rcases asked with _ | _ | _ | _ <;> simp
  logged := by rcases asked with _ | _ | _ | _ <;> simp [other] at free ⊢
  kept := by rintro kind rfl; rfl

theorem Clash.not_homogeneous (h : Clash asked counters) : ¬ Homogeneous asked counters kind := by
  intro fits
  cases h with
  | mixed some other => exact fits.unmixed.elim (· some) (· other)
  | overridden all logged =>
    obtain rfl := fits.counter.mpr all
    obtain asked | asked := logged <;> cases fits.kept _ asked

end Kinds

namespace Batch

variable {cs : List Compiled} {asked : Option BatchKind} {ctx : Context}

/-- There is a kind that fits, or the statements do not go together. -/
theorem kindFor_cases (nonempty : cs ≠ []) (asked : Option BatchKind) :
    (∃ kind, kindFor cs asked = .ok kind ∧ Homogeneous asked (cs.map Compiled.isCounter) kind) ∨
      ∃ r, kindFor cs asked = .error (.validation r) := by
  have all : cs.countP Compiled.isCounter = cs.length ↔ false ∉ cs.map Compiled.isCounter := by
    simp [List.countP_eq_length]
  have some : 0 < cs.countP Compiled.isCounter ↔ true ∈ cs.map Compiled.isCounter := by
    simp [List.countP_pos_iff]
  have counters : cs.map Compiled.isCounter ≠ [] := mt List.map_eq_nil_iff.mp nonempty
  simp only [kindFor, all, some]
  split
  · rename_i only
    split
    · exact .inl ⟨.counter, rfl, .of_counters counters only nofun⟩
    · exact .inl ⟨.counter, rfl, .of_counters counters only fun _ => Option.some.inj⟩
    · exact .inr ⟨_, rfl⟩
  rename_i other
  rw [not_not] at other
  split
  · exact .inr ⟨_, rfl⟩
  rename_i none
  split
  · exact .inr ⟨_, rfl⟩
  · rename_i kind uncounted
    exact .inl ⟨kind, rfl, .of_others none other fun same => uncounted (Option.some.inj same)⟩
  · exact .inl ⟨.logged, rfl, .of_others none other nofun⟩

theorem assemble_cases (cs : List Compiled) (asked : Option BatchKind) (ctx : Context) :
    (∃ b, assemble cs asked ctx = .ok b ∧ Homogeneous asked (cs.map Compiled.isCounter) b.kind) ∨
      ∃ r, assemble cs asked ctx = .error (.validation r) := by
  rw [assemble]
  split
  · exact .inr ⟨_, rfl⟩
  rename_i some
  split
  · exact .inr ⟨_, rfl⟩
  · have nonempty : cs ≠ [] := fun none => some (List.isEmpty_iff.mpr none)
    obtain ⟨kind, fit, fits⟩ | ⟨r, refused⟩ := kindFor_cases nonempty asked
    · exact .inl ⟨⟨kind, cs, ctx.options⟩, by rw [fit]; rfl, fits⟩
    · exact .inr ⟨r, by rw [refused]; rfl⟩

end Batch

namespace Op

/-- What is sent in a batch is homogeneous. One statement by itself goes without a batch if none is asked
for. -/
theorem submission_cases (cs : List Compiled) (asked : Option BatchKind) (ctx : Context) :
    (∃ c, cs = [c] ∧ asked = none ∧ submission cs asked ctx = .ok (.statement c)) ∨
      (∃ b, submission cs asked ctx = .ok (.batch b) ∧
        Homogeneous asked (cs.map Compiled.isCounter) b.kind) ∨
      ∃ r, submission cs asked ctx = .error (.validation r) := by
  unfold submission
  split
  · exact .inl ⟨_, rfl, rfl, rfl⟩
  · obtain ⟨b, made, fits⟩ | ⟨r, refused⟩ := Batch.assemble_cases cs asked ctx
    · exact .inr (.inl ⟨b, by rw [made]; rfl, fits⟩)
    · exact .inr (.inr ⟨r, by rw [refused]; rfl⟩)

theorem submission_clash {cs : List Compiled} {asked : Option BatchKind}
    (h : Clash asked (cs.map Compiled.isCounter)) (ctx : Context) :
    ∃ r, submission cs asked ctx = .error (.validation r) := by
  obtain ⟨c, rfl, rfl, -⟩ | ⟨b, -, fits⟩ | refused := submission_cases cs asked ctx
  · cases h with
    | mixed some other =>
      rw [List.map_singleton, List.mem_singleton] at some other
      cases some.trans other.symm
    | overridden all logged => simp at logged
  · exact absurd fits h.not_homogeneous
  · exact refused

variable [Store σ] {owners : ρ → Registry σ ρ} {ctx : Context} {w v : World σ}

/-- Compilation makes counter updates of counter updates, and reads of nothing. -/
theorem compile_isCounter {f : Mutation} {c : Compiled} (h : (compileMutation f ctx).run w = (.ok c, v)) :
    c.isMutation = true ∧ c.isCounter = f.isCounter := by
  obtain ⟨b, u, -, checked, planned⟩ := Mutation.compiled (m := f) h
  rw [Compiled.isMutation, Compiled.isCounter, Compiled.kind, Compiled.statement]
  cases f with
  | write =>
    obtain ⟨-, s, -, same⟩ | ⟨-, -, s, -, same⟩ := Write.plan_cases checked planned <;> rw [same] <;>
      exact ⟨rfl, rfl⟩
  | delete d =>
    simp only [Mutation.plan, Deletion.plan, bind_eq_ok, pure_eq_ok] at planned
    obtain ⟨_, -, _, -, same⟩ := planned
    rw [← same]
    exact ⟨rfl, rfl⟩
  | counter u =>
    simp only [Mutation.plan, CounterUpdate.plan, bind_eq_ok] at planned
    obtain ⟨_, -, planned⟩ := planned
    split at planned
    · cases planned
    simp only [bind_eq_ok, pure_eq_ok] at planned
    obtain ⟨_, -, same⟩ := planned
    rw [← same]
    exact ⟨rfl, rfl⟩

omit [Store σ] in
theorem intercepted_isCounter {m : Member ρ} {f : Mutation} (h : m.intercepted owners = .ok f) :
    f.isCounter = m.mutation.isCounter := by
  obtain ⟨mutation, owner⟩ := m
  cases mutation <;> simp only [Member.intercepted, ← bind_pure_comp, bind_eq_ok, pure_eq_ok] at h
  case write =>
    obtain ⟨_, -, rfl⟩ := h
    rfl
  case delete =>
    obtain ⟨_, -, rfl⟩ := h
    rfl
  case counter =>
    cases h
    rfl

variable (owners ctx) in
/-- What goes for the member is compiled from its mutation as intercepted. It is no read, and a counter
update if the mutation of the member is one. -/
def Carries (m : Member ρ) (s : WireStatement) : Prop :=
  ∃ f c, m.intercepted owners = .ok f ∧ (∃ w v : World σ, (compileMutation f ctx).run w = (.ok c, v)) ∧
    c.isMutation = true ∧ c.isCounter = m.mutation.isCounter ∧ s = c.wire

theorem Yields.isCounter {m : Member ρ} {c : Compiled} (h : Yields owners ctx m c) :
    c.isMutation = true ∧ c.isCounter = m.mutation.isCounter := by
  obtain ⟨f, intercepted, -, w, v, compiled⟩ := h
  obtain ⟨mutation, counter⟩ := compile_isCounter compiled
  exact ⟨mutation, counter.trans (intercepted_isCounter intercepted)⟩

theorem Yields.carries {m : Member ρ} {c : Compiled} (h : Yields owners ctx m c) :
    Carries owners ctx m c.wire := by
  obtain ⟨mutation, counter⟩ := h.isCounter
  obtain ⟨f, intercepted, -, compiled⟩ := h
  exact ⟨f, c, intercepted, compiled, mutation, counter, rfl⟩

section Work

variable {ms : List (Member ρ)} {pairs : List (Member ρ × Compiled)} {asked : Option BatchKind} {e : Error}

/-- Work is done in the order of the levels. -/
theorem Worked.order (h : Worked owners ctx w (ms.map (·, 0)) (.ok pairs) v) :
    pairs.map Prod.fst = breadthFirst owners cascadeLevels ms := by
  have top : 0 + cascadeLevels = cascadeLevels := Nat.zero_add _
  rcases prepared : (prepareAll (prepareMember owners ctx) cascadeLevels ms).run w with ⟨e | cs, u⟩
  · obtain ⟨same, -⟩ := h.unique (all_stopped top prepared)
    cases same
  · obtain ⟨pairs', -, order, worked⟩ := all_worked top prepared
    obtain ⟨same, -⟩ := h.unique worked
    cases same
    exact order 0

theorem Worked.counters (h : Worked owners ctx w (ms.map (·, 0)) (.ok pairs) v) :
    (pairs.map Prod.snd).map Compiled.isCounter =
      (breadthFirst owners cascadeLevels ms).map fun m => m.mutation.isCounter := by
  rw [← h.order, List.map_map, List.map_map]
  exact List.map_congr_left fun p hp => (h.yields rfl p hp).isCounter.2

theorem Worked.carries (h : Worked owners ctx w (ms.map (·, 0)) (.ok pairs) v) :
    List.Forall₂ (Carries owners ctx) (breadthFirst owners cascadeLevels ms)
      ((pairs.map Prod.snd).map Compiled.wire) := by
  rw [← h.order, List.map_map, List.forall₂_map_left_iff, List.forall₂_map_right_iff, List.forall₂_same]
  exact fun p hp => (h.yields rfl p hp).carries

theorem Worked.stops (h : Worked owners ctx w (ms.map (·, 0)) (.error e) v) (asked : Option BatchKind) :
    (mutate owners ms asked ctx).run w = (.error e, v) := by
  obtain ⟨work, u, worked, comes⟩ := mutate_worked owners ms asked ctx w
  obtain ⟨rfl, rfl⟩ := h.unique worked
  exact comes

/-- All that comes after the work is the submission. -/
theorem Worked.submits (h : Worked owners ctx w (ms.map (·, 0)) (.ok pairs) v) (asked : Option BatchKind) :
    (mutate owners ms asked ctx).run w =
      (do submit (← ofExcept (submission (pairs.map Prod.snd) asked ctx))).run v := by
  obtain ⟨work, u, worked, comes⟩ := mutate_worked owners ms asked ctx w
  obtain ⟨rfl, rfl⟩ := h.unique worked
  exact comes

theorem Worked.refuses (h : Worked owners ctx w (ms.map (·, 0)) (.ok pairs) v)
    (refused : submission (pairs.map Prod.snd) asked ctx = .error e) :
    (mutate owners ms asked ctx).run w = (.error e, v) := by
  rw [h.submits asked, refused]
  exact run_bind_error (run_ofExcept _ v)

theorem Worked.sends (h : Worked owners ctx w (ms.map (·, 0)) (.ok pairs) v) {s : Submission}
    (made : submission (pairs.map Prod.snd) asked ctx = .ok s) :
    ((mutate owners ms asked ctx).run w).2.sent = w.sent ++ [(s.request, s.options)] := by
  rw [h.submits asked, made, run_bind_ok (run_ofExcept _ v), submit_sent, h.quiet.sent]

end Work

/-- A batch that is sent has a statement for each member and for all that they cascade into, and is
homogeneous. If counter updates are among others there, or are not to go into a counter batch, nothing
is sent. All then ends with the failure of the first member that cannot be prepared, and without any as
not valid. -/
theorem mutate_homogeneous (owners : ρ → Registry σ ρ) (members : List (Member ρ))
    (asked : Option BatchKind) (ctx : Context) (w : World σ) :
    let all := breadthFirst owners cascadeLevels members
    let counters := all.map fun m => m.mutation.isCounter
    let outcome := (mutate owners members asked ctx).run w
    (∀ sent kind statements options, outcome.2.sent = w.sent ++ sent →
      (.batch kind statements, options) ∈ sent →
        Homogeneous asked counters kind ∧ List.Forall₂ (Carries owners ctx) all statements) ∧
    (Clash asked counters → ∃ work v, Worked owners ctx w (members.map (·, 0)) work v ∧ v.sent = w.sent ∧
      match work with
      | .error e => outcome = (.error e, v)
      | .ok _ => ∃ r, outcome = (.error (.validation r), v)) := by
  intro all counters outcome
  obtain ⟨work, v, worked, -⟩ := mutate_worked owners members asked ctx w
  have quiet := worked.quiet.sent
  have nothing {e : Error} {sent : List (Request × Options)} (failed : outcome = (.error e, v))
      (grown : outcome.2.sent = w.sent ++ sent) : sent = [] := by
    rw [failed, quiet] at grown
    exact List.self_eq_append_right.mp grown
  cases work with
  | error e =>
    have stopped : outcome = (.error e, v) := worked.stops asked
    refine ⟨fun sent kind statements options grown among => ?_, fun _ => ⟨_, v, worked, quiet, stopped⟩⟩
    rw [nothing stopped grown] at among
    cases among
  | ok pairs =>
    have same : (pairs.map Prod.snd).map Compiled.isCounter = counters := worked.counters
    refine ⟨fun sent kind statements options grown among => ?_, fun clash => ⟨_, v, worked, quiet, ?_⟩⟩
    · have sends {s : Submission} (made : submission (pairs.map Prod.snd) asked ctx = .ok s) :
          (.batch kind statements, options) = (s.request, s.options) := by
        rw [List.append_cancel_left (grown.symm.trans (worked.sends made))] at among
        exact List.mem_singleton.mp among
      obtain ⟨c, -, -, made⟩ | ⟨b, made, fits⟩ | ⟨r, refused⟩ :=
        submission_cases (pairs.map Prod.snd) asked ctx
      · cases sends made
      · have carried := submission_statements made
        obtain ⟨request, -⟩ := Prod.mk.inj (sends made)
        rw [← request, Request.statements] at carried
        obtain ⟨rfl, -⟩ := Request.batch.inj request
        rw [same] at fits
        rw [carried]
        exact ⟨fits, worked.carries⟩
      · rw [nothing (worked.refuses refused) grown] at among
        cases among
    · obtain ⟨r, refused⟩ := submission_clash (same.symm ▸ clash) ctx
      exact ⟨r, worked.refuses refused⟩

/-- Two counter updates by themselves, and a write that cascades into one. -/
theorem counters_together_or_mixed :
    let stats : TableId := ⟨"k", "c"⟩
    let id : TableId := ⟨"k", "a"⟩
    let hits (n : Int32) : Member Unit :=
      ⟨.counter { table := stats, keys := .ofList [("id", .int n)], column := "hits", delta := 1 }, none⟩
    let row : Member Unit := ⟨.write { table := id, values := .ofList [("id", .int 1)] }, some ()⟩
    let owners : Unit → Registry Script Unit := fun _ => { cascadesOnWrite := [fun _ => ⟨0, .ok [hits 1]⟩] }
    let world : World Script := World.new {} { tables := [
      ⟨stats, [⟨"id", .int, .partitionKey⟩, ⟨"hits", .counter, .regular⟩]⟩,
      ⟨id, [⟨"id", .int, .partitionKey⟩]⟩] }
    let text := "UPDATE k.c SET hits = hits + ? WHERE id = ?"
    let hit (n : Int32) : WireStatement := ⟨text, some ⟨"stmt-0", text⟩, [.bigint 1, .int n]⟩
    (((mutate owners [hits 1, hits 2] none {}).run world).2.sent = [(.batch .counter [hit 1, hit 2], {})] ∧
      Homogeneous none [true, true] .counter ∧
      List.Forall₂ (Carries owners {}) [hits 1, hits 2] [hit 1, hit 2]) ∧
    Clash none [false, true] ∧
      ((mutate owners [row] none {}).run world).1 = .error (.validation .mixedCounters) ∧
      ((mutate owners [row] none {}).run world).2.sent = [] := by
  intro stats id hits row owners world text hit
  have leaf (ms : List (Member Unit)) (counters : ms.flatMap (·.offspring owners) = []) (levels : Nat) :
      breadthFirst owners levels ms = ms := breadthFirst_of_barren counters levels
  have fresh : world.sent = [] := rfl
  refine ⟨?_, ?_⟩
  · have sent : ((mutate owners [hits 1, hits 2] none {}).run world).2.sent =
        [(.batch .counter [hit 1, hit 2], {})] := by decide +kernel
    obtain ⟨fits, carried⟩ := (mutate_homogeneous owners [hits 1, hits 2] none {} world).1
      [(.batch .counter [hit 1, hit 2], {})] .counter [hit 1, hit 2] {} (by rw [sent, fresh]; rfl)
      List.mem_cons_self
    rw [leaf [hits 1, hits 2] rfl] at fits carried
    exact ⟨sent, fits, carried⟩
  · have all : breadthFirst owners cascadeLevels [row] = [row, hits 1] :=
      congrArg (row :: ·) (leaf [hits 1] rfl 7)
    have clash : Clash none [false, true] := .mixed (by decide) (by decide)
    obtain ⟨work, v, -, quiet, outcome⟩ :=
      (mutate_homogeneous owners [row] none {} world).2 (by rw [all]; exact clash)
    have ended : ((mutate owners [row] none {}).run world).2 = v := by
      cases work with
      | error e => exact congrArg Prod.snd outcome
      | ok pairs =>
        obtain ⟨r, outcome⟩ := outcome
        exact congrArg Prod.snd outcome
    exact ⟨clash, by decide +kernel, by rw [ended, quiet, fresh]⟩

/-- A write that does not compile ends all before it is known that it stands beside a counter update. -/
theorem unknown_column_before_mixed :
    let stats : TableId := ⟨"k", "c"⟩
    let id : TableId := ⟨"k", "a"⟩
    let hits : Member Unit :=
      ⟨.counter { table := stats, keys := .ofList [("id", .int 1)], column := "hits", delta := 1 }, none⟩
    let row : Member Unit :=
      ⟨.write { table := id, values := .ofList [("id", .int 1), ("nope", .int 2)] }, none⟩
    let owners : Unit → Registry Script Unit := fun _ => {}
    let world : World Script := World.new {} { tables := [
      ⟨stats, [⟨"id", .int, .partitionKey⟩, ⟨"hits", .counter, .regular⟩]⟩,
      ⟨id, [⟨"id", .int, .partitionKey⟩]⟩] }
    hits.mutation.isCounter = true ∧ row.mutation.isCounter = false ∧
      ((mutate owners [hits, row] none {}).run world).1 = .error (.unknownColumn "k.a" "nope") :=
  ⟨rfl, rfl, by decide +kernel⟩

end Op
end WideColumn
