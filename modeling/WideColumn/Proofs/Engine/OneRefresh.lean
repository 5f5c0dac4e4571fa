import WideColumn.Proofs.Engine.Callers
import WideColumn.Scenario.Script

/-!
At most one background refresh is under way. The flag of the catalog has one holder at a time: a call that
has taken it and is about to start a refresh, or the refresh that has been started. A call that takes it
where nothing drives a refresh gives it back, and until then others find it taken.
-/
namespace WideColumn

variable {σ : Type}

/-- Whose the flag is: a call's that has taken it, and has neither started a refresh nor given the flag
back, or a refresh's that has not ended. -/
inductive Holder
  | call (caller : Nat)
  | refresh (errand : Nat)
  deriving DecidableEq

/-- The call has taken the flag, and has neither started a refresh nor given the flag back. -/
def Stage.isHolding : Stage → Bool
  | .holding | .counted => true
  | _ => false

/-- What there is to know of the refreshes: the flag, how many have been counted, how far the calls have
come that start them, and all of them. -/
structure Refreshes where
  flag : Bool
  started : Nat
  stage : Nat → Stage
  errands : List Errand

namespace Refreshes

def holds (r : Refreshes) : Holder → Bool
  | .call i => (r.stage i).isHolding
  | .refresh n => r.errands[n]?.any Errand.isAlive

/-- All that one step can do. -/
inductive Turnover : Refreshes → Refreshes → Prop
  | none (r : Refreshes) : Turnover r r
  /-- A call goes on that does not hold the flag. -/
  | passes {r : Refreshes} {i : Nat} {s : Stage} : (r.stage i).isHolding = false →
      s.isHolding = false → Turnover r { r with stage := Function.update r.stage i s }
  | takes {r : Refreshes} (i : Nat) : r.flag = false →
      Turnover r { r with flag := true, stage := Function.update r.stage i .holding }
  | gives {r : Refreshes} {i : Nat} : r.stage i = .holding →
      Turnover r { r with flag := false, stage := Function.update r.stage i .returned }
  | counts {r : Refreshes} {i : Nat} : r.stage i = .holding →
      Turnover r { r with started := r.started + 1, stage := Function.update r.stage i .counted }
  | starts {r : Refreshes} {i : Nat} : r.stage i = .counted → Turnover r
      { r with stage := Function.update r.stage i .returned, errands := r.errands ++ [.ready] }
  | goesOn {r : Refreshes} {n : Nat} {e : Errand} : r.holds (.refresh n) = true → e.isAlive = true →
      Turnover r { r with errands := r.errands.set n e }
  | ends {r : Refreshes} {n : Nat} : r.holds (.refresh n) = true →
      Turnover r { r with flag := false, errands := r.errands.set n .ended }

/-- One refresh has been counted and not been started, if its holder is about to do so. -/
def owed (r : Refreshes) : Option Holder → Nat
  | some (.call i) => if r.stage i = .counted then 1 else 0
  | _ => 0

/-- The flag has this holder and no other, or nobody has it. -/
structure HeldBy (r : Refreshes) (o : Option Holder) : Prop where
  flag : r.flag = o.isSome
  only : ∀ h, r.holds h = true ↔ o = some h
  count : r.started = r.errands.length + r.owed o

variable {r r' : Refreshes} {o : Option Holder} {h : Holder} {i n : Nat}

theorem HeldBy.flag_iff (held : r.HeldBy o) : r.flag = true ↔ ∃ h, r.holds h = true := by
  rw [held.flag, Option.isSome_iff_exists]
  exact exists_congr fun h => (held.only h).symm

theorem HeldBy.alone (held : r.HeldBy o) {h' : Holder} (hh : r.holds h = true)
    (hh' : r.holds h' = true) : h = h' :=
  Option.some.inj (((held.only h).mp hh).symm.trans ((held.only h').mp hh'))

/-- Nobody is about to start a refresh that has been counted. -/
theorem HeldBy.count_idle (held : r.HeldBy o) (idle : ∀ i, r.stage i ≠ .counted) :
    r.started = r.errands.length := by
  rw [held.count]
  obtain _ | i | n := o <;> simp [owed, idle]

theorem HeldBy.count_counted (held : r.HeldBy o) (counted : r.stage i = .counted) :
    r.started = r.errands.length + 1 := by
  obtain rfl := (held.only (.call i)).mp (congrArg Stage.isHolding counted)
  rw [held.count, owed, if_pos counted]

theorem holds_come (flag : Bool) (started : Nat) (s : Stage) :
    holds ⟨flag, started, Function.update r.stage i s, r.errands⟩ h =
      if h = .call i then s.isHolding else r.holds h := by
  cases h with
  | refresh n => rfl
  | call j =>
    by_cases same : j = i
    · subst same
      simp [holds]
    · simp [holds, same]

theorem holds_concat (flag : Bool) (started : Nat) :
    holds ⟨flag, started, r.stage, r.errands ++ [.ready]⟩ h =
      if h = .refresh r.errands.length then true else r.holds h := by
  cases h with
  | call i => rfl
  | refresh n => grind [holds, Errand.isAlive]

theorem holds_set (flag : Bool) (started : Nat) (e : Errand) (alive : r.holds (.refresh n) = true) :
    holds ⟨flag, started, r.stage, r.errands.set n e⟩ h =
      if h = .refresh n then e.isAlive else r.holds h := by
  cases h with
  | call i => rfl
  | refresh m => grind [holds]

/-- Each step leaves the flag with its holder, or passes it on, or takes it from nobody, or gives it back. -/
theorem HeldBy.turnover (held : r.HeldBy o) (turns : Turnover r r') : ∃ o', r'.HeldBy o' := by
  obtain ⟨flag, only, count⟩ := held
  cases turns with
  | none => exact ⟨o, flag, only, count⟩
  | @passes i s free after =>
    have same (h : Holder) : holds { r with stage := Function.update r.stage i s } h = r.holds h := by
      rw [holds_come]
      split
      · subst_vars
        exact after.trans free.symm
      · rfl
    refine ⟨o, flag, fun h => same h ▸ only h, count.trans (congrArg _ ?_)⟩
    obtain _ | j | n := o
    · rfl
    · have other : j ≠ i := by
        rintro rfl
        exact Bool.false_ne_true (free.symm.trans ((only _).mpr rfl))
      simp [owed, other]
    · rfl
  | takes i clear =>
    obtain rfl : o = none := Option.not_isSome_iff_eq_none.mp (by rw [← flag, clear]; nofun)
    refine ⟨some (.call i), rfl, fun h => ?_, by simpa [owed] using count⟩
    rw [holds_come]
    grind [Stage.isHolding]
  | @gives i holding =>
    obtain rfl := (only (.call i)).mp (by rw [holds, holding]; rfl)
    refine ⟨none, rfl, fun h => ?_, by simpa [owed, holding] using count⟩
    rw [holds_come]
    grind [Stage.isHolding]
  | @counts i holding =>
    obtain rfl := (only (.call i)).mp (by rw [holds, holding]; rfl)
    refine ⟨some (.call i), flag, fun h => ?_, by simpa [owed, holding] using count⟩
    rw [holds_come]
    grind [Stage.isHolding]
  | @starts i counted =>
    obtain rfl := (only (.call i)).mp (by rw [holds, counted]; rfl)
    refine ⟨some (.refresh r.errands.length), flag, fun h => ?_, by simpa [owed, counted] using count⟩
    have passed : holds ⟨r.flag, r.started, Function.update r.stage i .returned, r.errands ++ [.ready]⟩ h =
      if h = .refresh r.errands.length then true else if h = .call i then false else r.holds h := by
      rw [holds_concat (r := ⟨r.flag, r.started, Function.update r.stage i .returned, r.errands⟩),
        holds_come]
      rfl
    grind
  | @goesOn n e alive still =>
    obtain rfl := (only _).mp alive
    refine ⟨some (.refresh n), flag, fun h => ?_, by simpa [owed] using count⟩
    rw [holds_set _ _ e alive]
    grind
  | @ends n alive =>
    obtain rfl := (only _).mp alive
    refine ⟨none, rfl, fun h => ?_, by simpa [owed] using count⟩
    rw [holds_set _ _ .ended alive]
    grind [Errand.isAlive]

end Refreshes

namespace Concourse

variable {c : Concourse σ}

def refreshes (c : Concourse σ) : Refreshes :=
  ⟨c.catalog.refreshing, c.catalog.refreshesStarted, c.stage, c.errands⟩

open Refreshes (Turnover HeldBy)

/-- Each step of a call that returns is one of those. -/
theorem turnover_takeLeave (c : Concourse σ) (i : Nat) (entry : TableEntry) :
    Turnover c.refreshes (c.takeLeave i entry).refreshes := by
  rw [takeLeave]
  split
  · rename_i first
    refine .passes (i := i) (congrArg Stage.isHolding first) ?_
    split <;> rfl
  · rename_i expired
    split
    · exact .passes (i := i) (congrArg Stage.isHolding expired) rfl
    · rename_i held taken
      obtain ⟨clear, rfl⟩ := Catalog.claim_eq_some.mp taken
      exact .takes i clear
  · rename_i holding
    split
    · exact .counts holding
    · exact .gives holding
  · rename_i counted
    exact .starts counted
  · exact .none _

variable [Store σ]

omit [Store σ] in
private theorem holds_of_get {n : Nat} {e : Errand} (he : c.errands[n]? = some e)
    (alive : e.isAlive = true) : c.refreshes.holds (.refresh n) = true := by
  rw [Refreshes.holds, refreshes, he]
  exact alive

theorem turnover (c : Concourse σ) (m : Move σ) : Turnover c.refreshes (c.step m).refreshes := by
  cases m with
  | lookUp | evict | wait | change => exact .none _
  | begin i =>
    rw [step]
    split
    · split <;> exact .none _
    · exact .none _
  | finish i =>
    rw [step]
    split <;> exact .none _
  | leave i =>
    rw [step]
    split
    · exact c.turnover_takeLeave i _
    · exact .none _
  | advance n =>
    rw [step]
    split
    · rename_i he
      exact .goesOn (holds_of_get he rfl) rfl
    · rename_i ids he
      cases ids with
      | nil => exact .ends (holds_of_get he rfl)
      | cons id later => exact .goesOn (holds_of_get he rfl) rfl
    · rename_i v he
      have kept : (c.goOn n (do Op.keepAnswer v.table v.answer; return .going v.later)).refreshes =
          { c.refreshes with errands := c.errands.set n (.going v.later) } := by
        rcases v with ⟨_, _ | _ | _, _⟩ <;> rfl
      rw [kept]
      exact .goesOn (holds_of_get he rfl) rfl
    · exact .none _
  | cut n =>
    rw [step]
    split
    · exact .none _
    · exact .none _
    · rename_i dead ended
      cases he : c.errands[n]? with
      | none => exact absurd he dead
      | some e =>
        refine .ends (holds_of_get he ?_)
        cases e <;> first | rfl | exact absurd he ended
  | invalidate =>
    rw [step, Op.run_invalidateMetadata]
    split <;> exact .none _

theorem run_held (config : Config) (s : σ) (driven : Nat → Bool) (past : List (Move σ)) :
    ∃ o, ((new config s driven).run past).refreshes.HeldBy o := by
  refine run_induction (P := fun c => ∃ o, c.refreshes.HeldBy o) ⟨none, rfl, fun h => ?_, rfl⟩
    fun c m ⟨o, held⟩ => held.turnover (c.turnover m)
  cases h <;> exact ⟨nofun, nofun⟩

/-- The call has been served an entry that is expired by now. -/
def HasExpired (c : Concourse σ) (i : Nat) : Prop :=
  ∃ id entry, c.stand i = .served id entry ∧ entry.isExpired c.world.clock c.catalog.expiry = true

theorem step_kept (c : Concourse σ) (m : Move σ) : (c.step m).driven = c.driven ∧
    (c.step m).catalog.expiry = c.catalog.expiry ∧ c.world.clock ≤ (c.step m).world.clock := by
  have same : c.driven = c.driven ∧ c.catalog.expiry = c.catalog.expiry ∧ c.world.clock ≤ c.world.clock :=
    ⟨rfl, rfl, Nat.le_refl _⟩
  cases m with
  | lookUp | evict | change => exact same
  | wait ms => exact ⟨rfl, rfl, Nat.le_add_right _ _⟩
  | begin i =>
    rw [step]
    split
    · split <;> exact same
    · exact same
  | finish i =>
    rw [step]
    split <;> exact same
  | leave i =>
    rw [step]
    split
    · rw [takeLeave]
      split
      · exact same
      · split
        · exact same
        · rename_i held taken
          obtain ⟨-, rfl⟩ := Catalog.claim_eq_some.mp taken
          exact same
      · split <;> exact same
      · exact same
      · exact same
    · exact same
  | advance n =>
    rw [step]
    split
    · exact same
    · rename_i ids _
      cases ids <;> exact same
    · rename_i v _
      rcases v with ⟨_, _ | _ | _, _⟩ <;> exact same
    · exact same
  | cut n =>
    rw [step]
    split <;> exact same
  | invalidate =>
    rw [step, Op.run_invalidateMetadata]
    split <;> exact same

/-- What is no step of a call that returns starts no refresh. -/
theorem step_aside {m : Move σ} (aside : ∀ i, m ≠ .leave i) :
    (c.step m).stage = c.stage ∧ (c.step m).errands.length = c.errands.length := by
  cases m with
  | leave i => exact absurd rfl (aside i)
  | begin i =>
    rw [step]
    split
    · split <;> exact ⟨rfl, rfl⟩
    · exact ⟨rfl, rfl⟩
  | finish i =>
    rw [step]
    split <;> exact ⟨rfl, rfl⟩
  | advance n | cut n =>
    rw [step]
    split <;> first | exact ⟨rfl, rfl⟩ | exact ⟨rfl, List.length_set⟩
  | _ => exact ⟨rfl, rfl⟩

/-- An expired entry stays so, and with its caller. -/
theorem HasExpired.step {i : Nat} (has : c.HasExpired i) (m : Move σ) : (c.step m).HasExpired i := by
  obtain ⟨id, entry, served, expired⟩ := has
  obtain ⟨m', happens⟩ := c.happens m
  obtain ⟨-, expiry, clock⟩ := c.step_kept m
  have ended : (c.hub.stand i).isOver = true := congrArg Stand.isOver served
  have stays : (c.step m).stand i = c.stand i := (happens.turns i).ended ended
  refine ⟨id, entry, stays.trans served, ?_⟩
  rw [TableEntry.isExpired, decide_eq_true_iff] at expired ⊢
  omega

/-- How far a call comes with its next step. -/
def nextStage (c : Concourse σ) (i : Nat) (entry : TableEntry) : Stage :=
  match c.stage i with
  | .served => if entry.isExpired c.world.clock c.catalog.expiry then .expired else .returned
  | .expired => if c.catalog.refreshing then .returned else .holding
  | .holding => if c.driven i then .counted else .returned
  | .counted | .returned => .returned

omit [Store σ] in
theorem takeLeave_stage (c : Concourse σ) (i : Nat) (entry : TableEntry) :
    (c.takeLeave i entry).stage = Function.update c.stage i (c.nextStage i entry) := by
  rw [takeLeave, nextStage]
  cases stage : c.stage i with
  | served => rfl
  | expired =>
    cases taken : c.catalog.claim with
    | none => simp [Catalog.claim_eq_none.mp taken]
    | some held => simp [(Catalog.claim_eq_some.mp taken).1]
  | holding => cases c.driven i <;> rfl
  | counted => rfl
  | returned => exact (Function.update_eq_self_iff.mpr stage.symm).symm

/-- Only the call's own steps take it further. -/
theorem step_stage {m : Move σ} {i : Nat} (other : m ≠ .leave i) : (c.step m).stage i = c.stage i := by
  by_cases aside : ∀ j, m ≠ .leave j
  · rw [(step_aside aside).1]
  · obtain ⟨j, rfl⟩ := not_forall_not.mp aside
    have apart : i ≠ j := fun same => other (same ▸ rfl)
    rw [step]
    split
    · rw [takeLeave_stage, Function.update_of_ne apart]
    · rfl

/-- Only calls with an expired entry try and take the flag, and a refresh is counted only where it can be
driven. -/
def Warranted (c : Concourse σ) : Prop :=
  ∀ i, c.stage i ≠ .served → c.stage i ≠ .returned →
    c.HasExpired i ∧ (c.stage i = .counted → c.driven i = true)

omit [Store σ] in
theorem Warranted.expired {i : Nat} {id : TableId} {entry : TableEntry} (warranted : c.Warranted)
    (hi : c.stand i = .served id entry) (unserved : c.stage i ≠ .served)
    (unreturned : c.stage i ≠ .returned) :
    entry.isExpired c.world.clock c.catalog.expiry = true := by
  obtain ⟨⟨_, _, served, expired⟩, -⟩ := warranted i unserved unreturned
  cases hi.symm.trans served
  exact expired

theorem Warranted.step (warranted : c.Warranted) (m : Move σ) : (c.step m).Warranted := by
  intro i unserved unreturned
  rw [(c.step_kept m).1]
  by_cases own : m = .leave i
  · subst own
    cases hi : c.stand i with
    | served id entry =>
      have next : (c.step (.leave i)).stage i = c.nextStage i entry := by
        rw [step_leave hi, takeLeave_stage, Function.update_self]
      rw [next, nextStage] at unserved unreturned ⊢
      cases stage : c.stage i with
      | served =>
        have expired : entry.isExpired c.world.clock c.catalog.expiry = true := by
          simpa [stage] using unreturned
        refine ⟨HasExpired.step ⟨id, entry, hi, expired⟩ _, by simp [expired]⟩
      | expired | holding =>
        have has := (warranted i (by simp [stage]) (by simp [stage])).1
        exact ⟨has.step _, by grind⟩
      | _ => simp [stage] at unreturned
    | _ =>
      rw [Concourse.step, hi] at unserved unreturned ⊢
      exact warranted i unserved unreturned
  · rw [step_stage own] at unserved unreturned ⊢
    obtain ⟨has, driven⟩ := warranted i unserved unreturned
    exact ⟨has.step m, driven⟩

/-- A call that has counted a refresh starts it, and returns with that. -/
theorem step_counted {i : Nat} {id : TableId} {entry : TableEntry} (hi : c.stand i = .served id entry)
    (counted : c.stage i = .counted) : (c.step (.leave i)).stage i = .returned ∧
      (c.step (.leave i)).errands = c.errands ++ [.ready] := by
  rw [step_leave hi, takeLeave, counted]
  exact ⟨Function.update_self .., rfl⟩

/-- A step starts a refresh only if it is the last one of a call that has counted it. -/
theorem starts_of_length {m : Move σ} (grows : (c.step m).errands.length ≠ c.errands.length) :
    ∃ i id entry, m = .leave i ∧ c.stand i = .served id entry ∧ c.stage i = .counted := by
  by_cases aside : ∀ i, m ≠ .leave i
  · exact absurd (step_aside aside).2 grows
  · obtain ⟨i, rfl⟩ := not_forall_not.mp aside
    cases hi : c.stand i with
    | served id entry =>
      refine ⟨i, id, entry, rfl, hi, ?_⟩
      rw [step_leave hi, takeLeave] at grows
      cases stage : c.stage i with
      | counted => rfl
      | served | returned =>
        rw [stage] at grows
        exact absurd rfl grows
      | expired =>
        rw [stage] at grows
        cases claim : c.catalog.claim <;> rw [claim] at grows <;> exact absurd rfl grows
      | holding =>
        rw [stage] at grows
        cases driven : c.driven i <;> rw [driven] at grows <;> exact absurd rfl grows
    | _ =>
      rw [step, hi] at grows
      exact absurd rfl grows

theorem run_warranted (config : Config) (s : σ) (driven : Nat → Bool) (past : List (Move σ)) :
    ((new config s driven).run past).Warranted :=
  run_induction (fun _ unserved => absurd rfl unserved) fun _ m warranted => warranted.step m

theorem run_driven (config : Config) (s : σ) (driven : Nat → Bool) (past : List (Move σ)) :
    ((new config s driven).run past).driven = driven :=
  run_induction (P := fun c => c.driven = driven) rfl fun c m same => (c.step_kept m).1.trans same

/-- Whatever the order of calls, loads, refreshes and invalidations: the flag is set just while it has a
holder, and it never has two. All refreshes that have been started have been counted, and one more while its
holder is about to start it. When a call returns an expired entry where a refresh can be driven, it starts one
with its last step, or has found that the flag has another holder. When it returns an entry that is not expired,
it starts none, and nothing else does. -/
theorem one_refresh (config : Config) (s : σ) (driven : Nat → Bool) (past : List (Move σ)) :
    let c := (new config s driven).run past
    (c.catalog.refreshing = true ↔ ∃ h, c.refreshes.holds h = true) ∧
    (∀ h h', c.refreshes.holds h = true → c.refreshes.holds h' = true → h = h') ∧
    ((∀ i, c.stage i ≠ .counted) → c.catalog.refreshesStarted = c.errands.length) ∧
    (∀ i, c.stage i = .counted → c.catalog.refreshesStarted = c.errands.length + 1) ∧
    (∀ i, c.stage i ≠ .returned → (c.step (.leave i)).stage i = .returned →
      ∃ id entry, c.stand i = .served id entry ∧
        if entry.isExpired c.world.clock c.catalog.expiry then
          driven i = true → (c.step (.leave i)).errands = c.errands ++ [.ready] ∨
            ∃ h, h ≠ .call i ∧ c.refreshes.holds h = true
        else (c.step (.leave i)).errands = c.errands) ∧
    ∀ m, (c.step m).errands.length ≠ c.errands.length → ∃ i, m = .leave i ∧ driven i = true ∧
      c.HasExpired i ∧ (c.step m).stage i = .returned ∧ (c.step m).errands = c.errands ++ [.ready] := by
  intro c
  have warranted : c.Warranted := run_warranted config s driven past
  have whose : c.driven = driven := run_driven config s driven past
  obtain ⟨o, held⟩ : ∃ o, c.refreshes.HeldBy o := run_held config s driven past
  refine ⟨held.flag_iff, fun _ _ => held.alone, held.count_idle, fun _ => held.count_counted,
    fun i new returns => ?_, fun m grows => ?_⟩
  · cases hi : c.stand i with
    | served id entry =>
      refine ⟨id, entry, rfl, ?_⟩
      have next : c.nextStage i entry = .returned := by
        rwa [step_leave hi, takeLeave_stage, Function.update_self] at returns
      rw [nextStage] at next
      cases stage : c.stage i with
      | served =>
        have fresh : entry.isExpired c.world.clock c.catalog.expiry = false := by simpa [stage] using next
        rw [fresh, step_leave hi, takeLeave, stage]
        rfl
      | expired =>
        have taken : c.catalog.refreshing = true := by simpa [stage] using next
        obtain ⟨h, hh⟩ := held.flag_iff.mp taken
        rw [if_pos (warranted.expired hi (by simp [stage]) new)]
        refine fun _ => .inr ⟨h, ?_, hh⟩
        rintro rfl
        cases (congrArg Stage.isHolding stage).symm.trans hh
      | holding =>
        have undriven : c.driven i = false := by simpa [stage] using next
        rw [if_pos (warranted.expired hi (by simp [stage]) new), ← whose, undriven]
        intro drives
        cases drives
      | counted =>
        rw [if_pos (warranted.expired hi (by simp [stage]) new)]
        exact fun _ => .inl (step_counted hi stage).2
      | returned => exact absurd stage new
    | _ =>
      rw [Concourse.step, hi] at returns
      exact absurd returns new
  · obtain ⟨i, id, entry, rfl, hi, counted⟩ := starts_of_length grows
    obtain ⟨has, drives⟩ := warranted i (by simp [counted]) (by simp [counted])
    exact ⟨i, rfl, whose ▸ drives counted, has, step_counted hi counted⟩

/-- Two calls find the same entry expired. The one that takes the flag has nothing to drive a refresh. The other
one has, but finds the flag taken and returns; then the flag is given back, and no refresh has been started. -/
theorem flag_without_refresh :
    let id : TableId := ⟨"shop", "orders"⟩
    let table : Table := ⟨id, [⟨"id", .int, .partitionKey⟩]⟩
    let c := (new { metadataExpiry := 10 } ({ tables := [table] } : Script) (· = 2)).run
      [.lookUp 0 id, .begin 0, .finish 0, .leave 0, .wait 11, .lookUp 1 id, .leave 1, .leave 1,
        .lookUp 2 id, .leave 2]
    let c' := c.step (.leave 2)
    c.catalog.refreshing = true ∧ c.driven 2 = true ∧ c.stand 2 = .served id ⟨table, 0⟩ ∧
      (⟨table, 0⟩ : TableEntry).isExpired c.world.clock c.catalog.expiry = true ∧
      c.stage 2 ≠ .returned ∧ c'.stage 2 = .returned ∧
      (∀ n, c.refreshes.holds (.refresh n) = false) ∧ c'.errands.length = c.errands.length ∧
      (c'.step (.leave 1)).catalog.refreshing = false ∧
      (c'.step (.leave 1)).errands.length = c.errands.length := by
  intro id table c c'
  have none : c.errands.isEmpty = true := by decide +kernel
  refine ⟨by decide +kernel, by decide +kernel, by decide +kernel, by decide +kernel, by decide +kernel,
    by decide +kernel, fun n => ?_, by decide +kernel, by decide +kernel, by decide +kernel⟩
  rw [Refreshes.holds, refreshes, List.isEmpty_iff.mp none]
  rfl

end Concourse
end WideColumn
