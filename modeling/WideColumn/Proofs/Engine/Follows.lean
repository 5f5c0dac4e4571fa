import WideColumn.Proofs.Engine.Mutating
import WideColumn.Proofs.Record.Draws

/-!
An operation that starts from backed caches sends the statements it has compiled, and they are fresh,
however often it sends them, with respect to all that has happened since the caches were dropped last
before it. They stay so when the caches are dropped meanwhile.
-/
namespace WideColumn

variable {σ ρ α β : Type} [Store σ] {compiled : List Compiled}

/-- A request that is executed is made of just these statements, and they are fresh. -/
def SendsFresh (σ : Type) [Store σ] (compiled : List Compiled) (past : List Event) : Event → Prop
  | .execute request _ _ =>
    request.statements = compiled.map Compiled.wire ∧ Op.AllFresh σ compiled past
  | _ => True

/-- Rows that go on with the one statement that was compiled, if with any, and it is fresh. -/
def Rows.Fresh (σ : Type) [Store σ] (compiled : List Compiled) (r : Rows) (past : List Event) : Prop :=
  ∀ c, r.source = some c → compiled = [c] ∧ c.Fresh σ past

namespace World

variable {past es fs : List Event} {w v u : World σ}

/-- These events lead from the one world to the other. Each request among them is made of these
statements, which are fresh with respect to what was before, and the caches are backed at the end. -/
structure Follows (compiled : List Compiled) (past : List Event) (w : World σ) (es : List Event)
    (v : World σ) : Prop where
  events : v.events = w.events ++ es
  fresh : Throughout (SendsFresh σ compiled) past es
  backed : v.Backed

namespace Follows

theorem of_events (h : v.events = w.events) (backed : v.Backed) : Follows compiled past w [] v :=
  ⟨by rw [h, List.append_nil], .nil, backed⟩

theorem trans (h : Follows compiled past w es v) (h' : Follows compiled (past ++ es) v fs u) :
    Follows compiled past w (es ++ fs) u :=
  ⟨by rw [h'.events, h.events, List.append_assoc], throughout_append.mpr ⟨h.fresh, h'.fresh⟩,
    h'.backed⟩

theorem of_questions (h : v.events = w.events ++ es) (asked : ∀ e ∈ es, e.isQuestion = true)
    (backed : v.Backed) : Follows compiled past w es v := by
  refine ⟨h, .of_forall fun _ e he => ?_, backed⟩
  have question := asked e he
  cases e with
  | execute => cases question
  | _ => trivial

end Follows

theorem Asked.follows (h : w.Asked v) (backed : v.Backed) : ∃ es, Follows compiled past w es v := by
  obtain ⟨es, events, asked⟩ := h
  exact ⟨es, .of_questions events asked backed⟩

end World

namespace Op

variable {past : List Event} {w v : World σ}

/-- In this world, after these events, the operation only sends these statements, and they are fresh;
what it gives is what the condition says of the events up to its end. -/
def Leads (compiled : List Compiled) (past : List Event) (w : World σ) (x : Op σ α)
    (Q : List Event → α → Prop) : Prop :=
  ∃ es, World.Follows compiled past w es (x.run w).2 ∧ ∀ a, (x.run w).1 = .ok a → Q (past ++ es) a

/-- So it is after all events that satisfy the first condition. -/
def Sends (compiled : List Compiled) (P : List Event → Prop) (x : Op σ α) (Q : List Event → α → Prop) :
    Prop :=
  ∀ past w, w.Backed → P past → Leads compiled past w x Q

theorem Leads.bind {Q : List Event → α → Prop} {R : List Event → β → Prop} {x : Op σ α}
    {k : α → Op σ β} (hx : Leads compiled past w x Q) (hk : ∀ a, Sends compiled (Q · a) (k a) R) :
    Leads compiled past w (x >>= k) R := by
  obtain ⟨es, follows, hQ⟩ := hx
  rw [Leads]
  rcases run : x.run w with ⟨e | a, v⟩ <;> rw [run] at follows hQ
  · rw [run_bind_error run]
    exact ⟨es, follows, fun _ hb => by cases hb⟩
  · rw [run_bind_ok run]
    obtain ⟨fs, later, hR⟩ := hk a (past ++ es) v follows.backed (hQ a rfl)
    exact ⟨es ++ fs, follows.trans later, by rwa [← List.append_assoc]⟩

namespace Sends

variable {P F : List Event → Prop} {Q : List Event → α → Prop} {R : List Event → β → Prop} {x : Op σ α}

theorem of_ran (hx : ∀ w, (x.run w).2 = w) (hQ : ∀ past w a, P past → (x.run w).1 = .ok a → Q past a) :
    Sends compiled P x Q := by
  intro past w backed hP
  refine ⟨[], .of_events (by rw [hx]) (by rwa [hx]), fun a ha => ?_⟩
  rw [List.append_nil]
  exact hQ past w a hP ha

theorem pure {a : α} (h : ∀ past, P past → Q past a) : Sends compiled P (Pure.pure a : Op σ α) Q :=
  .of_ran (fun _ => rfl) fun past _ _ hP ha => Except.ok.inj ha ▸ h past hP

theorem throw {e : Error} : Sends compiled P (MonadExcept.throw e : Op σ α) Q :=
  .of_ran (fun _ => rfl) fun _ _ _ _ ha => by cases ha

theorem ofExcept_bind {y : Except Error α} {k : α → Op σ β} (h : ∀ a, y = .ok a → Sends compiled P (k a) R) :
    Sends compiled P (Op.ofExcept y >>= k) R := by
  cases y with
  | error e => exact .throw
  | ok a => exact h a rfl

theorem bind {k : α → Op σ β} (hx : Sends compiled P x Q) (hk : ∀ a, Sends compiled (Q · a) (k a) R) :
    Sends compiled P (x >>= k) R := fun past w backed hP => (hx past w backed hP).bind hk

end Sends

section Reads

variable {r : Rows}

end Reads

section Starts

variable {made : World σ → List Compiled} {P : List Event → Prop} {Q : List Event → α → Prop}
  {R : List Compiled → List Event → β → Prop} {x : Op σ α} {k : α → Op σ β}

/-- An operation from its start: it only sends the statements that are compiled for it in this world. They
are fresh with respect to the events since the caches were dropped last before it, and those of its own. -/
def Starts (made : World σ → List Compiled) (P : List Event → Prop) (x : Op σ α)
    (Q : List Compiled → List Event → α → Prop) : Prop :=
  ∀ w, w.Backed → P w.recent → Leads (made w) w.recent w x (Q (made w))

theorem Asks.starts (hx : Asks P x Q) : Starts made P x fun _ => Q := by
  intro w backed hP
  obtain ⟨asked, backed', hQ⟩ := hx w backed hP
  obtain ⟨es, events, recent, questions⟩ := asked.recent
  exact ⟨es, .of_questions events questions backed', recent ▸ hQ⟩

/-- What is made of the outcome of the operation, which is nothing if it fails. -/
def outcome (x : Op σ α) (made : α → List Compiled) (w : World σ) : List Compiled :=
  match (x.run w).1 with
  | .ok a => made a
  | .error _ => []

/-- Whatever is asked for before anything is sent is recent when it is sent. -/
theorem Asks.before {made : α → List Compiled} (hx : Asks P x Q)
    (hk : ∀ a, Sends (made a) (Q · a) (k a) (R (made a))) : Starts (outcome x made) P (x >>= k) R := by
  intro w backed hP
  obtain ⟨asked, backed', hQ⟩ := hx w backed hP
  obtain ⟨es, events, recent, questions⟩ := asked.recent
  rw [Leads, outcome]
  rcases run : x.run w with ⟨e | a, v⟩ <;> rw [run] at events recent backed' hQ
  · rw [run_bind_error run]
    exact ⟨es, .of_questions events questions backed', fun _ hb => by cases hb⟩
  · rw [run_bind_ok run]
    have follows : World.Follows (made a) w.recent w es v := .of_questions events questions backed'
    obtain ⟨fs, later, hR⟩ := hk a _ v backed' (hQ a rfl)
    rw [recent] at later hR
    exact ⟨es ++ fs, follows.trans later, by rwa [← List.append_assoc]⟩

/-- What is sent later in an operation is as fresh as when it was sent first. -/
theorem Starts.bind {Q : List Compiled → List Event → α → Prop} (hx : Starts made P x Q)
    (hk : ∀ compiled a, Sends compiled (Q compiled · a) (k a) (R compiled)) : Starts made P (x >>= k) R :=
  fun w backed hP => (hx w backed hP).bind (hk (made w))

end Starts

end Op

end WideColumn
