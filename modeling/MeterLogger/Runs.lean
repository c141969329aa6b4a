import Mathlib.Logic.Relation
import Mathlib.Data.List.Basic
import Mathlib.Order.Monotone.Basic
import Mathlib.Tactic.Common

/-!
# Runs of labelled step relations

A component is a relation `step s e t`: in state `s` the event `e` may lead to `t`.
`Run` chains steps over a list of events. An invariant is proved once for one
step and holds along every run; a run may also be restricted to steps that meet
a condition on the state before the step and on the event. A run may also go on
forever.
-/

namespace MeterLogger
namespace Runs

variable {S E : Type*}

/-- Runs of a step relation, labelled by the events taken. -/
inductive Run (step : S → E → S → Prop) : S → List E → S → Prop
  | nil (s) : Run step s [] s
  | cons {s t u e es} : step s e t → Run step t es u → Run step s (e::es) u

/-- The steps of `step` whose source state and event meet `ok`. -/
def Guarded (ok : S → E → Prop) (step : S → E → S → Prop) (s : S) (e : E) (t : S) : Prop :=
  ok s e ∧ step s e t

/-- A deterministic step function seen as a relation. -/
def ofFun (f : S → E → S) (s : S) (e : E) (t : S) : Prop := t = f s e

namespace Run

variable {step : S → E → S → Prop}

theorem single {s t : S} {e : E} (h : step s e t) : Run step s [e] t :=
  .cons h (.nil t)

theorem append {s t u : S} {es fs : List E}
    (h₁ : Run step s es t) (h₂ : Run step t fs u) : Run step s (es++fs) u := by
  induction h₁ with
  | nil => exact h₂
  | cons hs _ ih => exact .cons hs (ih h₂)

theorem snoc {s t u : S} {es : List E} {e : E}
    (h₁ : Run step s es t) (h₂ : step t e u) : Run step s (es++[e]) u :=
  h₁.append (single h₂)

theorem invariant {I : S → Prop} (hstep : ∀ s e t, I s → step s e t → I t)
    {s t : S} {es : List E} (h : Run step s es t) (hs : I s) : I t := by
  induction h with
  | nil => exact hs
  | cons hst _ ih => exact ih (hstep _ _ _ hs hst)

theorem mono {step' : S → E → S → Prop} (hle : ∀ s e t, step s e t → step' s e t)
    {s t : S} {es : List E} (h : Run step s es t) : Run step' s es t := by
  induction h with
  | nil => exact .nil _
  | cons hs _ ih => exact .cons (hle _ _ _ hs) ih

/-- Conditions that agree on the steps from the states of an invariant allow the same runs. -/
theorem guarded_congr {ok ok' : S → E → Prop} {I : S → Prop}
    (hstep : ∀ s e t, I s → step s e t → I t)
    (hiff : ∀ s e t, I s → step s e t → (ok s e ↔ ok' s e)) {s t : S} {es : List E} (hs : I s) :
    Run (Guarded ok step) s es t ↔ Run (Guarded ok' step) s es t := by
  constructor
  · intro h
    induction h with
    | nil => exact .nil _
    | cons hst _ ih => exact .cons ⟨(hiff _ _ _ hs hst.2).mp hst.1,hst.2⟩ (ih (hstep _ _ _ hs hst.2))
  · intro h
    induction h with
    | nil => exact .nil _
    | cons hst _ ih => exact .cons ⟨(hiff _ _ _ hs hst.2).mpr hst.1,hst.2⟩ (ih (hstep _ _ _ hs hst.2))

end Run

/-- A run that never stops, with its states and its events. -/
structure Endless (step : S → E → S → Prop) (s : S) (states : ℕ → S) (events : ℕ → E) : Prop where
  start : states 0 = s
  step : ∀ n, step (states n) (events n) (states (n+1))

namespace Endless

variable {step : S → E → S → Prop} {s : S} {states : ℕ → S} {events : ℕ → E}

theorem invariant {I : S → Prop} (hstep : ∀ s e t, I s → step s e t → I t)
    (h : Endless step s states events) (hs : I s) (n : ℕ) : I (states n) := by
  induction n with
  | zero => exact h.start ▸ hs
  | succ n ih => exact hstep _ _ _ ih (h.step n)

theorem comes_to_rest (h : Endless step s states events) (measure : S → ℕ) (bound : ℕ)
    (hgrows : ∀ s e t, step s e t → measure s ≤ measure t)
    (hbound : ∀ n, measure (states n) ≤ bound) :
    ∃ n, ∀ m, n ≤ m → measure (states (m+1)) = measure (states m) := by
  by_contra hno
  push Not at hno
  have hmono : Monotone fun n => measure (states n) :=
    monotone_nat_of_le_succ fun n => hgrows _ _ _ (h.step n)
  have hreaches : ∀ k, ∃ n, k ≤ measure (states n) := by
    intro k
    induction k with
    | zero => exact ⟨0,Nat.zero_le _⟩
    | succ k ih =>
      obtain ⟨n,hn⟩ := ih
      obtain ⟨m,hm,hne⟩ := hno n
      have hup : measure (states n) ≤ measure (states m) := hmono hm
      have hrise := hgrows _ _ _ (h.step m)
      exact ⟨m+1,by omega⟩
  obtain ⟨n,hn⟩ := hreaches (bound+1)
  have hle := hbound n
  omega

end Endless

/-- Whether the events can be taken one after the other. -/
def allowed (ok : S → E → Prop) [∀ s e, Decidable (ok s e)] (f : S → E → S) : S → List E → Bool
  | _, [] => true
  | s, e::es => decide (ok s e) && allowed ok f (f s e) es

theorem run_of_allowed {ok : S → E → Prop} [∀ s e, Decidable (ok s e)] {f : S → E → S} {s : S}
    {es : List E} (h : allowed ok f s es = true) :
    Run (Guarded ok (ofFun f)) s es (es.foldl f s) := by
  induction es generalizing s with
  | nil => exact .nil s
  | cons e es ih =>
    rw [allowed,Bool.and_eq_true,decide_eq_true_eq] at h
    exact .cons ⟨h.1,rfl⟩ (ih h.2)

theorem guarded_of_allowed {ok can : S → E → Prop} [∀ s e, Decidable (ok s e)]
    [∀ s e, Decidable (can s e)] {f : S → E → S} {s : S} {es : List E}
    (h : allowed (fun s e => ok s e ∧ can s e) f s es = true) :
    Run (Guarded ok (Guarded can (ofFun f))) s es (es.foldl f s) := by
  refine (run_of_allowed h).mono ?_
  rintro s e t ⟨⟨hok,hcan⟩,hstep⟩
  exact ⟨hok,hcan,hstep⟩

end Runs
end MeterLogger
