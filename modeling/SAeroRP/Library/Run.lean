import Mathlib.Logic.Basic
import Mathlib.Data.List.Basic

/-! Runs of a labelled transition system. A transition records the state before,
the event, what was put out and the state after; a run is a list of them that
fit together. The rules carry an invariant along a run whose transitions all
meet a condition, and turn it into a property of every transition; under an invariant a
property and a condition that agree on single steps agree on runs. -/

namespace SAeroRP.Library

variable {σ ε ω : Type*}

/-- One step of a run. -/
structure Transition (σ ε ω : Type*) where
  pre : σ
  event : ε
  out : ω
  post : σ

/-- `Run Step s tr u`: the transitions `tr` lead from `s` to `u`. -/
inductive Run (Step : Transition σ ε ω → Prop) : σ → List (Transition σ ε ω) → σ → Prop
  | nil (s : σ) : Run Step s [] s
  | cons {s u : σ} {x : Transition σ ε ω} {tr : List (Transition σ ε ω)} (hpre : x.pre = s)
      (hstep : Step x) (hrest : Run Step x.post tr u) : Run Step s (x :: tr) u

namespace Run

variable {Step : Transition σ ε ω → Prop} {s u : σ} {tr : List (Transition σ ε ω)}

theorem single (x : Transition σ ε ω) (hx : Step x) : Run Step x.pre [x] x.post :=
  .cons rfl hx (.nil _)

theorem append {t : σ} {tr' : List (Transition σ ε ω)} (h : Run Step s tr t)
    (h' : Run Step t tr' u) : Run Step s (tr ++ tr') u := by
  induction h with
  | nil => exact h'
  | cons hpre hstep _ ih => exact .cons hpre hstep (ih h')

/-- Every transition of a run is a step. -/
theorem step_of_mem (h : Run Step s tr u) : ∀ x ∈ tr, Step x := by
  induction h with
  | nil => intro x hx; cases hx
  | cons _ hstep _ ih =>
    intro x hx
    rcases List.mem_cons.mp hx with rfl | hx
    · exact hstep
    · exact ih x hx

/-- A run splits at each of its transitions. -/
theorem exists_split {x : Transition σ ε ω} (h : Run Step s tr u) (hx : x ∈ tr) :
    ∃ tr₁ tr₂, tr = tr₁ ++ x :: tr₂ ∧ Run Step s tr₁ x.pre ∧ Run Step x.post tr₂ u := by
  induction h with
  | nil => cases hx
  | @cons s u y tr hpre hstep hrest ih =>
    rcases List.mem_cons.mp hx with rfl | hx
    · exact ⟨[], tr, rfl, hpre ▸ .nil _, hrest⟩
    · obtain ⟨tr₁, tr₂, rfl, h₁, h₂⟩ := ih hx
      exact ⟨y :: tr₁, tr₂, rfl, .cons hpre hstep h₁, h₂⟩

/-- An invariant kept by every step that meets `C` holds before every transition
and at the end of a run whose transitions all meet `C`. -/
theorem invariant_of {I : σ → Prop} {C : Transition σ ε ω → Prop}
    (hI : ∀ x, Step x → C x → I x.pre → I x.post) (h : Run Step s tr u)
    (hC : ∀ x ∈ tr, C x) (hs : I s) : I u ∧ ∀ x ∈ tr, I x.pre := by
  induction h with
  | nil => exact ⟨hs, fun x hx => by cases hx⟩
  | @cons s u y tr hpre hstep _ ih =>
    subst hpre
    have hpost := hI y hstep (hC y List.mem_cons_self) hs
    obtain ⟨hend, hmem⟩ := ih (fun x hx => hC x (List.mem_cons_of_mem _ hx)) hpost
    refine ⟨hend, fun x hx => ?_⟩
    rcases List.mem_cons.mp hx with rfl | hx
    · exact hs
    · exact hmem x hx

/-- An invariant kept by every step holds before every transition and at the
end. -/
theorem invariant {I : σ → Prop} (hI : ∀ x, Step x → I x.pre → I x.post)
    (h : Run Step s tr u) (hs : I s) : I u ∧ ∀ x ∈ tr, I x.pre :=
  h.invariant_of (C := fun _ => True) (fun x hx _ => hI x hx) (fun _ _ => trivial) hs

/-- What a transition of a run establishes and every step keeps holds at the end. -/
theorem invariant_of_mem {I : σ → Prop} (hI : ∀ x, Step x → I x.pre → I x.post)
    (h : Run Step s tr u) : ∀ x ∈ tr, I x.post → I u := by
  induction h with
  | nil => intro x hx; cases hx
  | cons _ _ hrest ih =>
    intro x hx hpost
    rcases List.mem_cons.mp hx with rfl | hx
    · exact (hrest.invariant hI hpost).1
    · exact ih x hx hpost

/-- A step after which every state is in `J`, where there is no such step, is taken once. -/
theorem pairwise_not_of {I J : σ → Prop} {P : Transition σ ε ω → Prop}
    (hI : ∀ x, Step x → I x.pre → I x.post) (hJ : ∀ x, Step x → J x.pre → J x.post)
    (hpost : ∀ x, Step x → P x → I x.pre → J x.post) (hnot : ∀ x, Step x → P x → ¬ J x.pre)
    (h : Run Step s tr u) (hs : I s) : tr.Pairwise fun x y => ¬ (P x ∧ P y) := by
  induction h with
  | nil => exact .nil
  | cons hpre hstep hrest ih =>
    subst hpre
    refine .cons (fun y hy => ?_) (ih (hI _ hstep hs))
    rintro ⟨hx, hPy⟩
    have hJy := (hrest.invariant hJ (hpost _ hstep hx hs)).2 y hy
    exact hnot y (hrest.step_of_mem y hy) hPy hJy

/-- A property of single steps taken under an invariant holds of all transitions
of a run. -/
theorem forall_transition {I : σ → Prop} {P : Transition σ ε ω → Prop}
    (hI : ∀ x, Step x → I x.pre → I x.post) (hP : ∀ x, Step x → I x.pre → P x)
    (h : Run Step s tr u) (hs : I s) : ∀ x ∈ tr, P x :=
  fun x hx => hP x (h.step_of_mem x hx) ((h.invariant hI hs).2 x hx)

/-- When each step is a run of another system, so is a run. -/
theorem exists_map {τ ε' ω' : Type*} {Step' : Transition τ ε' ω' → Prop} (f : σ → τ)
    (hf : ∀ x, Step x → ∃ tr', Run Step' (f x.pre) tr' (f x.post)) (h : Run Step s tr u) :
    ∃ tr', Run Step' (f s) tr' (f u) := by
  induction h with
  | nil => exact ⟨[], .nil _⟩
  | cons hpre hstep _ ih =>
    subst hpre
    obtain ⟨tr₁, h₁⟩ := hf _ hstep
    obtain ⟨tr₂, h₂⟩ := ih
    exact ⟨tr₁ ++ tr₂, h₁.append h₂⟩

/-- If under an invariant a step has a property exactly when it meets a condition, and steps
that meet the condition keep the invariant, then all transitions of a run have the property
exactly when all meet the condition. -/
theorem forall_iff {I : σ → Prop} {P C : Transition σ ε ω → Prop}
    (hP : ∀ x, Step x → I x.pre → (P x ↔ C x)) (hI : ∀ x, Step x → C x → I x.pre → I x.post)
    (h : Run Step s tr u) (hs : I s) : (∀ x ∈ tr, P x) ↔ ∀ x ∈ tr, C x := by
  induction h with
  | nil => simp
  | cons hpre hstep _ ih =>
    subst hpre
    simp only [List.forall_mem_cons]
    rw [hP _ hstep hs]
    exact and_congr_right fun hC => ih (hI _ hstep hC hs)

end Run

end SAeroRP.Library
