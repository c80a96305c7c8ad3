import Mathlib.Data.List.Basic

/-! Machines that take one input at a time and answer it with one output, run over lists of
inputs.  `run_invariant` carries a property of states along a run from the fact that each step
keeps it; `run_iff` is for a property that each step keeps on some inputs and ends on the others,
and `run_iff_of_invariant` for one that does so only among the states with an invariant. -/

namespace XChaty.ProofKit

universe u v w

/-- Splits of a mapped list are the splits of the list, mapped. -/
theorem forall_map_split {α : Type u} {β : Type v} (f : α → β) (as : List α)
    (P : List β → β → Prop) :
    (∀ before b after, as.map f = before ++ b :: after → P before b) ↔
      ∀ before a after, as = before ++ a :: after → P (before.map f) (f a) := by
  constructor
  · rintro h before a after rfl
    exact h (before.map f) (f a) (after.map f) (by rw [List.map_append, List.map_cons])
  · intro h bs b bs' hsplit
    obtain ⟨before, rest, rfl, rfl, hrest⟩ := List.map_eq_append_iff.mp hsplit
    obtain ⟨a, after, rfl, rfl, rfl⟩ := List.map_eq_cons_iff.mp hrest
    exact h before a after rfl

structure Machine (σ : Type u) (ι : Type v) (ω : Type w) where
  step : σ → ι → σ × ω

namespace Machine

variable {σ : Type u} {ι : Type v} {ω : Type w} (M : Machine σ ι ω)

def run (s : σ) : List ι → σ
  | [] => s
  | i :: is => run (M.step s i).1 is

def outputs (s : σ) : List ι → List ω
  | [] => []
  | i :: is => (M.step s i).2 :: outputs (M.step s i).1 is

@[simp] theorem run_nil (s : σ) : M.run s [] = s := rfl

@[simp] theorem run_cons (s : σ) (i : ι) (is : List ι) :
    M.run s (i :: is) = M.run (M.step s i).1 is := rfl

@[simp] theorem outputs_nil (s : σ) : M.outputs s [] = [] := rfl

@[simp] theorem outputs_cons (s : σ) (i : ι) (is : List ι) :
    M.outputs s (i :: is) = (M.step s i).2 :: M.outputs (M.step s i).1 is := rfl

theorem run_append (s : σ) (is js : List ι) :
    M.run s (is ++ js) = M.run (M.run s is) js := by
  induction is generalizing s with
  | nil => rfl
  | cons i is ih => exact ih _

theorem outputs_append (s : σ) (is js : List ι) :
    M.outputs s (is ++ js) = M.outputs s is ++ M.outputs (M.run s is) js := by
  induction is generalizing s with
  | nil => rfl
  | cons i is ih => exact congrArg ((M.step s i).2 :: ·) (ih _)

/-- The outputs that are there, when a step may have none. -/
theorem filterMap_outputs_cons (M : Machine σ ι (Option ω)) (s : σ) (i : ι) (is : List ι) :
    (M.outputs s (i :: is)).filterMap id =
      (M.step s i).2.toList ++ (M.outputs (M.step s i).1 is).filterMap id := by
  rw [outputs_cons, List.filterMap_cons]
  cases (M.step s i).2 <;> rfl

variable {M}

theorem run_invariant {P : σ → Prop} {is : List ι} {s : σ} (hs : P s)
    (hstep : ∀ s, ∀ i ∈ is, P s → P (M.step s i).1) : P (M.run s is) := by
  induction is generalizing s with
  | nil => exact hs
  | cons i is ih =>
    exact ih (hstep s i List.mem_cons_self hs) fun t j hj => hstep t j (List.mem_cons_of_mem i hj)

/-- Two machines whose steps on one input keep a relation of their states end in related states. -/
theorem run_related {τ : Type u} {ω' : Type w} {N : Machine τ ι ω'} {R : σ → τ → Prop}
    (hstep : ∀ s t i, R s t → R (M.step s i).1 (N.step t i).1) {s : σ} {t : τ} (h : R s t)
    (is : List ι) : R (M.run s is) (N.run t is) := by
  induction is generalizing s t with
  | nil => exact h
  | cons i is ih => exact ih (hstep s t i h)

/-- Among states with an invariant, a property that a step keeps exactly on the inputs that are good
for its state holds at the end of a run when it holds at the start and every input is good where it
comes. -/
theorem run_iff_of_invariant {I P : σ → Prop} {G : σ → ι → Prop}
    (hkeep : ∀ s i, I s → I (M.step s i).1)
    (hstep : ∀ s i, I s → (P (M.step s i).1 ↔ P s ∧ G s i)) {s : σ} (hs : I s) (is : List ι) :
    P (M.run s is) ↔
      P s ∧ ∀ before i after, is = before ++ i :: after → G (M.run s before) i := by
  induction is generalizing s with
  | nil => simp
  | cons i is ih =>
    rw [run_cons, ih (hkeep s i hs), hstep s i hs, and_assoc]
    refine and_congr_right fun _ => ?_
    constructor
    · rintro ⟨hi, his⟩ before j after hsplit
      rcases List.cons_eq_append_iff.mp hsplit with ⟨rfl, hj⟩ | ⟨before', rfl, hrest⟩
      · cases hj
        exact hi
      · exact his before' j after hrest
    · intro hgood
      refine ⟨hgood [] i is rfl, fun before j after hsplit => ?_⟩
      exact hgood (i :: before) j after (by rw [hsplit, List.cons_append])

theorem run_iff {P : σ → Prop} {G : σ → ι → Prop}
    (hstep : ∀ s i, P (M.step s i).1 ↔ P s ∧ G s i) (s : σ) (is : List ι) :
    P (M.run s is) ↔
      P s ∧ ∀ before i after, is = before ++ i :: after → G (M.run s before) i :=
  run_iff_of_invariant (I := fun _ => True) (fun _ _ _ => trivial) (fun s i _ => hstep s i)
    trivial is

end Machine

end XChaty.ProofKit
