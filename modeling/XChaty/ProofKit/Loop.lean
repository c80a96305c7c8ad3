import Mathlib.Data.List.Basic

/-! While loops.  A loop is what a round makes of a state, with a measure that every round lowers.
`heads` are the states at which the condition is tested, and `final` is the last of them.  What each
round keeps holds at every head, and a count that each round lowers by one is the number of
rounds. -/

namespace XChaty.ProofKit

universe u

/-- `round s` is the state after one more round, and `none` when the loop ends in `s`. -/
structure Loop (σ : Type u) where
  round : σ → Option σ
  measure : σ → Nat
  lowers : ∀ s t, round s = some t → measure t < measure s

namespace Loop

variable {σ : Type u} (L : Loop σ)

def heads (s : σ) : List σ :=
  match _h : L.round s with
  | none => [s]
  | some t => s :: heads t
termination_by L.measure s
decreasing_by exact L.lowers s t _h

def final (s : σ) : σ :=
  match _h : L.round s with
  | none => s
  | some t => final t
termination_by L.measure s
decreasing_by exact L.lowers s t _h

variable {L}

theorem heads_of_none {s : σ} (h : L.round s = none) : L.heads s = [s] := by
  rw [heads]
  split
  · rfl
  · rename_i hsome
    rw [h] at hsome
    cases hsome

theorem heads_of_some {s t : σ} (h : L.round s = some t) : L.heads s = s :: L.heads t := by
  rw [heads]
  split
  · rename_i hnone
    rw [h] at hnone
    cases hnone
  · rename_i hsome
    rw [h] at hsome
    cases hsome
    rfl

theorem final_of_none {s : σ} (h : L.round s = none) : L.final s = s := by
  rw [final]
  split
  · rfl
  · rename_i hsome
    rw [h] at hsome
    cases hsome

theorem final_of_some {s t : σ} (h : L.round s = some t) : L.final s = L.final t := by
  rw [final]
  split
  · rename_i hnone
    rw [h] at hnone
    cases hnone
  · rename_i hsome
    rw [h] at hsome
    cases hsome
    rfl

/-- Induction along the rounds of a loop. -/
theorem rounds_induction {P : σ → Prop} (hend : ∀ s, L.round s = none → P s)
    (hround : ∀ s t, L.round s = some t → P t → P s) (s : σ) : P s := by
  induction hm : L.measure s using Nat.strongRecOn generalizing s with
  | ind m ih =>
    cases hs : L.round s with
    | none => exact hend s hs
    | some t => exact hround s t hs (ih (L.measure t) (hm ▸ L.lowers s t hs) t rfl)

theorem round_final (s : σ) : L.round (L.final s) = none := by
  induction s using L.rounds_induction with
  | hend s hs => rw [final_of_none hs, hs]
  | hround s t hs ih => rw [final_of_some hs, ih]

theorem final_mem_heads (s : σ) : L.final s ∈ L.heads s := by
  induction s using L.rounds_induction with
  | hend s hs => rw [final_of_none hs, heads_of_none hs]; exact List.mem_singleton_self s
  | hround s t hs ih => rw [final_of_some hs, heads_of_some hs]; exact List.mem_cons_of_mem s ih

theorem heads_invariant {P : σ → Prop} (hround : ∀ s t, L.round s = some t → P s → P t) {s : σ}
    (hs : P s) : ∀ t ∈ L.heads s, P t := by
  induction s using L.rounds_induction with
  | hend s hend =>
    rw [heads_of_none hend]
    intro t ht
    rw [List.mem_singleton.mp ht]
    exact hs
  | hround s s' hnext ih =>
    rw [heads_of_some hnext]
    intro t ht
    rcases List.mem_cons.mp ht with rfl | hlater
    · exact hs
    · exact ih (hround s s' hnext hs) t hlater

/-- What is counted, up by one in each round, has gone up by the number of rounds. -/
theorem count_final (count : σ → Nat)
    (hround : ∀ s t, L.round s = some t → count t = count s + 1) (s : σ) :
    count (L.final s) + 1 = count s + (L.heads s).length := by
  induction s using L.rounds_induction with
  | hend s hend => rw [final_of_none hend, heads_of_none hend, List.length_singleton]
  | hround s t hnext ih =>
    rw [final_of_some hnext, heads_of_some hnext, List.length_cons, ih, hround s t hnext]
    omega

/-- A map under which the rounds of one loop are those of another takes the final states to each
other. -/
theorem final_map {τ : Type u} {M : Loop τ} {f : σ → τ}
    (hround : ∀ s, M.round (f s) = (L.round s).map f) (s : σ) :
    M.final (f s) = f (L.final s) := by
  induction s using L.rounds_induction with
  | hend s hend =>
    rw [final_of_none hend]
    exact final_of_none (by rw [hround, hend]; rfl)
  | hround s t hnext ih =>
    rw [final_of_some hnext, ← ih]
    exact final_of_some (by rw [hround, hnext]; rfl)

end Loop

end XChaty.ProofKit
