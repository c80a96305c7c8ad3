import Mathlib.Data.List.Nodup

/-! Lists that serve as tables: what `flatMap` makes of a table when one row is changed, and what is
left of a table without the row of one key. -/

namespace XChaty.ProofKit

universe u v

variable {α : Type u} {β : Type v}

/-- A row is changed, and the rest of the table stays. -/
theorem flatMap_modify_perm (f : α → α) (g : α → List β) (after before : List β) {rows : List α}
    {i : Nat} {row : α} (hrow : rows[i]? = some row)
    (h : (after ++ g (f row)).Perm (before ++ g row)) :
    (after ++ (rows.modify i f).flatMap g).Perm (before ++ rows.flatMap g) := by
  induction rows generalizing i with
  | nil => cases hrow
  | cons first rows ih =>
    cases i with
    | zero =>
      obtain rfl := Option.some.inj hrow
      rw [List.modify_zero_cons, List.flatMap_cons, List.flatMap_cons, ← List.append_assoc,
        ← List.append_assoc]
      exact h.append_right _
    | succ i =>
      have htail := ih (i := i) hrow
      rw [List.modify_succ_cons, List.flatMap_cons, List.flatMap_cons]
      exact (List.perm_append_comm_assoc after (g first) _).trans
        ((htail.append_left (g first)).trans (List.perm_append_comm_assoc (g first) before _))

theorem flatMap_modify_eq (f : α → α) (g : α → List β) (rows : List α) (i : Nat)
    (h : ∀ row, rows[i]? = some row → g (f row) = g row) :
    (rows.modify i f).flatMap g = rows.flatMap g := by
  induction rows generalizing i with
  | nil => rw [List.modify_nil]
  | cons first rows ih =>
    cases i with
    | zero => rw [List.modify_zero_cons, List.flatMap_cons, List.flatMap_cons, h first rfl]
    | succ i => rw [List.modify_succ_cons, List.flatMap_cons, List.flatMap_cons, ih i h]

theorem length_flatMap_le {g : α → List β} (h : ∀ row, (g row).length ≤ 1) (rows : List α) :
    (rows.flatMap g).length ≤ rows.length := by
  induction rows with
  | nil => exact Nat.le_refl 0
  | cons row rows ih =>
    have hrow := h row
    rw [List.flatMap_cons, List.length_append, List.length_cons]
    omega

/-- A row with a key of its own can be put in front. -/
theorem perm_cons_filter_ne [DecidableEq β] {key : α → β} {rows : List α}
    (h : (rows.map key).Nodup) {row : α} (hrow : row ∈ rows) :
    rows.Perm (row :: rows.filter fun r => key r ≠ key row) := by
  induction rows with
  | nil => cases hrow
  | cons first rows ih =>
    obtain ⟨hfirst, hrows⟩ := List.nodup_cons.mp h
    rcases List.mem_cons.mp hrow with rfl | hmem
    · have hrest : rows.filter (fun r => key r ≠ key row) = rows :=
        List.filter_eq_self.mpr fun r hr => decide_eq_true fun hkey =>
          hfirst (hkey ▸ List.mem_map_of_mem hr)
      rw [List.filter_cons_of_neg (by simp), hrest]
    · have hne : key first ≠ key row := fun hkey => hfirst (hkey ▸ List.mem_map_of_mem hmem)
      rw [List.filter_cons_of_pos (by simpa using hne)]
      exact ((ih hrows hmem).cons first).trans (List.Perm.swap row first _)

/-- A table with at most `k` rows for each key below `n`. -/
theorem length_le_of_key {key : α → Nat} {k n : Nat} {rows : List α}
    (hfew : ∀ c, (rows.filter fun r => key r = c).length ≤ k) (hkey : ∀ r ∈ rows, key r < n) :
    rows.length ≤ k * n := by
  induction n generalizing rows with
  | zero =>
    cases rows with
    | nil => exact Nat.le_refl 0
    | cons r rows => exact absurd (hkey r List.mem_cons_self) (Nat.not_lt_zero _)
  | succ n ih =>
    have hrest : (rows.filter fun r => key r ≠ n).length ≤ k * n := by
      refine ih (fun c => ?_) fun r hr => ?_
      · exact Nat.le_trans (List.filter_sublist.filter _).length_le (hfew c)
      · obtain ⟨hmem, hne⟩ := List.mem_filter.mp hr
        have hlt := hkey r hmem
        have hne := of_decide_eq_true hne
        omega
    have hlast := hfew n
    have hsplit := List.length_eq_length_filter_add (l := rows) fun r => key r = n
    simp only [← decide_not, ← ne_eq] at hsplit
    rw [Nat.mul_succ]
    omega

end XChaty.ProofKit
