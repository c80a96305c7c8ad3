import Mathlib.Data.List.Flatten

/-! Segments that are joined with their neighbours.  `Joins xs ys` holds when groups of neighbours in
`xs`, one group after the other, are the segments `ys`.  What is read from the front of each segment
only is read from the first segment of each group. -/

namespace XChaty.ProofKit

universe u v

variable {α : Type u} {β : Type v}

def Joins (xs ys : List (List α)) : Prop :=
  ∃ groups : List (List (List α)), [] ∉ groups ∧ groups.flatten = xs ∧ groups.map List.flatten = ys

theorem Joins.refl (xs : List (List α)) : Joins xs xs := by
  refine ⟨xs.map fun segment => [segment], by simp, ?_, ?_⟩
  · rw [← List.flatMap_def, List.flatMap_singleton']
  · rw [List.map_map]
    exact (List.map_congr_left fun segment _ => List.append_nil segment).trans (List.map_id xs)

theorem Joins.append {xs ys xs' ys' : List (List α)} (h : Joins xs ys) (h' : Joins xs' ys') :
    Joins (xs ++ xs') (ys ++ ys') := by
  obtain ⟨groups, hnonempty, rfl, rfl⟩ := h
  obtain ⟨groups', hnonempty', rfl, rfl⟩ := h'
  refine ⟨groups ++ groups', ?_, List.flatten_append, List.map_append⟩
  exact fun hmem => (List.mem_append.mp hmem).elim hnonempty hnonempty'

/-- A list is cut where the list of its images is cut. -/
theorem exists_cut_of_map {f : α → β} {xs : List α} {cuts : List (List β)}
    (h : xs.map f = cuts.flatten) :
    ∃ groups : List (List α), groups.flatten = xs ∧ groups.map (List.map f) = cuts := by
  induction cuts generalizing xs with
  | nil => exact ⟨[], (List.map_eq_nil_iff.mp h).symm, rfl⟩
  | cons cut cuts ih =>
    obtain ⟨front, back, rfl, rfl, hback⟩ := List.map_eq_append_iff.mp h
    obtain ⟨groups, rfl, rfl⟩ := ih hback
    exact ⟨front :: groups, rfl, rfl⟩

theorem Joins.trans {xs ys zs : List (List α)} (h : Joins xs ys) (h' : Joins ys zs) :
    Joins xs zs := by
  obtain ⟨groups, hnonempty, rfl, rfl⟩ := h
  obtain ⟨cuts, hcuts, hflatten, rfl⟩ := h'
  obtain ⟨nested, rfl, rfl⟩ := exists_cut_of_map hflatten.symm
  refine ⟨nested.map List.flatten, ?_, ?_, ?_⟩
  · intro hmem
    obtain ⟨inner, hinner, hnil⟩ := List.mem_map.mp hmem
    have hall := List.flatten_eq_nil_iff.mp hnil
    cases inner with
    | nil => exact hcuts (List.mem_map.mpr ⟨[], hinner, rfl⟩)
    | cons group inner =>
      obtain rfl := hall group List.mem_cons_self
      exact hnonempty (List.mem_flatten_of_mem hinner List.mem_cons_self)
  · exact List.flatten_flatten.symm
  · rw [List.map_map, List.map_map]
    exact List.map_congr_left fun inner _ => List.flatten_flatten

/-- The first segment of each group. -/
def firsts (groups : List (List (List α))) : List (List α) := groups.filterMap List.head?

theorem firsts_sublist {groups : List (List (List α))} : (firsts groups).Sublist groups.flatten := by
  induction groups with
  | nil => exact List.Sublist.slnil
  | cons group groups ih =>
    cases group with
    | nil => exact ih
    | cons segment group => exact (ih.trans (List.sublist_append_right group _)).cons_cons segment

/-- Where the front of a segment is all that is read, joined segments read as the first ones do. -/
theorem flatMap_joined {front : List α → List β} {groups : List (List (List α))}
    (hnonempty : [] ∉ groups)
    (hfront : ∀ segment ∈ groups.flatten, ∀ rest, front (segment ++ rest) = front segment) :
    (groups.map List.flatten).flatMap front = (firsts groups).flatMap front := by
  induction groups with
  | nil => rfl
  | cons group groups ih =>
    rw [List.mem_cons, not_or] at hnonempty
    have hrest := ih hnonempty.2 fun segment hsegment =>
      hfront segment (List.mem_append_right group hsegment)
    cases group with
    | nil => exact absurd rfl hnonempty.1
    | cons segment group =>
      have hfirst := hfront segment List.mem_cons_self group.flatten
      rw [List.map_cons, List.flatMap_cons, hrest, List.flatten_cons, hfirst]
      rfl

end XChaty.ProofKit
