import Mathlib.Data.List.Count
import XChaty.Qt.QString

/-! The place markers of a string, and what one call of `arg` makes of it.  A marker ends before a
character that is not a digit, so the markers of a text are those of its parts on both sides of such
a character; `arg` replaces the lowest markers and leaves everything else as it is. -/

namespace XChaty.Qt.QString

/-! ### Pieces -/

/-- The code units that pieces stand for. -/
def spell : List Piece → List UInt16
  | [] => []
  | .unit u :: ps => u :: spell ps
  | .marker _ spelling :: ps => spelling ++ spell ps

def numbers : List Piece → List Nat
  | [] => []
  | .unit _ :: ps => numbers ps
  | .marker n _ :: ps => n :: numbers ps

/-- The string has a marker with this number. -/
def HasMarker (n : Nat) (s : QString) : Prop := n ∈ numbers (pieces s.units)

instance (n : Nat) (s : QString) : Decidable (HasMarker n s) :=
  inferInstanceAs (Decidable (n ∈ numbers (pieces s.units)))

@[simp] theorem spell_append (ps qs : List Piece) : spell (ps ++ qs) = spell ps ++ spell qs := by
  induction ps with
  | nil => rfl
  | cons p ps ih => cases p <;> simp [spell, ih]

@[simp] theorem numbers_append (ps qs : List Piece) :
    numbers (ps ++ qs) = numbers ps ++ numbers qs := by
  induction ps with
  | nil => rfl
  | cons p ps ih => cases p <;> simp [numbers, ih]

@[simp] theorem fill_append (n : Nat) (a : List UInt16) (ps qs : List Piece) :
    fill n a (ps ++ qs) = fill n a ps ++ fill n a qs := by
  induction ps with
  | nil => rfl
  | cons p ps ih => cases p <;> simp [fill, ih]

@[simp] theorem spell_units (us : List UInt16) : spell (us.map .unit) = us := by
  induction us with
  | nil => rfl
  | cons u us ih => rw [List.map_cons, spell, ih]

@[simp] theorem numbers_units (us : List UInt16) : numbers (us.map .unit) = [] := by
  induction us with
  | nil => rfl
  | cons u us ih => rw [List.map_cons, numbers, ih]

theorem fill_of_notMem {n : Nat} (a : List UInt16) {ps : List Piece} (h : n ∉ numbers ps) :
    fill n a ps = spell ps := by
  induction ps with
  | nil => rfl
  | cons p ps ih =>
    cases p with
    | unit u => rw [fill, spell, ih h]
    | marker m spelling =>
      rw [numbers, List.mem_cons, not_or] at h
      rw [fill, spell, if_neg (Ne.symm h.1), ih h.2]

/-- A percent sign begins a marker, together with one or two digits after it, or stands for
itself. -/
theorem percent_cases (ps : List Piece) :
    percent ps = .unit 37 :: ps ∨
      ∃ n digits rest, percent ps = .marker n (37 :: digits) :: rest ∧
        ps = digits.map .unit ++ rest ∧ n ≠ 0 ∧ ∀ d ∈ digits, digitValue d ≠ none := by
  fun_cases percent ps with
  | case1 => exact .inl rfl
  | case2 d e ps m n he hd hne =>
    refine .inr ⟨_, [d, e], ps, rfl, rfl, hne, ?_⟩
    simp [hd, he]
  | case3 => exact .inl rfl
  | case4 d e ps m he hd hne =>
    refine .inr ⟨_, [d], .unit e :: ps, rfl, rfl, hne, ?_⟩
    simp [hd]
  | case5 => exact .inl rfl
  | case6 => exact .inl rfl
  | case7 d ps hlast m hd hne =>
    refine .inr ⟨_, [d], ps, rfl, rfl, hne, ?_⟩
    simp [hd]
  | case8 => exact .inl rfl
  | case9 => exact .inl rfl

/-- The pieces of a string spell it. -/
theorem spell_pieces (us : List UInt16) : spell (pieces us) = us := by
  induction us with
  | nil => rfl
  | cons u us ih =>
    rw [pieces]
    by_cases hu : u = 37
    · rw [if_pos hu]
      rcases percent_cases (pieces us) with hunit | ⟨n, digits, rest, hmarker, hdigits, -⟩
      · rw [hunit, spell, ih, hu]
      · rw [hdigits, spell_append, spell_units] at ih
        rw [hmarker, spell, List.cons_append, ih, hu]
    · rw [if_neg hu, spell, ih]

theorem ne_zero_of_mem_numbers {us : List UInt16} : ∀ n ∈ numbers (pieces us), n ≠ 0 := by
  induction us with
  | nil =>
    intro n hn
    cases hn
  | cons u us ih =>
    rw [pieces]
    by_cases hu : u = 37
    · rw [if_pos hu]
      rcases percent_cases (pieces us) with hunit | ⟨m, digits, rest, hmarker, hdigits, hm, -⟩
      · rw [hunit]
        exact ih
      · rw [hdigits, numbers_append, numbers_units, List.nil_append] at ih
        rw [hmarker]
        intro n hn
        rcases List.mem_cons.mp hn with rfl | hrest
        · exact hm
        · exact ih n hrest
    · rw [if_neg hu]
      exact ih

/-! ### Texts side by side -/

/-- The pieces do not begin with a digit. -/
def Bounded : List Piece → Prop
  | .unit u :: _ => digitValue u = none
  | _ => True

theorem percent_of_bounded {ps : List Piece} (h : Bounded ps) : percent ps = .unit 37 :: ps := by
  match ps with
  | [] => rfl
  | .marker _ _ :: _ => rfl
  | [.unit u] => simp [percent, show digitValue u = none from h]
  | .unit u :: .unit v :: ps => simp [percent, show digitValue u = none from h]
  | .unit u :: .marker _ _ :: ps => simp [percent, show digitValue u = none from h]

/-- A percent sign before a digit `d`, when no further digit comes. -/
def oneDigit (d : UInt16) (ps : List Piece) : List Piece :=
  match digitValue d with
  | some m => if m = 0 then .unit 37 :: .unit d :: ps else .marker m [37, d] :: ps
  | none => .unit 37 :: .unit d :: ps

theorem oneDigit_append (d : UInt16) (ps qs : List Piece) :
    oneDigit d (ps ++ qs) = oneDigit d ps ++ qs := by
  unfold oneDigit
  cases digitValue d with
  | none => rfl
  | some m =>
    by_cases hm : m = 0
    · simp [hm]
    · simp [hm]

theorem percent_unit_of_bounded (d : UInt16) {ps : List Piece} (h : Bounded ps) :
    percent (.unit d :: ps) = oneDigit d ps := by
  match ps with
  | [] => rfl
  | .marker _ _ :: _ => rfl
  | .unit e :: ps =>
    simp only [percent, oneDigit, show digitValue e = none from h]
    cases digitValue d <;> rfl

theorem percent_append (ps : List Piece) {qs : List Piece} (h : Bounded qs) :
    percent (ps ++ qs) = percent ps ++ qs := by
  match ps with
  | [] => exact percent_of_bounded h
  | .marker _ _ :: ps => rfl
  | [.unit d] =>
    calc percent (.unit d :: qs)
      _ = oneDigit d ([] ++ qs) := percent_unit_of_bounded d h
      _ = oneDigit d [] ++ qs := oneDigit_append d [] qs
  | .unit d :: .marker n spelling :: ps => exact oneDigit_append d (.marker n spelling :: ps) qs
  | .unit d :: .unit e :: ps =>
    simp only [List.cons_append, percent]
    cases digitValue d with
    | none => rfl
    | some m =>
      cases digitValue e with
      | none =>
        by_cases hm : m = 0
        · simp [hm]
        · simp [hm]
      | some n =>
        by_cases hmn : 10 * m + n = 0
        · simp only [if_pos hmn, List.cons_append]
        · simp only [if_neg hmn, List.cons_append]

theorem bounded_pieces {v : UInt16} (hv : digitValue v = none) (vs : List UInt16) :
    Bounded (pieces (v :: vs)) := by
  rw [pieces]
  by_cases hpercent : v = 37
  · rw [if_pos hpercent]
    rcases percent_cases (pieces vs) with hunit | ⟨n, digits, rest, hmarker, -⟩
    · rw [hunit]
      exact show digitValue 37 = none by decide
    · rw [hmarker]
      trivial
  · rw [if_neg hpercent]
    exact hv

/-- The markers on the two sides of a character that is not a digit are separate. -/
theorem pieces_append {v : UInt16} (hv : digitValue v = none) (us vs : List UInt16) :
    pieces (us ++ v :: vs) = pieces us ++ pieces (v :: vs) := by
  induction us with
  | nil => rfl
  | cons u us ih =>
    have hcons : ∀ ws, pieces (u :: ws) =
        if u = 37 then percent (pieces ws) else .unit u :: pieces ws := fun _ => rfl
    rw [List.cons_append, hcons, hcons, ih]
    by_cases hu : u = 37
    · rw [if_pos hu, if_pos hu, percent_append _ (bounded_pieces hv vs)]
    · rw [if_neg hu, if_neg hu]
      rfl

/-! ### `arg` -/

theorem lowest_eq_none_iff (ps : List Piece) : lowest ps = none ↔ numbers ps = [] := by
  induction ps with
  | nil => exact ⟨fun _ => rfl, fun _ => rfl⟩
  | cons p ps ih =>
    cases p with
    | unit u => exact ih
    | marker n spelling =>
      refine iff_of_false ?_ (List.cons_ne_nil _ _)
      rw [lowest]
      cases lowest ps with
      | none => exact Option.some_ne_none n
      | some m => exact Option.some_ne_none (min n m)

/-- The lowest number is one of the numbers, and none of them is lower. -/
theorem lowest_eq_some_iff {ps : List Piece} {n : Nat} :
    lowest ps = some n ↔ n ∈ numbers ps ∧ ∀ m ∈ numbers ps, n ≤ m := by
  induction ps generalizing n with
  | nil => simp [lowest, numbers]
  | cons p ps ih =>
    cases p with
    | unit u => exact ih
    | marker k spelling =>
      rw [lowest, numbers, List.forall_mem_cons, List.mem_cons]
      cases hrest : lowest ps with
      | none =>
        rw [(lowest_eq_none_iff ps).mp hrest]
        simp only [Option.some.injEq, List.not_mem_nil, or_false, false_imp_iff, implies_true,
          and_true]
        omega
      | some m =>
        obtain ⟨hmem, hleast⟩ := ih.mp hrest
        simp only [Option.some.injEq]
        constructor
        · rintro rfl
          refine ⟨?_, Nat.min_le_left k m, fun j hj => ?_⟩
          · rcases Nat.le_total k m with hle | hle
            · exact .inl (Nat.min_eq_left hle)
            · exact .inr ((Nat.min_eq_right hle).symm ▸ hmem)
          · exact Nat.le_trans (Nat.min_le_right k m) (hleast j hj)
        · rintro ⟨hn, hk, hall⟩
          have hm := hall m hmem
          rcases hn with rfl | hn
          · exact Nat.min_eq_left hm
          · have := hleast n hn
            omega

theorem arg_of_lowest {s : QString} {n : Nat} (h : lowest (pieces s.units) = some n) (a : QString) :
    s.arg a = .text (fill n a.units (pieces s.units)) := by
  rw [arg, h]

/-! ### Counting characters -/

/-- A character that is neither a percent sign nor a digit is in no spelling of a marker. -/
theorem spelling_of_mem {us : List UInt16} {n : Nat} {spelling : List UInt16}
    (h : .marker n spelling ∈ pieces us) {u : UInt16} (hpercent : u ≠ 37)
    (hdigit : digitValue u = none) : u ∉ spelling := by
  induction us with
  | nil => cases h
  | cons v us ih =>
    rw [pieces] at h
    by_cases hv : v = 37
    · rw [if_pos hv] at h
      rcases percent_cases (pieces us) with hunit | ⟨m, digits, rest, hmarker, hdigits, -, hall⟩
      · rw [hunit] at h
        rcases List.mem_cons.mp h with hhead | htail
        · cases hhead
        · exact ih htail
      · rw [hmarker] at h
        rcases List.mem_cons.mp h with hhead | htail
        · obtain ⟨rfl, rfl⟩ := Piece.marker.inj hhead
          intro hmem
          rcases List.mem_cons.mp hmem with hfirst | hlater
          · exact hpercent hfirst
          · exact hall u hlater hdigit
        · exact ih (hdigits ▸ List.mem_append_right _ htail)
    · rw [if_neg hv] at h
      rcases List.mem_cons.mp h with hhead | htail
      · cases hhead
      · exact ih htail

theorem count_fill {u : UInt16} {ps : List Piece}
    (h : ∀ n spelling, .marker n spelling ∈ ps → u ∉ spelling) (n : Nat) (a : List UInt16) :
    (fill n a ps).count u = (spell ps).count u + (numbers ps).count n * a.count u := by
  induction ps with
  | nil => simp [fill, spell, numbers]
  | cons p ps ih =>
    have htail := ih fun n spelling hmem => h n spelling (List.mem_cons_of_mem _ hmem)
    cases p with
    | unit v =>
      rw [fill, spell, numbers, List.count_cons, List.count_cons, htail]
      omega
    | marker m spelling =>
      have hnone := List.count_eq_zero_of_not_mem (h m spelling List.mem_cons_self)
      rw [fill, spell, numbers, List.count_append, List.count_append, htail, hnone]
      by_cases hm : m = n
      · subst hm
        rw [if_pos rfl, List.count_cons_self, Nat.succ_mul]
        omega
      · rw [if_neg hm, List.count_cons_of_ne hm, hnone]
        omega

end XChaty.Qt.QString
