import XChaty.Qt.PlaceMarkers
import XChaty.Server.UserTableDAO

/-! The statement that `InsertUser` has `InsertData` make of a name and a password.  Each call of
`arg` also sees the markers of the texts that were put in before, so the statement is the template
with the texts in it exactly when neither of them has a marker that the templates have. -/

namespace XChaty.Server

open Qt QString

def userColumns : QString := QString.ofLiteral "name, passwd"

def userValues (name passwd : QString) : QString :=
  ((QString.ofLiteral "%1, %2").arg name).arg passwd

/-- The text that the overload of `InsertData` with columns makes for `InsertUser`. -/
def insertUserSql (name passwd : QString) : QString :=
  insertDataSql chatyDbUserTable userColumns (userValues name passwd)

theorem insertUser_eq {Db : Type} (host : Host Db) (helper : SqlHelper Db) (name passwd : QString) :
    insertUser host helper name passwd =
      ((helper.openFile host chatyDbName).insertData chatyDbUserTable userColumns
        (userValues name passwd)).close := rfl

def literalSql (name passwd : QString) : QString :=
  QString.ofLiteral "INSERT INTO UserTable(name, passwd) VALUES (" ++ name ++
    QString.ofLiteral ", " ++ passwd ++ QString.ofLiteral ")"

/-! ### The values -/

section Values

variable {name passwd : QString}

theorem userValues_named (name : QString) :
    ((QString.ofLiteral "%1, %2").arg name).units = name.units ++ [44, 32, 37, 50] := by
  have hpieces : pieces (QString.ofLiteral "%1, %2").units =
      [.marker 1 [37, 49], .unit 44, .unit 32, .marker 2 [37, 50]] := by decide
  rw [arg_of_lowest (n := 1) (by decide), hpieces]
  rfl

theorem userValues_pieces (name : QString) :
    pieces (name.units ++ [44, 32, 37, 50]) =
      pieces name.units ++ [.unit 44, .unit 32, .marker 2 [37, 50]] := by
  rw [pieces_append (by decide)]
  exact congrArg (pieces name.units ++ ·) (by decide)

/-- A marker of the name takes the password, and the one of the template stays. -/
theorem userValues_of_marker (h : HasMarker 1 name) :
    (userValues name passwd).units =
      fill 1 passwd.units (pieces name.units) ++ [44, 32, 37, 50] := by
  have hlowest : lowest (pieces ((QString.ofLiteral "%1, %2").arg name).units) = some 1 := by
    rw [userValues_named, userValues_pieces, lowest_eq_some_iff]
    refine ⟨?_, fun m hm => ?_⟩
    · rw [numbers_append]
      exact List.mem_append_left _ h
    · rw [← userValues_pieces] at hm
      exact Nat.one_le_iff_ne_zero.mpr (ne_zero_of_mem_numbers m hm)
  rw [userValues, arg_of_lowest hlowest, userValues_named, userValues_pieces, units_text,
    fill_append]
  rfl

theorem userValues_of_no_marker (h : ¬HasMarker 1 name) :
    (userValues name passwd).units =
      fill 2 passwd.units (pieces name.units) ++ 44 :: 32 :: passwd.units := by
  have hlowest : lowest (pieces ((QString.ofLiteral "%1, %2").arg name).units) = some 2 := by
    rw [userValues_named, userValues_pieces, lowest_eq_some_iff, numbers_append]
    refine ⟨List.mem_append_right _ List.mem_cons_self, fun m hm => ?_⟩
    rcases List.mem_append.mp hm with hname | htemplate
    · have hzero := ne_zero_of_mem_numbers m hname
      have hone : m ≠ 1 := fun heq => h (heq ▸ hname)
      omega
    · rw [List.mem_singleton.mp htemplate]
  rw [userValues, arg_of_lowest hlowest, userValues_named, userValues_pieces, units_text,
    fill_append]
  change _ ++ 44 :: 32 :: (passwd.units ++ []) = _
  rw [List.append_nil]

end Values

/-! ### The statement -/

section Statement

variable {values : QString}

/-- The statement before its values. -/
def statementFront : List UInt16 := (QString.ofLiteral "INSERT INTO UserTable(%3) VALUES ").units

theorem statement_pieces (w : List UInt16) :
    pieces (statementFront ++ 40 :: (w ++ [41])) =
      pieces statementFront ++ .unit 40 :: (pieces w ++ [.unit 41]) := by
  rw [pieces_append (by decide)]
  change pieces statementFront ++ .unit 40 :: pieces (w ++ [41]) = _
  rw [pieces_append (by decide)]
  rfl

theorem statementFront_numbers : numbers (pieces statementFront) = [3] := by decide

theorem statement_numbers (w : List UInt16) :
    numbers (pieces (statementFront ++ 40 :: (w ++ [41]))) = 3 :: numbers (pieces w) := by
  rw [statement_pieces, numbers_append, statementFront_numbers]
  change 3 :: numbers (pieces w ++ [.unit 41]) = _
  rw [numbers_append]
  exact congrArg (3 :: ·) (List.append_nil _)

theorem statement_filled (values : QString) :
    (((QString.ofLiteral "INSERT INTO %1(%3) VALUES (%2)").arg chatyDbUserTable).arg values).units =
      statementFront ++ 40 :: (values.units ++ [41]) := by
  have htable : ((QString.ofLiteral "INSERT INTO %1(%3) VALUES (%2)").arg chatyDbUserTable).units =
      statementFront ++ 40 :: ([37, 50] ++ [41]) := by decide
  have hlowest : lowest (pieces
      ((QString.ofLiteral "INSERT INTO %1(%3) VALUES (%2)").arg chatyDbUserTable).units) =
      some 2 := by
    rw [htable]
    decide
  have hfront : 2 ∉ numbers (pieces statementFront) := by decide
  have hmarker : pieces [37, 50] = [.marker 2 [37, 50]] := by decide
  rw [arg_of_lowest hlowest, htable, statement_pieces, units_text, fill_append,
    fill_of_notMem _ hfront, spell_pieces, hmarker]
  rfl

/-- With a lower marker in the values, the one of the template stays. -/
theorem insertDataSql_of_marker {n : Nat} (hn : n < 3) (h : HasMarker n values) :
    ∃ rest, (insertDataSql chatyDbUserTable userColumns values).units = statementFront ++ rest := by
  obtain ⟨k, hlowest⟩ : ∃ k, lowest (pieces (statementFront ++ 40 :: (values.units ++ [41]))) =
      some k := by
    apply Option.ne_none_iff_exists'.mp
    rw [Ne, lowest_eq_none_iff, statement_numbers]
    exact List.cons_ne_nil _ _
  have hleast := (lowest_eq_some_iff.mp hlowest).2 n
    (by rw [statement_numbers]; exact List.mem_cons_of_mem 3 h)
  have hfront : k ∉ numbers (pieces statementFront) := by
    rw [statementFront_numbers, List.mem_singleton]
    omega
  rw [← statement_filled] at hlowest
  rw [insertDataSql, arg_of_lowest hlowest, statement_filled, statement_pieces, units_text,
    fill_append, fill_of_notMem _ hfront, spell_pieces]
  exact ⟨_, rfl⟩

theorem insertDataSql_of_no_marker (h : ∀ n < 3, ¬HasMarker n values) :
    (insertDataSql chatyDbUserTable userColumns values).units =
      (QString.ofLiteral "INSERT INTO UserTable(name, passwd) VALUES (").units ++
        (fill 3 userColumns.units (pieces values.units) ++ [41]) := by
  have hlowest : lowest (pieces (statementFront ++ 40 :: (values.units ++ [41]))) = some 3 := by
    rw [lowest_eq_some_iff, statement_numbers]
    refine ⟨List.mem_cons_self, fun m hm => ?_⟩
    rcases List.mem_cons.mp hm with rfl | hvalues
    · exact Nat.le_refl _
    · by_contra hlow
      exact h m (Nat.lt_of_not_le hlow) hvalues
  have hfront : fill 3 userColumns.units (pieces statementFront) ++ [40] =
      (QString.ofLiteral "INSERT INTO UserTable(name, passwd) VALUES (").units := by decide
  rw [← statement_filled] at hlowest
  rw [insertDataSql, arg_of_lowest hlowest, statement_filled, statement_pieces, units_text,
    fill_append, ← hfront, List.append_assoc]
  change _ ++ 40 :: fill 3 _ (pieces values.units ++ [.unit 41]) = _
  rw [fill_append]
  rfl

end Statement

/-! ### Both together -/

section Literal

variable {name passwd : QString}

/-- The values as `InsertUser` means them. -/
def literalValues (name passwd : QString) : QString :=
  name ++ QString.ofLiteral ", " ++ passwd

theorem literalValues_units (name passwd : QString) :
    (literalValues name passwd).units = name.units ++ 44 :: 32 :: passwd.units := by
  have hcomma : (QString.ofLiteral ", ").units = [44, 32] := by decide
  rw [literalValues, units_append, units_append, hcomma, List.append_assoc]
  rfl

theorem hasMarker_literalValues (n : Nat) :
    HasMarker n (literalValues name passwd) ↔ HasMarker n name ∨ HasMarker n passwd := by
  have hcomma : pieces (44 :: 32 :: passwd.units) =
      .unit 44 :: .unit 32 :: pieces passwd.units := rfl
  rw [HasMarker, literalValues_units, pieces_append (by decide), hcomma, numbers_append]
  exact List.mem_append

theorem literalSql_units (name passwd : QString) :
    (literalSql name passwd).units =
      (QString.ofLiteral "INSERT INTO UserTable(name, passwd) VALUES (").units ++
        ((literalValues name passwd).units ++ [41]) := by
  have hclose : (QString.ofLiteral ")").units = [41] := by decide
  rw [literalSql, literalValues]
  simp only [units_append, hclose, List.append_assoc]

theorem insertUserSql_eq_iff :
    insertUserSql name passwd = literalSql name passwd ↔
      (insertUserSql name passwd).units = (literalSql name passwd).units := by
  refine ⟨congrArg units, fun h => eq_of_units h ?_⟩
  rw [literalSql_units]
  exact List.append_ne_nil_of_right_ne_nil _ (List.append_ne_nil_of_right_ne_nil _ (by decide))

/-- While the columns are not in the statement, it is not the literal one. -/
theorem no_marker_of_literal (h : insertUserSql name passwd = literalSql name passwd) :
    ∀ n < 3, ¬HasMarker n (userValues name passwd) := by
  intro n hn hmarker
  obtain ⟨rest, hrest⟩ := insertDataSql_of_marker hn hmarker
  have hchar := congrArg (·[22]?) (hrest.symm.trans (insertUserSql_eq_iff.mp h))
  simp only [literalSql_units] at hchar
  rw [List.getElem?_append_left (by decide), List.getElem?_append_left (by decide)] at hchar
  exact absurd hchar (by decide)

theorem userValues_marker_two (h : HasMarker 1 name) : HasMarker 2 (userValues name passwd) := by
  have hpieces := userValues_pieces (.text (fill 1 passwd.units (pieces name.units)))
  rw [units_text] at hpieces
  rw [HasMarker, userValues_of_marker h, hpieces, numbers_append]
  exact List.mem_append_right _ List.mem_cons_self

/-- The filled columns would bring an `n` that the literal statement does not have. -/
theorem no_marker_three {values : QString} (hvalues : values.units =
      fill 2 passwd.units (pieces name.units) ++ 44 :: 32 :: passwd.units)
    (h : fill 3 userColumns.units (pieces values.units) = (literalValues name passwd).units) :
    ¬HasMarker 3 values := by
  have hcount := congrArg (List.count 110) h
  have hspelling : ∀ us n spelling, .marker n spelling ∈ pieces us → 110 ∉ spelling :=
    fun us n spelling hmem => spelling_of_mem hmem (by decide) (by decide)
  have hcolumns : userColumns.units.count 110 = 1 := by decide
  have hcomma : ∀ us : List UInt16, (44 :: 32 :: us).count 110 = us.count 110 := fun us => by
    rw [List.count_cons_of_ne (by decide), List.count_cons_of_ne (by decide)]
  rw [count_fill (hspelling _), spell_pieces, hcolumns, hvalues, literalValues_units,
    List.count_append, List.count_append, count_fill (hspelling _), spell_pieces, hcomma,
    ← hvalues] at hcount
  exact List.count_eq_zero.mp (by omega)

/-- The statement is the literal one exactly when neither text has a marker of the templates. -/
theorem insertUserSql_literal_iff (name passwd : QString) :
    insertUserSql name passwd = literalSql name passwd ↔
      ∀ n, 1 ≤ n → n ≤ 3 → ¬HasMarker n name ∧ ¬HasMarker n passwd := by
  constructor
  · intro h
    have hlow := no_marker_of_literal h
    have hname : ¬HasMarker 1 name := fun hone => hlow 2 (by decide) (userValues_marker_two hone)
    have hvalues : (userValues name passwd).units = _ := userValues_of_no_marker hname
    have hunits := insertUserSql_eq_iff.mp h
    rw [insertUserSql, insertDataSql_of_no_marker hlow, literalSql_units] at hunits
    have hfilled := List.append_cancel_right (List.append_cancel_left hunits)
    have hthree := no_marker_three hvalues hfilled
    rw [fill_of_notMem _ hthree, spell_pieces] at hfilled
    intro n hn hle
    have hnone : ¬HasMarker n (userValues name passwd) := by
      rcases Nat.lt_or_eq_of_le hle with hlt | rfl
      · exact hlow n hlt
      · exact hthree
    rw [HasMarker, hfilled] at hnone
    exact not_or.mp fun hor => hnone ((hasMarker_literalValues n).mpr hor)
  · intro h
    have hunits : (userValues name passwd).units = (literalValues name passwd).units := by
      rw [userValues_of_no_marker (h 1 (by decide) (by decide)).1,
        fill_of_notMem _ (h 2 (by decide) (by decide)).1, spell_pieces, literalValues_units]
    have hnone : ∀ n ≤ 3, ¬HasMarker n (userValues name passwd) := by
      intro n hn hmarker
      rw [HasMarker, hunits] at hmarker
      have hzero := ne_zero_of_mem_numbers n hmarker
      obtain ⟨hname, hpasswd⟩ := h n (Nat.pos_of_ne_zero hzero) hn
      exact ((hasMarker_literalValues n).mp hmarker).elim hname hpasswd
    rw [insertUserSql_eq_iff, insertUserSql,
      insertDataSql_of_no_marker fun n hn => hnone n (Nat.le_of_lt hn), literalSql_units,
      fill_of_notMem _ (hnone 3 (Nat.le_refl _)), spell_pieces, hunits]

/-- The name `%1` is taken for a marker, and the columns go where the password was meant to. -/
theorem marker_name_not_literal :
    insertUserSql (QString.ofLiteral "%1") (QString.ofLiteral "x") =
        QString.ofLiteral "INSERT INTO UserTable(%3) VALUES (x, name, passwd)" ∧
      insertUserSql (QString.ofLiteral "%1") (QString.ofLiteral "x") ≠
        literalSql (QString.ofLiteral "%1") (QString.ofLiteral "x") := by
  decide

end Literal

end XChaty.Server
