import XChaty.Server.Requests

/-! `UserTableDAO` against the table that it is there for.  The rows of the table are read off the
database by a parameter.  An insert never reaches the table; `GetUser` of a name has no user to fill;
`GetUser` of an id returns a user whether or not there is a row, with one character for its id; and
the verdict of `onMsg` on a login does not depend on the table at all. -/

namespace XChaty.Server

open Qt Protoc ProofKit

/-- A row of `UserTable`, with its texts in code units. -/
structure UserRow where
  id : Int32
  name : List UInt16
  passwd : List UInt16
deriving DecidableEq, Repr

/-- The user is the one of the row. -/
structure UserRow.Is (row : UserRow) (user : User) : Prop where
  id : user.id.units = (QString.number row.id.toInt).units
  userName : user.userName.units = row.name
  passwd : user.passwd.units = row.passwd

/-- The columns of the row, as a `SELECT id,name,passwd` hands them to its callback. -/
def UserRow.argv (row : UserRow) : Argv :=
  [some (.number row.id.toInt), some (.text row.name), some (.text row.passwd)]

def chatyDbUserTable : QString := QString.ofLiteral "UserTable"

section Dao

variable {Db : Type} (host : Host Db) (helper : SqlHelper Db)

/-- `InsertUser(QString& name, QString& passwd)`. -/
def insertUser (name passwd : QString) : SqlHelper Db :=
  let columns := QString.ofLiteral "name, passwd"
  let helper := helper.openFile host chatyDbName
  let helper := helper.insertData chatyDbUserTable columns
    (((QString.ofLiteral "%1, %2").arg name).arg passwd)
  helper.close

def idSql (id : Int32) : QString :=
  querySql (.ofLiteral "UserTable") (.ofLiteral "id,name,passwd")
    ((QString.ofLiteral "id=%1").arg (.number id.toInt))

/-- `GetUser(const int id)`: the callback is given a new user. -/
def getUserById (id : Int32) : Except (Crash (SqlHelper Db)) (SqlHelper Db × Option User) := do
  let pUser : Option User := some User.new
  let helper := helper.openFile host chatyDbName
  let (helper, pUser) ← helper.query host (.ofLiteral "UserTable") (.ofLiteral "id,name,passwd")
    ((QString.ofLiteral "id=%1").arg (.number id.toInt)) pUser m_queryUserCB
  return (helper.close, pUser)

def lookupId (id : Int32) : ExecResult Db :=
  host.sqlite3_exec (some (helper.next host chatyDbName)) helper.database (idSql id)

end Dao

/-! ### The verdict on a login -/

section Verdict

variable {Db : Type} (host : Host Db) (userTable : Db → List UserRow) (window : MainWindow Db)

/-- The table has a row with the name and the password of the user. -/
def Matches (table : List UserRow) (user : User) : Prop :=
  ∃ row ∈ table, row.name = user.userName.units ∧ row.passwd = user.passwd.units

/-- `onMsg` decides for success when the table has the user of the login, and else for failure. -/
def VerdictMatches (channel : Nat) (buf : List UInt8) (user : User) : Prop :=
  ∃ window' response, onMsg host window channel buf = .ok (window', some response) ∧
    (response = ResponseType.respLoginSuccess.code ↔
      Matches (userTable window.sql.database) user) ∧
    (¬Matches (userTable window.sql.database) user →
      response = ResponseType.respLoginFailed.code)

variable {host window}

theorem onMsg_login {buf : List UInt8} {time : QString} {user : User}
    (hmsg : convertBuf2ChatyMsg buf = requestMsg .login time user) (channel : Nat) :
    onMsg host window channel buf =
      match (lookup host window.sql user.id).rows with
      | [] => .ok ({ window with sql := afterLookup host window.sql user.id },
          some ResponseType.respLoginSuccess.code)
      | row :: _ => .error ⟨.nullUser, { window with sql := cutLookup host window.sql row }⟩ := by
  rw [convertBuf2ChatyMsg_eq] at hmsg
  rw [onMsg_eq, hmsg]
  rfl

/-- The verdict is right exactly for a user of the table, and when the lookup of its id hands no row
to the callback, which would write it through the null pointer. -/
theorem verdict_matches_iff {buf : List UInt8} {time : QString} {user : User}
    (hmsg : convertBuf2ChatyMsg buf = requestMsg .login time user) (channel : Nat) :
    VerdictMatches host userTable window channel buf user ↔
      Matches (userTable window.sql.database) user ∧
        (lookup host window.sql user.id).rows = [] := by
  unfold VerdictMatches
  rw [onMsg_login hmsg]
  cases (lookup host window.sql user.id).rows with
  | nil =>
    constructor
    · rintro ⟨window', response, hdecided, hsuccess, -⟩
      cases hdecided
      exact ⟨hsuccess.mp rfl, rfl⟩
    · rintro ⟨hmatches, -⟩
      exact ⟨_, _, rfl, ⟨fun _ => hmatches, fun _ => rfl⟩, fun hnone => absurd hmatches hnone⟩
  | cons row rows =>
    constructor
    · rintro ⟨window', response, hdecided, -⟩
      cases hdecided
    · rintro ⟨-, hnone⟩
      cases hnone

end Verdict

/-- A host that opens every connection, and answers every statement with one error message. -/
def refusingHost (text : QString) : Host (List UserRow) where
  sqlite3_open _ := sqliteOk
  statements sql := [sql]
  run database _ _ := { database, rows := [], error := some text }
  applicationDirPath := .ofLiteral "C:/XChaty"

def rowOfBob : UserRow := ⟨1, [98, 111, 98], [52, 98]⟩

theorem loginOfBob_msg : convertBuf2ChatyMsg loginOfBob.packet.bytes =
    requestMsg .login loginOfBob.time loginOfBob.user := by
  rw [convertBuf2ChatyMsg_eq, Packet.decode_bytes]
  rfl

theorem verdict_matches_iff_bob :
    VerdictMatches (refusingHost (.ofLiteral "near \";\": syntax error")) id
        (MainWindow.new [rowOfBob]) 0 loginOfBob.packet.bytes loginOfBob.user ↔
      Matches [rowOfBob] loginOfBob.user ∧
        (lookup (refusingHost (.ofLiteral "near \";\": syntax error"))
          (SqlHelper.new [rowOfBob]) .null).rows = [] :=
  verdict_matches_iff id loginOfBob_msg 0

/-- A login is accepted against an empty table. -/
theorem unknown_user_accepted :
    ¬VerdictMatches (refusingHost (.ofLiteral "near \";\": syntax error")) id
      (MainWindow.new []) 0 loginOfBob.packet.bytes loginOfBob.user := by
  rintro ⟨window', response, hdecided, hsuccess, -⟩
  have hrows : (lookup (refusingHost (.ofLiteral "near \";\": syntax error"))
      (MainWindow.new []).sql loginOfBob.user.id).rows = [] := rfl
  rw [onMsg_login loginOfBob_msg, hrows] at hdecided
  cases hdecided
  obtain ⟨row, hrow, -⟩ := hsuccess.mp rfl
  cases hrow

/-! ### Inserts -/

section Insert

variable {Db : Type} (host : Host Db) (userTable : Db → List UserRow) (helper : SqlHelper Db)

/-- The table is the old one and one more row, of the name and the password. -/
def InsertsUser (name passwd : QString) : Prop :=
  ∃ id, (userTable (insertUser host helper name passwd).database).Perm
    (⟨id, name.units, passwd.units⟩ :: userTable helper.database)

/-- Nothing is executed. -/
theorem insertUser_database (name passwd : QString) :
    (insertUser host helper name passwd).database = helper.database ∧
      (insertUser host helper name passwd).calls = helper.calls :=
  ⟨rfl, rfl⟩

theorem never_inserts_user (name passwd : QString) :
    ¬InsertsUser host userTable helper name passwd := by
  rintro ⟨id, hperm⟩
  rw [(insertUser_database host helper name passwd).1] at hperm
  have hlength := hperm.length_eq
  rw [List.length_cons] at hlength
  omega

end Insert

theorem bob_not_inserted :
    ¬InsertsUser (refusingHost .null) id (SqlHelper.new []) (.ofLiteral "bob") (.ofLiteral "4b") := by
  rintro ⟨id, hperm⟩
  have hlength : 0 = 1 := hperm.length_eq
  cases hlength

/-! ### Lookups by name -/

/-- The name stands in the statement as it is, without quotes. -/
theorem lookupSql_eq (name : QString) :
    lookupSql name =
      .text ((QString.ofLiteral "SELECT id,name,passwd FROM UserTable WHERE name = ").units ++
        (name.units ++ [59])) := by
  have hwhere : (QString.ofLiteral "name = %1").arg name =
      .text ((QString.ofLiteral "name = ").units ++ name.units) := by
    change QString.text ((QString.ofLiteral "name = ").units ++ (name.units ++ [])) = _
    rw [List.append_nil]
  rw [lookupSql, hwhere]
  rfl

section Name

variable {Db : Type} (host : Host Db) (userTable : Db → List UserRow) (helper : SqlHelper Db)

end Name

/-- The one character for an id is never its decimal text. -/
theorem one_char_ne_number (n : Int) :
    [UInt16.ofNat (atoi (QString.number n).units % 256).toNat] ≠ (QString.number n).units := by
  have hdigit : ∀ k < 10, [UInt16.ofNat (atoi (QString.decimal k) % 256).toNat] ≠
      QString.decimal k := by decide
  unfold QString.number
  by_cases hn : 0 ≤ n
  · rw [if_pos hn, QString.units_text]
    by_cases hk : n.toNat < 10
    · exact hdigit n.toNat hk
    · intro h
      have hlength := congrArg List.length h
      rw [QString.decimal, Nat.toDigits_of_base_le (by decide) (by omega)] at hlength
      simp at hlength
  · rw [if_neg hn, QString.units_text]
    intro h
    have hlength := congrArg List.length h
    simp [QString.decimal] at hlength

section Id

variable {Db : Type} (host : Host Db) (userTable : Db → List UserRow) (helper : SqlHelper Db)

/-- The call returns null when no row has the id, and else the user of the row. -/
def FindsId (id : Int32) : Prop :=
  ∃ helper' pUser, getUserById host helper id = .ok (helper', pUser) ∧
    ((∀ row ∈ userTable helper.database, row.id ≠ id) → pUser = none) ∧
    (∀ row ∈ userTable helper.database, row.id = id → ∃ user, pUser = some user ∧ row.Is user)

/-- What SQLite hands to the callback of the statement for an id: the rows with that id. -/
def AnswersId (id : Int32) : Prop :=
  (lookupId host helper id).rows.map Row.argv =
    ((userTable helper.database).filter fun row => row.id = id).map UserRow.argv

/-- The user that the callback leaves for a row. -/
def UserRow.assigned (row : UserRow) : User :=
  { id := .text [UInt16.ofNat (atoi (QString.number row.id.toInt).units % 256).toNat]
    userName := .text row.name
    passwd := .text row.passwd }

theorem foldlM_m_queryUserCB (rows : List UserRow) (user : User) :
    (rows.map UserRow.argv).foldlM m_queryUserCB (some user) =
      .ok (some (((rows.map UserRow.assigned).getLast?).getD user)) := by
  induction rows generalizing user with
  | nil => rfl
  | cons row rows ih =>
    rw [List.map_cons, List.foldlM_cons]
    change (rows.map UserRow.argv).foldlM m_queryUserCB (some row.assigned) = _
    rw [ih, List.map_cons, List.getLast?_cons]
    rfl

variable {host userTable helper}

theorem getUserById_of_answers {id : Int32} (h : AnswersId host userTable helper id) :
    ∃ helper', getUserById host helper id = .ok (helper',
      some (((((userTable helper.database).filter fun row => row.id = id).map
        UserRow.assigned).getLast?).getD User.new)) := by
  have hrows : ((lookupId host helper id).rows.map Row.argv).foldlM m_queryUserCB
      (some User.new) = _ := (congrArg _ h).trans (foldlM_m_queryUserCB _ _)
  rw [getUserById, SqlHelper.query_openFile]
  change ∃ helper', Except.bind (Except.map _ ((helper.openFile host chatyDbName).feed
    m_queryUserCB (lookupId host helper id).rows (some User.new))) _ = _
  rw [SqlHelper.feed_of_foldlM _ hrows]
  exact ⟨_, rfl⟩

/-- The user that the call returns has the fields of a new one, or of a row as the callback assigns
them; so it is never null, and never has the id of its row. -/
theorem never_finds_id {id : Int32} (h : AnswersId host userTable helper id) :
    ¬FindsId host userTable helper id := by
  rintro ⟨helper', pUser, hcall, habsent, hfound⟩
  obtain ⟨helper'', hanswer⟩ := getUserById_of_answers h
  rw [hanswer, List.getLast?_map] at hcall
  obtain ⟨-, rfl⟩ := Prod.mk.inj (Except.ok.inj hcall)
  by_cases hrow : ∃ row ∈ userTable helper.database, row.id = id
  · obtain ⟨row, hmem, rfl⟩ := hrow
    obtain ⟨last, hlast⟩ : ∃ last, ((userTable helper.database).filter
        fun other => other.id = row.id).getLast? = some last := by
      refine ⟨_, List.getLast?_eq_some_getLast (List.ne_nil_of_mem (a := row) ?_)⟩
      exact List.mem_filter.mpr ⟨hmem, by simp⟩
    have hid : last.id = row.id := by
      simpa using (List.mem_filter.mp (List.mem_of_getLast? hlast)).2
    obtain ⟨user, huser, his⟩ := hfound row hmem rfl
    rw [hlast] at huser
    obtain rfl := Option.some.inj huser
    have hchar : last.assigned.id.units = (QString.number row.id.toInt).units := his.id
    rw [← hid] at hchar
    exact one_char_ne_number last.id.toInt hchar
  · cases habsent fun row hmem hid => hrow ⟨row, hmem, hid⟩

end Id

/-- A host that hands out the rows with the id that a statement asks for. -/
def idHost : Host (List UserRow) where
  sqlite3_open _ := sqliteOk
  statements sql := [sql]
  run database _ sql :=
    { database
      rows := (database.filter fun row => idSql row.id = sql).map fun row => (row.argv, database)
      error := none }
  applicationDirPath := .ofLiteral "C:/XChaty"

theorem answersId_bob : AnswersId idHost id (SqlHelper.new [rowOfBob]) 1 := by
  simp [AnswersId, lookupId, idHost, Host.sqlite3_exec, Host.runAll, SqlHelper.new, rowOfBob]

theorem never_finds_id_bob : ¬FindsId idHost id (SqlHelper.new [rowOfBob]) 1 :=
  never_finds_id answersId_bob

/-- The lookup of an id without a row returns a user. -/
theorem absent_id_found : ¬FindsId idHost id (SqlHelper.new []) 7 := by
  rintro ⟨helper', pUser, hcall, habsent, -⟩
  obtain ⟨helper'', hanswer⟩ := getUserById_of_answers
    (show AnswersId idHost id (SqlHelper.new []) 7 from rfl)
  rw [hanswer] at hcall
  obtain ⟨-, rfl⟩ := Prod.mk.inj (Except.ok.inj hcall)
  cases habsent fun row hrow => absurd hrow List.not_mem_nil

end XChaty.Server
