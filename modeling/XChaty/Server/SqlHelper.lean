import XChaty.Protoc.Message

/-! `SqlHelper`, the one instance through which the server uses SQLite, and `UserTableDAO`.  SQLite
itself is a parameter, `Host`: the result code of each `sqlite3_open`, the statements of a text, and
what a statement does to the database of a file, with its rows and its error message.
`Host.sqlite3_exec` is the loop of `sqlite3_exec` over the statements of its text.  `Handle` is the part
of the helper that `Open` and `Close` work on, with the connections that they have opened and
closed. -/

namespace XChaty.Server

open Qt Protoc

/-- A connection that `sqlite3_open` returned, numbered in the order of the calls. -/
structure Connection where
  serial : Nat
  file : QString
deriving DecidableEq, Repr

/-! ### SQLite -/

/-- The texts of one row's columns; a null pointer is `none`. -/
abbrev Argv := List (Option QString)

/-- What one statement does: the database after it, the rows for the callback in order, each with the
database that is left when the process ends there, and the error message, which is `none` when the
statement succeeds. -/
structure StatementResult (Db : Type) where
  database : Db
  rows : List (Argv × Db)
  error : Option QString

/-- What the program uses of its surroundings: the result code with which `sqlite3_open` returned a
connection, the statements that `;` separates in a text, what a statement does to a database, for a
connection to `file` (`run database file sql`), and the directory of the executable. -/
structure Host (Db : Type) where
  sqlite3_open : Connection → Int
  statements : QString → List QString
  run : Db → QString → QString → StatementResult Db
  applicationDirPath : QString

def sqliteOk : Int := 0

/-- What a call of `sqlite3_exec` stores through its error pointer: null when it returns `SQLITE_OK`,
a message when a statement has failed, and nothing when it returns `SQLITE_MISUSE`. -/
inductive Stored
  | null
  | message (text : QString)
  | nothing
deriving DecidableEq, Repr

/-- A row for the callback, with what has been run and the database that is left when the process
ends there. -/
structure Row (Db : Type) where
  argv : Argv
  statements : List QString
  database : Db

/-- What one call of `sqlite3_exec` does: the statements that it runs, the database after them, the
rows for the callback, and what it stores through its error pointer. -/
structure ExecResult (Db : Type) where
  statements : List QString
  database : Db
  rows : List (Row Db)
  stored : Stored

def ExecResult.misuse {Db : Type} (database : Db) : ExecResult Db :=
  { statements := [], database, rows := [], stored := .nothing }

section Exec

variable {Db : Type} (host : Host Db)

/-- Statements one after the other, up to one that fails, when those of `ran` have been run. -/
def Host.runAll (file : QString) (ran : List QString) (database : Db) :
    List QString → ExecResult Db
  | [] => { statements := ran, database, rows := [], stored := .null }
  | sql :: rest =>
    let first := host.run database file sql
    let ran := ran ++ [sql]
    let rows := first.rows.map fun row => { argv := row.1, statements := ran, database := row.2 }
    match first.error with
    | some text => { statements := ran, database := first.database, rows, stored := .message text }
    | none =>
      let others := Host.runAll file ran first.database rest
      { others with rows := rows ++ others.rows }

/-- Without a connection, and on one that `sqlite3_open` has failed to open, the call is a misuse. -/
def Host.sqlite3_exec (m_db : Option Connection) (database : Db) (sql : QString) : ExecResult Db :=
  match m_db with
  | none => .misuse database
  | some conn =>
    if host.sqlite3_open conn = sqliteOk then
      host.runAll conn.file [] database (host.statements sql)
    else .misuse database

theorem Host.runAll_stored (file : QString) (ran : List QString) (database : Db)
    (rest : List QString) : (host.runAll file ran database rest).stored ≠ .nothing := by
  induction rest generalizing ran database with
  | nil => exact Stored.noConfusion
  | cons sql rest ih =>
    rw [Host.runAll]
    cases (host.run database file sql).error with
    | some text => exact Stored.noConfusion
    | none => exact ih _ _

def Host.getDataBasePath (db_name : QString) : QString :=
  host.applicationDirPath ++ QString.ofLiteral "/sql_data" ++ QString.ofLiteral "/" ++ db_name

end Exec

/-! ### Connections -/

/-- The connection of the helper, and those that `sqlite3_open` has returned and `sqlite3_close`
has been given, oldest first. -/
structure Handle where
  m_db : Option Connection
  opened : List Connection
  closed : List Connection
deriving DecidableEq, Repr

/-- `_Open` overwrites `m_db` with a new connection, whatever it held, and also with one that
`sqlite3_open` has failed to open. -/
def Handle.openFile (h : Handle) (file : QString) : Handle :=
  { h with
    m_db := some ⟨h.opened.length, file⟩
    opened := h.opened ++ [⟨h.opened.length, file⟩] }

def Handle.close (h : Handle) : Handle :=
  match h.m_db with
  | some conn => { h with m_db := none, closed := h.closed ++ [conn] }
  | none => { h with m_db := none }

@[simp] theorem Handle.openFile_opened (h : Handle) (file : QString) :
    (h.openFile file).opened = h.opened ++ [⟨h.opened.length, file⟩] := rfl

@[simp] theorem Handle.openFile_close (h : Handle) (file : QString) :
    (h.openFile file).close =
      { m_db := none
        opened := h.opened ++ [⟨h.opened.length, file⟩]
        closed := h.closed ++ [⟨h.opened.length, file⟩] } := rfl

/-- `isOpen`, where `db_filename conn DataName` is what `sqlite3_db_filename` returns. -/
def Handle.isOpen (db_filename : Connection → QString → Option QString) (h : Handle)
    (DataName : QString) : Bool :=
  match h.m_db with
  | none => true
  | some conn => (db_filename conn DataName).isNone

def Handle.Live (h : Handle) (conn : Connection) : Prop := conn ∈ h.opened ∧ conn ∉ h.closed

instance (h : Handle) (conn : Connection) : Decidable (h.Live conn) :=
  inferInstanceAs (Decidable (conn ∈ h.opened ∧ conn ∉ h.closed))

/-! ### Statements -/

/-- What `m_errmsg` points to: the array of the constructor, nothing, or the message that a call of
`sqlite3_exec` allocated, with the number of that call. -/
inductive ErrMsg
  | buffer
  | null
  | message (call : Nat) (text : QString)
deriving DecidableEq, Repr

/-- The helper with the databases that it works on, the count of calls of `sqlite3_exec`, the
statements that have been run, and the messages that `Exec` has logged and freed. -/
structure SqlHelper (Db : Type) where
  handle : Handle
  m_errmsg : ErrMsg
  database : Db
  calls : Nat
  statements : List QString
  warned : List ErrMsg

def SqlHelper.new {Db : Type} (database : Db) : SqlHelper Db :=
  { handle := { m_db := none, opened := [], closed := [] }
    m_errmsg := .buffer, database, calls := 0, statements := [], warned := [] }

abbrev Callback (δ : Type) := δ → Argv → Except Fault δ

def insertDataSql (table columns values : QString) : QString :=
  (((QString.ofLiteral "INSERT INTO %1(%3) VALUES (%2)").arg table).arg values).arg columns

section Helper

variable {Db δ : Type} (host : Host Db) (helper : SqlHelper Db)

/-- `Open`.  The new connection is kept whatever its result code, `host.sqlite3_open`, which only
chooses a log line. -/
def SqlHelper.openFile (fileName : QString) : SqlHelper Db :=
  { helper with handle := helper.handle.openFile (host.getDataBasePath fileName) }

def SqlHelper.close : SqlHelper Db := { helper with handle := helper.handle.close }

/-- After a call that has returned: `Exec` logs and frees what the pointer holds, unless the call has
returned `SQLITE_OK`. -/
def SqlHelper.executed (result : ExecResult Db) : SqlHelper Db :=
  let helper := { helper with
    database := result.database
    calls := helper.calls + 1
    statements := helper.statements ++ result.statements }
  match result.stored with
  | .null => { helper with m_errmsg := .null }
  | .message text =>
    let m_errmsg := ErrMsg.message helper.calls text
    { helper with m_errmsg, warned := helper.warned ++ [m_errmsg] }
  | .nothing => { helper with warned := helper.warned ++ [helper.m_errmsg] }

/-- In the middle of a call, at a row whose callback does not return. -/
def SqlHelper.interrupted (row : Row Db) : SqlHelper Db :=
  { helper with
    database := row.database
    calls := helper.calls + 1
    statements := helper.statements ++ row.statements }

/-- The callback is given the rows one after the other. -/
def SqlHelper.feed (callback : Callback δ) : List (Row Db) → δ → Except (Crash (SqlHelper Db)) δ
  | [], data => .ok data
  | row :: rows, data => do
    let data ← crashIn (helper.interrupted row) (callback data row.argv)
    SqlHelper.feed callback rows data

def SqlHelper.exec (sql : QString) (data : δ) (callback : Callback δ) :
    Except (Crash (SqlHelper Db)) (SqlHelper Db × δ) := do
  let result := host.sqlite3_exec helper.handle.m_db helper.database sql
  let data ← helper.feed callback result.rows data
  return (helper.executed result, data)

def querySql (table columns _where : QString) : QString :=
  (((QString.ofLiteral "SELECT %1 FROM %2 WHERE %3;").arg columns).arg table).arg _where

def SqlHelper.query (table columns _where : QString) (data : δ) (callback : Callback δ) :
    Except (Crash (SqlHelper Db)) (SqlHelper Db × δ) :=
  helper.exec host (querySql table columns _where) data callback

/-- The overload of `InsertData` with columns, which does not execute the statement it makes. -/
def SqlHelper.insertData (table columns values : QString) : SqlHelper Db :=
  let _sql := insertDataSql table columns values
  helper

def createTableSql (table columns : QString) : QString :=
  ((QString.ofLiteral "CREATE TABLE IF NOT EXISTS %1 (%2)").arg table).arg columns

def SqlHelper.createTable (table columns : QString) (data : δ) (callback : Callback δ) :
    Except (Crash (SqlHelper Db)) (SqlHelper Db × δ) :=
  helper.exec host (createTableSql table columns) data callback

def insertValuesSql (table values : QString) : QString :=
  ((QString.ofLiteral "INSERT INTO %1 VALUES (%2)").arg table).arg values

/-- The overload of `InsertData` without columns. -/
def SqlHelper.insertValues (table values : QString) (data : δ) (callback : Callback δ) :
    Except (Crash (SqlHelper Db)) (SqlHelper Db × δ) :=
  helper.exec host (insertValuesSql table values) data callback

/-- The connection that the next `Open` of a file gets. -/
def SqlHelper.next (fileName : QString) : Connection :=
  ⟨helper.handle.opened.length, host.getDataBasePath fileName⟩

/-- A query right after `Open`: the callback has the rows of the statement on that file. -/
theorem SqlHelper.query_openFile (fileName table columns _where : QString) (data : δ)
    (callback : Callback δ) :
    let result := host.sqlite3_exec (some (helper.next host fileName)) helper.database
      (querySql table columns _where)
    (helper.openFile host fileName).query host table columns _where data callback =
      ((helper.openFile host fileName).feed callback result.rows data).map
        ((helper.openFile host fileName).executed result, ·) := by
  intro result
  change Except.bind ((helper.openFile host fileName).feed callback result.rows data) (fun data =>
    .ok ((helper.openFile host fileName).executed result, data)) = _
  cases (helper.openFile host fileName).feed callback result.rows data <;> rfl

/-- A callback that returns for every row has gone through all of them. -/
theorem SqlHelper.feed_of_foldlM {callback : Callback δ} {rows : List (Row Db)} {data data' : δ}
    (h : (rows.map Row.argv).foldlM callback data = .ok data') :
    helper.feed callback rows data = .ok data' := by
  induction rows generalizing data with
  | nil => exact congrArg _ (Except.ok.inj h)
  | cons row rows ih =>
    rw [List.map_cons, List.foldlM_cons] at h
    rw [SqlHelper.feed]
    cases hrow : callback data row.argv with
    | error fault =>
      rw [hrow] at h
      cases h
    | ok next =>
      rw [hrow] at h
      exact ih h

end Helper

/-! ### `UserTableDAO` -/

def chatyDbName : QString := QString.ofLiteral "ChatDB.db"

/-- `atoi`: blanks, a sign, and digits, up to the limits of `int`. -/
def atoi (text : List UInt16) : Int :=
  let text := text.dropWhile fun u => u = 32 ∨ 9 ≤ u ∧ u ≤ 13
  let negative := text.head? = some 45
  let digits := if text.head? = some 45 ∨ text.head? = some 43 then text.tail else text
  let values := (digits.map QString.digitValue).takeWhile Option.isSome
  let value : Nat := values.foldl (fun n d => 10 * n + d.getD 0) 0
  if negative then max (-(value : Int)) (-2147483648) else min (value : Int) 2147483647

/-- The member `m_queryUserCB`.  The `int` that `atoi` returns is assigned to a `QString` as a
`char`, which becomes one Latin-1 character. -/
def m_queryUserCB : Callback (Option User) := fun data argv => do
  let _user ← deref .nullUser data
  match argv with
  | id :: userName :: passwd :: _ => do
    let id ← deref .missingColumn id
    return some
      { id := .text [UInt16.ofNat (atoi id.units % 256).toNat]
        userName := userName.getD .null
        passwd := passwd.getD .null }
  | _ => .error .missingColumn

section Lookup

variable {Db : Type} (host : Host Db) (helper : SqlHelper Db)

def lookupSql (name : QString) : QString :=
  querySql (.ofLiteral "UserTable") (.ofLiteral "id,name,passwd")
    ((QString.ofLiteral "name = %1").arg name)

/-- `GetUser(const QString name)`: the callback is given the null `pUser`. -/
def getUserByName (name : QString) : Except (Crash (SqlHelper Db)) (SqlHelper Db × Option User) := do
  let pUser : Option User := none
  let helper := helper.openFile host chatyDbName
  let (helper, pUser) ← helper.query host (.ofLiteral "UserTable") (.ofLiteral "id,name,passwd")
    ((QString.ofLiteral "name = %1").arg name) pUser m_queryUserCB
  return (helper.close, pUser)

def lookup (name : QString) : ExecResult Db :=
  host.sqlite3_exec (some (helper.next host chatyDbName)) helper.database (lookupSql name)

variable {host helper}

def afterLookup (host : Host Db) (helper : SqlHelper Db) (name : QString) : SqlHelper Db :=
  ((helper.openFile host chatyDbName).executed (lookup host helper name)).close

/-- A lookup whose callback has not returned from a row. -/
def cutLookup (host : Host Db) (helper : SqlHelper Db) (row : Row Db) : SqlHelper Db :=
  (helper.openFile host chatyDbName).interrupted row

theorem getUserByName_eq (name : QString) :
    getUserByName host helper name =
      ((helper.openFile host chatyDbName).feed m_queryUserCB (lookup host helper name).rows none).map
        (afterLookup host helper name, ·) := by
  rw [getUserByName, SqlHelper.query_openFile]
  change Except.bind (Except.map _ ((helper.openFile host chatyDbName).feed m_queryUserCB
    (lookup host helper name).rows none)) _ = _
  cases (helper.openFile host chatyDbName).feed m_queryUserCB (lookup host helper name).rows none <;>
    rfl

theorem getUserByName_of_no_rows {name : QString} (h : (lookup host helper name).rows = []) :
    getUserByName host helper name = .ok (afterLookup host helper name, none) := by
  rw [getUserByName_eq, h]
  rfl

theorem getUserByName_of_row {name : QString} {row : Row Db} {rows : List (Row Db)}
    (h : (lookup host helper name).rows = row :: rows) :
    getUserByName host helper name = .error ⟨.nullUser, cutLookup host helper row⟩ := by
  rw [getUserByName_eq, h]
  rfl

end Lookup

/-- A host that opens every connection, and answers every statement with a syntax error, as SQLite
answers the lookup of an empty name, `... WHERE name = ;`. -/
def syntaxErrorHost : Host (List Argv) where
  sqlite3_open _ := sqliteOk
  statements sql := [sql]
  run database _ _ :=
    { database, rows := [], error := some (.ofLiteral "near \";\": syntax error") }
  applicationDirPath := .ofLiteral "C:/XChaty"

end XChaty.Server
