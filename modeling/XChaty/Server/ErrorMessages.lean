import XChaty.ProofKit.Machine
import XChaty.Server.SqlHelper

/-! The error message that `Exec` logs and frees.  `sqlite3_exec` writes the pointer `m_errmsg`
whenever it runs statements, but not without a connection, nor on one that `sqlite3_open` has failed
to open; then `Exec` logs and frees what an earlier call or the constructor left there. -/

namespace XChaty.Server

open Qt Protoc ProofKit

/-- The calls on the shared instance.  A callback may end the process. -/
inductive SqlCall (δ : Type)
  | openFile (fileName : QString)
  | close
  | exec (sql : QString) (data : δ) (callback : Callback δ)
  | query (table columns _where : QString) (data : δ) (callback : Callback δ)
  | insertData (table columns values : QString)
  | insertValues (table values : QString) (data : δ) (callback : Callback δ)
  | createTable (table columns : QString) (data : δ) (callback : Callback δ)

/-- The calls that come to `Exec`. -/
def SqlCall.Executes {δ : Type} : SqlCall δ → Prop
  | exec .. | query .. | insertValues .. | createTable .. => True
  | openFile _ | close | insertData .. => False

section Calls

variable {Db δ : Type} (host : Host Db)

def SqlCall.run (helper : SqlHelper Db) : SqlCall δ → Except (Crash (SqlHelper Db)) (SqlHelper Db)
  | openFile fileName => .ok (helper.openFile host fileName)
  | close => .ok helper.close
  | exec sql data callback => (helper.exec host sql data callback).map Prod.fst
  | query table columns _where data callback =>
    (helper.query host table columns _where data callback).map Prod.fst
  | insertData table columns values => .ok (helper.insertData table columns values)
  | insertValues table values data callback =>
    (helper.insertValues host table values data callback).map Prod.fst
  | createTable table columns data callback =>
    (helper.createTable host table columns data callback).map Prod.fst

/-- A process that has been ended by a callback stays so. -/
def sqlCalls : Machine (Except (Crash (SqlHelper Db)) (SqlHelper Db)) (SqlCall δ) Unit where
  step s call := (s.bind fun helper => call.run host helper, ())

/-! ### What a call does -/

/-- The helper holds a connection that `sqlite3_open` has opened. -/
def Handle.Ready (h : Handle) : Prop :=
  ∃ conn, h.m_db = some conn ∧ host.sqlite3_open conn = sqliteOk

theorem Host.sqlite3_exec_stored_iff (h : Handle) (database : Db) (sql : QString) :
    (host.sqlite3_exec h.m_db database sql).stored = .nothing ↔ ¬h.Ready host := by
  unfold Host.sqlite3_exec Handle.Ready
  cases h.m_db with
  | none => simp [ExecResult.misuse]
  | some conn =>
    by_cases hopen : host.sqlite3_open conn = sqliteOk
    · simp [hopen, host.runAll_stored]
    · simp [hopen, ExecResult.misuse]

theorem Host.sqlite3_exec_of_not_ready {h : Handle} (hready : ¬h.Ready host) (database : Db)
    (sql : QString) : host.sqlite3_exec h.m_db database sql = .misuse database := by
  unfold Host.sqlite3_exec
  cases hm : h.m_db with
  | none => rfl
  | some conn => exact if_neg fun hopen => hready ⟨conn, hm, hopen⟩

theorem SqlHelper.exec_eq (helper : SqlHelper Db) (sql : QString) (data : δ)
    (callback : Callback δ) :
    let result := host.sqlite3_exec helper.handle.m_db helper.database sql
    (helper.exec host sql data callback).map Prod.fst =
      (helper.feed callback result.rows data).map fun _ => helper.executed result := by
  intro result
  change Except.map Prod.fst (Except.bind (helper.feed callback result.rows data) _) = _
  cases helper.feed callback result.rows data <;> rfl

theorem SqlCall.run_of_executes {call : SqlCall δ} (h : call.Executes) :
    ∃ (sql : QString) (data : δ) (callback : Callback δ), ∀ helper : SqlHelper Db,
      call.run host helper = (helper.exec host sql data callback).map Prod.fst := by
  cases call with
  | exec sql data callback => exact ⟨sql, data, callback, fun _ => rfl⟩
  | query table columns _where data callback =>
    exact ⟨querySql table columns _where, data, callback, fun _ => rfl⟩
  | insertValues table values data callback =>
    exact ⟨insertValuesSql table values, data, callback, fun _ => rfl⟩
  | createTable table columns data callback =>
    exact ⟨createTableSql table columns, data, callback, fun _ => rfl⟩
  | openFile fileName => exact h.elim
  | close => exact h.elim
  | insertData table columns values => exact h.elim

/-- A call that returns has not executed anything, or has come back from `sqlite3_exec` on the
connection that is held, if any. -/
theorem SqlCall.run_cases {call : SqlCall δ} {helper helper' : SqlHelper Db}
    (h : call.run host helper = .ok helper') :
    (¬call.Executes ∧ helper'.m_errmsg = helper.m_errmsg ∧ helper'.calls = helper.calls ∧
      helper'.warned = helper.warned) ∨
    (call.Executes ∧ ∃ sql, helper' =
      helper.executed (host.sqlite3_exec helper.handle.m_db helper.database sql)) := by
  by_cases hexec : call.Executes
  · obtain ⟨sql, data, callback, hrun⟩ := call.run_of_executes host hexec
    rw [hrun, SqlHelper.exec_eq] at h
    refine .inr ⟨hexec, sql, ?_⟩
    cases hfeed : helper.feed callback
        (host.sqlite3_exec helper.handle.m_db helper.database sql).rows data with
    | error crash =>
      rw [hfeed] at h
      cases h
    | ok data =>
      rw [hfeed] at h
      exact (Except.ok.inj h).symm
  · refine .inl ⟨hexec, ?_⟩
    cases call with
    | openFile fileName => cases h; exact ⟨rfl, rfl, rfl⟩
    | close => cases h; exact ⟨rfl, rfl, rfl⟩
    | insertData table columns values => cases h; exact ⟨rfl, rfl, rfl⟩
    | exec sql data callback => exact absurd trivial hexec
    | query table columns _where data callback => exact absurd trivial hexec
    | insertValues table values data callback => exact absurd trivial hexec
    | createTable table columns data callback => exact absurd trivial hexec

/-! ### Whose message it is -/

/-- What the call logs and frees is the message that it has allocated itself. -/
def OwnError (helper helper' : SqlHelper Db) : Prop :=
  ∀ m ∈ helper'.warned.drop helper.warned.length, ∃ text, m = .message helper'.calls text

/-- A message that the pointer still has is one of an earlier call, which has freed it. -/
def Freed (helper : SqlHelper Db) : Prop :=
  ∀ call text, helper.m_errmsg = .message call text →
    call ≤ helper.calls ∧ helper.m_errmsg ∈ helper.warned

variable {host}

theorem freed_new (database : Db) : Freed (SqlHelper.new database) :=
  fun _ _ h => nomatch h

theorem Freed.executed {helper : SqlHelper Db} (hfreed : Freed helper) (result : ExecResult Db) :
    Freed (helper.executed result) := by
  intro call text h
  unfold SqlHelper.executed at h ⊢
  cases hstored : result.stored with
  | null =>
    simp only [hstored] at h
    cases h
  | message message =>
    simp only [hstored] at h ⊢
    cases h
    exact ⟨Nat.le_refl _, List.mem_append_right _ List.mem_cons_self⟩
  | nothing =>
    simp only [hstored] at h ⊢
    obtain ⟨hle, hmem⟩ := hfreed call text h
    exact ⟨Nat.le_succ_of_le hle, List.mem_append_left _ hmem⟩

theorem Freed.run {call : SqlCall δ} {helper helper' : SqlHelper Db} (hfreed : Freed helper)
    (h : call.run host helper = .ok helper') : Freed helper' := by
  obtain ⟨-, hpointer, hcalls, hwarned⟩ | ⟨-, sql, rfl⟩ := SqlCall.run_cases host h
  · unfold Freed
    rw [hpointer, hcalls, hwarned]
    exact hfreed
  · exact hfreed.executed _

/-- The message is that of the call exactly when the call has stored one or succeeded. -/
theorem ownError_executed_iff {helper : SqlHelper Db} (hfreed : Freed helper)
    (result : ExecResult Db) :
    OwnError helper (helper.executed result) ↔ result.stored ≠ .nothing := by
  unfold OwnError SqlHelper.executed
  cases hstored : result.stored with
  | null =>
    refine iff_of_true (fun m hm => ?_) Stored.noConfusion
    simp at hm
  | message text =>
    refine iff_of_true (fun m hm => ?_) Stored.noConfusion
    simp only [List.drop_left, List.mem_singleton] at hm
    exact ⟨text, hm⟩
  | nothing =>
    refine iff_of_false (fun hown => ?_) fun hne => hne rfl
    obtain ⟨text, hpointer⟩ := hown helper.m_errmsg
      (by rw [List.drop_left]; exact List.mem_singleton_self _)
    have hle := (hfreed _ text hpointer).1
    exact Nat.not_succ_le_self _ hle

/-- A call logs a message of its own exactly when it does not execute anything without a connection
that is open. -/
theorem ownError_iff {call : SqlCall δ} {helper helper' : SqlHelper Db} (hfreed : Freed helper)
    (h : call.run host helper = .ok helper') :
    OwnError helper helper' ↔ (call.Executes → helper.handle.Ready host) := by
  obtain ⟨hnot, -, -, hwarned⟩ | ⟨hexec, sql, rfl⟩ := SqlCall.run_cases host h
  · refine iff_of_true ?_ fun hexec => absurd hexec hnot
    intro m hmem
    rw [hwarned, List.drop_length] at hmem
    cases hmem
  · rw [ownError_executed_iff hfreed, Ne, host.sqlite3_exec_stored_iff, not_not]
    exact ⟨fun hready _ => hready, fun hready => hready hexec⟩

/-- What is logged and freed at a misuse is the array of the constructor, nothing, or a message that
has been freed before. -/
theorem misuse_frees_again {helper : SqlHelper Db} (hfreed : Freed helper) (database : Db) :
    (helper.executed (.misuse database)).warned = helper.warned ++ [helper.m_errmsg] ∧
      (helper.m_errmsg = .buffer ∨ helper.m_errmsg = .null ∨ helper.m_errmsg ∈ helper.warned) := by
  refine ⟨rfl, ?_⟩
  cases hpointer : helper.m_errmsg with
  | buffer => exact .inl rfl
  | null => exact .inr (.inl rfl)
  | message call text => exact .inr (.inr (hpointer ▸ (hfreed call text hpointer).2))

/-! ### Runs -/

variable (host)

/-- In every call of the sequence that returns, what `Exec` logs and frees is the message of this
call. -/
def OwnErrors (helper : SqlHelper Db) (calls : List (SqlCall δ)) : Prop :=
  ∀ before call after, calls = before ++ call :: after →
    ∀ s s', (sqlCalls host).run (.ok helper) before = .ok s → call.run host s = .ok s' →
      OwnError s s'

theorem freed_run (database : Db) (calls : List (SqlCall δ)) (s : SqlHelper Db)
    (h : (sqlCalls host).run (.ok (SqlHelper.new database)) calls = .ok s) : Freed s := by
  refine Machine.run_invariant (M := sqlCalls host)
    (P := fun s : Except (Crash (SqlHelper Db)) (SqlHelper Db) =>
      ∀ helper, s = .ok helper → Freed helper)
    (fun helper hnew => ?_) (fun t call _ hkeep helper hstep => ?_) s h
  · cases hnew
    exact freed_new database
  · cases t with
    | error crash => cases hstep
    | ok earlier => exact (hkeep earlier rfl).run hstep

/-- The errors are those of their calls exactly when nothing is executed but on a connection that
`sqlite3_open` has opened. -/
theorem ownErrors_iff (database : Db) (calls : List (SqlCall δ)) :
    OwnErrors host (SqlHelper.new database) calls ↔
      ∀ before call after, calls = before ++ call :: after → call.Executes →
        ∀ s, (sqlCalls host).run (.ok (SqlHelper.new database)) before = .ok s →
          s.handle.Ready host := by
  constructor
  · intro hown before call after hsplit hexec s hrun
    by_contra hready
    obtain ⟨sql, data, callback, hcall⟩ := call.run_of_executes host hexec
    have hmisused : call.run host s = .ok (s.executed (.misuse s.database)) := by
      rw [hcall, SqlHelper.exec_eq, host.sqlite3_exec_of_not_ready hready]
      rfl
    have hfreed := freed_run host database before s hrun
    exact hready ((ownError_iff hfreed hmisused).mp
      (hown before call after hsplit s _ hrun hmisused) hexec)
  · intro hready before call after hsplit s s' hrun hcall
    have hfreed := freed_run host database before s hrun
    exact (ownError_iff hfreed hcall).mpr fun hexec => hready before call after hsplit hexec s hrun

end Calls

/-- `Open`, a statement with a syntax error, `Close`, and the statement again: the second call logs
the message of the first, and frees it again. -/
theorem closed_exec_repeats_error :
    ¬OwnErrors syntaxErrorHost (SqlHelper.new [])
      [.openFile chatyDbName, .exec (.ofLiteral "SELECT;") () fun data _ => .ok data, .close,
        .exec (.ofLiteral "SELECT;") () fun data _ => .ok data] := by
  intro hown
  obtain ⟨text, hmessage⟩ := hown
    [.openFile chatyDbName, .exec (.ofLiteral "SELECT;") () fun data _ => .ok data, .close]
    (.exec (.ofLiteral "SELECT;") () fun data _ => .ok data) [] rfl _ _ rfl rfl
    (.message 1 (.ofLiteral "near \";\": syntax error")) (by decide)
  cases hmessage

end XChaty.Server
