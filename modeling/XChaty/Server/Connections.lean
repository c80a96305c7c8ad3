import Mathlib.Data.List.Nodup
import XChaty.ProofKit.Machine
import XChaty.Server.SqlHelper

/-! `SqlHelper` as the owner of one connection.  `Open` overwrites the pointer to the connection
whatever it held, so a second `Open` without a `Close` loses the first connection, and `isOpen`
answers the opposite of what it asks. -/

namespace XChaty.Server

open Qt ProofKit

/-! ### Handles -/

/-- What every run keeps: the connections are numbered, and each has been closed at most once; the
one that the helper holds has not. -/
structure Tracked (h : Handle) : Prop where
  numbered : ∀ conn ∈ h.opened, conn.serial < h.opened.length
  known : ∀ conn ∈ h.closed, conn ∈ h.opened
  once : h.closed.Nodup
  held : ∀ conn, h.m_db = some conn → h.Live conn

/-- No connection is live but the one that the helper holds. -/
def Single (h : Handle) : Prop := ∀ conn, h.Live conn → h.m_db = some conn

section Handles

variable {h : Handle}

theorem Tracked.fresh (htracked : Tracked h) (file : QString) :
    ⟨h.opened.length, file⟩ ∉ h.opened :=
  fun hmem => Nat.lt_irrefl _ (htracked.numbered _ hmem)

theorem Tracked.openFile (htracked : Tracked h) (file : QString) : Tracked (h.openFile file) := by
  constructor
  · intro conn hconn
    rw [Handle.openFile_opened, List.length_append, List.length_singleton]
    rcases List.mem_append.mp hconn with hold | hnew
    · have := htracked.numbered conn hold
      omega
    · rw [List.mem_singleton.mp hnew]
      exact Nat.lt_succ_self _
  · exact fun conn hconn => List.mem_append_left _ (htracked.known conn hconn)
  · exact htracked.once
  · intro conn hconn
    obtain rfl := Option.some.inj hconn
    refine ⟨List.mem_append_right _ List.mem_cons_self, fun hclosed => ?_⟩
    exact htracked.fresh file (htracked.known _ hclosed)

theorem Handle.close_of_none (hnone : h.m_db = none) : h.close = h := by
  obtain ⟨m_db, opened, closed⟩ := h
  cases hnone
  rfl

theorem Handle.close_of_some {conn : Connection} (hsome : h.m_db = some conn) :
    h.close = { h with m_db := none, closed := h.closed ++ [conn] } := by
  obtain ⟨m_db, opened, closed⟩ := h
  cases hsome
  rfl

theorem Handle.close_m_db (h : Handle) : h.close.m_db = none := by
  unfold Handle.close
  split
  · rfl
  · rfl

theorem Tracked.close (htracked : Tracked h) : Tracked h.close := by
  cases hm : h.m_db with
  | none =>
    rw [Handle.close_of_none hm]
    exact htracked
  | some held =>
    have hlive := htracked.held held hm
    rw [Handle.close_of_some hm]
    constructor
    · exact htracked.numbered
    · intro conn hconn
      rcases List.mem_append.mp hconn with hold | hnew
      · exact htracked.known conn hold
      · rw [List.mem_singleton.mp hnew]
        exact hlive.1
    · refine List.nodup_append.mpr ⟨htracked.once, List.nodup_singleton held, ?_⟩
      intro conn hconn other hother heq
      rw [heq, List.mem_singleton.mp hother] at hconn
      exact hlive.2 hconn
    · intro conn hconn
      cases hconn

/-- A second `Open` without a `Close` leaves a connection that nothing points to. -/
theorem single_openFile_iff (htracked : Tracked h) (file : QString) :
    Single (h.openFile file) ↔ Single h ∧ h.m_db = none := by
  constructor
  · intro hsingle
    have hnone : ∀ conn, ¬h.Live conn := by
      intro conn hlive
      have hheld := hsingle conn ⟨List.mem_append_left _ hlive.1, hlive.2⟩
      have hnew : ⟨h.opened.length, file⟩ = conn := Option.some.inj hheld
      exact htracked.fresh file (hnew ▸ hlive.1)
    refine ⟨fun conn hlive => absurd hlive (hnone conn), ?_⟩
    cases hm : h.m_db with
    | none => rfl
    | some conn => exact absurd (htracked.held conn hm) (hnone conn)
  · rintro ⟨hsingle, hm⟩ conn ⟨hopened, hunclosed⟩
    rcases List.mem_append.mp hopened with hold | hnew
    · have hheld := hsingle conn ⟨hold, hunclosed⟩
      rw [hm] at hheld
      cases hheld
    · rw [List.mem_singleton.mp hnew]
      rfl

theorem single_close_iff : Single h.close ↔ Single h := by
  cases hm : h.m_db with
  | none => rw [Handle.close_of_none hm]
  | some held =>
    rw [Handle.close_of_some hm]
    constructor
    · intro hsingle conn hlive
      by_contra hother
      have hne : conn ≠ held := fun heq => hother (heq ▸ hm)
      have hheld := hsingle conn ⟨hlive.1, fun hclosed => ?_⟩
      · cases hheld
      · rcases List.mem_append.mp hclosed with hold | hnew
        · exact hlive.2 hold
        · exact hne (List.mem_singleton.mp hnew)
    · rintro hsingle conn ⟨hopened, hunclosed⟩
      have hheld := hsingle conn
        ⟨hopened, fun hclosed => hunclosed (List.mem_append_left _ hclosed)⟩
      rw [hm] at hheld
      obtain rfl := Option.some.inj hheld
      exact absurd (List.mem_append_right _ List.mem_cons_self) hunclosed

/-- Every connection but the one that is held has then been closed once. -/
theorem Single.closed_once (hsingle : Single h) (htracked : Tracked h) {conn : Connection}
    (hopened : conn ∈ h.opened) (hother : h.m_db ≠ some conn) : h.closed.count conn = 1 := by
  have hclosed : conn ∈ h.closed := by
    by_contra hunclosed
    exact hother (hsingle conn ⟨hopened, hunclosed⟩)
  exact List.count_eq_one_of_mem htracked.once hclosed

end Handles

/-! ### Calls -/

inductive ConnectionCall
  | openFile (fileName : QString)
  | close
  | isOpen (DataName : QString)
deriving DecidableEq, Repr

section Calls

variable {Db : Type} (host : Host Db) (db_filename : Connection → QString → Option QString)

/-- The calls on the shared instance; `isOpen` returns an answer. -/
def connectionCalls : Machine (SqlHelper Db) ConnectionCall (Option Bool) where
  step
    | helper, .openFile fileName => (helper.openFile host fileName, none)
    | helper, .close => (helper.close, none)
    | helper, .isOpen DataName => (helper, some (helper.handle.isOpen db_filename DataName))

/-- The calls of `SqliteRunnable::run`. -/
def sqliteRunnable : List ConnectionCall :=
  [.openFile (host.getDataBasePath chatyDbName), .close]

def mainDatabase : QString := QString.ofLiteral "main"

/-- The helper holds a connection that SQLite has opened: its main database is attached. -/
def Handle.Opened (h : Handle) : Prop :=
  ∃ conn, h.m_db = some conn ∧ db_filename conn mainDatabase ≠ none

/-- A call is right when it leaves no connection live but the one that is held, with every other
one closed once, and when `isOpen` says whether one is open. -/
structure RightCall (helper : SqlHelper Db) (call : ConnectionCall) (helper' : SqlHelper Db)
    (answer : Option Bool) : Prop where
  single : Single helper'.handle
  once : ∀ conn ∈ helper'.handle.opened, helper'.handle.m_db ≠ some conn →
    helper'.handle.closed.count conn = 1
  closed : call = .close → ∀ conn, ¬helper'.handle.Live conn
  answers : call = .isOpen mainDatabase →
    (answer = some true ↔ helper.handle.Opened db_filename)

/-- Every call of a sequence is right. -/
def OneConnection (helper : SqlHelper Db) (calls : List ConnectionCall) : Prop :=
  ∀ before call after, calls = before ++ call :: after →
    let s := (connectionCalls host db_filename).run helper before
    RightCall db_filename s call ((connectionCalls host db_filename).step s call).1
      ((connectionCalls host db_filename).step s call).2

/-- A run of `SqliteRunnable` loses the connection that is held when it starts. -/
theorem sqliteRunnable_single_iff {helper : SqlHelper Db} (htracked : Tracked helper.handle) :
    Single ((connectionCalls host db_filename).run helper (sqliteRunnable host)).handle ↔
      Single helper.handle ∧ helper.handle.m_db = none :=
  single_close_iff.trans (single_openFile_iff htracked _)

/-- `isOpen` says that the main database is open exactly when it is not. -/
theorem isOpen_iff_not_opened (h : Handle) :
    h.isOpen db_filename mainDatabase = true ↔ ¬h.Opened db_filename := by
  unfold Handle.isOpen Handle.Opened
  cases h.m_db with
  | none => simp
  | some conn => simp

theorem Tracked.step {helper : SqlHelper Db} (call : ConnectionCall)
    (htracked : Tracked helper.handle) :
    Tracked ((connectionCalls host db_filename).step helper call).1.handle := by
  cases call with
  | openFile fileName => exact htracked.openFile _
  | close => exact htracked.close
  | isOpen DataName => exact htracked

theorem single_step_iff {helper : SqlHelper Db} (call : ConnectionCall)
    (htracked : Tracked helper.handle) :
    Single ((connectionCalls host db_filename).step helper call).1.handle ↔
      Single helper.handle ∧
        ((∃ fileName, call = .openFile fileName) → helper.handle.m_db = none) := by
  cases call with
  | openFile fileName =>
    refine (single_openFile_iff htracked _).trans (and_congr_right fun _ => ?_)
    exact ⟨fun hnone _ => hnone, fun hnone => hnone ⟨fileName, rfl⟩⟩
  | close =>
    refine single_close_iff.trans (iff_self_and.mpr fun _ hopen => ?_)
    obtain ⟨fileName, hopen⟩ := hopen
    cases hopen
  | isOpen DataName =>
    refine iff_self_and.mpr fun _ hopen => ?_
    obtain ⟨fileName, hopen⟩ := hopen
    cases hopen

theorem tracked_new (database : Db) : Tracked (SqlHelper.new database).handle := by
  constructor
  · intro conn hconn
    cases hconn
  · intro conn hconn
    cases hconn
  · exact List.nodup_nil
  · intro conn hconn
    cases hconn

theorem single_new (database : Db) : Single (SqlHelper.new database).handle := by
  rintro conn ⟨hopened, -⟩
  cases hopened

theorem tracked_run (database : Db) (calls : List ConnectionCall) :
    Tracked ((connectionCalls host db_filename).run (SqlHelper.new database) calls).handle :=
  Machine.run_invariant (P := fun helper : SqlHelper Db => Tracked helper.handle)
    (tracked_new database) fun _ call _ htracked => htracked.step host db_filename call

theorem single_run_iff (database : Db) (calls : List ConnectionCall) :
    Single ((connectionCalls host db_filename).run (SqlHelper.new database) calls).handle ↔
      ∀ before call after, calls = before ++ call :: after →
        (∃ fileName, call = .openFile fileName) →
        ((connectionCalls host db_filename).run (SqlHelper.new database) before).handle.m_db =
          none := by
  rw [Machine.run_iff_of_invariant (I := fun helper : SqlHelper Db => Tracked helper.handle)
    (P := fun helper => Single helper.handle)
    (fun _ call htracked => htracked.step host db_filename call)
    (fun _ call htracked => single_step_iff host db_filename call htracked) (tracked_new database)
    calls]
  exact and_iff_right (single_new database)

/-- The helper owns one connection exactly when every `Open` finds none held, and nobody asks
whether the main database is open. -/
theorem oneConnection_iff (database : Db) (calls : List ConnectionCall) :
    OneConnection host db_filename (SqlHelper.new database) calls ↔
      (∀ before fileName after, calls = before ++ .openFile fileName :: after →
        ((connectionCalls host db_filename).run (SqlHelper.new database) before).handle.m_db =
          none) ∧
      .isOpen mainDatabase ∉ calls := by
  constructor
  · intro hright
    constructor
    · intro before fileName after hsplit
      have hsingle := (hright before (.openFile fileName) after hsplit).single
      exact ((single_step_iff _ _ _ (tracked_run host db_filename database before)).mp hsingle).2
        ⟨fileName, rfl⟩
    · intro hmem
      obtain ⟨before, after, hsplit⟩ := List.append_of_mem hmem
      have hanswers := (hright before (.isOpen mainDatabase) after hsplit).answers rfl
      have hinverted := isOpen_iff_not_opened db_filename
        ((connectionCalls host db_filename).run (SqlHelper.new database) before).handle
      have hsame := (Option.some_inj.symm.trans hanswers).symm.trans hinverted
      exact iff_not_self hsame
  · rintro ⟨hopen, hask⟩ before call after hsplit
    have htracked := tracked_run host db_filename database before
    have hbefore := (single_run_iff host db_filename database before).mpr (by
      rintro start _ rest hstart ⟨fileName, rfl⟩
      exact hopen start fileName (rest ++ call :: after) (by rw [hsplit, hstart]; simp))
    have hsingle := (single_step_iff host db_filename call htracked).mpr ⟨hbefore, by
      rintro ⟨fileName, rfl⟩
      exact hopen before fileName after hsplit⟩
    constructor
    · exact hsingle
    · exact fun conn hopened hother => hsingle.closed_once (htracked.step _ _ call) hopened hother
    · rintro rfl conn hlive
      have hnone := Handle.close_m_db
        ((connectionCalls host db_filename).run (SqlHelper.new database) before).handle
      exact absurd (hnone.symm.trans (hsingle conn hlive)) (by simp)
    · rintro rfl
      exact absurd (hsplit ▸ List.mem_append_right before List.mem_cons_self) hask

end Calls

/-- Two calls of `Open`: the first connection is live and lost. -/
theorem open_twice_loses :
    ¬OneConnection syntaxErrorHost (fun conn _ => some conn.file) (SqlHelper.new [])
      [.openFile chatyDbName, .openFile chatyDbName] := by
  intro hright
  have hlost := (hright [.openFile chatyDbName] (.openFile chatyDbName) [] rfl).single
    ⟨0, syntaxErrorHost.getDataBasePath chatyDbName⟩ (by decide)
  exact absurd hlost (by decide)

end XChaty.Server
