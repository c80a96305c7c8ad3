import XChaty.Server.Requests
import XChaty.System.Conversations

/-! What the database and the end of the server depend on, when calls of `onMsg` do not overlap and
`sqlite3_open` does not fail.  Of all that reaches the server only the logins count: each has one
lookup, in the order in which they are read, and the server runs until the first lookup that has a
row, which the callback writes through a null pointer.  Every other connection to the database that a
lookup has opened is closed again; that of the last lookup is not. -/

namespace XChaty.Server

open Qt Protoc ProofKit Hv

section Lookups

variable {Db : Type} (host : Host Db)

/-- The name that a message has looked up. -/
def askedOf (msg : ChatyMessage) : List QString :=
  match msg.pMsgBody with
  | some (.loginMsg body) =>
    if msg.msgHead.msgType = RequestType.reqLogin.code then [body.user.id] else []
  | _ => []

def askedBy (reads : List (Nat × List UInt8)) : List QString :=
  reads.flatMap fun read => askedOf (decode read.2).1

/-- Lookups of names one after the other, up to the first that has a row, which is cut there. -/
inductive Consulted : SqlHelper Db → List QString → SqlHelper Db → Option Fault → Prop
  | done (sql : SqlHelper Db) : Consulted sql [] sql none
  | passed {sql sql' : SqlHelper Db} {name : QString} {names : List QString} {fault : Option Fault}
    (hnone : (lookup host sql name).rows = [])
    (hrest : Consulted (afterLookup host sql name) names sql' fault) :
    Consulted sql (name :: names) sql' fault
  | found {sql : SqlHelper Db} {name : QString} {row : Row Db} {rows : List (Row Db)}
    (hrow : (lookup host sql name).rows = row :: rows) :
    Consulted sql [name] (cutLookup host sql row) (some .nullUser)

/-- When no lookup can have a row, the server runs. -/
theorem Consulted.running {host : Host Db} {sql sql' : SqlHelper Db} {names : List QString}
    {fault : Option Fault} (h : Consulted host sql names sql' fault)
    (hnone : ∀ sql, ∀ name ∈ names, (lookup host sql name).rows = []) : fault = none := by
  induction h with
  | done sql => rfl
  | passed _ _ ih => exact ih fun sql name hname => hnone sql name (List.mem_cons_of_mem _ hname)
  | found hrow =>
    rw [hnone _ _ List.mem_cons_self] at hrow
    cases hrow

/-! ### Connections and messages -/

/-- `n` connections have been opened, and all but the one that is held have been closed, in order;
what `Exec` has freed are messages that its calls have stored, each once. -/
structure Settled (n : Nat) (sql : SqlHelper Db) : Prop where
  numbered : sql.handle.opened.map Connection.serial = List.range n
  closed : sql.handle.closed ++ sql.handle.m_db.toList = sql.handle.opened
  own : ∀ m ∈ sql.warned, ∃ call text, m = .message call text ∧ call ≤ sql.calls
  once : sql.warned.Nodup

section Settled

variable {host} {n : Nat} {sql : SqlHelper Db}

theorem settled_new (database : Db) : Settled 0 (SqlHelper.new database) :=
  ⟨rfl, rfl, fun _ hm => absurd hm List.not_mem_nil, List.nodup_nil⟩

theorem Settled.openFile (h : Settled n sql) (hm : sql.handle.m_db = none) (fileName : QString) :
    Settled (n + 1) (sql.openFile host fileName) := by
  have hlength : sql.handle.opened.length = n := by
    have hlength := congrArg List.length h.numbered
    rwa [List.length_map, List.length_range] at hlength
  refine ⟨?_, ?_, h.own, h.once⟩
  · change (sql.handle.opened ++ [_]).map Connection.serial = _
    rw [List.map_append, h.numbered, List.range_succ]
    exact congrArg (List.range n ++ [·]) hlength
  · have hclosed := h.closed
    rw [hm, Option.toList_none, List.append_nil] at hclosed
    change sql.handle.closed ++ [_] = sql.handle.opened ++ [_]
    rw [hclosed]

theorem Settled.close (h : Settled n sql) : Settled n sql.close ∧ sql.close.handle.m_db = none := by
  obtain ⟨hnumbered, hclosed, hown, honce⟩ := h
  obtain ⟨⟨m_db, opened, closed⟩, m_errmsg, database, calls, statements, warned⟩ := sql
  cases m_db with
  | none => exact ⟨⟨hnumbered, hclosed, hown, honce⟩, rfl⟩
  | some conn => exact ⟨⟨hnumbered, (List.append_nil _).trans hclosed, hown, honce⟩, rfl⟩

theorem Settled.interrupted (h : Settled n sql) (row : Row Db) : Settled n (sql.interrupted row) := by
  refine ⟨h.numbered, h.closed, fun m hm => ?_, h.once⟩
  obtain ⟨call, text, rfl, hle⟩ := h.own m hm
  exact ⟨call, text, rfl, Nat.le_succ_of_le hle⟩

/-- A call that is no misuse frees at most the message that it has stored. -/
theorem Settled.executed (h : Settled n sql) {result : ExecResult Db}
    (hstored : result.stored ≠ .nothing) : Settled n (sql.executed result) := by
  have hold : ∀ m ∈ sql.warned, ∃ call text, m = .message call text ∧ call ≤ sql.calls + 1 := by
    intro m hm
    obtain ⟨call, text, rfl, hle⟩ := h.own m hm
    exact ⟨call, text, rfl, Nat.le_succ_of_le hle⟩
  unfold SqlHelper.executed
  cases hresult : result.stored with
  | nothing => exact absurd hresult hstored
  | null => exact ⟨h.numbered, h.closed, hold, h.once⟩
  | message text =>
    refine ⟨h.numbered, h.closed, fun m hm => ?_, ?_⟩
    · rcases List.mem_append.mp hm with hbefore | hnew
      · exact hold m hbefore
      · exact ⟨_, text, List.mem_singleton.mp hnew, Nat.le_refl _⟩
    · -- The number of the call is new.
      refine List.nodup_append.mpr ⟨h.once, List.nodup_singleton _, fun m hm other hother heq => ?_⟩
      obtain ⟨call, text', rfl, hle⟩ := h.own m hm
      rw [List.mem_singleton.mp hother] at heq
      cases heq
      exact Nat.not_succ_le_self _ hle

theorem lookup_stored (hopen : ∀ conn, host.sqlite3_open conn = sqliteOk) (sql : SqlHelper Db)
    (name : QString) : (lookup host sql name).stored ≠ .nothing := by
  unfold lookup Host.sqlite3_exec
  dsimp only
  rw [if_pos (hopen _)]
  exact host.runAll_stored _ _ _ _

/-- There has been one connection for each name, and the last one is held when its lookup has ended
the server. -/
theorem Consulted.settled (hopen : ∀ conn, host.sqlite3_open conn = sqliteOk) {sql' : SqlHelper Db}
    {names : List QString} {fault : Option Fault} (h : Consulted host sql names sql' fault)
    (hsettled : Settled n sql) (hm : sql.handle.m_db = none) :
    Settled (n + names.length) sql' ∧ (sql'.handle.m_db = none ↔ fault = none) := by
  induction h generalizing n with
  | done sql => exact ⟨hsettled, iff_of_true hm rfl⟩
  | @passed sql sql' name names fault hnone hrest ih =>
    obtain ⟨hafter, hclosed⟩ :=
      ((hsettled.openFile hm chatyDbName).executed (lookup_stored hopen sql name)).close
    have hend := ih hafter hclosed
    rw [List.length_cons, Nat.add_comm names.length, ← Nat.add_assoc]
    exact hend
  | found hrow =>
    exact ⟨(hsettled.openFile hm chatyDbName).interrupted _,
      iff_of_false (Option.some_ne_none _) (Option.some_ne_none _)⟩

end Settled

/-! ### One message -/

theorem treat_asks {window window' : MainWindow Db} {msg : ChatyMessage} {response : Option UInt8}
    (h : treat host window msg = .ok (window', response)) :
    askedOf msg = [] ∧ window'.sql = window.sql ∨
      ∃ name, askedOf msg = [name] ∧ (lookup host window.sql name).rows = [] ∧
        window'.sql = afterLookup host window.sql name := by
  obtain ⟨head, body⟩ := msg
  match body with
  | some (.loginMsg body) =>
    simp only [treat] at h
    split at h
    · rename_i htype
      split at h
      · rename_i hrows
        cases h
        exact .inr ⟨body.user.id, if_pos htype, hrows, rfl⟩
      · cases h
    · rename_i htype
      cases h
      exact .inl ⟨if_neg htype, rfl⟩
  | some (.clientMessage _) | some (.responseMessage _) | none =>
    cases h
    exact .inl ⟨rfl, rfl⟩

theorem crash_asks {window : MainWindow Db} {msg : ChatyMessage} {sql : SqlHelper Db}
    (h : CutAt host window msg sql) :
    ∃ name row rows, askedOf msg = [name] ∧ (lookup host window.sql name).rows = row :: rows ∧
      sql = cutLookup host window.sql row := by
  obtain ⟨body, row, rows, hbody, htype, hrows, hcut⟩ := h
  refine ⟨body.user.id, row, rows, ?_, hrows, hcut⟩
  simp only [askedOf, hbody, if_pos htype]

/-! ### A run of the server -/

namespace ChatServer

theorem treated_one (s : ChatServer Db) (input : ServerInput) :
    s.treated input = [] ∨ s.process.fault = none ∧ ∃ read, s.treated input = [read] := by
  cases input with
  | deliver | startBtn => exact .inl rfl
  | net event =>
    simp only [treated]
    split
    · rename_i hfault _
      cases event with
      | on_read id buf =>
        rw [reads]
        split
        · exact .inr ⟨hfault, (id, buf), rfl⟩
        · exact .inl rfl
      | onAccept | onCustomEvent | attach | on_close => exact .inl rfl
    · exact .inl rfl

/-- A program that has faulted does nothing more. -/
theorem run_of_stopped {s : ChatServer Db} {fault : Fault} (h : s.process.fault = some fault)
    (inputs : List ServerInput) :
    (chatServer host).run s inputs = s ∧ (chatServer host).log s inputs = [] := by
  induction inputs with
  | nil => exact ⟨rfl, rfl⟩
  | cons input inputs ih =>
    have hstep : (chatServer host).step s input = (s, []) := by
      simp only [chatServer, h]
    rw [Machine.run_cons, Machine.log_cons, hstep]
    exact ih

theorem consulted_run {s : ChatServer Db} (h : s.process.fault = none) (inputs : List ServerInput) :
    Consulted host s.process.window.sql (askedBy (readIn ((chatServer host).log s inputs)))
      ((chatServer host).run s inputs).process.window.sql
      ((chatServer host).run s inputs).process.fault := by
  induction inputs generalizing s with
  | nil =>
    change Consulted host _ [] _ s.process.fault
    rw [h]
    exact .done _
  | cons input inputs ih =>
    have hprocess := process_step host s input
    rw [Machine.run_cons, Machine.log_cons, readIn_append, read_step]
    generalize (chatServer host).step s input = answer at hprocess
    obtain ⟨s', notes⟩ := answer
    dsimp only at hprocess ⊢
    rcases treated_one s input with hnone | ⟨-, read, hone⟩
    · rw [hnone, Machine.run_nil] at hprocess
      rw [hnone, List.nil_append, ← hprocess]
      exact ih (hprocess ▸ h)
    · rw [hone, Machine.run_cons, Machine.run_nil] at hprocess
      have hasked : askedBy ([read] ++ readIn ((chatServer host).log s' inputs)) =
          askedOf (decode read.2).1 ++ askedBy (readIn ((chatServer host).log s' inputs)) := rfl
      rw [hone, hasked]
      obtain ⟨window, response, htreat, -, hstep⟩ | ⟨sql, hcut, hstep⟩ :=
        server_step_of_running host h read
      · have hprocess : s'.process = { s.process with window } := hprocess.trans (congrArg _ hstep)
        have hrunning : s'.process.fault = none := by
          rw [hprocess]
          exact h
        have hrest := ih hrunning
        rw [hprocess] at hrest
        obtain ⟨hsame, hsql⟩ | ⟨name, hname, hrows, hsql⟩ := treat_asks host htreat
        · rw [hsame, List.nil_append, ← hsql]
          exact hrest
        · rw [hname, List.singleton_append]
          exact .passed hrows (hsql ▸ hrest)
      · have hprocess : s'.process =
            { window := { s.process.window with sql }, fault := some .nullUser } :=
          hprocess.trans (congrArg _ hstep)
        have hended : s'.process.fault = some .nullUser := by
          rw [hprocess]
        obtain ⟨hrun, hlog⟩ := run_of_stopped host hended inputs
        obtain ⟨name, row, rows, hname, hrows, rfl⟩ := crash_asks host hcut
        rw [hrun, hlog, hname, hprocess]
        exact .found hrows

end ChatServer

end Lookups

end XChaty.Server

namespace XChaty.System

open Qt Protoc ProofKit Chat Hv Server Client

namespace Programs

variable {Db : Type} (hio_id : Link → Nat) (host : Host Db)

theorem consulted_new (database : Db) (text : List UInt16) (form : StartForm)
    (users : Nat → User) (forms : Nat → Form) (inputs : List Input) :
    let s := new (ChatServer.new database text form).1 users forms
    let process := ((programs hio_id host).run s inputs).server.process
    Consulted host (SqlHelper.new database)
      (askedBy (((programs hio_id host).log s inputs).flatMap Note.read)) process.window.sql
      process.fault := by
  intro s process
  obtain ⟨hserver, hprogram⟩ := (simulates_server hio_id host).run (s := s) rfl
    (Machine.allOk_of_forall (fun _ (_ : Input) (_ : _ ∈ inputs) => trivial) _)
  have hnew : s.server.process = Process.new database :=
    ChatServer.process_startServer (ChatServer.unstarted database text) form
  have hrunning : s.server.process.fault = none := by
    rw [hnew]
    rfl
  have hconsulted := ChatServer.consulted_run host hrunning
    ((programs hio_id host).absInputs (serverInputs hio_id) s inputs)
  rw [← hprogram, readIn_program, ← hserver, hnew] at hconsulted
  exact hconsulted

/-- In every run, whatever strangers send and the network does, the logins that are read decide what
becomes of the database and when the server ends; only the connection of a lookup that has ended it
stays open. -/
theorem logins_decide (hopen : ∀ conn, host.sqlite3_open conn = sqliteOk) (database : Db)
    (text : List UInt16) (form : StartForm) (users : Nat → User) (forms : Nat → Form)
    (inputs : List Input) :
    let s := new (ChatServer.new database text form).1 users forms
    let asked := askedBy (((programs hio_id host).log s inputs).flatMap Note.read)
    let process := ((programs hio_id host).run s inputs).server.process
    Consulted host (SqlHelper.new database) asked process.window.sql process.fault ∧
      Settled asked.length process.window.sql ∧
      (process.window.sql.handle.m_db = none ↔ process.fault = none) := by
  intro s asked process
  have hconsulted := consulted_new hio_id host database text form users forms inputs
  have hsettled := hconsulted.settled hopen (settled_new database) rfl
  rw [Nat.zero_add] at hsettled
  exact ⟨hconsulted, hsettled⟩

/-! ### A login that ends the server -/

/-- A host whose every statement has one row. -/
def oneRowHost : Host Nat where
  sqlite3_open _ := sqliteOk
  statements sql := [sql]
  run database _ _ := { database := database + 1, rows := [([], database)], error := none }
  applicationDirPath := .ofLiteral "C:/XChaty"

/-- A stranger logs in as bob, and then once more. -/
def twoLogins : List Input :=
  [.stranger 0 loginOfBob.packet.bytes, .stranger 0 loginOfBob.packet.bytes, .onAccept (.stranger 0),
    .onCustomEvent 1, .attach 1, .on_read (.stranger 0), .on_read (.stranger 0)]

theorem logins_decide_two :
    let s := new (ChatServer.new 0 [] ChatServer.startForm).1 someUsers someForms
    let asked := askedBy (((programs numbering oneRowHost).log s twoLogins).flatMap Note.read)
    let process := ((programs numbering oneRowHost).run s twoLogins).server.process
    Consulted oneRowHost (SqlHelper.new 0) asked process.window.sql process.fault ∧
      Settled asked.length process.window.sql ∧
      (process.window.sql.handle.m_db = none ↔ process.fault = none) :=
  logins_decide numbering oneRowHost (fun _ => rfl) 0 [] ChatServer.startForm someUsers someForms
    twoLogins

end Programs

end XChaty.System
