import XChaty.Protoc.RoundTrip
import XChaty.Server.MainWindow

/-! Runs of the server.  The process runs until a login whose lookup hands a row to the callback
(`Crashes`); until then it handles the messages that its buffers decode to, one for each buffer.
Runs in which every buffer is one whole message (`whole`) are the last part. -/

namespace XChaty.Server

open Qt Protoc ProofKit

section Runs

variable {Db : Type} (host : Host Db)

/-- The message is a login, and its lookup has a row for the callback, which writes it through the
null pointer. -/
def Crashes (window : MainWindow Db) (msg : ChatyMessage) : Prop :=
  ∃ body, msg.pMsgBody = some (.loginMsg body) ∧
    msg.msgHead.msgType = RequestType.reqLogin.code ∧
    (lookup host window.sql body.user.id).rows ≠ []

/-- The crash leaves the helper in the middle of the lookup, at its first row. -/
def CutAt (window : MainWindow Db) (msg : ChatyMessage) (sql : SqlHelper Db) : Prop :=
  ∃ body row rows, msg.pMsgBody = some (.loginMsg body) ∧
    msg.msgHead.msgType = RequestType.reqLogin.code ∧
    (lookup host window.sql body.user.id).rows = row :: rows ∧
    sql = cutLookup host window.sql row

/-- The buffers that `onMsg` has returned from, in order. -/
def handled (process : Process Db) (inputs : List (Nat × List UInt8)) : List Handled :=
  ((server host).outputs process inputs).filterMap id

theorem CutAt.crashes {window : MainWindow Db} {msg : ChatyMessage} {sql : SqlHelper Db}
    (h : CutAt host window msg sql) : Crashes host window msg := by
  obtain ⟨body, row, rows, hbody, htype, hrows, -⟩ := h
  exact ⟨body, hbody, htype, hrows ▸ List.cons_ne_nil row rows⟩

/-- A message is treated, or is a login that crashes. -/
theorem treat_cases (window : MainWindow Db) (msg : ChatyMessage) :
    (∃ window' response, treat host window msg = .ok (window', response) ∧
      ¬Crashes host window msg) ∨
    ∃ sql, treat host window msg = .error ⟨.nullUser, { window with sql }⟩ ∧
      CutAt host window msg sql := by
  obtain ⟨head, body⟩ := msg
  match body with
  | some (.loginMsg body) =>
    by_cases htype : head.msgType = RequestType.reqLogin.code
    · cases hrows : (lookup host window.sql body.user.id).rows with
      | nil =>
        refine .inl ⟨{ window with sql := afterLookup host window.sql body.user.id },
          some ResponseType.respLoginSuccess.code, ?_, by simp [Crashes, hrows]⟩
        simp only [treat, htype, hrows, if_true]
      | cons row rows =>
        refine .inr ⟨cutLookup host window.sql row, ?_, body, row, rows, rfl, htype, hrows, rfl⟩
        simp only [treat, htype, hrows, if_true]
    · refine .inl ⟨window, some ResponseType.respDefaultSuccess.code, ?_, by simp [Crashes, htype]⟩
      simp only [treat, htype, if_false]
  | some (.clientMessage _) => exact .inl ⟨_, _, rfl, by simp [Crashes]⟩
  | some (.responseMessage _) => exact .inl ⟨_, _, rfl, by simp [Crashes]⟩
  | none => exact .inl ⟨_, _, rfl, by simp [Crashes]⟩

/-! ### One buffer -/

theorem server_step_of_stopped {process : Process Db} {fault : Fault}
    (h : process.fault = some fault) (input : Nat × List UInt8) :
    (server host).step process input = (process, none) := by
  simp only [server, h]

/-- A running process handles the buffer, or stops at a crash. -/
theorem server_step_of_running {process : Process Db} (h : process.fault = none)
    (input : Nat × List UInt8) :
    (∃ window response, treat host process.window (decode input.2).1 = .ok (window, response) ∧
      ¬Crashes host process.window (decode input.2).1 ∧
      (server host).step process input =
        ({ process with window }, some ⟨(decode input.2).1, response⟩)) ∨
    ∃ sql, CutAt host process.window (decode input.2).1 sql ∧
      (server host).step process input =
        ({ window := { process.window with sql }, fault := some .nullUser }, none) := by
  simp only [server, h, onMsg_eq, convertBuf2ChatyMsg_eq]
  obtain ⟨window, response, htreat, hreturns⟩ | ⟨sql, htreat, hcut⟩ :=
    treat_cases host process.window (decode input.2).1
  · rw [htreat]
    exact .inl ⟨window, response, rfl, hreturns, rfl⟩
  · rw [htreat]
    exact .inr ⟨sql, hcut, rfl⟩

theorem server_step_fault_iff (process : Process Db) (input : Nat × List UInt8) :
    ((server host).step process input).1.fault = none ↔
      process.fault = none ∧ ¬Crashes host process.window (decode input.2).1 := by
  cases hfault : process.fault with
  | some fault => simp [server_step_of_stopped host hfault, hfault]
  | none =>
    obtain ⟨window, response, -, hreturns, hstep⟩ | ⟨sql, hcut, hstep⟩ :=
      server_step_of_running host hfault input
    · simp [hstep, hfault, hreturns]
    · simp [hstep, hcut.crashes]

/-! ### One buffer after the other -/

theorem running_iff (process : Process Db) (inputs : List (Nat × List UInt8)) :
    ((server host).run process inputs).fault = none ↔ process.fault = none ∧
      ∀ before input after, inputs = before ++ input :: after →
        ¬Crashes host ((server host).run process before).window (decode input.2).1 :=
  Machine.run_iff (P := fun process => process.fault = none)
    (G := fun process input => ¬Crashes host process.window (decode input.2).1)
    (server_step_fault_iff host) process inputs

section Cons

variable {host} {process process' : Process Db} {input : Nat × List UInt8}

theorem handled_cons_of_some {result : Handled}
    (h : (server host).step process input = (process', some result))
    (inputs : List (Nat × List UInt8)) :
    handled host process (input :: inputs) = result :: handled host process' inputs := by
  rw [handled, Machine.filterMap_outputs_cons, h]
  rfl

theorem handled_cons_of_none (h : (server host).step process input = (process', none))
    (inputs : List (Nat × List UInt8)) :
    handled host process (input :: inputs) = handled host process' inputs := by
  rw [handled, Machine.filterMap_outputs_cons, h]
  rfl

theorem run_cons_of_step {result : Option Handled}
    (h : (server host).step process input = (process', result))
    (inputs : List (Nat × List UInt8)) :
    (server host).run process (input :: inputs) = (server host).run process' inputs := by
  rw [Machine.run_cons, h]

end Cons

theorem handled_of_stopped {process : Process Db} {fault : Fault} (h : process.fault = some fault)
    (inputs : List (Nat × List UInt8)) :
    handled host process inputs = [] ∧ (server host).run process inputs = process := by
  induction inputs with
  | nil => exact ⟨rfl, rfl⟩
  | cons input inputs ih =>
    have hstep := server_step_of_stopped host h input
    rw [handled_cons_of_none hstep, run_cons_of_step hstep]
    exact ih

theorem handled_isPrefix (process : Process Db) (inputs : List (Nat × List UInt8)) :
    (handled host process inputs).map Handled.msg <+:
      inputs.map fun input => (decode input.2).1 := by
  induction inputs generalizing process with
  | nil => exact List.nil_prefix
  | cons input inputs ih =>
    cases hfault : process.fault with
    | some fault =>
      rw [(handled_of_stopped host hfault _).1]
      exact List.nil_prefix
    | none =>
      obtain ⟨window, response, -, -, hstep⟩ | ⟨sql, -, hstep⟩ :=
        server_step_of_running host hfault input
      · rw [handled_cons_of_some hstep, List.map_cons, List.map_cons]
        exact (List.prefix_cons_inj _).mpr (ih _)
      · rw [handled_cons_of_none hstep, (handled_of_stopped host rfl inputs).1]
        exact List.nil_prefix

/-- The process is running at the end exactly when every buffer has been handled. -/
theorem handled_length_iff {process : Process Db} (h : process.fault = none)
    (inputs : List (Nat × List UInt8)) :
    (handled host process inputs).length = inputs.length ↔
      ((server host).run process inputs).fault = none := by
  induction inputs generalizing process with
  | nil => simp [handled, h]
  | cons input inputs ih =>
    obtain ⟨window, response, -, -, hstep⟩ | ⟨sql, -, hstep⟩ := server_step_of_running host h input
    · rw [handled_cons_of_some hstep, run_cons_of_step hstep, List.length_cons, List.length_cons,
        Nat.add_right_cancel_iff]
      exact ih h
    · rw [handled_cons_of_none hstep, run_cons_of_step hstep, (handled_of_stopped host rfl inputs).1,
        (handled_of_stopped host rfl inputs).2]
      simp

theorem handled_of_running {process : Process Db} {inputs : List (Nat × List UInt8)}
    (h : process.fault = none) (hend : ((server host).run process inputs).fault = none) :
    (handled host process inputs).map Handled.msg =
      inputs.map fun input => (decode input.2).1 := by
  refine (handled_isPrefix host process inputs).eq_of_length ?_
  rw [List.length_map, List.length_map]
  exact (handled_length_iff host h inputs).mpr hend

/-! ### What a run posts and writes -/

def chatTexts (msgs : List ChatyMessage) : List QString :=
  msgs.filterMap fun msg => (asChatMsg msg.pMsgBody).map ClientMessage.chatMsg

/-- A message that is handled posts its chat text, if it has one, and writes nothing. -/
theorem treat_frame {window window' : MainWindow Db} {msg : ChatyMessage}
    {response : Option UInt8} (h : treat host window msg = .ok (window', response)) :
    window'.posted = window.posted ++ chatTexts [msg] ∧ window'.written = window.written := by
  obtain ⟨head, body⟩ := msg
  match body with
  | some (.loginMsg body) =>
    simp only [treat] at h
    split at h
    · split at h
      · cases h
        exact ⟨(List.append_nil _).symm, rfl⟩
      · cases h
    · cases h
      exact ⟨(List.append_nil _).symm, rfl⟩
  | some (.clientMessage body) =>
    cases h
    exact ⟨rfl, rfl⟩
  | some (.responseMessage _) =>
    cases h
    exact ⟨(List.append_nil _).symm, rfl⟩
  | none =>
    cases h
    exact ⟨(List.append_nil _).symm, rfl⟩

theorem posted_run (process : Process Db) (inputs : List (Nat × List UInt8)) :
    ((server host).run process inputs).window.posted =
      process.window.posted ++ chatTexts ((handled host process inputs).map Handled.msg) := by
  induction inputs generalizing process with
  | nil => exact (List.append_nil _).symm
  | cons input inputs ih =>
    cases hfault : process.fault with
    | some fault =>
      obtain ⟨hnone, hstopped⟩ := handled_of_stopped host hfault (input :: inputs)
      rw [hnone, hstopped]
      exact (List.append_nil _).symm
    | none =>
      obtain ⟨window, response, htreat, -, hstep⟩ | ⟨sql, -, hstep⟩ :=
        server_step_of_running host hfault input
      · obtain ⟨hposted, -⟩ := treat_frame host htreat
        rw [handled_cons_of_some hstep, run_cons_of_step hstep, ih, hposted, List.append_assoc,
          chatTexts, chatTexts, ← List.filterMap_append]
        rfl
      · rw [handled_cons_of_none hstep, run_cons_of_step hstep, ih]

theorem written_run (process : Process Db) (inputs : List (Nat × List UInt8)) :
    ((server host).run process inputs).window.written = process.window.written := by
  refine Machine.run_invariant (P := fun p : Process Db => p.window.written = process.window.written)
    rfl fun p input _ hwritten => ?_
  rw [← hwritten]
  cases hfault : p.fault with
  | some fault => rw [server_step_of_stopped host hfault]
  | none =>
    obtain ⟨window, response, htreat, -, hstep⟩ | ⟨sql, -, hstep⟩ :=
      server_step_of_running host hfault input
    · rw [hstep]
      exact (treat_frame host htreat).2
    · rw [hstep]

end Runs

/-! ### One whole message in each buffer -/

/-- A well-formed message with its serialised form, which fits a byte array. -/
structure Packet where
  msg : ChatyMessage
  agrees : msg.Agrees
  bytes : QByteArray
  serialised : serrialize msg = .ok bytes
  fits : bytes.length < 2 ^ 31

def Packet.ofMsg (msg : ChatyMessage) (agrees : msg.Agrees) (fits : msg.wire.length < 2 ^ 31) :
    Packet :=
  { msg, agrees, bytes := msg.wire, serialised := serrialize_of_agrees agrees, fits }

theorem Packet.bytes_eq (p : Packet) : p.bytes = p.msg.wire := by
  have h := p.serialised
  rw [serrialize_of_agrees p.agrees] at h
  exact (Except.ok.inj h).symm

@[simp] theorem Packet.decode_bytes (p : Packet) : (decode p.bytes).1 = p.msg := by
  have hfits := p.fits
  rw [p.bytes_eq] at hfits ⊢
  have h := decode_wire p.agrees hfits []
  rw [List.append_nil] at h
  rw [h]

/-- Each packet in a buffer of its own. -/
def whole (packets : List (Nat × Packet)) : List (Nat × List UInt8) :=
  packets.map fun p => (p.1, p.2.bytes)

section Whole

variable {Db : Type} (host : Host Db)

/-- When the packets arrive one in a buffer, the lookup of no login among them has a row. -/
def Survives (process : Process Db) (packets : List (Nat × Packet)) : Prop :=
  ∀ before p after, packets = before ++ p :: after →
    ¬Crashes host ((server host).run process (whole before)).window p.2.msg

theorem running_whole_iff (process : Process Db) (packets : List (Nat × Packet)) :
    ((server host).run process (whole packets)).fault = none ↔
      process.fault = none ∧ Survives host process packets := by
  rw [running_iff, whole, forall_map_split _ _ fun before input =>
    ¬Crashes host ((server host).run process before).window (decode input.2).1]
  simp only [Packet.decode_bytes]
  exact Iff.rfl

end Whole

end XChaty.Server
