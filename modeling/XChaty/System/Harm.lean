import XChaty.System.Conversations

/-! What chat windows do to the server, and what it does to them.  All that a window writes begins as
a chat line or a heartbeat does, so it cannot end the server as a login may; only another program, or
a network that cuts segments, can.  The server never writes, so a window that would die of what it
receives never does. -/

namespace XChaty.System

open Qt Protoc ProofKit Chat Hv Server Client

namespace Programs

variable {hio_id : Link → Nat} {Db : Type} (host : Host Db)

/-- The segment does not begin as a login or a registration does. -/
def Harmless (segment : QByteArray) : Prop := ¬IsUserType (segment.headD 0)

theorem server_step_harmless {process : Process Db} (h : process.fault = none)
    {input : Nat × List UInt8} (hsegment : Harmless input.2) :
    ((Server.server host).step process input).1.fault = none ∧
      ((Server.server host).step process input).1.window.sql = process.window.sql := by
  have hnone : ∀ body, (decode input.2).1.pMsgBody ≠ some (.loginMsg body) := by
    intro body hbody
    have htype := (decode_agrees input.2).loginMsg_iff.mp ⟨body, hbody⟩
    rw [decode_msgType] at htype
    exact hsegment htype
  obtain ⟨window, response, htreat, -, hstep⟩ | ⟨sql, ⟨body, -, -, hbody, -⟩, -⟩ :=
    server_step_of_running host h input
  · rw [hstep]
    refine ⟨h, ?_⟩
    generalize (decode input.2).1 = msg at hnone htreat
    obtain ⟨head, body⟩ := msg
    match body with
    | some (.loginMsg body) => exact absurd rfl (hnone body)
    | some (.clientMessage _) | some (.responseMessage _) | none =>
      cases htreat
      rfl
  · exact absurd hbody (hnone body)

theorem harmless_writes (s : XChatyClient) (event : ClientEvent) :
    ∀ w ∈ XChatyClient.writes (chatyClient.step s event).2, Harmless w.2 := by
  have hwrote := s.step_wrote event
  generalize (chatyClient.step s event).2 = effects at hwrote
  intro w hw
  cases hwrote with
  | line form hc =>
    obtain rfl := List.mem_singleton.mp hw
    exact (by decide : ¬IsUserType 4)
  | heartbeat ht hconnected now =>
    obtain rfl := List.mem_singleton.mp hw
    exact (by decide : ¬IsUserType 255)
  | nothing htyped hwrites hdied =>
    rw [hwrites] at hw
    cases hw

/-- The server runs on the database `sql`, and all that is on its way to it is harmless. -/
structure Unharmed (sql : SqlHelper Db) (s : Programs Db) : Prop where
  fault : s.server.process.fault = none
  sql : s.server.process.window.sql = sql
  up : ∀ link, ∀ segment ∈ s.up link, Harmless segment

theorem Unharmed.step {sql : SqlHelper Db} {s : Programs Db} (h : Unharmed sql s) (input : Input)
    (hstranger : ∀ n segment, input ≠ .stranger n segment)
    (hwhole : ∀ link segments, input ≠ .recut link segments) :
    Unharmed sql ((programs hio_id host).step s input).1 := by
  have hnew : s.Brings Harmless input := by
    cases input with
    | window k event => exact harmless_writes (s.windows k) event
    | stranger n segment => exact absurd rfl (hstranger n segment)
    | recut link segments => exact absurd rfl (hwhole link segments)
    | onMessage | onAccept | onCustomEvent | attach | on_read | on_close | deliver | startBtn =>
      trivial
  obtain ⟨hup, hreads⟩ := OnWay.step hio_id host h.up input hnew
  have hprocess : ∀ reads : List (Nat × List UInt8), (∀ read ∈ reads, Harmless read.2) →
      ((Server.server host).run s.server.process reads).fault = none ∧
        ((Server.server host).run s.server.process reads).window.sql = sql := by
    intro reads hreads
    refine Machine.run_invariant (P := fun process : Process Db =>
      process.fault = none ∧ process.window.sql = sql) ⟨h.fault, h.sql⟩ ?_
    rintro process read hread ⟨hfault, hsql⟩
    obtain ⟨hnext, hsame⟩ := server_step_harmless host hfault (hreads read hread)
    exact ⟨hnext, hsame.trans hsql⟩
  obtain ⟨hfault, hsql⟩ := hprocess _ hreads
  rw [← process_next] at hfault hsql
  exact ⟨hfault, hsql, hup⟩

theorem Unharmed.run {sql : SqlHelper Db} {s : Programs Db} (h : Unharmed sql s)
    {inputs : List Input} (hstranger : ∀ n segment, .stranger n segment ∉ inputs)
    (hwhole : ∀ link segments, .recut link segments ∉ inputs) :
    Unharmed sql ((programs hio_id host).run s inputs) := by
  refine Machine.run_invariant h fun s input hinput hs => hs.step host input ?_ ?_
  · rintro n segment rfl
    exact hstranger n segment hinput
  · rintro link segments rfl
    exact hwhole link segments hinput

theorem unharmed_new {server : ChatServer Db} (hrunning : server.process.fault = none)
    (users : Nat → User) (forms : Nat → Form) :
    Unharmed server.process.window.sql (new server users forms) :=
  ⟨hrunning, rfl, fun _ _ hsegment => absurd hsegment List.not_mem_nil⟩

/-- Without strangers, and as long as the network leaves the segments as they were written, the
server never faults, and its database and its connection to it stay as they were. -/
theorem windows_do_no_harm {server : ChatServer Db} (hrunning : server.process.fault = none)
    (users : Nat → User) (forms : Nat → Form) (inputs : List Input)
    (hstranger : ∀ n segment, .stranger n segment ∉ inputs)
    (hwhole : ∀ link segments, .recut link segments ∉ inputs) :
    Unharmed server.process.window.sql
      ((programs hio_id host).run (new server users forms) inputs) :=
  (unharmed_new hrunning users forms).run host hstranger hwhole

/-- In every run, whatever strangers send, the server writes nothing to any connection, nothing is on
its way to a window, and no window dies. -/
theorem windows_hear_nothing (database : Db) (text : List UInt16) (form : StartForm)
    (users : Nat → User) (forms : Nat → Form) (inputs : List Input) :
    let s := new (ChatServer.new database text form).1 users forms
    Quiet ((programs hio_id host).run s inputs) ∧
      ∀ k fault, .window k (.died fault) ∉ (programs hio_id host).log s inputs := by
  intro s
  have hquiet : Quiet s := by
    refine ⟨rfl, rfl, ?_⟩
    change ((ChatServer.unstarted database text).startServer form).1.process.window.written = []
    rw [ChatServer.process_startServer]
    rfl
  have hrun := fun k => (simulates_window hio_id host k).run ⟨hquiet, rfl⟩
    (Machine.allOk_of_forall (fun _ (_ : Input) (_ : _ ∈ inputs) => trivial) _)
  refine ⟨(hrun 0).1.1, fun k fault hdied => ?_⟩
  have hnewest := (XChatyClient.newest_new (users k) (forms k)).1
  refine (hnewest.ledger (eventsOf k inputs)).alive fault ?_
  have heffects := (hrun k).2
  rw [eventsOf_run] at heffects
  change _ ∈ chatyClient.log (s.windows k) _
  rw [← heffects]
  refine List.mem_flatMap.mpr ⟨_, hdied, ?_⟩
  rw [Note.effect, if_pos rfl]
  exact List.mem_singleton_self _

/-! ### A window alone -/

/-- A window connects and says 'hi'. -/
def visit : List Input :=
  [.window 0 (.connected 0), .onAccept (.window 0 0), .onCustomEvent 1, .attach 1,
    .window 0 (.sendMsg hiForm), .on_read (.window 0 0)]

def sampleServer : ChatServer (List Argv) := ChatServer.listening [] (.text [49])

theorem windows_do_no_harm_visit :
    Unharmed sampleServer.process.window.sql
      ((programs numbering syntaxErrorHost).run (new sampleServer someUsers someForms) visit) := by
  have hrunning : sampleServer.process.fault = none := rfl
  exact windows_do_no_harm syntaxErrorHost hrunning someUsers someForms visit
    (by simp [visit]) (by simp [visit])

end Programs

end XChaty.System
