import XChaty.Chat.WindowLog
import XChaty.Hv.Sessions
import XChaty.Server.Runs

/-! The whole server program: the TCP server with its worker loops, the callbacks of `mainwindow`
that run on them, and the window that shows what they post.  A fault in `onMsg` ends all of it.  A
step of the program is a step of the TCP server, with what its callbacks have the window do.
Callbacks of different loops are taken one after the other; lookups that overlap are in `Lookups`. -/

namespace XChaty.Server

open Qt Protoc ProofKit Chat Hv

/-- What `StartServer` finds when it runs: the port, what `createsocket` returns for it, and the
time. -/
structure StartForm where
  portEdit : QString
  createsocket : QString → Int
  now : QDateTime

/-- The members of the program; `tcp` is there once the server listens. -/
structure ChatServer (Db : Type) where
  tcp : Option TcpServer
  process : Process Db
  chat : Window
  startBtn : Bool

inductive ServerInput
  | net (event : ServerEvent)
  | deliver (now : QDateTime)
  | startBtn (form : StartForm)

inductive ProgramNote
  | net (note : ServerNote)
  | shown (note : WindowNote)
deriving DecidableEq, Repr

namespace ChatServer

variable {Db : Type} (host : Host Db)

/-- Calls of `m_chatHelper`. -/
def onChat (s : ChatServer Db) (inputs : List WindowInput) : ChatServer Db × List ProgramNote :=
  ({ s with chat := window.run s.chat inputs }, (window.log s.chat inputs).map .shown)

/-! ### Starting -/

/-- The lambda `StartServer`. -/
def startServer (s : ChatServer Db) (form : StartForm) : ChatServer Db × List ProgramNote :=
  let port := form.portEdit
  if port.units = [] then s.onChat [.appendMsg form.now (.ofLiteral "Port is empty!")]
  else
    let listenfd := form.createsocket port
    if listenfd < 0 then s.onChat [.appendMsg form.now (.ofLiteral "Create socket failed!")]
    else
      { s with tcp := some (TcpServer.started 4) }.onChat
        [.overWriteMsg ((QString.ofLiteral "Listening on port: %1").arg port)]

/-- The members before `StartServer` runs for the first time, with the text of the widget. -/
def unstarted (database : Db) (text : List UInt16) : ChatServer Db :=
  { tcp := none
    process := Process.new database
    chat := { queue := [], receiver := some { m_chatEdit := { text } } }
    startBtn := false }

def new (database : Db) (text : List UInt16) (form : StartForm) :
    ChatServer Db × List ProgramNote := (unstarted database text).startServer form

/-! ### Callbacks -/

/-- The text that `onConnection` posts. -/
def connNotice (id : Nat) (isConnected : Bool) : QString :=
  let state := if isConnected then QString.ofLiteral "connected"
    else QString.ofLiteral "disconnected"
  ((QString.ofLiteral "[Server] conn id: %1 %2").arg (.number id)).arg state

/-- A callback of the TCP server.  The posts it makes carry the number of its connection. -/
def handle (s : ChatServer Db) (note : ServerNote) : ChatServer Db × List ProgramNote :=
  match note with
  | .queued _ _ | .hio_close _ _ => (s, [.net note])
  | .onConnection _ id isConnected =>
    let (s, notes) := s.onChat [.post ⟨id, connNotice id isConnected⟩]
    (s, .net note :: notes)
  | .onMessage _ id buf =>
    let (process, _) := (server host).step s.process (id, buf)
    let posted := process.window.posted.drop s.process.window.posted.length
    let (s, notes) := { s with process }.onChat (posted.map fun text => .post ⟨id, text⟩)
    (s, .net note :: notes)

def callbacks : Machine (ChatServer Db) ServerNote (List ProgramNote) where
  step s note := s.handle host note

end ChatServer

/-- A disabled button is not clicked, and a program that has faulted does nothing more. -/
def chatServer {Db : Type} (host : Host Db) :
    Machine (ChatServer Db) ServerInput (List ProgramNote) where
  step s input :=
    match s.process.fault, input with
    | some _, _ => (s, [])
    | none, .net event =>
      match s.tcp with
      | none => (s, [])
      | some tcp =>
        let (tcp, notes) := tcpServer.step tcp event
        let s := { s with tcp := some tcp }
        ((ChatServer.callbacks host).run s notes, (ChatServer.callbacks host).log s notes)
    | none, .deliver now => s.onChat [.deliver now]
    | none, .startBtn form => if s.startBtn then s.startServer form else (s, [])

/-! ### What a run notes -/

def ProgramNote.netNote : ProgramNote → List ServerNote
  | .net note => [note]
  | .shown _ => []

def ProgramNote.windowNote : ProgramNote → List WindowNote
  | .net _ => []
  | .shown note => [note]

namespace ChatServer

variable {Db : Type} (host : Host Db)

/-- What the callbacks post: a notice when a connection comes or goes, and the text of a buffer that
decodes to a chat message. -/
def posting : ServerNote → List Post
  | .queued _ _ | .hio_close _ _ => []
  | .onConnection _ id isConnected => [⟨id, connNotice id isConnected⟩]
  | .onMessage _ id buf => (chatTexts [(decode buf).1]).map fun text => ⟨id, text⟩

/-! ### One callback -/

theorem posted_step {process : Process Db} (h : process.fault = none)
    (input : Nat × List UInt8) :
    ((server host).step process input).1.window.posted =
      process.window.posted ++ chatTexts [(decode input.2).1] := by
  obtain ⟨window, response, htreat, -, hstep⟩ | ⟨sql, ⟨body, -, -, hbody, -⟩, hstep⟩ :=
    server_step_of_running host h input
  · rw [hstep]
    exact (treat_frame host htreat).1
  · have hnone : chatTexts [(decode input.2).1] = [] := by simp [chatTexts, hbody, asChatMsg]
    rw [hstep, hnone, List.append_nil]

/-- A callback notes itself and posts what `posting` says. -/
theorem handle_eq {s : ChatServer Db} (h : s.process.fault = none) (note : ServerNote) :
    ∃ process, s.handle host note =
      ({ s with
          process
          chat := window.run s.chat ((posting note).map .post) },
        .net note :: (window.log s.chat ((posting note).map .post)).map .shown) := by
  cases note with
  | queued loop id => exact ⟨s.process, rfl⟩
  | hio_close loop id => exact ⟨s.process, rfl⟩
  | onConnection loop id isConnected => exact ⟨s.process, rfl⟩
  | onMessage loop id buf =>
    have hposted := posted_step host h (id, buf)
    refine ⟨((server host).step s.process (id, buf)).1, ?_⟩
    simp only [handle, hposted, List.drop_left, onChat, posting, List.map_map]
    rfl

/-! ### The process -/

@[simp] theorem netNotes_shown (notes : List WindowNote) :
    (notes.map ProgramNote.shown).flatMap ProgramNote.netNote = [] :=
  List.flatMap_eq_nil_iff.mpr fun note hnote => by
    obtain ⟨shown, -, rfl⟩ := List.mem_map.mp hnote
    rfl

/-- The buffer that `onMsg` is called with, and its connection. -/
def readBy : ServerNote → List (Nat × List UInt8)
  | .onMessage _ id buf => [(id, buf)]
  | .queued _ _ | .onConnection _ _ _ | .hio_close _ _ => []

theorem process_callbacks (s : ChatServer Db) (notes : List ServerNote) :
    ((callbacks host).run s notes).process =
      (server host).run s.process (notes.flatMap readBy) := by
  induction notes generalizing s with
  | nil => rfl
  | cons note notes ih =>
    rw [Machine.run_cons, ih, List.flatMap_cons, Machine.run_append]
    cases note <;> rfl

/-- The buffers that an event has the server read. -/
def reads (tcp : TcpServer) : ServerEvent → List (Nat × List UInt8)
  | .on_read id buf => if (tcp.getChannelById id).isSome then [(id, buf)] else []
  | .onAccept _ | .onCustomEvent _ | .attach _ | .on_close _ => []

theorem reads_step (tcp : TcpServer) (event : ServerEvent) :
    (tcpServer.step tcp event).2.flatMap readBy = reads tcp event := by
  cases event with
  | onAccept id => rfl
  | onCustomEvent idx =>
    have hchange := TcpServer.onCustomEvent_change tcp idx
    change (tcp.onCustomEvent idx).2.flatMap readBy = []
    generalize tcp.onCustomEvent idx = result at hchange
    obtain ⟨tcp', notes⟩ := result
    cases hchange <;> rfl
  | attach idx =>
    have hchange := TcpServer.attach_change tcp idx
    change (tcp.attach idx).2.flatMap readBy = []
    generalize tcp.attach idx = result at hchange
    obtain ⟨tcp', notes⟩ := result
    cases hchange <;> rfl
  | on_read id buf =>
    change (tcp.on_read id buf).2.flatMap readBy = _
    rw [TcpServer.on_read, reads]
    cases tcp.getChannelById id <;> rfl
  | on_close id =>
    change (tcp.on_close id).2.flatMap readBy = []
    rw [TcpServer.on_close]
    cases tcp.getChannelById id <;> rfl

/-- The buffers that an input has `onMsg` treat. -/
def treated (s : ChatServer Db) : ServerInput → List (Nat × List UInt8)
  | .net event =>
    match s.process.fault, s.tcp with
    | none, some tcp => reads tcp event
    | _, _ => []
  | .deliver _ | .startBtn _ => []

theorem treated_of_reads_nil {s : ChatServer Db} {event : ServerEvent}
    (h : ∀ tcp, reads tcp event = []) : s.treated (.net event) = [] := by
  simp only [treated]
  split
  · exact h _
  · rfl

theorem process_startServer (s : ChatServer Db) (form : StartForm) :
    (s.startServer form).1.process = s.process := by
  rw [startServer]
  dsimp only
  split
  · rfl
  · split <;> rfl

/-- The process of a step is the process of `onMsg` on what the step reads. -/
theorem process_step (s : ChatServer Db) (input : ServerInput) :
    ((chatServer host).step s input).1.process =
      (server host).run s.process (s.treated input) := by
  cases hfault : s.process.fault with
  | some fault =>
    simp only [chatServer, hfault]
    cases input <;> simp only [treated, hfault, Machine.run_nil]
  | none =>
    cases input with
    | deliver now =>
      simp only [chatServer, hfault]
      rfl
    | startBtn form =>
      simp only [chatServer, hfault]
      split
      · exact process_startServer s form
      · rfl
    | net event =>
      cases htcp : s.tcp with
      | none => simp only [chatServer, treated, hfault, htcp, Machine.run_nil]
      | some tcp =>
        simp only [chatServer, treated, hfault, htcp, process_callbacks, reads_step]

theorem netNotes_callbacks (s : ChatServer Db) (notes : List ServerNote) :
    ((callbacks host).log s notes).flatMap ProgramNote.netNote = notes := by
  induction notes generalizing s with
  | nil => rfl
  | cons note notes ih =>
    have hone : (s.handle host note).2.flatMap ProgramNote.netNote = [note] := by
      cases note with
      | queued | hio_close => rfl
      | onConnection => exact congrArg (_ :: ·) (netNotes_shown _)
      | onMessage => exact congrArg (_ :: ·) (netNotes_shown _)
    rw [Machine.log_cons, List.flatMap_append, ih]
    exact congrArg (· ++ notes) hone

/-- The buffers that `onMsg` has been called with. -/
def readIn (notes : List ProgramNote) : List (Nat × List UInt8) :=
  (notes.flatMap ProgramNote.netNote).flatMap readBy

theorem readIn_append (notes more : List ProgramNote) :
    readIn (notes ++ more) = readIn notes ++ readIn more := by
  rw [readIn, List.flatMap_append, List.flatMap_append, readIn, readIn]

/-- The callbacks of a step are called with the buffers that `onMsg` treats. -/
theorem read_step (s : ChatServer Db) (input : ServerInput) :
    readIn ((chatServer host).step s input).2 = s.treated input := by
  rw [readIn]
  cases hfault : s.process.fault with
  | some fault =>
    simp only [chatServer, hfault]
    cases input <;> simp only [treated, hfault, List.flatMap_nil]
  | none =>
    cases input with
    | deliver now =>
      simp only [chatServer, hfault, onChat, netNotes_shown, treated, List.flatMap_nil]
    | startBtn form =>
      have hshown : (s.startServer form).2.flatMap ProgramNote.netNote = [] := by
        simp only [startServer]
        split
        · exact netNotes_shown _
        · split <;> exact netNotes_shown _
      simp only [chatServer, hfault, treated]
      split
      · rw [hshown, List.flatMap_nil]
      · rfl
    | net event =>
      cases htcp : s.tcp with
      | none => simp only [chatServer, treated, hfault, htcp, List.flatMap_nil]
      | some tcp =>
        simp only [chatServer, treated, hfault, htcp, netNotes_callbacks, reads_step]

/-- The process of a run is the process of `onMsg` on what the run reads. -/
theorem process_run (s : ChatServer Db) (inputs : List ServerInput) :
    ((chatServer host).run s inputs).process =
      (server host).run s.process (readIn ((chatServer host).log s inputs)) := by
  induction inputs generalizing s with
  | nil => rfl
  | cons input inputs ih =>
    rw [Machine.run_cons, ih, process_step, Machine.log_cons, readIn_append, read_step,
      Machine.run_append]

/-! ### One step -/

/-- The events of the TCP server that an input stands for. -/
def netEvents (s : ChatServer Db) (input : ServerInput) : List ServerEvent :=
  match s.process.fault, input with
  | none, .net event => [event]
  | _, _ => []

/-- What an input has the window do. -/
def windowInputs (s : ChatServer Db) (input : ServerInput) : List WindowInput :=
  match s.process.fault, s.tcp, input with
  | none, some tcp, .net event => ((tcpServer.step tcp event).2.flatMap posting).map .post
  | none, _, .deliver now => [.deliver now]
  | _, _, _ => []

theorem log_posts (w : Window) (posts : List Post) :
    window.log w (posts.map .post) = posts.map fun post => .posted (postMsg post) := by
  induction posts generalizing w with
  | nil => rfl
  | cons post posts ih => exact congrArg (.posted (postMsg post) :: ·) (ih _)

@[simp] theorem windowNotes_shown (notes : List WindowNote) :
    (notes.map ProgramNote.shown).flatMap ProgramNote.windowNote = notes := by
  induction notes with
  | nil => rfl
  | cons note notes ih => exact congrArg (note :: ·) ih

/-- The program listens, and its button is disabled. -/
structure Listens (s : ChatServer Db) (tcp : TcpServer) : Prop where
  tcp : s.tcp = some tcp
  startBtn : s.startBtn = false

/-- What one step makes of a program that listens. -/
structure Stepped (s : ChatServer Db) (tcp : TcpServer) (input : ServerInput)
    (s' : ChatServer Db) (notes : List ProgramNote) : Prop where
  listens : Listens s' (tcpServer.run tcp (s.netEvents input))
  chat : s'.chat = window.run s.chat (s.windowInputs input)
  netNotes : notes.flatMap ProgramNote.netNote = tcpServer.log tcp (s.netEvents input)
  windowNotes : notes.flatMap ProgramNote.windowNote = window.log s.chat (s.windowInputs input)

theorem Listens.step {s : ChatServer Db} {tcp : TcpServer} (h : Listens s tcp)
    (input : ServerInput) :
    Stepped s tcp input ((chatServer host).step s input).1 ((chatServer host).step s input).2 := by
  obtain ⟨htcp, hbtn⟩ := h
  cases hfault : s.process.fault with
  | some fault =>
    have hnet : s.netEvents input = [] := by simp only [netEvents, hfault]
    have hwindow : s.windowInputs input = [] := by simp only [windowInputs, hfault]
    simp only [chatServer, hfault]
    exact ⟨hnet ▸ ⟨htcp, hbtn⟩, hwindow ▸ rfl, hnet ▸ rfl, hwindow ▸ rfl⟩
  | none =>
    cases input with
    | startBtn form =>
      have hnet : s.netEvents (.startBtn form) = [] := by simp only [netEvents, hfault]
      have hwindow : s.windowInputs (.startBtn form) = [] := by
        simp only [windowInputs, hfault, htcp]
      simp only [chatServer, hfault, hbtn]
      exact ⟨hnet ▸ ⟨htcp, hbtn⟩, hwindow ▸ rfl, hnet ▸ rfl, hwindow ▸ rfl⟩
    | deliver now =>
      have hnet : s.netEvents (.deliver now) = [] := by simp only [netEvents, hfault]
      have hwindow : s.windowInputs (.deliver now) = [.deliver now] := by
        simp only [windowInputs, hfault]
      simp only [chatServer, hfault, onChat]
      refine ⟨hnet ▸ ⟨htcp, hbtn⟩, hwindow ▸ rfl, ?_, ?_⟩
      · rw [hnet, netNotes_shown]
        rfl
      · rw [hwindow, windowNotes_shown]
    | net event =>
      have hnet : s.netEvents (.net event) = [event] := by simp only [netEvents, hfault]
      have hwindow : s.windowInputs (.net event) =
          ((tcpServer.step tcp event).2.flatMap posting).map .post := by
        simp only [windowInputs, hfault, htcp]
      simp only [chatServer, hfault, htcp]
      rcases (TcpServer.step_change tcp event).notes with hnone | ⟨note, hone⟩
      · rw [hnone] at hwindow ⊢
        refine ⟨hnet ▸ ⟨rfl, hbtn⟩, hwindow ▸ rfl, ?_, hwindow ▸ rfl⟩
        rw [hnet, Machine.log_singleton, hnone]
        rfl
      · obtain ⟨process, hhandle⟩ := handle_eq host
          (s := { s with tcp := some (tcpServer.step tcp event).1 }) hfault note
        have hstep : (callbacks host).step { s with tcp := some (tcpServer.step tcp event).1 } note =
            _ := hhandle
        rw [hone] at hwindow ⊢
        rw [Machine.run_cons, Machine.run_nil, Machine.log_singleton, hstep]
        rw [List.flatMap_cons, List.flatMap_nil, List.append_nil] at hwindow
        refine ⟨hnet ▸ ⟨rfl, hbtn⟩, hwindow ▸ rfl, ?_, ?_⟩
        · rw [hnet, Machine.log_singleton, hone, List.flatMap_cons, netNotes_shown]
          rfl
        · rw [hwindow, List.flatMap_cons, windowNotes_shown]
          rfl

end ChatServer

end XChaty.Server
