import XChaty.Qt.PlaceMarkers
import XChaty.Server.ChatServer

/-! Runs of the server program.  The program simulates its TCP server and its window, and the posts of
a run are determined by the callbacks; so the window of a server that listens shows one line for each
post, and what it shows of one connection is its session: a notice, its chat lines, and another
notice. -/

namespace XChaty.Server.ChatServer

open Qt Protoc ProofKit Chat Hv

variable {Db : Type} (host : Host Db)

/-- The program steps as the TCP server does on the events that it still handles. -/
theorem simulates_tcp :
    (chatServer host).Simulates tcpServer Listens (fun _ _ => True) netEvents
      ProgramNote.netNote where
  keeps := fun _ _ input h _ => (h.step host input).listens
  notes := fun _ _ input h _ => (h.step host input).netNotes

/-- It steps as its window does on what its callbacks post and on its deliveries. -/
theorem simulates_window :
    (chatServer host).Simulates window (fun s w => s.chat = w ∧ ∃ tcp, Listens s tcp)
      (fun _ _ => True) windowInputs ProgramNote.windowNote where
  keeps := by
    rintro s w input ⟨rfl, tcp, h⟩ -
    exact ⟨(h.step host input).chat, _, (h.step host input).listens⟩
  notes := by
    rintro s w input ⟨rfl, tcp, h⟩ -
    exact (h.step host input).windowNotes

theorem eventual_windowInputs (s : ChatServer Db) (input : ServerInput) :
    ∀ i ∈ s.windowInputs input, Eventual i := by
  intro i hi
  unfold windowInputs at hi
  split at hi
  · obtain ⟨post, -, rfl⟩ := List.mem_map.mp hi
    trivial
  · obtain rfl := List.mem_singleton.mp hi
    trivial
  · cases hi

theorem eventual_run (s : ChatServer Db) (inputs : List ServerInput) :
    ∀ i ∈ (chatServer host).absInputs windowInputs s inputs, Eventual i := by
  induction inputs generalizing s with
  | nil => exact fun i hi => absurd hi List.not_mem_nil
  | cons input inputs ih =>
    intro i hi
    rcases List.mem_append.mp hi with hnow | hlater
    · exact eventual_windowInputs s input i hnow
    · exact ih _ i hlater

/-- What a step posts is what its callbacks post. -/
theorem posts_step {s : ChatServer Db} {tcp : TcpServer} (h : Listens s tcp)
    (input : ServerInput) :
    (window.log s.chat (s.windowInputs input)).flatMap WindowNote.event =
      ((tcpServer.log tcp (s.netEvents input)).flatMap posting).map postMsg := by
  have hposts : ∀ posts : List Post, (window.log s.chat (posts.map .post)).flatMap WindowNote.event =
      posts.map postMsg := by
    intro posts
    rw [log_posts]
    induction posts with
    | nil => rfl
    | cons post posts ih => exact congrArg (postMsg post :: ·) ih
  cases hfault : s.process.fault with
  | some fault =>
    have hnet : s.netEvents input = [] := by simp only [netEvents, hfault]
    have hwindow : s.windowInputs input = [] := by simp only [windowInputs, hfault]
    rw [hnet, hwindow]
    rfl
  | none =>
    cases input with
    | net event =>
      have hnet : s.netEvents (.net event) = [event] := by simp only [netEvents, hfault]
      simp only [windowInputs, hfault, h.tcp, hnet, Machine.log_singleton]
      exact hposts _
    | deliver now =>
      have hnet : s.netEvents (.deliver now) = [] := by simp only [netEvents, hfault]
      simp only [windowInputs, hfault, hnet, Machine.log_singleton]
      obtain ⟨queue, receiver⟩ := s.chat
      cases queue with
      | nil => rfl
      | cons event queue => rfl
    | startBtn form =>
      have hnet : s.netEvents (.startBtn form) = [] := by simp only [netEvents, hfault]
      have hwindow : s.windowInputs (.startBtn form) = [] := by
        simp only [windowInputs, hfault, h.tcp]
      rw [hnet, hwindow]
      rfl

/-- All callbacks of a run, in order. -/
def called (notes : List ProgramNote) : List ServerNote := notes.flatMap ProgramNote.netNote

/-- All that a run shows, in order. -/
def shown (notes : List ProgramNote) : List (QDateTime × Nat × QStringEvent) :=
  (notes.flatMap ProgramNote.windowNote).flatMap WindowNote.timed

theorem posts_run {s : ChatServer Db} {tcp : TcpServer} (h : Listens s tcp)
    (inputs : List ServerInput) :
    (((chatServer host).log s inputs).flatMap ProgramNote.windowNote).flatMap WindowNote.event =
      ((called ((chatServer host).log s inputs)).flatMap posting).map postMsg := by
  rw [called, List.flatMap_assoc, List.flatMap_assoc, List.map_flatMap]
  refine Machine.log_flatMap_congr (I := fun s => ∃ tcp, Listens s tcp) ?_ ?_ ⟨tcp, h⟩ inputs
  · rintro s input ⟨tcp, h⟩
    exact ⟨_, (h.step host input).listens⟩
  · rintro s input ⟨tcp, h⟩
    have hstep := h.step host input
    have hposts := posts_step h input
    rw [← hstep.windowNotes, ← hstep.netNotes, List.flatMap_assoc, List.flatMap_assoc,
      List.map_flatMap] at hposts
    exact hposts

/-! ### From the start -/

def Listening (form : StartForm) : Prop :=
  form.portEdit.units ≠ [] ∧ 0 ≤ form.createsocket form.portEdit

/-- The text of the window when the server has started. -/
def greeting (port : QString) : List UInt16 :=
  broken ((QString.ofLiteral "Listening on port: %1").arg port).units

theorem greeting_ne_nil (port : QString) :
    ((QString.ofLiteral "Listening on port: %1").arg port).units ≠ [] := by
  have hlowest : QString.lowest
      (QString.pieces (QString.ofLiteral "Listening on port: %1").units) = some 1 := by decide
  rw [QString.arg_of_lowest hlowest]
  exact List.cons_ne_nil _ _

/-- A server that has started to listen. -/
def listening (database : Db) (port : QString) : ChatServer Db :=
  { tcp := some (TcpServer.started 4)
    process := Process.new database
    chat := { queue := [], receiver := some { m_chatEdit := { text := greeting port } } }
    startBtn := false }

theorem listens_listening (database : Db) (port : QString) :
    Listens (listening database port) (TcpServer.started 4) := ⟨rfl, rfl⟩

theorem new_of_listening (database : Db) (text : List UInt16) {form : StartForm}
    (h : Listening form) : (new database text form).1 = listening database form.portEdit := by
  have hfd : ¬form.createsocket form.portEdit < 0 := Int.not_lt.mpr h.2
  simp only [new, startServer, if_neg h.1, if_neg hfd, onChat, Machine.run_cons, Machine.run_nil]
  simp only [window, unstarted, Option.bind_some, overWriteMsg_eq _ (greeting_ne_nil _)]
  rfl

/-- The window of a server that listens: it shows the greeting and a line for each delivery, and the
deliveries have the senders and texts that the callbacks have posted, in order, up to those on the
queue. -/
structure ServerLog (port : QString) (s : ChatServer Db) (notes : List ProgramNote) : Prop where
  text : s.chat.receiver = some { m_chatEdit := { text := logged (greeting port) (shown notes) } }
  posts : (shown notes).map (fun d => postOf d.2) ++ s.chat.queue.map postOf =
    (called notes).flatMap posting
  ends : EndsLine (logged (greeting port) (shown notes))

theorem serverLog_run (database : Db) (port : QString) (inputs : List ServerInput) :
    ServerLog port ((chatServer host).run (listening database port) inputs)
      ((chatServer host).log (listening database port) inputs) := by
  have hlistens := listens_listening database port
  have hlive : Live (listening database port).chat (greeting port) :=
    ⟨rfl, fun event hevent => absurd hevent List.not_mem_nil⟩
  have heventual := eventual_run host (listening database port) inputs
  obtain ⟨⟨hchat, -⟩, hnotes⟩ := (simulates_window host).run
    (And.intro rfl ⟨_, hlistens⟩) (Machine.allOk_of_forall (fun _ _ _ => trivial) _)
  obtain ⟨hend, hdelivered⟩ := hlive.run fun i hi => (heventual i hi).defined
  rw [foldl_shows_eventual heventual] at hend
  rw [← hchat, ← hnotes] at hend hdelivered
  have hposts := posts_run host hlistens inputs
  refine ⟨hend.receiver, posts_of_events ?_, endsLine_logged (.inr (broken_getLast? _)) _⟩
  rw [shown, timed_snd, hdelivered, hposts]
  rfl

/-- In every run of a server that has started to listen, the window shows one line for each post of
the callbacks, in their order, up to those still queued. -/
theorem log_of_server {form : StartForm} (hlisten : Listening form) (database : Db)
    (text : List UInt16) (inputs : List ServerInput) :
    ServerLog form.portEdit ((chatServer host).run (new database text form).1 inputs)
      ((chatServer host).log (new database text form).1 inputs) := by
  rw [new_of_listening database text hlisten]
  exact serverLog_run host database form.portEdit inputs

/-! ### One connection -/

def netInputs (inputs : List ServerInput) : List ServerEvent :=
  inputs.filterMap fun
    | .net event => some event
    | _ => none

def bufferOf : ServerNote → List (List UInt8)
  | .onMessage _ _ buf => [buf]
  | .queued _ _ | .onConnection _ _ _ | .hio_close _ _ => []

/-- The buffers that are read from one connection. -/
def buffersOf (id : Nat) (notes : List ServerNote) : List (List UInt8) :=
  (TcpServer.notesOf id notes).flatMap bufferOf

/-- The chat lines that buffers decode to. -/
def spoken (bufs : List (List UInt8)) : List QString := chatTexts (bufs.map fun buf => (decode buf).1)

/-- The posts of one connection from which the buffers have been read: none, or the notice that it
has connected, its chat lines, and last, if it has gone, the notice that it has disconnected. -/
inductive SessionPosts (id : Nat) (bufs : List (List UInt8)) : List Post → Prop
  | silent (hbufs : bufs = []) : SessionPosts id bufs []
  | connected : SessionPosts id bufs
    (⟨id, connNotice id true⟩ :: (spoken bufs).map fun text => ⟨id, text⟩)
  | disconnected : SessionPosts id bufs
    (⟨id, connNotice id true⟩ :: ((spoken bufs).map fun text => ⟨id, text⟩) ++
      [⟨id, connNotice id false⟩])

/-- What the window has shown of one connection, and after it what is on the queue of it, is its
session. -/
def SessionLog (id : Nat) (s : ChatServer Db) (notes : List ProgramNote) : Prop :=
  SessionPosts id (buffersOf id (called notes))
    (((shown notes).map fun d => postOf d.2).filter (fun post => post.sender = id) ++
      (s.chat.queue.map postOf).filter fun post => post.sender = id)

theorem filter_posting (id : Nat) (notes : List ServerNote) :
    (notes.flatMap posting).filter (fun post => post.sender = id) =
      (TcpServer.notesOf id notes).flatMap posting := by
  have hsender : ∀ note : ServerNote, ∀ post ∈ posting note, post.sender = note.id := by
    intro note post hpost
    cases note with
    | queued | hio_close => cases hpost
    | onConnection => rw [List.mem_singleton.mp hpost, ServerNote.id]
    | onMessage =>
      obtain ⟨text, -, rfl⟩ := List.mem_map.mp hpost
      rfl
  induction notes with
  | nil => rfl
  | cons note notes ih =>
    rw [List.flatMap_cons, List.filter_append, ih]
    by_cases hid : note.id = id
    · have hfront : TcpServer.notesOf id (note :: notes) = note :: TcpServer.notesOf id notes :=
        List.filter_cons_of_pos (by simpa using hid)
      rw [hfront, List.flatMap_cons, List.filter_eq_self.mpr fun post hpost => by
        simpa using (hsender note post hpost).trans hid]
    · have hfront : TcpServer.notesOf id (note :: notes) = TcpServer.notesOf id notes :=
        List.filter_cons_of_neg (by simpa using hid)
      rw [hfront, List.filter_eq_nil_iff.mpr fun post hpost => by
        simpa [hsender note post hpost] using hid]
      rfl

theorem posting_opened (loop id : Nat) (bufs : List (List UInt8)) :
    (TcpServer.opened loop id bufs).flatMap posting =
      ⟨id, connNotice id true⟩ :: (spoken bufs).map fun text => ⟨id, text⟩ := by
  have hread : (bufs.map (ServerNote.onMessage loop id)).flatMap posting =
      (spoken bufs).map fun text => ⟨id, text⟩ := by
    induction bufs with
    | nil => rfl
    | cons buf bufs ih =>
      have hspoken : spoken (buf :: bufs) = chatTexts [(decode buf).1] ++ spoken bufs := by
        rw [spoken, List.map_cons, chatTexts, chatTexts, spoken, chatTexts, ← List.filterMap_append]
        rfl
      rw [List.map_cons, List.flatMap_cons, ih, hspoken, List.map_append]
      rfl
  rw [TcpServer.opened, List.flatMap_append, hread]
  rfl

theorem read_opened (loop id : Nat) (bufs : List (List UInt8)) (last : List ServerNote)
    (hlast : last = [] ∨ last = [.onConnection loop id false]) :
    (TcpServer.opened loop id bufs ++ last).flatMap bufferOf = bufs := by
  have hread : (bufs.map (ServerNote.onMessage loop id)).flatMap bufferOf = bufs := by
    induction bufs with
    | nil => rfl
    | cons buf bufs ih => exact congrArg (buf :: ·) ih
  rw [TcpServer.opened, List.flatMap_append, List.flatMap_append, hread]
  rcases hlast with rfl | rfl
  · exact List.append_nil bufs
  · exact List.append_nil bufs

theorem sessionPosts_of_session {s : TcpServer} {notes : List ServerNote}
    (h : TcpServer.Sessions s notes) (id : Nat) :
    SessionPosts id (buffersOf id notes) ((TcpServer.notesOf id notes).flatMap posting) := by
  rw [buffersOf]
  have hopened : ∀ loop bufs, TcpServer.notesOf id notes = TcpServer.opened loop id bufs →
      SessionPosts id ((TcpServer.notesOf id notes).flatMap bufferOf)
        ((TcpServer.notesOf id notes).flatMap posting) := by
    intro loop bufs hnotes
    have hread := read_opened loop id bufs [] (.inl rfl)
    rw [List.append_nil] at hread
    rw [hnotes, hread, posting_opened]
    exact .connected
  by_cases hhand : id ∈ s.inHand
  · rcases List.mem_append.mp hhand with hwaiting | hchannel
    · obtain ⟨loop, hloop, hheld⟩ := List.mem_flatMap.mp hwaiting
      obtain ⟨idx, hidx⟩ := List.mem_iff_getElem?.mp hloop
      rw [h.waiting idx loop hidx id hheld]
      exact .silent rfl
    · obtain ⟨channel, hmem, rfl⟩ := List.mem_map.mp hchannel
      obtain ⟨-, bufs, hbufs⟩ := h.attached channel hmem
      exact hopened channel.loop bufs hbufs
  · rcases h.gone id hhand with hnone | hended
    · rw [hnone]
      exact .silent rfl
    · generalize TcpServer.notesOf id notes = mine at hended
      cases hended with
      | refused loop => exact .silent rfl
      | closed loop bufs =>
        rw [read_opened loop id bufs _ (.inr rfl), List.flatMap_append, posting_opened]
        exact .disconnected

theorem netEvents_sublist (s : ChatServer Db) (inputs : List ServerInput) :
    ((chatServer host).absInputs netEvents s inputs).Sublist (netInputs inputs) := by
  induction inputs generalizing s with
  | nil => exact List.Sublist.refl _
  | cons input inputs ih =>
    have hone : (netEvents s input).Sublist (netInputs [input]) := by
      unfold netEvents
      split
      · exact List.Sublist.refl _
      · exact List.nil_sublist _
    have hcons : netInputs (input :: inputs) = netInputs [input] ++ netInputs inputs := by
      rw [netInputs, netInputs, netInputs, ← List.filterMap_append]
      rfl
    rw [Machine.absInputs, hcons]
    exact hone.append (ih _)

/-- In a run of a listening server every connection has its session. -/
theorem sessions_run (database : Db) (port : QString) (inputs : List ServerInput)
    (hunique : (TcpServer.accepted (netInputs inputs)).Nodup) :
    ∃ tcp, ((chatServer host).run (listening database port) inputs).tcp = some tcp ∧
      TcpServer.Sessions tcp (called ((chatServer host).log (listening database port) inputs)) := by
  obtain ⟨hlistens, hcalled⟩ := (simulates_tcp host).run (listens_listening database port)
    (Machine.allOk_of_forall (fun _ _ _ => trivial) _)
  have hkept := TcpServer.kept_run (show 0 < 4 by decide) 0xFFFFFFFF
    ((chatServer host).absInputs netEvents (listening database port) inputs)
    (hunique.sublist ((netEvents_sublist host _ inputs).filterMap _))
  rw [called, hcalled]
  exact ⟨_, hlistens.tcp, hkept.sessions⟩

theorem serverLog_of_connection (database : Db) (port : QString) (inputs : List ServerInput)
    (hunique : (TcpServer.accepted (netInputs inputs)).Nodup) (id : Nat) :
    SessionLog id ((chatServer host).run (listening database port) inputs)
      ((chatServer host).log (listening database port) inputs) := by
  obtain ⟨tcp, -, hsessions⟩ := sessions_run host database port inputs hunique
  rw [SessionLog, ← List.filter_append, (serverLog_run host database port inputs).posts,
    filter_posting]
  exact sessionPosts_of_session hsessions id

/-- Of a connection that is there the notice has been posted and its chat lines, and no more. -/
theorem posts_of_attached {tcp : TcpServer} {notes : List ServerNote}
    (h : TcpServer.Sessions tcp notes) {channel : ServerChannel} (hchannel : channel ∈ tcp.channels) :
    (notes.flatMap posting).filter (fun post => post.sender = channel.id) =
      ⟨channel.id, connNotice channel.id true⟩ ::
        (spoken (buffersOf channel.id notes)).map fun text => ⟨channel.id, text⟩ := by
  obtain ⟨-, bufs, hbufs⟩ := h.attached channel hchannel
  have hread := read_opened channel.loop channel.id bufs [] (.inl rfl)
  rw [List.append_nil] at hread
  rw [filter_posting, buffersOf, hbufs, hread, posting_opened]

/-- The text of a window whose server could not start. -/
def failure (form : StartForm) : QString :=
  if form.portEdit.units = [] then .ofLiteral "Port is empty!"
  else .ofLiteral "Create socket failed!"

/-- A server that could not start, with the text of its window. -/
structure Dead (text : List UInt16) (s : ChatServer Db) : Prop where
  tcp : s.tcp = none
  startBtn : s.startBtn = false
  queue : s.chat.queue = []
  text : s.chat.receiver = some { m_chatEdit := { text } }

theorem Dead.step {text : List UInt16} {s : ChatServer Db} (h : Dead text s)
    (input : ServerInput) :
    Dead text ((chatServer host).step s input).1 ∧
      called ((chatServer host).step s input).2 = [] := by
  obtain ⟨htcp, hbtn, hqueue, htext⟩ := h
  cases hfault : s.process.fault with
  | some fault =>
    simp only [chatServer, hfault]
    exact ⟨⟨htcp, hbtn, hqueue, htext⟩, rfl⟩
  | none =>
    cases input with
    | net event =>
      simp only [chatServer, hfault, htcp]
      exact ⟨⟨htcp, hbtn, hqueue, htext⟩, rfl⟩
    | startBtn form =>
      simp only [chatServer, hfault, hbtn]
      exact ⟨⟨htcp, hbtn, hqueue, htext⟩, rfl⟩
    | deliver now =>
      have hidle : window.step s.chat (.deliver now) = (s.chat, []) := by
        generalize s.chat = w at hqueue
        obtain ⟨queue, receiver⟩ := w
        obtain rfl : queue = [] := hqueue
        rfl
      simp only [chatServer, hfault, onChat, Machine.run_cons, Machine.run_nil,
        Machine.log_singleton, hidle]
      exact ⟨⟨htcp, hbtn, hqueue, htext⟩, rfl⟩

/-- When the first start fails, no run ever listens: no callback comes, and the window keeps the one
line that says why, for the button that would start the server stays disabled. -/
theorem failed_start_is_final {form : StartForm} (hfailed : ¬Listening form) (database : Db)
    (text : List UInt16) (inputs : List ServerInput) :
    Dead (text ++ line form.now (failure form))
        ((chatServer host).run (new database text form).1 inputs) ∧
      called ((chatServer host).log (new database text form).1 inputs) = [] := by
  have hnew : Dead (text ++ line form.now (failure form)) (new database text form).1 := by
    by_cases hport : form.portEdit.units = []
    · simp only [new, startServer, if_pos hport, failure]
      exact ⟨rfl, rfl, rfl, appendMsg_eq _ _ _⟩
    · have hfd : form.createsocket form.portEdit < 0 :=
        Int.not_le.mp fun hfd => hfailed ⟨hport, hfd⟩
      simp only [new, startServer, if_neg hport, if_pos hfd, failure]
      exact ⟨rfl, rfl, rfl, appendMsg_eq _ _ _⟩
  generalize (new database text form).1 = s at hnew
  refine ⟨Machine.run_invariant hnew fun s input _ h => (h.step host input).1, ?_⟩
  induction inputs generalizing s with
  | nil => rfl
  | cons input inputs ih =>
    obtain ⟨hdead, hnone⟩ := hnew.step host input
    rw [Machine.log_cons, called, List.flatMap_append]
    exact List.append_eq_nil_iff.mpr ⟨hnone, ih _ hdead⟩

/-! ### Two connections -/

/-- A start on port 1234 that succeeds. -/
def startForm : StartForm :=
  { portEdit := .ofLiteral "1234", createsocket := fun _ => 6, now := noon }

/-- Two connections on two loops; the first says 'hi' and goes. -/
def twoVisitors : List ServerInput :=
  [.net (.onAccept 1), .net (.onAccept 2), .net (.onCustomEvent 2), .net (.onCustomEvent 1),
    .net (.attach 2), .net (.attach 1),
    .net (.on_read 1 (ChatyMessage.wire
      ⟨⟨.null, 4⟩, some (.clientMessage ⟨.text [98], .text [104, 105], 0⟩)⟩)),
    .deliver noon, .net (.on_close 1), .deliver noon]

theorem log_of_server_two :
    ServerLog startForm.portEdit
      ((chatServer syntaxErrorHost).run (new [] [] startForm).1 twoVisitors)
      ((chatServer syntaxErrorHost).log (new [] [] startForm).1 twoVisitors) :=
  log_of_server syntaxErrorHost ⟨by decide, by decide⟩ [] [] twoVisitors

def noPort : StartForm := { portEdit := .text [], createsocket := fun _ => 6, now := noon }

theorem failed_start_is_final_empty_port :
    Dead ([] ++ line noPort.now (failure noPort))
        ((chatServer syntaxErrorHost).run (new [] [] noPort).1 twoVisitors) ∧
      called ((chatServer syntaxErrorHost).log (new [] [] noPort).1 twoVisitors) = [] :=
  failed_start_is_final syntaxErrorHost (fun h : Listening noPort => h.1 rfl) [] [] twoVisitors

end XChaty.Server.ChatServer
