import XChaty.System.Harm

/-! Nothing is stuck.  From every state that chat windows can have brought about, over a network that
leaves segments as they were written, the server can read what is on its way on a connection that is
there, and its window can show what is on the queue; then all that was typed has been shown. -/

namespace XChaty.System

open Qt Protoc ProofKit Chat Hv Server Client

namespace Programs

variable {hio_id : Link → Nat} {Db : Type} (host : Host Db)

/-- The server runs unharmed, and its TCP server is `tcp`. -/
structure Serves (sql : SqlHelper Db) (tcp : TcpServer) (s : Programs Db) : Prop where
  unharmed : Unharmed sql s
  listens : ChatServer.Listens s.server tcp

/-! ### Reading what is on its way -/

section Reading

variable {sql : SqlHelper Db} {tcp : TcpServer} {s : Programs Db} {link : Link}

theorem Serves.reads (h : Serves sql tcp s) (hchannel : (tcp.getChannelById (hio_id link)).isSome) :
    s.Reads hio_id link := by
  refine ⟨h.unharmed.fault, ?_⟩
  rw [h.listens.tcp]
  exact hchannel

theorem Serves.read (h : Serves sql tcp s) (hchannel : (tcp.getChannelById (hio_id link)).isSome)
    {segment : QByteArray} {rest : List QByteArray} (hqueue : s.up link = segment :: rest) :
    Serves sql tcp ((programs hio_id host).step s (.on_read link)).1 ∧
      ((programs hio_id host).step s (.on_read link)).1.up link = rest := by
  have hnext : s.next hio_id link = some segment := by
    rw [next, if_pos (h.reads hchannel), hqueue]
    rfl
  have hunharmed : Unharmed sql ((programs hio_id host).step s (.on_read link)).1 :=
    h.unharmed.step host (.on_read link) (fun _ _ hinput => by cases hinput)
      fun _ _ hinput => by cases hinput
  refine ⟨⟨hunharmed, ?_⟩, ?_⟩
  · have hlistens := (h.listens.step host (.net (.on_read (hio_id link) segment))).listens
    have htcp : tcpServer.run tcp
        (s.server.netEvents (.net (.on_read (hio_id link) segment))) = tcp := by
      simp only [ChatServer.netEvents, h.unharmed.fault, Machine.run_cons, Machine.run_nil]
      change (tcp.on_read (hio_id link) segment).1 = tcp
      rw [TcpServer.on_read]
      cases tcp.getChannelById (hio_id link) <;> rfl
    rw [htcp] at hlistens
    simp only [programs, onRead, hnext]
    exact hlistens
  · simp only [programs, onRead, hnext]
    change Function.update s.up link (s.up link).tail link = rest
    rw [Function.update_self, hqueue]
    rfl

/-- As many reads as there are segments. -/
theorem Serves.read_all {segments : List QByteArray} (h : Serves sql tcp s)
    (hchannel : (tcp.getChannelById (hio_id link)).isSome) (hqueue : s.up link = segments) :
    Serves sql tcp
        ((programs hio_id host).run s (List.replicate segments.length (.on_read link))) ∧
      ((programs hio_id host).run s (List.replicate segments.length (.on_read link))).up link =
        [] := by
  induction segments generalizing s with
  | nil => exact ⟨h, hqueue⟩
  | cons segment segments ih =>
    obtain ⟨hnext, hrest⟩ := h.read host hchannel hqueue
    exact ih hnext hrest

/-- As many deliveries as there are events on the queue of the window. -/
theorem Serves.deliver_all {queue : List (Nat × QStringEvent)} (h : Serves sql tcp s)
    (hqueue : s.server.chat.queue = queue) (now : QDateTime) :
    Serves sql tcp
        ((programs hio_id host).run s (List.replicate queue.length (.deliver now))) ∧
      ((programs hio_id host).run s (List.replicate queue.length (.deliver now))).up = s.up ∧
      ((programs hio_id host).run s
        (List.replicate queue.length (.deliver now))).server.chat.queue = [] := by
  induction queue generalizing s with
  | nil => exact ⟨h, rfl, hqueue⟩
  | cons event queue ih =>
    have hstep := h.listens.step host (.deliver now)
    have hunharmed : Unharmed sql ((programs hio_id host).step s (.deliver now)).1 :=
      h.unharmed.step host (.deliver now) (fun _ _ hinput => by cases hinput)
        fun _ _ hinput => by cases hinput
    have hidle : tcpServer.run tcp (s.server.netEvents (.deliver now)) = tcp := by
      simp only [ChatServer.netEvents, h.unharmed.fault, Machine.run_nil]
    have hlistens := hstep.listens
    rw [hidle] at hlistens
    have hrest : ((programs hio_id host).step s (.deliver now)).1.server.chat.queue = queue := by
      have hchat := hstep.chat
      simp only [ChatServer.windowInputs, h.unharmed.fault, Machine.run_cons, Machine.run_nil]
        at hchat
      change ((chatServer host).step s.server (.deliver now)).1.chat.queue = queue
      rw [hchat]
      generalize s.server.chat = chat at hqueue
      obtain ⟨_, receiver⟩ := chat
      cases hqueue
      rfl
    exact ih (s := ((programs hio_id host).step s (.deliver now)).1) ⟨hunharmed, hlistens⟩ hrest

theorem exists_reads (h : Serves sql tcp s)
    (hchannel : (tcp.getChannelById (hio_id link)).isSome) :
    ∃ reads, Serves sql tcp
        ((programs hio_id host).run s (List.replicate reads (.on_read link))) ∧
      ((programs hio_id host).run s (List.replicate reads (.on_read link))).up link = [] :=
  ⟨_, h.read_all host hchannel rfl⟩

theorem exists_deliveries (h : Serves sql tcp s) (now : QDateTime) :
    ∃ deliveries, Serves sql tcp
        ((programs hio_id host).run s (List.replicate deliveries (.deliver now))) ∧
      ((programs hio_id host).run s (List.replicate deliveries (.deliver now))).up = s.up ∧
      ((programs hio_id host).run s
        (List.replicate deliveries (.deliver now))).server.chat.queue = [] :=
  ⟨_, h.deliver_all host rfl now⟩

end Reading

/-! ### Showing what has been typed -/

theorem eventsOf_append (k : Nat) (inputs more : List Input) :
    eventsOf k (inputs ++ more) = eventsOf k inputs ++ eventsOf k more :=
  List.filterMap_append

/-- The window of the server has one line for each delivery, and those of a connection are the notice
that it is there and the lines. -/
structure AllShown (port : QString) (server : ChatServer Db) (id : Nat) (lines : List QString)
    (notes : List Note) : Prop where
  text : server.chat.receiver = some { m_chatEdit :=
    ⟨logged (ChatServer.greeting port) (ChatServer.shown (notes.flatMap Note.program))⟩ }
  lines : ((ChatServer.shown (notes.flatMap Note.program)).map fun d => postOf d.2).filter
      (fun post => post.sender = id) =
    ⟨id, ChatServer.connNotice id true⟩ :: lines.map fun text => ⟨id, text⟩

/-- At the end of a run that has left nothing on its way and nothing on the queue, all has been
shown. -/
theorem allShown_of_drained (hunique : Function.Injective hio_id) (database : Db) (port : QString)
    (users : Nat → User) (forms : Nat → Form) {inputs : List Input} {k c : Nat}
    (hwhole : ∀ segments, .recut (.window k c) segments ∉ inputs)
    (hfits : Fits (users k) (eventsOf k inputs)) {s : Programs Db}
    (hend : (programs hio_id host).run (started database port users forms) inputs = s)
    {tcp : TcpServer} (htcp : s.server.tcp = some tcp)
    (hchannel : (tcp.getChannelById (hio_id (.window k c))).isSome)
    (hup : s.up (.window k c) = []) (hqueue : s.server.chat.queue = []) :
    AllShown port s.server (hio_id (.window k c))
      (typedFor c (XChatyClient.new (users k) (forms k)).1 (eventsOf k inputs))
      ((programs hio_id host).log (started database port users forms) inputs) := by
  obtain ⟨hnewest, huser⟩ := XChatyClient.newest_new (users k) (forms k)
  have hheard := heard_run host hunique (quiet_started database port users forms) rfl hnewest
    hwhole (by
      change Fits (XChatyClient.new (users k) (forms k)).1.m_user _
      rw [huser]
      exact hfits)
  obtain ⟨given, hnodup, hserver, hprogram⟩ := server_run host hunique
    (s := started database port users forms) rfl inputs
  have hlog := ChatServer.serverLog_run host database port given
  obtain ⟨tcp', htcp', hsessions⟩ := ChatServer.sessions_run host database port given hnodup
  change _ = (chatServer host).run (ChatServer.listening database port) given at hserver
  rw [hend] at hserver hheard
  obtain rfl : tcp' = tcp := by
    rw [← hserver, htcp] at htcp'
    exact (Option.some.inj htcp').symm
  obtain ⟨channel, hfound⟩ := Option.isSome_iff_exists.mp hchannel
  obtain ⟨hmem, hid⟩ := TcpServer.getChannelById_eq_some hfound
  have hposts := ChatServer.posts_of_attached hsessions hmem
  have hshown := hlog.posts
  rw [← hserver, hqueue, List.map_nil, List.append_nil] at hshown
  rw [hup, readFrom_eq, hprogram] at hheard
  change ChatServer.spoken _ ++ [] = typedFor c (XChatyClient.new (users k) (forms k)).1 _ at hheard
  rw [List.append_nil] at hheard
  constructor
  · rw [hprogram, hserver]
    exact hlog.text
  · rw [hprogram, ← hheard]
    change ((ChatServer.shown ((chatServer host).log (ChatServer.listening database port)
      given)).map _).filter _ = _
    rw [hshown, ← hid, hposts]
    rfl

/-- Whatever only chat windows and the network have done, when the server has a channel for a
connection then reading what is on its way on it and delivering what is on the queue shows all lines
that have been typed for it, after the notice that it has connected. -/
theorem all_can_be_shown (hunique : Function.Injective hio_id) (database : Db) (port : QString)
    (users : Nat → User) (forms : Nat → Form) (inputs : List Input)
    (hstranger : ∀ n segment, .stranger n segment ∉ inputs)
    (hwhole : ∀ link segments, .recut link segments ∉ inputs) (k c : Nat)
    (hfits : Fits (users k) (eventsOf k inputs))
    (hattached : ((programs hio_id host).run (started database port users forms) inputs).Reads
      hio_id (.window k c)) (now : QDateTime) :
    ∃ reads deliveries,
      let inputs' := inputs ++ (List.replicate reads (.on_read (.window k c)) ++
        List.replicate deliveries (.deliver now))
      AllShown port ((programs hio_id host).run (started database port users forms) inputs').server
        (hio_id (.window k c))
        (typedFor c (XChatyClient.new (users k) (forms k)).1 (eventsOf k inputs))
        ((programs hio_id host).log (started database port users forms) inputs') := by
  have hlistens : ∃ tcp, ChatServer.Listens
      ((programs hio_id host).run (started database port users forms) inputs).server tcp := by
    obtain ⟨given, -, hserver, -⟩ := server_run host hunique
      (s := started database port users forms) rfl inputs
    rw [hserver]
    exact ⟨_, ((ChatServer.simulates_tcp host).run
      (ChatServer.listens_listening database port)
        (Machine.allOk_of_forall (fun _ _ _ => trivial) _)).1⟩
  obtain ⟨tcp, hlistens⟩ := hlistens
  have hunharmed : Unharmed (ChatServer.listening database port).process.window.sql
      ((programs hio_id host).run (started database port users forms) inputs) :=
    (unharmed_new rfl users forms).run host hstranger hwhole
  obtain ⟨-, hchannel⟩ := hattached
  rw [hlistens.tcp, Option.bind_some] at hchannel
  obtain ⟨reads, hread, hempty⟩ := exists_reads host ⟨hunharmed, hlistens⟩ hchannel
  obtain ⟨deliveries, hend, hup, hqueue⟩ := exists_deliveries host hread now
  have hquiet : ∀ input ∈ List.replicate reads (Input.on_read (.window k c)) ++
      List.replicate deliveries (.deliver now),
        input = .on_read (.window k c) ∨ input = .deliver now := fun input hinput =>
    (List.mem_append.mp hinput).imp List.eq_of_mem_replicate List.eq_of_mem_replicate
  have hevents : eventsOf k (inputs ++ (List.replicate reads (.on_read (.window k c)) ++
      List.replicate deliveries (.deliver now))) = eventsOf k inputs := by
    have hnone : eventsOf k (List.replicate reads (.on_read (.window k c)) ++
        List.replicate deliveries (.deliver now)) = [] := by
      apply List.filterMap_eq_nil_iff.mpr
      intro input hinput
      rcases hquiet input hinput with rfl | rfl <;> rfl
    rw [eventsOf_append, hnone, List.append_nil]
  refine ⟨reads, deliveries, ?_⟩
  have hrun : (programs hio_id host).run (started database port users forms)
      (inputs ++ (List.replicate reads (Input.on_read (.window k c)) ++
        List.replicate deliveries (.deliver now))) = _ :=
    (Machine.run_append ..).trans (Machine.run_append ..)
  dsimp only
  rw [← hevents, hrun]
  refine allShown_of_drained host hunique database port users forms (fun segments hcut => ?_)
    (hevents ▸ hfits) hrun hend.listens.tcp hchannel (hup ▸ hempty) hqueue
  rcases List.mem_append.mp hcut with hbefore | hafter
  · exact hwhole _ segments hbefore
  · rcases hquiet _ hafter with heq | heq <;> cases heq

/-- A window connects and says 'hi', and the server has not read it yet. -/
def arrival : List Input :=
  [.window 0 (.connected 0), .onAccept (.window 0 0), .onCustomEvent 1, .attach 1,
    .window 0 (.sendMsg hiForm)]

theorem fits_arrival : Fits (someUsers 0) (eventsOf 0 arrival) := by
  intro form hform
  obtain rfl : form = hiForm := by simpa [arrival, eventsOf] using hform
  decide

theorem all_can_be_shown_arrival :
    ∃ reads deliveries,
      let inputs := arrival ++ (List.replicate reads (.on_read (.window 0 0)) ++
        List.replicate deliveries (.deliver noon))
      AllShown (.text [49]) ((programs numbering syntaxErrorHost).run
          (started [] (.text [49]) someUsers someForms) inputs).server (numbering (.window 0 0))
        (typedFor 0 (XChatyClient.new (someUsers 0) (someForms 0)).1 (eventsOf 0 arrival))
        ((programs numbering syntaxErrorHost).log (started [] (.text [49]) someUsers someForms)
          inputs) :=
  all_can_be_shown syntaxErrorHost numbering_injective [] (.text [49]) someUsers someForms arrival
    (by simp [arrival]) (by simp [arrival]) 0 0 fits_arrival ⟨rfl, rfl⟩ noon

end Programs

end XChaty.System
