import XChaty.System.Programs

/-! Runs of all the programs together.  Such a run is a run of the server, a run of each chat window,
and a run of links, one for each connection, that carry what is in the segments: their bytes in every
run, and chat lines as long as the network does not cut or join segments. -/

namespace XChaty.System

open Qt Protoc ProofKit Chat Hv Server Client

@[simp] theorem programs_of_server (notes : List ProgramNote) :
    (notes.map Note.server).flatMap Note.program = notes := by
  induction notes with
  | nil => rfl
  | cons note notes ih => exact congrArg (note :: ·) ih

@[simp] theorem programs_of_window (k : Nat) (effects : List Effect) :
    (effects.map (Note.window k)).flatMap Note.program = [] := by
  induction effects with
  | nil => rfl
  | cons effect effects ih => exact ih

@[simp] theorem effects_of_server (k : Nat) (notes : List ProgramNote) :
    (notes.map Note.server).flatMap (Note.effect k) = [] := by
  induction notes with
  | nil => rfl
  | cons note notes ih => exact ih

theorem effects_of_window (k k' : Nat) (effects : List Effect) :
    (effects.map (Note.window k')).flatMap (Note.effect k) = if k' = k then effects else [] := by
  induction effects with
  | nil => exact (ite_self _).symm
  | cons effect effects ih =>
    rw [List.map_cons, List.flatMap_cons, ih, Note.effect]
    split <;> rfl

namespace Programs

section Runs

variable {Db : Type} {hio_id : Link → Nat} {host : Host Db}

/-! ### The server in a run -/

theorem server_onMessage (s : Programs Db) (k c : Nat) (beyond : List UInt8) :
    (s.onMessage hio_id k c beyond).1.server = s.server ∧
      (s.onMessage hio_id k c beyond).2.flatMap Note.program = [] := by
  unfold onMessage
  split
  · split
    · split
      · rename_i posts _
        have hposts := programs_of_window k (posts.map .post)
        rw [List.map_map] at hposts
        exact ⟨rfl, hposts⟩
      · exact ⟨rfl, rfl⟩
    · exact ⟨rfl, rfl⟩
  · exact ⟨rfl, rfl⟩

theorem server_onWindow (s : Programs Db) (k : Nat) (event : ClientEvent) :
    (s.onWindow k event).1.server = s.server ∧
      (s.onWindow k event).2.flatMap Note.program = [] := by
  rw [onWindow]
  split
  · exact ⟨rfl, rfl⟩
  · exact ⟨rfl, programs_of_window k _⟩

theorem server_recut (s : Programs Db) (link : Link) (segments : List QByteArray) :
    (s.recut link segments).server = s.server := by
  rw [recut]
  split <;> rfl

theorem serve_eq (s : Programs Db) (input : ServerInput) :
    (s.serve host input).1.server = (chatServer host).run s.server [input] ∧
      (s.serve host input).2.flatMap Note.program = (chatServer host).log s.server [input] := by
  rw [Machine.log_singleton]
  exact ⟨rfl, programs_of_server _⟩

variable (hio_id host)

/-- Together with the others, the server does what it does on its inputs alone. -/
theorem simulates_server :
    (programs hio_id host).Simulates (chatServer host) (fun s server => s.server = server)
      (fun _ _ => True) (serverInputs hio_id) Note.program := by
  have hstep : ∀ (s : Programs Db) (input : Input),
      ((programs hio_id host).step s input).1.server =
          (chatServer host).run s.server (s.serverInputs hio_id input) ∧
        ((programs hio_id host).step s input).2.flatMap Note.program =
          (chatServer host).log s.server (s.serverInputs hio_id input) := by
    intro s input
    cases input with
    | window k event => exact server_onWindow s k event
    | onMessage k c beyond => exact server_onMessage s k c beyond
    | stranger n segment => exact ⟨rfl, rfl⟩
    | recut link segments => exact ⟨server_recut s link segments, rfl⟩
    | onAccept link =>
      simp only [programs, serverInputs]
      split
      · exact serve_eq _ _
      · exact ⟨rfl, rfl⟩
    | onCustomEvent loop => exact serve_eq s _
    | attach loop => exact serve_eq s _
    | on_read link =>
      simp only [programs, serverInputs, onRead]
      cases s.next hio_id link with
      | none => exact ⟨rfl, rfl⟩
      | some segment => exact serve_eq _ _
    | on_close link => exact serve_eq s _
    | deliver now => exact serve_eq s _
    | startBtn form => exact serve_eq s _
  constructor
  · rintro s server input rfl -
    exact (hstep s input).1
  · rintro s server input rfl -
    exact (hstep s input).2

/-! ### A window in a run -/

/-- The server has written nothing, and no window has died. -/
structure Quiet (s : Programs Db) : Prop where
  faults : s.faults = fun _ => none
  down : s.down = fun _ => []
  written : s.server.process.window.written = []

variable {hio_id host}

theorem fatal_eq_none {effects : List Effect} (h : ∀ fault, .died fault ∉ effects) :
    fatal effects = none := by
  refine List.findSome?_eq_none_iff.mpr fun effect heffect => ?_
  cases effect with
  | append | overWrite | post | written => rfl
  | died fault => exact absurd heffect (h fault)

theorem Quiet.serve {s : Programs Db} (h : Quiet s) (input : ServerInput) :
    Quiet (s.serve host input).1 := by
  have hwritten : ((chatServer host).step s.server input).1.process.window.written = [] := by
    rw [ChatServer.process_step, written_run]
    exact h.written
  refine ⟨h.faults, ?_, hwritten⟩
  rw [Programs.serve]
  dsimp only
  rw [hwritten, List.drop_nil, put_nil]
  exact h.down

theorem Quiet.onWindow {s : Programs Db} (h : Quiet s) (k : Nat) (event : ClientEvent) :
    Quiet (s.onWindow k event).1 ∧
      (s.onWindow k event).1.windows =
        Function.update s.windows k (chatyClient.step (s.windows k) event).1 ∧
      (s.onWindow k event).2 = (chatyClient.step (s.windows k) event).2.map (.window k) := by
  have hfatal := fatal_eq_none ((s.windows k).step_wrote event).ledger.alive
  rw [Programs.onWindow, h.faults]
  refine ⟨⟨?_, h.down, h.written⟩, rfl, rfl⟩
  dsimp only
  rw [hfatal]
  exact Function.update_eq_self k _

theorem Quiet.onMessage {s : Programs Db} (h : Quiet s) (k c : Nat) (beyond : List UInt8) :
    s.onMessage hio_id k c beyond = (s, []) := by
  rw [Programs.onMessage, h.down]
  split
  · rename_i hnone
    cases hnone
  · rfl

variable (hio_id host)

/-- Together with the others, a window does what it does on its events alone. -/
theorem simulates_window (k : Nat) :
    (programs hio_id host).Simulates chatyClient (fun s window => Quiet s ∧ s.windows k = window)
      (fun _ _ => True) (fun _ input => eventsOf k [input]) (Note.effect k) := by
  have hserve : ∀ {s : Programs Db}, Quiet s → ∀ input,
      (Quiet (s.serve host input).1 ∧ (s.serve host input).1.windows k = s.windows k) ∧
        (s.serve host input).2.flatMap (Note.effect k) = [] := fun hs input =>
    ⟨⟨hs.serve input, rfl⟩, effects_of_server k _⟩
  have hstep : ∀ (s : Programs Db) (input : Input), Quiet s →
      (Quiet ((programs hio_id host).step s input).1 ∧
        ((programs hio_id host).step s input).1.windows k =
          chatyClient.run (s.windows k) (eventsOf k [input])) ∧
        ((programs hio_id host).step s input).2.flatMap (Note.effect k) =
          chatyClient.log (s.windows k) (eventsOf k [input]) := by
    intro s input hs
    cases input with
    | window k' event =>
      obtain ⟨hquiet, hwindows, hnotes⟩ := hs.onWindow k' event
      change (Quiet (s.onWindow k' event).1 ∧ (s.onWindow k' event).1.windows k = _) ∧
        (s.onWindow k' event).2.flatMap _ = _
      rw [hwindows, hnotes, effects_of_window]
      by_cases hk : k' = k
      · subst hk
        simp [eventsOf, hquiet]
      · simp [eventsOf, hquiet, hk, Function.update_of_ne (Ne.symm hk)]
    | onMessage k' c beyond =>
      change (Quiet (s.onMessage hio_id k' c beyond).1 ∧ _) ∧ _
      simp only [programs, hs.onMessage]
      exact ⟨⟨hs, rfl⟩, rfl⟩
    | stranger n segment => exact ⟨⟨⟨hs.faults, hs.down, hs.written⟩, rfl⟩, rfl⟩
    | recut link segments =>
      simp only [programs, recut]
      split
      · exact ⟨⟨⟨hs.faults, hs.down, hs.written⟩, rfl⟩, rfl⟩
      · exact ⟨⟨hs, rfl⟩, rfl⟩
    | onAccept link =>
      have hquiet : Quiet { s with accepted := s.accepted ++ [link] } :=
        ⟨hs.faults, hs.down, hs.written⟩
      simp only [programs]
      split
      · exact hserve hquiet _
      · exact ⟨⟨hs, rfl⟩, rfl⟩
    | onCustomEvent loop => exact hserve hs _
    | attach loop => exact hserve hs _
    | on_read link =>
      have hquiet : Quiet { s with up := Function.update s.up link (s.up link).tail } :=
        ⟨hs.faults, hs.down, hs.written⟩
      simp only [programs, onRead]
      cases s.next hio_id link with
      | none => exact ⟨⟨hs, rfl⟩, rfl⟩
      | some segment => exact hserve hquiet _
    | on_close link => exact hserve hs _
    | deliver now => exact hserve hs _
    | startBtn form => exact hserve hs _
  constructor
  · rintro s window input ⟨hs, rfl⟩ -
    exact (hstep s input hs).1
  · rintro s window input ⟨hs, rfl⟩ -
    exact (hstep s input hs).2

end Runs

/-! ### What is on the links -/

end Programs

/-- What is put on connections. -/
def Note.wrote : Note → List (Link × QByteArray)
  | window k effect => (XChatyClient.writes [effect]).map fun w => (.window k w.1, w.2)
  | stranger n segment => [(.stranger n, segment)]
  | server _ => []

/-- What the server reads, with the ids of the connections. -/
def Note.read : Note → List (Nat × QByteArray)
  | server note => note.netNote.flatMap ChatServer.readBy
  | window _ _ | stranger _ _ => []

namespace Programs

section Links

variable {Db : Type} (hio_id : Link → Nat) (host : Host Db)

theorem readIn_program (notes : List Note) :
    ChatServer.readIn (notes.flatMap Note.program) = notes.flatMap Note.read := by
  induction notes with
  | nil => rfl
  | cons note notes ih =>
    rw [List.flatMap_cons, ChatServer.readIn_append, ih, List.flatMap_cons]
    refine congrArg (· ++ _) ?_
    cases note with
    | window | stranger => rfl
    | server note =>
      rw [Note.program, ChatServer.readIn, List.flatMap_singleton, Note.read]

/-- The process of a step is the process of `onMsg` on what the server reads. -/
theorem process_next (s : Programs Db) (input : Input) :
    ((programs hio_id host).step s input).1.server.process =
      (Server.server host).run s.server.process
        (((programs hio_id host).step s input).2.flatMap Note.read) := by
  have hserver := (simulates_server hio_id host).keeps s s.server input rfl trivial
  have hprogram := (simulates_server hio_id host).notes s s.server input rfl trivial
  rw [hserver, ChatServer.process_run, ← hprogram, readIn_program]

-- What a segment of a connection holds.
variable {α : Type} (parts : Nat → QByteArray → List α)

/-- The sending and the receiving of parts that can be seen of a note. -/
def onLinks (note : Note) : List (LinkNote Nat α) :=
  allSent (unpack hio_id parts note.wrote) ++ allReceived (unpack id parts note.read)

/-- The moves of parts that an input stands for. -/
def moves (s : Programs Db) : Input → List (LinkMove Nat α)
  | .window k event =>
    match s.faults k with
    | some _ => []
    | none => sends (unpack hio_id parts
      ((XChatyClient.writes (chatyClient.step (s.windows k) event).2).map fun w =>
        (.window k w.1, w.2)))
  | .stranger n segment => sends (unpack hio_id parts [(.stranger n, segment)])
  | .on_read link => (s.next hio_id link).toList.flatMap fun segment =>
    (parts (hio_id link) segment).map fun _ => .receive (hio_id link)
  | .onMessage _ _ _ | .recut _ _ | .onAccept _ | .onCustomEvent _ | .attach _ | .on_close _
  | .deliver _ | .startBtn _ => []

/-- Segments that are cut or joined hold the same parts as before. -/
def Keeps (s : Programs Db) : Input → Prop
  | .recut link segments => segments.flatten = (s.up link).flatten → [] ∉ segments →
    segments.flatMap (parts (hio_id link)) = (s.up link).flatMap (parts (hio_id link))
  | _ => True

variable {hio_id host parts}

theorem onLinks_serve (s : Programs Db) (input : ServerInput) :
    (s.serve host input).2.flatMap (onLinks hio_id parts) =
      allReceived (unpack id parts (s.server.treated input)) := by
  rw [← ChatServer.read_step host]
  change (((chatServer host).step s.server input).2.map Note.server).flatMap _ = _
  generalize ((chatServer host).step s.server input).2 = notes
  induction notes with
  | nil => rfl
  | cons note notes ih =>
    rw [List.map_cons, List.flatMap_cons, ih, ← List.singleton_append, ChatServer.readIn_append,
      unpack_append, allReceived, allReceived, List.map_append]
    simp only [onLinks, Note.wrote, Note.read, ChatServer.readIn, List.flatMap_singleton]
    rfl

theorem treated_next {s : Programs Db} {link : Link} {segment : QByteArray}
    (h : s.next hio_id link = some segment) :
    s.server.treated (.net (.on_read (hio_id link) segment)) = [(hio_id link, segment)] ∧
      ∃ rest, s.up link = segment :: rest := by
  rw [next] at h
  split at h
  · rename_i hreads
    obtain ⟨hfault, hchannel⟩ := hreads
    refine ⟨?_, List.head?_eq_some_iff.mp h⟩
    cases htcp : s.server.tcp with
    | none =>
      rw [htcp] at hchannel
      cases hchannel
    | some tcp =>
      rw [htcp] at hchannel
      simp only [ChatServer.treated, hfault, htcp, ChatServer.reads]
      exact if_pos hchannel
  · cases h

theorem onLinks_window (k : Nat) (effects : List Effect) :
    (effects.map (Note.window k)).flatMap (onLinks hio_id parts) =
      allSent (unpack hio_id parts
        ((XChatyClient.writes effects).map fun w => (.window k w.1, w.2))) := by
  induction effects with
  | nil => rfl
  | cons effect effects ih =>
    have hcons : XChatyClient.writes (effect :: effects) =
        XChatyClient.writes [effect] ++ XChatyClient.writes effects :=
      XChatyClient.writes_append [effect] effects
    rw [List.map_cons, List.flatMap_cons, ih, hcons, List.map_append, unpack_append, allSent,
      allSent, List.map_append, onLinks]
    exact congrArg (· ++ _) (List.append_nil _)

variable (hio_id parts) in
theorem onLinks_onMessage (s : Programs Db) (k c : Nat) (beyond : List UInt8) :
    (s.onMessage hio_id k c beyond).1.up = s.up ∧
      (s.onMessage hio_id k c beyond).2.flatMap (onLinks hio_id parts) = [] := by
  unfold onMessage
  split
  · split
    · split
      · rename_i posts _
        refine ⟨rfl, List.flatMap_eq_nil_iff.mpr fun note hnote => ?_⟩
        obtain ⟨post, -, rfl⟩ := List.mem_map.mp hnote
        rfl
      · exact ⟨rfl, rfl⟩
    · exact ⟨rfl, rfl⟩
  · exact ⟨rfl, rfl⟩

/-- On the links, the run of the programs is a run that sends and receives parts in order. -/
theorem simulates_links (hunique : Function.Injective hio_id) :
    (programs hio_id host).Simulates links (fun s items => Carries hio_id parts s.up items)
      (Keeps hio_id parts) (moves hio_id parts) (onLinks hio_id parts) := by
  have hserve : ∀ {s : Programs Db} {items : Nat → List α} (input : ServerInput),
      Carries hio_id parts s.up items → s.server.treated input = [] →
        Carries hio_id parts (s.serve host input).1.up (links.run items []) ∧
          (s.serve host input).2.flatMap (onLinks hio_id parts) = links.log items [] :=
    fun input h htreated => ⟨h, by rw [onLinks_serve, htreated]; rfl⟩
  have hstep : ∀ (s : Programs Db) (items : Nat → List α) (input : Input),
      Carries hio_id parts s.up items → s.Keeps hio_id parts input →
        Carries hio_id parts ((programs hio_id host).step s input).1.up
            (links.run items (s.moves hio_id parts input)) ∧
          ((programs hio_id host).step s input).2.flatMap (onLinks hio_id parts) =
            links.log items (s.moves hio_id parts input) := by
    intro s items input h hkeeps
    cases input with
    | window k event =>
      simp only [programs, onWindow, moves]
      cases s.faults k with
      | some fault => exact ⟨h, rfl⟩
      | none =>
        obtain ⟨hcarries, hlog⟩ := h.sends hunique
          ((XChatyClient.writes (chatyClient.step (s.windows k) event).2).map fun w =>
            (Link.window k w.1, w.2))
        exact ⟨hcarries, (onLinks_window k _).trans hlog.symm⟩
    | onMessage k c beyond =>
      obtain ⟨hup, hnotes⟩ := onLinks_onMessage hio_id parts s k c beyond
      refine ⟨?_, hnotes⟩
      change Carries hio_id parts (s.onMessage hio_id k c beyond).1.up _
      rw [hup]
      exact h
    | stranger n segment =>
      obtain ⟨hcarries, hlog⟩ := h.sends hunique [(.stranger n, segment)]
      refine ⟨hcarries, Eq.trans ?_ hlog.symm⟩
      exact (List.append_nil _).trans (List.append_nil _)
    | recut link segments =>
      refine ⟨?_, rfl⟩
      change Carries hio_id parts (s.recut link segments).up items
      rw [recut]
      split
      · rename_i hcut
        exact h.repack (hkeeps hcut.1 hcut.2)
      · exact h
    | onAccept link =>
      simp only [programs]
      split
      · exact hserve _ h (ChatServer.treated_of_reads_nil fun _ => rfl)
      · exact ⟨h, rfl⟩
    | onCustomEvent loop => exact hserve _ h (ChatServer.treated_of_reads_nil fun _ => rfl)
    | attach loop => exact hserve _ h (ChatServer.treated_of_reads_nil fun _ => rfl)
    | on_read link =>
      simp only [programs, onRead, moves]
      cases hnext : s.next hio_id link with
      | none => exact ⟨h, rfl⟩
      | some segment =>
        obtain ⟨htreated, rest, hqueue⟩ := treated_next hnext
        obtain ⟨hcarries, hlog⟩ := h.receives hunique hqueue
        simp only [Option.toList_some, List.flatMap_cons, List.flatMap_nil, List.append_nil]
        refine ⟨?_, ?_⟩
        · change Carries hio_id parts (Function.update s.up link (s.up link).tail) _
          rw [hqueue]
          exact hcarries
        · rw [hlog, onLinks_serve]
          change allReceived (unpack id parts (s.server.treated _)) = _
          rw [htreated, unpack, List.flatMap_cons, List.flatMap_nil, List.append_nil, allReceived,
            List.map_map]
          rfl
    | on_close link => exact hserve _ h (ChatServer.treated_of_reads_nil fun _ => rfl)
    | deliver now => exact hserve _ h rfl
    | startBtn form => exact hserve _ h rfl
  constructor
  · exact fun s items input h hkeeps => (hstep s items input h hkeeps).1
  · exact fun s items input h hkeeps => (hstep s items input h hkeeps).2

end Links

end Programs

/-! ### Segments of a kind -/

namespace Programs

/-- All that is on its way to the server is of a kind. -/
def OnWay {Db : Type} (P : QByteArray → Prop) (s : Programs Db) : Prop :=
  ∀ link, ∀ segment ∈ s.up link, P segment

/-- What an input puts on its way is of a kind. -/
def Brings {Db : Type} (P : QByteArray → Prop) (s : Programs Db) : Input → Prop
  | .window k event => ∀ w ∈ XChatyClient.writes (chatyClient.step (s.windows k) event).2, P w.2
  | .stranger _ segment => P segment
  | .recut _ segments => ∀ segment ∈ segments, P segment
  | .onMessage _ _ _ | .onAccept _ | .onCustomEvent _ | .attach _ | .on_read _ | .on_close _
  | .deliver _ | .startBtn _ => True

section Kinds

variable (hio_id : Link → Nat) {Db : Type} (host : Host Db) {P : QByteArray → Prop}

theorem read_serve (s : Programs Db) (input : ServerInput) :
    (s.serve host input).2.flatMap Note.read = s.server.treated input := by
  rw [← ChatServer.read_step host, ← readIn_program]
  exact congrArg ChatServer.readIn (programs_of_server _)

/-- The server reads what is on its way, so all that it reads is of the kind. -/
theorem OnWay.step {s : Programs Db} (h : OnWay P s) (input : Input) (hnew : s.Brings P input) :
    OnWay P ((programs hio_id host).step s input).1 ∧
      ∀ read ∈ ((programs hio_id host).step s input).2.flatMap Note.read, P read.2 := by
  have hput : ∀ parcels : List (Link × QByteArray), (∀ parcel ∈ parcels, P parcel.2) →
      ∀ link, ∀ segment ∈ put s.up parcels link, P segment := by
    intro parcels hparcels link segment hsegment
    rcases List.mem_append.mp hsegment with hold | hsent
    · exact h link segment hold
    · obtain ⟨parcel, hparcel, rfl⟩ := List.mem_map.mp hsent
      exact hparcels parcel (List.mem_filter.mp hparcel).1
  have hserve : ∀ (t : Programs Db) (input : ServerInput), OnWay P t →
      (∀ read ∈ t.server.treated input, P read.2) → OnWay P (t.serve host input).1 ∧
        ∀ read ∈ (t.serve host input).2.flatMap Note.read, P read.2 := by
    intro t input ht hreads
    rw [read_serve]
    exact ⟨ht, hreads⟩
  have hquiet : ∀ (t : Programs Db) (input : ServerInput), OnWay P t →
      t.server.treated input = [] → OnWay P (t.serve host input).1 ∧
        ∀ read ∈ (t.serve host input).2.flatMap Note.read, P read.2 := by
    intro t input ht hnone
    refine hserve t input ht fun read hread => ?_
    rw [hnone] at hread
    cases hread
  have hidle : OnWay P s ∧ ∀ read ∈ ([] : List Note).flatMap Note.read, P read.2 :=
    ⟨h, fun read hread => absurd hread List.not_mem_nil⟩
  cases input with
  | window k event =>
    simp only [programs, onWindow]
    cases s.faults k with
    | some fault => exact hidle
    | none =>
      refine ⟨hput _ fun parcel hparcel => ?_, fun read hread => ?_⟩
      · obtain ⟨w, hw, rfl⟩ := List.mem_map.mp hparcel
        exact hnew w hw
      · obtain ⟨note, hnote, hmem⟩ := List.mem_flatMap.mp hread
        obtain ⟨effect, -, rfl⟩ := List.mem_map.mp hnote
        cases hmem
  | onMessage k c beyond =>
    have hread : ((s.onMessage hio_id k c beyond).2.flatMap Note.read) = [] := by
      rw [← readIn_program, (server_onMessage s k c beyond).2]
      rfl
    refine ⟨?_, fun read hmem => ?_⟩
    · change OnWay P (s.onMessage hio_id k c beyond).1
      rw [OnWay, (onLinks_onMessage hio_id (fun _ segment => [segment]) s k c beyond).1]
      exact h
    · change read ∈ (s.onMessage hio_id k c beyond).2.flatMap Note.read at hmem
      rw [hread] at hmem
      cases hmem
  | stranger n segment =>
    refine ⟨hput _ fun parcel hparcel => ?_, hidle.2⟩
    rw [List.mem_singleton.mp hparcel]
    exact hnew
  | recut link segments =>
    refine ⟨fun link' segment hsegment => ?_, hidle.2⟩
    change segment ∈ (s.recut link segments).up link' at hsegment
    rw [recut] at hsegment
    split at hsegment
    · change segment ∈ Function.update s.up link segments link' at hsegment
      by_cases hlink : link' = link
      · subst hlink
        rw [Function.update_self] at hsegment
        exact hnew segment hsegment
      · rw [Function.update_of_ne hlink] at hsegment
        exact h link' segment hsegment
    · exact h link' segment hsegment
  | onAccept link =>
    simp only [programs]
    split
    · exact hquiet { s with accepted := s.accepted ++ [link] } _ h
        (ChatServer.treated_of_reads_nil fun _ => rfl)
    · exact hidle
  | onCustomEvent loop => exact hquiet s _ h (ChatServer.treated_of_reads_nil fun _ => rfl)
  | attach loop => exact hquiet s _ h (ChatServer.treated_of_reads_nil fun _ => rfl)
  | on_read link =>
    simp only [programs, onRead]
    cases hnext : s.next hio_id link with
    | none => exact hidle
    | some segment =>
      obtain ⟨htreated, rest, hqueue⟩ := treated_next hnext
      refine hserve { s with up := Function.update s.up link (s.up link).tail } _
        (fun link' segment' hsegment' => ?_) fun read hread => ?_
      · change segment' ∈ Function.update s.up link (s.up link).tail link' at hsegment'
        by_cases hlink : link' = link
        · subst hlink
          rw [Function.update_self] at hsegment'
          exact h link' segment' (List.mem_of_mem_tail hsegment')
        · rw [Function.update_of_ne hlink] at hsegment'
          exact h link' segment' hsegment'
      · change read ∈ s.server.treated _ at hread
        rw [htreated] at hread
        obtain rfl := List.mem_singleton.mp hread
        exact h link segment (hqueue ▸ List.mem_cons_self)
  | on_close link => exact hquiet s _ h (ChatServer.treated_of_reads_nil fun _ => rfl)
  | deliver now => exact hquiet s _ h rfl
  | startBtn form => exact hquiet s _ h rfl

end Kinds

end Programs

/-! ### Read and written -/

/-- What has been put on a connection. -/
def writtenTo (link : Link) (notes : List Note) : List QByteArray :=
  itemsOn link (notes.flatMap Note.wrote)

/-- What the server has read from a connection. -/
def readFrom (id : Nat) (notes : List Note) : List QByteArray :=
  itemsOn id (notes.flatMap Note.read)

namespace Programs

section Account

variable {Db : Type} {hio_id : Link → Nat} {host : Host Db}
variable {α : Type} {parts : Nat → QByteArray → List α}

theorem sent_onLinks (hunique : Function.Injective hio_id) (link : Link) (notes : List Note) :
    (notes.flatMap (onLinks hio_id parts)).flatMap (LinkNote.sentOn (hio_id link)) =
      (writtenTo link notes).flatMap (parts (hio_id link)) := by
  induction notes with
  | nil => rfl
  | cons note notes ih =>
    rw [writtenTo, List.flatMap_cons, List.flatMap_cons, List.flatMap_append, itemsOn_append,
      List.flatMap_append, ih, writtenTo, onLinks, List.flatMap_append, sentOn_allReceived,
      List.append_nil, sentOn_allSent, itemsOn_unpack hunique]

theorem received_onLinks (id : Nat) (notes : List Note) :
    (notes.flatMap (onLinks hio_id parts)).flatMap (LinkNote.receivedOn id) =
      (readFrom id notes).flatMap (parts id) := by
  induction notes with
  | nil => rfl
  | cons note notes ih =>
    rw [readFrom, List.flatMap_cons, List.flatMap_cons, List.flatMap_append, itemsOn_append,
      List.flatMap_append, ih, readFrom, onLinks, List.flatMap_append, receivedOn_allSent,
      List.nil_append, receivedOn_allReceived]
    exact congrArg (· ++ _) (itemsOn_unpack Function.injective_id id note.read)

/-- As long as segments are not cut or joined so that they hold other parts, the parts that have been
read from a connection and those on their way are the parts that were on their way at first and those
that have been written to it. -/
theorem carried (hunique : Function.Injective hio_id) {s : Programs Db} {inputs : List Input}
    (hkeeps : (programs hio_id host).AllOk (Keeps hio_id parts) s inputs) (link : Link) :
    (readFrom (hio_id link) ((programs hio_id host).log s inputs)).flatMap (parts (hio_id link)) ++
        (((programs hio_id host).run s inputs).up link).flatMap (parts (hio_id link)) =
      (s.up link).flatMap (parts (hio_id link)) ++
        (writtenTo link ((programs hio_id host).log s inputs)).flatMap (parts (hio_id link)) := by
  obtain ⟨items, hitems⟩ : ∃ items, Carries hio_id parts s.up items :=
    ⟨Function.extend hio_id (fun link => (s.up link).flatMap (parts (hio_id link))) fun _ => [],
      fun link => hunique.extend_apply _ _ link⟩
  obtain ⟨hend, hlog⟩ := (simulates_links hunique).run hitems hkeeps
  have hfifo := links_fifo (hio_id link) items
    ((programs hio_id host).absInputs (moves hio_id parts) s inputs)
  rw [← hlog, received_onLinks, sent_onLinks hunique, hend link, hitems link] at hfifo
  exact hfifo

end Account

end Programs

end XChaty.System
