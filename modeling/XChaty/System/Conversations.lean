import Mathlib.Data.Nat.Pairing
import XChaty.System.Streams

/-! What comes of the lines that users type.  Whatever the network does to the segments, the bytes that
the server has read of a connection are a front part of those written; as long as it leaves the
segments of a connection as they were written, the lines that the server has heard on it are a front
part of those typed, and its window shows them after the notice that it has come.  What the server has
not read of a connection that it closes it never reads. -/

namespace XChaty.System

open Qt Protoc ProofKit Chat Hv Server Client

namespace Programs

/-! ### Bytes -/

section Bytes

variable {hio_id : Link → Nat} {Db : Type} (host : Host Db)

theorem bytes_run (hunique : Function.Injective hio_id) {s : Programs Db}
    (hs : s.up = fun _ => []) (inputs : List Input) (link : Link) :
    (readFrom (hio_id link) ((programs hio_id host).log s inputs)).flatten ++
        (((programs hio_id host).run s inputs).up link).flatten =
      (writtenTo link ((programs hio_id host).log s inputs)).flatten := by
  have hkeeps : (programs hio_id host).AllOk (Keeps hio_id fun _ segment => segment) s inputs := by
    refine Machine.allOk_of_forall (fun s input _ => ?_) _
    cases input with
    | recut link segments =>
      intro hcut _
      rw [List.flatMap_id', List.flatMap_id', hcut]
    | window | onMessage | stranger | onAccept | onCustomEvent | attach | on_read | on_close
    | deliver | startBtn => trivial
  have hcarried := carried hunique hkeeps link
  rwa [List.flatMap_id', List.flatMap_id', List.flatMap_id', List.flatMap_id', hs] at hcarried

/-- In every run, and however segments are cut and joined, the bytes that the server has read from a
connection are a front part of those that have been written to it, and the others are in the segments
that it has not read. -/
theorem bytes_conserved (hunique : Function.Injective hio_id) (server : ChatServer Db)
    (users : Nat → User) (forms : Nat → Form) (inputs : List Input) (link : Link) :
    (readFrom (hio_id link)
          ((programs hio_id host).log (new server users forms) inputs)).flatten ++
        (((programs hio_id host).run (new server users forms) inputs).up link).flatten =
      (writtenTo link ((programs hio_id host).log (new server users forms) inputs)).flatten :=
  bytes_run host hunique rfl inputs link

end Bytes

/-! ### Lines -/

/-- The lines in the segments of one connection. -/
def linesIn (id id' : Nat) (segment : QByteArray) : List QString :=
  if id' = id then ChatServer.spoken [segment] else []

theorem spoken_append (segments more : List QByteArray) :
    ChatServer.spoken (segments ++ more) = ChatServer.spoken segments ++ ChatServer.spoken more := by
  rw [ChatServer.spoken, List.map_append, chatTexts, List.filterMap_append]
  rfl

theorem linesIn_self (id : Nat) (segments : List QByteArray) :
    segments.flatMap (linesIn id id) = ChatServer.spoken segments := by
  induction segments with
  | nil => rfl
  | cons segment segments ih =>
    rw [List.flatMap_cons, ih, linesIn, if_pos rfl, ← spoken_append, List.singleton_append]

theorem linesIn_other {id id' : Nat} (h : id' ≠ id) (segments : List QByteArray) :
    segments.flatMap (linesIn id id') = [] :=
  List.flatMap_eq_nil_iff.mpr fun _ _ => if_neg h

theorem spoken_chatWire {m_user : User} {form : Form}
    (hfits : (XChatyClient.chatWire m_user form).length < 2 ^ 31) (rest : QByteArray) :
    ChatServer.spoken [XChatyClient.chatWire m_user form ++ rest] = [form.sendEdit] := by
  have hagrees : ChatyMessage.Agrees ⟨⟨form.now, RequestType.reqChat.code⟩, some (.clientMessage
      { userName := m_user.userName, chatMsg := form.sendEdit, chatRoom := 0 })⟩ := rfl
  have hback := decode_wire hagrees hfits rest
  change chatTexts [(decode (ChatyMessage.wire _ ++ rest)).1] = _
  rw [hback]
  rfl

/-- A type other than that of a chat line, so there is no line. -/
theorem spoken_heartbeatWire (now : QString) (rest : QByteArray) :
    ChatServer.spoken [XChatyClient.heartbeatWire now ++ rest] = [] := by
  have htype : (decode (XChatyClient.heartbeatWire now ++ rest)).1.msgHead.msgType = 255 :=
    decode_msgType _
  have hnone := (decode_agrees (XChatyClient.heartbeatWire now ++ rest)).null_iff.mpr (by
    rw [htype]
    decide)
  simp [ChatServer.spoken, chatTexts, hnone, asChatMsg]

/-- The lines that a window has typed for a channel. -/
def typedFor (c : Nat) (window : XChatyClient) (events : List ClientEvent) : List QString :=
  (itemsOn c (XChatyClient.typedLines window events)).map Form.sendEdit

def Fits (m_user : User) (events : List ClientEvent) : Prop :=
  ∀ form, .sendMsg form ∈ events → (XChatyClient.chatWire m_user form).length < 2 ^ 31

theorem spoken_writes {s : XChatyClient} (hnewest : XChatyClient.Newest s) (c : Nat)
    {events : List ClientEvent} (hfits : Fits s.m_user events) :
    ChatServer.spoken (itemsOn c (XChatyClient.writes (chatyClient.log s events))) =
      typedFor c s events := by
  induction events generalizing s with
  | nil => rfl
  | cons event events ih =>
    obtain ⟨hnext, -, huser⟩ := hnewest.step event
    have hrest := ih hnext (by
      rw [huser]
      exact fun form hform => hfits form (List.mem_cons_of_mem event hform))
    have hnow : ChatServer.spoken (itemsOn c (XChatyClient.writes (chatyClient.step s event).2)) =
        (itemsOn c (s.typed event)).map Form.sendEdit := by
      have hwrote := s.step_wrote event
      generalize (chatyClient.step s event).2 = effects at hwrote
      cases hwrote with
      | @line c' form hc =>
        have hline := spoken_chatWire (hfits form List.mem_cons_self) []
        rw [List.append_nil] at hline
        rw [XChatyClient.typed, hc]
        by_cases hchannel : c' = c
        · simpa [XChatyClient.writes, XChatyClient.Effect.write, itemsOn, hchannel] using hline
        · simp [XChatyClient.writes, XChatyClient.Effect.write, itemsOn, hchannel,
            ChatServer.spoken, chatTexts]
      | @heartbeat t ht hconnected now =>
        have hline := spoken_heartbeatWire now []
        rw [List.append_nil] at hline
        by_cases hchannel : t.channel = c
        · simpa [XChatyClient.writes, XChatyClient.Effect.write, itemsOn, hchannel,
            XChatyClient.typed] using hline
        · simp [XChatyClient.writes, XChatyClient.Effect.write, itemsOn, hchannel,
            XChatyClient.typed, ChatServer.spoken, chatTexts]
      | nothing htyped hwrites hdied =>
        rw [htyped, hwrites]
        rfl
    rw [Machine.log_cons, XChatyClient.writes_append, itemsOn_append, spoken_append, hnow, hrest,
      typedFor, typedFor, XChatyClient.typedLines, itemsOn_append, List.map_append]

section Lines

variable {hio_id : Link → Nat} {Db : Type} (host : Host Db)

/-- What is written to a channel is what its window has written to it. -/
theorem writtenTo_window (k c : Nat) (notes : List Note) :
    writtenTo (.window k c) notes =
      itemsOn c (XChatyClient.writes (notes.flatMap (Note.effect k))) := by
  induction notes with
  | nil => rfl
  | cons note notes ih =>
    rw [writtenTo, List.flatMap_cons, itemsOn_append, ← writtenTo, ih, List.flatMap_cons,
      XChatyClient.writes_append, itemsOn_append]
    refine congrArg (· ++ _) ?_
    cases note with
    | window k' effect =>
      by_cases hk : k' = k
      · subst hk
        simp [Note.wrote, Note.effect, itemsOn, List.filter_map, Function.comp_def]
      · simp [Note.wrote, Note.effect, itemsOn, hk, List.filter_map, Function.comp_def,
          XChatyClient.writes]
    | stranger n segment => rfl
    | server note => rfl

theorem readFrom_eq (id : Nat) (notes : List Note) :
    readFrom id notes =
      ChatServer.buffersOf id (ChatServer.called (notes.flatMap Note.program)) := by
  have hone : ∀ called : List ServerNote, itemsOn id (called.flatMap ChatServer.readBy) =
      ChatServer.buffersOf id called := by
    intro called
    induction called with
    | nil => rfl
    | cons note called ih =>
      rw [List.flatMap_cons, itemsOn_append, ih, ChatServer.buffersOf, ChatServer.buffersOf,
        TcpServer.notesOf, TcpServer.notesOf]
      by_cases hid : note.id = id
      · rw [List.filter_cons_of_pos (by simpa using hid), List.flatMap_cons]
        refine congrArg (· ++ _) ?_
        cases note with
        | queued | onConnection | hio_close => rfl
        | onMessage loop id' buf =>
          have hid : id' = id := hid
          simp [itemsOn, ChatServer.readBy, ChatServer.bufferOf, hid]
      · rw [List.filter_cons_of_neg (by simpa using hid)]
        cases note with
        | queued | onConnection | hio_close => rfl
        | onMessage loop id' buf =>
          have hid : id' ≠ id := hid
          simp [itemsOn, ChatServer.readBy, hid]
  rw [← hone]
  induction notes with
  | nil => rfl
  | cons note notes ih =>
    rw [readFrom, List.flatMap_cons, itemsOn_append, ← readFrom, ih, List.flatMap_cons,
      ChatServer.called, ChatServer.called, List.flatMap_append, List.flatMap_append, itemsOn_append]
    refine congrArg (· ++ _) ?_
    cases note with
    | window | stranger => rfl
    | server note => simp [Note.read, Note.program]

end Lines

/-! ### One conversation -/

section Conversation

variable {hio_id : Link → Nat} {Db : Type} (host : Host Db)

variable (hio_id)

/-- The connections that the server is given by inputs. -/
def given (inputs : List ServerInput) : List Nat :=
  TcpServer.accepted (ChatServer.netInputs inputs)

theorem given_append (inputs more : List ServerInput) :
    given (inputs ++ more) = given inputs ++ given more := by
  rw [given, ChatServer.netInputs, List.filterMap_append, TcpServer.accepted, List.filterMap_append]
  rfl

/-- An input gives the server no connection, or one that has not been accepted before. -/
theorem accepted_step (s : Programs Db) (input : Input) :
    ((programs hio_id host).step s input).1.accepted = s.accepted ∧
        given (s.serverInputs hio_id input) = [] ∨
      ∃ link ∉ s.accepted,
        ((programs hio_id host).step s input).1.accepted = s.accepted ++ [link] ∧
          given (s.serverInputs hio_id input) = [hio_id link] := by
  cases input with
  | window k event =>
    refine .inl ⟨?_, rfl⟩
    simp only [programs, onWindow]
    cases s.faults k <;> rfl
  | onMessage k c beyond =>
    refine .inl ⟨?_, rfl⟩
    simp only [programs, onMessage]
    split
    · split
      · split <;> rfl
      · rfl
    · rfl
  | recut link segments =>
    refine .inl ⟨?_, rfl⟩
    simp only [programs, recut]
    split <;> rfl
  | onAccept link =>
    simp only [programs, serverInputs]
    split
    · rename_i hnew
      exact .inr ⟨link, hnew.1, rfl, rfl⟩
    · exact .inl ⟨rfl, rfl⟩
  | on_read link =>
    simp only [programs, onRead, serverInputs]
    cases s.next hio_id link <;> exact .inl ⟨rfl, rfl⟩
  | stranger | onCustomEvent | attach | on_close | deliver | startBtn => exact .inl ⟨rfl, rfl⟩

theorem accepted_run {s : Programs Db} (h : s.accepted.Nodup) (inputs : List Input) :
    ((programs hio_id host).run s inputs).accepted.Nodup ∧
      ((programs hio_id host).run s inputs).accepted.map hio_id = s.accepted.map hio_id ++
        given ((programs hio_id host).absInputs (serverInputs hio_id) s inputs) := by
  induction inputs generalizing s with
  | nil => exact ⟨h, (List.append_nil _).symm⟩
  | cons input inputs ih =>
    rw [Machine.absInputs, given_append, Machine.run_cons]
    obtain ⟨hsame, hgiven⟩ | ⟨link, hnew, hmore, hgiven⟩ := accepted_step hio_id host s input
    · rw [hgiven, ← hsame]
      exact ih (hsame ▸ h)
    · have hnext : (s.accepted ++ [link]).Nodup := List.concat_eq_append ▸ h.concat hnew
      obtain ⟨hnodup, hmap⟩ := ih (hmore ▸ hnext)
      refine ⟨hnodup, hmap.trans ?_⟩
      rw [hmore, hgiven, List.map_append, List.append_assoc]
      rfl

theorem eventsOf_run (k : Nat) (s : Programs Db) (inputs : List Input) :
    (programs hio_id host).absInputs (fun _ input => eventsOf k [input]) s inputs =
      eventsOf k inputs := by
  induction inputs generalizing s with
  | nil => rfl
  | cons input inputs ih =>
    rw [Machine.absInputs, ih, eventsOf, eventsOf, ← List.filterMap_append]
    rfl

variable {hio_id}

/-- What the server makes of a connection for which `lines` are typed and whose segments `waiting` it
has not read: it has heard a front part of the lines, and its window shows what it has posted. -/
structure Conversation (port : QString) (server : ChatServer Db) (id : Nat) (lines : List QString)
    (waiting : List QByteArray) (notes : List Note) : Prop where
  log : ChatServer.ServerLog port server (notes.flatMap Note.program)
  session : ChatServer.SessionLog id server (notes.flatMap Note.program)
  heard : ChatServer.spoken (readFrom id notes) ++ ChatServer.spoken waiting = lines

section Heard

variable {s : Programs Db}

/-- In a run of the programs the server goes through one run on inputs of its own, in which no
connection is given twice. -/
theorem server_run (hunique : Function.Injective hio_id) (h : s.accepted = []) (inputs : List Input) :
    ∃ given : List ServerInput, (TcpServer.accepted (ChatServer.netInputs given)).Nodup ∧
      ((programs hio_id host).run s inputs).server = (chatServer host).run s.server given ∧
      ((programs hio_id host).log s inputs).flatMap Note.program =
        (chatServer host).log s.server given := by
  obtain ⟨hserver, hprogram⟩ := (simulates_server hio_id host).run (s := s) rfl
    (Machine.allOk_of_forall (fun _ (_ : Input) (_ : _ ∈ inputs) => trivial) _)
  refine ⟨_, ?_, hserver, hprogram⟩
  obtain ⟨hnodup, hgiven⟩ := accepted_run hio_id host (s := s) (h ▸ List.nodup_nil) inputs
  replace hnodup := hnodup.map hunique
  rw [hgiven, h] at hnodup
  exact hnodup

/-- The lines that have been heard on a channel and those on their way are the lines typed for it. -/
theorem heard_run (hunique : Function.Injective hio_id) (hquiet : Quiet s)
    (hup : s.up = fun _ => []) {k c : Nat} (hnewest : XChatyClient.Newest (s.windows k))
    {inputs : List Input}
    (hwhole : ∀ segments, .recut (.window k c) segments ∉ inputs)
    (hfits : Fits (s.windows k).m_user (eventsOf k inputs)) :
    ChatServer.spoken (readFrom (hio_id (.window k c)) ((programs hio_id host).log s inputs)) ++
        ChatServer.spoken (((programs hio_id host).run s inputs).up (.window k c)) =
      typedFor c (s.windows k) (eventsOf k inputs) := by
  have hkeeps : (programs hio_id host).AllOk (Keeps hio_id (linesIn (hio_id (.window k c)))) s
      inputs := by
    refine Machine.allOk_of_forall (fun s input hinput => ?_) _
    cases input with
    | recut link segments =>
      intro _ _
      have hlink : hio_id link ≠ hio_id (.window k c) := fun heq =>
        hwhole segments (hunique heq ▸ hinput)
      rw [linesIn_other hlink, linesIn_other hlink]
    | window | onMessage | stranger | onAccept | onCustomEvent | attach | on_read | on_close
    | deliver | startBtn => trivial
  obtain ⟨-, heffects⟩ := (simulates_window hio_id host k).run ⟨hquiet, rfl⟩
    (Machine.allOk_of_forall (fun _ (_ : Input) (_ : _ ∈ inputs) => trivial) _)
  rw [eventsOf_run] at heffects
  have hcarried := carried hunique hkeeps (.window k c)
  rw [linesIn_self, linesIn_self, linesIn_self, linesIn_self, writtenTo_window, heffects,
    hup] at hcarried
  exact hcarried.trans (spoken_writes hnewest c hfits)

end Heard

/-- The programs when the server has started to listen. -/
def started (database : Db) (port : QString) (users : Nat → User) (forms : Nat → Form) :
    Programs Db :=
  new (ChatServer.listening database port) users forms

theorem quiet_started (database : Db) (port : QString) (users : Nat → User) (forms : Nat → Form) :
    Quiet (started database port users forms) := ⟨rfl, rfl, rfl⟩

/-- What the server has heard on a channel of a window is a front part of the lines typed for it, each
once and in order, and the others are in segments that it has not read, whatever the other windows,
strangers and workers do in between, as long as the network leaves the segments of the channel as
they were written.  The posts of the connection are the notice that it has come, the lines heard, and
the notice that it has gone, and a front part of them is shown. -/
theorem conversation (hunique : Function.Injective hio_id) (database : Db) (port : QString)
    (users : Nat → User) (forms : Nat → Form) (inputs : List Input) (k c : Nat)
    (hwhole : ∀ segments, .recut (.window k c) segments ∉ inputs)
    (hfits : Fits (users k) (eventsOf k inputs)) :
    let s := (programs hio_id host).run (started database port users forms) inputs
    Conversation port s.server (hio_id (.window k c))
      (typedFor c (XChatyClient.new (users k) (forms k)).1 (eventsOf k inputs))
      (s.up (.window k c))
      ((programs hio_id host).log (started database port users forms) inputs) := by
  intro s
  obtain ⟨given, hnodup, hserver, hprogram⟩ := server_run host hunique
    (s := started database port users forms) rfl inputs
  constructor
  case log =>
    rw [hprogram, show s.server = _ from hserver]
    exact ChatServer.serverLog_run host database port given
  case session =>
    rw [hprogram, show s.server = _ from hserver]
    exact ChatServer.serverLog_of_connection host database port given hnodup _
  case heard =>
    obtain ⟨hnewest, huser⟩ := XChatyClient.newest_new (users k) (forms k)
    refine heard_run host hunique (quiet_started database port users forms) rfl hnewest hwhole ?_
    change Fits (XChatyClient.new (users k) (forms k)).1.m_user _
    rw [huser]
    exact hfits

end Conversation

/-! ### Two windows and a stranger -/

def numbering : Link → Nat
  | .window k c => 2 * Nat.pair k c
  | .stranger n => 2 * n + 1

theorem numbering_injective : Function.Injective numbering := by
  intro link link' h
  cases link with
  | window k c =>
    cases link' with
    | window k' c' =>
      have hpair : Nat.pair k c = Nat.pair k' c' := Nat.eq_of_mul_eq_mul_left (by decide) h
      obtain ⟨rfl, rfl⟩ := Nat.pair_eq_pair.mp hpair
      rfl
    | stranger n =>
      simp only [numbering] at h
      omega
  | stranger n =>
    cases link' with
    | window k c =>
      simp only [numbering] at h
      omega
    | stranger n' =>
      simp only [numbering] at h
      exact congrArg Link.stranger (by omega)

/-- A form on which 'hi' has been typed. -/
def hiForm : Form := ⟨.text [104], .text [49], .text [104, 105], .null, fun _ _ => 7⟩

/-- Two windows connect; a stranger sends half a login; the first window says 'hi'. -/
def meeting : List Input :=
  [.window 0 (.connected 0), .window 1 (.connected 0), .stranger 0 [0, 0], .onAccept (.window 0 0),
    .onAccept (.stranger 0), .onCustomEvent 2, .attach 2, .onCustomEvent 1, .attach 1,
    .window 0 (.sendMsg hiForm), .recut (.stranger 0) [[0], [0]], .on_read (.stranger 0),
    .on_read (.window 0 0), .deliver noon, .on_close (.window 0 0)]

def someUsers : Nat → User := fun _ => User.new

def someForms : Nat → Form := fun _ => hiForm

theorem bytes_conserved_meeting :
    (readFrom (numbering (.window 0 0)) ((programs numbering syntaxErrorHost).log
        (new (ChatServer.listening [] (.text [49])) someUsers someForms) meeting)).flatten ++
        (((programs numbering syntaxErrorHost).run
          (new (ChatServer.listening [] (.text [49])) someUsers someForms) meeting).up
            (.window 0 0)).flatten =
      (writtenTo (.window 0 0) ((programs numbering syntaxErrorHost).log
        (new (ChatServer.listening [] (.text [49])) someUsers someForms) meeting)).flatten :=
  bytes_conserved syntaxErrorHost numbering_injective _ _ _ meeting (.window 0 0)

theorem conversation_meeting :
    let s := (programs numbering syntaxErrorHost).run (started [] (.text [49]) someUsers someForms)
      meeting
    Conversation (.text [49]) s.server (numbering (.window 0 0))
      (typedFor 0 (XChatyClient.new (someUsers 0) (someForms 0)).1 (eventsOf 0 meeting))
      (s.up (.window 0 0))
      ((programs numbering syntaxErrorHost).log (started [] (.text [49]) someUsers someForms)
        meeting) := by
  refine conversation syntaxErrorHost numbering_injective [] (.text [49]) someUsers someForms
    meeting 0 0 ?_ ?_
  · simp [meeting]
  · intro form hform
    obtain rfl : form = hiForm := by simpa [meeting, eventsOf] using hform
    decide

end Programs

end XChaty.System
