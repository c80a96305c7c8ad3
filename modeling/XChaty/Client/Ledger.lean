import XChaty.Client.Heartbeats
import XChaty.ProofKit.History
import XChaty.ProofKit.Tables

/-! What the chat window of a client writes over a whole run: each line that is typed while it is
connected goes out once, in order, to the newest connection, everything else is a heartbeat, and no
connection ever has more than two timers. -/

namespace XChaty.Client.XChatyClient

open Qt Protoc Hv ProofKit

def Effect.write : Effect → List (Nat × QByteArray)
  | .written c data => [(c, data)]
  | .append _ | .overWrite _ | .post _ | .died _ => []

/-- The bytes that are written to channels, in order. -/
def writes (effects : List Effect) : List (Nat × QByteArray) := effects.flatMap Effect.write

def chatWire (m_user : User) (form : Form) : QByteArray :=
  ChatyMessage.wire ⟨⟨form.now, RequestType.reqChat.code⟩, some (.clientMessage
    { userName := m_user.userName, chatMsg := form.sendEdit, chatRoom := 0 })⟩

def heartbeatWire (now : QString) : QByteArray :=
  ChatyMessage.wire ⟨⟨now, RequestType.reqHb.code⟩, none⟩

/-- The line of an event, with the channel that it is typed for; no channel is connected at other
clicks. -/
def typed (s : XChatyClient) : ClientEvent → List (Nat × Form)
  | .sendMsg form => s.connectedChannel.toList.map fun c => (c, form)
  | .connected _ | .closed _ | .tick _ _ => []

/-- The lines of a run. -/
def typedLines (s : XChatyClient) : List ClientEvent → List (Nat × Form)
  | [] => []
  | event :: events => s.typed event ++ typedLines (chatyClient.step s event).1 events

/-! ### One step -/

theorem chatBytes_eq (m_user : User) (form : Form) :
    chatBytes form.now { chatMsg := form.sendEdit, userName := m_user.userName, chatRoom := 0 } =
      .ok (chatWire m_user form) := by
  have hagrees : ChatyMessage.Agrees ⟨⟨form.now, RequestType.reqChat.code⟩, some (.clientMessage
      { userName := m_user.userName, chatMsg := form.sendEdit, chatRoom := 0 })⟩ := rfl
  exact serrialize_of_agrees hagrees

theorem heartbeat_agrees (now : QString) :
    ChatyMessage.Agrees ⟨⟨now, RequestType.reqHb.code⟩, none⟩ :=
  show ¬IsUserType 255 ∧ ¬IsChatType 255 by decide

theorem heartbeatBytes_eq (now : QString) : heartbeatBytes now = .ok (heartbeatWire now) :=
  serrialize_of_agrees (heartbeat_agrees now)

/-- What an event has the client write: the line that is typed, or a heartbeat. -/
inductive Wrote (s : XChatyClient) : ClientEvent → List Effect → Prop
  | line {c : Nat} (form : Form) (hc : s.connectedChannel = some c) :
    Wrote s (.sendMsg form) [.written c (chatWire s.m_user form)]
  | heartbeat {t : Timer} (ht : t ∈ s.timers) (hconnected : s.IsConnected t.channel)
    (now : QString) : Wrote s (.tick t.timerId now) [.written t.channel (heartbeatWire now)]
  | nothing {event : ClientEvent} {effects : List Effect} (htyped : s.typed event = [])
    (hwrites : writes effects = []) (hdied : ∀ fault, .died fault ∉ effects) :
    Wrote s event effects

theorem sendMsg_wrote (s : XChatyClient) (form : Form) :
    Wrote s (.sendMsg form) (s.sendMsg form).2 := by
  rw [sendMsg]
  cases hconnected : s.connectedChannel with
  | some c =>
    dsimp only
    rw [chatBytes_eq]
    exact .line form hconnected
  | none =>
    have htyped : s.typed (.sendMsg form) = [] := by
      rw [typed, hconnected]
      rfl
    simp only [initConnect]
    by_cases htexts : form.hostEdit.units = [] ∨ form.portEdit.units = []
    · rw [if_pos htexts]
      exact .nothing htyped rfl fun fault => by simp
    · rw [if_neg htexts]
      by_cases hconnfd : form.createsocket form.portEdit form.hostEdit < 0
      · rw [if_pos hconnfd]
        exact .nothing htyped rfl fun fault => List.not_mem_nil
      · rw [if_neg hconnfd]
        exact .nothing htyped rfl fun fault => List.not_mem_nil

theorem onConnection_wrote (s t : XChatyClient) {event : ClientEvent} (htyped : s.typed event = [])
    (tid c : Nat) : Wrote s event (t.onConnection tid c).2 :=
  .nothing htyped rfl fun fault hmem => by cases List.mem_singleton.mp hmem

theorem onEvent_wrote (s : XChatyClient) (c : Nat) (event : Event) {event' : ClientEvent}
    (htyped : s.typed event' = []) : Wrote s event' (s.onEvent c event).2 := by
  have hnone : Wrote s event' [] := .nothing htyped rfl fun fault => List.not_mem_nil
  rw [onEvent]
  cases s.channels[c]? with
  | none => exact hnone
  | some channel =>
    dsimp only
    split
    · split
      · exact hnone
      · exact onConnection_wrote s _ htyped _ _
    · split
      · exact hnone
      · exact onConnection_wrote s _ htyped _ _
    · exact hnone

theorem onTimer_wrote (s : XChatyClient) (timerId : TimerID) (now : QString) :
    Wrote s (.tick timerId now) (s.onTimer timerId now).2 := by
  rw [onTimer]
  cases hfind : s.timers.find? fun timer => timer.timerId = timerId with
  | none => exact .nothing rfl rfl fun fault => List.not_mem_nil
  | some t =>
    have hid := List.find?_some hfind
    obtain rfl : t.timerId = timerId := of_decide_eq_true hid
    dsimp only
    by_cases hconnected : s.IsConnected t.channel
    · rw [if_pos hconnected, heartbeatBytes_eq]
      exact .heartbeat (List.mem_of_find?_eq_some hfind) hconnected now
    · rw [if_neg hconnected]
      exact .nothing rfl rfl fun fault => List.not_mem_nil

theorem step_wrote (s : XChatyClient) (event : ClientEvent) :
    Wrote s event (chatyClient.step s event).2 := by
  cases event with
  | sendMsg form => exact sendMsg_wrote s form
  | connected c => exact onEvent_wrote s c .connected rfl
  | closed c => exact onEvent_wrote s c .closed rfl
  | tick timerId now => exact onTimer_wrote s timerId now

/-! ### The newest connection -/

/-- The client that lines go to is the last one made, and its channel the last one made. -/
structure Newest (s : XChatyClient) : Prop where
  beats : Beats s
  client : ∀ n, s.m_client = some n → n + 1 = s.clients.length
  channel : ∀ n c, s.m_client = some n → s.clients[n]?.bind HvClient.channel = some c →
    c + 1 = s.channels.length

theorem Newest.connectedChannel {s : XChatyClient} (h : Newest s) {c : Nat}
    (hc : s.connectedChannel = some c) : c + 1 = s.channels.length := by
  obtain ⟨hchannel, -⟩ := Option.filter_eq_some_iff.mp hc
  obtain ⟨loop, hloop, hc⟩ := Option.bind_eq_some_iff.mp hchannel
  obtain ⟨n, hn, hget⟩ := Option.bind_eq_some_iff.mp hloop
  refine h.channel n c hn ?_
  rw [hget]
  exact hc

theorem Newest.change {s s' : XChatyClient} {event : ClientEvent} (h : Newest s)
    (hchange : Change s event s') :
    Newest s' ∧ s.channels.length ≤ s'.channels.length ∧ s'.m_user = s.m_user := by
  have hbeats := hchange.beats h.beats
  cases hchange with
  | same => exact ⟨h, Nat.le_refl _, rfl⟩
  | newClient form =>
    refine ⟨⟨hbeats, ?_, ?_⟩, Nat.le_refl _, rfl⟩
    · intro n hn
      obtain rfl := Option.some.inj hn
      rw [XChatyClient.newClient, List.length_append, List.length_singleton]
    · intro n c hn hc
      obtain rfl := Option.some.inj hn
      change (s.clients ++ _)[s.clients.length]?.bind _ = _ at hc
      rw [List.getElem?_concat_length] at hc
      cases hc
  | connect form connfd =>
    refine ⟨⟨hbeats, ?_, ?_⟩, Nat.le_of_lt ?_, rfl⟩
    · intro n hn
      obtain rfl := Option.some.inj hn
      change _ = ((s.clients ++ _).modify _ _).length
      rw [List.length_modify, List.length_append, List.length_singleton]
    · intro n c hn hc
      obtain rfl := Option.some.inj hn
      change ((s.clients ++ _).modify _ _)[s.clients.length]?.bind _ = _ at hc
      rw [List.getElem?_modify_eq, List.getElem?_concat_length] at hc
      obtain rfl := Option.some.inj hc
      rw [XChatyClient.connect, List.length_append, List.length_singleton]
    · change s.channels.length < (s.channels ++ _).length
      rw [List.length_append, List.length_singleton]
      exact Nat.lt_succ_self _
  | @connected c channel hc hconnecting =>
    refine ⟨⟨hbeats, ?_, ?_⟩, ?_, rfl⟩
    · intro n hn
      exact (h.client n hn).trans (List.length_modify ..).symm
    · intro n c' hn hc'
      rw [owned_setInterval] at hc'
      exact (h.channel n c' hn hc').trans (List.length_modify ..).symm
    · exact Nat.le_of_eq (List.length_modify ..).symm
  | @closed c channel hc =>
    refine ⟨⟨hbeats, ?_, ?_⟩, ?_, rfl⟩
    · intro n hn
      exact (h.client n hn).trans (List.length_modify ..).symm
    · intro n c' hn hc'
      rw [owned_setInterval] at hc'
      exact (h.channel n c' hn hc').trans (List.length_modify ..).symm
    · exact Nat.le_of_eq (List.length_modify ..).symm
  | killTimer ht hconnected now => exact ⟨⟨hbeats, h.client, h.channel⟩, Nat.le_refl _, rfl⟩

theorem Newest.step {s : XChatyClient} (h : Newest s) (event : ClientEvent) :
    Newest (chatyClient.step s event).1 ∧
      s.channels.length ≤ (chatyClient.step s event).1.channels.length ∧
      (chatyClient.step s event).1.m_user = s.m_user :=
  h.change (h.beats.step_change event).1

theorem newest_new (m_user : User) (form : Form) :
    Newest (XChatyClient.new m_user form).1 ∧ (XChatyClient.new m_user form).1.m_user = m_user := by
  have hempty : Newest (unconnected m_user) :=
    { beats :=
        { owned := fun _ _ hc => nomatch hc
          ids := List.nodup_nil
          counted := fun _ ht => nomatch ht
          targets := fun _ ht => nomatch ht
          single := fun _ hc => nomatch hc }
      client := fun _ hn => nomatch hn
      channel := fun _ _ hn => nomatch hn }
  obtain ⟨hnewest, -, huser⟩ := hempty.change (initConnect_change _ form).1
  exact ⟨hnewest, huser⟩

/-! ### Runs -/

/-- The writes of chat messages, whose first byte is their type. -/
def linesOf (ws : List (Nat × QByteArray)) : List (Nat × QByteArray) :=
  ws.filter fun w => w.2.head? = some RequestType.reqChat.code

/-- What a run has written, when `lines` are the lines that were typed while it was connected. -/
structure Ledger (m_user : User) (lines : List (Nat × Form)) (effects : List Effect) : Prop where
  chat : linesOf (writes effects) = lines.map fun t => (t.1, chatWire m_user t.2)
  others : ∀ w ∈ writes effects, w.2.head? ≠ some RequestType.reqChat.code →
    ∃ now, w.2 = heartbeatWire now
  alive : ∀ fault, .died fault ∉ effects
  order : lines.Pairwise fun a b => a.1 ≤ b.1

theorem writes_append (effects more : List Effect) :
    writes (effects ++ more) = writes effects ++ writes more :=
  List.flatMap_append

theorem Wrote.ledger {s : XChatyClient} {event : ClientEvent} {effects : List Effect}
    (h : Wrote s event effects) : Ledger s.m_user (s.typed event) effects := by
  cases h with
  | @line c form hc =>
    have htyped : s.typed (.sendMsg form) = [(c, form)] := by
      rw [typed, hc]
      rfl
    rw [htyped]
    refine ⟨rfl, fun w hw hhead => ?_, fun fault hmem => ?_, List.pairwise_singleton _ _⟩
    · obtain rfl := List.mem_singleton.mp hw
      exact absurd rfl hhead
    · cases List.mem_singleton.mp hmem
  | heartbeat ht hconnected now =>
    refine ⟨rfl, fun w hw _ => ?_, fun fault hmem => ?_, List.Pairwise.nil⟩
    · obtain rfl := List.mem_singleton.mp hw
      exact ⟨now, rfl⟩
    · cases List.mem_singleton.mp hmem
  | nothing htyped hwrites hdied =>
    rw [htyped]
    refine ⟨?_, fun w hw => ?_, hdied, List.Pairwise.nil⟩
    · rw [hwrites]
      rfl
    · rw [hwrites] at hw
      cases hw

theorem typedLines_ge {s : XChatyClient} (h : Newest s) (events : List ClientEvent) :
    ∀ t ∈ typedLines s events, s.channels.length ≤ t.1 + 1 := by
  induction events generalizing s with
  | nil => exact fun t ht => absurd ht List.not_mem_nil
  | cons event events ih =>
    obtain ⟨hnext, hle, -⟩ := h.step event
    intro t ht
    rcases List.mem_append.mp ht with hnow | hlater
    · cases event with
      | sendMsg form =>
        obtain ⟨c, hc, rfl⟩ := List.mem_map.mp hnow
        exact Nat.le_of_eq (h.connectedChannel (Option.mem_toList.mp hc)).symm
      | connected | closed | tick => cases hnow
    · exact Nat.le_trans hle (ih hnext t hlater)

theorem typed_le {s : XChatyClient} (h : Newest s) (event : ClientEvent) :
    ∀ t ∈ s.typed event, t.1 + 1 ≤ s.channels.length := by
  intro t ht
  cases event with
  | sendMsg form =>
    obtain ⟨c, hc, rfl⟩ := List.mem_map.mp ht
    exact Nat.le_of_eq (h.connectedChannel (Option.mem_toList.mp hc))
  | connected | closed | tick => cases ht

theorem Newest.ledger {s : XChatyClient} (h : Newest s) (events : List ClientEvent) :
    Ledger s.m_user (typedLines s events) (chatyClient.log s events) := by
  induction events generalizing s with
  | nil =>
    exact ⟨rfl, fun w hw => absurd hw List.not_mem_nil, fun fault => List.not_mem_nil,
      List.Pairwise.nil⟩
  | cons event events ih =>
    obtain ⟨hnext, hle, huser⟩ := h.step event
    have hnow := (step_wrote s event).ledger
    have hlater := ih hnext
    rw [huser] at hlater
    rw [Machine.log_cons, typedLines]
    constructor
    case chat =>
      rw [writes_append, linesOf, List.filter_append, List.map_append]
      exact congrArg₂ (· ++ ·) hnow.chat hlater.chat
    case others =>
      intro w hw
      rw [writes_append] at hw
      exact (List.mem_append.mp hw).elim (hnow.others w) (hlater.others w)
    case alive =>
      exact fun fault hmem =>
        (List.mem_append.mp hmem).elim (hnow.alive fault) (hlater.alive fault)
    case order =>
      refine List.pairwise_append.mpr ⟨hnow.order, hlater.order, fun a ha b hb => ?_⟩
      have hfirst := typed_le h event a ha
      have hsecond := typedLines_ge hnext events b hb
      omega

/-- In every run each line that is typed while the client is connected is written exactly once, in
the order of typing and never to an older connection than the line before; all else that is written
are heartbeats, and no message fails to be serialised. -/
theorem lines_written_once (m_user : User) (form : Form) (events : List ClientEvent) :
    Ledger m_user (typedLines (XChatyClient.new m_user form).1 events)
      (chatyClient.log (XChatyClient.new m_user form).1 events) := by
  obtain ⟨hnewest, huser⟩ := newest_new m_user form
  have hledger := hnewest.ledger events
  rwa [huser] at hledger

/-! ### Timers -/

def timersOf (s : XChatyClient) (c : Nat) : List Timer := s.timers.filter fun t => t.channel = c

/-- A channel never has more than two timers: one from when it connected, one from when it
closed. -/
structure FewTimers (s : XChatyClient) : Prop where
  beats : Beats s
  few : ∀ c, (s.timersOf c).length ≤ 2

/-- A channel that connects or closes now has at most one timer yet. -/
theorem Beats.timers_le_one {s : XChatyClient} (h : Beats s) {c : Nat} {channel : SocketChannel}
    (hc : s.channels[c]? = some channel)
    (hlive : channel.status = .connecting ∨ channel.status = .connected) :
    (s.timersOf c).length ≤ 1 := by
  have hstatus : s.status c = some channel.status := by
    rw [status, hc]
    rfl
  rcases hlive with hconnecting | hconnected
  · have hnone : s.timersOf c = [] := h.no_timer (hconnecting ▸ hstatus)
    rw [hnone]
    exact Nat.zero_le 1
  · rw [hconnected] at hstatus
    exact Nat.le_of_eq (h.single c hstatus)

theorem FewTimers.called {s : XChatyClient} (h : FewTimers s) {c : Nat} {channel : SocketChannel}
    {status : Hv.Status} (hc : s.channels[c]? = some channel)
    (hstatus : status = .connected ∧ channel.status = .connecting ∨ status = .closed)
    (hlive : channel.status = .connecting ∨ channel.status = .connected) :
    FewTimers ((s.setStatus c status).setInterval channel.client c) := by
  refine ⟨h.beats.called hc hstatus, fun c' => ?_⟩
  have hfew := h.few c'
  change ((s.timers ++ [_]).filter _).length ≤ 2
  rw [List.filter_append, List.length_append]
  by_cases heq : c = c'
  · subst heq
    have hone := h.beats.timers_le_one hc hlive
    rw [timersOf] at hone
    simp only [decide_true, List.filter_cons_of_pos, List.filter_nil, List.length_singleton]
    omega
  · rw [List.filter_cons_of_neg (by simpa using heq)]
    exact hfew

theorem FewTimers.closed {s : XChatyClient} (h : FewTimers s) (c : Nat) :
    FewTimers (s.onEvent c .closed).1 := by
  cases hc : s.channels[c]? with
  | none =>
    rw [onEvent, hc]
    exact h
  | some channel =>
    cases hstatus : channel.status with
    | connecting =>
      rw [h.beats.onEvent_eq hc (.inr (by rw [hstatus]; rfl))]
      exact h.called hc (.inr rfl) (.inl hstatus)
    | connected =>
      rw [h.beats.onEvent_eq hc (.inr (by rw [hstatus]; rfl))]
      exact h.called hc (.inr rfl) (.inr hstatus)
    | opened | closed =>
      rw [onEvent, hc]
      dsimp only
      rw [hstatus]
      exact h

theorem FewTimers.step {s : XChatyClient} (h : FewTimers s) (event : ClientEvent) :
    FewTimers (chatyClient.step s event).1 := by
  obtain ⟨hchange, -⟩ := h.beats.step_change event
  have hbeats := hchange.beats h.beats
  cases event with
  | closed c => exact h.closed c
  | connected c =>
    generalize (chatyClient.step s (.connected c)).1 = s' at hchange
    cases hchange with
    | same => exact h
    | connected hc hconnecting =>
      exact h.called hc (.inl ⟨rfl, hconnecting⟩) (.inl hconnecting)
  | sendMsg form =>
    generalize (chatyClient.step s (.sendMsg form)).1 = s' at hchange hbeats
    cases hchange with
    | same | newClient | connect => exact ⟨hbeats, h.few⟩
  | tick timerId now =>
    refine ⟨hbeats, fun c => ?_⟩
    generalize (chatyClient.step s (.tick timerId now)).1 = s' at hchange
    cases hchange with
    | same => exact h.few c
    | killTimer ht hconnected =>
      exact Nat.le_trans (List.filter_sublist.filter _).length_le (h.few c)

theorem fewTimers_new (m_user : User) (form : Form) : FewTimers (XChatyClient.new m_user form).1 := by
  have hchange := (initConnect_change (unconnected m_user) form).1
  refine ⟨beats_new m_user form, fun c => ?_⟩
  change (({ unconnected m_user with m_client := none }.initConnect form).1.timersOf c).length ≤ 2
  generalize ({ unconnected m_user with m_client := none }.initConnect form).1 = s at hchange
  cases hchange with
  | same | newClient | connect => exact Nat.zero_le 2

/-- In every run no connection has more than two timers at a time, so there are never more than two
for each connection that has ever been made. -/
theorem timers_bounded (m_user : User) (form : Form) (events : List ClientEvent) :
    let s := chatyClient.run (XChatyClient.new m_user form).1 events
    (∀ c, (s.timersOf c).length ≤ 2) ∧ s.timers.length ≤ 2 * s.channels.length := by
  have hfew : FewTimers (chatyClient.run (XChatyClient.new m_user form).1 events) :=
    Machine.run_invariant (fewTimers_new m_user form) fun s event _ h => h.step event
  refine ⟨hfew.few, length_le_of_key hfew.few fun t ht => ?_⟩
  exact (hfew.beats.targets t ht).elim status_lt status_lt

end XChaty.Client.XChatyClient
