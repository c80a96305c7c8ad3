import Mathlib.Data.List.Nodup
import XChaty.Chat.ChatWindowUtilty
import XChaty.Hv.TcpClient
import XChaty.Protoc.Wire

/-! The connections of `XChatyClient` and their heartbeats.  Every `hv::TcpClient` has a loop on a
thread of its own, and its callbacks pass on the channel that it has at the time; a timer keeps the
channel that it was registered for.  The clients, channels and timers of the whole run are kept
here, so the events of a client that has been deleted are among those that may still come. -/

namespace XChaty.Client

open Qt Protoc Chat Hv ProofKit

/-- The number of the loop's thread, and how many ids that loop has generated. -/
structure TimerID where
  tid : Nat
  count : Nat
deriving DecidableEq, Repr

structure Timer where
  timerId : TimerID
  interval_ms : Nat
  channel : Nat
deriving DecidableEq, Repr

/-- The loop of a client has the client's number for its thread. -/
structure HvClient where
  channel : Option Nat
  nextTimerID : Nat
deriving DecidableEq, Repr

structure SocketChannel where
  client : Nat
  fd : Int
  status : Hv.Status
deriving DecidableEq, Repr

/-- The members of `XChatyClient`, with all that its clients have made at their numbers. -/
structure XChatyClient where
  m_user : User
  m_HB_interval : Nat
  m_client : Option Nat
  clients : List HvClient
  channels : List SocketChannel
  timers : List Timer
deriving DecidableEq, Repr

/-- What the user has typed when `SendMsg` or the constructor runs, what the clock reads, and what
`createsocket` returns for a port and a host. -/
structure Form where
  hostEdit : QString
  portEdit : QString
  sendEdit : QString
  now : QString
  createsocket : QString → QString → Int

inductive Effect
  | append (str : QString)
  | overWrite (str : QString)
  | post (post : Post)
  | written (channel : Nat) (data : QByteArray)
  | died (fault : Fault)
deriving DecidableEq, Repr

namespace XChatyClient

def status (s : XChatyClient) (c : Nat) : Option Hv.Status :=
  s.channels[c]?.map SocketChannel.status

abbrev IsConnected (s : XChatyClient) (c : Nat) : Prop := s.status c = some .connected

/-! ### Clients -/

/-- `m_client = new hv::TcpClient()`. -/
def newClient (s : XChatyClient) : XChatyClient :=
  { s with
    m_client := some s.clients.length
    clients := s.clients ++ [{ channel := none, nextTimerID := 0 }] }

/-- `createsocket`, which has returned `connfd`, and `start`. -/
def connect (s : XChatyClient) (client : Nat) (connfd : Int) : XChatyClient :=
  { s with
    clients := s.clients.modify client fun loop => { loop with channel := some s.channels.length }
    channels := s.channels ++ [{ client, fd := connfd, status := .connecting }] }

def initConnect (s : XChatyClient) (form : Form) : XChatyClient × List Effect × Bool :=
  let (s, client) :=
    match s.m_client with
    | some client => (s, client)
    | none => (s.newClient, s.clients.length)
  if form.hostEdit.units = [] ∨ form.portEdit.units = [] then
    (s, [.append (.ofLiteral "host or port is empty!")], false)
  else
    let connfd := form.createsocket form.portEdit form.hostEdit
    if connfd < 0 then (s, [], false) else (s.connect client connfd, [], true)

/-- The members before `InitConnect` runs for the first time. -/
def unconnected (m_user : User) : XChatyClient :=
  { m_user, m_HB_interval := 1000, m_client := none, clients := [], channels := [], timers := [] }

def new (m_user : User) (form : Form) : XChatyClient × List Effect :=
  let (s, effects, connected) := (unconnected m_user).initConnect form
  (s, effects ++ (if connected then [] else [.append (.ofLiteral "connect failed!")]) ++
    [.overWrite (.ofLiteral "connect success!")])

/-- The channel of `m_client`, if it is connected. -/
def connectedChannel (s : XChatyClient) : Option Nat :=
  ((s.m_client.bind fun client => s.clients[client]?).bind HvClient.channel).filter
    fun c => decide (s.IsConnected c)

/-- A write to a connected channel of what `Serrialize` has returned. -/
def write (c : Nat) : Except Fault QByteArray → Effect
  | .ok ba => .written c ba
  | .error fault => .died fault

def chatBytes (now : QString) (chatMsg : ClientMessage) : Except Fault QByteArray := do
  let msg ← ChatyMessage.ofRequest now .reqChat (some (.clientMessage chatMsg))
  serrialize msg

def sendMsg (s : XChatyClient) (form : Form) : XChatyClient × List Effect :=
  match s.connectedChannel with
  | some c =>
    let chatMsg : ClientMessage :=
      { chatMsg := form.sendEdit, userName := s.m_user.userName, chatRoom := 0 }
    (s, [write c (chatBytes form.now chatMsg)])
  | none =>
    let (s, effects, _) := { s with m_client := none }.initConnect form
    (s, effects)

/-! ### Callbacks -/

/-- The ids that the loop on the thread `tid` has generated. -/
def timerCount (s : XChatyClient) (tid : Nat) : Nat :=
  (s.clients[tid]?.map HvClient.nextTimerID).getD 0

/-- `hv::setInterval` on the thread `tid`. -/
def setInterval (s : XChatyClient) (tid channel : Nat) : XChatyClient :=
  { s with
    clients := s.clients.modify tid fun loop => { loop with nextTimerID := loop.nextTimerID + 1 }
    timers := s.timers ++
      [{ timerId := ⟨tid, s.timerCount tid + 1⟩, interval_ms := s.m_HB_interval, channel }] }

def onConnection (s : XChatyClient) (tid channel : Nat) : XChatyClient × List Effect :=
  let str := if s.IsConnected channel then QString.ofLiteral "connected"
    else QString.ofLiteral "disconnected"
  let fd := (s.channels[channel]?.map SocketChannel.fd).getD (-1)
  (s.setInterval tid channel,
    [.post ⟨tid, ((QString.ofLiteral "connfd: %1 is %2.").arg (.number fd)).arg str⟩])

def setStatus (s : XChatyClient) (c : Nat) (status : Hv.Status) : XChatyClient :=
  { s with channels := s.channels.modify c fun channel => { channel with status } }

/-- An event of a channel: when it connects or closes, `onconnect` or `onclose` of its client is
called, which passes on the channel of the client. -/
def onEvent (s : XChatyClient) (c : Nat) (event : Event) : XChatyClient × List Effect :=
  match s.channels[c]? with
  | none => (s, [])
  | some channel =>
    match network.step channel.status event with
    | (status, [.connected]) | (status, [.closed]) =>
      let s := s.setStatus c status
      match s.clients[channel.client]?.bind HvClient.channel with
      | none => (s, [])
      | some current => s.onConnection channel.client current
    | _ => (s, [])

def killTimer (s : XChatyClient) (timerId : TimerID) : XChatyClient :=
  { s with timers := s.timers.filter fun timer => timer.timerId ≠ timerId }

def heartbeatBytes (now : QString) : Except Fault QByteArray := do
  let msg ← ChatyMessage.ofRequest now .reqHb none
  serrialize msg

/-- A tick of a timer, when the clock reads `now`. -/
def onTimer (s : XChatyClient) (timerId : TimerID) (now : QString) : XChatyClient × List Effect :=
  match s.timers.find? fun timer => timer.timerId = timerId with
  | none => (s, [])
  | some timer =>
    if s.IsConnected timer.channel then (s, [write timer.channel (heartbeatBytes now)])
    else (s.killTimer timerId, [])

end XChatyClient

/-! ### Runs -/

inductive ClientEvent
  | sendMsg (form : Form)
  | connected (channel : Nat)
  | closed (channel : Nat)
  | tick (timerId : TimerID) (now : QString)

def chatyClient : Machine XChatyClient ClientEvent (List Effect) where
  step s
    | .sendMsg form => s.sendMsg form
    | .connected c => s.onEvent c .connected
    | .closed c => s.onEvent c .closed
    | .tick timerId now => s.onTimer timerId now

/-! ### The invariant -/

namespace XChatyClient

/-- A client has one channel, timers have different ids, a channel has no timer before it connects
and one while it is connected. -/
structure Beats (s : XChatyClient) : Prop where
  owned : ∀ c channel, s.channels[c]? = some channel →
    s.clients[channel.client]?.bind HvClient.channel = some c
  ids : (s.timers.map Timer.timerId).Nodup
  counted : ∀ t ∈ s.timers, t.timerId.count ≤ s.timerCount t.timerId.tid
  targets : ∀ t ∈ s.timers,
    s.status t.channel = some .connected ∨ s.status t.channel = some .closed
  single : ∀ c, s.IsConnected c → (s.timers.filter fun t => t.channel = c).length = 1

variable {s : XChatyClient}

theorem Beats.client_lt (h : Beats s) {c : Nat} {channel : SocketChannel}
    (hc : s.channels[c]? = some channel) : channel.client < s.clients.length := by
  have howned := h.owned c channel hc
  by_contra hge
  rw [List.getElem?_eq_none (Nat.le_of_not_lt hge)] at howned
  cases howned

theorem status_lt {c : Nat} {status : Hv.Status} (h : s.status c = some status) :
    c < s.channels.length := by
  obtain ⟨channel, hchannel, -⟩ := Option.map_eq_some_iff.mp h
  exact (List.getElem?_eq_some_iff.mp hchannel).1

/-! A new client has no channel yet, or one that is connecting. -/

theorem status_connect (s : XChatyClient) (client : Nat) (connfd : Int) (c : Nat) :
    (s.connect client connfd).status c =
      if c = s.channels.length then some .connecting else s.status c := by
  rw [status, connect]
  by_cases hc : c = s.channels.length
  · rw [if_pos hc, hc, List.getElem?_concat_length]
    rfl
  · rw [if_neg hc, status]
    rcases Nat.lt_or_gt_of_ne hc with hlt | hgt
    · rw [List.getElem?_append_left hlt]
    · rw [List.getElem?_eq_none (by simp; omega), List.getElem?_eq_none (by omega)]

theorem timerCount_newClient (s : XChatyClient) (tid : Nat) :
    s.newClient.timerCount tid = s.timerCount tid := by
  rw [timerCount, newClient, timerCount]
  rcases Nat.lt_trichotomy tid s.clients.length with hlt | heq | hgt
  · rw [List.getElem?_append_left hlt]
  · rw [heq, List.getElem?_concat_length, List.getElem?_eq_none (Nat.le_refl _)]
    rfl
  · rw [List.getElem?_eq_none (by simp; omega), List.getElem?_eq_none (by omega)]

theorem timerCount_connect (s : XChatyClient) (client : Nat) (connfd : Int) (tid : Nat) :
    (s.connect client connfd).timerCount tid = s.timerCount tid := by
  rw [timerCount, connect, timerCount, List.getElem?_modify]
  cases s.clients[tid]? with
  | none => rfl
  | some loop =>
    by_cases htid : client = tid
    · simp [htid]
    · simp [htid]

theorem Beats.newClient (h : Beats s) : Beats s.newClient where
  owned := by
    intro c channel hc
    have hlt := h.client_lt hc
    rw [← h.owned c channel hc]
    change (s.clients ++ _)[channel.client]?.bind _ = _
    rw [List.getElem?_append_left hlt]
  ids := h.ids
  counted := by
    intro t ht
    rw [timerCount_newClient]
    exact h.counted t ht
  targets := h.targets
  single := h.single

theorem Beats.connect (h : Beats s) (connfd : Int) :
    Beats (s.newClient.connect s.clients.length connfd) where
  owned := by
    intro c channel hc
    rcases Nat.lt_or_ge c s.channels.length with hlt | hge
    · replace hc : s.channels[c]? = some channel := (List.getElem?_append_left hlt).symm.trans hc
      have hclient := h.client_lt hc
      rw [← h.owned c channel hc]
      change ((s.clients ++ _).modify _ _)[channel.client]?.bind _ = _
      rw [List.getElem?_modify_ne _ _ (Nat.ne_of_gt hclient), List.getElem?_append_left hclient]
    · obtain ⟨rfl, rfl⟩ : c = s.channels.length ∧
          channel = { client := s.clients.length, fd := connfd, status := .connecting } := by
        replace hc := (List.getElem?_append_right hge).symm.trans hc
        obtain ⟨hzero, hchannel⟩ := List.getElem?_eq_some_iff.mp hc
        rw [List.length_singleton] at hzero
        refine ⟨by omega, ?_⟩
        rw [← hchannel, List.getElem_singleton]
      change ((s.clients ++ _).modify _ _)[s.clients.length]?.bind _ = _
      rw [List.getElem?_modify_eq, List.getElem?_concat_length]
      rfl
  ids := h.ids
  counted := by
    intro t ht
    rw [timerCount_connect, timerCount_newClient]
    exact h.counted t ht
  targets := by
    intro t ht
    have htarget := h.targets t ht
    have hlt : t.channel < s.channels.length := htarget.elim status_lt status_lt
    rw [status_connect, if_neg (show t.channel ≠ s.newClient.channels.length from Nat.ne_of_lt hlt)]
    exact htarget
  single := by
    intro c hc
    rw [IsConnected, status_connect] at hc
    by_cases hlast : c = s.newClient.channels.length
    · rw [if_pos hlast] at hc
      cases hc
    · rw [if_neg hlast] at hc
      exact h.single c hc

/-! A channel that connects or closes gets a timer. -/

theorem status_setStatus (s : XChatyClient) (c : Nat) (status : Hv.Status) (c' : Nat) :
    (s.setStatus c status).status c' =
      if c = c' then (s.status c').map fun _ => status else s.status c' := by
  rw [XChatyClient.status, setStatus, List.getElem?_modify, XChatyClient.status]
  cases s.channels[c']? with
  | none => simp
  | some channel =>
    by_cases hc : c = c'
    · simp [hc]
    · simp [hc]

theorem timerCount_setInterval (s : XChatyClient) {tid : Nat} (h : tid < s.clients.length)
    (channel tid' : Nat) :
    (s.setInterval tid channel).timerCount tid' =
      if tid = tid' then s.timerCount tid' + 1 else s.timerCount tid' := by
  rw [timerCount, setInterval, List.getElem?_modify, timerCount]
  by_cases htid : tid = tid'
  · subst htid
    simp [List.getElem?_eq_getElem h]
  · cases s.clients[tid']? with
    | none => simp [htid]
    | some loop => simp [htid]

theorem owned_setInterval (s : XChatyClient) (tid channel client : Nat) :
    (s.setInterval tid channel).clients[client]?.bind HvClient.channel =
      s.clients[client]?.bind HvClient.channel := by
  rw [setInterval, List.getElem?_modify]
  cases s.clients[client]? with
  | none => rfl
  | some loop =>
    by_cases htid : tid = client
    · simp [htid]
    · simp [htid]

theorem Beats.fresh_id (h : Beats s) (tid : Nat) :
    ∀ t ∈ s.timers, t.timerId ≠ ⟨tid, s.timerCount tid + 1⟩ := by
  intro t ht heq
  have hcount := h.counted t ht
  rw [heq] at hcount
  exact Nat.not_succ_le_self _ hcount

theorem Beats.no_timer (h : Beats s) {c : Nat} (hconnecting : s.status c = some .connecting) :
    s.timers.filter (fun t => t.channel = c) = [] := by
  refine List.filter_eq_nil_iff.mpr fun t ht htarget => ?_
  have hended := h.targets t ht
  rw [of_decide_eq_true htarget, hconnecting] at hended
  rcases hended with hended | hended <;> cases hended

/-- The channel `c`, which has not closed, connects or closes, and its callback has registered a
timer for it. -/
theorem Beats.called (h : Beats s) {c : Nat} {channel : SocketChannel} {status : Hv.Status}
    (hc : s.channels[c]? = some channel)
    (hstatus : status = .connected ∧ channel.status = .connecting ∨ status = .closed) :
    Beats ((s.setStatus c status).setInterval channel.client c) := by
  have hclient : channel.client < (s.setStatus c status).clients.length := h.client_lt hc
  have hafter : ∀ c', ((s.setStatus c status).setInterval channel.client c).status c' =
      if c = c' then (s.status c').map fun _ => status else s.status c' :=
    status_setStatus s c status
  have hself : (s.status c).map (fun _ => status) = some status := by
    rw [XChatyClient.status, hc]
    rfl
  have hended : status = .connected ∨ status = .closed := hstatus.imp_left And.left
  constructor
  case owned =>
    intro c' channel' hc'
    rw [owned_setInterval]
    replace hc' : (s.channels.modify c fun channel => { channel with status })[c']? =
      some channel' := hc'
    rw [List.getElem?_modify] at hc'
    obtain ⟨old, hold, rfl⟩ := Option.map_eq_some_iff.mp hc'
    rw [← h.owned c' old hold]
    by_cases heq : c = c'
    · rw [if_pos heq]
      rfl
    · rw [if_neg heq]
      rfl
  case ids =>
    change (List.map Timer.timerId (s.timers ++ [_])).Nodup
    rw [List.map_append, List.nodup_append]
    refine ⟨h.ids, List.nodup_singleton _, fun id hid new hnew heq => ?_⟩
    obtain ⟨t, ht, rfl⟩ := List.mem_map.mp hid
    exact h.fresh_id channel.client t ht (heq.trans (List.mem_singleton.mp hnew))
  case counted =>
    intro t ht
    rw [timerCount_setInterval _ hclient]
    rcases List.mem_append.mp ht with hold | hnew
    · have hcount := h.counted t hold
      by_cases htid : channel.client = t.timerId.tid
      · rw [if_pos htid]
        exact Nat.le_succ_of_le hcount
      · rw [if_neg htid]
        exact hcount
    · rw [List.mem_singleton.mp hnew, if_pos rfl]
  case targets =>
    intro t ht
    rw [hafter]
    by_cases heq : c = t.channel
    · rw [if_pos heq, ← heq, hself]
      exact hended.imp (congrArg some) (congrArg some)
    · rw [if_neg heq]
      rcases List.mem_append.mp ht with hold | hnew
      · exact h.targets t hold
      · exact absurd (congrArg Timer.channel (List.mem_singleton.mp hnew)).symm heq
  case single =>
    intro c' hc'
    rw [IsConnected, hafter] at hc'
    change ((s.timers ++ [_]).filter _).length = 1
    rw [List.filter_append, List.length_append]
    by_cases heq : c = c'
    · subst heq
      rw [if_pos rfl, hself] at hc'
      -- A channel that connects now was connecting, so it had no timer.
      have hconnecting : s.status c = some .connecting := by
        rcases hstatus with ⟨-, hconnecting⟩ | hclosed
        · rw [XChatyClient.status, hc, ← hconnecting]
          rfl
        · rw [hclosed] at hc'
          cases hc'
      rw [h.no_timer hconnecting]
      simp
    · rw [if_neg heq] at hc'
      rw [h.single c' hc']
      simp [heq]

theorem Beats.killTimer (h : Beats s) {t : Timer} (ht : t ∈ s.timers)
    (hconnected : ¬s.IsConnected t.channel) : Beats (s.killTimer t.timerId) where
  owned := h.owned
  ids := h.ids.sublist (List.filter_sublist.map _)
  counted := fun u hu => h.counted u (List.mem_of_mem_filter hu)
  targets := fun u hu => h.targets u (List.mem_of_mem_filter hu)
  single := by
    intro c hc
    have hkept : ∀ u ∈ s.timers, u.channel = c → u.timerId ≠ t.timerId := by
      intro u hu hchannel hid
      obtain rfl := List.inj_on_of_nodup_map h.ids hu ht hid
      exact hconnected (hchannel ▸ hc)
    rw [← h.single c hc]
    change ((s.timers.filter _).filter _).length = _
    rw [List.filter_filter]
    congr 1
    refine List.filter_congr fun u hu => ?_
    by_cases hchannel : u.channel = c
    · simp [hchannel, hkept u hu hchannel]
    · simp [hchannel]

/-! ### What a step does -/

/-- What an event makes of the state. -/
inductive Change (s : XChatyClient) : ClientEvent → XChatyClient → Prop
  | same (event : ClientEvent) : Change s event s
  | newClient (form : Form) : Change s (.sendMsg form) s.newClient
  | connect (form : Form) (connfd : Int) :
    Change s (.sendMsg form) (s.newClient.connect s.clients.length connfd)
  | connected {c : Nat} {channel : SocketChannel} (hc : s.channels[c]? = some channel)
    (hconnecting : channel.status = .connecting) :
    Change s (.connected c) ((s.setStatus c .connected).setInterval channel.client c)
  | closed {c : Nat} {channel : SocketChannel} (hc : s.channels[c]? = some channel) :
    Change s (.closed c) ((s.setStatus c .closed).setInterval channel.client c)
  | killTimer {t : Timer} (ht : t ∈ s.timers) (hconnected : ¬s.IsConnected t.channel)
    (now : QString) : Change s (.tick t.timerId now) (s.killTimer t.timerId)

theorem Change.beats {event : ClientEvent} {s' : XChatyClient} (hchange : Change s event s')
    (h : Beats s) : Beats s' := by
  cases hchange with
  | same => exact h
  | newClient form => exact h.newClient
  | connect form connfd => exact h.connect connfd
  | connected hc hconnecting => exact h.called hc (.inl ⟨rfl, hconnecting⟩)
  | closed hc => exact h.called hc (.inr rfl)
  | killTimer ht hconnected now => exact h.killTimer ht hconnected

/-- Nothing is written but to connected channels. -/
def Directed (s : XChatyClient) (effects : List Effect) : Prop :=
  ∀ c data, .written c data ∈ effects → s.IsConnected c

theorem directed_write {c : Nat} (h : s.IsConnected c) (result : Except Fault QByteArray) :
    Directed s [write c result] := by
  intro c' data hmem
  cases result with
  | ok ba =>
    obtain ⟨rfl, rfl⟩ := Effect.written.inj (List.mem_singleton.mp hmem)
    exact h
  | error fault => cases List.mem_singleton.mp hmem

theorem directed_nil : Directed s [] := fun _ _ hmem => nomatch hmem

/-- The client is a new one, whatever `m_client` was. -/
theorem initConnect_change (s : XChatyClient) (form : Form) :
    Change s (.sendMsg form) ({ s with m_client := none }.initConnect form).1 ∧
      Directed s ({ s with m_client := none }.initConnect form).2.1 := by
  rw [initConnect]
  dsimp only
  by_cases htexts : form.hostEdit.units = [] ∨ form.portEdit.units = []
  · rw [if_pos htexts]
    refine ⟨.newClient form, fun c data hmem => ?_⟩
    cases List.mem_singleton.mp hmem
  · rw [if_neg htexts]
    by_cases hconnfd : form.createsocket form.portEdit form.hostEdit < 0
    · rw [if_pos hconnfd]
      exact ⟨.newClient form, directed_nil⟩
    · rw [if_neg hconnfd]
      exact ⟨.connect form _, directed_nil⟩

theorem sendMsg_change (s : XChatyClient) (form : Form) :
    Change s (.sendMsg form) (s.sendMsg form).1 ∧ Directed s (s.sendMsg form).2 := by
  rw [sendMsg]
  cases hconnected : s.connectedChannel with
  | some c =>
    have hc : s.IsConnected c := of_decide_eq_true (Option.filter_eq_some_iff.mp hconnected).2
    exact ⟨.same _, directed_write hc _⟩
  | none => exact initConnect_change s form

theorem directed_onConnection (t : XChatyClient) (tid c : Nat) :
    Directed s (t.onConnection tid c).2 := by
  intro c' data hmem
  cases List.mem_singleton.mp hmem

theorem Beats.onEvent_eq (h : Beats s) {c : Nat} {channel : SocketChannel}
    (hc : s.channels[c]? = some channel) {event : Event} {status : Hv.Status}
    (hstep : network.step channel.status event = (status, [.connected]) ∨
      network.step channel.status event = (status, [.closed])) :
    s.onEvent c event = (s.setStatus c status).onConnection channel.client c := by
  have howned : (s.setStatus c status).clients[channel.client]?.bind HvClient.channel = some c :=
    h.owned c channel hc
  rw [onEvent, hc]
  dsimp only
  rcases hstep with hstep | hstep
  · rw [hstep]
    dsimp only
    rw [howned]
  · rw [hstep]
    dsimp only
    rw [howned]

theorem Beats.onEvent_connected (h : Beats s) (c : Nat) :
    Change s (.connected c) (s.onEvent c .connected).1 ∧ Directed s (s.onEvent c .connected).2 := by
  cases hc : s.channels[c]? with
  | none =>
    rw [onEvent, hc]
    exact ⟨.same _, directed_nil⟩
  | some channel =>
    cases hstatus : channel.status with
    | connecting =>
      rw [h.onEvent_eq hc (.inl (by rw [hstatus]; rfl))]
      exact ⟨.connected hc hstatus, directed_onConnection _ _ _⟩
    | opened | connected | closed =>
      rw [onEvent, hc]
      dsimp only
      rw [hstatus]
      exact ⟨.same _, directed_nil⟩

theorem Beats.onEvent_closed (h : Beats s) (c : Nat) :
    Change s (.closed c) (s.onEvent c .closed).1 ∧ Directed s (s.onEvent c .closed).2 := by
  cases hc : s.channels[c]? with
  | none =>
    rw [onEvent, hc]
    exact ⟨.same _, directed_nil⟩
  | some channel =>
    cases hstatus : channel.status with
    | connecting | connected =>
      rw [h.onEvent_eq hc (.inr (by rw [hstatus]; rfl))]
      exact ⟨.closed hc, directed_onConnection _ _ _⟩
    | opened | closed =>
      rw [onEvent, hc]
      dsimp only
      rw [hstatus]
      exact ⟨.same _, directed_nil⟩

theorem onTimer_change (s : XChatyClient) (timerId : TimerID) (now : QString) :
    Change s (.tick timerId now) (s.onTimer timerId now).1 ∧
      Directed s (s.onTimer timerId now).2 := by
  rw [onTimer]
  cases hfind : s.timers.find? fun timer => timer.timerId = timerId with
  | none => exact ⟨.same _, directed_nil⟩
  | some t =>
    have hid := List.find?_some hfind
    obtain rfl : t.timerId = timerId := of_decide_eq_true hid
    dsimp only
    by_cases hconnected : s.IsConnected t.channel
    · rw [if_pos hconnected]
      exact ⟨.same _, directed_write hconnected _⟩
    · rw [if_neg hconnected]
      exact ⟨.killTimer (List.mem_of_find?_eq_some hfind) hconnected now, directed_nil⟩

theorem Beats.step_change (h : Beats s) (event : ClientEvent) :
    Change s event (chatyClient.step s event).1 ∧ Directed s (chatyClient.step s event).2 := by
  cases event with
  | sendMsg form => exact sendMsg_change s form
  | connected c => exact h.onEvent_connected c
  | closed c => exact h.onEvent_closed c
  | tick timerId now => exact onTimer_change s timerId now

/-! ### Timers of closed channels -/

/-- A closed channel stays closed. -/
theorem Change.status_closed {event : ClientEvent} {s' : XChatyClient} (h : Change s event s')
    {c : Nat} (hc : s.status c = some .closed) : s'.status c = some .closed := by
  cases h with
  | same => exact hc
  | newClient form => exact hc
  | connect form connfd =>
    rw [status_connect, if_neg (show c ≠ s.newClient.channels.length from
      Nat.ne_of_lt (status_lt hc))]
    exact hc
  | @connected c' channel hc' hconnecting =>
    change (s.setStatus c' .connected).status c = _
    rw [status_setStatus]
    by_cases heq : c' = c
    · subst heq
      rw [XChatyClient.status, hc', Option.map_some, hconnecting] at hc
      cases hc
    · rw [if_neg heq, hc]
  | @closed c' channel hc' =>
    change (s.setStatus c' .closed).status c = _
    rw [status_setStatus]
    by_cases heq : c' = c
    · rw [if_pos heq, hc]
      rfl
    · rw [if_neg heq, hc]
  | killTimer ht hconnected now => exact hc

/-- A timer stays until a tick of its own. -/
theorem Change.timer_mem {event : ClientEvent} {s' : XChatyClient} (h : Change s event s')
    {t : Timer} (ht : t ∈ s.timers) (hevent : ∀ now, event ≠ .tick t.timerId now) :
    t ∈ s'.timers := by
  cases h with
  | same => exact ht
  | newClient form => exact ht
  | connect form connfd => exact ht
  | connected hc hconnecting => exact List.mem_append_left _ ht
  | closed hc => exact List.mem_append_left _ ht
  | @killTimer u hu hconnected now =>
    refine List.mem_filter.mpr ⟨ht, decide_eq_true fun heq => ?_⟩
    exact hevent now (by rw [heq])

theorem Beats.find_timer (h : Beats s) {t : Timer} (ht : t ∈ s.timers) :
    s.timers.find? (fun timer => timer.timerId = t.timerId) = some t := by
  cases hfind : s.timers.find? fun timer => timer.timerId = t.timerId with
  | none => exact absurd (decide_eq_true rfl) (List.find?_eq_none.mp hfind t ht)
  | some u =>
    have hid := List.find?_some hfind
    exact congrArg some (List.inj_on_of_nodup_map h.ids (List.mem_of_find?_eq_some hfind) ht
      (of_decide_eq_true hid))

theorem Beats.onTimer_closed (h : Beats s) {t : Timer} (ht : t ∈ s.timers)
    (hclosed : s.status t.channel = some .closed) (now : QString) :
    s.onTimer t.timerId now = (s.killTimer t.timerId, []) := by
  rw [onTimer, h.find_timer ht]
  dsimp only
  rw [if_neg]
  rw [IsConnected, hclosed]
  decide

/-! ### Runs of the client -/

theorem beats_new (m_user : User) (form : Form) : Beats (XChatyClient.new m_user form).1 := by
  have hempty : Beats (unconnected m_user) :=
    { owned := fun _ _ hc => nomatch hc
      ids := List.nodup_nil
      counted := fun _ ht => nomatch ht
      targets := fun _ ht => nomatch ht
      single := fun _ hc => nomatch hc }
  exact (initConnect_change _ form).1.beats hempty

theorem Beats.run (h : Beats s) (events : List ClientEvent) : Beats (chatyClient.run s events) :=
  Machine.run_invariant h fun _ event _ hbeats => (hbeats.step_change event).1.beats hbeats

/-- Until its next tick, a timer of a closed channel stays what it is. -/
theorem Beats.run_closed (h : Beats s) {t : Timer} (ht : t ∈ s.timers)
    (hclosed : s.status t.channel = some .closed) {events : List ClientEvent}
    (hevents : ∀ now, .tick t.timerId now ∉ events) :
    t ∈ (chatyClient.run s events).timers ∧
      (chatyClient.run s events).status t.channel = some .closed := by
  refine (Machine.run_invariant (P := fun s => Beats s ∧ t ∈ s.timers ∧
    s.status t.channel = some .closed) ⟨h, ht, hclosed⟩ ?_).2
  rintro s event hmem ⟨hbeats, ht, hclosed⟩
  obtain ⟨hchange, -⟩ := hbeats.step_change event
  exact ⟨hchange.beats hbeats, hchange.timer_mem ht fun now heq => hevents now (heq ▸ hmem),
    hchange.status_closed hclosed⟩

theorem initConnect_client (s : XChatyClient) (form : Form) :
    (s.initConnect form).1.m_client ≠ none := by
  rw [initConnect]
  cases hclient : s.m_client with
  | none =>
    dsimp only
    split
    · exact Option.some_ne_none _
    · split
      · exact Option.some_ne_none _
      · exact Option.some_ne_none _
  | some client =>
    have hsome : s.m_client ≠ none := by
      rw [hclient]
      exact Option.some_ne_none client
    dsimp only
    split
    · exact hsome
    · split
      · exact hsome
      · exact hsome

theorem Change.client {event : ClientEvent} {s' : XChatyClient} (h : Change s event s')
    (hclient : s.m_client ≠ none) : s'.m_client ≠ none := by
  cases h with
  | same => exact hclient
  | newClient form => exact Option.some_ne_none _
  | connect form connfd => exact Option.some_ne_none _
  | connected hc hconnecting => exact hclient
  | closed hc => exact hclient
  | killTimer ht hconnected now => exact hclient

/-- `SendMsg` never finds a null `m_client`. -/
theorem client_run (m_user : User) (form : Form) (events : List ClientEvent) :
    (chatyClient.run (XChatyClient.new m_user form).1 events).m_client ≠ none := by
  have hnew : (XChatyClient.new m_user form).1.m_client ≠ none :=
    initConnect_client (unconnected m_user) form
  refine (Machine.run_invariant (P := fun s => Beats s ∧ s.m_client ≠ none)
    ⟨beats_new m_user form, hnew⟩ ?_).2
  rintro s event - ⟨hbeats, hclient⟩
  obtain ⟨hchange, -⟩ := hbeats.step_change event
  exact ⟨hchange.beats hbeats, hchange.client hclient⟩

/-- What holds of the heartbeats in a state: the next event writes only to connected channels, a
connected channel has at most one timer, and a timer of a channel that is not connected is there
until its next tick, which removes it and writes nothing. -/
structure HeartbeatsKept (s : XChatyClient) : Prop where
  live : ∀ event, Directed s (chatyClient.step s event).2
  single : ∀ c, s.IsConnected c → (s.timers.filter fun t => t.channel = c).length ≤ 1
  removed : ∀ t ∈ s.timers, ¬s.IsConnected t.channel → ∀ events : List ClientEvent,
    (∀ now, .tick t.timerId now ∉ events) → ∀ now,
    t ∈ (chatyClient.run s events).timers ∧
      chatyClient.step (chatyClient.run s events) (.tick t.timerId now) =
        ((chatyClient.run s events).killTimer t.timerId, []) ∧
      t ∉ ((chatyClient.run s events).killTimer t.timerId).timers

/-- Heartbeats go only to live connections and never double up, in every state that a run of the
client reaches. -/
theorem heartbeats_kept (m_user : User) (form : Form) (events : List ClientEvent) :
    HeartbeatsKept (chatyClient.run (XChatyClient.new m_user form).1 events) := by
  have hbeats := (beats_new m_user form).run events
  constructor
  case live => exact fun event => (hbeats.step_change event).2
  case single => exact fun c hc => Nat.le_of_eq (hbeats.single c hc)
  case removed =>
    intro t ht hconnected later hlater now
    have hclosed := (hbeats.targets t ht).resolve_left hconnected
    obtain ⟨hstays, hclosed⟩ := hbeats.run_closed ht hclosed hlater
    refine ⟨hstays, (hbeats.run later).onTimer_closed hstays hclosed now, fun hmem => ?_⟩
    exact absurd rfl (of_decide_eq_true (List.mem_filter.mp hmem).2)

/-- A channel that has connected and closed has two timers, until each has ticked. -/
example :
    let form : Form := ⟨.text [104], .text [49], .null, .null, fun _ _ => 7⟩
    (chatyClient.run (XChatyClient.new User.new form).1 [.connected 0, .closed 0]).timers.map
      Timer.channel = [0, 0] := by decide

end XChatyClient

end XChaty.Client
