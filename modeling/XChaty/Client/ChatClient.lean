import XChaty.Chat.WindowLog
import XChaty.Client.Ledger

/-! A whole chat window: `XChatyClient` with the widget that shows what it appends, overwrites and
posts.  Of every connection it posts a session: at most one notice that it has connected, and then at
most one that it has disconnected.  The widget shows "connect success!", whatever has become of the
first connection, and one line for each thing appended or posted since. -/

namespace XChaty.Client

open Qt Protoc Chat Hv ProofKit

structure ChatClient where
  client : XChatyClient
  chat : Window

/-- An event of the client, at a time, or the delivery of what is first on the queue. -/
inductive ChatClientInput
  | client (event : ClientEvent) (now : QDateTime)
  | deliver (now : QDateTime)

inductive ChatClientNote
  | did (effect : Effect)
  | shown (note : WindowNote)
deriving DecidableEq, Repr

/-- The call of `m_chatHelper` that an effect is. -/
def Effect.calls (now : QDateTime) : Effect → List WindowInput
  | append str => [.appendMsg now str]
  | overWrite str => [.overWriteMsg str]
  | post p => [.post p]
  | written _ _ | died _ => []

def Effect.posts : Effect → List Post
  | post p => [p]
  | append _ | overWrite _ | written _ _ | died _ => []

namespace ChatClient

/-- The client is now `client`, and has had these effects on the way. -/
def act (s : ChatClient) (client : XChatyClient) (effects : List Effect) (now : QDateTime) :
    ChatClient × List ChatClientNote :=
  let calls := effects.flatMap (Effect.calls now)
  ({ client, chat := window.run s.chat calls },
    effects.map .did ++ (window.log s.chat calls).map .shown)

/-- The constructor, on a widget that holds a text. -/
def new (m_user : User) (form : Form) (text : List UInt16) (now : QDateTime) : ChatClient :=
  let (client, effects) := XChatyClient.new m_user form
  let chat : Window := { queue := [], receiver := some { m_chatEdit := { text } } }
  (act { client, chat } client effects now).1

end ChatClient

def chatClient : Machine ChatClient ChatClientInput (List ChatClientNote) where
  step s
    | .client event now =>
      let (client, effects) := chatyClient.step s.client event
      s.act client effects now
    | .deliver now =>
      let (chat, notes) := window.step s.chat (.deliver now)
      ({ s with chat }, notes.map .shown)

/-! ### Notices -/

namespace XChatyClient

/-- The text that `onConnection` posts for a connection with the descriptor `fd`. -/
def notice (fd : Int) (isConnected : Bool) : QString :=
  let str := if isConnected then QString.ofLiteral "connected" else QString.ofLiteral "disconnected"
  ((QString.ofLiteral "connfd: %1 is %2.").arg (.number fd)).arg str

/-- What a channel has been said to be: nothing while it connects, and then, as far as it has
come, that it has connected and that it has disconnected; or only the latter, when it has never
connected. -/
inductive Notices (channel : SocketChannel) : List Post → Prop
  | connecting (hstatus : channel.status = .connecting) : Notices channel []
  | connected (hstatus : channel.status = .connected) :
    Notices channel [⟨channel.client, notice channel.fd true⟩]
  | failed (hstatus : channel.status = .closed) :
    Notices channel [⟨channel.client, notice channel.fd false⟩]
  | ended (hstatus : channel.status = .closed) :
    Notices channel [⟨channel.client, notice channel.fd true⟩,
      ⟨channel.client, notice channel.fd false⟩]

/-- The posts of one client. -/
def postsOf (client : Nat) (posts : List Post) : List Post :=
  posts.filter fun post => post.sender = client

/-- A channel connects or closes that may do so. -/
inductive Moves : Hv.Status → Hv.Status → Prop
  | connected : Moves .connecting .connected
  | failed : Moves .connecting .closed
  | closed : Moves .connected .closed

/-- What an event makes of the channels, and what it has the client say: nothing of them, when a
channel is added at most, or a notice that a channel has connected or closed. -/
inductive Told (s : XChatyClient) : XChatyClient → List Effect → Prop
  | silent {s' : XChatyClient} {effects : List Effect}
    (hchannels : s'.channels = s.channels ∨ ∃ connfd, s'.channels =
      s.channels ++ [{ client := s.clients.length, fd := connfd, status := .connecting }])
    (heffects : ∀ effect ∈ effects,
      effect = .append (.ofLiteral "host or port is empty!") ∨ ∃ c data, effect = .written c data) :
    Told s s' effects
  | noticed {c : Nat} {channel : SocketChannel} {status : Hv.Status}
    (hc : s.channels[c]? = some channel) (hmoves : Moves channel.status status) :
    Told s ((s.setStatus c status).setInterval channel.client c)
      [.post ⟨channel.client, notice channel.fd (status = .connected)⟩]

theorem channels_of_change {s s' : XChatyClient} {form : Form}
    (h : Change s (.sendMsg form) s') : s'.channels = s.channels ∨ ∃ connfd, s'.channels =
      s.channels ++ [{ client := s.clients.length, fd := connfd, status := .connecting }] := by
  cases h with
  | same => exact .inl rfl
  | newClient => exact .inl rfl
  | connect form connfd => exact .inr ⟨connfd, rfl⟩

theorem sendMsg_told (s : XChatyClient) (form : Form) :
    Told s (s.sendMsg form).1 (s.sendMsg form).2 := by
  apply Told.silent (channels_of_change (sendMsg_change s form).1)
  rw [sendMsg]
  cases s.connectedChannel with
  | some c =>
    dsimp only
    rw [chatBytes_eq]
    intro effect heffect
    exact .inr ⟨c, _, List.mem_singleton.mp heffect⟩
  | none =>
    dsimp only [initConnect]
    by_cases htexts : form.hostEdit.units = [] ∨ form.portEdit.units = []
    · rw [if_pos htexts]
      intro effect heffect
      exact .inl (List.mem_singleton.mp heffect)
    · rw [if_neg htexts]
      intro effect heffect
      by_cases hconnfd : form.createsocket form.portEdit form.hostEdit < 0
      · rw [if_pos hconnfd] at heffect
        cases heffect
      · rw [if_neg hconnfd] at heffect
        cases heffect

theorem onTimer_told (s : XChatyClient) (timerId : TimerID) (now : QString) :
    Told s (s.onTimer timerId now).1 (s.onTimer timerId now).2 := by
  rw [onTimer]
  cases s.timers.find? fun timer => timer.timerId = timerId with
  | none => exact .silent (.inl rfl) fun effect heffect => absurd heffect List.not_mem_nil
  | some t =>
    dsimp only
    by_cases hconnected : s.IsConnected t.channel
    · rw [if_pos hconnected, heartbeatBytes_eq]
      apply Told.silent (.inl rfl)
      intro effect heffect
      exact .inr ⟨t.channel, _, List.mem_singleton.mp heffect⟩
    · rw [if_neg hconnected]
      exact .silent (.inl rfl) fun effect heffect => absurd heffect List.not_mem_nil

theorem onConnection_eq {s : XChatyClient} {c : Nat} {channel : SocketChannel}
    (hc : s.channels[c]? = some channel) (status : Hv.Status) :
    (s.setStatus c status).onConnection channel.client c =
      ((s.setStatus c status).setInterval channel.client c,
        [.post ⟨channel.client, notice channel.fd (status = .connected)⟩]) := by
  have hget : (s.setStatus c status).channels[c]? = some { channel with status } := by
    change (s.channels.modify c _)[c]? = _
    rw [List.getElem?_modify_eq, hc]
    rfl
  have hconnected : (s.setStatus c status).IsConnected c ↔ status = .connected := by
    rw [IsConnected, XChatyClient.status, hget]
    exact Option.some_inj
  simp only [onConnection, hget, hconnected, notice]
  congr 4
  by_cases hstatus : status = .connected <;> simp [hstatus]

theorem Beats.onEvent_told {s : XChatyClient} (h : Beats s) (c : Nat) {event : Event}
    (hevent : event = .connected ∨ event = .closed) :
    Told s (s.onEvent c event).1 (s.onEvent c event).2 := by
  have hnone : Told s s [] :=
    .silent (.inl rfl) fun effect heffect => absurd heffect List.not_mem_nil
  cases hc : s.channels[c]? with
  | none =>
    rw [onEvent, hc]
    exact hnone
  | some channel =>
    have hmove : ∀ status, Moves channel.status status →
        (network.step channel.status event = (status, [.connected]) ∨
          network.step channel.status event = (status, [.closed])) →
        Told s (s.onEvent c event).1 (s.onEvent c event).2 := by
      intro status hmoves hstep
      rw [h.onEvent_eq hc hstep, onConnection_eq hc]
      exact .noticed hc hmoves
    cases hstatus : channel.status with
    | connecting =>
      rw [hstatus] at hmove
      rcases hevent with rfl | rfl
      · exact hmove _ .connected (.inl rfl)
      · exact hmove _ .failed (.inr rfl)
    | connected =>
      rw [hstatus] at hmove
      rcases hevent with rfl | rfl
      · rw [onEvent, hc]
        dsimp only
        rw [hstatus]
        exact hnone
      · exact hmove _ .closed (.inr rfl)
    | opened | closed =>
      rw [onEvent, hc]
      dsimp only
      rw [hstatus]
      rcases hevent with rfl | rfl <;> exact hnone

theorem Beats.step_told {s : XChatyClient} (h : Beats s) (event : ClientEvent) :
    Told s (chatyClient.step s event).1 (chatyClient.step s event).2 := by
  cases event with
  | sendMsg form => exact sendMsg_told s form
  | connected c => exact h.onEvent_told c (.inl rfl)
  | closed c => exact h.onEvent_told c (.inr rfl)
  | tick timerId now => exact onTimer_told s timerId now

/-! ### The notices of a run -/

/-- Every channel has had its notices, and there are no others. -/
structure Noticed (s : XChatyClient) (posts : List Post) : Prop where
  beats : Beats s
  each : ∀ (c : Nat) channel, s.channels[c]? = some channel →
    Notices channel (postsOf channel.client posts)
  others : ∀ client, (∀ (c : Nat) channel, s.channels[c]? = some channel →
    channel.client ≠ client) → postsOf client posts = []

theorem Beats.channel_unique {s : XChatyClient} (h : Beats s) {c c' : Nat}
    {channel channel' : SocketChannel} (hc : s.channels[c]? = some channel)
    (hc' : s.channels[c']? = some channel') (hclient : channel.client = channel'.client) :
    c = c' := by
  have howned := h.owned c channel hc
  rw [hclient, h.owned c' channel' hc'] at howned
  exact (Option.some.inj howned).symm

/-- A channel that moves has been told of as far as it had come, and is now told of once more. -/
theorem Notices.move {channel : SocketChannel} {posts : List Post} (h : Notices channel posts)
    {status : Hv.Status} (hmoves : Moves channel.status status) :
    Notices { channel with status }
      (posts ++ [⟨channel.client, notice channel.fd (status = .connected)⟩]) := by
  cases h with
  | connecting hstatus =>
    rw [hstatus] at hmoves
    cases hmoves with
    | connected => exact .connected rfl
    | failed => exact .failed rfl
  | connected hstatus =>
    rw [hstatus] at hmoves
    cases hmoves with
    | closed => exact .ended rfl
  | failed hstatus | ended hstatus =>
    rw [hstatus] at hmoves
    cases hmoves

theorem Noticed.told {s s' : XChatyClient} {posts : List Post} (h : Noticed s posts)
    {effects : List Effect} (htold : Told s s' effects) (hbeats : Beats s') :
    Noticed s' (posts ++ effects.flatMap Effect.posts) := by
  cases htold with
  | silent hchannels heffects =>
    have hnone : effects.flatMap Effect.posts = [] := by
      apply List.flatMap_eq_nil_iff.mpr
      intro effect heffect
      obtain rfl | ⟨c, data, rfl⟩ := heffects effect heffect <;> rfl
    rw [hnone, List.append_nil]
    rcases hchannels with hsame | ⟨connfd, hmore⟩
    · exact ⟨hbeats, fun c channel hc => h.each c channel (hsame ▸ hc),
        fun client hclient => h.others client fun c channel hc => hclient c channel (hsame ▸ hc)⟩
    · refine ⟨hbeats, fun c channel hc => ?_, fun client hclient => ?_⟩
      · rw [hmore] at hc
        rcases Nat.lt_or_ge c s.channels.length with hlt | hge
        · exact h.each c channel ((List.getElem?_append_left hlt).symm.trans hc)
        · -- The new channel belongs to a new client, which has posted nothing yet.
          rw [List.getElem?_append_right hge] at hc
          obtain rfl := List.mem_singleton.mp (List.mem_of_getElem? hc)
          have hfresh := h.others s.clients.length fun c channel hc =>
            Nat.ne_of_lt (h.beats.client_lt hc)
          exact hfresh ▸ .connecting rfl
      · apply h.others client
        intro c channel hc
        have hlt := (List.getElem?_eq_some_iff.mp hc).1
        apply hclient c channel
        rw [hmore, List.getElem?_append_left hlt]
        exact hc
  | @noticed c channel status hc hmoves =>
    rw [List.flatMap_singleton, Effect.posts]
    have hafter : ∀ c', ((s.setStatus c status).setInterval channel.client c).channels[c']? =
        if c = c' then (s.channels[c']?).map fun channel => { channel with status }
        else s.channels[c']? := by
      intro c'
      change (s.channels.modify c _)[c']? = _
      rw [List.getElem?_modify]
      by_cases heq : c = c' <;> simp [heq]
    have hother : ∀ client, client ≠ channel.client →
        postsOf client (posts ++ [⟨channel.client, notice channel.fd (status = .connected)⟩]) =
          postsOf client posts := by
      intro client hclient
      rw [postsOf, List.filter_append, List.filter_cons_of_neg (by simpa using Ne.symm hclient)]
      exact List.append_nil _
    have hself : postsOf channel.client
        (posts ++ [⟨channel.client, notice channel.fd (status = .connected)⟩]) =
          postsOf channel.client posts ++
            [⟨channel.client, notice channel.fd (status = .connected)⟩] := by
      rw [postsOf, List.filter_append, List.filter_cons_of_pos (by simp)]
      rfl
    refine ⟨hbeats, fun c' channel' hc' => ?_, fun client hclient => ?_⟩
    · rw [hafter] at hc'
      by_cases heq : c = c'
      · subst heq
        rw [if_pos rfl, hc] at hc'
        obtain rfl := Option.some.inj hc'
        change Notices _ (postsOf channel.client _)
        rw [hself]
        exact (h.each c channel hc).move hmoves
      · rw [if_neg heq] at hc'
        rw [hother _ fun hclient => heq (h.beats.channel_unique hc hc' hclient.symm)]
        exact h.each c' channel' hc'
    · have hne : client ≠ channel.client := by
        rintro rfl
        refine hclient c { channel with status } ?_ rfl
        rw [hafter, if_pos rfl, hc]
        rfl
      rw [hother client hne]
      apply h.others client
      intro c' channel' hc' heq
      have hcc' : c ≠ c' := by
        rintro rfl
        rw [hc] at hc'
        exact hne (heq.symm.trans (congrArg SocketChannel.client (Option.some.inj hc')).symm)
      apply hclient c' channel' _ heq
      rw [hafter, if_neg hcc']
      exact hc'

theorem noticed_new (m_user : User) (form : Form) : Noticed (XChatyClient.new m_user form).1 [] := by
  have hbeats := beats_new m_user form
  have hchange := (initConnect_change (unconnected m_user) form).1
  change Noticed ({ unconnected m_user with m_client := none }.initConnect form).1 []
  change Beats ({ unconnected m_user with m_client := none }.initConnect form).1 at hbeats
  generalize ({ unconnected m_user with m_client := none }.initConnect form).1 = s at hchange hbeats
  refine ⟨hbeats, fun c channel hc => ?_, fun _ _ => rfl⟩
  rcases channels_of_change hchange with hnone | ⟨connfd, hone⟩
  · rw [hnone] at hc
    cases hc
  · rw [hone] at hc
    obtain rfl := List.mem_singleton.mp (List.mem_of_getElem? hc)
    exact .connecting rfl

end XChatyClient

/-! ### The widget -/

def ChatClientNote.effect : ChatClientNote → List Effect
  | did effect => [effect]
  | shown _ => []

def ChatClientNote.windowNote : ChatClientNote → List WindowNote
  | did _ => []
  | shown note => [note]

/-- What the constructor always shows. -/
def success : List UInt16 := broken (QString.ofLiteral "connect success!").units

namespace ChatClient

theorem act_notes (s : ChatClient) (client : XChatyClient) (effects : List Effect)
    (now : QDateTime) :
    (s.act client effects now).2.flatMap ChatClientNote.effect = effects ∧
      (s.act client effects now).2.flatMap ChatClientNote.windowNote =
        window.log s.chat (effects.flatMap (Effect.calls now)) := by
  have heffects : ∀ effects : List Effect,
      (effects.map ChatClientNote.did).flatMap ChatClientNote.effect = effects ∧
        (effects.map ChatClientNote.did).flatMap ChatClientNote.windowNote = [] := by
    intro effects
    induction effects with
    | nil => exact ⟨rfl, rfl⟩
    | cons effect effects ih => exact ⟨congrArg (effect :: ·) ih.1, ih.2⟩
  have hshown : ∀ notes : List WindowNote,
      (notes.map ChatClientNote.shown).flatMap ChatClientNote.effect = [] ∧
        (notes.map ChatClientNote.shown).flatMap ChatClientNote.windowNote = notes := by
    intro notes
    induction notes with
    | nil => exact ⟨rfl, rfl⟩
    | cons note notes ih => exact ⟨ih.1, congrArg (note :: ·) ih.2⟩
  rw [act]
  dsimp only
  rw [List.flatMap_append, List.flatMap_append, (heffects _).1, (heffects _).2, (hshown _).1,
    (hshown _).2, List.append_nil, List.nil_append]
  exact ⟨rfl, rfl⟩

theorem step_deliver (s : ChatClient) (now : QDateTime) :
    (chatClient.step s (.deliver now)).2.flatMap ChatClientNote.effect = [] ∧
      (chatClient.step s (.deliver now)).2.flatMap ChatClientNote.windowNote =
        (window.step s.chat (.deliver now)).2 := by
  change ((window.step s.chat (.deliver now)).2.map ChatClientNote.shown).flatMap _ = [] ∧
    ((window.step s.chat (.deliver now)).2.map ChatClientNote.shown).flatMap _ = _
  generalize (window.step s.chat (.deliver now)).2 = notes
  induction notes with
  | nil => exact ⟨rfl, rfl⟩
  | cons note notes ih => exact ⟨ih.1, congrArg (note :: ·) ih.2⟩

/-- The posts of effects are what they put on the queue, and only `overWrite` overwrites. -/
theorem log_calls (w : Window) (effects : List Effect) (now : QDateTime) :
    (window.log w (effects.flatMap (Effect.calls now))).flatMap WindowNote.event =
        (effects.flatMap Effect.posts).map postMsg ∧
      ∀ str, .overwritten str ∈ window.log w (effects.flatMap (Effect.calls now)) →
        .overWrite str ∈ effects := by
  induction effects generalizing w with
  | nil => exact ⟨rfl, fun str hstr => absurd hstr List.not_mem_nil⟩
  | cons effect effects ih =>
    rw [List.flatMap_cons, Machine.log_append, List.flatMap_append, List.flatMap_cons,
      List.map_append]
    obtain ⟨hposts, hover⟩ := ih (window.run w (effect.calls now))
    rw [hposts]
    constructor
    · cases effect <;> rfl
    · intro str hstr
      rcases List.mem_append.mp hstr with hnow | hlater
      · cases effect with
        | overWrite str' =>
          cases List.mem_singleton.mp hnow
          exact List.mem_cons_self
        | append | post => cases List.mem_singleton.mp hnow
        | written | died => cases hnow
      · exact List.mem_cons_of_mem effect (hover str hlater)

theorem overWrite_not_told {s s' : XChatyClient} {effects : List Effect}
    (h : XChatyClient.Told s s' effects) (str : QString) : .overWrite str ∉ effects := by
  intro hstr
  cases h with
  | silent _ heffects => obtain heq | ⟨c, data, heq⟩ := heffects _ hstr <;> cases heq
  | noticed => cases List.mem_singleton.mp hstr

theorem defined_calls {effects : List Effect} (h : ∀ str, .overWrite str ∉ effects)
    (now : QDateTime) : ∀ call ∈ effects.flatMap (Effect.calls now), Defined call := by
  intro call hcall
  obtain ⟨effect, heffect, hcall⟩ := List.mem_flatMap.mp hcall
  cases effect with
  | append | post =>
    obtain rfl := List.mem_singleton.mp hcall
    trivial
  | overWrite str => exact absurd heffect (h str)
  | written | died => cases hcall

/-- The widget of a chat window in a run: it shows "connect success!" and a line for each thing
appended or delivered since; the deliveries have the senders and texts of the posts, in order, up to
those on the queue; and the posts are the notices of the connections. -/
structure ClientLog (s : ChatClient) (notes : List ChatClientNote) : Prop where
  text : Live s.chat (success ++
    (notes.flatMap ChatClientNote.windowNote).flatMap WindowNote.entry)
  posts : ((notes.flatMap ChatClientNote.windowNote).flatMap WindowNote.delivery).map postOf ++
      s.chat.queue.map postOf =
    (notes.flatMap ChatClientNote.effect).flatMap Effect.posts
  notices : XChatyClient.Noticed s.client
    ((notes.flatMap ChatClientNote.effect).flatMap Effect.posts)

theorem ClientLog.client {s : ChatClient} {notes : List ChatClientNote} (h : ClientLog s notes)
    (event : ClientEvent) (now : QDateTime) :
    ClientLog (chatClient.step s (.client event now)).1
      (notes ++ (chatClient.step s (.client event now)).2) := by
  have htold := h.notices.beats.step_told event
  have hbeats := (h.notices.beats.step_change event).1.beats h.notices.beats
  have hnotices := h.notices.told htold hbeats
  change ClientLog (s.act (chatyClient.step s.client event).1 (chatyClient.step s.client event).2
    now).1 (notes ++ (s.act (chatyClient.step s.client event).1
      (chatyClient.step s.client event).2 now).2)
  generalize (chatyClient.step s.client event).1 = client at *
  generalize (chatyClient.step s.client event).2 = effects at *
  have hover := overWrite_not_told htold
  obtain ⟨heffects, hwindow⟩ := act_notes s client effects now
  obtain ⟨hposts, hoverwritten⟩ := log_calls s.chat effects now
  obtain ⟨hlive, hqueue⟩ := h.text.run (defined_calls hover now)
  rw [foldl_shows_entries (fun str hstr => hover str (hoverwritten str hstr))] at hlive
  constructor
  case text =>
    rw [List.flatMap_append, hwindow, List.flatMap_append, ← List.append_assoc]
    exact hlive
  case posts =>
    rw [List.flatMap_append, hwindow, List.flatMap_append, List.map_append, List.append_assoc,
      ← List.map_append]
    change _ ++ (_ ++ (window.run s.chat (effects.flatMap (Effect.calls now))).queue).map postOf = _
    rw [hqueue, List.map_append, ← List.append_assoc, h.posts, hposts, map_postOf,
      List.flatMap_append, heffects, List.flatMap_append]
  case notices =>
    rw [List.flatMap_append, heffects, List.flatMap_append]
    exact hnotices

theorem ClientLog.deliver {s : ChatClient} {notes : List ChatClientNote} (h : ClientLog s notes)
    (now : QDateTime) :
    ClientLog (chatClient.step s (.deliver now)).1
      (notes ++ (chatClient.step s (.deliver now)).2) := by
  obtain ⟨heffects, hwindow⟩ := step_deliver s now
  obtain ⟨hlive, hqueue⟩ := h.text.step (show Defined (.deliver now) from trivial)
  have hdelivery : (window.step s.chat (.deliver now)).2.flatMap WindowNote.event = [] ∧
      ∀ str, .overwritten str ∉ (window.step s.chat (.deliver now)).2 := by
    obtain ⟨queue, receiver⟩ := s.chat
    cases queue with
    | nil => exact ⟨rfl, fun str => List.not_mem_nil⟩
    | cons event queue => exact ⟨rfl, fun str hstr => by cases List.mem_singleton.mp hstr⟩
  rw [foldl_shows_entries hdelivery.2] at hlive
  rw [hdelivery.1, List.append_nil] at hqueue
  constructor
  case text =>
    rw [List.flatMap_append, hwindow, List.flatMap_append, ← List.append_assoc]
    exact hlive
  case posts =>
    rw [List.flatMap_append, hwindow, List.flatMap_append, List.map_append, List.append_assoc,
      ← List.map_append, List.flatMap_append, heffects, List.append_nil, ← h.posts, ← hqueue]
    rfl
  case notices =>
    rw [List.flatMap_append, heffects, List.append_nil]
    exact h.notices

/-- The constructor appends what it has to say of a connection that cannot be made, and then
overwrites it. -/
theorem new_effects (m_user : User) (form : Form) : ∃ before : List Effect,
    (XChatyClient.new m_user form).2 = before ++ [.overWrite (.ofLiteral "connect success!")] ∧
      ∀ effect ∈ before, ∃ str, effect = .append str := by
  have hinit : ∀ effect ∈ ((XChatyClient.unconnected m_user).initConnect form).2.1,
      ∃ str, effect = .append str := by
    rw [XChatyClient.initConnect]
    dsimp only [XChatyClient.unconnected]
    by_cases htexts : form.hostEdit.units = [] ∨ form.portEdit.units = []
    · rw [if_pos htexts]
      intro effect heffect
      exact ⟨_, List.mem_singleton.mp heffect⟩
    · rw [if_neg htexts]
      intro effect heffect
      by_cases hconnfd : form.createsocket form.portEdit form.hostEdit < 0
      · rw [if_pos hconnfd] at heffect
        cases heffect
      · rw [if_neg hconnfd] at heffect
        cases heffect
  refine ⟨_, rfl, fun effect heffect => ?_⟩
  rcases List.mem_append.mp heffect with hbefore | hfailed
  · exact hinit effect hbefore
  · split at hfailed
    · cases hfailed
    · exact ⟨_, List.mem_singleton.mp hfailed⟩

theorem clientLog_new (m_user : User) (form : Form) (text : List UInt16) (now : QDateTime) :
    ClientLog (new m_user form text now) [] := by
  obtain ⟨before, heffects, hbefore⟩ := new_effects m_user form
  have hlive : Live { queue := [], receiver := some { m_chatEdit := { text } } } text :=
    ⟨rfl, fun event hevent => absurd hevent List.not_mem_nil⟩
  have hdefined : ∀ call ∈ before.flatMap (Effect.calls now), Defined call := by
    apply defined_calls
    intro str hstr
    obtain ⟨str', heq⟩ := hbefore _ hstr
    cases heq
  have hposts : before.flatMap Effect.posts = [] := by
    apply List.flatMap_eq_nil_iff.mpr
    intro effect heffect
    obtain ⟨str, rfl⟩ := hbefore effect heffect
    rfl
  obtain ⟨hmid, hqueue⟩ := hlive.run hdefined
  have hsuccess : (QString.ofLiteral "connect success!").units ≠ [] := by decide
  obtain ⟨hend, -⟩ := hmid.step
    (show Defined (.overWriteMsg (.ofLiteral "connect success!")) from hsuccess)
  rw [(log_calls _ before now).1, hposts] at hqueue
  have hnew : (new m_user form text now).chat = (window.step (window.run
      { queue := [], receiver := some { m_chatEdit := { text } } }
        (before.flatMap (Effect.calls now))) (.overWriteMsg (.ofLiteral "connect success!"))).1 := by
    change window.run _ ((XChatyClient.new m_user form).2.flatMap (Effect.calls now)) = _
    rw [heffects, List.flatMap_append, Machine.run_append]
    rfl
  constructor
  case text =>
    rw [hnew]
    exact hend
  case posts =>
    rw [hnew]
    exact congrArg (List.map postOf) (List.append_eq_nil_iff.mp hqueue).2
  case notices => exact XChatyClient.noticed_new m_user form

/-- In every run of a chat window its widget holds its log. -/
theorem log_of_client (m_user : User) (form : Form) (text : List UInt16) (now : QDateTime)
    (inputs : List ChatClientInput) :
    ClientLog (chatClient.run (new m_user form text now) inputs)
      (chatClient.log (new m_user form text now) inputs) := by
  refine Machine.run_history (P := fun _ s notes => ClientLog s notes)
    (clientLog_new m_user form text now) (fun _ s notes input h => ?_) inputs
  cases input with
  | client event now => exact h.client event now
  | deliver now => exact h.deliver now

end ChatClient

end XChaty.Client
