import Mathlib.Data.List.Basic
import XChaty.Hv.TcpClient
import XChaty.Protoc.Wire

/-! `LoginWindow::PostUserInfo`: connect, send the user, and return.  The function waits neither for
the connection before it sends nor for the reply before its `TcpClient` goes out of scope, so the
exchange is made only when both happen to come in time. -/

namespace XChaty.Client

open Qt Protoc Hv

/-- The members of `LoginWindow` that `PostUserInfo` uses, and whether its buttons are enabled. -/
structure LoginWindow where
  m_user : Option User
  m_serverHost : QString
  m_serverPort : Int
  logBtn : Bool
  regBtn : Bool
deriving DecidableEq, Repr

def LoginWindow.new : LoginWindow :=
  { m_user := none, m_serverHost := .ofLiteral "127.0.0.1", m_serverPort := 1234
    logBtn := true, regBtn := true }

structure Order where
  beforeStart : List Event
  beforeSend : List Event
  beforeEnd : List Event
  afterEnd : List Event
deriving DecidableEq, Repr

/-- What `PostUserInfo` leaves: the window, what became of the connection, and the title and the
text of the message box, if there was one. -/
structure Posting where
  window : LoginWindow
  trace : List Occurrence
  warning : Option (QString × QString)
deriving DecidableEq, Repr

/-- The serialised request, when the clock reads `now`. -/
def requestBytes (now : QString) (_msgType : RequestType) (user : User) :
    Except Fault QByteArray := do
  let loginMsg : LoginMsg := { user }
  let msg ← ChatyMessage.ofRequest now _msgType (some (.loginMsg loginMsg))
  serrialize msg

/-- `createsocket` is given the port and the host. -/
def postUserInfo (createsocket : Int → QString → Int) (now : QString) (order : Order)
    (window : LoginWindow) (_msgType : RequestType) : Except Fault Posting :=
  let connfd := createsocket window.m_serverPort window.m_serverHost
  if connfd < 0 then
    return { window, trace := [.destroyed]
             warning := some (.ofLiteral "warning", .ofLiteral "server connecting failed") }
  else do
    let user ← deref .nullUser window.m_user
    let ba ← requestBytes now _msgType user
    let loginClient := (TcpClient.created.events order.beforeStart).start
    let (loginClient, _sent) := (loginClient.events order.beforeSend).send ba
    -- The client is a local variable.
    let loginClient := (loginClient.events order.beforeEnd).destroy
    return { window := { window with logBtn := false, regBtn := false }
             trace := (loginClient.events order.afterEnd).trace, warning := none }

/-! ### What becomes of the connection -/

theorem requestBytes_login_regist (now : QString) {_msgType : RequestType} (user : User)
    (h : _msgType = .reqLogin ∨ _msgType = .reqRegist) :
    ∃ ba, requestBytes now _msgType user = .ok ba := by
  rcases h with rfl | rfl
  · exact ⟨_, rfl⟩
  · exact ⟨_, rfl⟩

def postTrace (order : Order) (ba : QByteArray) : List Occurrence :=
  happens .connecting order.beforeSend ++
    (if network.run .connecting order.beforeSend = .connected then [.handed ba] else []) ++
    happens (network.run .connecting order.beforeSend) order.beforeEnd ++ [.destroyed]

theorem send_trace (order : Order) (ba : QByteArray) :
    ((((TcpClient.mk .connecting []).events order.beforeSend).send ba).1.events
      order.beforeEnd).trace ++ [.destroyed] = postTrace order ba := by
  by_cases hconnected : network.run .connecting order.beforeSend = .connected
  · simp [TcpClient.send, TcpClient.events, postTrace, hconnected]
  · simp [TcpClient.send, TcpClient.events, postTrace, hconnected]

theorem postUserInfo_eq {createsocket : Int → QString → Int} {now : QString} (order : Order)
    {window : LoginWindow} {user : User} {_msgType : RequestType} {ba : QByteArray}
    (hsocket : 0 ≤ createsocket window.m_serverPort window.m_serverHost)
    (huser : window.m_user = some user) (hbytes : requestBytes now _msgType user = .ok ba) :
    postUserInfo createsocket now order window _msgType =
      .ok { window := { window with logBtn := false, regBtn := false }
            trace := postTrace order ba, warning := none } := by
  have hstart : (TcpClient.created.events order.beforeStart).start =
      { status := .connecting, trace := [] } := by
    obtain ⟨hstatus, hnothing⟩ := still (.inl rfl) order.beforeStart
    simp only [TcpClient.created, TcpClient.events, TcpClient.start, hstatus, hnothing]
    rfl
  have hend : ∀ client : TcpClient, (client.destroy.events order.afterEnd).trace =
      client.trace ++ [.destroyed] := by
    intro client
    have hnothing := (still (.inr rfl) order.afterEnd).2
    simp only [TcpClient.destroy, TcpClient.events, hnothing, List.append_nil]
  rw [postUserInfo, if_neg (by omega), huser, hstart]
  change Except.bind (requestBytes now _msgType user) _ = _
  rw [hbytes]
  change Except.ok _ = _
  rw [hend]
  exact congrArg (fun trace => Except.ok (Posting.mk _ trace none)) (send_trace order ba)

/-- The exchange that the comment of `loginwindow.h` describes: the request is handed to the
connection once, after the channel is connected, and the client is destroyed after a reply to it or
after the connection has closed. -/
structure Orderly (ba : QByteArray) (trace : List Occurrence) : Prop where
  once : trace.filterMap Occurrence.data = [ba]
  connected : ∀ before data after, trace = before ++ .handed data :: after → .connected ∈ before
  waited : ∀ before after, trace = before ++ .destroyed :: after →
    .closed ∈ before ∨ ∃ start data rest buf, before = start ++ .handed data :: rest ∧
      .received buf ∈ rest

def PostsOrderly (createsocket : Int → QString → Int) (now : QString) (order : Order)
    (window : LoginWindow) (_msgType : RequestType) : Prop :=
  ∃ user ba posting, window.m_user = some user ∧ requestBytes now _msgType user = .ok ba ∧
    postUserInfo createsocket now order window _msgType = .ok posting ∧
    Orderly ba posting.trace

theorem not_orderly_of_unconnected {order : Order} {ba : QByteArray}
    (h : network.run .connecting order.beforeSend ≠ .connected) :
    ¬Orderly ba (postTrace order ba) := by
  intro horderly
  have honce := horderly.once
  rw [postTrace, if_neg h, List.append_nil, List.filterMap_append, List.filterMap_append,
    data_happens, data_happens] at honce
  cases honce

theorem orderly_iff_of_connected {order : Order} {ba : QByteArray}
    (h : network.run .connecting order.beforeSend = .connected) :
    Orderly ba (postTrace order ba) ↔
      .closed ∈ order.beforeEnd ∨ ∃ buf, .received buf ∈ order.beforeEnd := by
  obtain ⟨hconnected, hopen⟩ := (run_connecting_iff order.beforeSend).mp h
  have htrace : postTrace order ba = (happens .connecting order.beforeSend ++
      .handed ba :: happens .connected order.beforeEnd) ++ .destroyed :: [] := by
    simp [postTrace, h]
  have hfirst := handed_notMem_happens .connecting order.beforeSend
  have hsecond := handed_notMem_happens .connected order.beforeEnd
  rw [htrace, ← answered_iff]
  constructor
  · intro horderly
    rcases horderly.waited _ [] rfl with hclosed | ⟨start, data, rest, buf, hsplit, hbuf⟩
    · left
      rcases List.mem_append.mp hclosed with hbefore | hafter
      · exact absurd (closed_of_happens hbefore) hopen
      · simpa using hafter
    · right
      obtain ⟨-, -, rfl⟩ := (List.append_cons_inj_of_notMem (hfirst data) (hsecond data)).mp hsplit
      exact ⟨buf, hbuf⟩
  · intro hanswered
    constructor
    · simp [data_happens, Occurrence.data]
    · intro before data after hsplit
      rw [List.append_assoc, List.cons_append] at hsplit
      have hrest : Occurrence.handed data ∉
          happens .connected order.beforeEnd ++ [.destroyed] := by
        simp [hsecond data]
      obtain ⟨rfl, -, -⟩ := (List.append_cons_inj_of_notMem (hfirst data) hrest).mp hsplit
      exact connected_happens hconnected hopen
    · intro before after hsplit
      have hbefore : Occurrence.destroyed ∉ happens .connecting order.beforeSend ++
          .handed ba :: happens .connected order.beforeEnd := by
        simp [destroyed_notMem_happens]
      obtain ⟨rfl, -, -⟩ :=
        (List.append_cons_inj_of_notMem hbefore List.not_mem_nil).mp hsplit
      rcases hanswered with hclosed | ⟨buf, hbuf⟩
      · exact .inl (List.mem_append_right _ (List.mem_cons_of_mem _ hclosed))
      · exact .inr ⟨_, ba, _, buf, rfl, hbuf⟩

/-- The exchange is orderly exactly when the connection is completed, and not closed, before the
request is sent, and then a reply comes or the connection closes before the function ends. -/
theorem posts_orderly_iff {createsocket : Int → QString → Int} {window : LoginWindow} {user : User}
    {_msgType : RequestType} (now : QString) (order : Order)
    (hsocket : 0 ≤ createsocket window.m_serverPort window.m_serverHost)
    (huser : window.m_user = some user) (htype : _msgType = .reqLogin ∨ _msgType = .reqRegist) :
    PostsOrderly createsocket now order window _msgType ↔
      (.connected ∈ order.beforeSend ∧ .closed ∉ order.beforeSend) ∧
        (.closed ∈ order.beforeEnd ∨ ∃ buf, .received buf ∈ order.beforeEnd) := by
  obtain ⟨ba, hbytes⟩ := requestBytes_login_regist now user htype
  have hpost := postUserInfo_eq order hsocket huser hbytes
  have horderly : PostsOrderly createsocket now order window _msgType ↔
      Orderly ba (postTrace order ba) := by
    constructor
    · rintro ⟨user', ba', posting, huser', hbytes', hpost', horderly⟩
      obtain rfl : user = user' := Option.some.inj (huser.symm.trans huser')
      obtain rfl : ba = ba' := Except.ok.inj (hbytes.symm.trans hbytes')
      rw [hpost] at hpost'
      cases hpost'
      exact horderly
    · intro horderly
      exact ⟨user, ba, _, huser, hbytes, hpost, horderly⟩
  rw [horderly, ← run_connecting_iff]
  by_cases hconnected : network.run .connecting order.beforeSend = .connected
  · rw [orderly_iff_of_connected hconnected]
    exact ⟨fun h => ⟨hconnected, h⟩, fun h => h.2⟩
  · exact ⟨fun h => absurd h (not_orderly_of_unconnected hconnected),
      fun h => absurd h.1 hconnected⟩

/-! ### A connection that is completed and answered after the function has ended -/

def bob : LoginWindow :=
  { LoginWindow.new with m_user := some ⟨.text [98, 111, 98], .text [52, 98], .text []⟩ }

def lateOrder : Order :=
  { beforeStart := [], beforeSend := [], beforeEnd := [], afterEnd := [.connected, .received [0]] }

theorem posts_orderly_iff_late :
    PostsOrderly (fun _ _ => 3) .null lateOrder bob .reqLogin ↔
      (.connected ∈ lateOrder.beforeSend ∧ .closed ∉ lateOrder.beforeSend) ∧
        (.closed ∈ lateOrder.beforeEnd ∨ ∃ buf, .received buf ∈ lateOrder.beforeEnd) :=
  posts_orderly_iff .null lateOrder (by decide) rfl (.inl rfl)

/-- The request is never handed over. -/
theorem late_request_lost : ¬PostsOrderly (fun _ _ => 3) .null lateOrder bob .reqLogin := by
  rintro ⟨user, ba, posting, -, -, hpost, horderly⟩
  have hposted : postUserInfo (fun _ _ => 3) .null lateOrder bob .reqLogin =
      .ok { window := { bob with logBtn := false, regBtn := false }
            trace := [.destroyed], warning := none } := rfl
  rw [hposted] at hpost
  cases hpost
  cases horderly.once

end XChaty.Client
