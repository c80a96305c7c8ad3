import XChaty.Server.Runs

/-! Logins and registrations over whole runs, each request in a buffer of its own.  A registration
stores nothing and every login that `onMsg` returns from is accepted, so the table never governs a
login; and no request is answered, since the responses are never written. -/

namespace XChaty.Server

open Qt Protoc ProofKit

inductive RequestKind
  | login
  | regist
deriving DecidableEq, Repr

def RequestKind.type : RequestKind → RequestType
  | login => .reqLogin
  | regist => .reqRegist

def RequestKind.replies : RequestKind → List ResponseType
  | login => [.respLoginSuccess, .respLoginFailed]
  | regist => [.respRegistSuccess, .respRegistFailed]

def requestMsg (kind : RequestKind) (time : QString) (user : User) : ChatyMessage :=
  { msgHead := { time, msgType := kind.type.code }, pMsgBody := some (.loginMsg { user }) }

theorem requestMsg_agrees (kind : RequestKind) (time : QString) (user : User) :
    (requestMsg kind time user).Agrees := by
  cases kind with
  | login => exact Or.inl rfl
  | regist => exact Or.inr rfl

structure Request where
  kind : RequestKind
  time : QString
  user : User
  fits : (requestMsg kind time user).wire.length < 2 ^ 31

def Request.packet (r : Request) : Packet :=
  .ofMsg (requestMsg r.kind r.time r.user) (requestMsg_agrees r.kind r.time r.user) r.fits

def arrivals (requests : List (Nat × Request)) : List (Nat × List UInt8) :=
  whole (requests.map fun r => (r.1, r.2.packet))

section Requests

variable {Db : Type} (host : Host Db) (database : Db)

def after (requests : List (Nat × Request)) : Process Db :=
  (server host).run (Process.new database) (arrivals requests)

/-- No login among the requests has a row for the callback. -/
def NoRows (requests : List (Nat × Request)) : Prop :=
  ∀ before channel r rest, requests = before ++ (channel, r) :: rest → r.kind = .login →
    (lookup host (after host database before).window.sql r.user.id).rows = []

theorem request_crashes_iff (window : MainWindow Db) (r : Request) :
    Crashes host window r.packet.msg ↔
      r.kind = .login ∧ (lookup host window.sql r.user.id).rows ≠ [] := by
  have htype : r.kind.type.code = RequestType.reqLogin.code ↔ r.kind = .login := by
    cases r.kind <;> decide
  constructor
  · rintro ⟨body, hbody, hlogin, hrows⟩
    cases hbody
    exact ⟨htype.mp hlogin, hrows⟩
  · rintro ⟨hlogin, hrows⟩
    exact ⟨⟨r.user⟩, rfl, htype.mpr hlogin, hrows⟩

theorem running_after_iff (requests : List (Nat × Request)) :
    (after host database requests).fault = none ↔ NoRows host database requests := by
  rw [after, arrivals, running_whole_iff, Survives, forall_map_split _ _ fun before p =>
    ¬Crashes host ((server host).run (Process.new database) (whole before)).window p.2.msg]
  constructor
  · rintro ⟨-, hcrash⟩ before channel r rest hsplit hlogin
    by_contra hrows
    exact hcrash before (channel, r) rest hsplit
      ((request_crashes_iff host _ r).mpr ⟨hlogin, hrows⟩)
  · intro hrows
    refine ⟨rfl, fun before p rest hsplit hcrash => ?_⟩
    obtain ⟨hlogin, hrow⟩ := (request_crashes_iff host _ p.2).mp hcrash
    exact hrow (hrows before p.1 p.2 rest hsplit hlogin)

theorem after_append (requests : List (Nat × Request)) (channel : Nat) (r : Request) :
    after host database (requests ++ [(channel, r)]) =
      ((server host).step (after host database requests) (channel, r.packet.bytes)).1 := by
  rw [after, arrivals, whole, List.map_append, List.map_append, Machine.run_append]
  rfl

/-! ### Who may log in -/

def Registered (requests : List (Nat × Request)) (user : User) : Prop :=
  ∃ channel r, (channel, r) ∈ requests ∧ r.kind = .regist ∧
    r.user.userName = user.userName ∧ r.user.passwd = user.passwd

/-- The type of the response that `onMsg` returns with for a request after some others. -/
def decided (before : List (Nat × Request)) (channel : Nat) (r : Request) : Option UInt8 :=
  ((server host).step (after host database before) (channel, r.packet.bytes)).2.bind
    Handled.response

/-- Every login is decided by the registrations before it. -/
def RegistrationGoverns (requests : List (Nat × Request)) : Prop :=
  ∀ before channel r rest, requests = before ++ (channel, r) :: rest → r.kind = .login →
    (decided host database before channel r = some ResponseType.respLoginSuccess.code ↔
      Registered before r.user)

/-- A login is accepted unless the process has ended. -/
theorem decided_login_iff (before : List (Nat × Request)) (channel : Nat) {r : Request}
    (h : r.kind = .login) :
    decided host database before channel r = some ResponseType.respLoginSuccess.code ↔
      NoRows host database (before ++ [(channel, r)]) := by
  rw [← running_after_iff, after_append, decided]
  cases hfault : (after host database before).fault with
  | some fault => simp [server_step_of_stopped host hfault, hfault]
  | none =>
    obtain ⟨window, response, htreat, -, hstep⟩ | ⟨sql, -, hstep⟩ :=
      server_step_of_running host hfault (channel, r.packet.bytes)
    · have haccepted : response = some ResponseType.respLoginSuccess.code := by
        rw [Packet.decode_bytes] at htreat
        simp only [Request.packet, Packet.ofMsg, requestMsg, h, treat, RequestKind.type, if_true]
          at htreat
        split at htreat
        · cases htreat
          rfl
        · cases htreat
      simp [hstep, hfault, haccepted]
    · simp [hstep]

/-- Registration governs the logins of a run exactly when each login was registered before it or
finds the process ended, and not both. -/
theorem registration_governs_iff (requests : List (Nat × Request)) :
    RegistrationGoverns host database requests ↔
      ∀ before channel r rest, requests = before ++ (channel, r) :: rest → r.kind = .login →
        (NoRows host database (before ++ [(channel, r)]) ↔ Registered before r.user) := by
  constructor
  · intro hgoverns before channel r rest hsplit hlogin
    rw [← decided_login_iff host database before channel hlogin]
    exact hgoverns before channel r rest hsplit hlogin
  · intro hrows before channel r rest hsplit hlogin
    rw [decided_login_iff host database before channel hlogin]
    exact hrows before channel r rest hsplit hlogin

/-! ### Who is answered -/

/-- The requests that `onMsg` is called with: none after a fault. -/
def taken (process : Process Db) : List (Nat × Request) → List (Nat × Request)
  | [] => []
  | (channel, r) :: requests =>
    match process.fault with
    | some _ => []
    | none =>
      (channel, r) :: taken ((server host).step process (channel, r.packet.bytes)).1 requests

def ReplyTo (r : Request) (bytes : QByteArray) : Prop :=
  (decode bytes).1.msgHead.msgType ∈ r.kind.replies.map ResponseType.code

/-- What the run writes on each connection are the responses to the requests taken there, one for
each and in order. -/
def OneReplyEach (requests : List (Nat × Request)) : Prop :=
  ∀ channel, List.Forall₂ ReplyTo
    ((taken host (Process.new database) requests).filterMap fun r =>
      if r.1 = channel then some r.2 else none)
    ((after host database requests).window.written.filterMap fun w =>
      if w.1 = channel then some w.2 else none)

/-- The server never writes, so it answers every request of a run exactly when there is none. -/
theorem one_reply_each_iff (requests : List (Nat × Request)) :
    OneReplyEach host database requests ↔ requests = [] := by
  have hwritten : (after host database requests).window.written = [] :=
    written_run host (Process.new database) (arrivals requests)
  constructor
  · intro hreplies
    cases requests with
    | nil => rfl
    | cons p requests =>
      have hchannel := hreplies p.1
      rw [hwritten, taken] at hchannel
      simp only [Process.new, List.filterMap_cons, if_true, List.filterMap_nil] at hchannel
      cases hchannel
  · rintro rfl channel
    exact List.Forall₂.nil

end Requests

/-! ### One login and nothing before it -/

def loginOfBob : Request :=
  { kind := .login, time := .null, user := ⟨.text [98, 111, 98], .text [52, 98], .null⟩
    fits := by decide }

theorem unregistered_login_accepted :
    ¬RegistrationGoverns syntaxErrorHost [] [(0, loginOfBob)] := by
  intro hgoverns
  have hlogin := hgoverns [] 0 loginOfBob [] rfl rfl
  obtain ⟨_, _, hmem, -⟩ := hlogin.mp (by decide)
  cases hmem

theorem login_not_answered : ¬OneReplyEach syntaxErrorHost [] [(0, loginOfBob)] := by
  intro hreplies
  have hnone : List.Forall₂ ReplyTo [loginOfBob] [] := hreplies 0
  cases hnone

end XChaty.Server
