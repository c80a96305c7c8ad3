import XChaty.ProofKit.Machine
import XChaty.Protoc.Wire
import XChaty.Server.SqlHelper

/-! `mainwindow`, the server: `LoginCheck`, `onMsg`, and the process that runs `onMsg` on one buffer
after the other until a fault ends it.  `onMsg_eq` says all that `onMsg` does with a buffer, by the
class of the body that the buffer decodes to. -/

namespace XChaty.Server

open Qt Protoc ProofKit

/-- What `onMsg` works on: the shared `SqlHelper`, the texts of the events that `PostMsg` has
posted, and the bytes that `channel->write` has put on the connections, oldest first. -/
structure MainWindow (Db : Type) where
  sql : SqlHelper Db
  posted : List QString
  written : List (Nat × QByteArray)

def MainWindow.new {Db : Type} (database : Db) : MainWindow Db :=
  { sql := SqlHelper.new database, posted := [], written := [] }

section Window

variable {Db : Type} (host : Host Db)

def MainWindow.postMsg (window : MainWindow Db) (str : QString) : MainWindow Db :=
  { window with posted := window.posted ++ [str] }

/-- Whatever `GetUser` returns is only logged. -/
def loginCheck (helper : SqlHelper Db) (_user : User) :
    Except (Crash (SqlHelper Db)) (SqlHelper Db × Bool) := do
  let (helper, _pUser) ← getUserByName host helper _user.id
  return (helper, true)

/-- `onMsg`, with the type in the head of its local `response` when it returns, or `none` when it
returns before there is one. -/
def onMsg (window : MainWindow Db) (_channel : Nat) (buf : List UInt8) :
    Except (Crash (MainWindow Db)) (MainWindow Db × Option UInt8) :=
  let msg := convertBuf2ChatyMsg buf
  if msg.pMsgBody.isNone then return (window, none) else
  let response := ResponseType.respDefaultSuccess.code
  if msg.msgHead.msgType = RequestType.reqLogin.code then do
    let login_msg ← crashIn window (deref .nullCast (asLoginMsg msg.pMsgBody))
    let (sql, accepted) ← (loginCheck host window.sql login_msg.user).mapError
      (Crash.map fun sql => { window with sql })
    -- The verdict goes to a variable that nothing reads.
    let _respType := if accepted then ResponseType.respLoginSuccess else .respLoginFailed
    let response := ResponseType.respLoginSuccess.code
    return ({ window with sql }, some response)
  else if msg.msgHead.msgType = RequestType.reqRegist.code then do
    let reg_msg ← crashIn window (deref .nullCast (asLoginMsg msg.pMsgBody))
    let _user := reg_msg.user
    return (window, some response)
  else if msg.msgHead.msgType = RequestType.reqChat.code then do
    let chat_msg ← crashIn window (deref .nullCast (asChatMsg msg.pMsgBody))
    return (window.postMsg chat_msg.chatMsg, some response)
  else return (window, some response)

/-- What `onMsg` does with a message, by the class of its body and the type in its head. -/
def treat (window : MainWindow Db) (msg : ChatyMessage) :
    Except (Crash (MainWindow Db)) (MainWindow Db × Option UInt8) :=
  match msg.pMsgBody with
  | some (.loginMsg body) =>
    if msg.msgHead.msgType = RequestType.reqLogin.code then
      match (lookup host window.sql body.user.id).rows with
      | [] => .ok ({ window with sql := afterLookup host window.sql body.user.id },
          some ResponseType.respLoginSuccess.code)
      | row :: _ => .error ⟨.nullUser, { window with sql := cutLookup host window.sql row }⟩
    else .ok (window, some ResponseType.respDefaultSuccess.code)
  | some (.clientMessage body) =>
    .ok (window.postMsg body.chatMsg, some ResponseType.respDefaultSuccess.code)
  | _ => .ok (window, none)

theorem loginCheck_of_no_rows {helper : SqlHelper Db} {user : User}
    (h : (lookup host helper user.id).rows = []) :
    loginCheck host helper user = .ok (afterLookup host helper user.id, true) := by
  rw [loginCheck, getUserByName_of_no_rows h]
  rfl

theorem loginCheck_of_row {helper : SqlHelper Db} {user : User} {row : Row Db}
    {rows : List (Row Db)} (h : (lookup host helper user.id).rows = row :: rows) :
    loginCheck host helper user = .error ⟨.nullUser, cutLookup host helper row⟩ := by
  rw [loginCheck, getUserByName_of_row h]
  rfl

/-- No cast in `onMsg` fails, so the class of the body decides alone. -/
theorem onMsg_eq (window : MainWindow Db) (channel : Nat) (buf : List UInt8) :
    onMsg host window channel buf = treat host window (decode buf).1 := by
  have hagrees := decode_agrees buf
  rw [onMsg, convertBuf2ChatyMsg_eq]
  generalize (decode buf).1 = msg at hagrees
  obtain ⟨⟨time, msgType⟩, body⟩ := msg
  obtain ⟨body, rfl, htype⟩ | ⟨body, rfl, htype⟩ | ⟨rfl, -, -⟩ := hagrees.shape
  · rcases htype with rfl | rfl
    · change Except.bind ((loginCheck host window.sql body.user).mapError _) _ = _
      cases hrows : (lookup host window.sql body.user.id).rows with
      | nil =>
        simp only [treat, hrows, loginCheck_of_no_rows host hrows, if_true]
        rfl
      | cons row rows =>
        simp only [treat, hrows, loginCheck_of_row host hrows, if_true]
        rfl
    · rfl
  · obtain rfl : msgType = RequestType.reqChat.code := htype
    rfl
  · rfl

theorem treat_ne_nullCast {window : MainWindow Db} {msg : ChatyMessage}
    {crash : Crash (MainWindow Db)} (h : treat host window msg = .error crash) :
    crash.fault ≠ .nullCast := by
  rw [treat] at h
  split at h
  · split at h
    · split at h
      · cases h
      · cases h
        exact Fault.noConfusion
    · cases h
  · cases h
  · cases h

end Window

/-! ### The process -/

/-- The server while it runs (`fault = none`), or as a fault in `onMsg` has left it. -/
structure Process (Db : Type) where
  window : MainWindow Db
  fault : Option Fault

def Process.new {Db : Type} (database : Db) : Process Db :=
  { window := MainWindow.new database, fault := none }

/-- A buffer that `onMsg` has returned from: the message that it decoded to, and the type in the
head of the response. -/
structure Handled where
  msg : ChatyMessage
  response : Option UInt8
deriving DecidableEq, Repr

/-- Buffers with the numbers of their connections go to `onMsg` one after the other. -/
def server {Db : Type} (host : Host Db) :
    Machine (Process Db) (Nat × List UInt8) (Option Handled) where
  step process input :=
    match process.fault with
    | some _ => (process, none)
    | none =>
      match onMsg host process.window input.1 input.2 with
      | .ok (window, response) =>
        ({ process with window }, some ⟨convertBuf2ChatyMsg input.2, response⟩)
      | .error crash => ({ window := crash.state, fault := some crash.fault }, none)

end XChaty.Server
