import XChaty.Qt.QString

/-! The messages of namespace `protoc`: heads, the classes under `BaseMsg` with their copy
constructors and `clone`, and `ChatyMessage` with its constructors and `Init`.  A pointer that may
be null is an `Option`, and reading through a null one is a `Fault`, which ends the process.
`Agrees` says that the class of the body is the one that the type in the head calls for. -/

namespace XChaty.Protoc

open Qt

inductive Fault
  | nullCast
  | nullUser
  | missingColumn
deriving DecidableEq, Repr

def deref {α : Type} (fault : Fault) : Option α → Except Fault α
  | some a => .ok a
  | none => .error fault

/-- A fault, and the state that it leaves. -/
structure Crash (σ : Type) where
  fault : Fault
  state : σ
deriving DecidableEq, Repr

def Crash.map {σ τ : Type} (f : σ → τ) (crash : Crash σ) : Crash τ :=
  { fault := crash.fault, state := f crash.state }

/-- A fault in the step leaves `state`. -/
def crashIn {σ α : Type} (state : σ) (step : Except Fault α) : Except (Crash σ) α :=
  step.mapError fun fault => { fault, state }

inductive RequestType
  | reqLogin
  | reqRegist
  | reqChat
  | reqSendFile
  | reqDefault
  | reqHb
deriving DecidableEq, Repr

def RequestType.code : RequestType → UInt8
  | reqLogin => 0
  | reqRegist => 2
  | reqChat => 4
  | reqSendFile => 5
  | reqDefault => 254
  | reqHb => 255

inductive ResponseType
  | respLoginSuccess
  | respLoginFailed
  | respRegistSuccess
  | respRegistFailed
  | respChatSuccess
  | respChatFailed
  | respDefaultSuccess
  | respDefaultFailed
deriving DecidableEq, Repr

def ResponseType.code : ResponseType → UInt8
  | respLoginSuccess => 0
  | respLoginFailed => 1
  | respRegistSuccess => 2
  | respRegistFailed => 3
  | respChatSuccess => 4
  | respChatFailed => 5
  | respDefaultSuccess => 254
  | respDefaultFailed => 255

structure User where
  userName : QString
  passwd : QString
  id : QString
deriving DecidableEq, Repr

def User.new : User := { userName := .text [], passwd := .text [], id := .text [] }

/-- `BaseHead`, with the fields that `chatyHead` and `ResponseHead` inherit. -/
structure Head where
  time : QString
  msgType : UInt8
deriving DecidableEq, Repr

/-- `LoginMsg`, which is also `RegistMsg`. -/
structure LoginMsg where
  user : User
deriving DecidableEq, Repr

/-- `ClientMessage`, which is also `ChatMsg`. -/
structure ClientMessage where
  userName : QString
  chatMsg : QString
  chatRoom : Int32
deriving DecidableEq, Repr

structure ResponseMessage where
  respHead : Head
deriving DecidableEq, Repr

inductive BaseMsg
  | loginMsg (msg : LoginMsg)
  | clientMessage (msg : ClientMessage)
  | responseMessage (msg : ResponseMessage)
deriving DecidableEq, Repr

structure ChatyMessage where
  msgHead : Head
  pMsgBody : Option BaseMsg
deriving DecidableEq, Repr

/-! ### Copies and casts -/

def LoginMsg.copy (_msg : LoginMsg) : LoginMsg := { user := _msg.user }

def ClientMessage.copy (msg : ClientMessage) : ClientMessage :=
  { userName := msg.userName, chatMsg := msg.chatMsg, chatRoom := msg.chatRoom }

def ResponseMessage.copy (msg : ResponseMessage) : ResponseMessage := { respHead := msg.respHead }

def BaseMsg.clone : BaseMsg → BaseMsg
  | loginMsg msg => loginMsg msg.copy
  | clientMessage msg => clientMessage msg.copy
  | responseMessage msg => responseMessage msg.copy

/-- The copy constructor of `ChatyMessage`, which also passes and returns messages by value. -/
def ChatyMessage.copy (msg : ChatyMessage) : ChatyMessage :=
  { msgHead := msg.msgHead, pMsgBody := msg.pMsgBody.map BaseMsg.clone }

@[simp] theorem LoginMsg.copy_eq (msg : LoginMsg) : msg.copy = msg := rfl

@[simp] theorem ClientMessage.copy_eq (msg : ClientMessage) : msg.copy = msg := rfl

@[simp] theorem BaseMsg.clone_eq (msg : BaseMsg) : msg.clone = msg := by
  cases msg <;> rfl

@[simp] theorem ChatyMessage.copy_eq (msg : ChatyMessage) : msg.copy = msg := by
  obtain ⟨head, body⟩ := msg
  cases body with
  | none => rfl
  | some body => exact congrArg (fun b => ChatyMessage.mk head (some b)) body.clone_eq

/-- `dynamic_cast<LoginMsg*>`. -/
def asLoginMsg : Option BaseMsg → Option LoginMsg
  | some (.loginMsg msg) => some msg
  | _ => none

/-- `dynamic_cast<ChatMsg*>`. -/
def asChatMsg : Option BaseMsg → Option ClientMessage
  | some (.clientMessage msg) => some msg
  | _ => none

/-! ### Construction -/

/-- The default constructor, when the clock reads `now`. -/
def ChatyMessage.new (now : QString) : ChatyMessage :=
  { msgHead := { time := now, msgType := RequestType.reqDefault.code }, pMsgBody := none }

/-- `ChatyMessage(_type, msg_body)`, when the clock reads `now`. -/
def ChatyMessage.ofRequest (now : QString) (_type : RequestType) (msg_body : Option BaseMsg) :
    Except Fault ChatyMessage :=
  let msgHead : Head := { time := now, msgType := _type.code }
  match _type with
  | .reqLogin | .reqRegist => do
    let msg ← deref .nullCast (asLoginMsg msg_body)
    return { msgHead, pMsgBody := some (.loginMsg msg.copy) }
  | .reqChat => do
    let msg ← deref .nullCast (asChatMsg msg_body)
    return { msgHead, pMsgBody := some (.clientMessage msg.copy) }
  -- `case REQ_HB` has no `break`; the default case it runs into does nothing.
  | .reqHb => return { msgHead, pMsgBody := none }
  | .reqSendFile | .reqDefault => return { msgHead, pMsgBody := none }

def ChatyMessage.init (msg : ChatyMessage) : ChatyMessage :=
  { msg with
    pMsgBody := none
    msgHead := { msg.msgHead with msgType := RequestType.reqDefault.code, time := .text [] } }

/-- `Init` leaves nothing of what the message was. -/
theorem ChatyMessage.init_eq (msg msg' : ChatyMessage) : msg.init = msg'.init := rfl

/-! ### Agreement of head and body -/

/-- `case REQ_LOGIN: case REQ_REGIST:` of the switches on the type. -/
abbrev IsUserType (msgType : UInt8) : Prop :=
  msgType = RequestType.reqLogin.code ∨ msgType = RequestType.reqRegist.code

abbrev IsChatType (msgType : UInt8) : Prop := msgType = RequestType.reqChat.code

theorem IsChatType.not_user {msgType : UInt8} (h : IsChatType msgType) : ¬IsUserType msgType := by
  rw [show msgType = 4 from h]
  decide

/-- The body is of the class that the type in the head calls for. -/
def ChatyMessage.Agrees (msg : ChatyMessage) : Prop :=
  match msg.pMsgBody with
  | some (.loginMsg _) => IsUserType msg.msgHead.msgType
  | some (.clientMessage _) => IsChatType msg.msgHead.msgType
  | some (.responseMessage _) => False
  | none => ¬IsUserType msg.msgHead.msgType ∧ ¬IsChatType msg.msgHead.msgType

instance (msg : ChatyMessage) : Decidable msg.Agrees :=
  match msg with
  | ⟨head, some (.loginMsg _)⟩ => inferInstanceAs (Decidable (IsUserType head.msgType))
  | ⟨head, some (.clientMessage _)⟩ => inferInstanceAs (Decidable (IsChatType head.msgType))
  | ⟨_, some (.responseMessage _)⟩ => inferInstanceAs (Decidable False)
  | ⟨head, none⟩ =>
    inferInstanceAs (Decidable (¬IsUserType head.msgType ∧ ¬IsChatType head.msgType))

theorem ChatyMessage.Agrees.shape {msg : ChatyMessage} (h : msg.Agrees) :
    (∃ body, msg.pMsgBody = some (.loginMsg body) ∧ IsUserType msg.msgHead.msgType) ∨
    (∃ body, msg.pMsgBody = some (.clientMessage body) ∧ IsChatType msg.msgHead.msgType) ∨
    (msg.pMsgBody = none ∧ ¬IsUserType msg.msgHead.msgType ∧ ¬IsChatType msg.msgHead.msgType) := by
  obtain ⟨head, body⟩ := msg
  match body with
  | some (.loginMsg body) => exact .inl ⟨body, rfl, h⟩
  | some (.clientMessage body) => exact .inr (.inl ⟨body, rfl, h⟩)
  | some (.responseMessage _) => exact h.elim
  | none => exact .inr (.inr ⟨rfl, h⟩)

theorem ChatyMessage.Agrees.loginMsg_iff {msg : ChatyMessage} (h : msg.Agrees) :
    (∃ body, msg.pMsgBody = some (.loginMsg body)) ↔ IsUserType msg.msgHead.msgType := by
  obtain ⟨body, hbody, htype⟩ | ⟨body, hbody, htype⟩ | ⟨hbody, htype, -⟩ := h.shape
  · exact ⟨fun _ => htype, fun _ => ⟨body, hbody⟩⟩
  · simp [hbody, htype.not_user]
  · simp [hbody, htype]

theorem ChatyMessage.Agrees.clientMessage_iff {msg : ChatyMessage} (h : msg.Agrees) :
    (∃ body, msg.pMsgBody = some (.clientMessage body)) ↔ IsChatType msg.msgHead.msgType := by
  obtain ⟨body, hbody, htype⟩ | ⟨body, hbody, htype⟩ | ⟨hbody, -, htype⟩ := h.shape
  · simp only [hbody, Option.some.injEq, reduceCtorEq, exists_false, false_iff]
    exact fun hchat => IsChatType.not_user hchat htype
  · exact ⟨fun _ => htype, fun _ => ⟨body, hbody⟩⟩
  · simp [hbody, htype]

theorem ChatyMessage.Agrees.null_iff {msg : ChatyMessage} (h : msg.Agrees) :
    msg.pMsgBody = none ↔ ¬IsUserType msg.msgHead.msgType ∧ ¬IsChatType msg.msgHead.msgType := by
  obtain ⟨body, hbody, htype⟩ | ⟨body, hbody, htype⟩ | ⟨hbody, htype⟩ := h.shape
  · simp [hbody, htype]
  · simp [hbody, htype]
  · simp [hbody, htype]

theorem ChatyMessage.new_agrees (now : QString) : (ChatyMessage.new now).Agrees :=
  show ¬IsUserType 254 ∧ ¬IsChatType 254 by decide

end XChaty.Protoc
