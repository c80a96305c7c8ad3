import XChaty.Protoc.Message
import XChaty.Qt.DataStream

/-! The stream operators of `chaty::User` and of the messages, `Serrialize`, and `DeSerrialize`.
`wire` is the code of a message by the class of its body; `Serrialize` returns it for every message
that agrees with its head, and the operators `>>` take it back and take nothing else. -/

namespace XChaty.Protoc

open Qt ProofKit.Codec

/-! ### `operator<<` -/

def User.put (user : User) : QByteArray :=
  putQString user.userName ++ putQString user.passwd ++ putQString user.id

def LoginMsg.put (msg : LoginMsg) : QByteArray := msg.user.put

def ClientMessage.put (msg : ClientMessage) : QByteArray :=
  putQString msg.userName ++ putQString msg.chatMsg ++ putInt msg.chatRoom

def Head.put (msg : Head) : QByteArray := putUInt8 msg.msgType ++ putQString msg.time

/-- The fields of the body are put here one by one, not by the operators of their classes. -/
def ChatyMessage.put (msg : ChatyMessage) : Except Fault QByteArray :=
  if IsUserType msg.msgHead.msgType then do
    let login_msg ← deref .nullCast (asLoginMsg msg.pMsgBody)
    return msg.msgHead.put ++ login_msg.user.put
  else if IsChatType msg.msgHead.msgType then do
    let chat_msg ← deref .nullCast (asChatMsg msg.pMsgBody)
    return msg.msgHead.put ++
      (putQString chat_msg.userName ++ putQString chat_msg.chatMsg ++ putInt chat_msg.chatRoom)
  else return msg.msgHead.put

/-- `Serrialize` takes its message by value. -/
def serrialize (msg : ChatyMessage) : Except Fault QByteArray := msg.copy.put

/-! ### `operator>>` -/

def User.get : Extract User := do
  let userName ← getQString
  let passwd ← getQString
  let id ← getQString
  pure { userName, passwd, id }

def LoginMsg.get : Extract LoginMsg := do
  let user ← User.get
  pure { user }

def ClientMessage.get : Extract ClientMessage := do
  let userName ← getQString
  let chatMsg ← getQString
  let chatRoom ← getInt
  pure { userName, chatMsg, chatRoom }

def Head.get : Extract Head := do
  let msgType ← getUInt8
  let time ← getQString
  pure { msgType, time }

/-- `stream >> msg`: a type without a body leaves the body of `msg` as it was. -/
def ChatyMessage.get (msg : ChatyMessage) : Extract ChatyMessage := do
  let msgHead ← Head.get
  if IsUserType msgHead.msgType then do
    let _msg_body ← LoginMsg.get
    pure { msgHead, pMsgBody := some (.loginMsg _msg_body.copy) }
  else if IsChatType msgHead.msgType then do
    let _msg_body ← ClientMessage.get
    pure { msgHead, pMsgBody := some (.clientMessage _msg_body.copy) }
  else pure { msg with msgHead }

/-- A message after `Init`, whatever it was before (`ChatyMessage.init_eq`). -/
def ChatyMessage.fresh : ChatyMessage := (ChatyMessage.new .null).init

def decode (ba : QByteArray) : ChatyMessage × QDataStream :=
  (ChatyMessage.get ChatyMessage.fresh).run ⟨ba, none⟩

/-- The message is returned by value. -/
def deSerrialize (ba : QByteArray) : ChatyMessage := (decode ba).1.copy

/-- `buf` stands for the bytes at `buf->data()`, as many as `buf->size()`. -/
def convertBuf2ChatyMsg (buf : List UInt8) : ChatyMessage := (deSerrialize buf).copy

@[simp] theorem deSerrialize_eq (ba : QByteArray) : deSerrialize ba = (decode ba).1 :=
  ChatyMessage.copy_eq _

@[simp] theorem convertBuf2ChatyMsg_eq (buf : List UInt8) :
    convertBuf2ChatyMsg buf = (decode buf).1 := by
  rw [convertBuf2ChatyMsg, ChatyMessage.copy_eq, deSerrialize_eq]

/-! ### The code of a message -/

def BaseMsg.wire : BaseMsg → QByteArray
  | loginMsg msg => msg.put
  | clientMessage msg => msg.put
  | responseMessage _ => []

/-- The code of a message, by the class of its body. -/
def ChatyMessage.wire (msg : ChatyMessage) : QByteArray :=
  msg.msgHead.put ++ (msg.pMsgBody.map BaseMsg.wire).getD []

/-- The type is one byte, and every other field takes an even number of bytes. -/
theorem ChatyMessage.wire_length (msg : ChatyMessage) : ∃ k, msg.wire.length = 5 + 2 * k := by
  obtain ⟨head, body⟩ := msg
  have hhead : head.put.length = 5 + 2 * head.time.units.length := by
    rw [Head.put, List.length_append, putQString_length]
    change 1 + _ = _
    omega
  have hbody : ∃ k, ((body.map BaseMsg.wire).getD []).length = 2 * k := by
    match body with
    | some (.loginMsg body) =>
      refine ⟨6 + body.user.userName.units.length + body.user.passwd.units.length +
        body.user.id.units.length, ?_⟩
      simp only [Option.map_some, Option.getD_some, BaseMsg.wire, LoginMsg.put, User.put,
        List.length_append, putQString_length]
      omega
    | some (.clientMessage body) =>
      refine ⟨6 + body.userName.units.length + body.chatMsg.units.length, ?_⟩
      simp only [Option.map_some, Option.getD_some, BaseMsg.wire, ClientMessage.put,
        List.length_append, putQString_length, putInt_length]
      omega
    | some (.responseMessage _) => exact ⟨0, rfl⟩
    | none => exact ⟨0, rfl⟩
  obtain ⟨k, hk⟩ := hbody
  refine ⟨head.time.units.length + k, ?_⟩
  rw [wire, List.length_append, hhead, hk]
  omega

theorem serrialize_of_agrees {msg : ChatyMessage} (h : msg.Agrees) :
    serrialize msg = .ok msg.wire := by
  rw [serrialize, ChatyMessage.copy_eq]
  obtain ⟨body, hbody, htype⟩ | ⟨body, hbody, htype⟩ | ⟨hbody, huser, hchat⟩ := h.shape
  · rw [ChatyMessage.put, if_pos htype, ChatyMessage.wire, hbody]
    rfl
  · rw [ChatyMessage.put, if_neg htype.not_user, if_pos htype, ChatyMessage.wire, hbody]
    rfl
  · rw [ChatyMessage.put, if_neg huser, if_neg hchat, ChatyMessage.wire, hbody]
    exact congrArg Except.ok (List.append_nil _).symm

/-! ### Taking a message back -/

section Reads

theorem User.get_reads {user : User} (h : user.put.length < 2 ^ 31) :
    Reads User.get user.put user := by
  simp only [User.put, List.length_append] at h
  rw [User.put, List.append_assoc]
  refine bind_reads (getQString_reads (by omega)) ?_
  refine bind_reads (getQString_reads (by omega)) ?_
  exact bind_pure_reads (getQString_reads (by omega))

theorem LoginMsg.get_reads {msg : LoginMsg} (h : msg.put.length < 2 ^ 31) :
    Reads LoginMsg.get msg.put msg :=
  bind_pure_reads (User.get_reads h)

theorem ClientMessage.get_reads {msg : ClientMessage} (h : msg.put.length < 2 ^ 31) :
    Reads ClientMessage.get msg.put msg := by
  simp only [ClientMessage.put, List.length_append] at h
  rw [ClientMessage.put, List.append_assoc]
  refine bind_reads (getQString_reads (by omega)) ?_
  refine bind_reads (getQString_reads (by omega)) ?_
  exact bind_pure_reads (getInt_reads msg.chatRoom)

theorem Head.get_reads {msg : Head} (h : msg.put.length < 2 ^ 31) :
    Reads Head.get msg.put msg := by
  simp only [Head.put, List.length_append] at h
  refine bind_reads (getUInt8_reads msg.msgType) ?_
  exact bind_pure_reads (getQString_reads (by omega))

/-- The operator `>>` takes back every message that agrees with its head, into a fresh message. -/
theorem ChatyMessage.get_reads {msg : ChatyMessage} (h : msg.Agrees)
    (hsize : msg.wire.length < 2 ^ 31) : Reads (ChatyMessage.get .fresh) msg.wire msg := by
  obtain ⟨head, body⟩ := msg
  simp only [ChatyMessage.wire, List.length_append] at hsize
  refine bind_reads (@Head.get_reads head (by omega)) ?_
  obtain ⟨body, rfl, htype⟩ | ⟨body, rfl, htype⟩ | ⟨rfl, huser, hchat⟩ := h.shape
  · rw [if_pos htype]
    exact bind_pure_reads (f := fun b => ChatyMessage.mk head (some (.loginMsg b)))
      (LoginMsg.get_reads (by simp [BaseMsg.wire] at hsize; omega))
  · rw [if_neg htype.not_user, if_pos htype]
    exact bind_pure_reads (f := fun b => ChatyMessage.mk head (some (.clientMessage b)))
      (ClientMessage.get_reads (by simp [BaseMsg.wire] at hsize; omega))
  · rw [if_neg huser, if_neg hchat]
    exact pure_reads _

end Reads

/-! ### Taking only codes -/

section Consumes

theorem User.get_consumes : Consumes [] User.put User.get := by
  refine bind_consumes getQString_consumes fun _ => ?_
  refine bind_consumes getQString_consumes fun _ => ?_
  refine bind_consumes getQString_consumes fun _ => ?_
  exact pure_consumes rfl

theorem LoginMsg.get_consumes : Consumes [] LoginMsg.put LoginMsg.get :=
  bind_consumes User.get_consumes fun _ => pure_consumes rfl

theorem ClientMessage.get_consumes : Consumes [] ClientMessage.put ClientMessage.get := by
  refine bind_consumes getQString_consumes fun _ => ?_
  refine bind_consumes getQString_consumes fun _ => ?_
  refine bind_consumes getInt_consumes fun _ => ?_
  exact pure_consumes rfl

theorem Head.get_consumes : Consumes [] Head.put Head.get := by
  refine bind_consumes getUInt8_consumes fun _ => ?_
  refine bind_consumes getQString_consumes fun _ => ?_
  exact pure_consumes rfl

/-- Without a failed read, the operator `>>` has taken exactly the code of the message that it
leaves in a fresh one. -/
theorem ChatyMessage.get_consumes : Consumes [] ChatyMessage.wire (ChatyMessage.get .fresh) := by
  refine bind_consumes Head.get_consumes fun head => ?_
  rw [List.nil_append]
  split
  · exact bind_consumes LoginMsg.get_consumes fun _ => pure_consumes rfl
  · split
    · exact bind_consumes ClientMessage.get_consumes fun _ => pure_consumes rfl
    · exact pure_consumes (List.append_nil _).symm

end Consumes

/-! ### What `DeSerrialize` returns for any bytes -/

/-- Whatever the reads store, the body is of the class that the stored type calls for. -/
theorem decode_agrees (ba : QByteArray) : (decode ba).1.Agrees := by
  rw [decode, ChatyMessage.get, run_bind]
  split
  · rename_i htype
    exact htype
  · rename_i huser
    split
    · rename_i htype
      exact htype
    · rename_i hchat
      exact ⟨huser, hchat⟩

theorem decode_msgType (ba : QByteArray) : (decode ba).1.msgHead.msgType = ba.headD 0 := by
  have hhead : ∀ c : QDataStream, (Head.get.run c).1.msgType = c.rest.headD 0 := by
    rintro ⟨_ | ⟨b, rest⟩, error⟩ <;> rfl
  rw [decode, ChatyMessage.get, run_bind, ← hhead ⟨ba, none⟩]
  split
  · rfl
  · split <;> rfl

end XChaty.Protoc
