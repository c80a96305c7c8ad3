import Mathlib.Data.List.TakeWhile
import XChaty.Chat.ChatWindowUtilty
import XChaty.Protoc.Truncation

/-! `XChatyClient`: what its `onMessage` makes of a buffer.  The handler makes a byte array of the
data pointer alone, so it decodes the bytes before the first zero byte, which may even lie behind
the buffer; and it dereferences the chat message without a test, whatever the type. -/

namespace XChaty.Client

open Qt Protoc Chat

/-- `QByteArray(const char*)`: the bytes from the pointer to the first zero byte. -/
def cString (memory : List UInt8) : QByteArray := memory.takeWhile (· ≠ 0)

section Receive

-- The bytes of the buffer, and those that come after it in memory.
variable (buf beyond : List UInt8)

/-- The message that the handler obtains. -/
def received : ChatyMessage := deSerrialize (cString (buf ++ beyond))

/-- The posts of the handler, on the thread with the number `sender`. -/
def onMessage (sender : Nat) : Except Fault (List Post) := do
  let ba := cString (buf ++ beyond)
  let msg := (deSerrialize ba).copy
  let chat_msg ← deref .nullCast (asChatMsg msg.pMsgBody)
  return [{ sender, msg := chat_msg.chatMsg }]

/-! ### The two ways to decode a buffer -/

theorem cString_of_zero (h : 0 ∈ buf) : cString (buf ++ beyond) <+: buf := by
  rw [cString, List.takeWhile_append, if_neg]
  · exact List.takeWhile_prefix _
  · intro hall
    have hzero := (List.takeWhile_eq_self_iff.mp ((List.takeWhile_prefix _).eq_of_length hall)) 0 h
    exact absurd hzero (by decide)

theorem cString_of_no_zero (h : 0 ∉ buf) : buf <+: cString (buf ++ beyond) := by
  have hself : buf.takeWhile (· ≠ 0) = buf := List.takeWhile_eq_self_iff.mpr fun b hb => by
    simp only [ne_eq, decide_not, Bool.not_eq_eq_eq_not, Bool.not_true, decide_eq_false_iff_not]
    rintro rfl
    exact h hb
  rw [cString, List.takeWhile_append, if_pos (by rw [hself])]
  exact List.prefix_append buf _

/-- The handler obtains the message that the server and `LoginWindow` would obtain exactly when no
read can tell where the shorter of the C string and the buffer ends. -/
theorem received_eq_iff :
    received buf beyond = convertBuf2ChatyMsg buf ↔
      if 0 ∈ buf then MessageAlike (cString (buf ++ beyond)) buf
      else MessageAlike buf (cString (buf ++ beyond)) := by
  rw [received, deSerrialize_eq, convertBuf2ChatyMsg_eq]
  by_cases hzero : 0 ∈ buf
  · rw [if_pos hzero]
    exact decode_eq_iff (cString_of_zero buf beyond hzero)
  · rw [if_neg hzero, eq_comm]
    exact decode_eq_iff (cString_of_no_zero buf beyond hzero)

end Receive

/-- Of a chat line 'hi' the handler obtains an empty one. -/
theorem chat_line_received_empty :
    received (ChatyMessage.wire
        ⟨⟨.null, 4⟩, some (.clientMessage ⟨.text [98], .text [104, 105], 0⟩)⟩) [] =
      ⟨⟨.null, 4⟩, some (.clientMessage ⟨.text [], .text [], 0⟩)⟩ ∧
    received (ChatyMessage.wire
        ⟨⟨.null, 4⟩, some (.clientMessage ⟨.text [98], .text [104, 105], 0⟩)⟩) [] ≠
      convertBuf2ChatyMsg (ChatyMessage.wire
        ⟨⟨.null, 4⟩, some (.clientMessage ⟨.text [98], .text [104, 105], 0⟩)⟩) := by
  decide

/-! ### The dereference -/

section Survive

variable (buf beyond : List UInt8) (sender : Nat)

/-- The handler returns, and posts the line of a chat message and nothing for any other. -/
def Survives : Prop :=
  ∃ posts, onMessage buf beyond sender = .ok posts ∧
    (IsChatType (received buf beyond).msgHead.msgType →
      ∃ body, (received buf beyond).pMsgBody = some (.clientMessage body) ∧
        posts = [⟨sender, body.chatMsg⟩]) ∧
    (¬IsChatType (received buf beyond).msgHead.msgType → posts = [])

theorem received_msgType :
    (received buf beyond).msgHead.msgType = (buf ++ beyond).head?.getD 0 := by
  rw [received, deSerrialize_eq, decode_msgType, cString]
  cases buf ++ beyond with
  | nil => rfl
  | cons b memory =>
    by_cases hb : b = 0
    · subst hb
      rfl
    · rw [List.takeWhile_cons_of_pos (by simpa using hb)]
      rfl

theorem onMessage_eq :
    onMessage buf beyond sender =
      (deref .nullCast (asChatMsg (received buf beyond).pMsgBody)).map
        fun chat_msg => [⟨sender, chat_msg.chatMsg⟩] := by
  rw [onMessage, ChatyMessage.copy_eq]
  change Except.bind (deref .nullCast (asChatMsg (received buf beyond).pMsgBody)) _ = _
  cases deref Fault.nullCast (asChatMsg (received buf beyond).pMsgBody) <;> rfl

/-- The handler survives exactly the buffers that begin with the type of a chat message. -/
theorem survives_iff :
    Survives buf beyond sender ↔
      (buf ++ beyond).head? = some RequestType.reqChat.code := by
  have hagrees : (received buf beyond).Agrees := by
    rw [received, deSerrialize_eq]
    exact decode_agrees _
  have htype : IsChatType (received buf beyond).msgHead.msgType ↔
      (buf ++ beyond).head? = some RequestType.reqChat.code := by
    rw [received_msgType]
    cases (buf ++ beyond).head? with
    | none => exact iff_of_false (by decide) fun h => nomatch h
    | some b => exact Option.some_inj.symm
  rw [← htype, Survives, onMessage_eq]
  obtain ⟨body, hbody, huser⟩ | ⟨body, hbody, hchat⟩ | ⟨hbody, -, hchat⟩ := hagrees.shape
  · have hchat : ¬IsChatType (received buf beyond).msgHead.msgType := fun h => h.not_user huser
    rw [hbody]
    refine iff_of_false ?_ hchat
    rintro ⟨posts, hposts, -⟩
    cases hposts
  · rw [hbody]
    exact iff_of_true ⟨_, rfl, fun _ => ⟨body, rfl, rfl⟩, fun hother => absurd hchat hother⟩ hchat
  · rw [hbody]
    refine iff_of_false ?_ hchat
    rintro ⟨posts, hposts, -⟩
    cases hposts

end Survive

/-- A heartbeat ends the client. -/
theorem heartbeat_not_survived :
    onMessage [255, 255, 255, 255, 255] [] 1 = .error .nullCast ∧
      ¬Survives [255, 255, 255, 255, 255] [] 1 := by
  have hfault : onMessage [255, 255, 255, 255, 255] [] 1 = .error .nullCast := rfl
  refine ⟨hfault, ?_⟩
  rintro ⟨posts, hposts, -⟩
  rw [hfault] at hposts
  cases hposts

end XChaty.Client
