import XChaty.Protoc.RoundTrip
import XChaty.Server.MainWindow

/-! What any bytes at all do to the server.  The body of every message that the program can come by
is of the class that its head calls for, so no cast fails.  A failed read does not clear the body,
so of the malformed arrays only those whose first byte is not the type of a request with a body are
rejected. -/

namespace XChaty.Server

open Qt Protoc

/-! ### Where messages come from -/

/-- The body that the program's callers pass to the constructor with a request type. -/
def CallerBody (_type : RequestType) (msg_body : Option BaseMsg) : Prop :=
  match _type with
  | .reqLogin | .reqRegist => ∃ msg, msg_body = some (.loginMsg msg)
  | .reqChat => ∃ msg, msg_body = some (.clientMessage msg)
  | .reqSendFile | .reqDefault | .reqHb => msg_body = none

inductive Obtained : ChatyMessage → Prop
  | new (now : QString) : Obtained (ChatyMessage.new now)
  | ofRequest {now : QString} {_type : RequestType} {msg_body : Option BaseMsg}
      {msg : ChatyMessage} (caller : CallerBody _type msg_body)
      (made : ChatyMessage.ofRequest now _type msg_body = .ok msg) : Obtained msg
  | copy {msg : ChatyMessage} (source : Obtained msg) : Obtained msg.copy
  | init {msg : ChatyMessage} (source : Obtained msg) : Obtained msg.init
  | deSerrialize (ba : QByteArray) : Obtained (deSerrialize ba)

theorem ofRequest_of_callerBody (now : QString) {_type : RequestType} {msg_body : Option BaseMsg}
    (h : CallerBody _type msg_body) :
    ∃ msg, ChatyMessage.ofRequest now _type msg_body = .ok msg ∧ msg.Agrees := by
  cases _type with
  | reqLogin =>
    obtain ⟨msg, rfl⟩ := h
    exact ⟨_, rfl, Or.inl rfl⟩
  | reqRegist =>
    obtain ⟨msg, rfl⟩ := h
    exact ⟨_, rfl, Or.inr rfl⟩
  | reqChat =>
    obtain ⟨msg, rfl⟩ := h
    exact ⟨_, rfl, rfl⟩
  | reqSendFile => exact ⟨_, rfl, show ¬IsUserType 5 ∧ ¬IsChatType 5 by decide⟩
  | reqDefault => exact ⟨_, rfl, show ¬IsUserType 254 ∧ ¬IsChatType 254 by decide⟩
  | reqHb => exact ⟨_, rfl, show ¬IsUserType 255 ∧ ¬IsChatType 255 by decide⟩

theorem Obtained.agrees {msg : ChatyMessage} (h : Obtained msg) : msg.Agrees := by
  induction h with
  | new now => exact ChatyMessage.new_agrees now
  | @ofRequest now _ _ _ caller made =>
    obtain ⟨msg, hmsg, hagrees⟩ := ofRequest_of_callerBody now caller
    rw [hmsg] at made
    cases made
    exact hagrees
  | copy _ ih =>
    rw [ChatyMessage.copy_eq]
    exact ih
  | init _ _ => exact ChatyMessage.new_agrees _
  | deSerrialize ba =>
    rw [deSerrialize_eq]
    exact decode_agrees ba

/-- The class of the body is the one that the head calls for; `Serrialize` of the message and
`onMsg` on any buffer never read through a null or failed cast. -/
structure CastSafe (msg : ChatyMessage) : Prop where
  loginMsg : (∃ body, msg.pMsgBody = some (.loginMsg body)) ↔
    msg.msgHead.msgType = RequestType.reqLogin.code ∨
      msg.msgHead.msgType = RequestType.reqRegist.code
  clientMessage : (∃ body, msg.pMsgBody = some (.clientMessage body)) ↔
    msg.msgHead.msgType = RequestType.reqChat.code
  null : msg.pMsgBody = none ↔
    ¬(msg.msgHead.msgType = RequestType.reqLogin.code ∨
      msg.msgHead.msgType = RequestType.reqRegist.code) ∧
    ¬msg.msgHead.msgType = RequestType.reqChat.code
  serrialize : ∃ bytes, serrialize msg = .ok bytes
  onMsg : ∀ (Db : Type) (host : Host Db) (window : MainWindow Db) (channel : Nat)
    (buf : List UInt8) (crash : Crash (MainWindow Db)),
    onMsg host window channel buf = .error crash → crash.fault ≠ .nullCast

theorem obtained_castSafe {msg : ChatyMessage} (h : Obtained msg) : CastSafe msg := by
  have hagrees := h.agrees
  constructor
  · exact hagrees.loginMsg_iff
  · exact hagrees.clientMessage_iff
  · exact hagrees.null_iff
  · exact ⟨_, serrialize_of_agrees hagrees⟩
  · intro Db host window channel buf crash hcrash
    rw [onMsg_eq] at hcrash
    exact treat_ne_nullCast host hcrash

/-- A chat line as `SendMsg` makes it, copied; the same line as it is read; and a login of which only
two bytes have come, cleared. -/
theorem obtained_castSafe_sources :
    CastSafe (ChatyMessage.copy ⟨⟨.text [], RequestType.reqChat.code⟩,
        some (.clientMessage ⟨.text [98], .text [104, 105], 0⟩)⟩) ∧
      CastSafe (deSerrialize
        [4, 0, 0, 0, 0, 0, 0, 0, 2, 0, 98, 0, 0, 0, 4, 0, 104, 0, 105, 0, 0, 0, 0]) ∧
      CastSafe (deSerrialize [0, 0]).init :=
  ⟨obtained_castSafe (.copy (@Obtained.ofRequest (.text []) .reqChat
      (some (.clientMessage ⟨.text [98], .text [104, 105], 0⟩)) _ ⟨_, rfl⟩ rfl)),
    obtained_castSafe (.deSerrialize _), obtained_castSafe (.init (.deSerrialize [0, 0]))⟩

/-! ### Malformed arrays -/

def Malformed (ba : QByteArray) : Prop := (decode ba).2.error ≠ none

instance (ba : QByteArray) : Decidable (Malformed ba) :=
  inferInstanceAs (Decidable ((decode ba).2.error ≠ none))

theorem strict_prefix_malformed {msg : ChatyMessage} (h : msg.Agrees)
    (hsize : msg.wire.length < 2 ^ 31) {start rest : QByteArray} (hcut : msg.wire = start ++ rest)
    (hrest : rest ≠ []) : Malformed start :=
  decode_strict_prefix h hsize hcut hrest

/-- The array decodes to a message without a body, and `onMsg` returns without having done
anything with it. -/
def Rejected {Db : Type} (host : Host Db) (window : MainWindow Db) (channel : Nat)
    (ba : QByteArray) : Prop :=
  (deSerrialize ba).pMsgBody = none ∧ onMsg host window channel ba = .ok (window, none)

theorem rejected_iff_null {Db : Type} (host : Host Db) (window : MainWindow Db) (channel : Nat)
    (ba : QByteArray) :
    Rejected host window channel ba ↔ (decode ba).1.pMsgBody = none := by
  rw [Rejected, deSerrialize_eq]
  constructor
  · rintro ⟨hnull, -⟩
    exact hnull
  · intro hnull
    refine ⟨hnull, ?_⟩
    rw [onMsg_eq, treat, hnull]

/-- A malformed array is rejected exactly when it has a first byte and that byte is not the type of
a login, a registration, or a chat line. -/
theorem malformed_rejected_iff {Db : Type} (host : Host Db) (window : MainWindow Db)
    (channel : Nat) {ba : QByteArray} (h : Malformed ba) :
    Rejected host window channel ba ↔
      ∃ msgType rest, ba = msgType :: rest ∧ msgType ≠ RequestType.reqLogin.code ∧
        msgType ≠ RequestType.reqRegist.code ∧ msgType ≠ RequestType.reqChat.code := by
  rw [rejected_iff_null, (decode_agrees ba).null_iff, decode_msgType, not_or]
  cases ba with
  | nil => simp [RequestType.code]
  | cons msgType rest =>
    constructor
    · rintro ⟨⟨hlogin, hregist⟩, hchat⟩
      exact ⟨msgType, rest, rfl, hlogin, hregist, hchat⟩
    · rintro ⟨_, _, heq, hlogin, hregist, hchat⟩
      cases heq
      exact ⟨⟨hlogin, hregist⟩, hchat⟩

theorem malformed_rejected_truncated_heartbeat :
    Rejected syntaxErrorHost (MainWindow.new []) 0 [255] ↔
      ∃ msgType rest, [255] = msgType :: rest ∧ msgType ≠ RequestType.reqLogin.code ∧
        msgType ≠ RequestType.reqRegist.code ∧ msgType ≠ RequestType.reqChat.code :=
  malformed_rejected_iff syntaxErrorHost (MainWindow.new []) 0 (by decide)

/-- The empty array is malformed and decodes to a login. -/
theorem empty_not_rejected :
    Malformed [] ∧ ¬Rejected syntaxErrorHost (MainWindow.new []) 0 [] := by
  refine ⟨by decide, ?_⟩
  rw [rejected_iff_null]
  decide

end XChaty.Server
