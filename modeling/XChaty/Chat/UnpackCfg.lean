import XChaty.ProofKit.Delimiter
import XChaty.Protoc.RoundTrip

/-! The unpack setting of `ChatWindowUtilty`, which cuts a stream at zero bytes.  Nearly every
serialised message has a zero byte in it: only a message whose strings are null or enormous has
none, and only such messages come through whole. -/

namespace XChaty.Chat

open Qt Protoc ProofKit.BigEndian ProofKit.Delimiter

inductive UnpackMode
  | none
  | byFixedLength
  | byDelimiter
  | byLengthField
deriving DecidableEq, Repr

/-- `unpack_setting_t`, with the fields for `UNPACK_BY_DELIMITER`. -/
structure UnpackSetting where
  mode : UnpackMode
  package_max_length : Nat
  delimiter : List UInt8
  delimiter_bytes : Nat
deriving DecidableEq, Repr

/-- What the constructor of `ChatWindowUtilty` sets and `GetUnpackCfg` returns.  The other bytes of
the array are not set. -/
def getUnpackCfg : UnpackSetting :=
  { mode := .byDelimiter, package_max_length := 2 ^ 21, delimiter := [0], delimiter_bytes := 1 }

def UnpackSetting.delimiterBytes (setting : UnpackSetting) : List UInt8 :=
  setting.delimiter.take setting.delimiter_bytes

/-- What `UNPACK_BY_DELIMITER` makes of a stream. -/
def UnpackSetting.unpack (setting : UnpackSetting) (stream : QByteArray) :
    List QByteArray × QByteArray :=
  cut setting.delimiterBytes [] stream

/-- The messages, each followed by the delimiter, are cut into one packet a message. -/
def UnpackSetting.Carries (setting : UnpackSetting) (msgs : List ChatyMessage) : Prop :=
  ∃ outs, msgs.mapM serrialize = .ok outs ∧
    setting.unpack (outs.flatMap (· ++ setting.delimiterBytes)) =
      (outs.map (· ++ setting.delimiterBytes), [])

/-! ### Messages without a zero byte -/

def ZeroFreeString : QString → Prop
  | .null => True
  | .text us => NonzeroBytes 4 (2 * us.length) ∧ ∀ u ∈ us, NonzeroBytes 2 u.toNat

def ZeroFreeBody : Option BaseMsg → Prop
  | some (.loginMsg msg) =>
    ZeroFreeString msg.user.userName ∧ ZeroFreeString msg.user.passwd ∧ ZeroFreeString msg.user.id
  | some (.clientMessage msg) =>
    ZeroFreeString msg.userName ∧ ZeroFreeString msg.chatMsg ∧
      NonzeroBytes 4 msg.chatRoom.toUInt32.toNat
  | _ => True

structure ZeroFree (msg : ChatyMessage) : Prop where
  msgType : msg.msgHead.msgType ≠ 0
  time : ZeroFreeString msg.msgHead.time
  body : ZeroFreeBody msg.pMsgBody

theorem zero_notMem_putQString (s : QString) : 0 ∉ putQString s ↔ ZeroFreeString s := by
  cases s with
  | null => exact ⟨fun _ => trivial, fun _ => by decide⟩
  | text us =>
    have hcount : putUInt32 (UInt32.ofNat (2 * us.length)) = bigEndian 4 (2 * us.length) := by
      rw [putUInt32, UInt32.toNat_ofNat']
      exact bigEndian_mod 4 _
    rw [putQString, hcount, List.mem_append, not_or, zero_notMem_bigEndian, List.mem_flatMap]
    refine and_congr_right fun _ => ?_
    constructor
    · intro hnone u hu
      rw [← zero_notMem_bigEndian]
      exact fun hzero => hnone ⟨u, hu, hzero⟩
    · rintro hall ⟨u, hu, hzero⟩
      exact (zero_notMem_bigEndian 2 u.toNat).mpr (hall u hu) hzero

/-- A text without a zero byte has at least 2 ^ 23 characters. -/
theorem ZeroFreeString.long {us : List UInt16} (h : ZeroFreeString (.text us)) :
    2 ^ 23 ≤ us.length := by
  have htop := h.1 3 (by decide)
  omega

theorem zero_notMem_wire {msg : ChatyMessage} (h : msg.Agrees) : 0 ∉ msg.wire ↔ ZeroFree msg := by
  have hhead : 0 ∉ msg.msgHead.put ↔
      msg.msgHead.msgType ≠ 0 ∧ ZeroFreeString msg.msgHead.time := by
    rw [Head.put, List.mem_append, not_or, zero_notMem_putQString, putUInt8, List.mem_singleton]
    exact and_congr_left fun _ => not_congr eq_comm
  have hbody : 0 ∉ (msg.pMsgBody.map BaseMsg.wire).getD [] ↔ ZeroFreeBody msg.pMsgBody := by
    obtain ⟨body, hbody, -⟩ | ⟨body, hbody, -⟩ | ⟨hbody, -⟩ := h.shape
    · rw [hbody]
      change 0 ∉ body.user.put ↔ _
      simp only [User.put, List.mem_append, not_or, zero_notMem_putQString, ZeroFreeBody, and_assoc]
    · rw [hbody]
      change 0 ∉ body.put ↔ _
      simp only [ClientMessage.put, List.mem_append, not_or, zero_notMem_putQString, ZeroFreeBody,
        and_assoc, putInt, putUInt32, zero_notMem_bigEndian]
    · rw [hbody]
      exact ⟨fun _ => trivial, fun _ => List.not_mem_nil⟩
  rw [ChatyMessage.wire, List.mem_append, not_or, hhead, hbody]
  constructor
  · rintro ⟨⟨hmsgType, htime⟩, hbody⟩
    exact ⟨hmsgType, htime, hbody⟩
  · intro hfree
    exact ⟨⟨hfree.msgType, hfree.time⟩, hfree.body⟩

/-- The setting carries exactly the messages without a zero byte. -/
theorem unpackCfg_carries_iff {msgs : List ChatyMessage} (h : ∀ msg ∈ msgs, msg.Agrees) :
    getUnpackCfg.Carries msgs ↔ ∀ msg ∈ msgs, ZeroFree msg := by
  have hcut := cut_flatMap_iff (List.cons_ne_nil (0 : UInt8) []) (msgs.map ChatyMessage.wire)
  have hcarries : getUnpackCfg.Carries msgs ↔
      ∀ out ∈ msgs.map ChatyMessage.wire, EndsOnce [0] out := by
    rw [← hcut]
    constructor
    · rintro ⟨outs, houts, hpackets⟩
      rw [mapM_serrialize h] at houts
      cases houts
      exact hpackets
    · exact fun hpackets => ⟨_, mapM_serrialize h, hpackets⟩
  rw [hcarries, List.forall_mem_map]
  refine forall₂_congr fun msg hmsg => ?_
  rw [endsOnce_singleton, zero_notMem_wire (h msg hmsg)]

/-- A chat line in room -1, and a registration with nothing in it. -/
theorem unpackCfg_carries_iff_two :
    getUnpackCfg.Carries [⟨⟨.null, 4⟩, some (.clientMessage ⟨.null, .text [104, 105], -1⟩)⟩,
        ⟨⟨.null, 2⟩, some (.loginMsg ⟨⟨.null, .null, .null⟩⟩)⟩] ↔
      ∀ msg ∈ ([⟨⟨.null, 4⟩, some (.clientMessage ⟨.null, .text [104, 105], -1⟩)⟩,
        ⟨⟨.null, 2⟩, some (.loginMsg ⟨⟨.null, .null, .null⟩⟩)⟩] : List ChatyMessage), ZeroFree msg :=
  unpackCfg_carries_iff (by decide)

/-- A chat line of two characters is cut into ten packets. -/
theorem chat_line_cut :
    (∀ msg ∈ ([⟨⟨.null, 4⟩, some (.clientMessage ⟨.null, .text [104, 105], 0⟩)⟩] :
        List ChatyMessage), msg.Agrees) ∧
      ¬getUnpackCfg.Carries [⟨⟨.null, 4⟩, some (.clientMessage ⟨.null, .text [104, 105], 0⟩)⟩] := by
  refine ⟨by decide, ?_⟩
  rintro ⟨outs, houts, hpackets⟩
  cases houts
  exact absurd hpackets (by decide)

end XChaty.Chat
