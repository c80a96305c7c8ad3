import Mathlib.Data.List.Chain
import XChaty.Protoc.RoundTrip

/-! Reading into a message that has been read into before.  The operator `>>` always overwrites the
head, but the body only for the types that have one, so after a type without a body the message
shows the body of an earlier one.  `DeSerrialize` calls `Init` first, which hides this. -/

namespace XChaty.Protoc

open Qt ProofKit.Codec

/-- The head of a message that has been read, and its body if there is one, over an older
message. -/
def ChatyMessage.over (read old : ChatyMessage) : ChatyMessage :=
  { read with pMsgBody := read.pMsgBody <|> old.pMsgBody }

theorem over_eq_iff {read old : ChatyMessage} :
    read.over old = read ↔ (read.pMsgBody = none → old.pMsgBody = none) := by
  obtain ⟨head, body⟩ := read
  cases body with
  | none => simp [ChatyMessage.over]
  | some body => simp [ChatyMessage.over]

/-- A read leaves what it would leave of a fresh message, over the old one. -/
theorem get_into (msg : ChatyMessage) (stream : QDataStream) :
    (ChatyMessage.get msg).run stream =
      (((ChatyMessage.get .fresh).run stream).1.over msg,
        ((ChatyMessage.get .fresh).run stream).2) := by
  rw [ChatyMessage.get, ChatyMessage.get, run_bind, run_bind]
  generalize Head.get.run stream = read
  by_cases huser : IsUserType read.1.msgType
  · rw [if_pos huser, if_pos huser, run_bind]
    generalize LoginMsg.get.run read.2 = body
    rfl
  · rw [if_neg huser, if_neg huser]
    by_cases hchat : IsChatType read.1.msgType
    · rw [if_pos hchat, if_pos hchat, run_bind]
      generalize ClientMessage.get.run read.2 = body
      rfl
    · rw [if_neg hchat, if_neg hchat]
      rfl

theorem get_fresh_body_iff (stream : QDataStream) :
    ((ChatyMessage.get .fresh).run stream).1.pMsgBody = none ↔
      ¬IsUserType (stream.rest.headD 0) ∧ ¬IsChatType (stream.rest.headD 0) := by
  have hhead : (Head.get.run stream).1.msgType = stream.rest.headD 0 := by
    obtain ⟨_ | ⟨b, rest⟩, error⟩ := stream <;> rfl
  rw [ChatyMessage.get, run_bind, ← hhead]
  split
  · rename_i huser
    exact ⟨fun h => absurd h (Option.some_ne_none _), fun h => absurd huser h.1⟩
  · rename_i huser
    split
    · rename_i hchat
      exact ⟨fun h => absurd h (Option.some_ne_none _), fun h => absurd hchat h.2⟩
    · rename_i hchat
      exact ⟨fun _ => ⟨huser, hchat⟩, fun _ => rfl⟩

/-- Two messages are read into alike exactly when the type on the stream has a body, or the two had
the same body before. -/
theorem get_independent_iff (stream : QDataStream) (msg msg' : ChatyMessage) :
    ((ChatyMessage.get msg).run stream).1 = ((ChatyMessage.get msg').run stream).1 ↔
      IsUserType (stream.rest.headD 0) ∨ IsChatType (stream.rest.headD 0) ∨
        msg.pMsgBody = msg'.pMsgBody := by
  have hnull := get_fresh_body_iff stream
  rw [get_into msg, get_into msg', ← or_assoc]
  generalize (ChatyMessage.get .fresh).run stream = read at hnull
  obtain ⟨⟨head, body⟩, rest⟩ := read
  cases body with
  | none =>
    have hnobody := hnull.mp rfl
    rw [← not_or] at hnobody
    constructor
    · intro (hsame : ChatyMessage.mk head msg.pMsgBody = ⟨head, msg'.pMsgBody⟩)
      exact .inr (ChatyMessage.mk.inj hsame).2
    · rintro (hbody | hold)
      · exact absurd hbody hnobody
      · exact congrArg (ChatyMessage.mk head) hold
  | some body =>
    constructor
    · intro _
      by_contra hneither
      have hnobody : ¬(IsUserType (stream.rest.headD 0) ∨ IsChatType (stream.rest.headD 0)) :=
        fun hbody => hneither (.inl hbody)
      exact absurd (hnull.mpr (not_or.mp hnobody)) (by simp)
    · intro _
      rfl

/-- A heartbeat that is read into a used message shows the chat line that was there. -/
theorem heartbeat_keeps_body :
    ((ChatyMessage.get ⟨⟨.null, 4⟩, some (.clientMessage ⟨.text [98], .text [104, 105], 0⟩)⟩).run
        ⟨[255, 255, 255, 255, 255], none⟩).1 ≠
      ((ChatyMessage.get .fresh).run ⟨[255, 255, 255, 255, 255], none⟩).1 := by
  decide

/-! ### One message for a sequence of reads -/

/-- The messages that `n` reads into one object show. -/
def readInto (msg : ChatyMessage) : Nat → Extract (List ChatyMessage)
  | 0 => pure []
  | n + 1 => do
    let msg ← ChatyMessage.get msg
    let msgs ← readInto msg n
    pure (msg :: msgs)

theorem readInto_succ (msg : ChatyMessage) (n : Nat) (stream : QDataStream) :
    ((readInto msg (n + 1)).run stream).1 =
      ((ChatyMessage.get msg).run stream).1 ::
        ((readInto ((ChatyMessage.get msg).run stream).1 n).run
          ((ChatyMessage.get msg).run stream).2).1 := rfl

theorem times_succ (n : Nat) (stream : QDataStream) :
    ((times (ChatyMessage.get .fresh) (n + 1)).run stream).1 =
      ((ChatyMessage.get .fresh).run stream).1 ::
        ((times (ChatyMessage.get .fresh) n).run ((ChatyMessage.get .fresh).run stream).2).1 := rfl

/-- An object that is read into again and again shows what fresh ones would exactly when no message
without a body follows one with a body. -/
theorem readInto_iff (msg : ChatyMessage) (n : Nat) (stream : QDataStream) :
    ((readInto msg n).run stream).1 = ((times (ChatyMessage.get .fresh) n).run stream).1 ↔
      List.IsChain (fun before after => after.pMsgBody = none → before.pMsgBody = none)
        (msg :: ((times (ChatyMessage.get .fresh) n).run stream).1) := by
  induction n generalizing msg stream with
  | zero => exact ⟨fun _ => List.isChain_singleton msg, fun _ => rfl⟩
  | succ n ih =>
    rw [readInto_succ, times_succ, List.isChain_cons_cons, List.cons.injEq, get_into msg]
    generalize (ChatyMessage.get .fresh).run stream = read
    constructor
    · rintro ⟨hhead, htail⟩
      rw [hhead] at htail
      exact ⟨over_eq_iff.mp hhead, (ih read.1 read.2).mp htail⟩
    · rintro ⟨hhead, htail⟩
      refine ⟨over_eq_iff.mpr hhead, ?_⟩
      rw [over_eq_iff.mpr hhead]
      exact (ih read.1 read.2).mpr htail

end XChaty.Protoc
