import XChaty.Protoc.Wire

/-! `Serrialize` and `DeSerrialize` are inverse to each other in both directions: a stream of
serialised messages is read back message by message, and bytes that are read without a failure are
the serialised form of the message they decode to. -/

namespace XChaty.Protoc

open Qt ProofKit.Codec

theorem mapM_serrialize {msgs : List ChatyMessage} (h : ∀ msg ∈ msgs, msg.Agrees) :
    msgs.mapM serrialize = .ok (msgs.map ChatyMessage.wire) := by
  induction msgs with
  | nil => rfl
  | cons msg msgs ih =>
    have hhead := serrialize_of_agrees (h msg List.mem_cons_self)
    have htail := ih fun m hm => h m (List.mem_cons_of_mem msg hm)
    rw [List.mapM_cons, hhead, htail]
    rfl

theorem wire_length_le {msgs : List ChatyMessage} {msg : ChatyMessage} (h : msg ∈ msgs) :
    msg.wire.length ≤ (msgs.flatMap ChatyMessage.wire).length := by
  obtain ⟨before, after, rfl⟩ := List.append_of_mem h
  simp only [List.flatMap_append, List.flatMap_cons, List.length_append]
  omega

theorem decode_wire {msg : ChatyMessage} (h : msg.Agrees) (hsize : msg.wire.length < 2 ^ 31)
    (rest : QByteArray) : decode (msg.wire ++ rest) = (msg, ⟨rest, none⟩) :=
  ChatyMessage.get_reads h hsize rest none

/-- Messages serialised one after the other are read back in order, each into a fresh message,
and the bytes after them are left; one message alone is what `DeSerrialize` makes of its bytes. -/
theorem stream_round_trip (msgs : List ChatyMessage) (h : ∀ msg ∈ msgs, msg.Agrees) :
    ∃ outs, msgs.mapM serrialize = .ok outs ∧
      (outs.flatten.length < 2 ^ 31 → ∀ trailing,
        (times (ChatyMessage.get .fresh) msgs.length).run ⟨outs.flatten ++ trailing, none⟩ =
          (msgs, ⟨trailing, none⟩)) ∧
      ∀ msg ∈ msgs, ∀ out, serrialize msg = .ok out → out.length < 2 ^ 31 →
        deSerrialize out = msg := by
  refine ⟨msgs.map ChatyMessage.wire, mapM_serrialize h, fun hsize trailing => ?_, ?_⟩
  · rw [← List.flatMap_def] at hsize ⊢
    have hreads := times_reads fun msg hmsg =>
      ChatyMessage.get_reads (h msg hmsg) (Nat.lt_of_le_of_lt (wire_length_le hmsg) hsize)
    exact hreads trailing none
  · intro msg hmsg out hout hsize
    rw [serrialize_of_agrees (h msg hmsg)] at hout
    cases hout
    have hback := decode_wire (h msg hmsg) hsize []
    rw [List.append_nil] at hback
    rw [deSerrialize_eq, hback]

/-- A login with a null password, a chat line in room -1 with a null time, and a heartbeat. -/
def sampleMessages : List ChatyMessage :=
  [⟨⟨.text [50], 0⟩, some (.loginMsg ⟨⟨.text [98], .null, .text []⟩⟩)⟩,
    ⟨⟨.null, 4⟩, some (.clientMessage ⟨.text [98], .text [104, 105], -1⟩)⟩,
    ⟨⟨.text [], 255⟩, none⟩]

theorem stream_round_trip_sample :
    ∃ outs, sampleMessages.mapM serrialize = .ok outs ∧
      (outs.flatten.length < 2 ^ 31 → ∀ trailing,
        (times (ChatyMessage.get .fresh) 3).run ⟨outs.flatten ++ trailing, none⟩ =
          (sampleMessages, ⟨trailing, none⟩)) ∧
      ∀ msg ∈ sampleMessages, ∀ out, serrialize msg = .ok out → out.length < 2 ^ 31 →
        deSerrialize out = msg :=
  stream_round_trip sampleMessages (by decide)

/-- The bytes that `DeSerrialize` takes off its array. -/
def consumed (ba : QByteArray) : QByteArray := ba.take (ba.length - (decode ba).2.rest.length)

theorem consumed_eq_wire {ba : QByteArray} (h : (decode ba).2.error = none) :
    consumed ba = (decode ba).1.wire := by
  obtain ⟨-, htaken⟩ := ChatyMessage.get_consumes ⟨ba, none⟩ h
  rw [List.nil_append] at htaken
  change ba = (decode ba).1.wire ++ (decode ba).2.rest at htaken
  have hlen := congrArg List.length htaken
  rw [List.length_append] at hlen
  calc
    consumed ba = ba.take (decode ba).1.wire.length := by
      rw [consumed, hlen, Nat.add_sub_cancel]
    _ = ((decode ba).1.wire ++ (decode ba).2.rest).take (decode ba).1.wire.length := by
      rw [← htaken]
    _ = (decode ba).1.wire := List.take_left

/-- Bytes that are read without a failure decode to the message whose serialised form is exactly
what was taken of them. -/
theorem deSerrialize_canonical (ba : QByteArray) (h : (decode ba).2.error = none) :
    consumed ba ++ (decode ba).2.rest = ba ∧ serrialize (deSerrialize ba) = .ok (consumed ba) ∧
      ∀ ba', (decode ba').2.error = none → deSerrialize ba' = deSerrialize ba →
        consumed ba' = consumed ba := by
  refine ⟨?_, ?_, fun ba' h' hsame => ?_⟩
  · obtain ⟨-, htaken⟩ := ChatyMessage.get_consumes ⟨ba, none⟩ h
    rw [consumed_eq_wire h]
    exact htaken.symm
  · rw [deSerrialize_eq, serrialize_of_agrees (decode_agrees ba), consumed_eq_wire h]
  · rw [deSerrialize_eq, deSerrialize_eq] at hsame
    rw [consumed_eq_wire h', consumed_eq_wire h, hsame]

theorem deSerrialize_canonical_heartbeat :
    consumed [255, 255, 255, 255, 255, 9] ++ (decode [255, 255, 255, 255, 255, 9]).2.rest =
        [255, 255, 255, 255, 255, 9] ∧
      serrialize (deSerrialize [255, 255, 255, 255, 255, 9]) =
        .ok (consumed [255, 255, 255, 255, 255, 9]) ∧
      ∀ ba', (decode ba').2.error = none →
        deSerrialize ba' = deSerrialize [255, 255, 255, 255, 255, 9] →
        consumed ba' = consumed [255, 255, 255, 255, 255, 9] :=
  deSerrialize_canonical [255, 255, 255, 255, 255, 9] (by decide)

theorem decode_strict_prefix {msg : ChatyMessage} (h : msg.Agrees)
    (hsize : msg.wire.length < 2 ^ 31) {start rest : QByteArray} (hcut : msg.wire = start ++ rest)
    (hrest : rest ≠ []) : (decode start).2.error ≠ none := by
  intro hok
  have hshort : (decode start).1.wire.length < 2 ^ 31 := by
    rw [hcut, List.length_append] at hsize
    have hle : (consumed start).length ≤ start.length := List.length_take_le' _ _
    rw [consumed_eq_wire hok] at hle
    omega
  exact strict_prefix_fails ChatyMessage.get_consumes (ChatyMessage.get_reads h hsize) hcut hrest
    (ChatyMessage.get_reads (decode_agrees start) hshort) hok

end XChaty.Protoc
