import Mathlib.Data.List.SplitLengths
import XChaty.Server.Runs

/-! The stream of one connection and the buffers it is cut into.  The server has no unpack setting,
so a buffer is whatever bytes have come, and `onMsg` decodes one message at its start and drops the
rest.  Only buffers that are one whole message each are handled as they were sent: for any other
cut, messages of the same sizes exist that are not. -/

namespace XChaty.Server

open Qt Protoc ProofKit.Codec

def Packet.size (p : Packet) : Nat := p.bytes.length

def stream (packets : List Packet) : QByteArray := packets.flatMap Packet.bytes

section Framing

variable {Db : Type} (host : Host Db) (process : Process Db) (channel : Nat)

/-- The server handles exactly the messages sent, in order, and posts exactly their chat texts. -/
structure FramingHolds (packets : List Packet) (buffers : List (List UInt8)) : Prop where
  handled : (handled host process (buffers.map (channel, ·))).map Handled.msg =
    packets.map Packet.msg
  posted : ((server host).run process (buffers.map (channel, ·))).window.posted =
    process.window.posted ++ chatTexts (packets.map Packet.msg)

/-- Packets of these sizes, in buffers of those lengths, are handled as they were sent, unless a
lookup ends the process. -/
def Frames (sizes lengths : List Nat) : Prop :=
  ∀ packets buffers, packets.map Packet.size = sizes → buffers.map List.length = lengths →
    buffers.flatten = stream packets →
    (FramingHolds host process channel packets buffers ↔
      Survives host process (packets.map (channel, ·)))

variable {process}

/-! ### Buffers that are whole messages -/

theorem whole_framing_iff (hrunning : process.fault = none) (packets : List Packet) :
    FramingHolds host process channel packets (packets.map Packet.bytes) ↔
      Survives host process (packets.map (channel, ·)) := by
  have hinputs : (packets.map Packet.bytes).map (channel, ·) =
      whole (packets.map (channel, ·)) := by
    simp [whole]
  have hdecoded : ((whole (packets.map (channel, ·))).map fun input => (decode input.2).1) =
      packets.map Packet.msg := by
    simp [whole]
  constructor
  · rintro ⟨hhandled, -⟩
    rw [hinputs] at hhandled
    have hlength := congrArg List.length hhandled
    have hend := (handled_length_iff host hrunning (whole (packets.map (channel, ·)))).mp
      (by simpa [whole] using hlength)
    exact ((running_whole_iff host process _).mp hend).2
  · intro hsurvives
    have hend := (running_whole_iff host process _).mpr ⟨hrunning, hsurvives⟩
    have hhandled := (handled_of_running host hrunning hend).trans hdecoded
    constructor
    · rw [hinputs, hhandled]
    · rw [hinputs, posted_run, hhandled]

/-! ### Buffers that are not -/

/-- A time of `n` code units, which no failed read stores. -/
def zeros : Nat → QString
  | 0 => .null
  | n + 1 => .text (List.replicate (n + 1) 0)

theorem zeros_ne_empty (n : Nat) : zeros n ≠ .text [] := by
  cases n with
  | zero => exact QString.noConfusion
  | succ n => simp [zeros, List.replicate_succ]

theorem zeros_units_length (n : Nat) : (zeros n).units.length = n := by
  cases n with
  | zero => rfl
  | succ n => exact List.length_replicate

def heartbeat (n : Nat) : ChatyMessage := ⟨⟨zeros n, RequestType.reqHb.code⟩, none⟩

theorem heartbeat_agrees (n : Nat) : (heartbeat n).Agrees :=
  show ¬IsUserType 255 ∧ ¬IsChatType 255 by decide

theorem heartbeat_wire_length (n : Nat) : (heartbeat n).wire.length = 5 + 2 * n := by
  have h := putQString_length (zeros n)
  rw [zeros_units_length] at h
  change ([_] ++ putQString (zeros n) ++ []).length = _
  rw [List.append_nil, List.length_append, h, List.length_singleton]
  omega

theorem length_of_decode_heartbeat {buf : List UInt8} {n : Nat}
    (h : (decode buf).1 = heartbeat n) : 5 + 2 * n ≤ buf.length := by
  match buf with
  | [] =>
    have htype : (0 : UInt8) = 255 := congrArg (fun msg => msg.msgHead.msgType) h
    exact absurd htype (by decide)
  | b :: rest =>
    have htime : (decode (b :: rest)).1.msgHead.time = (getQString.run ⟨rest, none⟩).1 := by
      rw [decode, ChatyMessage.get, run_bind]
      split
      · rfl
      · split <;> rfl
    rw [h] at htime
    change zeros n = _ at htime
    have hlen := @length_of_getQString rest (by rw [← htime]; exact zeros_ne_empty n)
    rw [← htime, zeros_units_length] at hlen
    rw [List.length_cons]
    omega

theorem Packet.exists_heartbeat (p : Packet) :
    ∃ q : Packet, q.size = p.size ∧ ∃ n, q.msg = heartbeat n := by
  obtain ⟨n, hn⟩ := p.msg.wire_length
  have hsize : p.size = 5 + 2 * n := by rw [size, p.bytes_eq, hn]
  have hfits := p.fits
  refine ⟨.ofMsg (heartbeat n) (heartbeat_agrees n) ?_, ?_, n, rfl⟩
  · rw [heartbeat_wire_length, ← hsize]
    exact hfits
  · exact (heartbeat_wire_length n).trans hsize.symm

/-- Buffers that begin by decoding to heartbeats, and are together no longer than those, have their
sizes: each is long enough, so none is longer, and none is left over. -/
theorem lengths_of_heartbeats {packets : List Packet} {buffers : List (List UInt8)}
    (hbeats : ∀ p ∈ packets, ∃ n, p.msg = heartbeat n) (hne : ∀ buf ∈ buffers, buf ≠ [])
    (hdecoded : packets.map Packet.msg <+: buffers.map fun buf => (decode buf).1)
    (hlength : buffers.flatten.length ≤ (stream packets).length) :
    buffers.map List.length = packets.map Packet.size := by
  induction packets generalizing buffers with
  | nil =>
    cases buffers with
    | nil => rfl
    | cons buf buffers =>
      have hbuf := List.length_pos_iff.mpr (hne buf List.mem_cons_self)
      rw [List.flatten_cons, List.length_append, stream, List.flatMap_nil, List.length_nil]
        at hlength
      omega
  | cons p packets ih =>
    cases buffers with
    | nil => exact absurd hdecoded (by simp)
    | cons buf buffers =>
      rw [List.map_cons, List.map_cons, List.cons_prefix_cons] at hdecoded
      obtain ⟨hhead, htail⟩ := hdecoded
      obtain ⟨n, hn⟩ := hbeats p List.mem_cons_self
      have hsize : p.size = 5 + 2 * n := by
        rw [Packet.size, p.bytes_eq, hn, heartbeat_wire_length]
      have hlong := length_of_decode_heartbeat (hhead.symm.trans hn)
      rw [List.flatten_cons, stream, List.flatMap_cons, List.length_append, List.length_append,
        ← Packet.size] at hlength
      have hrest := ih (fun q hq => hbeats q (List.mem_cons_of_mem p hq))
        (fun b hb => hne b (List.mem_cons_of_mem buf hb)) htail (by rw [stream]; omega)
      have hsame : buffers.flatten.length = (packets.flatMap Packet.bytes).length := by
        rw [List.length_flatten, hrest, List.length_flatMap]
        rfl
      rw [List.map_cons, List.map_cons, hrest, show buf.length = p.size by omega]

theorem exists_heartbeats (packets : List Packet) :
    ∃ beats : List Packet, beats.map Packet.size = packets.map Packet.size ∧
      ∀ p ∈ beats, ∃ n, p.msg = heartbeat n := by
  induction packets with
  | nil => exact ⟨[], rfl, by simp⟩
  | cons p packets ih =>
    obtain ⟨q, hsize, hbeat⟩ := p.exists_heartbeat
    obtain ⟨beats, hsizes, hbeats⟩ := ih
    refine ⟨q :: beats, by rw [List.map_cons, List.map_cons, hsize, hsizes], ?_⟩
    intro p hp
    rcases List.mem_cons.mp hp with rfl | hp
    · exact hbeat
    · exact hbeats p hp

theorem heartbeats_survive {packets : List Packet}
    (hbeats : ∀ p ∈ packets, ∃ n, p.msg = heartbeat n) :
    Survives host process (packets.map (channel, ·)) := by
  rintro before p after hsplit ⟨body, hbody, -, -⟩
  have hp : p ∈ packets.map (channel, ·) := by
    rw [hsplit]
    exact List.mem_append_right before List.mem_cons_self
  obtain ⟨q, hq, rfl⟩ := List.mem_map.mp hp
  obtain ⟨n, hn⟩ := hbeats q hq
  rw [hn] at hbody
  cases hbody

theorem exists_cut {packets packets' : List Packet} {buffers : List (List UInt8)}
    (hsizes : packets'.map Packet.size = packets.map Packet.size)
    (hstream : buffers.flatten = stream packets) :
    ∃ buffers' : List (List UInt8), buffers'.map List.length = buffers.map List.length ∧
      buffers'.flatten = stream packets' := by
  have hlength : (stream packets').length = (buffers.map List.length).sum := by
    have hsum : ∀ ps, (stream ps).length = (ps.map Packet.size).sum := fun ps => by
      rw [stream, List.length_flatMap]
      rfl
    rw [hsum, hsizes, ← hsum, ← hstream, List.length_flatten]
  exact ⟨(buffers.map List.length).splitLengths (stream packets'),
    List.map_splitLengths_length _ _ hlength.ge, List.flatten_splitLengths _ _ hlength.le⟩

/-- The server gets packets right, whatever they hold, exactly when their stream is cut where each
packet ends. -/
theorem frames_iff (hrunning : process.fault = none) {packets : List Packet}
    {buffers : List (List UInt8)} (hstream : buffers.flatten = stream packets)
    (hne : ∀ buf ∈ buffers, buf ≠ []) :
    Frames host process channel (packets.map Packet.size) (buffers.map List.length) ↔
      buffers = packets.map Packet.bytes := by
  constructor
  · intro hframes
    obtain ⟨beats, hsizes, hbeats⟩ := exists_heartbeats packets
    obtain ⟨buffers', hlengths, hstream'⟩ := exists_cut hsizes hstream
    have hholds := (hframes beats buffers' hsizes hlengths hstream').mpr
      (heartbeats_survive host channel hbeats)
    have hdecoded := handled_isPrefix host process (buffers'.map (channel, ·))
    rw [hholds.handled, List.map_map] at hdecoded
    have hne' : ∀ buf ∈ buffers', buf ≠ [] := by
      intro buf hbuf hnil
      have hmem : 0 ∈ buffers.map List.length := by
        rw [← hlengths, List.mem_map]
        exact ⟨buf, hbuf, by rw [hnil, List.length_nil]⟩
      obtain ⟨buf', hbuf', hzero⟩ := List.mem_map.mp hmem
      exact hne buf' hbuf' (List.eq_nil_of_length_eq_zero hzero)
    have hcut := lengths_of_heartbeats hbeats hne' hdecoded (by rw [hstream'])
    rw [hlengths, hsizes] at hcut
    refine List.eq_iff_flatten_eq.mpr ⟨hstream, ?_⟩
    rw [hcut, List.map_map]
    rfl
  · rintro rfl packets' buffers' hsizes hlengths hstream'
    have hwhole : buffers' = packets'.map Packet.bytes := by
      refine List.eq_iff_flatten_eq.mpr ⟨hstream', ?_⟩
      rw [hlengths, List.map_map, List.map_map]
      exact hsizes.symm
    rw [hwhole]
    exact whole_framing_iff host channel hrunning packets'

end Framing

def chatLine (u : UInt16) : Packet :=
  .ofMsg ⟨⟨.null, RequestType.reqChat.code⟩, some (.clientMessage ⟨.null, .text [u], 0⟩)⟩ rfl
    (show 19 < 2 ^ 31 by decide)

theorem frames_iff_one_buffer :
    Frames syntaxErrorHost (Process.new []) 0 ([chatLine 97, chatLine 98].map Packet.size)
        ([stream [chatLine 97, chatLine 98]].map List.length) ↔
      [stream [chatLine 97, chatLine 98]] = [chatLine 97, chatLine 98].map Packet.bytes :=
  frames_iff syntaxErrorHost 0 rfl (by decide) (by decide)

/-- The server handles and posts only the first of two chat lines that come in one buffer. -/
theorem two_lines_one_buffer :
    stream [chatLine 97, chatLine 98] ≠ [] ∧
      [stream [chatLine 97, chatLine 98]].flatten = stream [chatLine 97, chatLine 98] ∧
      ¬FramingHolds syntaxErrorHost (Process.new []) 0 [chatLine 97, chatLine 98]
        [stream [chatLine 97, chatLine 98]] :=
  ⟨by decide, by decide, fun hholds => absurd hholds.posted (by decide)⟩

end XChaty.Server
