import XChaty.Hv.TcpClient
import XChaty.ProofKit.History
import XChaty.ProofKit.Tables

/-! `hv::TcpServer` with its worker loops.  The acceptor gives every connection to the next loop in
turn, and `newConnEvent` runs on that loop when its event comes up: it tests the number of channels
and adds one, while the other loops may be between the test and the addition as well.  From then on
the loop calls `onMessage` for every buffer that is read, and `onConnection` once more when the
connection closes. -/

namespace XChaty.Hv

open ProofKit

/-- A worker loop: `customEvents` are the connections whose `newConnEvent` is queued, by their ids,
and `connio` is the one whose `newConnEvent` is past its test. -/
structure WorkerLoop where
  connectionNum : UInt32
  customEvents : List Nat
  connio : Option Nat
deriving DecidableEq, Repr

/-- A channel of the map, with the loop that it is attached to. -/
structure ServerChannel where
  id : Nat
  loop : Nat
  status : Status
deriving DecidableEq, Repr

structure TcpServer where
  channels : List ServerChannel
  max_connections : Nat
  next_loop_idx_ : Nat
  loop_threads_ : List WorkerLoop
deriving DecidableEq, Repr

/-- What the acceptor and the loops do to a connection: its event is queued, `onConnection` and
`onMessage` are called, or `newConnEvent` closes it. -/
inductive ServerNote
  | queued (loop id : Nat)
  | onConnection (loop id : Nat) (isConnected : Bool)
  | onMessage (loop id : Nat) (buf : List UInt8)
  | hio_close (loop id : Nat)
deriving DecidableEq, Repr

inductive ServerEvent
  | onAccept (id : Nat)
  | onCustomEvent (loop : Nat)
  | attach (loop : Nat)
  | on_read (id : Nat) (buf : List UInt8)
  | on_close (id : Nat)
deriving DecidableEq, Repr

namespace TcpServer

/-- After `setThreadNum(num)` and `start`. -/
def started (num : Nat) : TcpServer :=
  { channels := []
    max_connections := 0xFFFFFFFF
    next_loop_idx_ := 0
    loop_threads_ := List.replicate num { connectionNum := 0, customEvents := [], connio := none } }

def setMaxConnectionNum (s : TcpServer) (num : Nat) : TcpServer := { s with max_connections := num }

def connectionNum (s : TcpServer) : Nat := s.channels.length

def getChannelById (s : TcpServer) (id : Nat) : Option ServerChannel :=
  s.channels.find? fun channel => channel.id = id

def addChannel (s : TcpServer) (channel : ServerChannel) : TcpServer :=
  { s with channels := s.channels.filter (fun c => c.id ≠ channel.id) ++ [channel] }

def removeChannel (s : TcpServer) (id : Nat) : TcpServer :=
  { s with channels := s.channels.filter fun c => c.id ≠ id }

def modifyLoop (s : TcpServer) (idx : Nat) (f : WorkerLoop → WorkerLoop) : TcpServer :=
  { s with loop_threads_ := s.loop_threads_.modify idx f }

/-- `nextLoop` with `LB_RoundRobin`, when there are worker loops. -/
def nextLoop (s : TcpServer) : Nat × TcpServer :=
  let next := if s.next_loop_idx_ + 1 ≥ s.loop_threads_.length then 0 else s.next_loop_idx_ + 1
  (next % s.loop_threads_.length, { s with next_loop_idx_ := next })

def onAccept (s : TcpServer) (id : Nat) : TcpServer × List ServerNote :=
  let (idx, s) := s.nextLoop
  (s.modifyLoop idx fun loop =>
    { loop with
      connectionNum := loop.connectionNum + 1
      customEvents := loop.customEvents ++ [id] }, [.queued idx id])

/-- The loop takes its first event, and `newConnEvent` runs up to its test. -/
def onCustomEvent (s : TcpServer) (idx : Nat) : TcpServer × List ServerNote :=
  match s.loop_threads_[idx]? with
  | some { connectionNum, customEvents := id :: customEvents, connio := none } =>
    if s.connectionNum ≥ s.max_connections then
      (s.modifyLoop idx fun _ => { connectionNum, customEvents, connio := none },
        [.hio_close idx id])
    else (s.modifyLoop idx fun _ => { connectionNum, customEvents, connio := some id }, [])
  | _ => (s, [])

/-- The rest of `newConnEvent`. -/
def attach (s : TcpServer) (idx : Nat) : TcpServer × List ServerNote :=
  match s.loop_threads_[idx]?.bind WorkerLoop.connio with
  | some id =>
    let channel : ServerChannel := { id, loop := idx, status := .connected }
    ((s.modifyLoop idx fun loop => { loop with connio := none }).addChannel channel,
      [.onConnection idx id (channel.status = .connected)])
  | none => (s, [])

def on_read (s : TcpServer) (id : Nat) (buf : List UInt8) : TcpServer × List ServerNote :=
  match s.getChannelById id with
  | some channel => (s, [.onMessage channel.loop id buf])
  | none => (s, [])

def on_close (s : TcpServer) (id : Nat) : TcpServer × List ServerNote :=
  match s.getChannelById id with
  | some channel =>
    let s := s.modifyLoop channel.loop fun loop =>
      { loop with connectionNum := loop.connectionNum - 1 }
    let channel := { channel with status := .closed }
    (s.removeChannel id, [.onConnection channel.loop id (channel.status = .connected)])
  | none => (s, [])

end TcpServer

/-- Every step is made under the lock of the map or of a queue, or on one atomic counter. -/
def tcpServer : Machine TcpServer ServerEvent (List ServerNote) where
  step s
    | .onAccept id => s.onAccept id
    | .onCustomEvent idx => s.onCustomEvent idx
    | .attach idx => s.attach idx
    | .on_read id buf => s.on_read id buf
    | .on_close id => s.on_close id

def ServerNote.id : ServerNote → Nat
  | queued _ id | onConnection _ id _ | onMessage _ id _ | hio_close _ id => id

/-! ### Where a connection is -/

def WorkerLoop.held (loop : WorkerLoop) : List Nat := loop.connio.toList ++ loop.customEvents

namespace TcpServer

/-- The connections that have been given to a loop and are no channels yet. -/
def waiting (s : TcpServer) : List Nat := s.loop_threads_.flatMap WorkerLoop.held

/-- The connections whose `newConnEvent` is between its test and the addition. -/
def attaching (s : TcpServer) : List Nat := s.loop_threads_.flatMap fun loop => loop.connio.toList

/-- All connections that the server has: those that wait and those that are channels. -/
def inHand (s : TcpServer) : List Nat := s.waiting ++ s.channels.map ServerChannel.id

/-! ### What a step does -/

/-- The ids of the connections that are accepted, in order. -/
def accepted (events : List ServerEvent) : List Nat :=
  events.filterMap fun
    | .onAccept id => some id
    | _ => none

/-- What an event makes of the state, and what is done to a connection. -/
inductive Change (s : TcpServer) : ServerEvent → TcpServer → List ServerNote → Prop
  | idle {event : ServerEvent} (hevent : accepted [event] = []) : Change s event s []
  | queued (id : Nat) : Change s (.onAccept id)
    (s.nextLoop.2.modifyLoop s.nextLoop.1 fun loop =>
      { loop with
        connectionNum := loop.connectionNum + 1
        customEvents := loop.customEvents ++ [id] }) [.queued s.nextLoop.1 id]
  | refused {idx id : Nat} {connectionNum : UInt32} {customEvents : List Nat}
    (hloop : s.loop_threads_[idx]? = some ⟨connectionNum, id :: customEvents, none⟩) :
    Change s (.onCustomEvent idx)
      (s.modifyLoop idx fun _ => ⟨connectionNum, customEvents, none⟩) [.hio_close idx id]
  | admitted {idx id : Nat} {connectionNum : UInt32} {customEvents : List Nat}
    (hloop : s.loop_threads_[idx]? = some ⟨connectionNum, id :: customEvents, none⟩)
    (hmax : s.connectionNum < s.max_connections) :
    Change s (.onCustomEvent idx)
      (s.modifyLoop idx fun _ => ⟨connectionNum, customEvents, some id⟩) []
  | attached {idx id : Nat} {loop : WorkerLoop} (hloop : s.loop_threads_[idx]? = some loop)
    (hconnio : loop.connio = some id) :
    Change s (.attach idx)
      ((s.modifyLoop idx fun loop => { loop with connio := none }).addChannel
        ⟨id, idx, .connected⟩) [.onConnection idx id true]
  | read {channel : ServerChannel} (hchannel : channel ∈ s.channels) (buf : List UInt8) :
    Change s (.on_read channel.id buf) s [.onMessage channel.loop channel.id buf]
  | closed {channel : ServerChannel} (hchannel : channel ∈ s.channels) :
    Change s (.on_close channel.id)
      ((s.modifyLoop channel.loop fun loop =>
        { loop with connectionNum := loop.connectionNum - 1 }).removeChannel channel.id)
      [.onConnection channel.loop channel.id false]

theorem getChannelById_eq_some {s : TcpServer} {id : Nat} {channel : ServerChannel}
    (h : s.getChannelById id = some channel) : channel ∈ s.channels ∧ channel.id = id := by
  have hid := List.find?_some h
  exact ⟨List.mem_of_find?_eq_some h, of_decide_eq_true hid⟩

theorem onCustomEvent_change (s : TcpServer) (idx : Nat) :
    Change s (.onCustomEvent idx) (s.onCustomEvent idx).1 (s.onCustomEvent idx).2 := by
  cases hloop : s.loop_threads_[idx]? with
  | none =>
    rw [onCustomEvent, hloop]
    exact .idle rfl
  | some loop =>
    obtain ⟨connectionNum, customEvents, connio⟩ := loop
    cases customEvents with
    | nil =>
      rw [onCustomEvent, hloop]
      exact .idle rfl
    | cons id customEvents =>
      cases connio with
      | some connio =>
        rw [onCustomEvent, hloop]
        exact .idle rfl
      | none =>
        rw [onCustomEvent, hloop]
        dsimp only
        by_cases hmax : s.connectionNum ≥ s.max_connections
        · rw [if_pos hmax]
          exact .refused hloop
        · rw [if_neg hmax]
          exact .admitted hloop (Nat.lt_of_not_le hmax)

theorem attach_change (s : TcpServer) (idx : Nat) :
    Change s (.attach idx) (s.attach idx).1 (s.attach idx).2 := by
  cases hconnio : s.loop_threads_[idx]?.bind WorkerLoop.connio with
  | none =>
    rw [attach, hconnio]
    exact .idle rfl
  | some id =>
    obtain ⟨loop, hloop, hid⟩ := Option.bind_eq_some_iff.mp hconnio
    rw [attach, hconnio]
    exact .attached hloop hid

theorem on_read_change (s : TcpServer) (id : Nat) (buf : List UInt8) :
    Change s (.on_read id buf) (s.on_read id buf).1 (s.on_read id buf).2 := by
  cases hfind : s.getChannelById id with
  | none =>
    rw [on_read, hfind]
    exact .idle rfl
  | some channel =>
    obtain ⟨hchannel, rfl⟩ := getChannelById_eq_some hfind
    rw [on_read, hfind]
    exact .read hchannel buf

theorem on_close_change (s : TcpServer) (id : Nat) :
    Change s (.on_close id) (s.on_close id).1 (s.on_close id).2 := by
  cases hfind : s.getChannelById id with
  | none =>
    rw [on_close, hfind]
    exact .idle rfl
  | some channel =>
    obtain ⟨hchannel, rfl⟩ := getChannelById_eq_some hfind
    rw [on_close, hfind]
    exact .closed hchannel

theorem step_change (s : TcpServer) (event : ServerEvent) :
    Change s event (tcpServer.step s event).1 (tcpServer.step s event).2 := by
  cases event with
  | onAccept id => exact .queued id
  | onCustomEvent idx => exact onCustomEvent_change s idx
  | attach idx => exact attach_change s idx
  | on_read id buf => exact on_read_change s id buf
  | on_close id => exact on_close_change s id

theorem Change.notes {s s' : TcpServer} {event : ServerEvent} {new : List ServerNote}
    (hchange : Change s event s' new) : new = [] ∨ ∃ note, new = [note] := by
  cases hchange with
  | idle | admitted => exact .inl rfl
  | queued | refused | attached | read | closed => exact .inr ⟨_, rfl⟩

/-! ### The connections in hand -/

theorem nextLoop_lt {s : TcpServer} (h : 0 < s.loop_threads_.length) :
    s.nextLoop.1 < s.loop_threads_.length := Nat.mod_lt _ h

theorem waiting_queued {s : TcpServer} {idx : Nat} (h : idx < s.loop_threads_.length) (id : Nat) :
    (s.modifyLoop idx fun loop =>
      { loop with
        connectionNum := loop.connectionNum + 1
        customEvents := loop.customEvents ++ [id] }).waiting.Perm (id :: s.waiting) := by
  refine flatMap_modify_perm _ WorkerLoop.held [] [id]
    (List.getElem?_eq_getElem h) ?_
  change (_ ++ (_ ++ [id])).Perm _
  rw [← List.append_assoc]
  exact List.perm_append_singleton id _

theorem waiting_refused {s : TcpServer} {idx id : Nat} {connectionNum : UInt32}
    {customEvents : List Nat}
    (hloop : s.loop_threads_[idx]? = some ⟨connectionNum, id :: customEvents, none⟩) :
    (id :: (s.modifyLoop idx fun _ => ⟨connectionNum, customEvents, none⟩).waiting).Perm
      s.waiting :=
  flatMap_modify_perm _ WorkerLoop.held [id] [] hloop (List.Perm.refl _)

theorem waiting_admitted {s : TcpServer} {idx id : Nat} {connectionNum : UInt32}
    {customEvents : List Nat}
    (hloop : s.loop_threads_[idx]? = some ⟨connectionNum, id :: customEvents, none⟩) :
    (s.modifyLoop idx fun _ => ⟨connectionNum, customEvents, some id⟩).waiting = s.waiting := by
  refine flatMap_modify_eq _ WorkerLoop.held _ idx fun loop hrow => ?_
  rw [hloop] at hrow
  obtain rfl := Option.some.inj hrow
  rfl

theorem waiting_attached {s : TcpServer} {idx id : Nat} {loop : WorkerLoop}
    (hloop : s.loop_threads_[idx]? = some loop) (hconnio : loop.connio = some id) :
    (id :: (s.modifyLoop idx fun loop => { loop with connio := none }).waiting).Perm s.waiting := by
  refine flatMap_modify_perm _ WorkerLoop.held [id] [] hloop ?_
  rw [WorkerLoop.held, WorkerLoop.held, hconnio]
  exact List.Perm.refl _

theorem waiting_closed (s : TcpServer) (idx : Nat) :
    (s.modifyLoop idx fun loop =>
      { loop with connectionNum := loop.connectionNum - 1 }).waiting = s.waiting :=
  flatMap_modify_eq _ WorkerLoop.held _ idx fun _ _ => rfl

theorem mem_waiting {s : TcpServer} {idx : Nat} {loop : WorkerLoop} {id : Nat}
    (hloop : s.loop_threads_[idx]? = some loop) (hid : id ∈ loop.held) : id ∈ s.waiting :=
  List.mem_flatMap.mpr ⟨loop, List.mem_of_getElem? hloop, hid⟩

/-- A connection that has just been taken from its loop is no channel yet. -/
theorem inHand_attached {s : TcpServer} {idx id : Nat} {loop : WorkerLoop}
    (hnodup : s.inHand.Nodup) (hloop : s.loop_threads_[idx]? = some loop)
    (hconnio : loop.connio = some id) (channel : ServerChannel) (hid : channel.id = id) :
    ((s.modifyLoop idx fun loop => { loop with connio := none }).addChannel channel).inHand.Perm
        s.inHand ∧
      s.channels.filter (fun c => c.id ≠ channel.id) = s.channels := by
  have hheld : id ∈ loop.held := by
    rw [WorkerLoop.held, hconnio]
    exact List.mem_cons_self
  have hfresh : ∀ c ∈ s.channels, c.id ≠ channel.id := fun c hc heq =>
    (List.nodup_append.mp hnodup).2.2 id (mem_waiting hloop hheld) c.id
      (List.mem_map_of_mem hc) (hid.symm.trans heq.symm)
  have hfilter : s.channels.filter (fun c => c.id ≠ channel.id) = s.channels :=
    List.filter_eq_self.mpr fun c hc => decide_eq_true (hfresh c hc)
  refine ⟨?_, hfilter⟩
  change ((s.modifyLoop idx _).waiting ++
    (s.channels.filter (fun c => c.id ≠ channel.id) ++ [channel]).map ServerChannel.id).Perm _
  rw [hfilter, List.map_append, List.map_singleton, hid, ← List.append_assoc]
  refine (List.perm_append_singleton id _).trans ?_
  exact (waiting_attached hloop hconnio).append_right _

theorem inHand_closed {s : TcpServer} (hnodup : s.inHand.Nodup) {channel : ServerChannel}
    (hchannel : channel ∈ s.channels) :
    s.inHand.Perm (channel.id ::
      ((s.modifyLoop channel.loop fun loop =>
        { loop with connectionNum := loop.connectionNum - 1 }).removeChannel channel.id).inHand)
    := by
  have hperm := (perm_cons_filter_ne (List.nodup_append.mp hnodup).2.1 hchannel).map
    ServerChannel.id
  refine (hperm.append_left s.waiting).trans ?_
  rw [inHand, removeChannel]
  change (_ ++ (channel.id :: _)).Perm (channel.id :: ((s.modifyLoop channel.loop _).waiting ++ _))
  rw [waiting_closed]
  exact List.perm_middle

end TcpServer

end XChaty.Hv
