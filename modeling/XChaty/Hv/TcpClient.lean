import XChaty.ProofKit.Machine
import XChaty.Qt.DataStream

/-! `hv::TcpClient`: its one connection, between the calls of its owner and the events on the
network.  `start` only begins to connect, `send` writes only to a connected channel, and after the
destructor nothing more happens. -/

namespace XChaty.Hv

open Qt ProofKit

/-- `Channel::Status`, without `DISCONNECTED`, which no channel is given. -/
inductive Status
  | opened
  | connecting
  | connected
  | closed
deriving DecidableEq, Repr

inductive Event
  | connected
  | received (buf : List UInt8)
  | closed
deriving DecidableEq, Repr

/-- What has become of a connection: `received` is a call of `onMessage`, `handed` a write. -/
inductive Occurrence
  | connected
  | handed (data : QByteArray)
  | received (buf : List UInt8)
  | closed
  | destroyed
deriving DecidableEq, Repr

def Occurrence.data : Occurrence → Option QByteArray
  | handed data => some data
  | _ => none

structure TcpClient where
  status : Status
  trace : List Occurrence
deriving DecidableEq, Repr

/-- The network acts on a connection that is being made or is there. -/
def network : Machine Status Event (List Occurrence) where
  step
    | .connecting, .connected => (.connected, [.connected])
    | .connected, .received buf => (.connected, [.received buf])
    | .connecting, .closed => (.closed, [.closed])
    | .connected, .closed => (.closed, [.closed])
    | status, _ => (status, [])

def happens (status : Status) (events : List Event) : List Occurrence :=
  (network.outputs status events).flatten

namespace TcpClient

/-- After `createsocket`. -/
def created : TcpClient := { status := .opened, trace := [] }

def events (client : TcpClient) (events : List Event) : TcpClient :=
  { status := network.run client.status events
    trace := client.trace ++ happens client.status events }

/-- A channel that has been closed is replaced by a new one. -/
def start (client : TcpClient) : TcpClient :=
  match client.status with
  | .opened | .closed => { client with status := .connecting }
  | .connecting | .connected => client

def send (client : TcpClient) (data : QByteArray) : TcpClient × Int :=
  if client.status = .connected then
    ({ client with trace := client.trace ++ [.handed data] }, data.length)
  else (client, -1)

def destroy (client : TcpClient) : TcpClient :=
  { status := .closed, trace := client.trace ++ [.destroyed] }

end TcpClient

/-! ### Events while the connection is made, and while it is there -/

@[simp] theorem happens_nil (status : Status) : happens status [] = [] := rfl

@[simp] theorem happens_cons (status : Status) (event : Event) (events : List Event) :
    happens status (event :: events) =
      (network.step status event).2 ++ happens (network.step status event).1 events := rfl

theorem still {status : Status} (h : status = .opened ∨ status = .closed) (events : List Event) :
    network.run status events = status ∧ happens status events = [] := by
  induction events with
  | nil => exact ⟨rfl, rfl⟩
  | cons event events ih =>
    have hstep : network.step status event = (status, []) := by
      rcases h with rfl | rfl <;> cases event <;> rfl
    rw [Machine.run_cons, happens_cons, hstep]
    exact ih

theorem run_closed (events : List Event) : network.run .closed events = .closed :=
  (still (.inr rfl) events).1

theorem run_connected_iff (events : List Event) :
    network.run .connected events = .connected ↔ .closed ∉ events := by
  induction events with
  | nil => simp
  | cons event events ih =>
    rw [Machine.run_cons]
    cases event with
    | connected =>
      change network.run .connected events = .connected ↔ _
      simpa using ih
    | received buf =>
      change network.run .connected events = .connected ↔ _
      simpa using ih
    | closed =>
      change network.run .closed events = .connected ↔ _
      simp [run_closed]

/-- The connection is there after some events when it has been completed and not closed. -/
theorem run_connecting_iff (events : List Event) :
    network.run .connecting events = .connected ↔ .connected ∈ events ∧ .closed ∉ events := by
  induction events with
  | nil => simp
  | cons event events ih =>
    rw [Machine.run_cons]
    cases event with
    | connected =>
      change network.run .connected events = .connected ↔ _
      simp [run_connected_iff]
    | received buf =>
      change network.run .connecting events = .connected ↔ _
      simpa using ih
    | closed =>
      change network.run .closed events = .connected ↔ _
      simp [run_closed]

theorem step_network {status : Status} {event : Event} {o : Occurrence}
    (h : o ∈ (network.step status event).2) :
    (o = .connected ∧ event = .connected) ∨ (∃ buf, o = .received buf ∧ event = .received buf) ∨
      (o = .closed ∧ event = .closed) := by
  cases status <;> cases event <;> simp_all [network]

/-- Whatever happens is one of the events. -/
theorem happens_network {status : Status} {events : List Event} {o : Occurrence}
    (h : o ∈ happens status events) :
    (o = .connected ∧ .connected ∈ events) ∨ (∃ buf, o = .received buf ∧ .received buf ∈ events) ∨
      (o = .closed ∧ .closed ∈ events) := by
  induction events generalizing status with
  | nil => cases h
  | cons event events ih =>
    rw [happens_cons] at h
    rcases List.mem_append.mp h with hnow | hlater
    · rcases step_network hnow with ⟨ho, rfl⟩ | ⟨buf, ho, rfl⟩ | ⟨ho, rfl⟩
      · exact .inl ⟨ho, List.mem_cons_self⟩
      · exact .inr (.inl ⟨buf, ho, List.mem_cons_self⟩)
      · exact .inr (.inr ⟨ho, List.mem_cons_self⟩)
    · rcases ih hlater with ⟨ho, hmem⟩ | ⟨buf, ho, hmem⟩ | ⟨ho, hmem⟩
      · exact .inl ⟨ho, List.mem_cons_of_mem event hmem⟩
      · exact .inr (.inl ⟨buf, ho, List.mem_cons_of_mem event hmem⟩)
      · exact .inr (.inr ⟨ho, List.mem_cons_of_mem event hmem⟩)

theorem handed_notMem_happens (status : Status) (events : List Event) (data : QByteArray) :
    .handed data ∉ happens status events := by
  intro h
  rcases happens_network h with ⟨ho, -⟩ | ⟨_, ho, -⟩ | ⟨ho, -⟩ <;> cases ho

theorem destroyed_notMem_happens (status : Status) (events : List Event) :
    .destroyed ∉ happens status events := by
  intro h
  rcases happens_network h with ⟨ho, -⟩ | ⟨_, ho, -⟩ | ⟨ho, -⟩ <;> cases ho

theorem closed_of_happens {status : Status} {events : List Event}
    (h : .closed ∈ happens status events) : .closed ∈ events := by
  rcases happens_network h with ⟨ho, -⟩ | ⟨_, ho, -⟩ | ⟨-, hmem⟩
  · cases ho
  · cases ho
  · exact hmem

theorem data_happens (status : Status) (events : List Event) :
    (happens status events).filterMap Occurrence.data = [] := by
  refine List.filterMap_eq_nil_iff.mpr fun o ho => ?_
  rcases happens_network ho with ⟨rfl, -⟩ | ⟨_, rfl, -⟩ | ⟨rfl, -⟩ <;> rfl

theorem connected_happens {events : List Event} (h : .connected ∈ events)
    (hopen : .closed ∉ events) : .connected ∈ happens .connecting events := by
  induction events with
  | nil => cases h
  | cons event events ih =>
    rw [happens_cons]
    cases event with
    | connected => exact List.mem_append_left _ List.mem_cons_self
    | received buf => exact ih (by simpa using h) (by simpa using hopen)
    | closed => exact absurd List.mem_cons_self hopen

theorem answered_iff (events : List Event) :
    (.closed ∈ happens .connected events ∨ ∃ buf, .received buf ∈ happens .connected events) ↔
      .closed ∈ events ∨ ∃ buf, .received buf ∈ events := by
  induction events with
  | nil => simp
  | cons event events ih =>
    rw [happens_cons]
    cases event with
    | connected => simpa [network] using ih
    | received buf => simp [network]
    | closed => simp [network]

end XChaty.Hv
