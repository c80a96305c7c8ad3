import XChaty.Client.Ledger
import XChaty.Client.XChatyClient
import XChaty.ProofKit.Links
import XChaty.Server.ServerLog

/-! One server program, any number of chat windows, and the network between them.  What a program
writes on a connection goes on its way as one segment; the network may cut and join the segments of
a connection, and the server reads one at a time.  Other programs that connect to the server are
strangers, and may send anything. -/

namespace XChaty.System

open Qt Protoc ProofKit Chat Hv Server Client

/-- A connection to the server: a channel of a chat window, or one of a stranger. -/
inductive Link
  | window (k c : Nat)
  | stranger (n : Nat)
deriving DecidableEq, Repr

/-- `up` holds the segments that the server has not read, also those that it never will because the
connection is closed; `down` those on their way from it, by the ids that the connections have
there. -/
structure Programs (Db : Type) where
  server : ChatServer Db
  windows : Nat → XChatyClient
  faults : Nat → Option Fault
  accepted : List Link
  up : Link → List QByteArray
  down : Nat → List QByteArray

/-- What happens next.  `on_read` is the first segment of a connection reaching the server, and
`onMessage` one reaching a channel of a window, with the memory behind it. -/
inductive Input
  | window (k : Nat) (event : ClientEvent)
  | onMessage (k c : Nat) (beyond : List UInt8)
  | stranger (n : Nat) (segment : QByteArray)
  | recut (link : Link) (segments : List QByteArray)
  | onAccept (link : Link)
  | onCustomEvent (loop : Nat)
  | attach (loop : Nat)
  | on_read (link : Link)
  | on_close (link : Link)
  | deliver (now : QDateTime)
  | startBtn (form : StartForm)

inductive Note
  | window (k : Nat) (effect : Effect)
  | stranger (n : Nat) (segment : QByteArray)
  | server (note : ProgramNote)
deriving DecidableEq, Repr

/-- The fault of a window that has died. -/
def fatal (effects : List Effect) : Option Fault :=
  effects.findSome? fun
    | .died fault => some fault
    | .append _ | .overWrite _ | .post _ | .written _ _ => none

namespace Programs

variable {Db : Type} (hio_id : Link → Nat) (host : Host Db)

/-- The programs when each has just started. -/
def new (server : ChatServer Db) (users : Nat → User) (forms : Nat → Form) : Programs Db :=
  { server
    windows := fun k => (XChatyClient.new (users k) (forms k)).1
    faults := fun _ => none
    accepted := []
    up := fun _ => []
    down := fun _ => [] }

/-- A step of the server; what it writes goes on its way. -/
def serve (s : Programs Db) (input : ServerInput) : Programs Db × List Note :=
  let (server, notes) := (chatServer host).step s.server input
  let written := server.process.window.written.drop s.server.process.window.written.length
  ({ s with server, down := put s.down written }, notes.map .server)

def onWindow (s : Programs Db) (k : Nat) (event : ClientEvent) : Programs Db × List Note :=
  match s.faults k with
  | some _ => (s, [])
  | none =>
    let (window, effects) := chatyClient.step (s.windows k) event
    ({ s with
        windows := Function.update s.windows k window
        faults := Function.update s.faults k (fatal effects)
        up := put s.up ((XChatyClient.writes effects).map fun w => (.window k w.1, w.2)) },
      effects.map (.window k))

/-- The loop of the channel's client calls `onMessage`. -/
def onMessage (s : Programs Db) (k c : Nat) (beyond : List UInt8) : Programs Db × List Note :=
  match s.faults k, (s.windows k).channels[c]?, s.down (hio_id (.window k c)) with
  | none, some channel, buf :: bufs =>
    if channel.status = .connected then
      let s := { s with down := Function.update s.down (hio_id (.window k c)) bufs }
      match Client.onMessage buf beyond channel.client with
      | .ok posts => (s, posts.map fun post => .window k (.post post))
      | .error fault =>
        ({ s with faults := Function.update s.faults k (some fault) }, [.window k (.died fault)])
    else (s, [])
  | _, _, _ => (s, [])

/-- The network cuts or joins segments, and none is empty. -/
def recut (s : Programs Db) (link : Link) (segments : List QByteArray) : Programs Db :=
  if segments.flatten = (s.up link).flatten ∧ [] ∉ segments then
    { s with up := Function.update s.up link segments }
  else s

/-- A channel that a window has made, or any stranger. -/
def Made (s : Programs Db) : Link → Prop
  | .window k c => c < (s.windows k).channels.length
  | .stranger _ => True

instance (s : Programs Db) (link : Link) : Decidable (s.Made link) :=
  match link with
  | .window k c => inferInstanceAs (Decidable (c < (s.windows k).channels.length))
  | .stranger _ => inferInstanceAs (Decidable True)

/-- The server reads a connection while it runs and has a channel for it. -/
def Reads (s : Programs Db) (link : Link) : Prop :=
  s.server.process.fault = none ∧
    (s.server.tcp.bind fun tcp => tcp.getChannelById (hio_id link)).isSome

instance (s : Programs Db) (link : Link) : Decidable (s.Reads hio_id link) :=
  inferInstanceAs (Decidable (_ ∧ _))

/-- The segment that the server reads next from a connection. -/
def next (s : Programs Db) (link : Link) : Option QByteArray :=
  if s.Reads hio_id link then (s.up link).head? else none

def onRead (s : Programs Db) (link : Link) : Programs Db × List Note :=
  match s.next hio_id link with
  | some segment =>
    { s with up := Function.update s.up link (s.up link).tail }.serve host
      (.net (.on_read (hio_id link) segment))
  | none => (s, [])

end Programs

/-- `hio_id` numbers the connections. -/
def programs {Db : Type} (hio_id : Link → Nat) (host : Host Db) :
    Machine (Programs Db) Input (List Note) where
  step s
    | .window k event => s.onWindow k event
    | .onMessage k c beyond => s.onMessage hio_id k c beyond
    | .stranger n segment =>
      ({ s with up := put s.up [(.stranger n, segment)] }, [.stranger n segment])
    | .recut link segments => (s.recut link segments, [])
    | .onAccept link =>
      if link ∉ s.accepted ∧ s.Made link then
        { s with accepted := s.accepted ++ [link] }.serve host (.net (.onAccept (hio_id link)))
      else (s, [])
    | .onCustomEvent loop => s.serve host (.net (.onCustomEvent loop))
    | .attach loop => s.serve host (.net (.attach loop))
    | .on_read link => s.onRead hio_id host link
    | .on_close link => s.serve host (.net (.on_close (hio_id link)))
    | .deliver now => s.serve host (.deliver now)
    | .startBtn form => s.serve host (.startBtn form)

/-! ### What a run does with one program -/

def Note.effect (k : Nat) : Note → List Effect
  | window k' effect => if k' = k then [effect] else []
  | stranger _ _ | server _ => []

def Note.program : Note → List ProgramNote
  | server note => [note]
  | window _ _ | stranger _ _ => []

/-- The events of a window among the inputs. -/
def eventsOf (k : Nat) (inputs : List Input) : List ClientEvent :=
  inputs.filterMap fun
    | .window k' event => if k' = k then some event else none
    | _ => none

namespace Programs

variable {Db : Type} (hio_id : Link → Nat) (host : Host Db)

/-- The inputs of the server that an input stands for. -/
def serverInputs (s : Programs Db) : Input → List ServerInput
  | .window _ _ | .onMessage _ _ _ | .stranger _ _ | .recut _ _ => []
  | .onAccept link =>
    if link ∉ s.accepted ∧ s.Made link then [.net (.onAccept (hio_id link))] else []
  | .onCustomEvent loop => [.net (.onCustomEvent loop)]
  | .attach loop => [.net (.attach loop)]
  | .on_read link =>
    (s.next hio_id link).toList.map fun segment => .net (.on_read (hio_id link) segment)
  | .on_close link => [.net (.on_close (hio_id link))]
  | .deliver now => [.deliver now]
  | .startBtn form => [.startBtn form]

end Programs

end XChaty.System
