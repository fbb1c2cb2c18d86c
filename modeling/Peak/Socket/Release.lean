import Mathlib.Data.List.Infix
import Peak.Socket.Gather

/-!
# The socket report as a system

The root gathers the reports of the peers, writes the aggregate and tells every peer how the session
ended. A peer sends its report, waits for the receipt and asks the root for its decision, over a
connection of its own for every attempt.

An event is one system call of the root or a peer, or its failure, such as a timeout. A connection
hands over the bytes written to it in pieces of any length and with any delay, and may end at any
point. What a party reads is therefore always a first part of what the other one wrote.
-/

namespace Peak

structure ReportPeer where
  rows : List (UInt64 × HookReport)
  accountingValid : ℕ
  tupleValid : Bool

/-- A session: the root, its peers, and how the structures are written. -/
structure ReportConfig where
  gather : GatherConfig
  peer : ℕ → ReportPeer
  encodeHeader : SocketHeader → List UInt8
  encodeRecord : SocketRecord → List UInt8
  encodeFrame : SocketFrame → List UInt8

namespace ReportConfig

variable (config : ReportConfig)

def isPeer (rank : ℕ) : Bool := 0 < rank && rank < config.gather.size

def header (rank : ℕ) : SocketHeader where
  magic := socketMagic
  version := socketVersion
  rank := rank
  hookCount := (config.peer rank).rows.length
  sessionToken := config.gather.sessionToken
  accountingValid := (config.peer rank).accountingValid
  tupleValid := (config.peer rank).tupleValid

def records (rank : ℕ) : List SocketRecord :=
  (config.peer rank).rows.map fun row => SocketRecord.build row.1 row.2

/-- The bytes which a peer sends before it waits for the receipt. -/
def report (rank : ℕ) : List UInt8 :=
  config.encodeHeader (config.header rank) ++ (config.records rank).flatMap config.encodeRecord

structure OfSession (frame : SocketFrame) : Prop where
  magic : frame.magic = socketMagic
  version : frame.version = socketVersion
  rank : config.isPeer frame.rank
  hookCount : frame.hookCount = config.gather.hookCount
  sessionToken : frame.sessionToken = config.gather.receiptSessionToken
  type : ∀ code, frame.type ≠ .other code
  decision : ∀ code, frame.decision ≠ .other code

/-- The layout of the structures: they have their sizes, and what one party writes is read
back by another one. -/
structure ReadsBack : Prop where
  headerLength : ∀ header, (config.encodeHeader header).length = headerSize
  recordLength : ∀ record, (config.encodeRecord record).length = recordSize
  frameLength : ∀ frame, (config.encodeFrame frame).length = frameSize
  header : ∀ rank, config.isPeer rank →
    config.gather.wire.header (config.encodeHeader (config.header rank)) = config.header rank
  record : ∀ rank, config.isPeer rank → ∀ record ∈ config.records rank,
    config.gather.wire.record (config.encodeRecord record) = record
  frame : ∀ frame, config.OfSession frame →
    config.gather.wire.frame (config.encodeFrame frame) = frame

end ReportConfig

inductive ReleaseResult where
  | acknowledged
  | fallback
  | invalid

/-- What `peer_begin` returns. -/
inductive PeerStatus where
  | released
  | failed
deriving DecidableEq

/-- Where a peer stands: the call in progress and what it has transferred. `waiting` is the head of
the loop of `wait_for_release`. -/
inductive PeerStage where
  | connecting
  | sendingReport (written : ℕ)
  | receivingReceipt (received : List UInt8)
  | confirmingReceipt (receipt : SocketFrame) (written : ℕ)
  | waiting
  | sendingRequest (link : ℕ) (written : ℕ)
  | receivingDecision (link : ℕ) (received : List UInt8)
  | confirmingDecision (link : ℕ) (frame : SocketFrame) (written : ℕ)
  | returned (status : PeerStatus)
deriving DecidableEq

/-- A peer. `sent` holds the bytes written to its gather connection, and `nonce` the token
of the receipt. -/
structure PeerState where
  stage : PeerStage
  sent : List UInt8
  nonce : ℕ
  acceptedDecision : FrameDecision

/-- A connection to the release port. `toRoot` are the bytes which the peer wrote. The root has
written `written` bytes of its answer `decision`. -/
structure ReleaseLink where
  rank : ℕ
  accepted : Bool
  toRoot : List UInt8
  decision : Option SocketFrame
  written : ℕ

inductive ReleaseServer where
  | polling
  | readingRequest (link : ℕ) (received : List UInt8)
  | sendingDecision (link : ℕ)
  | readingConfirm (link : ℕ) (received : List UInt8)
deriving DecidableEq

/-- Where the root stands: `gathered` after a successful gather, `prepared` after `transport_begin`,
then writing the table and the text. -/
inductive RootStage where
  | starting
  | gathering
  | gathered
  | prepared
  | csvWritten
  | textWritten
  | releasing (server : ReleaseServer)
  | finished (result : Bool)
deriving DecidableEq

/-- The state of the session. `owners` names the peer at the other end of every gather connection,
if it has not given it up. `release` is the decision of `release_peers`, and `csv` and `text` record
that the writers succeeded. -/
structure ReportSystem where
  root : RootStage
  gather : Gather
  owners : List (Option ℕ)
  csv : Bool
  text : Bool
  committed : Bool
  release : FrameDecision
  releaseTargets : ℕ → Bool
  targetCount : ℕ
  released : ℕ
  links : List ReleaseLink
  peers : ℕ → PeerState

/-- The events of the system. `advance` is the next action of the root outside of the two
loops, with its outcome. -/
inductive ReportEvent where
  | acceptGather (owner : Option ℕ)
  | gather (event : GatherEvent)
  | advance (success : Bool)
  | acceptRelease (link : ℕ)
  | rootRead (bytes : List UInt8)
  | rootWrite (count : ℕ)
  | rootFailed
  | rootStopped
  | peerConnect (rank : ℕ)
  | peerWrite (rank count : ℕ)
  | peerRead (rank : ℕ) (bytes : List UInt8)
  | peerFailed (rank : ℕ)

namespace PeerState

def start : PeerState where
  stage := .connecting
  sent := []
  nonce := 0
  acceptedDecision := .none

def enter (peer : PeerState) (stage : PeerStage) : PeerState :=
  { peer with stage := stage }

def send (peer : PeerState) (bytes : List UInt8) : PeerState :=
  { peer with sent := peer.sent ++ bytes }

end PeerState

/-- The last lines of `wait_for_release`. -/
def releaseResult : FrameDecision → ReleaseResult
  | .releaseAck => .acknowledged
  | .releaseFallback => .fallback
  | _ => .invalid

/-- The last lines of `peer_begin`. -/
def ReleaseResult.status : ReleaseResult → PeerStatus
  | .acknowledged => .released
  | .fallback => .failed
  | .invalid => .failed

/-- The peer leaves `wait_for_release`, and `peer_begin` returns. -/
def PeerState.conclude (peer : PeerState) : PeerState :=
  peer.enter (.returned (releaseResult peer.acceptedDecision).status)

namespace ReleaseLink

def fresh (rank : ℕ) : ReleaseLink where
  rank := rank
  accepted := false
  toRoot := []
  decision := none
  written := 0

def send (link : ReleaseLink) (bytes : List UInt8) : ReleaseLink :=
  { link with toRoot := link.toRoot ++ bytes }

end ReleaseLink

namespace ReportSystem

def setPeer (system : ReportSystem) (rank : ℕ) (peer : PeerState) : ReportSystem :=
  { system with peers := Function.update system.peers rank peer }

def modifyLink (system : ReportSystem) (id : ℕ) (change : ReleaseLink → ReleaseLink) :
    ReportSystem :=
  { system with links := system.links.modify id change }

def serve (system : ReportSystem) (server : ReleaseServer) : ReportSystem :=
  { system with root := .releasing server }

end ReportSystem

namespace ReportConfig

variable (config : ReportConfig)

def receiptAccepted (rank : ℕ) (receipt : SocketFrame) : Bool :=
  receipt.magic = socketMagic &&
  receipt.version = socketVersion &&
  receipt.rank = rank &&
  receipt.hookCount = (config.header rank).hookCount &&
  receipt.type = .gatherReceipt &&
  receipt.decision = .registered

/-- `peer_begin` after more bytes of the receipt arrived. -/
def receiveReceipt (rank : ℕ) (peer : PeerState) (received : List UInt8) : PeerState :=
  if received.length = frameSize then
    let receipt := config.gather.wire.frame received
    if config.receiptAccepted rank receipt then
      { peer with
        nonce := receipt.sessionToken
        stage := .confirmingReceipt { receipt with type := .gatherReceiptConfirm } 0 }
    else
      peer.enter (.returned .failed)
  else
    peer.enter (.receivingReceipt received)

/-- The request of `wait_for_release`. -/
def releaseRequest (rank : ℕ) (peer : PeerState) : SocketFrame where
  magic := socketMagic
  version := socketVersion
  rank := rank
  hookCount := (config.header rank).hookCount
  sessionToken := peer.nonce
  type := .releaseRequest
  decision := .none

def decisionAccepted (rank nonce : ℕ) (frame : SocketFrame) : Bool :=
  frame.magic = socketMagic &&
  frame.version = socketVersion &&
  frame.rank = rank &&
  frame.hookCount = (config.header rank).hookCount &&
  frame.sessionToken = nonce &&
  frame.type = .releaseDecision &&
  (frame.decision = .releaseAck || frame.decision = .releaseFallback)

/-- `wait_for_release` after more bytes of the decision. The first valid decision is kept; a
different one ends the loop. -/
def receiveDecision (rank : ℕ) (peer : PeerState) (link : ℕ) (received : List UInt8) :
    PeerState :=
  if received.length = frameSize then
    let frame := config.gather.wire.frame received
    let confirm := PeerStage.confirmingDecision link { frame with type := .releaseConfirm } 0
    if config.decisionAccepted rank peer.nonce frame then
      if peer.acceptedDecision = .none then
        { peer with acceptedDecision := frame.decision, stage := confirm }
      else if frame.decision ≠ peer.acceptedDecision then
        peer.conclude
      else
        peer.enter confirm
    else
      peer.enter .waiting
  else
    peer.enter (.receivingDecision link received)

def receiptFor (system : ReportSystem) (rank : ℕ) : List UInt8 :=
  match (system.gather.connections[system.owners.idxOf (some rank)]?).bind
      fun connection => connection.receipt.map (·, connection.receiptBytes) with
  | none => []
  | some (receipt, written) => (config.encodeFrame receipt).take written

/-- The bytes of the decision which the root wrote to a release connection. -/
def decisionFor (system : ReportSystem) (id : ℕ) : List UInt8 :=
  match (system.links[id]?).bind fun link => link.decision.map (·, link.written) with
  | none => []
  | some (decision, written) => (config.encodeFrame decision).take written

/-- The part of `bytes` that a call writes which continues after `written` and takes
`count` bytes. -/
def piece (bytes : List UInt8) (written count : ℕ) : Option (List UInt8) :=
  if 0 < count ∧ written + count ≤ bytes.length then
    some ((bytes.drop written).take count)
  else
    none

/-- A read that returned `bytes` after `received`, of what the other party wrote. -/
def reads (written received bytes : List UInt8) : Bool :=
  bytes ≠ [] && (received ++ bytes).length ≤ frameSize && (received ++ bytes).isPrefixOf written

def peerConnect (system : ReportSystem) (rank : ℕ) : Option ReportSystem :=
  let peer := system.peers rank
  match peer.stage with
  | .connecting => some (system.setPeer rank (peer.enter (.sendingReport 0)))
  | .waiting =>
    some { system.setPeer rank (peer.enter (.sendingRequest system.links.length 0)) with
      links := system.links ++ [ReleaseLink.fresh rank] }
  | _ => none

def peerWrite (system : ReportSystem) (rank count : ℕ) : Option ReportSystem :=
  let peer := system.peers rank
  match peer.stage with
  | .sendingReport written =>
    (piece (config.report rank) written count).map fun bytes =>
      system.setPeer rank ((peer.send bytes).enter
        (if written + count = (config.report rank).length then .receivingReceipt []
          else .sendingReport (written + count)))
  | .confirmingReceipt receipt written =>
    (piece (config.encodeFrame receipt) written count).map fun bytes =>
      system.setPeer rank ((peer.send bytes).enter
        (if written + count = frameSize then .waiting
          else .confirmingReceipt receipt (written + count)))
  | .sendingRequest link written =>
    (piece (config.encodeFrame (config.releaseRequest rank peer)) written count).map
      fun bytes =>
        (system.modifyLink link (·.send bytes)).setPeer rank (peer.enter
          (if written + count = frameSize then .receivingDecision link []
            else .sendingRequest link (written + count)))
  | .confirmingDecision link frame written =>
    (piece (config.encodeFrame frame) written count).map fun bytes =>
      (system.modifyLink link (·.send bytes)).setPeer rank
        (if written + count = frameSize then peer.conclude
          else peer.enter (.confirmingDecision link frame (written + count)))
  | _ => none

def peerRead (system : ReportSystem) (rank : ℕ) (bytes : List UInt8) : Option ReportSystem :=
  let peer := system.peers rank
  match peer.stage with
  | .receivingReceipt received =>
    if reads (config.receiptFor system rank) received bytes then
      some (system.setPeer rank (config.receiveReceipt rank peer (received ++ bytes)))
    else
      none
  | .receivingDecision link received =>
    if reads (config.decisionFor system link) received bytes then
      some (system.setPeer rank (config.receiveDecision rank peer link (received ++ bytes)))
    else
      none
  | _ => none

/-- The call in progress failed or timed out. Until the receipt this ends `peer_begin`. A lost
confirmation of the receipt is only logged, and a failed handshake is repeated. Without time left,
or without a connection, the loop ends. -/
def peerFailed (system : ReportSystem) (rank : ℕ) : Option ReportSystem :=
  let peer := system.peers rank
  match peer.stage with
  | .connecting | .sendingReport _ | .receivingReceipt _ =>
    some (system.setPeer rank (peer.enter (.returned .failed)))
  | .confirmingReceipt _ _ | .sendingRequest _ _ | .receivingDecision _ _
  | .confirmingDecision _ _ _ => some (system.setPeer rank (peer.enter .waiting))
  | .waiting => some (system.setPeer rank peer.conclude)
  | .returned _ => none

/-- The peers that `release_peers` waits for. -/
def targets (system : ReportSystem) : List ℕ :=
  (List.range config.gather.size).filter fun rank =>
    0 < rank && system.gather.aggregate.releaseTargets rank

def releasePeers (system : ReportSystem) (decision : FrameDecision) : ReportSystem :=
  { system with
    release := decision
    releaseTargets := system.gather.aggregate.releaseTargets
    targetCount := (config.targets system).length
    released := 0
    root := if (config.targets system).length = 0 then .finished system.committed
      else .releasing .polling }

def gatherEnded (gather : Gather) : Bool :=
  !gather.ok || gather.stopped || gather.completed == config.gather.peerCount

/-- The next action of the root. After the setup a failure leads to `release_peers` with the
fallback, in `transport_begin` or `transport_abort`. -/
def advance (system : ReportSystem) (success : Bool) : Option ReportSystem :=
  match system.root with
  | .starting => some { system with root := if success then .gathering else .finished false }
  | .gathering =>
    if config.gatherEnded system.gather then
      if config.gather.succeeded system.gather then
        some { system with root := .gathered }
      else
        some (config.releasePeers system .releaseFallback)
    else
      none
  | .gathered =>
    if success then some { system with root := .prepared }
    else some (config.releasePeers system .releaseFallback)
  | .prepared =>
    if success then some { system with root := .csvWritten, csv := true }
    else some (config.releasePeers system .releaseFallback)
  | .csvWritten =>
    if success then some { system with root := .textWritten, text := true }
    else some (config.releasePeers system .releaseFallback)
  | .textWritten => some (config.releasePeers { system with committed := true } .releaseAck)
  | .releasing _ | .finished _ => none

/-- The root accepts a gather connection of the given peer, or an abandoned one. -/
def acceptGather (system : ReportSystem) (owner : Option ℕ) : Option ReportSystem :=
  if system.root = .gathering ∧
      (∀ rank ∈ owner, config.isPeer rank ∧ owner ∉ system.owners) then
    (config.gather.step system.gather .accept).map fun gather =>
      { system with gather := gather, owners := system.owners ++ [owner] }
  else
    none

/-- The bytes of an event of the gather are bytes which the owner of the connection wrote. -/
def delivers (system : ReportSystem) : GatherEvent → Bool
  | .accept => false
  | .received id bytes =>
    match system.owners[id]?, system.gather.connections[id]? with
    | some (some rank), some connection =>
      (connection.received ++ bytes).isPrefixOf (system.peers rank).sent
    | _, _ => false
  | _ => true

def gatherEvent (system : ReportSystem) (event : GatherEvent) : Option ReportSystem :=
  if system.root = .gathering ∧ delivers system event then
    (config.gather.step system.gather event).map fun gather => { system with gather := gather }
  else
    none

/-- The check of a frame in `release_peers`. -/
def frameValid (system : ReportSystem) (type : FrameType) (decision : FrameDecision)
    (frame : SocketFrame) : Bool :=
  frame.magic = socketMagic &&
  frame.version = socketVersion &&
  frame.sessionToken = config.gather.receiptSessionToken &&
  frame.hookCount = config.gather.hookCount &&
  (frame.rank < config.gather.size && 0 < frame.rank) &&
  frame.type = type &&
  frame.decision = decision &&
  system.releaseTargets frame.rank

def acceptRelease (system : ReportSystem) (id : ℕ) : Option ReportSystem :=
  match system.root, system.links[id]? with
  | .releasing .polling, some link =>
    if !link.accepted ∧ system.released < system.targetCount then
      some ((system.modifyLink id ({ · with accepted := true })).serve (.readingRequest id []))
    else
      none
  | _, _ => none

/-- The root after more bytes of a request arrived. A valid request is answered with the
decision. -/
def receiveRequest (system : ReportSystem) (id : ℕ) (received : List UInt8) : ReportSystem :=
  if received.length = frameSize then
    let frame := config.gather.wire.frame received
    if config.frameValid system .releaseRequest .none frame then
      (system.modifyLink id fun link =>
        { link with
          decision := some { frame with type := .releaseDecision, decision := system.release }
          written := 0 }).serve (.sendingDecision id)
    else
      system.serve .polling
  else
    system.serve (.readingRequest id received)

def receiveConfirm (system : ReportSystem) (id : ℕ) (received : List UInt8) : ReportSystem :=
  if received.length = frameSize then
    let frame := config.gather.wire.frame received
    if config.frameValid system .releaseConfirm system.release frame then
      { system with
        root := .releasing .polling
        releaseTargets := Function.update system.releaseTargets frame.rank false
        released := system.released + 1 }
    else
      system.serve .polling
  else
    system.serve (.readingConfirm id received)

def rootRead (system : ReportSystem) (bytes : List UInt8) : Option ReportSystem :=
  match system.root with
  | .releasing (.readingRequest id received) =>
    (system.links[id]?).bind fun link =>
      if reads link.toRoot received bytes then
        some (config.receiveRequest system id (received ++ bytes))
      else
        none
  | .releasing (.readingConfirm id received) =>
    (system.links[id]?).bind fun link =>
      if reads (link.toRoot.drop frameSize) received bytes then
        some (config.receiveConfirm system id (received ++ bytes))
      else
        none
  | _ => none

def rootWrite (system : ReportSystem) (count : ℕ) : Option ReportSystem :=
  match system.root with
  | .releasing (.sendingDecision id) =>
    (system.links[id]?).bind fun link =>
      if 0 < count ∧ link.written + count ≤ frameSize then
        some ((system.modifyLink id ({ · with written := link.written + count })).serve
          (if link.written + count = frameSize then .readingConfirm id []
            else .sendingDecision id))
      else
        none
  | _ => none

/-- The connection in service failed or timed out; the loop goes on with the next one. -/
def rootFailed (system : ReportSystem) : Option ReportSystem :=
  match system.root with
  | .releasing .polling => none
  | .releasing _ => some (system.serve .polling)
  | _ => none

/-- The loop of `release_peers` ends: everyone is released, the time is over, or the listener
failed. -/
def rootStopped (system : ReportSystem) : Option ReportSystem :=
  match system.root with
  | .releasing .polling =>
    some { system with
      root := .finished (system.committed && system.released == system.targetCount) }
  | _ => none

def initial : ReportSystem where
  root := .starting
  gather := config.gather.initial
  owners := []
  csv := false
  text := false
  committed := false
  release := .none
  releaseTargets := fun _ => false
  targetCount := 0
  released := 0
  links := []
  peers := fun _ => .start

def ofPeer (rank : ℕ) (after : Option ReportSystem) : Option ReportSystem :=
  if config.isPeer rank then after else none

def step (system : ReportSystem) : ReportEvent → Option ReportSystem
  | .acceptGather owner => config.acceptGather system owner
  | .gather event => config.gatherEvent system event
  | .advance success => config.advance system success
  | .acceptRelease id => acceptRelease system id
  | .rootRead bytes => config.rootRead system bytes
  | .rootWrite count => rootWrite system count
  | .rootFailed => rootFailed system
  | .rootStopped => rootStopped system
  | .peerConnect rank => config.ofPeer rank (peerConnect system rank)
  | .peerWrite rank count => config.ofPeer rank (config.peerWrite system rank count)
  | .peerRead rank bytes => config.ofPeer rank (config.peerRead system rank bytes)
  | .peerFailed rank => config.ofPeer rank (peerFailed system rank)

def Reached : List ReportEvent → ReportSystem → Prop :=
  Runs (fun before event after => config.step before event = some after) config.initial

end ReportConfig

/-- `peak_general_listener_run_socket_report` has returned in the process of the rank, with the
result. -/
def ReportSystem.runSocketReport (system : ReportSystem) (rank : ℕ) : Option Bool :=
  if rank = 0 then
    match system.root with
    | .finished result => some result
    | _ => none
  else
    match (system.peers rank).stage with
    | .returned status => some (status = .released)
    | _ => none

def envValueFalsey (value : List Char) : Bool :=
  ["0", "false", "off", "no"].any fun word => value.map Char.toLower = word.toList

/-- `PEAK_OUTPUT_AGGREGATION_SOCKET_FALLBACK` is on unless it is set to a false value. -/
def socketReduceFallbackEnabled (value : Option (List Char)) : Bool :=
  !value.any envValueFalsey

/-- Where `peak_general_listener_print_with_mpi_job_policy` runs the socket report: when selected,
or after the MPI reducer failed. -/
inductive SocketCaller where
  | aggregation
  | mpiFailure

/-- What becomes of the report of a rank. -/
inductive RankOutput where
  | socket
  | rankLocal
  | dropped
deriving DecidableEq

/-- `peak_general_listener_print_with_mpi_job_policy` after the socket report has returned. -/
def SocketCaller.output (caller : SocketCaller) (fallback : Option (List Char))
    (writeSucceeded : Bool) : RankOutput :=
  if writeSucceeded then
    .socket
  else
    match caller with
    | .aggregation => if socketReduceFallbackEnabled fallback then .rankLocal else .dropped
    | .mpiFailure => .rankLocal

end Peak
