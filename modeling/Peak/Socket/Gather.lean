import Peak.Common.Runs
import Peak.Report.Record

/-!
# The gather of the socket report

The root accepts one connection from every peer, which sends a header, its records, one for each
hook, and a confirmation of the receipt that the root sends in between. A record is merged as soon
as its last byte arrives.

The events are the outcomes of the system calls of that loop. Interrupted calls and calls that would
block have no effect and are left out. The layout of the structures in memory is a parameter.
-/

namespace Peak

def socketMagic : ℕ := 0x5045414b52454431

def socketVersion : ℕ := 15

def headerSize : ℕ := 272

def recordSize : ℕ := 80

def frameSize : ℕ := 40

def payloadBufferSize : ℕ := 64 * 1024

/-- The fields of `PeakSocketReduceHeader` which the gather checks, and the answer of
`peak_report_rank_tuple_is_valid`. -/
structure SocketHeader where
  magic : ℕ
  version : ℕ
  rank : ℕ
  hookCount : ℕ
  sessionToken : ℕ
  accountingValid : ℕ
  tupleValid : Bool

inductive FrameType where
  | gatherReceipt
  | gatherReceiptConfirm
  | releaseRequest
  | releaseDecision
  | releaseConfirm
  | other (code : ℕ)
deriving DecidableEq

inductive FrameDecision where
  | none
  | registered
  | releaseAck
  | releaseFallback
  | other (code : ℕ)
deriving DecidableEq

/-- `PeakSocketReduceReleaseFrame`. -/
structure SocketFrame where
  magic : ℕ
  version : ℕ
  rank : ℕ
  hookCount : ℕ
  sessionToken : ℕ
  type : FrameType
  decision : FrameDecision
deriving DecidableEq

structure WireFormat where
  header : List UInt8 → SocketHeader
  record : List UInt8 → SocketRecord
  frame : List UInt8 → SocketFrame

/-- What the root gathers for. The rows are those of its own report. -/
structure GatherConfig where
  wire : WireFormat
  rows : List (UInt64 × HookReport)
  size : ℕ
  sessionToken : ℕ
  receiptSessionToken : ℕ
  activeLimit : ℕ

namespace GatherConfig

variable (config : GatherConfig)

def hookCount : ℕ := config.rows.length

def recordBytes : ℕ := config.hookCount * recordSize

def peerCount : ℕ := config.size - 1

def rootRecords : List SocketRecord :=
  config.rows.map fun row => SocketRecord.build row.1 row.2

end GatherConfig

inductive GatherPhase where
  | readingHeader
  | readingPayload
  | sendingReceipt
  | readingConfirm
deriving DecidableEq

/-- `PeakSocketGatherConnection`; `isOpen` stands for a valid descriptor, `received` for all bytes
read from it. -/
structure GatherConnection where
  isOpen : Bool
  phase : GatherPhase
  header : SocketHeader
  headerBytes : List UInt8
  payloadBytes : ℕ
  recordIndex : ℕ
  recordBytes : List UInt8
  receipt : Option SocketFrame
  receiptBytes : ℕ
  confirmationBytes : List UInt8
  received : List UInt8

/-- `PeakSocketGatherAggregate`. The headers absorbed so far are kept instead of the accumulators of
their fields. -/
structure GatherAggregate where
  records : List SocketRecord
  claimedRanks : ℕ → Bool
  releaseTargets : ℕ → Bool
  absorbed : List SocketHeader

namespace GatherConnection

def fresh : GatherConnection where
  isOpen := true
  phase := .readingHeader
  header := ⟨0, 0, 0, 0, 0, 0, false⟩
  headerBytes := []
  payloadBytes := 0
  recordIndex := 0
  recordBytes := []
  receipt := none
  receiptBytes := 0
  confirmationBytes := []
  received := []

def startPayload (connection : GatherConnection) : GatherConnection :=
  { connection with
    phase := .readingPayload
    payloadBytes := 0
    recordIndex := 0
    recordBytes := [] }

def copyBytes (connection : GatherConnection) (bytes : List UInt8) : GatherConnection :=
  { connection with
    recordBytes := connection.recordBytes ++ bytes
    payloadBytes := connection.payloadBytes + bytes.length }

def nextRecord (connection : GatherConnection) : GatherConnection :=
  { connection with recordIndex := connection.recordIndex + 1, recordBytes := [] }

end GatherConnection

namespace GatherAggregate

def claimRank (aggregate : GatherAggregate) (rank : ℕ) : GatherAggregate :=
  { aggregate with claimedRanks := Function.update aggregate.claimedRanks rank true }

def setRecord (aggregate : GatherAggregate) (index : ℕ) (record : SocketRecord) :
    GatherAggregate :=
  { aggregate with records := aggregate.records.set index record }

end GatherAggregate

/-- The result of a handler: its answer, and the connection and the aggregate it leaves. -/
structure GatherHandled where
  answer : Bool
  connection : GatherConnection
  aggregate : GatherAggregate

namespace GatherConfig

variable (config : GatherConfig)

def receiptFor (header : SocketHeader) : SocketFrame where
  magic := socketMagic
  version := socketVersion
  rank := header.rank
  hookCount := header.hookCount
  sessionToken := config.receiptSessionToken
  type := .gatherReceipt
  decision := .registered

def prepareReceipt (connection : GatherConnection) (aggregate : GatherAggregate) :
    GatherHandled :=
  if connection.recordIndex ≠ config.hookCount ∨ connection.recordBytes ≠ [] then
    ⟨false, connection, aggregate⟩
  else
    ⟨true,
      { connection with
        receipt := some (config.receiptFor connection.header)
        receiptBytes := 0
        phase := .sendingReceipt },
      { aggregate with absorbed := aggregate.absorbed ++ [connection.header] }⟩

/-- The checks of `validate_header` which do not depend on the other connections. -/
def headerAccepted (header : SocketHeader) : Bool :=
  !(header.magic ≠ socketMagic ||
    header.version ≠ socketVersion ||
    header.sessionToken ≠ config.sessionToken ||
    header.hookCount ≠ config.hookCount ||
    header.rank = 0 || header.rank ≥ config.size ||
    header.accountingValid > 1) &&
  header.tupleValid

def validateHeader (connection : GatherConnection) (aggregate : GatherAggregate) :
    GatherHandled :=
  let header := config.wire.header connection.headerBytes
  let connection := { connection with header := header }
  if !config.headerAccepted header || aggregate.claimedRanks header.rank then
    ⟨false, connection, aggregate⟩
  else
    if config.recordBytes = 0 then
      config.prepareReceipt connection.startPayload (aggregate.claimRank header.rank)
    else
      ⟨true, connection.startPayload, aggregate.claimRank header.rank⟩

/-- The loop of `consume_payload`. Every round copies at least one byte. -/
def consumeRecords (connection : GatherConnection) (aggregate : GatherAggregate) :
    ℕ → List UInt8 → GatherHandled
  | _, [] => ⟨true, connection, aggregate⟩
  | 0, _ :: _ => ⟨false, connection, aggregate⟩
  | rounds + 1, byte :: bytes =>
    let data := byte :: bytes
    if config.hookCount ≤ connection.recordIndex then
      ⟨false, connection, aggregate⟩
    else
      let needed := recordSize - connection.recordBytes.length
      let copySize := min needed data.length
      let connection := connection.copyBytes (data.take copySize)
      if connection.recordBytes.length = recordSize then
        match (aggregate.records[connection.recordIndex]?).bind
            (·.merge (config.wire.record connection.recordBytes)) with
        | none => ⟨false, connection, aggregate⟩
        | some merged =>
          consumeRecords connection.nextRecord
            (aggregate.setRecord connection.recordIndex merged) rounds (data.drop copySize)
      else
        consumeRecords connection aggregate rounds (data.drop copySize)

def consumePayload (connection : GatherConnection) (aggregate : GatherAggregate)
    (data : List UInt8) : GatherHandled :=
  let consumed := config.consumeRecords connection aggregate data.length data
  if !consumed.answer then
    consumed
  else if consumed.connection.payloadBytes = config.recordBytes then
    config.prepareReceipt consumed.connection consumed.aggregate
  else
    { consumed with answer := consumed.connection.payloadBytes < config.recordBytes }

/-- The number of bytes that `read_ready` asks for. -/
def request (connection : GatherConnection) : ℕ :=
  match connection.phase with
  | .readingHeader => headerSize - connection.headerBytes.length
  | .readingPayload => min (config.recordBytes - connection.payloadBytes) payloadBufferSize
  | .sendingReceipt => 0
  | .readingConfirm => frameSize - connection.confirmationBytes.length

def confirmationAccepted (connection : GatherConnection) (confirmation : SocketFrame) : Bool :=
  confirmation.magic = socketMagic &&
  confirmation.version = socketVersion &&
  confirmation.rank = connection.header.rank &&
  confirmation.hookCount = connection.header.hookCount &&
  (connection.receipt.map (·.sessionToken)) = some confirmation.sessionToken &&
  confirmation.type = .gatherReceiptConfirm &&
  confirmation.decision = .registered

/-- One round of `read_ready` for the bytes that `recv` returned. -/
def receive (connection : GatherConnection) (aggregate : GatherAggregate)
    (bytes : List UInt8) : GatherHandled :=
  let connection := { connection with received := connection.received ++ bytes }
  match connection.phase with
  | .readingHeader =>
    let connection := { connection with headerBytes := connection.headerBytes ++ bytes }
    if connection.headerBytes.length = headerSize then
      config.validateHeader connection aggregate
    else
      ⟨true, connection, aggregate⟩
  | .readingPayload => config.consumePayload connection aggregate bytes
  | .sendingReceipt => ⟨false, connection, aggregate⟩
  | .readingConfirm =>
    let connection := { connection with
      confirmationBytes := connection.confirmationBytes ++ bytes }
    if connection.confirmationBytes.length = frameSize then
      ⟨confirmationAccepted connection (config.wire.frame connection.confirmationBytes),
        connection, aggregate⟩
    else
      ⟨true, connection, aggregate⟩

/-- One round of `write_ready` for the bytes that `send` took. A complete receipt registers the
release target. -/
def send (connection : GatherConnection) (aggregate : GatherAggregate) (written : ℕ) :
    GatherHandled :=
  let connection := { connection with receiptBytes := connection.receiptBytes + written }
  if connection.receiptBytes = frameSize then
    let rank := connection.header.rank
    if rank = 0 || rank ≥ config.size || aggregate.releaseTargets rank then
      ⟨false, connection, aggregate⟩
    else
      ⟨true,
        { connection with phase := .readingConfirm, confirmationBytes := [] },
        { aggregate with releaseTargets := Function.update aggregate.releaseTargets rank true }⟩
  else
    ⟨true, connection, aggregate⟩

end GatherConfig

/-- The state of the loop of `root_gather`. The connections are in the order of their acceptance,
with the closed ones. `stopped` records a timeout. -/
structure Gather where
  aggregate : GatherAggregate
  connections : List GatherConnection
  accepted : ℕ
  active : ℕ
  completed : ℕ
  ok : Bool
  stopped : Bool

/-- The outcomes of the system calls. A connection is named by its place in the order of
acceptance. -/
inductive GatherEvent where
  | accept
  | acceptFailed
  | pollFailed
  | timeout
  | received (id : ℕ) (bytes : List UInt8)
  | sent (id : ℕ) (written : ℕ)
  | connectionFailed (id : ℕ)

namespace GatherConfig

variable (config : GatherConfig)

/-- The state in which the loop starts: the aggregate holds the records of the root. -/
def initial : Gather where
  aggregate :=
    { records := config.rootRecords
      claimedRanks := fun rank => rank = 0
      releaseTargets := fun _ => false
      absorbed := [] }
  connections := []
  accepted := 0
  active := 0
  completed := 0
  ok := true
  stopped := false

def served (gather : Gather) (id : ℕ) (handled : GatherHandled) : Gather :=
  { gather with
    connections := gather.connections.set id handled.connection
    aggregate := handled.aggregate
    ok := handled.answer }

def confirmed (connection : GatherConnection) : Bool :=
  connection.phase = .readingConfirm && connection.confirmationBytes.length = frameSize

/-- One event, which is only possible while the loop runs; `none` if it is impossible. -/
def step (gather : Gather) (event : GatherEvent) : Option Gather :=
  if !gather.ok || gather.stopped then
    none
  else
    match event with
    | .accept =>
      if gather.accepted < config.peerCount ∧ gather.active < config.activeLimit then
        some { gather with
          connections := gather.connections ++ [GatherConnection.fresh]
          accepted := gather.accepted + 1
          active := gather.active + 1 }
      else
        none
    | .acceptFailed | .pollFailed => some { gather with ok := false }
    | .timeout => some { gather with stopped := true }
    | .received id bytes =>
      match gather.connections[id]? with
      | none => none
      | some connection =>
        if connection.isOpen ∧ bytes ≠ [] ∧ bytes.length ≤ config.request connection then
          let handled := config.receive connection gather.aggregate bytes
          if handled.answer && confirmed handled.connection then
            some
              { served gather id
                  { handled with connection := { handled.connection with isOpen := false } } with
                completed := gather.completed + 1
                active := gather.active - 1 }
          else
            some (served gather id handled)
        else
          none
    | .sent id written =>
      match gather.connections[id]? with
      | none => none
      | some connection =>
        if connection.isOpen ∧ connection.phase = .sendingReceipt ∧ 0 < written ∧
            written ≤ frameSize - connection.receiptBytes then
          some (served gather id (config.send connection gather.aggregate written))
        else
          none
    | .connectionFailed id =>
      match gather.connections[id]? with
      | none => none
      | some connection =>
        if connection.isOpen then some { gather with ok := false } else none

def Reached : List GatherEvent → Gather → Prop :=
  Runs (fun before event after => config.step before event = some after) config.initial

def succeeded (gather : Gather) : Bool :=
  gather.ok && gather.completed == config.peerCount

end GatherConfig

end Peak
