import Peak.Jit.PerfMap

/-!
# Draining a perf map

`peak_jit_provider_drain_perfmap` of `src/jit_provider.c` goes on at the offset it has committed,
and reads lines until the file, which may grow meanwhile, or the budget ends. The queue of pending
records and the attaching of symbols are behind a small interface.
-/

namespace Peak.Jit

inductive AttachResult where
  | attached
  | noMatch
  | retry
  | failed
  | generationRefreshed
deriving DecidableEq

inductive PendingKind where
  | notExecutable
  | attachRetry

inductive AddResult where
  | ok
  | duplicate
  | queueFull
  | allocationFailed
deriving DecidableEq

/-- What a drain calls, over the state of the process beside the reader. -/
structure Services (World : Type) where
  rangeIsExecutable : World → PerfMapRecord → World × Bool
  matchesAnyTarget : World → List UInt8 → World × Bool
  attachSymbol : World → PerfMapRecord → World × AttachResult
  addPending : World → PendingKind → PerfMapRecord → World × AddResult
  countTimeout : World → PendingKind → World
  /-- `peak_jit_provider_retry_pending_records`: the result and the budget left. -/
  retryPending : World → Bool → ℕ → World × Bool × ℕ
  pendingCount : World → ℕ
  /-- `peak_jit_provider_advance_generation`. -/
  advanceGeneration : World → World
  /-- `peak_jit_pending_records_expire`. -/
  expirePending : World → World

/-- `st_dev`, `st_ino` and `st_size`. -/
structure FileStat where
  identity : ℕ × ℕ
  size : ℕ

structure Reader (World : Type) where
  /-- `peak_jit_perfmap_offset`. -/
  offset : ℕ
  /-- `peak_jit_perfmap_dev` and `peak_jit_perfmap_ino`, once they are known. -/
  identity : Option (ℕ × ℕ)
  /-- `peak_jit_perfmap_last_size`. -/
  lastSize : ℕ
  /-- `peak_jit_single_budget_retry_turn`. -/
  retryTurn : Bool
  world : World

/-- The file as one drain finds it. The read number `i` is made when the file has the size
`sizes i`. -/
structure Source where
  opening : Option FileStat
  /-- The size at `fseeko(fp, 0, SEEK_END)`, if it succeeds. -/
  seekEnd : Option ℕ
  /-- The seek to the offset succeeds. -/
  seekSet : Bool
  sizes : ℕ → ℕ
  closing : Option FileStat

inductive Consumed where
  | record (line : List UInt8)
  | overlong
deriving DecidableEq

variable {World : Type} (services : Services World)

namespace Reader

def reset (reader : Reader World) : Reader World :=
  { reader with
    offset := 0, retryTurn := false, world := services.advanceGeneration reader.world }

/-- Whatever is pending at the end is given up before the last drain. -/
def expire (reader : Reader World) (force : Bool) : Reader World :=
  if force then
    { reader with retryTurn := false, world := services.expirePending reader.world }
  else
    reader

/-- The tests on `fstat` and `stat`: a replaced or truncated file is read from its start. The flag
says that it was. -/
def observe (reader : Reader World) (stat : FileStat) : Reader World × Bool :=
  let replaced := reader.identity.any (· ≠ stat.identity)
  let truncated := reader.identity.isSome && !replaced &&
    (stat.size < reader.offset || stat.size < reader.lastSize)
  let checked := if replaced || truncated then reader.reset services else reader
  ({ checked with identity := some stat.identity, lastSize := stat.size }, replaced || truncated)

def observeStat (reader : Reader World) (stat : Option FileStat) : Reader World × Bool :=
  match stat with
  | none => (reader, false)
  | some stat => reader.observe services stat

/-- The retries in front of the reading, with half of the budget, or a budget of one on their turn.
The result is the budget left. -/
def retryFirst (reader : Reader World) (force : Bool) (budget : ℕ) : Reader World × Bool × ℕ :=
  if 1 < budget then
    let (world, pending, left) := services.retryPending reader.world force (budget / 2)
    ({ reader with world }, pending, budget - (budget / 2 - left))
  else if budget = 1 ∧ reader.retryTurn ∧ services.pendingCount reader.world ≠ 0 then
    let (world, pending, left) := services.retryPending reader.world force budget
    ({ reader with world, retryTurn := reader.retryTurn && left = budget }, pending, left)
  else (reader, false, budget)

def seek (reader : Reader World) (source : Source) : Reader World :=
  let checked :=
    if source.seekEnd.any (· < reader.offset) then reader.reset services else reader
  if source.seekSet then checked else checked.reset services

def retryLast (reader : Reader World) (force single consumed : Bool) (budget : ℕ) :
    Reader World × Bool :=
  let turned := { reader with
    retryTurn := reader.retryTurn || single && consumed && services.pendingCount reader.world ≠ 0 }
  if 0 < budget then
    let (world, pending, left) := services.retryPending turned.world force budget
    ({ turned with world, retryTurn := turned.retryTurn && !(single && left ≠ budget) }, pending)
  else (turned, false)

end Reader

/-- A record that cannot be attached now is queued, or given up at the end. The flag says that
something is pending. -/
def postpone (world : World) (force : Bool) (kind : PendingKind) (record : PerfMapRecord) :
    World × Bool :=
  if force then (services.countTimeout world kind, false)
  else
    let (world, result) := services.addPending world kind record
    (world, result = .ok || result = .duplicate)

def handleRecord (world : World) (force : Bool) (record : PerfMapRecord) : World × Bool :=
  let (world, executable) := services.rangeIsExecutable world record
  if executable then
    let (world, result) := services.attachSymbol world record
    if result = .retry then postpone services world force .attachRetry record else (world, false)
  else
    let (world, matching) := services.matchesAnyTarget world record.name
    if matching then postpone services world force .notExecutable record else (world, false)

def handleLine (world : World) (force : Bool) (line : List UInt8) : World × Bool :=
  match parsePerfMapLine line with
  | none => (world, false)
  | some record => handleRecord services world force record

/-- The state of the reading loop. The position in the file is the committed offset at the
start of each round. -/
structure Pass (World : Type) where
  committed : ℕ
  world : World
  pending : Bool
  metadataConsumed : Bool
  consumed : List Consumed

namespace Pass

variable (text : List UInt8)

def stream (size position : ℕ) : List UInt8 :=
  (text.take size).drop position

/-- The loop over the lines, with the number of reads that were made before. -/
def readLines (force : Bool) (sizes : ℕ → ℕ) : ℕ → ℕ → Pass World → Pass World × ℕ
  | 0, read, pass =>
    match fgets (stream text (sizes read) pass.committed) with
    | none => (pass, 0)
    | some _ => ({ pass with pending := true }, 0)
  | budget + 1, read, pass =>
    match fgets (stream text (sizes read) pass.committed) with
    | none => (pass, budget + 1)
    | some line =>
      let next := pass.committed + line.length
      if lineIsComplete line then
        let (world, pending) := handleLine services pass.world force line
        readLines force sizes budget (read + 1)
          { pass with
            committed := next
            world
            pending := pass.pending || pending
            metadataConsumed := true
            consumed := pass.consumed ++ [.record line] }
      else if strlen line = lineCapacity then
        match consumeOverlongLine (stream text (sizes (read + 1)) next) with
        | some skipped =>
          readLines force sizes budget (read + 2)
            { pass with
              committed := next + skipped
              metadataConsumed := true
              consumed := pass.consumed ++ [.overlong] }
        | none => ({ pass with pending := true, metadataConsumed := true }, budget)
      else ({ pass with pending := true, metadataConsumed := true }, budget)

end Pass

structure Drained (World : Type) where
  reader : Reader World
  pending : Bool
  consumed : List Consumed

def drainWithoutSource (reader : Reader World) (force : Bool) (budget : ℕ) : Drained World :=
  let (world, pending, _) := services.retryPending reader.world force budget
  ⟨{ reader with world }, pending || services.pendingCount world ≠ 0, []⟩

namespace Reader

def firstPass (reader : Reader World) (pending : Bool) : Pass World where
  committed := reader.offset
  world := reader.world
  pending := pending
  metadataConsumed := false
  consumed := []

/-- What a drain does before it reads, with the budget for the reading. -/
def startDrain (reader : Reader World) (force : Bool) (budget : ℕ) (source : Source) :
    Reader World × Bool × ℕ :=
  let opened := (reader.observeStat services source.opening).1
  let (retried, pending, left) := opened.retryFirst services force budget
  (retried.seek services source, pending, left)

/-- What a drain does after it has read. -/
def finishDrain (reader : Reader World) (force single : Bool) (source : Source)
    (pass : Pass World) (left : ℕ) : Reader World × Bool :=
  let committed := { reader with offset := pass.committed, world := pass.world }
  let (closed, resetPending) := committed.observeStat services source.closing
  let (final, pending) := closed.retryLast services force single pass.metadataConsumed left
  (final, resetPending || pending)

end Reader

/-- `peak_jit_provider_drain_perfmap` for a file that was opened. -/
def drainSource (text : List UInt8) (reader : Reader World) (force : Bool) (budget : ℕ)
    (source : Source) : Drained World :=
  let (reader, pending, left) := reader.startDrain services force budget source
  let (pass, left) := Pass.readLines services text force source.sizes left 0
    (reader.firstPass pending)
  let (final, pending) :=
    reader.finishDrain services force (budget = 1) source pass left
  ⟨final, pass.pending || pending || services.pendingCount final.world ≠ 0, pass.consumed⟩

def drainPerfmap (text : List UInt8) (reader : Reader World) (force : Bool) (budget : ℕ)
    (source : Option Source) : Drained World :=
  match source with
  | none => drainWithoutSource services reader force budget
  | some source => drainSource services text reader force budget source

/-- `peak_jit_provider_drain_pending`, or `peak_jit_provider_drain_pending_force_not_exec_timeout`
if it is forced. -/
def drain (text : List UInt8) (reader : Reader World) (force : Bool) (budget : ℕ)
    (source : Option Source) : Drained World :=
  drainPerfmap services text (reader.expire services force) force budget source

end Peak.Jit
