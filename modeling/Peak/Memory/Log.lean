import Peak.Common.BlockReservation

/-!
# The memory event log

Allocation events are stored in a mapping of fixed size, see `src/malloc_interceptor.c`. A large log
has more places than events are exported, since every thread reserves places in blocks. As in the
production build, a thread that writes an event is not interrupted by the one which finalizes the
log.
-/

namespace Peak.Memory

open BlockReservation

def reservationBlock : ℕ := 64

def blockThreshold : ℕ := 65536

def maxTrackedThreads : ℕ := 4096

def sizeMax : ℕ := 2 ^ 64 - 1

def memHeaderSize : ℕ := 40

def memEventSize : ℕ := 39

/-- What an event reports, `1` or `2` in the mapping. A place with `0` is unused. -/
inductive MemOp where
  | add
  | remove

structure MemEvent where
  timestamp : ℕ
  delta : ℤ
  current : ℕ
  sequence : ℕ
  tid : ℕ
  shard : ℕ
  op : MemOp

inductive MemLogState where
  | uninitialized
  | active
  | disabled
  | finalized
deriving DecidableEq

/-- `PeakMemLog`, `peak_memlog_full` and the thread-local reservations. Fewer than `2 ^ 64` places
are reserved and events dropped. -/
structure MemLog where
  state : MemLogState
  mapped : Bool
  capacity : ℕ
  storage : ℕ
  reserved : ℕ
  dropped : ℕ
  full : Bool
  reservations : ℕ → Span
  events : ℕ → Option MemEvent

inductive WriteResult where
  | inactive
  | dropped
  | stored (index : ℕ)
deriving DecidableEq

/-- An event and the thread that writes it. A thread that has exited writes no more. -/
structure Write where
  thread : ℕ
  event : MemEvent

def checkedAddSize (a b : ℕ) : Option ℕ :=
  if sizeMax - b < a then none else some (a + b)

def checkedMulSize (a b : ℕ) : Option ℕ :=
  if a ≠ 0 ∧ sizeMax / a < b then none else some (a * b)

def pageAlignUp (pageSize size : ℕ) : Option ℕ :=
  if pageSize = 0 then none
  else if size % pageSize = 0 then some size
  else checkedAddSize size (pageSize - size % pageSize)

def sizeFitsOffset (size : ℕ) : Bool :=
  size ≤ 2 ^ 63 - 1

namespace MemLog

variable (log : MemLog)

def storageCapacity (capacity : ℕ) : Option ℕ :=
  if blockThreshold ≤ capacity then
    checkedAddSize capacity (maxTrackedThreads * (reservationBlock - 1))
  else
    some capacity

def mapBytes (pageSize storage : ℕ) : Option ℕ := do
  let headerBytes ← pageAlignUp pageSize memHeaderSize
  guard (headerBytes ≤ 2 ^ 32 - 1)
  let eventBytes ← checkedMulSize storage memEventSize
  let readyOffset ← checkedAddSize headerBytes eventBytes
  let readyBytes ← checkedMulSize storage 1
  let mapBytes ← checkedAddSize readyOffset readyBytes
  guard (sizeFitsOffset mapBytes)
  return mapBytes

def initial : MemLog :=
  { state := .uninitialized
    mapped := false
    capacity := 0
    storage := 0
    reserved := 0
    dropped := 0
    full := false
    reservations := fun _ => ⟨0, 0⟩
    events := fun _ => none }

def unavailable : MemLog :=
  { initial with state := .disabled }

/-- `peak_memlog_open` up to the first event. `prepared` says whether the paths, the file and the
mapping are. -/
def start (pageSize capacity : ℕ) (prepared : Bool) : MemLog :=
  match storageCapacity capacity with
  | none => unavailable
  | some storage =>
    if (mapBytes pageSize storage).isNone || !prepared then
      unavailable
    else
      { initial with
        state := .active
        mapped := true
        capacity := capacity
        storage := storage }

def reserveSlot (thread : ℕ) : MemLog × Option ℕ :=
  if log.full then
    ({ log with dropped := log.dropped + 1 }, none)
  else if log.storage ≠ log.capacity ∧
      (log.reservations thread).next ≠ (log.reservations thread).stop then
    let span := log.reservations thread
    ({ log with
        reservations := Function.update log.reservations thread ⟨span.next + 1, span.stop⟩ },
      some span.next)
  else
    let reservationCount := if log.storage ≠ log.capacity then reservationBlock else 1
    let reserved := log.reserved
    let log := { log with reserved := reserved + reservationCount }
    if log.storage ≤ reserved then
      ({ log with
          full := true
          dropped := log.dropped + 1 }, none)
    else
      ({ log with
          reservations := Function.update log.reservations thread
            ⟨reserved + 1, min (reserved + reservationCount) log.storage⟩ },
        some reserved)

/-- `peak_log_event` and `peak_log_event_write`. -/
def logEvent (thread : ℕ) (event : MemEvent) : MemLog × WriteResult :=
  if log.state ≠ .active then
    (log, .inactive)
  else
    match log.reserveSlot thread with
    | (log, none) => (log, .dropped)
    | (log, some index) =>
      ({ log with events := Function.update log.events index (some event) }, .stored index)

def openingEvent (timestamp tid : ℕ) : MemEvent :=
  ⟨timestamp, 0, 0, 0, tid, 2 ^ 16 - 1, .add⟩

/-- `peak_memlog_open`. -/
def openLog (pageSize capacity : ℕ) (prepared : Bool) (thread timestamp tid : ℕ) : MemLog :=
  ((start pageSize capacity prepared).logEvent thread (openingEvent timestamp tid)).1

def compactCommitted : List MemEvent :=
  (List.range (min log.reserved log.storage)).filterMap log.events

/-- `peak_memlog_finalize` up to the replay, with the events that are exported. -/
def finalize : MemLog × List MemEvent :=
  match log.state with
  | .finalized => (log, [])
  | .uninitialized => ({ log with state := .finalized }, [])
  | .active | .disabled =>
    if !log.mapped then
      ({ log with state := .finalized }, [])
    else
      let events := log.compactCommitted
      ({ log with
          state := .finalized
          mapped := false
          capacity := 0
          storage := 0
          dropped := log.dropped + (events.length - log.capacity) },
        events.take log.capacity)

def record (log : MemLog) : List Write → MemLog × List WriteResult
  | [] => (log, [])
  | write :: writes =>
    let first := log.logEvent write.thread write.event
    let rest := record first.1 writes
    (rest.1, first.2 :: rest.2)

def indexes (results : List WriteResult) : List ℕ :=
  results.filterMap fun result =>
    match result with
    | .stored index => some index
    | _ => none

def attempts (results : List WriteResult) : ℕ :=
  results.countP fun result => result ≠ .inactive

end MemLog

end Peak.Memory
