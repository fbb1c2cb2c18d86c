import Peak.Common.RadixMap
import Peak.Memory.Log

/-!
# Tracked allocations

The sizes of tracked allocations are kept in a radix map of seven levels under their addresses, see
`src/malloc_interceptor.c`. Every change is an event while the memory log is active. Otherwise it
changes the byte counts of its shard and of all shards. The functions are executed one after the
other.
-/

namespace Peak.Memory

open RadixMap

def wordValues : ℕ := 2 ^ 64

def int64Max : ℕ := 2 ^ 63 - 1

def radixIndex (level pointer : ℕ) : ℕ :=
  (pointer >>> (level * 10)) &&& 1023

/-- The level of `tracking_root`. The last one is level zero. -/
def rootLevel : ℕ := 6

structure AccountingShard where
  currentBytes : ℕ
  nextSequence : ℕ

structure Transition where
  timestamp : ℕ
  sequence : ℕ
  shard : ℕ

structure Tracking where
  tablesActive : Bool
  cleanup : Bool
  root : Node rootLevel
  shards : ℕ → AccountingShard
  fallback : ℕ
  maximum : ℕ
  log : MemLog

/-- The thread of a call, and what it obtains from its surroundings, with the levels where a node
could be allocated. -/
structure HookEnv where
  thread : ℕ
  tid : ℕ
  inHook : Bool
  selected : Bool
  removeTime : ℕ
  addTime : ℕ
  available : ℕ → Bool

def trackingRadixInsert (available : ℕ → Bool) (root : Node rootLevel) (pointer size : ℕ) :
    Node rootLevel × Bool :=
  if size = sizeMax then
    (root, false)
  else
    match reach radixIndex available pointer rootLevel root with
    | (root, false) => (root, false)
    | (root, true) =>
      if slot radixIndex pointer rootLevel root = some 0 then
        (store radixIndex (size + 1) pointer rootLevel root, true)
      else
        (root, false)

def trackingRadixRemove (root : Node rootLevel) (pointer : ℕ) : Node rootLevel × Option ℕ :=
  match slot radixIndex pointer rootLevel root with
  | none => (root, none)
  | some encoded =>
    (store radixIndex 0 pointer rootLevel root, if encoded = 0 then none else some (encoded - 1))

def accountingShardFor (pointer : ℕ) : ℕ :=
  let value := pointer >>> 4
  let value := value ^^^ (value >>> 17)
  let value := value ^^^ (value >>> 9)
  value &&& 4095

def sizeToEventDelta (size : ℕ) : Option ℤ :=
  if int64Max < size then none else some size

namespace Tracking

variable (tracking : Tracking)

def setBytes (shard bytes : ℕ) : Tracking :=
  { tracking with
    shards := Function.update tracking.shards shard
      { tracking.shards shard with currentBytes := bytes } }

def trackingFallbackAccountAdd (size : ℕ) : Tracking × Bool :=
  if sizeMax - tracking.fallback < size then
    (tracking, false)
  else
    let updated := tracking.fallback + size
    ({ tracking with
        fallback := updated
        maximum := max tracking.maximum updated }, true)

/-- The transition which `tracking_account_add` and `tracking_account_remove` put out. -/
def transition (shard timestamp : ℕ) : Tracking × Transition :=
  let sequence := (tracking.shards shard).nextSequence
  ({ tracking with
      shards := Function.update tracking.shards shard
        { tracking.shards shard with nextSequence := (sequence + 1) % wordValues } },
    ⟨timestamp, sequence, shard⟩)

/-- `tracking_account_restore`, which is `tracking_account_add` without a transition. -/
def trackingAccountRestore (shard size : ℕ) : Tracking × Bool :=
  if tracking.log.state = .active then
    (tracking, true)
  else
    let observed := (tracking.shards shard).currentBytes
    if sizeMax - observed < size then
      (tracking, false)
    else
      match (tracking.setBytes shard (observed + size)).trackingFallbackAccountAdd size with
      | (tracking, true) => (tracking, true)
      | (tracking, false) =>
        (tracking.setBytes shard
          (((tracking.shards shard).currentBytes + wordValues - size) % wordValues), false)

def trackingAccountAdd (shard size timestamp : ℕ) : Tracking × Bool × Transition :=
  let stamped := tracking.transition shard timestamp
  let added := stamped.1.trackingAccountRestore shard size
  (added.1, added.2, stamped.2)

def trackingAccountRemove (shard size timestamp : ℕ) : Tracking × Transition :=
  let stamped := tracking.transition shard timestamp
  let tracking := stamped.1
  if tracking.log.state = .active then
    stamped
  else
    let bytes := (tracking.shards shard).currentBytes
    let tracking := tracking.setBytes shard ((bytes + wordValues - size) % wordValues)
    ({ tracking with fallback := (tracking.fallback + wordValues - size) % wordValues }, stamped.2)

def publish (env : HookEnv) (op : MemOp) (delta : Option ℤ) (transition : Transition) : Tracking :=
  match delta with
  | none => tracking
  | some delta =>
    { tracking with
      log := (tracking.log.logEvent env.thread ⟨transition.timestamp, delta, 0,
        transition.sequence, env.tid, transition.shard, op⟩).1 }

def addTrackingEntry (env : HookEnv) (pointer size : ℕ) : Tracking :=
  if !tracking.tablesActive || tracking.cleanup then
    tracking
  else if !env.selected then
    tracking
  else
    match trackingRadixInsert env.available tracking.root pointer size with
    | (root, false) => { tracking with root := root }
    | (root, true) =>
      let tracking := { tracking with root := root }
      match tracking.trackingAccountAdd (accountingShardFor pointer) size env.addTime with
      | (tracking, false, _) =>
        { tracking with root := (trackingRadixRemove tracking.root pointer).1 }
      | (tracking, true, transition) =>
        tracking.publish env .add (sizeToEventDelta size) transition

def detachTrackingEntry (env : HookEnv) (pointer : ℕ) : Tracking × Option (ℕ × Transition) :=
  if !tracking.tablesActive || tracking.cleanup then
    (tracking, none)
  else
    match trackingRadixRemove tracking.root pointer with
    | (root, none) => ({ tracking with root := root }, none)
    | (root, some size) =>
      let removed := { tracking with root := root }.trackingAccountRemove
        (accountingShardFor pointer) size env.removeTime
      (removed.1, some (size, removed.2))

def restoreTrackingEntry (env : HookEnv) (pointer size : ℕ) : Tracking :=
  match trackingRadixInsert env.available tracking.root pointer size with
  | (root, false) => { tracking with root := root }
  | (root, true) =>
    let shard := accountingShardFor pointer
    match { tracking with root := root }.trackingAccountRestore shard size with
    | (tracking, true) => tracking
    | (tracking, false) => tracking.setBytes shard sizeMax

def commitReallocatedEntry (env : HookEnv) (pointer size : ℕ) : Tracking × Option Transition :=
  match trackingRadixInsert env.available tracking.root pointer size with
  | (root, false) => ({ tracking with root := root }, none)
  | (root, true) =>
    let tracking := { tracking with root := root }
    match tracking.trackingAccountAdd (accountingShardFor pointer) size env.addTime with
    | (tracking, false, _) =>
      ({ tracking with root := (trackingRadixRemove tracking.root pointer).1 }, none)
    | (tracking, true, transition) => (tracking, some transition)

def publishRemovedEntry (env : HookEnv) (size : ℕ) (transition : Transition) : Tracking :=
  tracking.publish env .remove ((sizeToEventDelta size).map fun delta => -delta) transition

end Tracking

end Peak.Memory
