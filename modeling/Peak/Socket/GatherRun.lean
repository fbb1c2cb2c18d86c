import Peak.Report.Aggregate
import Peak.Socket.GatherSound

/-!
# Every peer is gathered exactly once

As long as the gather goes well every connection has the bytes that its phase stands for. A run that
succeeds has closed as many connections as there are peers, so that their ranks are all ranks but
the root's.
-/

namespace Peak

open GatherConnection List

namespace GatherConfig

variable (config : GatherConfig) {connection : GatherConnection}

inductive Tidy : GatherConnection → Prop
  | readingHeader {connection : GatherConnection} (phase : connection.phase = .readingHeader)
      (isOpen : connection.isOpen)
      (headerBytes : connection.headerBytes = connection.received) : Tidy connection
  | readingPayload {connection : GatherConnection} (phase : connection.phase = .readingPayload)
      (isOpen : connection.isOpen) (front : List UInt8)
      (received : connection.received = front ++ connection.recordBytes)
      (frontLength : front.length = headerSize + connection.recordIndex * recordSize)
      (partialRecord : connection.recordBytes.length < recordSize) : Tidy connection
  | sendingReceipt {connection : GatherConnection} (phase : connection.phase = .sendingReceipt)
      (isOpen : connection.isOpen)
      (complete : connection.recordIndex = config.hookCount) : Tidy connection
  | readingConfirm {connection : GatherConnection} (phase : connection.phase = .readingConfirm)
      (complete : connection.recordIndex = config.hookCount) : Tidy connection

structure Handles (left right : List GatherConnection) (before : GatherConnection)
    (bytes : List UInt8) (handled : GatherHandled) : Prop where
  sound : config.AggregateSound (left ++ handled.connection :: right) handled.aggregate
  isOpen : handled.connection.isOpen = before.isOpen
  received : handled.connection.received = before.received ++ bytes
  tidy : handled.answer → config.Tidy handled.connection

variable {config} {left right : List GatherConnection} {connection : GatherConnection}
  {aggregate : GatherAggregate}

theorem Tidy.complete (tidy : config.Tidy connection)
    (phase : connection.phase = .readingConfirm) : connection.recordIndex = config.hookCount := by
  cases tidy with
  | readingConfirm _ complete => exact complete
  | readingHeader other | readingPayload other | sendingReceipt other =>
    rw [phase] at other
    cases other

section

variable (sound : config.AggregateSound (left ++ connection :: right) aggregate)

include sound

theorem prepareReceipt_handles
    (phase : connection.phase = .readingPayload) (isOpen : connection.isOpen) :
    config.Handles left right connection [] (config.prepareReceipt connection aggregate) := by
  simp only [prepareReceipt]
  split
  · exact ⟨sound, rfl, (append_nil _).symm, nofun⟩
  next complete =>
    push Not at complete
    refine ⟨?_, rfl, (append_nil _).symm, fun _ => .sendingReceipt rfl isOpen complete.1⟩
    apply sound.deliver
    · refine ⟨?_, fun _ => rfl, rfl, [], (append_nil _).symm⟩
      simp [claims, phase]
    · simp [delivered, phase]
    · simp [delivered]
    · rfl

theorem validateHeader_handles
    (phase : connection.phase = .readingHeader) (isOpen : connection.isOpen)
    (headerBytes : connection.headerBytes = connection.received)
    (complete : connection.headerBytes.length = headerSize) :
    config.Handles left right connection [] (config.validateHeader connection aggregate) := by
  have unclaimed : connection.claims = false := by simp [claims, phase]
  simp only [validateHeader]
  split
  · refine ⟨?_, rfl, (append_nil _).symm, fun isOpen => by cases isOpen⟩
    apply sound.keep
    · refine ⟨rfl, ?_, rfl, [], (append_nil _).symm⟩
      intro claims
      rw [unclaimed] at claims
      cases claims
    · rfl
  next accepted =>
    simp only [Bool.or_eq_true, Bool.not_eq_true', not_or, Bool.not_eq_false,
      Bool.not_eq_true] at accepted
    have whole : connection.received.take headerSize = connection.headerBytes := by
      rw [← headerBytes, ← complete, take_length]
    have claimed : config.AggregateSound
        (left ++ { connection with
          header := config.wire.header connection.headerBytes }.startPayload :: right)
        (aggregate.claimRank (config.wire.header connection.headerBytes).rank) := by
      apply sound.claim unclaimed
      · simp [claims, startPayload]
      · simp [delivered, startPayload]
      · rfl
      · exact congrArg config.wire.header whole.symm
      · exact accepted.1
      · exact (complete.symm.trans (congrArg length headerBytes)).le
      · exact accepted.2
    split
    · have handles := prepareReceipt_handles claimed rfl isOpen
      exact { handles with }
    · refine ⟨claimed, rfl, (append_nil _).symm, ?_⟩
      intro _
      refine .readingPayload rfl isOpen connection.received (append_nil _).symm ?_ ?_
      · simp [startPayload, ← headerBytes, complete]
      · simp [startPayload, recordSize]

end

/-- The bytes of a connection while `data` is still to be copied. -/
structure Consuming (connection : GatherConnection) (data : List UInt8) : Prop where
  phase : connection.phase = .readingPayload
  isOpen : connection.isOpen
  bytes : ∃ front, connection.received = front ++ (connection.recordBytes ++ data) ∧
    front.length = headerSize + connection.recordIndex * recordSize
  partialRecord : connection.recordBytes.length < recordSize

theorem Consuming.tidy (consuming : Consuming connection []) : config.Tidy connection := by
  rcases consuming.bytes with ⟨front, received, frontLength⟩
  rw [append_nil] at received
  exact .readingPayload consuming.phase consuming.isOpen front received frontLength
    consuming.partialRecord

variable {data : List UInt8}

theorem Consuming.claims (consuming : Consuming connection data) : connection.claims := by
  simp [GatherConnection.claims, consuming.phase]

theorem keeps_copyBytes (bytes : List UInt8) : Keeps connection (connection.copyBytes bytes) :=
  ⟨rfl, fun _ => rfl, rfl, [], (append_nil _).symm⟩

theorem Consuming.copied (consuming : Consuming connection data) (count : ℕ) :
    ∃ front, connection.received =
        front ++ ((connection.copyBytes (data.take count)).recordBytes ++ data.drop count) ∧
      front.length = headerSize + connection.recordIndex * recordSize := by
  rcases consuming.bytes with ⟨front, received, frontLength⟩
  refine ⟨front, ?_, frontLength⟩
  simp only [GatherConnection.copyBytes]
  rw [append_assoc, take_append_drop]
  exact received

variable {count : ℕ}

theorem Consuming.copyBytes (consuming : Consuming connection data)
    (bound : count ≤ recordSize - connection.recordBytes.length)
    (unfinished : (connection.copyBytes (data.take count)).recordBytes.length ≠ recordSize) :
    Consuming (connection.copyBytes (data.take count)) (data.drop count) := by
  refine ⟨consuming.phase, consuming.isOpen, consuming.copied count, ?_⟩
  have partialRecord := consuming.partialRecord
  have copied := length_take_le count data
  simp only [GatherConnection.copyBytes, length_append] at unfinished ⊢
  omega

theorem Consuming.nextRecord (consuming : Consuming connection data)
    (finished : (connection.copyBytes (data.take count)).recordBytes.length = recordSize) :
    Consuming (connection.copyBytes (data.take count)).nextRecord (data.drop count) := by
  rcases consuming.copied count with ⟨front, received, frontLength⟩
  refine ⟨consuming.phase, consuming.isOpen,
    ⟨front ++ (connection.copyBytes (data.take count)).recordBytes, ?_, ?_⟩, by
      simp [GatherConnection.nextRecord, recordSize]⟩
  · simp only [append_assoc]
    exact received
  · simp only [GatherConnection.nextRecord, length_append, finished]
    simp only [GatherConnection.copyBytes, Nat.succ_mul]
    omega

section

variable (sound : config.AggregateSound (left ++ connection :: right) aggregate)

include sound

theorem AggregateSound.complete {merged : SocketRecord}
    (consuming : Consuming connection data) (inRange : ¬ config.hookCount ≤ connection.recordIndex)
    (finished : (connection.copyBytes (data.take count)).recordBytes.length = recordSize)
    (accepted : (aggregate.records[(connection.copyBytes (data.take count)).recordIndex]?).bind
      (·.merge (config.wire.record (connection.copyBytes (data.take count)).recordBytes)) =
        some merged) :
    config.AggregateSound
      (left ++ (connection.copyBytes (data.take count)).nextRecord :: right)
      (aggregate.setRecord (connection.copyBytes (data.take count)).recordIndex merged) := by
  rcases Option.bind_eq_some_iff.mp accepted with ⟨record, atIndex, mergedRecord⟩
  rcases consuming.copied count with ⟨front, received, frontLength⟩
  have copySound := sound.keep (keeps_copyBytes (data.take count)) rfl
  refine copySound.merge consuming.claims rfl rfl rfl rfl rfl (Nat.lt_of_not_le inRange) ?_
    atIndex ?_
  · have whole := congrArg length received
    simp only [length_append] at whole
    change _ ≤ connection.received.length
    change headerSize + (connection.recordIndex + 1) * recordSize ≤ _
    rw [Nat.succ_mul]
    omega
  · have atFront := recordAt_front config (data.drop count) frontLength finished
    rw [append_assoc, ← received] at atFront
    change record.merge (config.recordAt connection.recordIndex connection.received) = _
    rw [atFront]
    exact mergedRecord

variable (config) in
structure Consumed (left right : List GatherConnection) (before : GatherConnection)
    (handled : GatherHandled) : Prop where
  sound : config.AggregateSound (left ++ handled.connection :: right) handled.aggregate
  phase : handled.connection.phase = .readingPayload
  isOpen : handled.connection.isOpen
  received : handled.connection.received = before.received
  consuming : handled.answer → Consuming handled.connection []

theorem consumeRecords_consumed (rounds : ℕ) (data : List UInt8)
    (consuming : Consuming connection data) :
    config.Consumed left right connection
      (config.consumeRecords connection aggregate rounds data) := by
  induction rounds generalizing connection aggregate data with
  | zero =>
    cases data with
    | nil => exact ⟨sound, consuming.phase, consuming.isOpen, rfl, fun _ => consuming⟩
    | cons => exact ⟨sound, consuming.phase, consuming.isOpen, rfl, nofun⟩
  | succ _ ih =>
    cases data with
    | nil => exact ⟨sound, consuming.phase, consuming.isOpen, rfl, fun _ => consuming⟩
    | cons byte bytes =>
      simp only [consumeRecords]
      split
      · exact ⟨sound, consuming.phase, consuming.isOpen, rfl, nofun⟩
      next inRange =>
        have copySound := sound.keep (keeps_copyBytes ((byte :: bytes).take
          (min (recordSize - connection.recordBytes.length) (byte :: bytes).length))) rfl
        split
        next finished =>
          split
          · exact ⟨copySound, consuming.phase, consuming.isOpen, rfl, nofun⟩
          next merged accepted =>
            have next := ih (sound.complete consuming inRange finished accepted) _
              (consuming.nextRecord finished)
            exact { next with }
        next unfinished =>
          have next := ih copySound _ (consuming.copyBytes (Nat.min_le_left _ _) unfinished)
          exact { next with }

theorem consumePayload_handles (consuming : Consuming connection data) :
    config.Handles left right connection [] (config.consumePayload connection aggregate data) := by
  have consumed := consumeRecords_consumed sound data.length data consuming
  have received := consumed.received.trans (append_nil _).symm
  have isOpen := consumed.isOpen.trans consuming.isOpen.symm
  simp only [consumePayload]
  split
  next refused =>
    rw [Bool.not_eq_true'] at refused
    refine ⟨consumed.sound, isOpen, received, ?_⟩
    intro answer
    exact absurd (refused.symm.trans answer) (by decide)
  next answered =>
    rw [Bool.not_eq_true', Bool.not_eq_false] at answered
    split
    · have handles := prepareReceipt_handles consumed.sound consumed.phase consumed.isOpen
      refine ⟨handles.sound, handles.isOpen.trans isOpen, ?_, handles.tidy⟩
      rw [handles.received, append_nil, received]
    · exact ⟨consumed.sound, isOpen, received, fun _ => (consumed.consuming answered).tidy⟩

theorem receive_handles (bytes : List UInt8) (tidy : config.Tidy connection)
    (isOpen : connection.isOpen) :
    config.Handles left right connection bytes (config.receive connection aggregate bytes) := by
  have grown : ∀ headerBytes, config.AggregateSound
      (left ++ { connection with
        received := connection.received ++ bytes
        headerBytes := headerBytes } :: right) aggregate := by
    intro headerBytes
    exact sound.keep ⟨rfl, fun _ => rfl, rfl, bytes, rfl⟩ rfl
  simp only [receive]
  cases tidy with
  | readingHeader phase _ headerBytes =>
    simp only [phase]
    split
    next complete =>
      have handles := validateHeader_handles (grown (connection.headerBytes ++ bytes)) phase
        isOpen (congrArg (· ++ bytes) headerBytes) complete
      rw [phase] at handles
      exact ⟨handles.sound, handles.isOpen, handles.received.trans (append_nil _), handles.tidy⟩
    · have next := grown (connection.headerBytes ++ bytes)
      rw [phase] at next
      exact ⟨next, rfl, rfl, fun _ =>
        .readingHeader rfl isOpen (congrArg (· ++ bytes) headerBytes)⟩
  | readingPayload phase _ front received frontLength partialRecord =>
    have next := grown connection.headerBytes
    rw [phase] at next
    simp only [phase]
    have consuming : Consuming
        { connection with
          phase := .readingPayload
          received := connection.received ++ bytes } bytes := by
      refine ⟨rfl, isOpen, ⟨front, ?_, frontLength⟩, partialRecord⟩
      rw [received, append_assoc]
    have handles := consumePayload_handles next consuming
    exact ⟨handles.sound, handles.isOpen, handles.received.trans (append_nil _), handles.tidy⟩
  | sendingReceipt phase =>
    have next := grown connection.headerBytes
    rw [phase] at next
    simp only [phase]
    exact ⟨next, rfl, rfl, nofun⟩
  | readingConfirm phase complete =>
    have next : config.AggregateSound
        (left ++ { connection with
          received := connection.received ++ bytes
          confirmationBytes := connection.confirmationBytes ++ bytes } :: right) aggregate :=
      sound.keep ⟨rfl, fun _ => rfl, rfl, bytes, rfl⟩ rfl
    rw [phase] at next
    simp only [phase]
    split
    · exact ⟨next, rfl, rfl, fun _ => .readingConfirm rfl complete⟩
    · exact ⟨next, rfl, rfl, fun _ => .readingConfirm rfl complete⟩

theorem send_handles (written : ℕ) (phase : connection.phase = .sendingReceipt)
    (tidy : config.Tidy connection) (isOpen : connection.isOpen) :
    config.Handles left right connection [] (config.send connection aggregate written) := by
  have complete : connection.recordIndex = config.hookCount := by
    cases tidy with
    | sendingReceipt _ _ complete => exact complete
    | readingHeader other | readingPayload other | readingConfirm other =>
      rw [phase] at other
      cases other
  have received : connection.received = connection.received ++ [] := (append_nil _).symm
  have kept : config.AggregateSound
      (left ++ { connection with receiptBytes := connection.receiptBytes + written } :: right)
      aggregate :=
    sound.keep ⟨rfl, fun _ => rfl, rfl, [], received⟩ rfl
  simp only [send]
  split
  · split
    · exact ⟨kept, rfl, received, nofun⟩
    · refine ⟨?_, rfl, received, fun _ => .readingConfirm rfl complete⟩
      have confirming : config.AggregateSound
          (left ++ { connection with
            receiptBytes := connection.receiptBytes + written
            phase := .readingConfirm
            confirmationBytes := [] } :: right) aggregate := by
        refine sound.keep ⟨?_, fun _ => rfl, rfl, [], received⟩ ?_
        · simp [claims, phase]
        · simp [delivered, phase]
      exact { confirming with }
  · exact ⟨kept, rfl, received, fun _ => .sendingReceipt phase isOpen complete⟩

end

def stream (history : List GatherEvent) (id : ℕ) : List UInt8 :=
  history.flatMap fun event =>
    match event with
    | .received other bytes => if other = id then bytes else []
    | _ => []

variable (config) in
structure GatherInvariant (history : List GatherEvent) (gather : Gather) : Prop where
  sound : config.AggregateSound gather.connections gather.aggregate
  received : ∀ (id : ℕ) (connection : GatherConnection),
    gather.connections[id]? = some connection → connection.received = stream history id
  unseen : ∀ id, gather.connections.length ≤ id → stream history id = []
  accepted : gather.accepted = gather.connections.length
  bounded : gather.accepted ≤ config.peerCount
  completed : gather.completed = gather.connections.countP (!·.isOpen)
  tidy : gather.ok → ∀ connection ∈ gather.connections, config.Tidy connection

theorem gatherInvariant_initial : config.GatherInvariant [] config.initial where
  sound := by
    refine ⟨by simp [initial], ?_, by simp [claimants, initial], by simp [deliveries, initial], ?_⟩
    · intro rank
      simp [initial, claimants]
    · intro hook root atHook
      exact ⟨root, atHook, rfl⟩
  received := by simp [initial]
  unseen := fun _ _ => rfl
  accepted := rfl
  bounded := Nat.zero_le _
  completed := rfl
  tidy := by simp [initial]

theorem stream_append (history : List GatherEvent) (event : GatherEvent) (id : ℕ) :
    stream (history ++ [event]) id = stream history id ++ stream [event] id := by
  simp [stream]

variable {connections : List GatherConnection} {id : ℕ}

theorem exists_middle (atId : connections[id]? = some connection) :
    ∃ left right, connections = left ++ connection :: right ∧ left.length = id := by
  rcases List.getElem?_eq_some_iff.mp atId with ⟨inBounds, rfl⟩
  refine ⟨connections.take id, connections.drop (id + 1), ?_, ?_⟩
  · rw [← drop_eq_getElem_cons inBounds, take_append_drop]
  · simp [Nat.le_of_lt inBounds]

variable {history : List GatherEvent} {event : GatherEvent} {gather : Gather}

section

variable (invariant : config.GatherInvariant history gather)

include invariant

theorem GatherInvariant.served (ok : gather.ok)
    (connectionsEq : gather.connections = left ++ connection :: right) {bytes : List UInt8}
    (streamEq : ∀ other, stream [event] other = if left.length = other then bytes else [])
    {handled : GatherHandled} {completed : ℕ} (active : ℕ)
    (sound : config.AggregateSound (left ++ handled.connection :: right) handled.aggregate)
    (received : handled.connection.received = connection.received ++ bytes)
    (tidy : handled.answer → config.Tidy handled.connection)
    (counted : completed + (if connection.isOpen then 0 else 1) =
      gather.completed + if handled.connection.isOpen then 0 else 1) :
    config.GatherInvariant (history ++ [event])
      { served gather left.length handled with completed := completed, active := active } := by
  have setEq : gather.connections.set left.length handled.connection =
      left ++ handled.connection :: right := by
    simp [connectionsEq]
  refine ⟨?_, ?_, ?_, ?_, invariant.bounded, ?_, ?_⟩
  · simp only [GatherConfig.served, setEq]
    exact sound
  · intro other found foundAt
    simp only [GatherConfig.served, getElem?_set] at foundAt
    rw [stream_append, streamEq]
    split at foundAt
    next same =>
      subst same
      have atId : gather.connections[left.length]? = some connection := by simp [connectionsEq]
      rw [Option.ite_none_right_eq_some, Option.some.injEq] at foundAt
      rw [if_pos rfl, ← foundAt.2, received, invariant.received _ connection atId]
    next different =>
      rw [if_neg different, append_nil]
      exact invariant.received other found foundAt
  · intro other beyond
    simp only [GatherConfig.served, length_set, connectionsEq, length_append, length_cons] at beyond
    rw [stream_append, streamEq, if_neg (by omega), append_nil]
    apply invariant.unseen
    simpa [connectionsEq] using beyond
  · simp only [GatherConfig.served, length_set]
    exact invariant.accepted
  · have before := invariant.completed
    simp only [GatherConfig.served] at before ⊢
    grind
  · intro answer
    have all := invariant.tidy ok
    rw [connectionsEq] at all
    simp only [GatherConfig.served, setEq]
    exact forall_middle all (tidy answer)

theorem GatherInvariant.accept (below : gather.accepted < config.peerCount) :
    config.GatherInvariant (history ++ [.accept])
      { gather with
        connections := gather.connections ++ [fresh]
        accepted := gather.accepted + 1
        active := gather.active + 1 } := by
  have quiet : ∀ id, stream (history ++ [.accept]) id = stream history id := by
    intro id
    rw [stream_append]
    exact append_nil _
  have unclaimed : fresh.claims = false := rfl
  have undelivered : fresh.delivered = false := rfl
  refine ⟨⟨?_, ?_, ?_, ?_, ?_⟩, ?_, ?_, ?_, below, ?_, ?_⟩
  · exact forall_mem_append.mpr ⟨invariant.sound.connection, forall_mem_singleton.mpr
      ⟨nofun, fun _ => rfl, Nat.zero_le _, nofun⟩⟩
  · have claimed := invariant.sound.claimed
    simpa [claimants, unclaimed] using claimed
  · have distinct := invariant.sound.distinct
    simpa [claimants, unclaimed] using distinct
  · have absorbed := invariant.sound.absorbed
    simpa [deliveries, undelivered] using absorbed
  · intro hook root atHook
    have merged := invariant.sound.merged hook root atHook
    simpa [contributions, fresh] using merged
  · intro id connection atId
    rw [quiet]
    rcases Nat.lt_or_ge id gather.connections.length with earlier | beyond
    · rw [getElem?_append_left earlier] at atId
      exact invariant.received id connection atId
    · rw [getElem?_append_right beyond, getElem?_singleton] at atId
      split at atId
      · cases atId
        exact (invariant.unseen id beyond).symm
      · cases atId
  · intro id beyond
    rw [quiet]
    rw [length_append] at beyond
    exact invariant.unseen id (by omega)
  · rw [length_append, invariant.accepted]
    rfl
  · rw [invariant.completed]
    simp [fresh]
  · intro ok
    exact forall_mem_append.mpr ⟨invariant.tidy ok,
      forall_mem_singleton.mpr (.readingHeader rfl rfl rfl)⟩

theorem GatherInvariant.flags (quiet : ∀ id, stream [event] id = []) {ok stopped : Bool}
    (kept : ok → gather.ok) :
    config.GatherInvariant (history ++ [event]) { gather with ok := ok, stopped := stopped } := by
  refine ⟨invariant.sound, ?_, ?_, invariant.accepted, invariant.bounded, invariant.completed,
    fun isOk => invariant.tidy (kept isOk)⟩
  · intro id connection atId
    rw [stream_append, quiet, append_nil]
    exact invariant.received id connection atId
  · intro id beyond
    rw [stream_append, quiet, append_nil]
    exact invariant.unseen id beyond

end

theorem GatherInvariant.step {before after : Gather}
    (invariant : config.GatherInvariant history before)
    (stepped : config.step before event = some after) :
    config.GatherInvariant (history ++ [event]) after := by
  simp only [GatherConfig.step, Option.ite_none_left_eq_some, Bool.or_eq_true, Bool.not_eq_true',
    not_or, Bool.not_eq_false] at stepped
  rcases stepped with ⟨⟨ok, _⟩, stepped⟩
  cases event with
  | accept =>
    simp only [Option.ite_none_right_eq_some, Option.some.injEq] at stepped
    rcases stepped with ⟨⟨below, _⟩, rfl⟩
    exact invariant.accept below
  | acceptFailed | pollFailed =>
    simp only [Option.some.injEq] at stepped
    subst stepped
    exact invariant.flags (fun _ => rfl) nofun
  | timeout =>
    simp only [Option.some.injEq] at stepped
    subst stepped
    exact invariant.flags (fun _ => rfl) fun _ => ok
  | received id bytes =>
    cases atId : before.connections[id]? with
    | none => simp [atId] at stepped
    | some connection =>
      simp only [atId, Option.ite_none_right_eq_some] at stepped
      rcases stepped with ⟨⟨isOpen, _, _⟩, stepped⟩
      have tidy := invariant.tidy ok connection (mem_of_getElem? atId)
      rcases exists_middle atId with ⟨_, _, connectionsEq, rfl⟩
      have handles := receive_handles (connectionsEq ▸ invariant.sound) bytes tidy isOpen
      split at stepped
      next confirmed =>
        simp only [Bool.and_eq_true, GatherConfig.confirmed, decide_eq_true_eq] at confirmed
        rcases confirmed with ⟨answer, phase, _⟩
        cases stepped
        apply invariant.served ok connectionsEq fun other => append_nil _
        · exact handles.sound.keep ⟨rfl, fun _ => rfl, rfl, [], (append_nil _).symm⟩ rfl
        · exact handles.received
        · exact fun _ => .readingConfirm phase ((handles.tidy answer).complete phase)
        · simp [isOpen]
      · cases stepped
        exact invariant.served ok connectionsEq (fun other => append_nil _) _ handles.sound
          handles.received handles.tidy (by rw [handles.isOpen])
  | sent id written =>
    cases atId : before.connections[id]? with
    | none => simp [atId] at stepped
    | some connection =>
      simp only [atId, Option.ite_none_right_eq_some, Option.some.injEq] at stepped
      rcases stepped with ⟨⟨isOpen, phase, _, _⟩, rfl⟩
      have tidy := invariant.tidy ok connection (mem_of_getElem? atId)
      rcases exists_middle atId with ⟨_, _, connectionsEq, rfl⟩
      have handles := send_handles (connectionsEq ▸ invariant.sound) written phase tidy isOpen
      exact invariant.served ok connectionsEq (fun other => (ite_self _).symm) _ handles.sound
        handles.received handles.tidy (by rw [handles.isOpen])
  | connectionFailed id =>
    cases atId : before.connections[id]? with
    | none => simp [atId] at stepped
    | some =>
      simp only [atId, Option.ite_none_right_eq_some, Option.some.injEq] at stepped
      rcases stepped with ⟨_, rfl⟩
      exact invariant.flags (fun _ => rfl) nofun

theorem gatherInvariant_reached (reached : config.Reached history gather) :
    config.GatherInvariant history gather := by
  induction reached with
  | start => exact gatherInvariant_initial
  | snoc _ stepped ih => exact ih.step stepped

def peerRanks (config : GatherConfig) : List ℕ :=
  range' 1 config.peerCount

theorem mem_peerRanks {rank : ℕ} : rank ∈ config.peerRanks ↔ 1 ≤ rank ∧ rank < config.size := by
  simp only [peerRanks, peerCount, mem_range'_1]
  omega

theorem rank_mem_of_accepted {header : SocketHeader}
    (accepted : config.headerAccepted header) : header.rank ∈ config.peerRanks := by
  rw [mem_peerRanks]
  simp only [headerAccepted, Bool.and_eq_true, Bool.not_eq_true', Bool.or_eq_false_iff,
    decide_eq_false_iff_not] at accepted
  omega

section

variable (invariant : config.GatherInvariant history gather)

include invariant

theorem GatherInvariant.finished (success : config.succeeded gather) :
    gather.connections.length = config.peerCount ∧
      ∀ connection ∈ gather.connections, connection.phase = .readingConfirm ∧
        connection.recordIndex = config.hookCount ∧ connection.claims := by
  simp only [succeeded, Bool.and_eq_true, beq_iff_eq] at success
  have completed := invariant.completed
  have accepted := invariant.accepted
  have bounded := invariant.bounded
  have most := countP_le_length (p := fun connection : GatherConnection => !connection.isOpen)
    (l := gather.connections)
  have allClosed : gather.connections.countP (!·.isOpen) = gather.connections.length := by omega
  refine ⟨by omega, ?_⟩
  intro connection connectionMem
  have closed := countP_eq_length.mp allClosed connection connectionMem
  rw [Bool.not_eq_true'] at closed
  cases invariant.tidy success.1 connection connectionMem with
  | readingConfirm phase complete => exact ⟨phase, complete, by simp [claims, phase]⟩
  | readingHeader _ isOpen | readingPayload _ isOpen | sendingReceipt _ isOpen =>
    exact absurd (closed.symm.trans isOpen) (by decide)

theorem GatherInvariant.claimants_perm (success : config.succeeded gather) :
    (gather.connections.map (·.header.rank)).Perm config.peerRanks := by
  rcases invariant.finished success with ⟨length, finished⟩
  have distinct := invariant.sound.distinct
  rw [claimants, filter_eq_self.mpr fun connection isMem => (finished connection isMem).2.2]
    at distinct
  apply (subperm_of_subset distinct ?_).perm_of_length_le
  · simp [peerRanks, length]
  · intro rank rankMem
    rcases mem_map.mp rankMem with ⟨connection, connectionMem, rfl⟩
    exact rank_mem_of_accepted ((invariant.sound.connection connection connectionMem).header
      (finished connection connectionMem).2.2).2

def headerOf (config : GatherConfig) (history : List GatherEvent) (id : ℕ) : SocketHeader :=
  config.wire.header ((stream history id).take headerSize)

theorem GatherInvariant.header
    (atId : gather.connections[id]? = some connection) (claims : connection.claims) :
    connection.header = config.headerOf history id ∧
      config.headerAccepted (config.headerOf history id) := by
  have sound := (invariant.sound.connection connection (mem_of_getElem? atId)).header claims
  rw [invariant.received id connection atId] at sound
  rcases sound with ⟨headerEq, accepted⟩
  rw [headerEq] at accepted
  exact ⟨headerEq, accepted⟩

omit invariant in
theorem ConnectionSound.claims_of_record (sound : config.ConnectionSound connection)
    (contributes : connection.recordIndex ≠ 0) : connection.claims := by
  cases claims : connection.claims with
  | true => rfl
  | false => exact absurd (sound.unclaimed claims) contributes

omit invariant in
theorem AggregateSound.rank_ne (sound : config.AggregateSound connections aggregate)
    {first second : ℕ} {one another : GatherConnection} (different : first ≠ second)
    (atFirst : connections[first]? = some one) (atSecond : connections[second]? = some another)
    (oneClaims : one.claims) (anotherClaims : another.claims) :
    one.header.rank ≠ another.header.rank := by
  have pairs := sound.distinct
  rw [claimants, Nodup, pairwise_map, pairwise_filter] at pairs
  rw [pairwise_iff_getElem] at pairs
  rcases List.getElem?_eq_some_iff.mp atFirst with ⟨firstBound, rfl⟩
  rcases List.getElem?_eq_some_iff.mp atSecond with ⟨secondBound, rfl⟩
  rcases Nat.lt_or_gt_of_ne different with before | after
  · exact pairs first second firstBound secondBound before oneClaims anotherClaims
  · exact (pairs second first secondBound firstBound after anotherClaims oneClaims).symm

theorem GatherInvariant.connectionOf (success : config.succeeded gather) :
    ∃ connectionOf : ℕ → ℕ,
      (∀ connection ∈ gather.connections,
        gather.connections[connectionOf connection.header.rank]? = some connection) := by
  refine ⟨fun rank => gather.connections.findIdx (·.header.rank = rank), ?_⟩
  intro connection connectionMem
  dsimp only
  have finished := (invariant.finished success).2
  have inBounds : gather.connections.findIdx (·.header.rank = connection.header.rank) <
      gather.connections.length :=
    findIdx_lt_length_of_exists ⟨connection, connectionMem, by simp⟩
  have sameRank := findIdx_getElem (w := inBounds)
  rw [decide_eq_true_eq] at sameRank
  rcases getElem?_of_mem connectionMem with ⟨id, atId⟩
  by_cases same : id = gather.connections.findIdx (·.header.rank = connection.header.rank)
  · rw [← same]
    exact atId
  · have differ := invariant.sound.rank_ne same atId (getElem?_eq_getElem inBounds)
      (finished _ connectionMem).2.2 (finished _ (getElem_mem inBounds)).2.2
    exact absurd sameRank.symm differ

theorem GatherInvariant.delivers (success : config.succeeded gather) :
    (gather.aggregate.absorbed.map (·.rank)).Perm config.peerRanks ∧
      ∃ connectionOf : ℕ → ℕ,
        (∀ rank ∈ config.peerRanks,
          (config.headerOf history (connectionOf rank)).rank = rank ∧
          config.headerAccepted (config.headerOf history (connectionOf rank)) ∧
          headerSize + config.recordBytes ≤ (stream history (connectionOf rank)).length) ∧
        ∀ (hook : ℕ) (root : SocketRecord), config.rootRecords[hook]? = some root →
          ∀ order : List ℕ, order.Perm config.peerRanks →
            root.mergeAll (order.map fun rank =>
                config.recordAt hook (stream history (connectionOf rank))) =
              gather.aggregate.records[hook]? := by
  rcases invariant.finished success with ⟨_, finished⟩
  rcases invariant.connectionOf success with ⟨connectionOf, atRank⟩
  have ranks := invariant.claimants_perm success
  refine ⟨?_, connectionOf, ?_, ?_⟩
  · have delivered : deliveries gather.connections = gather.connections.map (·.header) := by
      rw [deliveries, filter_eq_self.mpr]
      intro connection connectionMem
      simp [delivered, (finished connection connectionMem).1]
    have absorbed := invariant.sound.absorbed.map (·.rank)
    rw [delivered, map_map] at absorbed
    exact absorbed.trans ranks
  · intro rank rankMem
    rcases mem_map.mp (ranks.mem_iff.mpr rankMem) with ⟨connection, connectionMem, rfl⟩
    have atId := atRank connection connectionMem
    rcases finished connection connectionMem with ⟨_, complete, claims⟩
    rcases invariant.header atId claims with ⟨headerEq, accepted⟩
    refine ⟨congrArg SocketHeader.rank headerEq.symm, accepted, ?_⟩
    have length := (invariant.sound.connection connection connectionMem).length claims
    rw [invariant.received _ connection atId, complete] at length
    exact length
  · intro hook root atHook order isOrder
    rcases invariant.sound.merged hook root atHook with ⟨record, recordAt, folded⟩
    have inRange : hook < config.hookCount := by
      have bound := (List.getElem?_eq_some_iff.mp atHook).1
      simpa [rootRecords, hookCount] using bound
    have contributions : config.contributions gather.connections hook =
        gather.connections.map (config.recordAt hook ·.received) := by
      rw [contributions, filter_eq_self.mpr]
      intro connection connectionMem
      simp [(finished connection connectionMem).2.1, inRange]
    rw [recordAt]
    refine SocketRecord.mergeAll_perm (rootRecords_flagged atHook) ?_ folded
    have ordered := (ranks.trans isOrder.symm).map
      fun rank => config.recordAt hook (stream history (connectionOf rank))
    refine Perm.trans ?_ ordered
    rw [contributions, map_map]
    apply Perm.of_eq
    apply map_congr_left
    intro connection connectionMem
    simp only [Function.comp_apply]
    rw [← invariant.received _ connection (atRank connection connectionMem)]

end

/-- Every peer is gathered exactly once. After success each peer has one connection, and the
aggregate is the fold over their records, in any order. -/
theorem gather_delivers_once (config : GatherConfig) {history : List GatherEvent}
    {gather : Gather} (reached : config.Reached history gather) :
    (∀ (hook : ℕ) (root : SocketRecord), config.rootRecords[hook]? = some root →
      ∃ record, gather.aggregate.records[hook]? = some record ∧
        root.mergeAll (config.contributions gather.connections hook) = some record ∧
        ∀ incoming ∈ config.contributions gather.connections hook,
          incoming.identityHash = root.identityHash) ∧
    (∀ (id : ℕ) (connection : GatherConnection), gather.connections[id]? = some connection →
      connection.received = stream history id ∧
      (connection.recordIndex ≠ 0 → config.headerAccepted (config.headerOf history id) = true) ∧
      ∀ (other : ℕ) (owner : GatherConnection), other ≠ id →
        gather.connections[other]? = some owner → owner.claims = true →
        (config.headerOf history other).rank = (config.headerOf history id).rank →
          connection.recordIndex = 0) ∧
    (config.succeeded gather = true →
      (gather.aggregate.absorbed.map (·.rank)).Perm config.peerRanks ∧
      ∃ connectionOf : ℕ → ℕ,
        (∀ rank ∈ config.peerRanks,
          (config.headerOf history (connectionOf rank)).rank = rank ∧
          config.headerAccepted (config.headerOf history (connectionOf rank)) = true ∧
          headerSize + config.recordBytes ≤ (stream history (connectionOf rank)).length) ∧
        ∀ (hook : ℕ) (root : SocketRecord), config.rootRecords[hook]? = some root →
          ∀ order : List ℕ, order.Perm config.peerRanks →
            root.mergeAll (order.map fun rank =>
                config.recordAt hook (stream history (connectionOf rank))) =
              gather.aggregate.records[hook]?) := by
  have invariant := gatherInvariant_reached reached
  refine ⟨?_, ?_, ?_⟩
  · intro hook root atHook
    rcases invariant.sound.merged hook root atHook with ⟨record, recordAt, folded⟩
    refine ⟨record, recordAt, folded, ?_⟩
    intro incoming incomingMem
    rcases (SocketRecord.mergeAll_accepted_iff _ _).mp ⟨record, folded⟩ with none | accepted
    · rw [none] at incomingMem
      cases incomingMem
    · exact (accepted.1 incoming incomingMem).identityHash
  · intro id connection atId
    have sound := invariant.sound.connection connection (mem_of_getElem? atId)
    refine ⟨invariant.received id connection atId, ?_, ?_⟩
    · intro contributes
      exact (invariant.header atId (sound.claims_of_record contributes)).2
    · intro other owner different ownerAt ownerClaims sameRank
      by_contra contributes
      have claims := sound.claims_of_record contributes
      rw [← (invariant.header ownerAt ownerClaims).1, ← (invariant.header atId claims).1]
        at sameRank
      exact invariant.sound.rank_ne different ownerAt atId ownerClaims claims sameRank
  · intro success
    exact invariant.delivers success

def codeType (code : UInt8) : FrameType :=
  [.gatherReceipt, .gatherReceiptConfirm, .releaseRequest, .releaseDecision,
    .releaseConfirm].getD code.toNat (.other 0)

def codeDecision (code : UInt8) : FrameDecision :=
  [.none, .registered, .releaseAck, .releaseFallback].getD code.toNat (.other 0)

/-- The report of a hook with the given number of calls, of two seconds each. -/
def callsReport (count : ℕ) : HookReport :=
  (HookListener.running (replicate count HookListener.twoSeconds)).report

/-- A root with one hook and two peers. A header begins with the rank, a record with the calls, and
a frame with its type, decision and rank. -/
def threeRanks : GatherConfig where
  wire :=
    { header := fun bytes =>
        ⟨socketMagic, socketVersion, (bytes.headD 0).toNat, 1, 5, 1, true⟩
      record := fun bytes => SocketRecord.build 7 (callsReport (bytes.headD 0).toNat)
      frame := fun bytes =>
        ⟨socketMagic, socketVersion, (bytes.getD 2 0).toNat, 1, 9, codeType (bytes.getD 0 0),
          codeDecision (bytes.getD 1 0)⟩ }
  rows := [(7, callsReport 1)]
  size := 3
  sessionToken := 5
  receiptSessionToken := 9
  activeLimit := 2

/-- The peers send in pieces by turns. The one of rank 2 has connected first. -/
def threeRanksRun : List GatherEvent :=
  [.accept, .accept, .received 0 (2 :: replicate 199 0), .received 1 (1 :: replicate 271 0),
    .received 0 (replicate 72 0), .received 1 (3 :: replicate 78 0), .received 0 (replicate 80 0),
    .received 1 [0], .sent 0 15, .sent 1 40, .received 1 (1 :: 1 :: 1 :: replicate 37 0),
    .sent 0 25, .received 0 [1, 1], .received 0 (2 :: replicate 37 0)]

theorem gather_delivers_once_three_ranks :
    ∃ gather, threeRanks.Reached threeRanksRun gather ∧ threeRanks.succeeded gather = true ∧
      (gather.aggregate.absorbed.map (·.rank)).Perm [1, 2] ∧
      gather.aggregate.records.map (·.numCalls) = [4] := by
  have runs : ((threeRanksRun.foldlM threeRanks.step threeRanks.initial).map fun gather =>
      decide (threeRanks.succeeded gather = true ∧
        gather.aggregate.records.map (·.numCalls) = [4])) = some true := by decide +kernel
  rcases Option.map_eq_some_iff.mp runs with ⟨gather, folded, outcome⟩
  rcases of_decide_eq_true outcome with ⟨success, calls⟩
  have reached : threeRanks.Reached threeRanksRun gather := Runs.of_foldlM folded
  exact ⟨gather, reached, success, ((gather_delivers_once threeRanks reached).2.2 success).1, calls⟩

end GatherConfig

end Peak
