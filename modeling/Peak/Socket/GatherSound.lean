import Peak.Socket.Gather

/-!
# What the aggregate of a gather contains

In every state of the gather, also after an error, the aggregate of a hook is the fold
over the records that the connections delivered completely. Only connections with an
accepted header deliver records, and no two of them have the same rank.
-/

namespace Peak

open List

namespace GatherConnection

/-- The header was accepted and the connection owns its rank. -/
def claims (connection : GatherConnection) : Bool :=
  connection.phase ≠ .readingHeader

def delivered (connection : GatherConnection) : Bool :=
  connection.phase = .sendingReceipt || connection.phase = .readingConfirm

end GatherConnection

namespace GatherConfig

variable (config : GatherConfig)

def recordAt (hook : ℕ) (received : List UInt8) : SocketRecord :=
  config.wire.record ((received.drop (headerSize + hook * recordSize)).take recordSize)

def claimants (connections : List GatherConnection) : List ℕ :=
  (connections.filter (·.claims)).map (·.header.rank)

def deliveries (connections : List GatherConnection) : List SocketHeader :=
  (connections.filter (·.delivered)).map (·.header)

def contributions (connections : List GatherConnection) (hook : ℕ) : List SocketRecord :=
  (connections.filter (hook < ·.recordIndex)).map (config.recordAt hook ·.received)

structure ConnectionSound (connection : GatherConnection) : Prop where
  header : connection.claims →
    connection.header = config.wire.header (connection.received.take headerSize) ∧
      config.headerAccepted connection.header
  unclaimed : connection.claims = false → connection.recordIndex = 0
  index : connection.recordIndex ≤ config.hookCount
  length : connection.claims →
    headerSize + connection.recordIndex * recordSize ≤ connection.received.length

structure AggregateSound (connections : List GatherConnection) (aggregate : GatherAggregate) :
    Prop where
  connection : ∀ connection ∈ connections, config.ConnectionSound connection
  claimed : ∀ rank, aggregate.claimedRanks rank ↔ rank = 0 ∨ rank ∈ claimants connections
  distinct : (claimants connections).Nodup
  absorbed : aggregate.absorbed.Perm (deliveries connections)
  merged : ∀ (hook : ℕ) (root : SocketRecord), config.rootRecords[hook]? = some root →
    ∃ record, aggregate.records[hook]? = some record ∧
      root.mergeAll (config.contributions connections hook) = some record

variable {config} {hook : ℕ}

theorem rootRecords_flagged {root : SocketRecord} (atHook : config.rootRecords[hook]? = some root) :
    root.Flagged := by
  rcases mem_map.mp (mem_of_getElem? atHook) with ⟨_, _, rfl⟩
  exact SocketRecord.flagged_build _ _

theorem recordAt_append {received : List UInt8} (bytes : List UInt8)
    (complete : headerSize + (hook + 1) * recordSize ≤ received.length) :
    config.recordAt hook (received ++ bytes) = config.recordAt hook received := by
  have start : headerSize + hook * recordSize ≤ received.length := by
    rw [Nat.succ_mul] at complete
    omega
  simp only [recordAt]
  rw [drop_append_of_le_length start, take_append_of_le_length]
  rw [length_drop]
  rw [Nat.succ_mul] at complete
  omega

theorem recordAt_front (config : GatherConfig) {front record : List UInt8} (rest : List UInt8)
    (frontLength : front.length = headerSize + hook * recordSize)
    (recordLength : record.length = recordSize) :
    config.recordAt hook (front ++ record ++ rest) = config.wire.record record := by
  simp only [recordAt]
  rw [← frontLength, append_assoc, drop_left, ← recordLength, take_left]

section Middle

variable {left right : List GatherConnection} {before after : GatherConnection}

theorem select_middle {α β : Type} (keep : α → Bool) (field : α → β) (left right : List α)
    (member : α) :
    ((left ++ member :: right).filter keep).map field =
      (left.filter keep).map field ++
        ((if keep member then [field member] else []) ++ (right.filter keep).map field) := by
  simp only [filter_append, filter_cons]
  split <;> simp

structure Keeps (before after : GatherConnection) : Prop where
  claims : after.claims = before.claims
  header : before.claims → after.header = before.header
  recordIndex : after.recordIndex = before.recordIndex
  received : ∃ bytes, after.received = before.received ++ bytes

theorem ConnectionSound.complete {connection : GatherConnection}
    (sound : config.ConnectionSound connection) {hook : ℕ}
    (merged : hook < connection.recordIndex) :
    headerSize + (hook + 1) * recordSize ≤ connection.received.length := by
  have claims : connection.claims := by
    cases claims : connection.claims with
    | true => rfl
    | false =>
      have none := sound.unclaimed claims
      omega
  have length := sound.length claims
  have := Nat.mul_le_mul_right recordSize (Nat.succ_le_of_lt merged)
  simp only [Nat.succ_eq_add_one] at this
  omega

theorem ConnectionSound.keep (sound : config.ConnectionSound before) (keeps : Keeps before after) :
    config.ConnectionSound after := by
  rcases keeps.received with ⟨_, received⟩
  refine ⟨?_, ?_, ?_, ?_⟩
  · intro claims
    rw [keeps.claims] at claims
    rcases sound.header claims with ⟨headerEq, accepted⟩
    have long := sound.length claims
    rw [keeps.header claims, received, take_append_of_le_length (by omega)]
    exact ⟨headerEq, accepted⟩
  · intro unclaimed
    rw [keeps.claims] at unclaimed
    rw [keeps.recordIndex]
    exact sound.unclaimed unclaimed
  · rw [keeps.recordIndex]
    exact sound.index
  · intro claims
    rw [keeps.claims] at claims
    have length := sound.length claims
    rw [keeps.recordIndex, received, length_append]
    omega

theorem forall_middle {sound : GatherConnection → Prop}
    (all : ∀ connection ∈ left ++ before :: right, sound connection) (self : sound after) :
    ∀ connection ∈ left ++ after :: right, sound connection := by
  intro connection connectionMem
  rcases mem_append.mp connectionMem with inLeft | inRest
  · exact all connection (mem_append_left _ inLeft)
  · rcases mem_cons.mp inRest with rfl | inRight
    · exact self
    · exact all connection (mem_append_right _ (mem_cons_of_mem _ inRight))

theorem contributions_keep (sound : config.ConnectionSound before) (keeps : Keeps before after)
    (hook : ℕ) :
    config.contributions (left ++ after :: right) hook =
      config.contributions (left ++ before :: right) hook := by
  simp only [contributions, select_middle, keeps.recordIndex]
  by_cases merged : hook < before.recordIndex
  · rcases keeps.received with ⟨bytes, received⟩
    rw [received, recordAt_append bytes (sound.complete merged)]
  · simp [merged]

theorem claimants_keep (keeps : Keeps before after) :
    claimants (left ++ after :: right) = claimants (left ++ before :: right) := by
  simp only [claimants, select_middle, keeps.claims]
  split
  next claims =>
    rw [keeps.header claims]
  · rfl

theorem mergeAll_append {aggregate record merged : SocketRecord} {incoming : List SocketRecord}
    {last : SocketRecord} (earlier : aggregate.mergeAll incoming = some record)
    (accepted : record.merge last = some merged) :
    aggregate.mergeAll (incoming ++ [last]) = some merged := by
  simp only [SocketRecord.mergeAll] at earlier ⊢
  simp [earlier, accepted]

variable {aggregate : GatherAggregate}

section

variable (sound : config.AggregateSound (left ++ before :: right) aggregate)

include sound

theorem AggregateSound.keepAbsorbed (keeps : Keeps before after) {absorbed : List SocketHeader}
    (same : absorbed.Perm (deliveries (left ++ after :: right))) :
    config.AggregateSound (left ++ after :: right) { aggregate with absorbed := absorbed } := by
  have beforeSound := sound.connection before (by simp)
  refine ⟨forall_middle sound.connection (beforeSound.keep keeps), ?_, ?_, same, ?_⟩
  · rw [claimants_keep keeps]
    exact sound.claimed
  · rw [claimants_keep keeps]
    exact sound.distinct
  · intro hook root atHook
    rw [contributions_keep beforeSound keeps]
    exact sound.merged hook root atHook

theorem AggregateSound.keep (keeps : Keeps before after)
    (delivered : after.delivered = before.delivered) :
    config.AggregateSound (left ++ after :: right) aggregate := by
  have same : deliveries (left ++ after :: right) = deliveries (left ++ before :: right) := by
    simp only [deliveries, select_middle, delivered]
    split
    next isDelivered =>
      have claims : before.claims := by
        simp only [GatherConnection.delivered, Bool.or_eq_true, decide_eq_true_eq] at isDelivered
        rcases isDelivered with phase | phase <;> simp [GatherConnection.claims, phase]
      rw [keeps.header claims]
    · rfl
  exact sound.keepAbsorbed keeps (same ▸ sound.absorbed)

theorem AggregateSound.deliver (keeps : Keeps before after)
    (undelivered : before.delivered = false) (delivered : after.delivered)
    (header : after.header = before.header) :
    config.AggregateSound (left ++ after :: right)
      { aggregate with absorbed := aggregate.absorbed ++ [before.header] } := by
  apply sound.keepAbsorbed keeps
  have absorbed := sound.absorbed
  simp only [deliveries, select_middle, undelivered, delivered, header] at absorbed ⊢
  refine (absorbed.append_right [before.header]).trans ?_
  rw [append_assoc]
  exact Perm.append_left _ perm_append_comm

theorem AggregateSound.claim (unclaimed : before.claims = false) (claims : after.claims)
    (undelivered : after.delivered = false) (noRecord : after.recordIndex = 0)
    (header : after.header = config.wire.header (after.received.take headerSize))
    (accepted : config.headerAccepted after.header)
    (length : headerSize ≤ after.received.length)
    (free : aggregate.claimedRanks after.header.rank = false) :
    config.AggregateSound (left ++ after :: right) (aggregate.claimRank after.header.rank) := by
  have beforeSound := sound.connection before (by simp)
  have beforeUndelivered : before.delivered = false := by
    simp only [GatherConnection.claims, decide_eq_false_iff_not, not_not] at unclaimed
    simp [GatherConnection.delivered, unclaimed]
  have earlier : claimants (left ++ before :: right) = claimants left ++ claimants right := by
    simp [claimants, unclaimed]
  have later : claimants (left ++ after :: right) =
      claimants left ++ after.header.rank :: claimants right := by
    simp [claimants, claims]
  have fresh : after.header.rank ∉ claimants left ++ claimants right := by
    intro taken
    rw [← earlier] at taken
    have isClaimed := (sound.claimed after.header.rank).mpr (.inr taken)
    exact absurd (free.symm.trans isClaimed) (by decide)
  refine ⟨forall_middle sound.connection ?_, ?_, ?_, ?_, ?_⟩
  · refine ⟨fun _ => ⟨header, accepted⟩, fun _ => noRecord, ?_, ?_⟩
    · rw [noRecord]
      exact Nat.zero_le _
    · intro _
      rw [noRecord, Nat.zero_mul, Nat.add_zero]
      exact length
  · intro rank
    have claimed := sound.claimed rank
    rw [earlier] at claimed
    rw [later]
    by_cases same : rank = after.header.rank
    · subst same
      simp [GatherAggregate.claimRank]
    · simp only [GatherAggregate.claimRank]
      rw [Function.update_of_ne same, claimed]
      simp [same]
  · rw [later, perm_middle.nodup_iff, nodup_cons]
    have distinct := sound.distinct
    rw [earlier] at distinct
    exact ⟨fresh, distinct⟩
  · have same : deliveries (left ++ after :: right) = deliveries (left ++ before :: right) := by
      simp [deliveries, undelivered, beforeUndelivered]
    rw [same]
    exact sound.absorbed
  · intro hook root atHook
    have same : config.contributions (left ++ after :: right) hook =
        config.contributions (left ++ before :: right) hook := by
      simp [contributions, noRecord, beforeSound.unclaimed unclaimed]
    rw [same]
    exact sound.merged hook root atHook

theorem AggregateSound.merge {record merged : SocketRecord}
    (claimed : before.claims) (claims : after.claims = before.claims)
    (delivered : after.delivered = before.delivered) (header : after.header = before.header)
    (received : after.received = before.received)
    (recordIndex : after.recordIndex = before.recordIndex + 1)
    (inRange : before.recordIndex < config.hookCount)
    (complete : headerSize + (before.recordIndex + 1) * recordSize ≤ before.received.length)
    (atIndex : aggregate.records[before.recordIndex]? = some record)
    (accepted : record.merge (config.recordAt before.recordIndex before.received) = some merged) :
    config.AggregateSound (left ++ after :: right)
      (aggregate.setRecord before.recordIndex merged) := by
  have beforeSound := sound.connection before (by simp)
  have sameClaimants :
      claimants (left ++ after :: right) = claimants (left ++ before :: right) := by
    simp only [claimants, select_middle, claims, header]
  have sameDeliveries :
      deliveries (left ++ after :: right) = deliveries (left ++ before :: right) := by
    simp only [deliveries, select_middle, delivered, header]
  refine ⟨forall_middle sound.connection ?_, ?_, ?_, ?_, ?_⟩
  · refine ⟨?_, ?_, ?_, ?_⟩
    · intro afterClaims
      rw [header, received]
      exact beforeSound.header claimed
    · intro unclaimed
      rw [claims, claimed] at unclaimed
      cases unclaimed
    · rw [recordIndex]
      exact inRange
    · intro _
      rw [recordIndex, received]
      exact complete
  · rw [sameClaimants]
    exact sound.claimed
  · rw [sameClaimants]
    exact sound.distinct
  · rw [sameDeliveries]
    exact sound.absorbed
  · intro hook root atHook
    rcases sound.merged hook root atHook with ⟨current, currentAt, folded⟩
    by_cases same : hook = before.recordIndex
    · subst same
      rw [atIndex, Option.some.injEq] at currentAt
      subst currentAt
      have inBounds : before.recordIndex < aggregate.records.length :=
        (List.getElem?_eq_some_iff.mp atIndex).1
      refine ⟨merged, getElem?_set_self inBounds, ?_⟩
      apply SocketRecord.mergeAll_perm (rootRecords_flagged atHook) _
        (mergeAll_append folded accepted)
      have earlier : config.contributions (left ++ before :: right) before.recordIndex =
          config.contributions left before.recordIndex ++
            config.contributions right before.recordIndex := by
        simp [contributions]
      have later : config.contributions (left ++ after :: right) before.recordIndex =
          config.contributions left before.recordIndex ++
            config.recordAt before.recordIndex before.received ::
              config.contributions right before.recordIndex := by
        simp [contributions, recordIndex, received]
      rw [earlier, later]
      exact (perm_append_singleton _ _).trans perm_middle.symm
    · refine ⟨current, ?_, ?_⟩
      · rw [GatherAggregate.setRecord, getElem?_set_ne (Ne.symm same)]
        exact currentAt
      · have unchanged : config.contributions (left ++ after :: right) hook =
            config.contributions (left ++ before :: right) hook := by
          have index : hook < after.recordIndex ↔ hook < before.recordIndex := by
            omega
          simp only [contributions, select_middle, index, received]
        rw [unchanged]
        exact folded

end

end Middle

end GatherConfig

end Peak
