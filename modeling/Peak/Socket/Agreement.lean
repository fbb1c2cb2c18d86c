import Peak.Socket.ReleaseSound

/-!
# Agreement on the release decision

No two peers accept different decisions, and an accepted decision stays. The acknowledgement is only
sent after both writers succeeded for an aggregate with the records of all peers, so that a released
peer has its records in the published report and every other peer writes its own one.
-/

namespace Peak.ReportConfig

open List Option GatherConfig

variable {config : ReportConfig} {system : ReportSystem}

/-- No peer revises its decision. -/
def KeepsDecisions (before after : ReportSystem) : Prop :=
  ∀ rank, (before.peers rank).acceptedDecision ≠ .none →
    (after.peers rank).acceptedDecision = (before.peers rank).acceptedDecision

variable {after : ReportSystem}

theorem KeepsDecisions.of_peers_eq (same : after.peers = system.peers) :
    KeepsDecisions system after := by
  intro rank _
  rw [same]

variable {rank : ℕ} {peer : PeerState}

theorem KeepsDecisions.of_update (updated : after.peers = Function.update system.peers rank peer)
    (kept : (system.peers rank).acceptedDecision ≠ .none →
      peer.acceptedDecision = (system.peers rank).acceptedDecision) :
    KeepsDecisions system after := by
  intro other accepted
  rw [updated]
  by_cases same : other = rank
  · subst same
    rw [Function.update_self]
    exact kept accepted
  · rw [Function.update_of_ne same]

theorem keepsDecisions_peerConnect (stepped : peerConnect system rank = some after) :
    KeepsDecisions system after := by
  simp only [peerConnect] at stepped
  split at stepped
  · cases stepped
    exact .of_update rfl fun _ => rfl
  · cases stepped
    exact .of_update rfl fun _ => rfl
  · cases stepped

theorem keepsDecisions_peerWrite {count : ℕ}
    (stepped : config.peerWrite system rank count = some after) : KeepsDecisions system after := by
  simp only [peerWrite] at stepped
  split at stepped
  any_goals rcases map_eq_some_iff.mp stepped with ⟨_, _, rfl⟩
  · exact .of_update rfl fun _ => rfl
  · exact .of_update rfl fun _ => rfl
  · exact .of_update rfl fun _ => rfl
  · refine .of_update rfl fun _ => ?_
    split <;> rfl
  · cases stepped

variable {bytes : List UInt8}

theorem keepsDecisions_peerRead (stepped : config.peerRead system rank bytes = some after) :
    KeepsDecisions system after := by
  simp only [peerRead] at stepped
  split at stepped
  · rcases ite_none_right_eq_some.mp stepped with ⟨_, ⟨⟩⟩
    refine .of_update rfl fun _ => ?_
    simp only [receiveReceipt]
    split_ifs <;> rfl
  · rcases ite_none_right_eq_some.mp stepped with ⟨_, ⟨⟩⟩
    refine .of_update rfl fun accepted => ?_
    simp only [receiveDecision]
    split_ifs <;> rfl
  · cases stepped

theorem keepsDecisions_peerFailed (stepped : peerFailed system rank = some after) :
    KeepsDecisions system after := by
  cases stage : (system.peers rank).stage with
  | returned => simp [peerFailed, stage] at stepped
  | _ =>
    simp only [peerFailed, stage, some.injEq] at stepped
    subst stepped
    exact .of_update rfl fun _ => rfl

theorem keepsDecisions_step {event : ReportEvent}
    (stepped : config.step system event = some after) : KeepsDecisions system after := by
  cases event with
  | peerConnect =>
    exact keepsDecisions_peerConnect (ite_none_right_eq_some.mp stepped).2
  | peerWrite =>
    exact keepsDecisions_peerWrite (ite_none_right_eq_some.mp stepped).2
  | peerRead =>
    exact keepsDecisions_peerRead (ite_none_right_eq_some.mp stepped).2
  | peerFailed => exact keepsDecisions_peerFailed (ite_none_right_eq_some.mp stepped).2
  | acceptGather _ | gather _ =>
    rcases ite_none_right_eq_some.mp stepped with ⟨_, stepped⟩
    rcases map_eq_some_iff.mp stepped with ⟨_, _, rfl⟩
    exact .of_peers_eq rfl
  | advance _ | acceptRelease _ | rootRead _ | rootWrite _ | rootFailed | rootStopped =>
    apply KeepsDecisions.of_peers_eq
    grind [step, advance, releasePeers, acceptRelease, rootRead, receiveRequest, receiveConfirm,
      rootWrite, rootFailed, rootStopped, ReportSystem.serve, ReportSystem.modifyLink]

theorem mem_peerRanks_iff : rank ∈ config.gather.peerRanks ↔ config.isPeer rank := by
  rw [mem_peerRanks]
  simp [isPeer, Nat.succ_le_iff]

theorem report_length (readsBack : config.ReadsBack) (rank : ℕ) :
    (config.report rank).length = headerSize + (config.records rank).length * recordSize := by
  have sized : ((config.records rank).flatMap config.encodeRecord).length =
      (config.records rank).length * recordSize := by
    induction config.records rank with
    | nil => simp
    | cons _ _ ih =>
      rw [flatMap_cons, length_append, ih, readsBack.recordLength, length_cons,
        Nat.succ_mul, Nat.add_comm]
  rw [report, length_append, readsBack.headerLength, sized]

theorem SessionInvariant.writer (invariant : config.SessionInvariant system)
    (readsBack : config.ReadsBack) (delivered : config.Delivered system.peers bytes)
    (enough : headerSize ≤ bytes.length) :
    ∃ rank, config.isPeer rank ∧ Aligned bytes (config.report rank) ∧
      config.gather.wire.header (bytes.take headerSize) = config.header rank := by
  rcases delivered with none | ⟨rank, isPeer, written⟩
  · rw [none] at enough
    exact absurd enough (by decide)
  · have aligned := (invariant.peer rank).stage.aligned.of_initial written
    refine ⟨rank, isPeer, aligned, ?_⟩
    have reportEnough : headerSize ≤ (config.report rank).length := by
      rw [report_length readsBack]
      exact Nat.le_add_right _ _
    rw [aligned.take_eq enough reportEnough, report, ← readsBack.headerLength (config.header rank),
      take_left]
    exact readsBack.header rank isPeer

theorem recordAt_report (readsBack : config.ReadsBack) (isPeer : config.isPeer rank)
    (aligned : Aligned bytes (config.report rank))
    (enough : (config.report rank).length ≤ bytes.length) {hook : ℕ} {record : SocketRecord}
    (atHook : (config.records rank)[hook]? = some record) :
    config.gather.recordAt hook bytes = record := by
  have inRange := (List.getElem?_eq_some_iff.mp atHook).1
  have fits : headerSize + hook * recordSize + recordSize ≤ (config.report rank).length := by
    rw [report_length readsBack]
    have records := Nat.mul_le_mul_right recordSize (Nat.succ_le_of_lt inRange)
    rw [Nat.succ_mul] at records
    omega
  have same : (bytes.drop (headerSize + hook * recordSize)).take recordSize =
      ((config.report rank).drop (headerSize + hook * recordSize)).take recordSize := by
    rw [take_drop, take_drop, aligned.take_eq (fits.trans enough) fits]
  rw [recordAt, same, report, ← drop_drop,
    ← readsBack.headerLength (config.header rank), drop_left,
    take_drop_flatMap readsBack.recordLength atHook]
  exact readsBack.record rank isPeer record (mem_of_getElem? atHook)

variable (config) in
/-- Every record of every peer is in the aggregate. -/
def Complete (gather : Gather) : Prop :=
  (∀ rank, config.isPeer rank → (config.records rank).length = config.gather.hookCount) ∧
  ∀ (hook : ℕ) (root : SocketRecord), config.gather.rootRecords[hook]? = some root →
    ∀ order : List ℕ, order.Perm config.gather.peerRanks →
      root.mergeAll (order.filterMap fun rank => (config.records rank)[hook]?) =
        gather.aggregate.records[hook]?

theorem hookCount_of_headerAccepted
    (accepted : config.gather.headerAccepted (config.header rank)) :
    (config.records rank).length = config.gather.hookCount := by
  simp only [headerAccepted, Bool.and_eq_true, Bool.not_eq_true',
    Bool.or_eq_false_iff] at accepted
  rcases accepted with ⟨⟨⟨⟨⟨_, hooks⟩, _⟩, _⟩, _⟩, _⟩
  rw [records, length_map]
  exact not_not.mp (of_decide_eq_false hooks)

theorem SessionInvariant.complete (invariant : config.SessionInvariant system)
    (readsBack : config.ReadsBack)
    (success : config.gather.succeeded system.gather) : config.Complete system.gather := by
  rcases invariant.gather with ⟨history, reached, delivered⟩
  rcases (gatherInvariant_reached reached).delivers success with
    ⟨_, connectionOf, accepted, folded⟩
  -- the connection of a rank holds the report of that rank
  have reported : ∀ rank ∈ config.gather.peerRanks,
      Aligned (stream history (connectionOf rank)) (config.report rank) ∧
        (config.records rank).length = config.gather.hookCount ∧
        (config.report rank).length ≤ (stream history (connectionOf rank)).length := by
    intro rank rankMem
    rcases accepted rank rankMem with ⟨rankEq, headerAccepted, enough⟩
    rcases invariant.writer readsBack (delivered (connectionOf rank)) (by omega) with
      ⟨writer, _, aligned, headerEq⟩
    rw [headerOf, headerEq] at rankEq headerAccepted
    change writer = rank at rankEq
    subst rankEq
    have hooks := hookCount_of_headerAccepted headerAccepted
    refine ⟨aligned, hooks, ?_⟩
    rw [report_length readsBack, hooks]
    exact enough
  refine ⟨fun rank isPeer => (reported rank (mem_peerRanks_iff.mpr isPeer)).2.1, ?_⟩
  intro hook root atHook order isOrder
  have inRange : hook < config.gather.hookCount := by
    have bound := (List.getElem?_eq_some_iff.mp atHook).1
    simpa [rootRecords, hookCount] using bound
  rw [← folded hook root atHook order isOrder]
  congr 1
  rw [filterMap_eq_map_iff_forall_eq_some]
  intro rank rankMem
  have rankMem := isOrder.mem_iff.mp rankMem
  rcases reported rank rankMem with ⟨aligned, _, enough⟩
  have atRank : (config.records rank)[hook]? = some ((config.records rank).get ⟨hook, by omega⟩) :=
    getElem?_eq_getElem _
  rw [atRank, recordAt_report readsBack (mem_peerRanks_iff.mp rankMem) aligned enough atRank]

theorem PeerSound.status_eq {release : FrameDecision} {status : PeerStatus}
    (sound : config.PeerSound rank release peer) (returned : peer.stage = .returned status) :
    status = (releaseResult peer.acceptedDecision).status := by
  have stageSound := sound.stage
  simp only [StageSound, returned] at stageSound
  exact stageSound.2

theorem accepted_of_released {decision : FrameDecision}
    (released : PeerStatus.released = (releaseResult decision).status) :
    decision = .releaseAck := by
  cases decision with
  | releaseAck => rfl
  | none | registered | releaseFallback | other _ => cases released

theorem SessionInvariant.release_of_released (invariant : config.SessionInvariant system)
    (released : (system.peers rank).stage = .returned .released) :
    system.release = .releaseAck := by
  have sound := invariant.peer rank
  have acknowledged := accepted_of_released (sound.status_eq released)
  rcases sound.accepted with nothing | same
  · rw [acknowledged] at nothing
    cases nothing
  · exact same.symm.trans acknowledged

theorem SessionInvariant.published (invariant : config.SessionInvariant system)
    (decided : system.committed ∨ system.release = .releaseAck) :
    config.Published system := by
  rcases invariant.undecided_or_decided with undecided | published | fellBack
  · simp [undecided.1, undecided.2] at decided
  · exact published
  · simp [fellBack.1, fellBack.2] at decided

theorem keepsDecisions_run {history later : List ReportEvent} {final : ReportSystem}
    (reached : config.Reached history system)
    (longer : config.Reached (history ++ later) final) : KeepsDecisions system final := by
  refine Runs.persists ?_ ?_ reached longer ?_
  · intro before event after other stepped again
    exact some.inj (stepped.symm.trans again)
  · intro _ before event after _ kept stepped rank accepted
    have stillAccepted : (before.peers rank).acceptedDecision ≠ .none := by
      rw [kept rank accepted]
      exact accepted
    exact (keepsDecisions_step stepped rank stillAccepted).trans (kept rank accepted)
  · intro rank _
    rfl

/-- A process whose socket report has succeeded belongs to a session that was committed. -/
theorem SessionInvariant.committed_of_runSocketReport (invariant : config.SessionInvariant system)
    (succeeded : system.runSocketReport rank = some true) : system.committed := by
  simp only [ReportSystem.runSocketReport] at succeeded
  split at succeeded
  · split at succeeded
    next finished =>
      have root := invariant.root
      simp only [RootSound, finished] at root
      exact root.1 (some.inj succeeded)
    · cases succeeded
  · split at succeeded
    next returned =>
      rw [of_decide_eq_true (some.inj succeeded)] at returned
      exact (invariant.published (.inr (invariant.release_of_released returned))).1
    · cases succeeded

/-- A released peer follows the commit of the root, which has written a complete aggregate. All
accepted decisions are the same and final, and after the fallback of the root no peer is released.
With the fallback to local output a report is in the published aggregate, or its rank writes it. -/
theorem report_agreement (config : ReportConfig) (readsBack : config.ReadsBack)
    {history : List ReportEvent} {system : ReportSystem}
    (reached : config.Reached history system) :
    (∀ rank, (system.peers rank).stage = .returned .released → system.committed = true) ∧
    (system.committed = true →
      system.csv = true ∧ system.text = true ∧
        config.gather.succeeded system.gather = true ∧ config.Complete system.gather) ∧
    (∀ first second, (system.peers first).acceptedDecision ≠ .none →
      (system.peers second).acceptedDecision ≠ .none →
      (system.peers first).acceptedDecision = (system.peers second).acceptedDecision) ∧
    (∀ (later : List ReportEvent) (final : ReportSystem),
      config.Reached (history ++ later) final →
      ∀ rank, (system.peers rank).acceptedDecision ≠ .none →
        (final.peers rank).acceptedDecision = (system.peers rank).acceptedDecision ∧
        ∀ status, (final.peers rank).stage = .returned status →
          status = (releaseResult (system.peers rank).acceptedDecision).status) ∧
    (system.release = .releaseFallback →
      ∀ rank, (system.peers rank).stage ≠ .returned .released) ∧
    (∀ rank writeSucceeded, system.runSocketReport rank = some writeSucceeded →
      ∀ (caller : SocketCaller) fallback, socketReduceFallbackEnabled fallback = true →
        caller.output fallback writeSucceeded = .rankLocal ∨
          system.csv = true ∧ system.text = true ∧ config.Complete system.gather) := by
  have invariant := sessionInvariant_reached readsBack reached
  have published : system.committed = true → system.csv = true ∧ system.text = true ∧
      config.gather.succeeded system.gather = true ∧ config.Complete system.gather := by
    intro committed
    rcases invariant.published (.inl committed) with ⟨_, _, csv, text, succeeded⟩
    exact ⟨csv, text, succeeded, invariant.complete readsBack succeeded⟩
  refine ⟨?_, published, ?_, ?_, ?_, ?_⟩
  · intro rank released
    exact (invariant.published (.inr (invariant.release_of_released released))).1
  · intro first second firstAccepted secondAccepted
    have firstDecision := (invariant.peer first).accepted.resolve_left firstAccepted
    have secondDecision := (invariant.peer second).accepted.resolve_left secondAccepted
    exact firstDecision.trans secondDecision.symm
  · intro later final longer rank accepted
    have kept := keepsDecisions_run reached longer rank accepted
    refine ⟨kept, ?_⟩
    intro status returned
    rw [← kept]
    exact ((sessionInvariant_reached readsBack longer).peer rank).status_eq returned
  · intro fellBack rank released
    have acknowledged := invariant.release_of_released released
    rw [fellBack] at acknowledged
    cases acknowledged
  · intro rank writeSucceeded returned caller fallback enabled
    cases writeSucceeded with
    | true =>
      rcases published (invariant.committed_of_runSocketReport returned) with
        ⟨csv, text, _, complete⟩
      exact .inr ⟨csv, text, complete⟩
    | false => cases caller <;> simp [SocketCaller.output, enabled]

def typeCode : FrameType → UInt8
  | .gatherReceipt => 0
  | .gatherReceiptConfirm => 1
  | .releaseRequest => 2
  | .releaseDecision => 3
  | .releaseConfirm => 4
  | .other _ => 5

def decisionCode : FrameDecision → UInt8
  | .none => 0
  | .registered => 1
  | .releaseAck => 2
  | .releaseFallback => 3
  | .other _ => 4

/-- A root and two peers, of which the first has three calls to report and the second none. -/
def threeParties : ReportConfig where
  gather := threeRanks
  peer := fun rank => ⟨[(7, callsReport (if rank = 1 then 3 else 0))], 1, true⟩
  encodeHeader := fun header => header.rank.toUInt8 :: replicate 271 0
  encodeRecord := fun record => record.numCalls.toUInt8 :: replicate 79 0
  encodeFrame := fun frame =>
    typeCode frame.type :: decisionCode frame.decision :: frame.rank.toUInt8 :: replicate 37 0

theorem threeParties_isPeer (isPeer : threeParties.isPeer rank) : rank = 1 ∨ rank = 2 := by
  simp only [ReportConfig.isPeer, Bool.and_eq_true, decide_eq_true_eq] at isPeer
  change 0 < rank ∧ rank < 3 at isPeer
  omega

theorem threeParties_readsBack : threeParties.ReadsBack where
  headerLength := fun _ => congrArg (· + 1) length_replicate
  recordLength := fun _ => congrArg (· + 1) length_replicate
  frameLength := fun _ => rfl
  header := by
    intro rank isPeer
    rcases threeParties_isPeer isPeer with rfl | rfl <;> rfl
  record := by
    intro rank isPeer record recordMem
    rw [mem_singleton.mp recordMem]
    rcases threeParties_isPeer isPeer with rfl | rfl <;> decide +kernel
  frame := by
    intro frame ofSession
    have types : codeType (typeCode frame.type) = frame.type := by
      cases known : frame.type with
      | other code => exact absurd known (ofSession.type code)
      | _ => rfl
    have decisions : codeDecision (decisionCode frame.decision) = frame.decision := by
      cases known : frame.decision with
      | other code => exact absurd known (ofSession.decision code)
      | _ => rfl
    have ranks : frame.rank.toUInt8.toNat = frame.rank := by
      rcases threeParties_isPeer ofSession.rank with same | same <;> rw [same] <;> rfl
    rcases ofSession with ⟨magic, version, _, hookCount, sessionToken, _, _⟩
    rcases frame with ⟨_, _, _, _, _, _, _⟩
    subst magic version hookCount sessionToken
    exact (SocketFrame.mk.injEq ..).mpr ⟨rfl, rfl, ranks, rfl, rfl, types, decisions⟩

def frameBytes (rank : ℕ) (type : FrameType) (decision : FrameDecision) : List UInt8 :=
  threeParties.encodeFrame ⟨socketMagic, socketVersion, rank, 1, 9, type, decision⟩

/-- The frame is read in two pieces. -/
def handshake (rank link : ℕ) : List ReportEvent :=
  [.peerConnect rank, .acceptRelease link, .peerWrite rank 40,
    .rootRead (frameBytes rank .releaseRequest .none), .rootWrite 15, .rootWrite 25,
    .peerRead rank ((frameBytes rank .releaseDecision .releaseAck).take 1),
    .peerRead rank ((frameBytes rank .releaseDecision .releaseAck).drop 1)]

def confirmed (rank : ℕ) : List ReportEvent :=
  [.peerWrite rank 40, .rootRead (frameBytes rank .releaseConfirm .releaseAck)]

/-- The peers send their reports by turns. The first one loses the confirmation of the decision, and
repeats its handshake after the other peer. -/
def threePartiesRun : List ReportEvent :=
  [.advance true, .peerConnect 1, .peerConnect 2, .acceptGather (some 2), .acceptGather (some 1),
    .peerWrite 1 300, .peerWrite 2 352, .gather (.received 0 (2 :: replicate 271 0)),
    .gather (.received 1 (1 :: replicate 271 0)), .peerWrite 1 52,
    .gather (.received 1 (3 :: replicate 79 0)), .gather (.received 0 (replicate 80 0)),
    .gather (.sent 0 40), .gather (.sent 1 40)] ++
  ([1, 2].flatMap fun rank =>
    [.peerRead rank (frameBytes rank .gatherReceipt .registered), .peerWrite rank 40,
      .gather (.received (2 - rank) (frameBytes rank .gatherReceiptConfirm .registered))]) ++
  [.advance true, .advance true, .advance true, .advance true, .advance true] ++
  handshake 1 0 ++ [.peerFailed 1, .rootFailed] ++ handshake 2 1 ++ confirmed 2 ++
  handshake 1 2 ++ confirmed 1 ++ [.rootStopped]

theorem report_agreement_three_parties :
    ∃ system, threeParties.Reached threePartiesRun system ∧
      [0, 1, 2].map system.runSocketReport = [some true, some true, some true] ∧
      system.committed = true ∧ threeParties.Complete system.gather := by
  have runs : ((threePartiesRun.foldlM threeParties.step threeParties.initial).map fun system =>
      decide ((system.peers 1).stage = .returned .released ∧
        [0, 1, 2].map system.runSocketReport = [some true, some true, some true])) = some true := by
    decide +kernel
  rcases map_eq_some_iff.mp runs with ⟨system, folded, outcome⟩
  rcases of_decide_eq_true outcome with ⟨released, returned⟩
  have reached : threeParties.Reached threePartiesRun system := Runs.of_foldlM folded
  rcases report_agreement threeParties threeParties_readsBack reached with
    ⟨committedOf, completeOf, _⟩
  have committed := committedOf 1 released
  exact ⟨system, reached, returned, committed, (completeOf committed).2.2.2⟩

/-- Without the fallback, a session that fails at its start leaves no report at all. -/
theorem report_dropped_without_fallback :
    ∃ system, threeParties.Reached [.advance false, .peerFailed 1, .peerFailed 2] system ∧
      system.csv = false ∧ system.text = false ∧
      [0, 1, 2].map system.runSocketReport = [some false, some false, some false] ∧
      SocketCaller.aggregation.output (some "0".toList) false = .dropped :=
  ⟨_, Runs.of_foldlM rfl, rfl, rfl, rfl, by decide⟩

end Peak.ReportConfig
