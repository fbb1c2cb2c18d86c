import Peak.Common.Transfer
import Peak.Socket.GatherRun
import Peak.Socket.Release

/-!
# The invariant of the session

The root calls `release_peers` once. All its answers carry the decision of that
call, and a peer reads nothing else from a release connection. What the gather
reads from a connection was written by one peer, which begins with its report.
-/

namespace Peak.ReportConfig

open List GatherConfig

variable (config : ReportConfig)

/-- What is known of a peer at a stage. -/
def StageSound (rank : ℕ) (peer : PeerState) : Prop :=
  match peer.stage with
  | .connecting => peer.sent = [] ∧ peer.acceptedDecision = .none
  | .sendingReport written =>
    peer.sent = (config.report rank).take written ∧ peer.acceptedDecision = .none
  | .receivingReceipt _ | .confirmingReceipt _ _ =>
    config.report rank <+: peer.sent ∧ peer.acceptedDecision = .none
  | .waiting | .sendingRequest _ _ | .receivingDecision _ _ | .confirmingDecision _ _ _ =>
    Aligned peer.sent (config.report rank)
  | .returned status =>
    Aligned peer.sent (config.report rank) ∧ status = (releaseResult peer.acceptedDecision).status

/-- A peer accepts only the decision of the root. -/
structure PeerSound (rank : ℕ) (release : FrameDecision) (peer : PeerState) : Prop where
  stage : config.StageSound rank peer
  accepted : peer.acceptedDecision = .none ∨ peer.acceptedDecision = release

/-- The root has not decided yet. -/
def Undecided (system : ReportSystem) : Prop :=
  system.committed = false ∧ system.release = .none

/-- The report is written and acknowledged. -/
def Published (system : ReportSystem) : Prop :=
  system.committed = true ∧ system.release = .releaseAck ∧ system.csv ∧
    system.text ∧ config.gather.succeeded system.gather

/-- The root has told the peers to fall back. -/
def FellBack (system : ReportSystem) : Prop :=
  system.committed = false ∧ system.release = .releaseFallback

/-- What is decided and written at each stage. -/
def RootSound (system : ReportSystem) : Prop :=
  match system.root with
  | .starting | .gathering => Undecided system
  | .gathered | .prepared =>
    Undecided system ∧ config.gather.succeeded system.gather
  | .csvWritten =>
    Undecided system ∧ config.gather.succeeded system.gather ∧ system.csv
  | .textWritten =>
    Undecided system ∧ config.gather.succeeded system.gather ∧ system.csv ∧
      system.text
  | .releasing _ => config.Published system ∨ FellBack system
  | .finished result => (result = true → system.committed) ∧
    (Undecided system ∨ config.Published system ∨ FellBack system)

/-- The bytes are from the report of one peer. -/
def Delivered (peers : ℕ → PeerState) (bytes : List UInt8) : Prop :=
  bytes = [] ∨ ∃ rank, config.isPeer rank ∧ bytes <+: (peers rank).sent

/-- A link carries nothing but the decision. -/
def LinkSound (release : FrameDecision) (link : ReleaseLink) : Prop :=
  ∀ frame, link.decision = some frame →
    config.OfSession frame ∧ frame.decision = release ∧ release ≠ .none

/-- The invariant of a session. -/
structure SessionInvariant (system : ReportSystem) : Prop where
  peer : ∀ rank, config.PeerSound rank system.release (system.peers rank)
  links : ∀ link ∈ system.links, config.LinkSound system.release link
  root : config.RootSound system
  owners : ∀ rank, some rank ∈ system.owners → config.isPeer rank
  gather : ∃ history, config.gather.Reached history system.gather ∧
    ∀ id, config.Delivered system.peers (stream history id)

variable {config} {system : ReportSystem}

theorem sessionInvariant_initial : config.SessionInvariant config.initial where
  peer := fun _ => ⟨⟨rfl, rfl⟩, .inl rfl⟩
  links := nofun
  root := ⟨rfl, rfl⟩
  owners := nofun
  gather := ⟨[], .start, fun _ => .inl rfl⟩

variable {rank : ℕ} {peer : PeerState}

theorem StageSound.aligned (sound : config.StageSound rank peer) :
    Aligned peer.sent (config.report rank) := by
  unfold StageSound at sound
  split at sound
  · exact .inl (sound.1 ▸ nil_prefix)
  · exact .inl (sound.1 ▸ take_prefix _ _)
  · exact .inr sound.1
  · exact .inr sound.1
  · exact sound
  · exact sound
  · exact sound
  · exact sound
  · exact sound.1

variable {release : FrameDecision}

theorem PeerSound.conclude (sound : config.PeerSound rank release peer) :
    config.PeerSound rank release peer.conclude :=
  ⟨⟨sound.stage.aligned, rfl⟩, sound.accepted⟩

theorem PeerSound.wait (sound : config.PeerSound rank release peer) :
    config.PeerSound rank release (peer.enter .waiting) :=
  ⟨sound.stage.aligned, sound.accepted⟩

variable {bytes received : List UInt8} {count : ℕ} {after : ReportSystem}

theorem piece_eq_some {out : List UInt8} {written : ℕ}
    (piece : piece bytes written count = some out) :
    written + count ≤ bytes.length ∧ out = (bytes.drop written).take count := by
  simp only [ReportConfig.piece, Option.ite_none_right_eq_some, Option.some.injEq] at piece
  exact ⟨piece.1.2, piece.2.symm⟩

theorem reads_complete {written frame : List UInt8} (reads : reads written received bytes)
    (complete : (received ++ bytes).length = frameSize) (writtenEq : written = frame.take count)
    (frameLength : frame.length = frameSize) : received ++ bytes = frame := by
  simp only [ReportConfig.reads, Bool.and_eq_true, isPrefixOf_iff_prefix] at reads
  have initial : received ++ bytes <+: frame :=
    reads.2.trans (writtenEq ▸ take_prefix _ _)
  exact initial.eq_of_length (complete.trans frameLength.symm)

theorem PeerSound.receiveReceipt (sound : config.PeerSound rank release peer)
    (sent : config.report rank <+: peer.sent) (nothing : peer.acceptedDecision = .none)
    (received : List UInt8) :
    config.PeerSound rank release (config.receiveReceipt rank peer received) := by
  simp only [ReportConfig.receiveReceipt]
  split
  · split
    · exact ⟨⟨sent, nothing⟩, sound.accepted⟩
    · refine ⟨⟨.inr sent, ?_⟩, sound.accepted⟩
      change PeerStatus.failed = (releaseResult peer.acceptedDecision).status
      rw [nothing]
      rfl
  · exact ⟨⟨sent, nothing⟩, sound.accepted⟩

theorem PeerSound.receiveDecision {link : ℕ} (sound : config.PeerSound rank release peer)
    (fromRoot : received.length = frameSize →
      (config.gather.wire.frame received).decision = release) :
    config.PeerSound rank release (config.receiveDecision rank peer link received) := by
  have aligned := sound.stage.aligned
  simp only [ReportConfig.receiveDecision]
  split
  next complete =>
    split
    · split
      · exact ⟨aligned, .inr (fromRoot complete)⟩
      · split
        · exact sound.conclude
        · exact ⟨aligned, sound.accepted⟩
    · exact sound.wait
  · exact ⟨aligned, sound.accepted⟩

theorem rootSound_releasePeers {decision : FrameDecision}
    (decided : config.Published (config.releasePeers system decision) ∨
      FellBack (config.releasePeers system decision)) :
    config.RootSound (config.releasePeers system decision) := by
  by_cases noTargets : (config.targets system).length = 0
  · have root : (config.releasePeers system decision).root = .finished system.committed :=
      if_pos noTargets
    simp only [RootSound, root]
    exact ⟨id, .inr decided⟩
  · have root : (config.releasePeers system decision).root = .releasing .polling :=
      if_neg noTargets
    simp only [RootSound, root]
    exact decided

section

variable (decided : config.Published system ∨ FellBack system)

include decided

theorem release_ne_none : system.release = .releaseAck ∨ system.release = .releaseFallback := by
  rcases decided with published | fellBack
  · exact .inl published.2.1
  · exact .inr fellBack.2

theorem ofSession_of_frameValid {type : FrameType} {decision : FrameDecision}
    {frame : SocketFrame} (valid : config.frameValid system type decision frame) :
    config.OfSession { frame with type := .releaseDecision, decision := system.release } := by
  simp only [frameValid, Bool.and_eq_true, decide_eq_true_eq] at valid
  rcases valid with ⟨⟨⟨⟨⟨⟨⟨magic, version⟩, sessionToken⟩, hookCount⟩, rank⟩, _⟩, _⟩, _⟩
  refine ⟨magic, version, ?_, hookCount, sessionToken, nofun, ?_⟩
  · simp [isPeer, rank]
  · intro code
    rcases release_ne_none decided with ack | fallback
    · simp [ack]
    · simp [fallback]

end

namespace SessionInvariant

variable (invariant : config.SessionInvariant system)

include invariant

theorem setPeer (sound : config.PeerSound rank system.release peer)
    (grown : (system.peers rank).sent <+: peer.sent) :
    config.SessionInvariant (system.setPeer rank peer) := by
  refine ⟨?_, invariant.links, invariant.root, invariant.owners, ?_⟩
  · exact (Function.forall_update_iff _ _).mpr ⟨sound, fun other _ => invariant.peer other⟩
  · rcases invariant.gather with ⟨history, reached, delivered⟩
    refine ⟨history, reached, ?_⟩
    intro id
    rcases delivered id with none | ⟨owner, isPeer, written⟩
    · exact .inl none
    · refine .inr ⟨owner, isPeer, ?_⟩
      simp only [ReportSystem.setPeer]
      by_cases same : owner = rank
      · subst same
        rw [Function.update_self]
        exact written.trans grown
      · rw [Function.update_of_ne same]
        exact written

theorem setLinks
    {links : List ReleaseLink} (sound : ∀ link ∈ links, config.LinkSound system.release link) :
    config.SessionInvariant { system with links := links } :=
  ⟨invariant.peer, sound, invariant.root, invariant.owners, invariant.gather⟩

theorem modifyLink (id : ℕ)
    (change : ReleaseLink → ReleaseLink)
    (sound : ∀ link, config.LinkSound system.release link →
      config.LinkSound system.release (change link)) :
    config.SessionInvariant (system.modifyLink id change) := by
  apply invariant.setLinks
  intro link linkMem
  rcases getElem?_of_mem linkMem with ⟨_, atIndex⟩
  rw [getElem?_modify, Option.map_eq_map, Option.map_eq_some_iff] at atIndex
  rcases atIndex with ⟨old, oldAt, rfl⟩
  have oldSound := invariant.links old (mem_of_getElem? oldAt)
  split
  · exact sound old oldSound
  · exact oldSound

theorem peerConnect
    (stepped : peerConnect system rank = some after) : config.SessionInvariant after := by
  have sound := invariant.peer rank
  have stageSound := sound.stage
  simp only [ReportConfig.peerConnect] at stepped
  cases stage : (system.peers rank).stage with
  | connecting =>
    simp only [stage, Option.some.injEq] at stepped
    subst stepped
    simp only [StageSound, stage] at stageSound
    refine invariant.setPeer ⟨⟨?_, stageSound.2⟩, sound.accepted⟩ (prefix_refl _)
    exact stageSound.1
  | waiting =>
    simp only [stage, Option.some.injEq] at stepped
    subst stepped
    have requesting : config.PeerSound rank system.release
        ((system.peers rank).enter (.sendingRequest system.links.length 0)) :=
      ⟨stageSound.aligned, sound.accepted⟩
    apply (invariant.setPeer requesting (prefix_refl _)).setLinks
    exact forall_mem_append.mpr ⟨invariant.links, forall_mem_singleton.mpr nofun⟩
  | _ => simp [stage] at stepped

theorem peerWrite (stepped : config.peerWrite system rank count = some after) :
    config.SessionInvariant after := by
  have sound := invariant.peer rank
  have stageSound := sound.stage
  have aligned := sound.stage.aligned
  simp only [ReportConfig.peerWrite] at stepped
  cases stage : (system.peers rank).stage with
  | sendingReport written =>
    simp only [stage, Option.map_eq_some_iff] at stepped
    rcases stepped with ⟨_, isPiece, rfl⟩
    rcases piece_eq_some isPiece with ⟨_, rfl⟩
    simp only [StageSound, stage] at stageSound
    rcases stageSound with ⟨sentEq, nothing⟩
    refine invariant.setPeer ⟨?_, sound.accepted⟩ (prefix_append _ _)
    have sent : (system.peers rank).sent ++ ((config.report rank).drop written).take count =
        (config.report rank).take (written + count) := by
      rw [sentEq, ← take_add]
    split
    next complete =>
      refine ⟨?_, nothing⟩
      change config.report rank <+: _ ++ _
      rw [sent, complete, take_length]
    · exact ⟨sent, nothing⟩
  | confirmingReceipt =>
    simp only [stage, Option.map_eq_some_iff] at stepped
    rcases stepped with ⟨bytes, _, rfl⟩
    simp only [StageSound, stage] at stageSound
    refine invariant.setPeer ⟨?_, sound.accepted⟩ (prefix_append _ _)
    have whole := stageSound.1.trans (prefix_append _ bytes)
    split
    · exact .inr whole
    · exact ⟨whole, stageSound.2⟩
  | sendingRequest link =>
    simp only [stage, Option.map_eq_some_iff] at stepped
    rcases stepped with ⟨bytes, _, rfl⟩
    have sentOn := invariant.modifyLink link (·.send bytes) fun _ sound => sound
    refine sentOn.setPeer ⟨?_, sound.accepted⟩ (prefix_refl _)
    split <;> exact aligned
  | confirmingDecision link =>
    simp only [stage, Option.map_eq_some_iff] at stepped
    rcases stepped with ⟨bytes, _, rfl⟩
    have sentOn := invariant.modifyLink link (·.send bytes) fun _ sound => sound
    split
    · exact sentOn.setPeer sound.conclude (prefix_refl _)
    · exact sentOn.setPeer ⟨aligned, sound.accepted⟩ (prefix_refl _)
  | _ => simp [stage] at stepped

theorem peerFailed
    (stepped : peerFailed system rank = some after) : config.SessionInvariant after := by
  have sound := invariant.peer rank
  have stageSound := sound.stage
  simp only [ReportConfig.peerFailed] at stepped
  cases stage : (system.peers rank).stage with
  | connecting | sendingReport _ | receivingReceipt _ =>
    simp only [stage, Option.some.injEq] at stepped
    subst stepped
    simp only [StageSound, stage] at stageSound
    refine invariant.setPeer ⟨⟨sound.stage.aligned, ?_⟩, sound.accepted⟩ (prefix_refl _)
    change PeerStatus.failed = (releaseResult (system.peers rank).acceptedDecision).status
    rw [stageSound.2]
    rfl
  | confirmingReceipt _ _ | sendingRequest _ _ | receivingDecision _ _
  | confirmingDecision =>
    simp only [stage, Option.some.injEq] at stepped
    subst stepped
    exact invariant.setPeer sound.wait (prefix_refl _)
  | waiting =>
    simp only [stage, Option.some.injEq] at stepped
    subst stepped
    exact invariant.setPeer sound.conclude (prefix_refl _)
  | returned => simp [stage] at stepped

theorem decision_read (readsBack : config.ReadsBack) {id : ℕ}
    (isRead : reads (config.decisionFor system id) received bytes)
    (complete : (received ++ bytes).length = frameSize) :
    (config.gather.wire.frame (received ++ bytes)).decision = system.release := by
  cases answer : (system.links[id]?).bind fun link => link.decision.map (·, link.written) with
  | none =>
    simp only [decisionFor, answer, reads, Bool.and_eq_true,
      isPrefixOf_iff_prefix, prefix_nil] at isRead
    rw [isRead.2] at complete
    cases complete
  | some decided =>
    have written : config.decisionFor system id =
        (config.encodeFrame decided.1).take decided.2 := by
      rw [decisionFor, answer]
    rw [reads_complete isRead complete written (readsBack.frameLength _)]
    rcases Option.bind_eq_some_iff.mp answer with ⟨link, atId, answered⟩
    rcases Option.map_eq_some_iff.mp answered with ⟨frame, frameEq, rfl⟩
    rcases invariant.links link (mem_of_getElem? atId) frame frameEq with
      ⟨ofSession, decision, _⟩
    rw [readsBack.frame frame ofSession]
    exact decision

theorem peerRead
    (readsBack : config.ReadsBack) (stepped : config.peerRead system rank bytes = some after) :
    config.SessionInvariant after := by
  have sound := invariant.peer rank
  have stageSound := sound.stage
  simp only [ReportConfig.peerRead] at stepped
  cases stage : (system.peers rank).stage with
  | receivingReceipt =>
    simp only [stage, Option.ite_none_right_eq_some, Option.some.injEq] at stepped
    rcases stepped with ⟨_, rfl⟩
    simp only [StageSound, stage] at stageSound
    apply invariant.setPeer
    · exact sound.receiveReceipt stageSound.1 stageSound.2 _
    · simp only [receiveReceipt]
      split_ifs <;> exact prefix_rfl
  | receivingDecision =>
    simp only [stage, Option.ite_none_right_eq_some, Option.some.injEq] at stepped
    rcases stepped with ⟨isRead, rfl⟩
    apply invariant.setPeer
    · exact sound.receiveDecision fun complete => invariant.decision_read readsBack isRead complete
    · simp only [receiveDecision]
      split_ifs <;> exact prefix_rfl
  | _ => simp [stage] at stepped

theorem setRoot (release : system.release = .none ∨ after.release = system.release)
    (root : config.RootSound after) (peersEq : after.peers = system.peers := by rfl)
    (linksEq : after.links = system.links := by rfl)
    (ownersEq : after.owners = system.owners := by rfl)
    (gatherEq : after.gather = system.gather := by rfl) : config.SessionInvariant after := by
  refine ⟨?_, ?_, root, ownersEq ▸ invariant.owners, ?_⟩
  · intro rank
    rw [peersEq]
    have sound := invariant.peer rank
    refine ⟨sound.stage, ?_⟩
    rcases release with undecided | same
    · have accepted := sound.accepted
      rw [undecided, or_self] at accepted
      exact .inl accepted
    · rw [same]
      exact sound.accepted
  · intro link linkMem
    rw [linksEq] at linkMem
    have sound := invariant.links link linkMem
    rcases release with undecided | same
    · intro frame decided
      exact absurd undecided (sound frame decided).2.2
    · rw [same]
      exact sound
  · rw [peersEq, gatherEq]
    exact invariant.gather

theorem undecided_or_decided :
    Undecided system ∨ config.Published system ∨ FellBack system := by
  have root := invariant.root
  cases stage : system.root with
  | starting | gathering =>
    simp only [RootSound, stage] at root
    exact .inl root
  | gathered | prepared | csvWritten | textWritten =>
    simp only [RootSound, stage] at root
    exact .inl root.1
  | releasing =>
    simp only [RootSound, stage] at root
    exact .inr root
  | finished =>
    simp only [RootSound, stage] at root
    exact root.2

theorem fallBack (undecided : Undecided system) :
    config.SessionInvariant (config.releasePeers system .releaseFallback) :=
  invariant.setRoot (.inl undecided.2) (rootSound_releasePeers (.inr ⟨undecided.1, rfl⟩))

theorem advance {success : Bool}
    (stepped : config.advance system success = some after) : config.SessionInvariant after := by
  have root := invariant.root
  simp only [ReportConfig.advance] at stepped
  cases stage : system.root with
  | starting =>
    simp only [stage, Option.some.injEq] at stepped
    subst stepped
    simp only [RootSound, stage] at root
    refine invariant.setRoot (.inr rfl) ?_
    cases success with
    | true => exact root
    | false => exact ⟨nofun, .inl root⟩
  | gathering =>
    simp only [stage, Option.ite_none_right_eq_some] at stepped
    rcases stepped with ⟨_, stepped⟩
    simp only [RootSound, stage] at root
    split at stepped
    next succeeded =>
      cases stepped
      exact invariant.setRoot (.inr rfl) ⟨root, succeeded⟩
    · cases stepped
      exact invariant.fallBack root
  | gathered | prepared | csvWritten =>
    simp only [stage] at stepped
    simp only [RootSound, stage] at root
    split at stepped
    · cases stepped
      refine invariant.setRoot (.inr rfl) ?_
      first
      | exact root
      | exact ⟨root.1, root.2, rfl⟩
      | exact ⟨root.1, root.2.1, root.2.2, rfl⟩
    · cases stepped
      exact invariant.fallBack root.1
  | textWritten =>
    simp only [stage, Option.some.injEq] at stepped
    subst stepped
    simp only [RootSound, stage] at root
    rcases root with ⟨undecided, succeeded, csv, text⟩
    exact invariant.setRoot (.inl undecided.2)
      (rootSound_releasePeers (.inl ⟨rfl, rfl, csv, text, succeeded⟩))
  | releasing _ | finished _ => simp [stage] at stepped

theorem decided
    {server : ReleaseServer} (releasing : system.root = .releasing server) :
    config.Published system ∨ FellBack system := by
  have root := invariant.root
  simpa only [RootSound, releasing] using root

theorem serve
    (decided : config.Published system ∨ FellBack system) (server : ReleaseServer) :
    config.SessionInvariant (system.serve server) :=
  invariant.setRoot (.inr rfl) decided

theorem acceptRelease {id : ℕ}
    (stepped : acceptRelease system id = some after) : config.SessionInvariant after := by
  simp only [ReportConfig.acceptRelease] at stepped
  split at stepped
  next releasing _ =>
    simp only [Option.ite_none_right_eq_some, Option.some.injEq] at stepped
    rcases stepped with ⟨_, rfl⟩
    have accepted := invariant.modifyLink id ({ · with accepted := true }) fun _ sound => sound
    exact accepted.serve (invariant.decided releasing) _
  · cases stepped

theorem receiveRequest
    (decided : config.Published system ∨ FellBack system) (id : ℕ) (received : List UInt8) :
    config.SessionInvariant (config.receiveRequest system id received) := by
  simp only [ReportConfig.receiveRequest]
  split
  · split
    next valid =>
      have answered := invariant.modifyLink id (fun link =>
        { link with
          decision := some { config.gather.wire.frame received with
            type := .releaseDecision, decision := system.release }
          written := 0 }) (by
        intro link _ frame isAnswer
        cases isAnswer
        refine ⟨ofSession_of_frameValid decided valid, rfl, ?_⟩
        rcases release_ne_none decided with ack | fallback
        · simp [ack]
        · simp [fallback])
      exact answered.serve decided _
    · exact invariant.serve decided _
  · exact invariant.serve decided _

theorem receiveConfirm
    (decided : config.Published system ∨ FellBack system) (id : ℕ) (received : List UInt8) :
    config.SessionInvariant (config.receiveConfirm system id received) := by
  simp only [ReportConfig.receiveConfirm]
  split
  · split
    · exact invariant.setRoot (.inr rfl) decided
    · exact invariant.serve decided _
  · exact invariant.serve decided _

theorem rootRead
    (stepped : config.rootRead system bytes = some after) : config.SessionInvariant after := by
  simp only [ReportConfig.rootRead] at stepped
  split at stepped
  next releasing =>
    simp only [Option.bind_eq_some_iff, Option.ite_none_right_eq_some, Option.some.injEq] at stepped
    rcases stepped with ⟨_, _, _, rfl⟩
    exact invariant.receiveRequest (invariant.decided releasing) _ _
  next releasing =>
    simp only [Option.bind_eq_some_iff, Option.ite_none_right_eq_some, Option.some.injEq] at stepped
    rcases stepped with ⟨_, _, _, rfl⟩
    exact invariant.receiveConfirm (invariant.decided releasing) _ _
  · cases stepped

theorem rootWrite
    (stepped : rootWrite system count = some after) : config.SessionInvariant after := by
  simp only [ReportConfig.rootWrite] at stepped
  split at stepped
  next id releasing =>
    simp only [Option.bind_eq_some_iff, Option.ite_none_right_eq_some, Option.some.injEq] at stepped
    rcases stepped with ⟨link, _, _, rfl⟩
    have written := invariant.modifyLink id ({ · with written := link.written + count })
      fun _ sound => sound
    exact written.serve (invariant.decided releasing) _
  · cases stepped

theorem rootFailed
    (stepped : rootFailed system = some after) : config.SessionInvariant after := by
  simp only [ReportConfig.rootFailed] at stepped
  split at stepped
  · cases stepped
  next releasing =>
    cases stepped
    exact invariant.serve (invariant.decided releasing) _
  · cases stepped

theorem rootStopped
    (stepped : rootStopped system = some after) : config.SessionInvariant after := by
  simp only [ReportConfig.rootStopped] at stepped
  split at stepped
  next releasing =>
    cases stepped
    refine invariant.setRoot (.inr rfl) ⟨?_, .inr (invariant.decided releasing)⟩
    exact fun result => (Bool.and_eq_true_iff.mp result).1
  · cases stepped

theorem setGather
    (gathering : system.root = .gathering) {event : GatherEvent} {gather : Gather}
    (stepped : config.gather.step system.gather event = some gather) {owners : List (Option ℕ)}
    (owned : ∀ rank, some rank ∈ owners → config.isPeer rank)
    (handed : ∀ history, config.gather.Reached history system.gather →
      (∀ id, config.Delivered system.peers (stream history id)) →
      ∀ id, config.Delivered system.peers (stream (history ++ [event]) id)) :
    config.SessionInvariant { system with gather := gather, owners := owners } := by
  refine ⟨invariant.peer, invariant.links, ?_, owned, ?_⟩
  · have root := invariant.root
    simp only [RootSound, gathering] at root ⊢
    exact root
  · rcases invariant.gather with ⟨history, reached, delivered⟩
    exact ⟨history ++ [event], .snoc reached stepped, handed history reached delivered⟩

theorem acceptGather
    {owner : Option ℕ} (stepped : config.acceptGather system owner = some after) :
    config.SessionInvariant after := by
  simp only [ReportConfig.acceptGather, Option.ite_none_right_eq_some, Option.map_eq_some_iff]
    at stepped
  rcases stepped with ⟨⟨gathering, isPeer⟩, gather, accepted, rfl⟩
  apply invariant.setGather gathering accepted
  · intro rank rankMem
    rcases mem_append.mp rankMem with earlier | last
    · exact invariant.owners rank earlier
    · rw [mem_singleton] at last
      exact (isPeer rank last.symm).1
  · intro history _ delivered id
    simpa [stream] using delivered id

theorem gatherEvent
    {event : GatherEvent} (stepped : config.gatherEvent system event = some after) :
    config.SessionInvariant after := by
  simp only [ReportConfig.gatherEvent, Option.ite_none_right_eq_some, Option.map_eq_some_iff]
    at stepped
  rcases stepped with ⟨⟨gathering, delivers⟩, gather, gatherStep, rfl⟩
  apply invariant.setGather gathering gatherStep invariant.owners
  intro history reached delivered other
  cases event with
  | received id =>
    simp only [ReportConfig.delivers] at delivers
    split at delivers
    next rank connection ownerEq atId =>
      have received := (gatherInvariant_reached reached).received id connection atId
      by_cases same : id = other
      · subst same
        refine .inr ⟨rank, invariant.owners rank (mem_of_getElem? ownerEq), ?_⟩
        rw [ isPrefixOf_iff_prefix, received] at delivers
        simpa [stream] using delivers
      · simpa [stream, same] using delivered other
    · cases delivers
  | accept => cases delivers
  | _ => simpa [stream] using delivered other

theorem step (readsBack : config.ReadsBack) {event : ReportEvent}
    (stepped : config.step system event = some after) : config.SessionInvariant after := by
  cases event with
  | acceptGather => exact invariant.acceptGather stepped
  | gather => exact invariant.gatherEvent stepped
  | advance => exact invariant.advance stepped
  | acceptRelease => exact invariant.acceptRelease stepped
  | rootRead => exact invariant.rootRead stepped
  | rootWrite => exact invariant.rootWrite stepped
  | rootFailed => exact invariant.rootFailed stepped
  | rootStopped => exact invariant.rootStopped stepped
  | peerConnect => exact invariant.peerConnect (Option.ite_none_right_eq_some.mp stepped).2
  | peerWrite => exact invariant.peerWrite (Option.ite_none_right_eq_some.mp stepped).2
  | peerRead =>
    exact invariant.peerRead readsBack (Option.ite_none_right_eq_some.mp stepped).2
  | peerFailed => exact invariant.peerFailed (Option.ite_none_right_eq_some.mp stepped).2

end SessionInvariant

theorem sessionInvariant_reached (readsBack : config.ReadsBack) {history : List ReportEvent}
    (reached : config.Reached history system) : config.SessionInvariant system :=
  Runs.preserves sessionInvariant_initial
    (fun invariant stepped => invariant.step readsBack stepped) reached

end Peak.ReportConfig
