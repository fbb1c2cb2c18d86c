import Peak.Helper.EvacuateSound
import Peak.Helper.StopSound

/-!
# What an answer of the helper guarantees

The controller goes on after every status other than a failed release, in the belief that no thread
is held. Along every connection the answers keep this promise, with two exceptions. A stop whose
second scan cannot open the task directory gives up with threads held, and a write whose range runs
over the end of the address space can be reported without taking place.
-/

namespace Peak

open Program

variable {response : HelperResponse} {answers : HelperResponse → Helper → Prop}

def HelperRequest.instructionList (request : HelperRequest) : List HelperInstruction :=
  (request.instructions.map (·.toList)).getD []

/-- The snapshots are those of the held threads, and the last scan found no other thread. -/
def Snapshotted (controllerTid : ℤ) (snapshots : List ThreadSnapshot) (helper : Helper) : Prop :=
  snapshots.map (·.tid) = helper.held.map (·.tid) ∧
    helper.attached = helper.held.map (·.tid) ∧ (snapshots.map (·.tid)).Nodup ∧
    (∀ snapshot ∈ snapshots, .registers snapshot.tid snapshot.pc true ∈ helper.log) ∧
    ∃ early tids, helper.log = early ++ [.listed tids] ∧
      ∀ tid ∈ tids, tid = controllerTid ∨ helper.isHeld tid

/-- Every write has been applied and read back, and so has every program counter. -/
def CarriedOut (instructions : List HelperInstruction) (log : List HelperEvent) : Prop :=
  (memoryRecords log).map (·.instruction) = instructions.filter (·.action = .writeMemory) ∧
    (∀ record ∈ memoryRecords log, record.Applied ∧ record.ReadBack) ∧
    ∀ instruction ∈ instructions.filter (·.action = .setPc), Kernel.Placed log instruction

/-- What the controller may conclude from the answer to a request. -/
structure ReleaseGuarantee (request : HelperRequest) (response : HelperResponse)
    (after : Helper) : Prop where
  stopped : request.command = .stop → response.status = .ok →
    Snapshotted request.controllerTid response.snapshots after
  released : request.command = .stop → response.status ≠ .ok →
    response.status ≠ .releaseFailed → after.attached = []
  evacuated : request.command = .evacuate → response.status = .ok →
    CarriedOut request.instructionList after.log
  untouched : request.command = .evacuate → response.status ≠ .ok →
    response.status ≠ .releaseFailed → Untouched after.log ∧ after.attached = []
  exits : response.status = .releaseFailed → after.exitCode ≠ none

/-- The two exceptions do not occur. -/
structure ReleaseCondition (request : HelperRequest) (response : HelperResponse)
    (after : Helper) : Prop where
  scans : ∀ attached, .refused attached ∈ after.log → attached = []
  writes : request.command = .evacuate → response.status = .ok →
    ∀ record ∈ memoryRecords after.log, ¬record.Skipped

def Ended (helper : Helper) : Prop :=
  helper.exitCode ≠ none ∧ helper.attached = [] ∧ Unrefused helper.log

def Rejected (response : HelperResponse) (helper : Helper) : Prop :=
  response.status = .protocolError ∧ Ended helper ∧ Untouched helper.log

/-- How a request is answered, where `answers` describes the answers after which the helper
still runs. -/
def Answered (answers : HelperResponse → Helper → Prop) (response : HelperResponse)
    (helper : Helper) : Prop :=
  response.status ≠ .releaseFailed ∧ answers response helper ∨
    response.status = .releaseFailed ∧ Ended helper ∨ Rejected response helper

section

variable {request : HelperRequest} {response : HelperResponse} {after : Helper}

theorem Unrefused.scans {log : List HelperEvent} (unrefused : Unrefused log)
    (attached : List ℤ) (isLogged : .refused attached ∈ log) : attached = [] :=
  absurd isLogged (unrefused attached)

theorem guarantee_iff_of_ended (notOk : response.status ≠ .ok) (ended : Ended after)
    (untouched : response.status ≠ .releaseFailed → Untouched after.log) :
    ReleaseGuarantee request response after ↔ ReleaseCondition request response after := by
  apply iff_of_true
  · exact {
      stopped := fun _ ok => absurd ok notOk
      released := fun _ _ _ => ended.2.1
      evacuated := fun _ ok => absurd ok notOk
      untouched := fun _ _ notFailed => ⟨untouched notFailed, ended.2.1⟩
      exits := fun _ => ended.1 }
  · exact ⟨ended.2.2.scans, fun _ ok => absurd ok notOk⟩

theorem guarantee_iff_of_answered (answered : Answered answers response after)
    (running : response.status ≠ .releaseFailed → answers response after →
      (ReleaseGuarantee request response after ↔ ReleaseCondition request response after)) :
    ReleaseGuarantee request response after ↔ ReleaseCondition request response after := by
  rcases answered with ⟨notFailed, holds⟩ | ⟨failed, ended⟩ | ⟨status, ended, untouched⟩
  · exact running notFailed holds
  · exact guarantee_iff_of_ended (by simp [failed]) ended fun notFailed => absurd failed notFailed
  · exact guarantee_iff_of_ended (by simp [status]) ended fun _ => untouched

theorem Kernel.Stopped.snapshotted {controllerTid : ℤ}
    (stopped : Kernel.Stopped controllerTid response after) :
    Snapshotted controllerTid response.snapshots after := by
  rcases stopped with ⟨_, before, tids, ⟨⟨tracing, _⟩, same, read⟩, rfl, known⟩
  refine ⟨same, tracing.2.1, ?_, ?_, before.log, tids, rfl, known⟩
  · rw [same]
    exact tracing.2.2.1
  · exact fun snapshot snapshotMem => List.mem_append_left _ (read snapshot snapshotMem)

theorem releaseGuarantee_stop_iff (command : request.command = .stop)
    (notFailed : response.status ≠ .releaseFailed) :
    ReleaseGuarantee request response after ↔
      (response.status = .ok → Snapshotted request.controllerTid response.snapshots after) ∧
        (response.status ≠ .ok → after.attached = []) := by
  have noEvacuation : request.command ≠ .evacuate := by
    rw [command]
    decide
  constructor
  · intro guarantee
    exact ⟨guarantee.stopped command, fun notOk => guarantee.released command notOk notFailed⟩
  · rintro ⟨stopped, released⟩
    exact {
      stopped := fun _ => stopped
      released := fun _ notOk _ => released notOk
      evacuated := fun evacuate => absurd evacuate noEvacuation
      untouched := fun evacuate => absurd evacuate noEvacuation
      exits := fun failed => absurd failed notFailed }

theorem releaseCondition_stop_iff (command : request.command = .stop) :
    ReleaseCondition request response after ↔
      ∀ attached, .refused attached ∈ after.log → attached = [] := by
  refine ⟨fun condition => condition.scans, fun scans => ⟨scans, fun evacuate => ?_⟩⟩
  rw [command] at evacuate
  cases evacuate

theorem releaseGuarantee_evacuate_iff (command : request.command = .evacuate)
    (notFailed : response.status ≠ .releaseFailed) :
    ReleaseGuarantee request response after ↔
      (response.status = .ok → CarriedOut request.instructionList after.log) ∧
        (response.status ≠ .ok → Untouched after.log ∧ after.attached = []) := by
  have noStop : request.command ≠ .stop := by
    rw [command]
    decide
  constructor
  · intro guarantee
    exact ⟨guarantee.evacuated command, fun notOk => guarantee.untouched command notOk notFailed⟩
  · rintro ⟨evacuated, untouched⟩
    exact {
      stopped := fun stop => absurd stop noStop
      released := fun stop => absurd stop noStop
      evacuated := fun _ => evacuated
      untouched := fun _ notOk _ => untouched notOk
      exits := fun failed => absurd failed notFailed }

theorem guarantee_iff_of_stop (command : request.command = .stop)
    (notFailed : response.status ≠ .releaseFailed)
    (answered : Kernel.StopAnswered request.controllerTid response after) :
    ReleaseGuarantee request response after ↔ ReleaseCondition request response after := by
  rw [releaseGuarantee_stop_iff command notFailed, releaseCondition_stop_iff command]
  rcases answered with stopped | gaveUp | refused
  · apply iff_of_true
    · exact ⟨fun _ => stopped.snapshotted, fun notOk => absurd stopped.1 notOk⟩
    · exact stopped.tracing.2.scans
  · rcases gaveUp with ⟨⟨tracing, unrefused⟩, failed | ⟨notOk, nothing⟩⟩
    · exact absurd failed notFailed
    · apply iff_of_true
      · exact ⟨fun ok => absurd ok notOk, fun _ => tracing.attached_eq_nil nothing⟩
      · exact unrefused.scans
  · rcases refused with ⟨⟨notOk, _⟩, before, ⟨_, unrefused⟩, rfl⟩
    constructor
    · rintro ⟨_, released⟩ attached isLogged
      rcases List.mem_append.mp isLogged with earlier | last
      · exact unrefused.scans attached earlier
      · cases List.mem_singleton.mp last
        exact released notOk
    · intro scans
      refine ⟨fun ok => absurd ok notOk, fun _ => ?_⟩
      exact scans before.attached (List.mem_append_right _ (List.mem_singleton_self _))

theorem guarantee_iff_of_evacuate (command : request.command = .evacuate)
    (notFailed : response.status ≠ .releaseFailed)
    (answered : Kernel.Evacuated request.instructionList response after) :
    ReleaseGuarantee request response after ↔ ReleaseCondition request response after := by
  rw [releaseGuarantee_evacuate_iff command notFailed]
  rcases answered with ⟨ok, ⟨⟨⟨_, unrefused⟩, same, exactly⟩, placed⟩⟩ | ⟨failed, _⟩ |
    ⟨notOk, ⟨tracing, untouched⟩, nothing⟩
  · constructor
    · rintro ⟨evacuated, _⟩
      refine ⟨unrefused.scans, fun _ _ record recordMem => ?_⟩
      exact (exactly record recordMem).mp ((evacuated ok).2.1 record recordMem)
    · intro condition
      refine ⟨fun _ => ⟨same, ?_, placed⟩, fun notOk => absurd ok notOk⟩
      intro record recordMem
      exact (exactly record recordMem).mpr (condition.writes command ok record recordMem)
  · exact absurd failed notFailed
  · apply iff_of_true
    · exact ⟨fun ok => absurd ok notOk, fun _ => ⟨untouched, tracing.attached_eq_nil nothing⟩⟩
    · exact ⟨untouched.unrefused.scans, fun _ ok => absurd ok notOk⟩

end

namespace Kernel

variable {kernel : Kernel} {limit : ℕ} {request : HelperRequest}

def Ready (helper : Helper) : Prop :=
  Tracing helper ∧ helper.log = []

variable {helper : Helper}

theorem Ready.prepared (ready : Ready helper) : Prepared helper := by
  refine ⟨ready.1, ?_⟩
  rw [ready.2]
  exact nofun

theorem Ready.unrefused (ready : Ready helper) : Orderly helper :=
  ⟨ready.1, ready.prepared.2.unrefused⟩

theorem detachReady_triple :
    Triple Ready kernel.detachHeldThreads fun result helper =>
      Ready helper ∧ result.1 ≠ .releaseFailed := by
  refine triple_post (@detachHeldThreads_triple kernel (· = [])) ?_
  rintro result helper ⟨ready, ⟨ok, _⟩ | failed⟩
  · rw [ok]
    exact ⟨ready, nofun⟩
  · rw [failed]
    exact ⟨ready, nofun⟩

theorem detachAndExit_triple {code : ℕ} :
    Triple Ready (kernel.detachAndExit code)
      fun _ helper => Ended helper ∧ Untouched helper.log := by
  refine triple_bind _ detachReady_triple fun _ => triple_modify ?_
  rintro helper ⟨ready, _⟩
  exact ⟨⟨nofun, rfl, ready.prepared.2.unrefused⟩, ready.prepared.2⟩

theorem refuseRequest_triple {errno : Errno} :
    Triple Ready (kernel.refuseRequest errno) (Answered answers) :=
  triple_bind _ detachAndExit_triple fun _ =>
    triple_pure fun _ ended => .inr (.inr ⟨rfl, ended⟩)

theorem respond_triple
    (unrefused : ∀ helper, response.status = .releaseFailed → answers response helper →
      Unrefused helper.log) :
    Triple (answers response) (respond response) (Answered answers) := by
  rw [respond]
  split
  next failed =>
    refine triple_bind (fun _ => Ended) (triple_modify fun helper holds => ?_)
      fun _ => triple_pure fun _ ended => .inr (.inl ⟨failed, ended⟩)
    exact ⟨nofun, rfl, unrefused helper failed holds⟩
  next notFailed =>
    exact triple_pure fun _ holds => .inl ⟨notFailed, holds⟩

theorem serveStop_triple :
    Triple Ready (kernel.serveStop limit request)
      (Answered (StopAnswered request.controllerTid)) := by
  rw [serveStop]
  split
  · exact refuseRequest_triple
  · refine triple_bind _ (triple_pre (fun _ ready => ready.unrefused) stopTargetThreads_triple)
      fun response => respond_triple ?_
    rintro helper failed (stopped | gaveUp | refused)
    · exact stopped.tracing.2
    · exact gaveUp.1.2
    · exact absurd failed refused.1.2

theorem Evacuated.unrefused {instructions : List HelperInstruction}
    (evacuated : Evacuated instructions response helper) :
    Orderly helper := by
  rcases evacuated with ⟨_, mutated⟩ | ⟨_, kept⟩ | ⟨_, prepared, _⟩
  · exact mutated.1.1
  · exact kept
  · exact ⟨prepared.1, prepared.2.unrefused⟩

theorem serveEvacuate_triple :
    Triple Ready (kernel.serveEvacuate limit request)
      (Answered (Evacuated request.instructionList)) := by
  rw [serveEvacuate]
  split
  · exact refuseRequest_triple
  · cases received : request.instructions with
    | none => exact refuseRequest_triple
    | some =>
      rw [HelperRequest.instructionList, received]
      refine triple_bind _ (triple_pre (fun _ ready => ready.prepared) evacuate_triple)
        fun response => respond_triple ?_
      exact fun _ _ evacuated => evacuated.unrefused.2

def Plain (_ : HelperResponse) (helper : Helper) : Prop :=
  (Tracing helper ∨ helper.exitCode ≠ none) ∧ helper.log = []

theorem serveResume_triple :
    Triple Ready (kernel.serveResume request) (Answered Plain) := by
  rw [serveResume]
  split
  · exact refuseRequest_triple
  · refine triple_bind _ detachReady_triple fun result => ?_
    exact triple_pure fun _ detached =>
      .inl ⟨detached.2, .inl detached.1.1, detached.1.2⟩

theorem serveShutdown_triple :
    Triple Ready (kernel.serveShutdown request) (Answered Plain) := by
  rw [serveShutdown]
  split
  · exact refuseRequest_triple
  · refine triple_bind _ detachReady_triple fun result => ?_
    rcases result with ⟨status, _⟩
    refine triple_bind (fun _ helper => helper.exitCode ≠ none ∧ helper.log = [] ∧
      status ≠ .releaseFailed) (triple_modify ?_) fun _ => triple_pure ?_
    · exact fun _ detached => ⟨nofun, detached.1.2, detached.2⟩
    · exact fun _ exited => .inl ⟨exited.2.2, .inr exited.1, exited.2.1⟩

def CommandAnswered (request : HelperRequest) : HelperResponse → Helper → Prop :=
  match request.command with
  | .stop => StopAnswered request.controllerTid
  | .evacuate => Evacuated request.instructionList
  | .resume | .shutdown | .other _ => Plain

theorem serveCommand_triple :
    Triple Ready (kernel.serveCommand limit request) (Answered (CommandAnswered request)) := by
  rw [serveCommand, CommandAnswered]
  cases request.command with
  | stop => exact serveStop_triple
  | evacuate => exact serveEvacuate_triple
  | resume => exact serveResume_triple
  | shutdown => exact serveShutdown_triple
  | other => exact refuseRequest_triple

theorem serveRequest_triple :
    Triple Tracing (kernel.serveRequest limit request)
      (Answered (CommandAnswered request)) := by
  refine triple_bind (fun _ => Ready) (triple_modify fun _ tracing => ⟨tracing, rfl⟩) fun _ => ?_
  refine triple_get_bind fun helper => ?_
  refine triple_pre (fun _ start => start.2) ?_
  split
  · exact refuseRequest_triple
  · split
    · exact refuseRequest_triple
    · exact triple_bind (fun _ => Ready) (triple_modify fun _ ready => ready)
        fun _ => serveCommand_triple

theorem guarantee_iff_of_plain {after : Helper}
    (noStop : request.command ≠ .stop) (noEvacuation : request.command ≠ .evacuate)
    (notFailed : response.status ≠ .releaseFailed) (plain : Plain response after) :
    ReleaseGuarantee request response after ↔ ReleaseCondition request response after := by
  apply iff_of_true
  · exact {
      stopped := fun stop => absurd stop noStop
      released := fun stop => absurd stop noStop
      evacuated := fun evacuate => absurd evacuate noEvacuation
      untouched := fun evacuate => absurd evacuate noEvacuation
      exits := fun failed => absurd failed notFailed }
  · refine ⟨fun attached isLogged => ?_, fun evacuate => absurd evacuate noEvacuation⟩
    rw [plain.2] at isLogged
    cases isLogged

theorem guarantee_iff_of_command {after : Helper}
    (answered : Answered (CommandAnswered request) response after) :
    ReleaseGuarantee request response after ↔ ReleaseCondition request response after := by
  refine guarantee_iff_of_answered answered fun notFailed holds => ?_
  rw [CommandAnswered] at holds
  cases command : request.command with
  | stop =>
    rw [command] at holds
    exact guarantee_iff_of_stop command notFailed holds
  | evacuate =>
    rw [command] at holds
    exact guarantee_iff_of_evacuate command notFailed holds
  | resume | shutdown | other code =>
    rw [command] at holds
    apply guarantee_iff_of_plain _ _ notFailed holds
    · rw [command]
      exact nofun
    · rw [command]
      exact nofun

/-- Between two requests the helper runs with a true list of held threads, or it has exited. -/
def Settled (helper : Helper) : Prop :=
  Tracing helper ∨ helper.exitCode ≠ none

theorem settled_of_answered {after : Helper}
    (answered : Answered (CommandAnswered request) response after) : Settled after := by
  rcases answered with ⟨_, holds⟩ | ⟨_, ended⟩ | rejected
  · rw [CommandAnswered] at holds
    cases command : request.command with
    | stop =>
      rw [command] at holds
      rcases holds with stopped | gaveUp | ⟨_, _, start, rfl⟩
      · exact .inl stopped.tracing.1
      · exact .inl gaveUp.1.1
      · exact .inl start.1
    | evacuate =>
      rw [command] at holds
      exact .inl holds.unrefused.1
    | resume | shutdown | other code =>
      rw [command] at holds
      exact holds.1
  · exact .inr ended.1
  · exact .inr rejected.2.1.1

theorem detachAndExit_settled {code : ℕ} :
    Triple Tracing (kernel.detachAndExit code) fun _ => Settled :=
  triple_bind (fun _ _ => True) (fun _ _ _ _ _ => trivial) fun _ =>
    triple_modify fun _ _ => .inr nofun

theorem serve_triple (input : HelperInput) :
    Triple Tracing (kernel.serve limit input) fun answer after => Settled after ∧
      ∀ request response, input = .request request → answer = some response →
        Answered (CommandAnswered request) response after := by
  cases input with
  | request =>
    refine triple_map (triple_post serveRequest_triple ?_)
    intro response after answered
    refine ⟨settled_of_answered answered, ?_⟩
    rintro _ _ ⟨rfl⟩ ⟨rfl⟩
    exact answered
  | endOfFile | failed =>
    exact triple_bind _ detachAndExit_settled fun _ =>
      triple_pure fun _ settled => ⟨settled, fun _ _ isRequest => by cases isRequest⟩

theorem Settled.tracing (settled : Settled helper) (running : helper.exitCode = none) :
    Tracing helper := by
  rcases settled with tracing | exited
  · exact tracing
  · exact absurd running exited

theorem settled_reached {history : List (HelperInput × Option HelperResponse)}
    (reached : kernel.Reached history helper) : Settled helper := by
  refine Runs.preserves ?_ ?_ reached
  · exact .inl ⟨rfl, rfl, List.nodup_nil, nofun⟩
  rintro before event after settled ⟨running, _, ok⟩
  exact (serve_triple event.1 before _ after (settled.tracing running) ok).1

/-- An answer keeps its promise exactly when neither exception occurs, after any requests
before it. -/
theorem release_guarantee_iff {history : List (HelperInput × Option HelperResponse)}
    {response : HelperResponse} {after : Helper}
    (reached : kernel.Reached (history ++ [(.request request, some response)]) after) :
    ReleaseGuarantee request response after ↔ ReleaseCondition request response after := by
  rcases Runs.last_step reached with ⟨before, earlier, running, _, ok⟩
  have tracing : Tracing before := (settled_reached earlier).tracing running
  have answered := (serve_triple _ before _ after tracing ok).2 request response rfl rfl
  exact guarantee_iff_of_command answered

def listedTasks (entries : List (ℕ × ℤ)) (call : ℕ) : TaskEntry :=
  match entries.lookup call with
  | some tid => .entry (some tid)
  | none => .done none

/-- A kernel which grants every call apart from the opening of the task directory. -/
def granting (openTasks : ℕ → Option Errno) (entries : List (ℕ × ℤ)) : Kernel where
  clock _ := 0
  openTasks := openTasks
  readTasks := listedTasks entries
  openStatus _ := none
  seize _ := none
  interrupt _ := none
  singleStep _ := none
  detach _ := none
  wait _ := .stopped 5 true
  sleep _ := none
  getRegisters _ := .ok 4096
  setRegisters _ := none
  writeProcMem _ := .ok 1
  readProcMem _ := .ok [144]
  peekText _ := .ok (Vector.replicate 8 0)
  pokeText _ := none
  stack _ := Vector.replicate 32 144
  send _ := none

def stopRequest : HelperRequest :=
  ⟨helperMagic, helperVersion, .stop, 1, 1, 0, none⟩

def evacuateRequest {count : ℕ} (instructions : Vector HelperInstruction count) : HelperRequest :=
  ⟨helperMagic, helperVersion, .evacuate, 1, 1, count, some instructions⟩

def writeInstruction (address : UInt64) (size : ℕ) : HelperInstruction :=
  ⟨7, .writeMemory, 0, address, size, Vector.replicate 32 144⟩

def placeInstruction (pc : UInt64) : HelperInstruction :=
  ⟨7, .setPc, pc, 0, 0, Vector.replicate 32 0⟩

def stoppedResponse : HelperResponse :=
  ⟨.ok, none, [⟨7, .ok, 4096⟩]⟩

def stoppedSeven : Helper where
  held := [⟨7, true, 0⟩]
  boundPid := 1
  exitCode := none
  calls := 14
  attached := [7]
  stopped := [7]
  log := [.registers 7 4096 true, .listed [7]]

def evacuatedSeven : Helper :=
  { stoppedSeven with
    calls := 24
    log := [.registers 7 4096 true, .listed [], .listed [],
      .wrote ⟨writeInstruction 8192 1, [(144, 8192)], [(144, 8192)], false, false⟩,
      .registers 7 4096 true, .setPc 7 4096, .registers 7 4096 true] }

theorem release_guarantee_iff_evacuation :
    (granting (fun _ => none) [(2, 7), (10, 7)]).Reached
        [(.request stopRequest, some stoppedResponse),
          (.request (evacuateRequest #v[writeInstruction 8192 1, placeInstruction 4096]),
            some ⟨.ok, none, []⟩)]
        evacuatedSeven ∧
      ReleaseGuarantee (evacuateRequest #v[writeInstruction 8192 1, placeInstruction 4096])
        ⟨.ok, none, []⟩ evacuatedSeven := by
  have stopped : (granting (fun _ => none) [(2, 7), (10, 7)]).Handles .start
      (.request stopRequest, some stoppedResponse) stoppedSeven :=
    ⟨rfl, 3, by decide +kernel⟩
  have evacuated : (granting (fun _ => none) [(2, 7), (10, 7)]).Handles stoppedSeven
      (.request (evacuateRequest #v[writeInstruction 8192 1, placeInstruction 4096]),
        some ⟨.ok, none, []⟩) evacuatedSeven :=
    ⟨rfl, 3, by decide +kernel⟩
  have reached := Runs.snoc (Runs.snoc Runs.start stopped) evacuated
  refine ⟨reached, (release_guarantee_iff reached).mpr ⟨?_, ?_⟩⟩
  · intro attached isLogged
    simp [evacuatedSeven] at isLogged
  · intro _ _ record recordMem
    have only : memoryRecords evacuatedSeven.log =
        [⟨writeInstruction 8192 1, [(144, 8192)], [(144, 8192)], false, false⟩] := rfl
    rw [only, List.mem_singleton] at recordMem
    rw [recordMem]
    rintro ⟨_, fellBack | fellBack⟩
    · cases fellBack
    · cases fellBack

/-- A new thread was listed by the verification, and the directory then could not be opened
again. -/
def refusedSeven : Helper :=
  { stoppedSeven with calls := 13, log := [.registers 7 4096 true, .refused [7]] }

/-- The stop gives up without a release: the controller goes on after the answer, and the thread
stays attached to a running helper. -/
theorem stop_gives_up_with_thread_held :
    (granting (fun call => if call = 12 then some .eacces else none) [(2, 7), (10, 9)]).Reached
        [(.request stopRequest, some ⟨.permissionDenied, some .eacces, []⟩)] refusedSeven ∧
      ¬ReleaseGuarantee stopRequest ⟨.permissionDenied, some .eacces, []⟩ refusedSeven := by
  have refused : (granting (fun call => if call = 12 then some .eacces else none)
      [(2, 7), (10, 9)]).Handles .start
      (.request stopRequest, some ⟨.permissionDenied, some .eacces, []⟩) refusedSeven :=
    ⟨rfl, 3, by decide +kernel⟩
  refine ⟨Runs.snoc Runs.start refused, fun guarantee => ?_⟩
  cases guarantee.released rfl nofun nofun

/-- The accesses to `/proc/<pid>/mem` fail. -/
def withoutProcMem : Kernel :=
  { granting (fun _ => none) [(2, 7), (10, 7)] with
    writeProcMem := fun _ => .error .einval
    readProcMem := fun _ => .error .einval }

/-- The range of the write ends beyond the last address, so that `pwrite` and `pread` fail. -/
def skippedSeven : Helper :=
  { stoppedSeven with
    calls := 21
    log := [.listed [], .listed [],
      .wrote ⟨writeInstruction 0xfffffffffffffff8 16, [], [], true, true⟩] }

/-- The write is reported as applied and verified, and no byte has been written. -/
theorem evacuation_skips_write :
    withoutProcMem.Reached
        [(.request stopRequest, some stoppedResponse),
          (.request (evacuateRequest #v[writeInstruction 0xfffffffffffffff8 16]),
            some ⟨.ok, none, []⟩)] skippedSeven ∧
      ¬ReleaseGuarantee (evacuateRequest #v[writeInstruction 0xfffffffffffffff8 16])
        ⟨.ok, none, []⟩ skippedSeven := by
  have stopped : withoutProcMem.Handles .start
      (.request stopRequest, some stoppedResponse) stoppedSeven :=
    ⟨rfl, 3, by decide +kernel⟩
  have evacuated : withoutProcMem.Handles stoppedSeven
      (.request (evacuateRequest #v[writeInstruction 0xfffffffffffffff8 16]),
        some ⟨.ok, none, []⟩) skippedSeven :=
    ⟨rfl, 3, by decide +kernel⟩
  refine ⟨Runs.snoc (Runs.snoc Runs.start stopped) evacuated, fun guarantee => ?_⟩
  have applied := ((guarantee.evacuated rfl rfl).2.1 _ (List.mem_singleton_self _)).1
  cases applied (List.mem_cons_self)

end Kernel

end Peak
