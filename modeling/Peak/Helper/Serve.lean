import Peak.Common.Runs
import Peak.Helper.Evacuate

/-!
# The connection of the helper

The helper answers one request after the other until it exits. A request that is
not understood, or that belongs to another process, ends the connection, and so
does a release that failed.
-/

namespace Peak

def helperMagic : ℕ := 0x50444a48

def helperVersion : ℕ := 1

inductive HelperCommand where
  | stop
  | evacuate
  | resume
  | shutdown
  | other (code : ℕ)
deriving DecidableEq

/-- `PeakDetachHelperRequest`. `instructions` are those that follow it on the connection, if
they can be read. -/
structure HelperRequest where
  magic : ℕ
  version : ℕ
  command : HelperCommand
  pid : ℤ
  controllerTid : ℤ
  instructionCount : ℕ
  instructions : Option (Vector HelperInstruction instructionCount)

/-- What `read_exact` returns for the next request. -/
inductive HelperInput where
  | request (request : HelperRequest)
  | endOfFile
  | failed

namespace Helper

def beginRequest (helper : Helper) : Helper :=
  { helper with log := [] }

def bind (helper : Helper) (pid : ℤ) : Helper :=
  { helper with boundPid := if helper.boundPid = 0 then pid else helper.boundPid }

end Helper

namespace Kernel

variable (kernel : Kernel)

def detachAndExit (code : ℕ) : HelperM Unit := do
  let _ ← kernel.detachHeldThreads
  modify (·.exit code)

def refuseRequest (errno : Errno) : HelperM HelperResponse := do
  kernel.detachAndExit 1
  pure ⟨.protocolError, some errno, []⟩

def respond (response : HelperResponse) : HelperM HelperResponse := do
  if response.status = .releaseFailed then do
    modify (·.exit 1)
    pure response
  else
    pure response

def serveStop (limit : ℕ) (request : HelperRequest) : HelperM HelperResponse := do
  if request.instructionCount ≠ 0 then
    kernel.refuseRequest .eproto
  else do
    let response ← kernel.stopTargetThreads limit request.controllerTid
    respond response

def evacuate (limit : ℕ) (controllerTid : ℤ) (instructions : List HelperInstruction) :
    HelperM HelperResponse := do
  let (failure, mutationStarted) ← kernel.applyInstructions limit controllerTid instructions
  match failure with
  | none => pure ⟨.ok, none, []⟩
  | some failure =>
    if mutationStarted then
      pure ⟨.releaseFailed, some failure.errno, []⟩
    else do
      let (status, errno) ← kernel.cleanupHeldThreadsOrReleaseFailed failure.status
        (some failure.errno)
      pure ⟨status, errno, []⟩

def serveEvacuate (limit : ℕ) (request : HelperRequest) : HelperM HelperResponse := do
  if maxInstructions < request.instructionCount then
    kernel.refuseRequest .eproto
  else
    match request.instructions with
    | none => kernel.refuseRequest .eproto
    | some instructions => do
        let response ← kernel.evacuate limit request.controllerTid instructions.toList
        respond response

def serveResume (request : HelperRequest) : HelperM HelperResponse := do
  if request.instructionCount ≠ 0 then
    kernel.refuseRequest .eproto
  else do
    let (status, errno) ← kernel.detachHeldThreads
    pure ⟨status, errno, []⟩

def serveShutdown (request : HelperRequest) : HelperM HelperResponse := do
  if request.instructionCount ≠ 0 then
    kernel.refuseRequest .eproto
  else do
    let (status, errno) ← kernel.detachHeldThreads
    modify (·.exit (if status = .ok then 0 else 1))
    pure ⟨status, errno, []⟩

def serveCommand (limit : ℕ) (request : HelperRequest) : HelperM HelperResponse :=
  match request.command with
  | .stop => kernel.serveStop limit request
  | .evacuate => kernel.serveEvacuate limit request
  | .resume => kernel.serveResume request
  | .shutdown => kernel.serveShutdown request
  | .other _ => kernel.refuseRequest .einval

def serveRequest (limit : ℕ) (request : HelperRequest) : HelperM HelperResponse := do
  modify (·.beginRequest)
  let helper ← get
  if request.magic ≠ helperMagic ∨ request.version ≠ helperVersion then
    kernel.refuseRequest .eproto
  else if helper.boundPid ≠ 0 ∧ request.pid ≠ helper.boundPid then
    kernel.refuseRequest .eperm
  else do
    modify (·.bind request.pid)
    kernel.serveCommand limit request

/-- One round of the loop of `serve_protocol`. -/
def serve (limit : ℕ) : HelperInput → HelperM (Option HelperResponse)
  | .request request => some <$> kernel.serveRequest limit request
  | .endOfFile => do
      kernel.detachAndExit 0
      pure none
  | .failed => do
      kernel.detachAndExit 1
      pure none

/-- The helper handles an input and stays silent or gives the response. -/
def Handles (before : Helper) (event : HelperInput × Option HelperResponse) (after : Helper) :
    Prop :=
  before.exitCode = none ∧ ∃ limit, kernel.serve limit event.1 before = .ok (event.2, after)

def Reached : List (HelperInput × Option HelperResponse) → Helper → Prop :=
  Runs kernel.Handles .start

end Kernel

end Peak
