import Peak.Helper.Stop

/-!
# Moving the stopped threads and patching the target

All instructions are validated before the first one takes effect. Threads are stepped out of the
ranges to patch, the code is written and the program counters are set, and both are read back.
Memory is accessed through `/proc/<pid>/mem`, and word by word with `ptrace` if that fails.
-/

namespace Peak

def wordSize : ℕ := 8

def sigtrap : ℕ := 5

structure HelperFailure where
  status : HelperStatus
  errno : Errno

def rangeEnd (address size : ℕ) : ℕ := (address + size) % 2 ^ 64

/-- The word loops of `ptrace` see no word of the range. -/
def rangeWraps (address size : ℕ) : Bool := rangeEnd address size ≤ address

def pcInRange (pc address size : ℕ) : Bool :=
  address ≠ 0 && size ≠ 0 && address < rangeEnd address size &&
    address ≤ pc && pc < rangeEnd address size

namespace HelperInstruction

def payload (instruction : HelperInstruction) : List UInt8 :=
  instruction.bytes.toList.take instruction.size

def start (instruction : HelperInstruction) : ℕ := instruction.address.toNat

end HelperInstruction

structure MemoryAccess where
  errno : Option Errno
  bytes : List (UInt8 × ℕ)
  fellBack : Bool

namespace Kernel

variable (kernel : Kernel)

def writeMemoryViaProcMem (address : ℕ) (bytes : List UInt8) : HelperM MemoryAccess := do
  match ← ask kernel.writeProcMem with
  | .error errno => pure ⟨some errno, [], false⟩
  | .ok count =>
    pure ⟨if count < bytes.length then some .eio else none, (bytes.take count).zipIdx address,
      false⟩

/-- The loop of `write_memory_via_ptrace`. Every round writes at least one byte. -/
def pokeWords : ℕ → ℕ → List UInt8 → List (UInt8 × ℕ) → HelperM MemoryAccess
  | _, _, [], written => pure ⟨none, written, true⟩
  | 0, _, _ :: _, _ => throw .outOfRounds
  | rounds + 1, cursor, byte :: bytes, written => do
      let remaining := byte :: bytes
      let chunk := min (wordSize - cursor % wordSize) remaining.length
      match ← ask kernel.peekText with
      | .error errno => pure ⟨some errno, written, true⟩
      | .ok _ => do
          match ← ask kernel.pokeText with
          | some errno => pure ⟨some errno, written, true⟩
          | none =>
            pokeWords rounds (cursor + chunk) (remaining.drop chunk)
              (written ++ (remaining.take chunk).zipIdx cursor)

def writeMemoryViaPtrace (address : ℕ) (bytes : List UInt8) (written : List (UInt8 × ℕ)) :
    HelperM MemoryAccess := do
  let helper ← get
  if helper.held = [] then
    pure ⟨some .esrch, written, true⟩
  else if rangeWraps address bytes.length then
    pure ⟨none, written, true⟩
  else
    kernel.pokeWords bytes.length address bytes written

def writeTraceeMemory (instruction : HelperInstruction) : HelperM MemoryAccess := do
  if instruction.size = 0 ∨ maxPatchBytes < instruction.size then
    pure ⟨some .einval, [], false⟩
  else do
    let access ← kernel.writeMemoryViaProcMem instruction.start instruction.payload
    if access.errno = none then
      pure access
    else
      kernel.writeMemoryViaPtrace instruction.start instruction.payload access.bytes

/-- The loop of `read_memory_via_ptrace`. -/
def peekWords : ℕ → ℕ → ℕ → List UInt8 → HelperM (Except Errno (List UInt8))
  | _, _, 0, actual => pure (.ok actual)
  | 0, _, _ + 1, _ => throw .outOfRounds
  | rounds + 1, cursor, size + 1, actual => do
      let chunk := min (wordSize - cursor % wordSize) (size + 1)
      match ← ask kernel.peekText with
      | .error errno => pure (.error errno)
      | .ok word =>
        peekWords rounds (cursor + chunk) (size + 1 - chunk)
          (actual ++ (word.toList.drop (cursor % wordSize)).take chunk)

def compareMemory (address : ℕ) (actual expected : List UInt8) (fellBack : Bool) :
    MemoryAccess :=
  ⟨if actual = expected then none else some .eio, actual.zipIdx address, fellBack⟩

def verifyMemoryViaPtrace (address : ℕ) (expected : List UInt8) : HelperM MemoryAccess := do
  let helper ← get
  if helper.held = [] then
    pure ⟨some .esrch, [], true⟩
  else if rangeWraps address expected.length then do
    let actual ← ask kernel.stack
    pure ⟨if actual.toList.take expected.length = expected then none else some .eio, [], true⟩
  else do
    match ← kernel.peekWords expected.length address expected.length [] with
    | .error errno => pure ⟨some errno, [], true⟩
    | .ok actual => pure (compareMemory address actual expected true)

def verifyTraceeMemory (instruction : HelperInstruction) : HelperM MemoryAccess := do
  if instruction.size = 0 ∨ maxPatchBytes < instruction.size then
    pure ⟨some .einval, [], false⟩
  else do
    match ← ask kernel.readProcMem with
    | .ok bytes =>
      if instruction.size ≤ bytes.length then
        pure (compareMemory instruction.start (bytes.take instruction.size) instruction.payload
          false)
      else
        kernel.verifyMemoryViaPtrace instruction.start instruction.payload
    | .error _ => kernel.verifyMemoryViaPtrace instruction.start instruction.payload

def applyWriteInstruction (instruction : HelperInstruction) : HelperM (Option HelperFailure) := do
  let write ← kernel.writeTraceeMemory instruction
  match write.errno with
  | some errno => do
      modify (·.note (.wrote ⟨instruction, write.bytes, [], write.fellBack, false⟩))
      pure (some ⟨.ptraceError, errno⟩)
  | none => do
      let verify ← kernel.verifyTraceeMemory instruction
      modify (·.note
        (.wrote ⟨instruction, write.bytes, verify.bytes, write.fellBack, verify.fellBack⟩))
      pure (verify.errno.map (⟨.ptraceError, ·⟩))

def isTraced (tid : ℤ) : HelperM Bool := do
  let helper ← get
  pure (helper.held.any fun thread => thread.tid == tid && thread.attached)

def applySetPcInstruction (instruction : HelperInstruction) :
    HelperM (Option HelperFailure) := do
  if !(← isTraced instruction.tid) then
    pure (some ⟨.ptraceError, .esrch⟩)
  else do
    match ← kernel.readPc instruction.tid with
    | .error errno => pure (some ⟨.registerError, errno⟩)
    | .ok _ => do
        match ← ask kernel.setRegisters with
        | some errno => pure (some ⟨.registerError, errno⟩)
        | none => do
            modify (·.note (.setPc instruction.tid instruction.pc.toNat))
            match ← kernel.readPc instruction.tid with
            | .error errno => pure (some ⟨.registerError, errno⟩)
            | .ok pc =>
              pure (if pc = instruction.pc.toNat then none else some ⟨.registerError, .eio⟩)

/-- The loop of `wait_for_single_step_stop`. -/
def waitForSingleStepStop (tid : ℤ) (deadline : ℕ) : ℕ → HelperM (Except Errno ℕ)
  | 0 => throw .outOfRounds
  | rounds + 1 => do
      match ← ask kernel.wait with
      | .failed errno =>
        if errno = .eintr then waitForSingleStepStop tid deadline rounds
        else pure (.error errno)
      | .nothing => do
          let now ← ask kernel.clock
          if deadline ≤ now then pure (.error .etimedout)
          else waitForSingleStepStop tid deadline rounds
      | .stopped signal _ => do
          modify (·.stop tid)
          pure (.ok signal)
      | .ended => pure (.error .esrch)
      | .other => waitForSingleStepStop tid deadline rounds

/-- The loop of `apply_single_step_out_of_range_instruction`, with the check after it. -/
def stepOutOfRange (limit : ℕ) (instruction : HelperInstruction) :
    ℕ → HelperM (Option HelperFailure)
  | 0 => do
      match ← kernel.readPc instruction.tid with
      | .error errno => pure (some ⟨.registerError, errno⟩)
      | .ok pc =>
        pure (if pcInRange pc instruction.start instruction.size then
          some ⟨.timeout, .etimedout⟩ else none)
  | steps + 1 => do
      match ← kernel.readPc instruction.tid with
      | .error errno => pure (some ⟨.registerError, errno⟩)
      | .ok pc =>
        if !pcInRange pc instruction.start instruction.size then
          pure none
        else do
          match ← ask kernel.singleStep with
          | some errno => pure (some ⟨.ptraceError, errno⟩)
          | none => do
              modify (·.run instruction.tid)
              let now ← ask kernel.clock
              match ← kernel.waitForSingleStepStop instruction.tid (now + stopTimeout) limit with
              | .error errno =>
                pure (some ⟨if errno = .etimedout then .timeout else .ptraceError, errno⟩)
              | .ok signal =>
                if signal ≠ sigtrap then do
                  modify (·.setSignal instruction.tid signal)
                  pure (some ⟨.ptraceError, .eintr⟩)
                else
                  stepOutOfRange limit instruction steps

def applySingleStepOutOfRangeInstruction (limit : ℕ) (instruction : HelperInstruction) :
    HelperM (Option HelperFailure) := do
  if !(← isTraced instruction.tid) then
    pure (some ⟨.ptraceError, .esrch⟩)
  else
    kernel.stepOutOfRange limit instruction (max 8 (instruction.size + 4))

def validateInstruction (instruction : HelperInstruction) : HelperM (Option HelperFailure) := do
  match instruction.action with
  | .setPc =>
    if !(← isTraced instruction.tid) then
      pure (some ⟨.ptraceError, .esrch⟩)
    else do
      match ← kernel.readPc instruction.tid with
      | .error errno => pure (some ⟨.registerError, errno⟩)
      | .ok _ => pure none
  | .singleStepOutOfRange =>
    if !(← isTraced instruction.tid) then
      pure (some ⟨.ptraceError, .esrch⟩)
    else if instruction.start = 0 ∨ instruction.size = 0 ∨ maxPatchBytes < instruction.size ∨
        rangeWraps instruction.start instruction.size then
      pure (some ⟨.protocolError, .einval⟩)
    else
      pure none
  | .writeMemory =>
    if instruction.start = 0 ∨ instruction.size = 0 ∨ maxPatchBytes < instruction.size then
      pure (some ⟨.protocolError, .einval⟩)
    else
      pure none
  | .other _ => pure (some ⟨.protocolError, .einval⟩)

def applyEach (apply : HelperInstruction → HelperM (Option HelperFailure)) :
    List HelperInstruction → HelperM (Option HelperFailure)
  | [] => pure none
  | instruction :: instructions => do
      match ← apply instruction with
      | some failure => pure (some failure)
      | none => applyEach apply instructions

def verifyStopped (limit : ℕ) (controllerTid : ℤ) : HelperM (Option HelperFailure) := do
  let errno ← kernel.verifyNoUnstoppedThreads limit controllerTid
  pure (errno.map (⟨.ptraceError, ·⟩))

/-- The part of `apply_instructions` before the first mutation. -/
def prepareInstructions (limit : ℕ) (controllerTid : ℤ) (instructions : List HelperInstruction) :
    HelperM (Option HelperFailure) := do
  match ← applyEach kernel.validateInstruction instructions with
  | some failure => pure (some failure)
  | none => do
      match ← kernel.verifyStopped limit controllerTid with
      | some failure => pure (some failure)
      | none => do
          match ← applyEach (kernel.applySingleStepOutOfRangeInstruction limit)
              (instructions.filter (·.action = .singleStepOutOfRange)) with
          | some failure => pure (some failure)
          | none => kernel.verifyStopped limit controllerTid

/-- The mutations of `apply_instructions`. -/
def mutateTarget (instructions : List HelperInstruction) : HelperM (Option HelperFailure) := do
  match ← applyEach kernel.applyWriteInstruction
      (instructions.filter (·.action = .writeMemory)) with
  | some failure => pure (some failure)
  | none =>
    applyEach kernel.applySetPcInstruction (instructions.filter (·.action = .setPc))

/-- `apply_instructions`: the failure, if there is one, and whether it occurred in a
mutation. -/
def applyInstructions (limit : ℕ) (controllerTid : ℤ) (instructions : List HelperInstruction) :
    HelperM (Option HelperFailure × Bool) := do
  match ← kernel.prepareInstructions limit controllerTid instructions with
  | some failure => pure (some failure, false)
  | none => do
      let failure ← kernel.mutateTarget instructions
      pure (failure, true)

end Kernel

end Peak
