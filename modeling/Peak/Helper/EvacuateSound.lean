import Peak.Helper.Held

/-!
# What an evacuation has done

Before the first mutation the threads are only observed and stepped. A mutation is carried out and
read back for every instruction, or its failure ends the helper. The exception are writes whose
range runs over the end of the address space: the word loops of `ptrace` have nothing to do.
-/

namespace Peak

open Program List

variable {bytes : List UInt8}

def HelperEvent.isObservation : HelperEvent → Bool
  | .registers _ _ _ | .listed _ => true
  | .refused _ | .setPc _ _ | .wrote _ => false

def Untouched (log : List HelperEvent) : Prop :=
  ∀ event ∈ log, event.isObservation

variable {log : List HelperEvent}

theorem Untouched.note {event : HelperEvent} (untouched : Untouched log)
    (observation : event.isObservation) : Untouched (log ++ [event]) :=
  forall_mem_append.mpr ⟨untouched, forall_mem_singleton.mpr observation⟩

namespace MemoryRecord

variable (record : MemoryRecord)

def Applied : Prop :=
  record.instruction.payload.zipIdx record.instruction.start ⊆ record.written

def ReadBack : Prop :=
  record.instruction.payload.zipIdx record.instruction.start ⊆ record.readBack

/-- The range runs over the end of the address space, and was left to `ptrace`. -/
def Skipped : Prop :=
  rangeWraps record.instruction.start record.instruction.size = true ∧
    (record.writeFellBack = true ∨ record.readFellBack)

/-- A write that was reported as successful is one unless it was skipped. -/
def Exact : Prop :=
  record.Applied ∧ record.ReadBack ↔ ¬record.Skipped

end MemoryRecord

def memoryRecords (log : List HelperEvent) : List MemoryRecord :=
  log.filterMap fun event =>
    match event with
    | .wrote record => some record
    | _ => none

theorem memoryRecords_append (log other : List HelperEvent) :
    memoryRecords (log ++ other) = memoryRecords log ++ memoryRecords other :=
  filterMap_append ..

theorem Untouched.unrefused (untouched : Untouched log) : Unrefused log :=
  fun attached isLogged => Bool.false_ne_true (untouched (.refused attached) isLogged)

theorem Untouched.memoryRecords (untouched : Untouched log) : memoryRecords log = [] := by
  rw [Peak.memoryRecords, filterMap_eq_nil_iff]
  intro event eventMem
  have observation := untouched event eventMem
  cases event with
  | registers _ _ _ | listed _ | refused _ | setPc _ _ => rfl
  | wrote => cases observation

def HelperInstruction.WriteSized (instruction : HelperInstruction) : Prop :=
  instruction.size ≠ 0 ∧ instruction.size ≤ maxPatchBytes

theorem HelperInstruction.WriteSized.length_payload {instruction : HelperInstruction}
    (sized : instruction.WriteSized) : instruction.payload.length = instruction.size := by
  rw [payload, length_take, Vector.length_toList]
  exact Nat.min_eq_left sized.2

theorem HelperInstruction.WriteSized.payload_ne_nil {instruction : HelperInstruction}
    (sized : instruction.WriteSized) : instruction.payload ≠ [] := by
  rw [← length_pos_iff, sized.length_payload]
  exact Nat.pos_of_ne_zero sized.1

/-- A successful access covers the payload, unless `ptrace` accessed a range over the end of the
address space. -/
def MemoryAccess.Covers (access : MemoryAccess) (instruction : HelperInstruction) : Prop :=
  access.errno = none → (instruction.payload.zipIdx instruction.start ⊆ access.bytes ↔
    ¬(rangeWraps instruction.start instruction.size = true ∧ access.fellBack))

/-- How a step of an evacuation ends. A failure is never reported as a success. -/
def StepEnds (succeeds fails : Helper → Prop) : Option HelperFailure → Helper → Prop
  | none, helper => succeeds helper
  | some failure, helper => failure.status ≠ .ok ∧ fails helper

theorem zipIdx_take_append_drop {count start : ℕ}
    (fits : count ≤ bytes.length) :
    (bytes.take count).zipIdx start ++ (bytes.drop count).zipIdx (start + count) =
      bytes.zipIdx start := by
  conv_rhs =>
    rw [← take_append_drop count bytes, zipIdx_append, length_take, Nat.min_eq_left fits]

theorem not_zipIdx_subset_take {count start : ℕ}
    (short : count < bytes.length) :
    ¬bytes.zipIdx start ⊆ (bytes.take count).zipIdx start := by
  intro included
  have missing : (bytes[count], start + count) ∈ bytes.zipIdx start := by
    rw [mk_mem_zipIdx_iff_le_and_getElem?_sub, Nat.add_sub_cancel_left]
    exact ⟨Nat.le_add_right _ _, getElem?_eq_getElem short⟩
  have bound := (mem_zipIdx (included missing)).2.1
  rw [length_take] at bound
  omega

namespace Kernel

variable {kernel : Kernel} {pre : Helper → Prop} {instruction : HelperInstruction}
  {limit : ℕ} {controllerTid : ℤ}

theorem pokeWords_triple (timeless : Timeless pre) (rounds cursor : ℕ) (bytes : List UInt8)
    (written : List (UInt8 × ℕ)) :
    Triple pre (kernel.pokeWords rounds cursor bytes written) fun access helper =>
      pre helper ∧ access.fellBack ∧
        (access.errno = none → written ++ bytes.zipIdx cursor ⊆ access.bytes) := by
  induction rounds generalizing cursor bytes written with
  | zero =>
    cases bytes with
    | nil => exact triple_pure fun _ start => ⟨start, rfl, fun _ => by simp⟩
    | cons => exact triple_throw
  | succ _ ih =>
    cases bytes with
    | nil => exact triple_pure fun _ start => ⟨start, rfl, fun _ => by simp⟩
    | cons =>
      refine triple_bind_except (triple_ask timeless)
        (fun _ => triple_pure fun _ start => ⟨start, rfl, nofun⟩) fun word => ?_
      refine triple_bind_option (triple_ask timeless)
        (fun _ => triple_pure fun _ start => ⟨start, rfl, nofun⟩) ?_
      refine triple_post (ih _ _ _) ?_
      rintro access helper ⟨start, fellBack, rest⟩
      refine ⟨start, fellBack, fun ok => ?_⟩
      have included := rest ok
      rw [append_assoc, zipIdx_take_append_drop (Nat.min_le_right _ _)] at included
      exact included

variable {address : ℕ}

theorem writeMemoryViaProcMem_triple (timeless : Timeless pre)
    (some_byte : bytes ≠ []) :
    Triple pre (kernel.writeMemoryViaProcMem address bytes) fun access helper =>
      pre helper ∧ access.fellBack = false ∧
        (access.errno = none → access.bytes = bytes.zipIdx address) ∧
        (access.errno ≠ none →
          ∃ count, count < bytes.length ∧ access.bytes = (bytes.take count).zipIdx address) := by
  refine triple_bind _ (triple_ask timeless) fun answer => ?_
  cases answer with
  | error =>
    refine triple_pure fun _ start => ⟨start, rfl, nofun, fun _ => ⟨0, ?_, rfl⟩⟩
    exact length_pos_iff.mpr some_byte
  | ok count =>
    refine triple_pure fun _ start => ⟨start, rfl, ?_, ?_⟩
    · intro complete
      by_cases short : count < bytes.length
      · simp [short] at complete
      · rw [take_of_length_le (Nat.le_of_not_lt short)]
    · intro incomplete
      by_cases short : count < bytes.length
      · exact ⟨count, short, rfl⟩
      · simp [short] at incomplete

theorem writeTraceeMemory_triple (timeless : Timeless pre) (sized : instruction.WriteSized) :
    Triple pre (kernel.writeTraceeMemory instruction) fun access helper =>
      pre helper ∧ access.Covers instruction := by
  have length := sized.length_payload
  rw [writeTraceeMemory, if_neg (not_or.mpr ⟨sized.1, Nat.not_lt.mpr sized.2⟩)]
  refine triple_bind _ (writeMemoryViaProcMem_triple timeless sized.payload_ne_nil) fun access => ?_
  split
  next complete =>
    refine triple_pure fun helper done => ⟨done.1, fun _ => ?_⟩
    rw [done.2.2.1 complete, done.2.1]
    simp
  next incomplete =>
    refine triple_get_bind fun helper => ?_
    split
    · exact triple_pure fun _ tried => ⟨tried.2.1, nofun⟩
    · split
      next wraps =>
        refine triple_pure fun _ tried => ⟨tried.2.1, fun _ => ?_⟩
        rcases tried.2.2.2.2 incomplete with ⟨_, short, bytesEq⟩
        rw [length] at wraps
        simp only [bytesEq, wraps, and_self, not_true_eq_false, iff_false]
        exact not_zipIdx_subset_take short
      next noWrap =>
        rw [length] at noWrap
        refine triple_post (triple_pre (fun _ tried => tried.2.1)
          (pokeWords_triple timeless _ _ _ _)) ?_
        rintro poked helper ⟨start, _, included⟩
        refine ⟨start, fun ok => ?_⟩
        simp only [noWrap, Bool.false_eq_true, false_and, not_false_eq_true, iff_true]
        exact (append_subset.mp (included ok)).2

theorem peekWords_triple (timeless : Timeless pre) (rounds cursor size : ℕ)
    (actual : List UInt8) :
    Triple pre (kernel.peekWords rounds cursor size actual) fun _ => pre := by
  induction rounds generalizing cursor size actual with
  | zero =>
    cases size with
    | zero => exact triple_pure fun _ start => start
    | succ => exact triple_throw
  | succ _ ih =>
    cases size with
    | zero => exact triple_pure fun _ start => start
    | succ =>
      refine triple_bind_except (triple_ask timeless)
        (fun _ => triple_pure fun _ start => start) fun word => ?_
      exact ih _ _ _

theorem compareMemory_bytes {actual expected : List UInt8} {fellBack : Bool}
    (same : (compareMemory address actual expected fellBack).errno = none) :
    (compareMemory address actual expected fellBack).bytes = expected.zipIdx address := by
  by_cases equal : actual = expected
  · rw [compareMemory, equal]
  · simp [compareMemory, equal] at same

theorem verifyMemoryViaPtrace_triple (timeless : Timeless pre) {expected : List UInt8}
    (some_byte : expected ≠ []) :
    Triple pre (kernel.verifyMemoryViaPtrace address expected) fun access helper =>
      pre helper ∧ (access.errno = none → access.fellBack ∧
        (expected.zipIdx address ⊆ access.bytes ↔ rangeWraps address expected.length = false)) := by
  refine triple_get_bind fun helper => ?_
  split
  · exact triple_pure fun _ start => ⟨start.2, nofun⟩
  · split
    next wraps =>
      refine triple_bind _ (triple_pre (fun _ start => start.2) (triple_ask timeless))
        fun stack => triple_pure fun _ start => ⟨start, fun _ => ⟨rfl, ?_⟩⟩
      simpa [wraps] using some_byte
    next noWrap =>
      refine triple_bind_except (triple_pre (fun _ start => start.2)
        (peekWords_triple timeless _ _ _ _))
        (fun _ => triple_pure fun _ start => ⟨start, nofun⟩) fun actual => ?_
      refine triple_pure fun _ start => ⟨start, fun same => ⟨rfl, ?_⟩⟩
      rw [compareMemory_bytes same]
      simpa using noWrap

theorem verifyTraceeMemory_triple (timeless : Timeless pre) (sized : instruction.WriteSized) :
    Triple pre (kernel.verifyTraceeMemory instruction) fun access helper =>
      pre helper ∧ access.Covers instruction := by
  have length := sized.length_payload
  have viaPtrace : Triple pre
      (kernel.verifyMemoryViaPtrace instruction.start instruction.payload) fun access helper =>
      pre helper ∧ access.Covers instruction := by
    refine triple_post (verifyMemoryViaPtrace_triple timeless sized.payload_ne_nil) ?_
    rintro access helper ⟨start, verified⟩
    refine ⟨start, fun same => ?_⟩
    rcases verified same with ⟨fellBack, covered⟩
    rw [covered, length, fellBack]
    simp
  rw [verifyTraceeMemory, if_neg (not_or.mpr ⟨sized.1, Nat.not_lt.mpr sized.2⟩)]
  refine triple_bind _ (triple_ask timeless) fun answer => ?_
  cases answer with
  | error => exact viaPtrace
  | ok =>
    dsimp only
    split
    · refine triple_pure fun _ start => ⟨start, fun same => ?_⟩
      rw [compareMemory_bytes same]
      simp [compareMemory]
    · exact viaPtrace

def Written (writes : List HelperInstruction) (helper : Helper) : Prop :=
  (Tracing helper ∧ Unrefused helper.log) ∧
    (memoryRecords helper.log).map (·.instruction) = writes ∧
    ∀ record ∈ memoryRecords helper.log, record.Exact

def Placed (log : List HelperEvent) (instruction : HelperInstruction) : Prop :=
  ∃ early late stopped, log = early ++ .setPc instruction.tid instruction.pc.toNat ::
    .registers instruction.tid instruction.pc.toNat stopped :: late

def Mutated (writes placements : List HelperInstruction) (helper : Helper) : Prop :=
  Written writes helper ∧ ∀ instruction ∈ placements, Placed helper.log instruction

theorem Placed.note {log : List HelperEvent} (placed : Placed log instruction)
    (event : HelperEvent) : Placed (log ++ [event]) instruction := by
  rcases placed with ⟨early, late, stopped, rfl⟩
  exact ⟨early, late ++ [event], stopped, by simp⟩

theorem Mutated.note {writes placements : List HelperInstruction} {helper : Helper}
    (mutated : Mutated writes placements helper) {event : HelperEvent}
    (unrefused : ∀ attached, event ≠ .refused attached)
    (noRecord : ∀ record, event ≠ .wrote record) :
    Mutated writes placements (helper.note event) := by
  rcases mutated with ⟨⟨⟨tracing, unrefusedLog⟩, instructions, exact_⟩, placed⟩
  have same : memoryRecords (helper.log ++ [event]) = memoryRecords helper.log := by
    rw [memoryRecords_append]
    cases event with
    | wrote record => exact absurd rfl (noRecord record)
    | registers _ _ _ | listed _ | refused _ | setPc _ _ => exact append_nil _
  refine ⟨⟨⟨tracing, unrefusedLog.note unrefused⟩, ?_, ?_⟩, ?_⟩
  · rw [Helper.note, same]
    exact instructions
  · rw [Helper.note, same]
    exact exact_
  · exact fun instruction instructionMem => (placed instruction instructionMem).note event

theorem applyWriteInstruction_triple (sized : instruction.WriteSized)
    (writes : List HelperInstruction) :
    Triple (Written writes) (kernel.applyWriteInstruction instruction)
      (StepEnds (Written (writes ++ [instruction])) Orderly) := by
  refine triple_bind _ (writeTraceeMemory_triple (fun _ written => written) sized) fun access => ?_
  split
  · refine triple_bind (fun _ => Orderly)
      (triple_modify ?_) fun _ => triple_pure fun _ kept => ⟨nofun, kept⟩
    exact fun helper written => ⟨written.1.1.1, written.1.1.2.note nofun⟩
  next complete =>
    refine triple_bind _ (verifyTraceeMemory_triple (fun _ written => written) sized)
      fun verify => ?_
    refine triple_bind (fun _ helper => Orderly helper ∧
      (verify.errno = none → Written (writes ++ [instruction]) helper)) (triple_modify ?_)
      fun _ => triple_pure ?_
    · rintro helper ⟨⟨⟨⟨tracing, unrefused⟩, instructions, exact_⟩, applied⟩, verified⟩
      refine ⟨⟨tracing, unrefused.note nofun⟩,
        fun same => ⟨⟨tracing, unrefused.note nofun⟩, ?_, ?_⟩⟩
      · rw [Helper.note, memoryRecords_append, map_append, instructions]
        rfl
      · intro record recordMem
        rw [Helper.note, memoryRecords_append] at recordMem
        rcases mem_append.mp recordMem with earlier | last
        · exact exact_ record earlier
        · rw [mem_singleton.mp last]
          simp only [MemoryRecord.Exact, MemoryRecord.Applied, MemoryRecord.ReadBack,
            MemoryRecord.Skipped, applied complete, verified same]
          tauto
    · rintro helper ⟨kept, written⟩
      cases ended : verify.errno with
      | none => exact written ended
      | some => exact ⟨nofun, kept⟩

theorem isTraced_triple {tid : ℤ} : Triple pre (isTraced tid) fun _ => pre :=
  triple_get_bind fun _ => triple_pure fun _ start => start.2

theorem applySetPcInstruction_triple (writes placements : List HelperInstruction) :
    Triple (Mutated writes placements) (kernel.applySetPcInstruction instruction)
      (StepEnds (Mutated writes (placements ++ [instruction])) Orderly) := by
  refine triple_bind _ isTraced_triple fun isTraced => ?_
  split
  · exact triple_pure fun _ mutated => ⟨nofun, mutated.1.1⟩
  · refine triple_bind_except (readPc_triple (fun _ => Mutated writes placements)
      (fun _ mutated => mutated) fun _ _ mutated => mutated.note nofun nofun)
      (fun _ => triple_pure fun _ mutated => ⟨nofun, mutated.1.1⟩) fun _ => ?_
    refine triple_bind_option (triple_ask fun _ mutated => mutated)
      (fun _ => triple_pure fun _ mutated => ⟨nofun, mutated.1.1⟩) ?_
    -- the next event on the log is the program counter that is read back
    refine triple_bind
      (fun _ helper => Mutated writes placements helper ∧
        ∃ early, helper.log = early ++ [.setPc instruction.tid instruction.pc.toNat])
      (triple_modify fun helper mutated => ⟨mutated.note nofun nofun, helper.log, rfl⟩)
      fun _ => ?_
    refine triple_bind _ (readPc_triple
      (fun pc helper => Mutated writes placements helper ∧
        (pc = instruction.pc.toNat → Placed helper.log instruction))
      (fun _ placed => placed) ?_) fun read => ?_
    · rintro helper pc ⟨mutated, early, logEq⟩
      refine ⟨mutated.note nofun nofun, ?_⟩
      rintro rfl
      refine ⟨early, [], helper.stopped.contains instruction.tid, ?_⟩
      rw [Helper.note, logEq, append_assoc]
      rfl
    · cases read with
      | error => exact triple_pure fun _ placed => ⟨nofun, placed.1.1.1⟩
      | ok pc =>
        refine triple_pure fun helper placed => ?_
        by_cases same : pc = instruction.pc.toNat
        · rw [if_pos same]
          exact ⟨placed.1.1, forall_mem_append.mpr
            ⟨placed.1.2, forall_mem_singleton.mpr (placed.2 same)⟩⟩
        · rw [if_neg same]
          exact ⟨nofun, placed.1.1.1⟩

theorem applyEach_triple {apply : HelperInstruction → HelperM (Option HelperFailure)}
    (invariant : List HelperInstruction → Helper → Prop) (fails : Helper → Prop)
    (instructions done : List HelperInstruction)
    (each : ∀ done, ∀ instruction ∈ instructions, Triple (invariant done) (apply instruction)
      (StepEnds (invariant (done ++ [instruction])) fails)) :
    Triple (invariant done) (applyEach apply instructions)
      (StepEnds (invariant (done ++ instructions)) fails) := by
  induction instructions generalizing done with
  | nil =>
    rw [append_nil]
    exact triple_pure fun _ holds => holds
  | cons instruction _ ih =>
    refine triple_bind_option (each done instruction (.head _))
      (fun _ => triple_pure fun _ failed => failed) ?_
    have rest := ih (done ++ [instruction])
      fun done other otherMem => each done other (.tail _ otherMem)
    rw [append_assoc] at rest
    exact rest

def WritesSized (instructions : List HelperInstruction) : Prop :=
  ∀ instruction ∈ instructions, instruction.action = .writeMemory → instruction.WriteSized

variable {instructions : List HelperInstruction}

theorem mutateTarget_triple (sized : WritesSized instructions) :
    Triple (Written []) (kernel.mutateTarget instructions)
      (StepEnds
        (Mutated (instructions.filter (·.action = .writeMemory))
          (instructions.filter (·.action = .setPc))) Orderly) := by
  refine triple_bind _ (applyEach_triple Written Orderly _ []
    fun done instruction instructionMem => ?_) fun result => ?_
  · rw [mem_filter, decide_eq_true_eq] at instructionMem
    exact applyWriteInstruction_triple (sized instruction instructionMem.1 instructionMem.2) done
  · cases result with
    | some => exact triple_pure fun _ failed => failed
    | none =>
      refine triple_pre ?_ (applyEach_triple (Mutated _) _ _ []
        fun done instruction _ => applySetPcInstruction_triple _ done)
      exact fun _ written => ⟨written, nofun⟩

def Prepared (helper : Helper) : Prop :=
  Tracing helper ∧ Untouched helper.log

theorem Prepared.written {helper : Helper} (prepared : Prepared helper) : Written [] helper := by
  refine ⟨⟨prepared.1, prepared.2.unrefused⟩, ?_, ?_⟩
  · rw [prepared.2.memoryRecords]
    rfl
  · rw [prepared.2.memoryRecords]
    exact nofun

theorem observePc_triple {tid : ℤ} : Triple Prepared (kernel.readPc tid) fun _ => Prepared := by
  refine triple_post (readPc_triple (fun _ => Prepared) (fun _ prepared => prepared) ?_) ?_
  · exact fun _ _ prepared => ⟨prepared.1, prepared.2.note rfl⟩
  · intro result helper observed
    cases result with
    | error => exact observed
    | ok => exact observed

theorem WritesSized.append (sized : WritesSized instructions)
    (last : instruction.action = .writeMemory → instruction.WriteSized) :
    WritesSized (instructions ++ [instruction]) :=
  forall_mem_append.mpr ⟨sized, forall_mem_singleton.mpr last⟩

theorem validateInstruction_triple (validated : List HelperInstruction) :
    Triple (fun helper => Prepared helper ∧ WritesSized validated)
      (kernel.validateInstruction instruction)
      (StepEnds (fun helper => Prepared helper ∧ WritesSized (validated ++ [instruction]))
        Prepared) := by
  rw [validateInstruction]
  split
  next action =>
    refine triple_bind _ isTraced_triple fun isTraced => ?_
    split
    · exact triple_pure fun _ start => ⟨nofun, start.1⟩
    · refine triple_bind (fun result helper => Prepared helper ∧ WritesSized validated) ?_
        fun read => ?_
      · intro helper read final start ok
        exact ⟨observePc_triple helper read final start.1 ok, start.2⟩
      · cases read with
        | error => exact triple_pure fun _ start => ⟨nofun, start.1⟩
        | ok =>
          refine triple_pure fun _ start => ⟨start.1, start.2.append ?_⟩
          rw [action]
          exact nofun
  next action =>
    refine triple_bind _ isTraced_triple fun isTraced => ?_
    split
    · exact triple_pure fun _ start => ⟨nofun, start.1⟩
    · split
      · exact triple_pure fun _ start => ⟨nofun, start.1⟩
      · refine triple_pure fun _ start => ⟨start.1, start.2.append ?_⟩
        rw [action]
        exact nofun
  · split
    · exact triple_pure fun _ start => ⟨nofun, start.1⟩
    next valid =>
      rw [not_or, not_or, Nat.not_lt] at valid
      exact triple_pure fun _ start => ⟨start.1, start.2.append fun _ => valid.2⟩
  · exact triple_pure fun _ start => ⟨nofun, start.1⟩

theorem stepOutOfRange_triple (steps : ℕ) :
    Triple Prepared (kernel.stepOutOfRange limit instruction steps)
      (StepEnds Prepared Prepared) := by
  induction steps with
  | zero =>
    refine triple_bind_except observePc_triple
      (fun _ => triple_pure fun _ prepared => ⟨nofun, prepared⟩) fun pc => ?_
    dsimp only
    split
    · exact triple_pure fun _ prepared => ⟨nofun, prepared⟩
    · exact triple_pure fun _ prepared => prepared
  | succ _ ih =>
    refine triple_bind_except observePc_triple
      (fun _ => triple_pure fun _ prepared => ⟨nofun, prepared⟩) fun pc => ?_
    dsimp only
    split
    · exact triple_pure fun _ prepared => prepared
    · refine triple_bind_option (triple_ask fun _ prepared => prepared)
        (fun _ => triple_pure fun _ prepared => ⟨nofun, prepared⟩) ?_
      refine triple_bind (fun _ => Prepared) (triple_modify fun _ prepared => prepared) fun _ => ?_
      refine triple_bind _ (triple_ask fun _ prepared => prepared) fun now => ?_
      refine triple_bind _ (waitForSingleStepStop_triple (fun _ prepared => prepared)
        (fun _ prepared => prepared) limit) fun waited => ?_
      cases waited with
      | error =>
        refine triple_pure fun _ prepared => ⟨?_, prepared⟩
        dsimp only
        split <;> decide
      | ok =>
        dsimp only
        split
        · refine triple_bind (fun _ => Prepared) (triple_modify ?_)
            fun _ => triple_pure fun _ prepared => ⟨nofun, prepared⟩
          exact fun _ prepared => ⟨prepared.1.setSignal _ _, prepared.2⟩
        · exact ih

theorem applySingleStep_triple :
    Triple Prepared (kernel.applySingleStepOutOfRangeInstruction limit instruction)
      (StepEnds Prepared Prepared) := by
  refine triple_bind _ isTraced_triple fun isTraced => ?_
  split
  · exact triple_pure fun _ prepared => ⟨nofun, prepared⟩
  · exact stepOutOfRange_triple _

theorem verifyStopped_triple :
    Triple Prepared (kernel.verifyStopped limit controllerTid) (StepEnds Prepared Prepared) := by
  refine triple_bind_option (verify_triple (fun _ prepared => prepared) limit controllerTid)
    (fun _ => triple_pure fun _ prepared => ⟨nofun, prepared⟩) ?_
  refine triple_pure ?_
  rintro _ ⟨_, _, prepared, rfl, _⟩
  exact ⟨prepared.1, prepared.2.note rfl⟩

theorem prepareInstructions_triple :
    Triple Prepared (kernel.prepareInstructions limit controllerTid instructions)
      (StepEnds (fun helper => Prepared helper ∧ WritesSized instructions) Prepared) := by
  refine triple_bind_option (triple_pre (fun _ prepared => ⟨prepared, nofun⟩) (applyEach_triple
    (fun validated helper => Prepared helper ∧ WritesSized validated) Prepared instructions []
    fun done instruction _ => validateInstruction_triple done))
    (fun _ => triple_pure fun _ failed => failed) ?_
  -- the sizes do not depend on the state and hold for the rest of the preparation
  refine triple_pre (fun _ start => ⟨start.2, start.1⟩)
    (triple_of_fact fun sized => triple_bind _ verifyStopped_triple fun result => ?_)
  cases result with
  | some => exact triple_pure fun _ failed => failed
  | none =>
    refine triple_bind_option (applyEach_triple (fun _ => Prepared) Prepared _ []
      fun _ _ _ => applySingleStep_triple) (fun _ => triple_pure fun _ failed => failed) ?_
    refine triple_post verifyStopped_triple ?_
    intro result helper ended
    cases result with
    | some => exact ended
    | none => exact ⟨ended, sized⟩

/-- How `apply_instructions` ends. A failure before the first mutation has left the target
untouched. -/
def InstructionsEnd (instructions : List HelperInstruction) :
    Option HelperFailure × Bool → Helper → Prop
  | (none, _), helper =>
    Mutated (instructions.filter (·.action = .writeMemory))
      (instructions.filter (·.action = .setPc)) helper
  | (some _, true), helper => Tracing helper ∧ Unrefused helper.log
  | (some failure, false), helper => failure.status ≠ .ok ∧ Prepared helper

theorem applyInstructions_triple :
    Triple Prepared (kernel.applyInstructions limit controllerTid instructions)
      (InstructionsEnd instructions) := by
  refine triple_bind_option prepareInstructions_triple
    (fun _ => triple_pure fun _ failed => failed) ?_
  refine triple_pre (fun _ prepared => ⟨prepared.2, prepared.1.written⟩)
    (triple_of_fact fun sized => triple_bind _ (mutateTarget_triple sized) fun result => ?_)
  cases result with
  | some => exact triple_pure fun _ failed => failed.2
  | none => exact triple_pure fun _ mutated => mutated

/-- How an evacuation is answered: all instructions carried out, a failed release, or an untouched
target and no thread held. -/
def Evacuated (instructions : List HelperInstruction) (response : HelperResponse)
    (helper : Helper) : Prop :=
  response.status = .ok ∧
      Mutated (instructions.filter (·.action = .writeMemory))
        (instructions.filter (·.action = .setPc)) helper ∨
    response.status = .releaseFailed ∧ Tracing helper ∧ Unrefused helper.log ∨
    response.status ≠ .ok ∧ Prepared helper ∧ helper.held = []

theorem evacuate_triple :
    Triple Prepared (kernel.evacuate limit controllerTid instructions)
      (Evacuated instructions) := by
  refine triple_bind _ applyInstructions_triple fun result => ?_
  rcases result with ⟨_ | failure, _ | _⟩
  · exact triple_pure fun _ mutated => .inl ⟨rfl, mutated⟩
  · exact triple_pure fun _ mutated => .inl ⟨rfl, mutated⟩
  · refine triple_of_fact fun notOk => triple_bind _ (cleanup_triple failure.status _)
      fun result => ?_
    refine triple_pure ?_
    rintro helper ⟨prepared, ⟨same, nothing⟩ | failed⟩
    · exact .inr (.inr ⟨ne_of_eq_of_ne same notOk, prepared, nothing⟩)
    · exact .inr (.inl ⟨failed, prepared.1, Untouched.unrefused prepared.2⟩)
  · exact triple_pure fun _ kept => .inr (.inl ⟨rfl, kept⟩)

end Kernel

end Peak
