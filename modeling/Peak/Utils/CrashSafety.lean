import Peak.Utils.SnapshotInstall

/-!
# Crash safety of the parent registry

From every directory that a process killed during an installation leaves, the next process reads the
old snapshot or the new one. This fails only for a new snapshot beyond the limit of the reader,
which the installation does not check.
-/

namespace Peak

open RegistryKernel List

open Program RegistryDirectory

variable {entries : List ParentEntry}

/-- Every directory in which the process may have been killed so far is safe. -/
def Trailed (safe : RegistryDirectory → Prop) (installation : Installation) : Prop :=
  ∀ left ∈ installation.trail, safe left

/-- From a directory with `pre`, the program leaves only safe directories, and one with `post`
when it returns. -/
def Installs {α : Type} (safe pre : RegistryDirectory → Prop) (program : InstallM α)
    (post : α → RegistryDirectory → Prop) : Prop :=
  Triple (fun installation => Trailed safe installation ∧ pre installation.directory) program
    fun value installation => Trailed safe installation ∧ post value installation.directory

def CallEnds {α : Type} (failed : RegistryDirectory → Prop)
    (succeeded : α → RegistryDirectory → Prop) : Except RegistryErrno α → RegistryDirectory → Prop
  | .error _ => failed
  | .ok value => succeeded value

section

variable {α β : Type} {kernel : RegistryKernel} {safe pre pre' failed : RegistryDirectory → Prop}
  {post post' : α → RegistryDirectory → Prop}

theorem installs_pure {value : α} (holds : ∀ directory, pre directory → post value directory) :
    Installs safe pre (pure value) post :=
  triple_pure fun installation start => ⟨start.1, holds installation.directory start.2⟩

variable {program : InstallM α}

theorem installs_bind {next : α → InstallM β} {post : β → RegistryDirectory → Prop}
    (middle : α → RegistryDirectory → Prop) (first : Installs safe pre program middle)
    (rest : ∀ value, Installs safe (middle value) (next value) post) :
    Installs safe pre (program >>= next) post :=
  triple_bind _ first rest

theorem installs_bind_call {program : InstallM (Except RegistryErrno α)}
    {next : Except RegistryErrno α → InstallM β} {ends : β → RegistryDirectory → Prop}
    (failed : RegistryDirectory → Prop) (post : α → RegistryDirectory → Prop)
    (first : Installs safe pre program (CallEnds failed post))
    (fails : ∀ errno, Installs safe failed (next (.error errno)) ends)
    (rest : ∀ value, Installs safe (post value) (next (.ok value)) ends) :
    Installs safe pre (program >>= next) ends :=
  triple_bind_except first fails rest

theorem installs_pre (triple : Installs safe pre' program post)
    (weaken : ∀ directory, pre directory → pre' directory) : Installs safe pre program post :=
  triple_pre (fun _ start => ⟨start.1, weaken _ start.2⟩) triple

theorem installs_post (triple : Installs safe pre program post')
    (strengthen : ∀ value directory, post' value directory → post value directory) :
    Installs safe pre program post :=
  triple_post triple fun value _ ended => ⟨ended.1, strengthen value _ ended.2⟩

theorem installs_of_fact {fact : Prop} (triple : fact → Installs safe pre program post) :
    Installs safe (fun directory => fact ∧ pre directory) program post :=
  triple_pre (fun _ start => ⟨start.2.1, start.1, start.2.2⟩) (triple_of_fact triple)

theorem Trailed.after {installation : Installation} {directory : RegistryDirectory}
    (trailed : Trailed safe installation) (isSafe : safe directory) :
    Trailed safe (installation.after directory) :=
  forall_mem_append.mpr ⟨trailed, forall_mem_singleton.mpr isSafe⟩

theorem installs_call
    {effect : ℕ → RegistryDirectory → Except RegistryErrno (α × RegistryDirectory)}
    (keeps : ∀ directory, failed directory → safe directory)
    (reaches : ∀ value directory, post value directory → safe directory)
    (faulty : kernel.Faulty → ∀ directory, pre directory → failed directory)
    (refused : ∀ calls directory errno, pre directory → effect calls directory = .error errno →
      failed directory)
    (acted : ∀ calls directory value reached, pre directory →
      effect calls directory = .ok (value, reached) → post value reached) :
    Installs safe pre (kernel.call effect) (CallEnds failed post) := by
  intro installation result final start ok
  have atFailure : failed installation.directory →
      Trailed safe (installation.after installation.directory) :=
    fun isFailed => start.1.after (keeps _ isFailed)
  unfold call at ok
  split at ok
  next errno fails =>
    cases ok
    have isFaulty : kernel.Faulty := ⟨installation.calls, by simp [fails]⟩
    have isFailed := faulty isFaulty _ start.2
    exact ⟨atFailure isFailed, isFailed⟩
  next =>
    split at ok
    next errno isError =>
      cases ok
      have isFailed := refused _ _ _ start.2 isError
      exact ⟨atFailure isFailed, isFailed⟩
    next value reached isOk =>
      cases ok
      have isReached := acted _ _ _ _ start.2 isOk
      exact ⟨start.1.after (reaches _ _ isReached), isReached⟩

variable {succeeded : RegistryDirectory → Prop}
  {effect : RegistryDirectory → Except RegistryErrno RegistryDirectory}

section

variable (keeps : ∀ directory, failed directory → safe directory)
  (reaches : ∀ directory, succeeded directory → safe directory)
  (faulty : kernel.Faulty → ∀ directory, pre directory → failed directory)

include keeps reaches faulty

theorem installs_act
    (refused : ∀ directory errno, pre directory → effect directory = .error errno →
      failed directory)
    (acted : ∀ directory reached, pre directory → effect directory = .ok reached →
      succeeded reached) :
    Installs safe pre (kernel.act effect) (CallEnds failed fun _ => succeeded) := by
  apply installs_call keeps (fun _ => reaches) faulty
  · intro _ directory errno start isError
    cases done : effect directory with
    | error errno => exact refused directory errno start done
    | ok =>
      rw [done] at isError
      cases isError
  · intro _ directory _ reached start isOk
    cases done : effect directory with
    | error =>
      rw [done] at isOk
      cases isOk
    | ok =>
      rw [done] at isOk
      cases isOk
      exact acted directory reached start done

theorem installs_act_ok (acts : ∀ directory, pre directory →
      ∃ reached, effect directory = .ok reached ∧ succeeded reached) :
    Installs safe pre (kernel.act effect) (CallEnds failed fun _ => succeeded) := by
  apply installs_act keeps reaches faulty
  · intro directory errno start isError
    rcases acts directory start with ⟨_, isOk, _⟩
    rw [isOk] at isError
    cases isError
  · intro directory reached start isOk
    rcases acts directory start with ⟨_, isOk', isReached⟩
    rw [isOk'] at isOk
    cases isOk
    exact isReached

end

theorem installs_ignored (keeps : ∀ directory, succeeded directory → safe directory)
    (skipped : ∀ directory, pre directory → succeeded directory)
    (acted : ∀ directory reached, pre directory → effect directory = .ok reached →
      succeeded reached) :
    Installs safe pre (kernel.act effect) fun _ => succeeded := by
  apply installs_post (installs_act keeps keeps (fun _ => skipped)
    (fun directory _ start _ => skipped directory start) acted)
  intro result directory ended
  cases result <;> exact ended

theorem installs_sync (keeps : ∀ directory, pre directory → safe directory)
    (lost : ∀ directory, failed directory → safe directory)
    (faulty : kernel.Faulty → ∀ directory, pre directory → failed directory) :
    Installs safe pre kernel.sync (CallEnds failed fun _ => pre) :=
  installs_act_ok lost keeps faulty fun directory start => ⟨directory, rfl, start⟩

end

def Left (old : Option (List Char)) (new : List Char) (directory : RegistryDirectory) : Prop :=
  Holds old directory ∨ Holds (some new) directory

section

variable {kernel : RegistryKernel} {old : Option (List Char)} {new : List Char} {blocked : Prop}
  {attempt file : ℕ}

/-- An installation fails only if it is `blocked`, and leaves a snapshot in any case. -/
abbrev InstallEnds (old : Option (List Char)) (new : List Char) (blocked : Prop) :
    Except RegistryErrno Unit → RegistryDirectory → Prop :=
  CallEnds (fun directory => blocked ∧ Left old new directory) fun _ => Holds (some new)

/-- The installation is given up with the new file under its temporary name. -/
abbrev Stuck (blocked : Prop) (old : Option (List Char)) (attempt file : ℕ)
    (directory : RegistryDirectory) : Prop :=
  blocked ∧ Staged old attempt file directory

variable {directory : RegistryDirectory}

theorem Staged.left (staged : Staged old attempt file directory) : Left old new directory :=
  .inl staged.holds

theorem installs_unlinkBackup :
    Installs (Left old new) (Stuck blocked old attempt file)
      (kernel.act (·.unlinkat .backup false))
      fun _ => Stuck blocked old attempt file := by
  apply installs_ignored
  · exact fun _ start => start.2.left
  · exact fun _ start => start
  · intro directory reached start removed
    rw [eq_remove_of_unlinkat removed]
    exact ⟨start.1, start.2.remove_backup⟩

theorem installs_failTemp {opened : Bool} {errno : RegistryErrno} :
    Installs (Left old new) (Stuck blocked old attempt file)
      (kernel.failTemp attempt opened errno) (InstallEnds old new blocked) := by
  have unlinked : Installs (Left old new) (Stuck blocked old attempt file)
      (do
        let _ ← kernel.act (·.unlinkat (.temp attempt) false)
        pure (.error errno))
      (InstallEnds old new blocked) := by
    refine installs_bind (fun _ directory => blocked ∧ Left old new directory) ?_
      fun _ => installs_pure fun _ left => left
    apply installs_ignored
    · exact fun _ left => left.2
    · exact fun _ start => ⟨start.1, start.2.left⟩
    · intro directory reached start removed
      rw [eq_remove_of_unlinkat removed]
      exact ⟨start.1, .inl start.2.remove_temp⟩
  cases opened with
  | false => exact unlinked
  | true =>
    refine installs_bind (fun _ => Stuck blocked old attempt file) ?_ fun _ => unlinked
    apply installs_ignored
    · exact fun _ start => start.2.left
    · exact fun _ start => start
    · rintro directory reached start ⟨⟩
      exact start

theorem installs_rollbackSnapshot :
    Installs (Left old new) (Replaced old new) (kernel.rollbackSnapshot old.isSome)
      fun _ => Left old new := by
  have syncs : Installs (Left old new) (Left old new) kernel.sync fun _ => Left old new := by
    apply installs_ignored
    · exact fun _ left => left
    · exact fun _ left => left
    · rintro directory reached left ⟨⟩
      exact left
  have isLeft : ∀ directory, Replaced old new directory → Left old new directory :=
    fun directory replaced => .inr replaced.holds
  cases old with
  | none =>
    refine installs_bind (fun _ => Left none new) ?_ fun result => ?_
    · apply installs_ignored (fun _ left => left) isLeft
      intro directory reached replaced removed
      rw [eq_remove_of_unlinkat removed]
      exact .inl ⟨LinkedDirectory.lookup_remove_self, by simpa [Kept] using replaced.kept⟩
    · split
      · exact syncs
      · exact installs_pure fun _ left => left
      · exact syncs
  | some content =>
    refine installs_bind (fun _ => Left (some content) new) ?_ fun result => ?_
    · apply installs_ignored (fun _ left => left) isLeft
      intro directory reached replaced renamed
      rcases replaced.rename_backup with ⟨_, isOk, holds⟩
      rw [isOk] at renamed
      cases renamed
      exact .inl holds
    · split
      · exact installs_pure fun _ left => left
      · exact syncs

variable (faulty : kernel.Faulty → blocked)

include faulty

theorem installs_syncSnapshot :
    Installs (Left old new) (Replaced old new) (kernel.syncSnapshot old.isSome)
      (InstallEnds old new blocked) := by
  have isLeft : ∀ directory, Replaced old new directory → Left old new directory :=
    fun directory replaced => .inr replaced.holds
  refine installs_bind (CallEnds (fun directory => blocked ∧ Replaced old new directory)
    fun _ => Replaced old new) ?_ fun result => ?_
  · exact installs_sync isLeft (fun directory start => isLeft directory start.2)
      fun isFaulty _ replaced => ⟨faulty isFaulty, replaced⟩
  cases result with
  | error =>
    apply installs_of_fact
    intro isBlocked
    refine installs_bind _ installs_rollbackSnapshot fun rollback => ?_
    cases rollback <;> exact installs_pure fun _ left => ⟨isBlocked, left⟩
  | ok =>
    cases old with
    | none => exact installs_pure fun _ replaced => replaced.holds
    | some =>
      refine installs_bind (fun _ => Holds (some new)) ?_
        fun _ => installs_pure fun _ holds => holds
      apply installs_ignored
      · exact fun _ holds => .inr holds
      · exact fun _ replaced => replaced.holds
      · intro directory reached replaced removed
        rw [eq_remove_of_unlinkat removed]
        exact replaced.remove_backup

/-- The new file is complete, under its temporary name only. -/
structure Complete (old : Option (List Char)) (new : List Char) (attempt file : ℕ)
    (directory : RegistryDirectory) : Prop where
  staged : Staged old attempt file directory
  written : directory.files file = snapshotFile new

omit faulty in
theorem Complete.left {written : List Char} (complete : Complete old written attempt file directory)
    :
    Left old new directory :=
  complete.staged.left

theorem installs_renameSnapshot :
    Installs (Left old new)
      (fun directory => Complete old new attempt file directory ∧
        directory.lookup .backup = directory.lookup .data)
      (kernel.renameSnapshot attempt old.isSome) (InstallEnds old new blocked) := by
  refine installs_bind_call (Stuck blocked old attempt file) (fun _ => Replaced old new) ?_
    (fun errno => ?_) fun _ => installs_syncSnapshot faulty
  · apply installs_act_ok
    · exact fun _ start => start.2.left
    · exact fun _ replaced => .inr replaced.holds
    · exact fun isFaulty _ start => ⟨faulty isFaulty, start.1.staged⟩
    · exact fun _ start => start.1.staged.rename start.2 start.1.written
  · cases old with
    | none =>
      change Installs _ _ (kernel.failTemp attempt false errno) _
      exact installs_failTemp
    | some => exact installs_bind _ installs_unlinkBackup fun _ => installs_failTemp

theorem installs_replaceSnapshot :
    Installs (Left old new)
      (fun directory => Complete old new attempt file directory ∧ directory.lookup .backup = none)
      (kernel.replaceSnapshot attempt old.isSome) (InstallEnds old new blocked) := by
  refine installs_bind (fun _ directory =>
    Complete old new attempt file directory ∧ directory.lookup .backup = none) ?_ fun _ => ?_
  · apply installs_ignored
    · exact fun _ start => start.1.left
    · exact fun _ start => start
    · intro directory reached start removed
      rw [eq_remove_of_unlinkat removed]
      exact ⟨⟨start.1.staged.remove_backup, start.1.written⟩, LinkedDirectory.lookup_remove_self⟩
  cases old with
  | none =>
    apply installs_pre (installs_renameSnapshot faulty)
    intro directory start
    exact ⟨start.1, start.2.trans start.1.staged.holds.1.symm⟩
  | some content =>
    refine installs_bind_call (Stuck blocked (some content) attempt file) _ ?_
      (fun _ => installs_failTemp) fun _ => @installs_renameSnapshot _ _ _ _ _ file faulty
    apply installs_act_ok
    · exact fun _ start => start.2.left
    · exact fun _ start => start.1.left
    · exact fun isFaulty _ start => ⟨faulty isFaulty, start.1.staged⟩
    · intro directory start
      rcases start.1.staged.link start.2 with ⟨linked, isOk, staged, same, unchanged⟩
      exact ⟨linked, isOk, ⟨staged, unchanged.trans start.1.written⟩, same⟩

/-- The temporary file has the content `written` so far. -/
def Writing (old : Option (List Char)) (attempt file : ℕ) (written : List Char)
    (directory : RegistryDirectory) : Prop :=
  Complete old written attempt file directory ∧ directory.lookup .backup = none

omit faulty in
theorem Writing.append {written : List Char} (writing : Writing old attempt file written directory)
    (data : List Char) :
    Writing old attempt file (written ++ data) (directory.append file data) := by
  refine ⟨⟨writing.1.staged.write, ?_⟩, writing.2⟩
  simp [RegistryDirectory.append, writing.1.written, snapshotFile]

theorem installs_writeAll {rounds : ℕ} : ∀ (written data : List Char), data.length ≤ rounds →
    Installs (Left old new) (Writing old attempt file written)
      (kernel.writeAll file rounds data)
      (CallEnds (Stuck blocked old attempt file)
        fun _ => Writing old attempt file (written ++ data)) := by
  induction rounds with
  | zero =>
    intro written data few
    have nothing : data = [] := length_eq_zero_iff.mp (Nat.le_zero.mp few)
    apply installs_pure
    intro directory writing
    simpa [CallEnds, nothing] using writing
  | succ rounds hypothesis =>
    intro written data few
    unfold writeAll
    split
    next nothing =>
      apply installs_pure
      intro directory writing
      simpa [CallEnds, nothing] using writing
    next something =>
      refine installs_bind_call (Stuck blocked old attempt file)
        (fun count directory => 0 < count ∧
          Writing old attempt file (written ++ data.take count) directory) ?_
        (fun _ => installs_pure fun _ start => start) fun count => ?_
      · apply installs_call
        · exact fun _ start => start.2.left
        · exact fun _ _ start => start.2.1.left
        · exact fun isFaulty _ writing => ⟨faulty isFaulty, writing.1.staged⟩
        · intro calls directory errno _ isError
          cases isError
        · intro calls directory count reached writing isOk
          cases isOk
          have positive := length_pos_iff.mpr something
          exact ⟨by omega, writing.append _⟩
      apply installs_of_fact
      intro positive
      have rest : (data.drop count).length ≤ rounds := by
        rw [length_drop]
        omega
      have whole := hypothesis (written ++ data.take count) (data.drop count) rest
      rwa [append_assoc, take_append_drop] at whole

omit faulty in
theorem ParentEntry.length_record_lt (entry : ParentEntry) : entry.record.length < 96 := by
  have pid : (Nat.toDigits 10 entry.pid).length ≤ 10 :=
    Nat.toDigits_length 10 _ 10 (by decide) (by have := entry.pid.isLt; omega)
  have starttime : (Nat.toDigits 10 entry.starttime).length ≤ 20 :=
    Nat.toDigits_length 10 _ 20 (by decide) (by have := entry.starttime.isLt; omega)
  simp only [record, length_append, length_cons, length_nil]
  omega

theorem installs_writeEntries : ∀ written : List Char,
    Installs (Left old new) (Writing old attempt file written)
      (kernel.writeEntries file entries)
      (CallEnds (Stuck blocked old attempt file)
        fun _ => Writing old attempt file (written ++ snapshotContent entries)) := by
  induction entries with
  | nil =>
    intro written
    apply installs_pure
    intro directory writing
    simpa [CallEnds, snapshotContent] using writing
  | cons entry _ hypothesis =>
    intro written
    unfold writeEntries
    rw [if_neg (Nat.not_le.mpr entry.length_record_lt)]
    refine installs_bind_call _ _ (installs_writeAll faulty written entry.record le_rfl)
      (fun _ => installs_pure fun _ start => start) fun _ => ?_
    have rest := hypothesis (written ++ entry.record)
    rwa [append_assoc] at rest

end

section

variable {kernel : RegistryKernel} {old : Option (List Char)} {new : List Char} {blocked : Prop}
  {start : RegistryDirectory}

def Opened (old : Option (List Char)) (file : ℕ × ℕ) (directory : RegistryDirectory) : Prop :=
  Staged old file.1 file.2 directory ∧ directory.lookup .backup = none ∧
    (directory.files file.2).kind = .regular ∧ (directory.files file.2).owned ∧
      (directory.files file.2).content = []

theorem installs_openTemp (settled : Settled old start) (faulty : kernel.Faulty → blocked)
    (taken : start.lookup (.temp 0) ≠ none → blocked) {remaining : ℕ} :
    ∀ attempt, (remaining = 0 ∨ 0 < attempt → blocked) →
      Installs (Left old new) (· = start) (kernel.openTemp remaining attempt)
        (CallEnds (fun directory => blocked ∧ Left old new directory) (Opened old)) := by
  have isLeft : Left old new start := .inl settled.1
  induction remaining with
  | zero =>
    intro attempt exhausted
    apply installs_pure
    rintro directory rfl
    exact ⟨exhausted (.inl rfl), isLeft⟩
  | succ _ hypothesis =>
    intro attempt later
    refine installs_bind (CallEnds (fun directory => blocked ∧ directory = start)
      fun file => Opened old (attempt, file)) ?_ fun result => ?_
    · apply installs_call
      · rintro directory ⟨_, rfl⟩
        exact isLeft
      · exact fun _ _ opened => opened.1.left
      · exact fun isFaulty _ same => ⟨faulty isFaulty, same⟩
      · rintro calls directory errno rfl isError
        refine ⟨?_, rfl⟩
        unfold openExclusive at isError
        split at isError
        next => cases isError
        next present =>
          cases attempt with
          | zero => exact taken present
          | succ attempt => exact later (.inr (Nat.succ_pos attempt))
      · rintro calls directory file reached rfl isOk
        unfold openExclusive at isOk
        split at isOk
        next absent =>
          cases isOk
          refine ⟨Staged.create settled absent, ?_, ?_⟩
          · simpa using settled.2
          · simp
        next => cases isOk
    cases result with
    | error errno =>
      apply installs_of_fact
      intro isBlocked
      have again := hypothesis (attempt + 1) fun _ => isBlocked
      have fails : Installs (Left old new) (· = start)
          (pure (.error errno) : InstallM (Except RegistryErrno (ℕ × ℕ)))
          (CallEnds (fun directory => blocked ∧ Left old new directory) (Opened old)) := by
        apply installs_pure
        rintro directory rfl
        exact ⟨isBlocked, isLeft⟩
      cases errno <;> first | exact again | exact fails
    | ok => exact installs_pure fun _ opened => opened

theorem installs_fchmod {attempt file : ℕ} (faulty : kernel.Faulty → blocked) :
    Installs (Left old new) (Opened old (attempt, file))
      (kernel.act fun directory => .ok (directory.fchmod file 0o600))
      (CallEnds (Stuck blocked old attempt file) fun _ => Writing old attempt file []) := by
  apply installs_act_ok
  · exact fun _ failed => failed.2.left
  · exact fun _ writing => writing.1.left
  · exact fun isFaulty _ opened => ⟨faulty isFaulty, opened.1⟩
  · rintro directory ⟨staged, absent, regular, owned, empty⟩
    refine ⟨_, rfl, ⟨staged.write, ?_⟩, absent⟩
    simp [fchmod, snapshotFile, regular, owned, empty]

theorem installs_installSnapshot (entries : List ParentEntry) (settled : Settled old start)
    (faulty : kernel.Faulty → blocked) (taken : start.lookup (.temp 0) ≠ none → blocked) :
    Installs (Left old (snapshotContent entries)) (· = start)
      (kernel.installSnapshot entries old.isSome)
      (InstallEnds old (snapshotContent entries) blocked) := by
  have first : 128 = 0 ∨ 0 < 0 → blocked := by simp
  refine installs_bind_call _ _ (installs_openTemp settled faulty taken 0 first)
    (fun _ => installs_pure fun _ failed => failed) ?_
  rintro ⟨attempt, file⟩
  have syncs : Installs (Left old (snapshotContent entries))
      (Writing old attempt file (snapshotContent entries)) kernel.sync
      (CallEnds (Stuck blocked old attempt file)
        fun _ => Writing old attempt file (snapshotContent entries)) := by
    apply installs_sync
    · exact fun _ writing => writing.1.left
    · exact fun _ failed => failed.2.left
    · exact fun isFaulty _ writing => ⟨faulty isFaulty, writing.1.staged⟩
  refine installs_bind_call _ _ (installs_fchmod faulty) (fun _ => installs_failTemp) fun _ => ?_
  refine installs_bind_call _ _ (installs_writeEntries faulty []) (fun _ => installs_failTemp)
    fun _ => ?_
  refine installs_bind_call _ _ syncs (fun _ => installs_failTemp) fun _ => ?_
  refine installs_bind_call _ _ syncs (fun _ => installs_failTemp) fun _ => ?_
  exact installs_replaceSnapshot faulty

theorem install_spec (blocked : Prop) (entries : List ParentEntry) (settled : Settled old start)
    (faulty : kernel.Faulty → blocked) (taken : start.lookup (.temp 0) ≠ none → blocked) :
    Trailed (Left old (snapshotContent entries)) (kernel.install entries old.isSome start).2 ∧
      InstallEnds old (snapshotContent entries) blocked
        (kernel.install entries old.isSome start).1
        (kernel.install entries old.isSome start).2.directory := by
  have first : Trailed (Left old (snapshotContent entries)) (.start start) := by
    intro left isLeft
    rw [mem_singleton.mp isLeft]
    exact .inl settled.1
  have spec := installs_installSnapshot entries settled faulty taken
  unfold install
  cases ran : kernel.installSnapshot entries old.isSome (.start start) with
  | error impossible => exact impossible.elim
  | ok => exact spec _ _ _ ⟨first, rfl⟩ ran

theorem install_succeeds (entries : List ParentEntry) (settled : Settled old start)
    (faultless : ¬ kernel.Faulty) (free : start.lookup (.temp 0) = none) :
    (kernel.install entries old.isSome start).1 = .ok () ∧
      Holds (some (snapshotContent entries))
        (kernel.install entries old.isSome start).2.directory := by
  have finished := (install_spec False entries settled faultless fun taken => taken free).2
  cases result : (kernel.install entries old.isSome start).1 with
  | error =>
    rw [result] at finished
    exact finished.1.elim
  | ok =>
    rw [result] at finished
    exact ⟨rfl, finished⟩

end

/-- A process that has read `old` installs the entries, and may be killed between any two calls. The
next process reads the old content or the new one, and the new one after success. -/
def CrashSafe (old : Option (List Char)) (entries : List ParentEntry) : Prop :=
  ∀ (found settled : RegistryDirectory) (kernel : RegistryKernel) (chunk : ℕ → ℕ),
    found.recoverSnapshotBackup = .ok settled → settled.readSnapshot chunk = .ok old →
      (∀ left ∈ (kernel.install entries old.isSome settled).2.trail, ∀ chunk,
        left.recoverAndRead chunk = .ok old ∨
          left.recoverAndRead chunk = .ok (some (snapshotContent entries))) ∧
      ((kernel.install entries old.isSome settled).1 = .ok () → ∀ chunk,
        (kernel.install entries old.isSome settled).2.directory.recoverAndRead chunk =
          .ok (some (snapshotContent entries)))

def RegistryDirectory.empty : RegistryDirectory where
  names := ∅
  files := fun _ => snapshotFile []
  elsewhere := fun _ => 0
  next := 0
  allocated := by simp
  unused := by simp

def RegistryDirectory.fresh : Option (List Char) → RegistryDirectory
  | none => empty
  | some content => empty.create .data (snapshotFile content)

theorem settled_fresh (content : Option (List Char)) : Settled content (fresh content) := by
  cases content with
  | none => exact ⟨⟨rfl, rfl⟩, rfl⟩
  | some => exact ⟨⟨0, rfl, rfl, rfl, nofun⟩, rfl⟩

def RegistryKernel.faultless : RegistryKernel where
  fails := fun _ => none
  accepts := fun _ => 96
  mode := 0o600

theorem RegistryKernel.not_faulty : ¬ faultless.Faulty := by
  rintro ⟨_, fails⟩
  exact fails rfl

theorem install_fresh (old : Option (List Char)) (entries : List ParentEntry) :
    (faultless.install entries old.isSome (fresh old)).1 = .ok () ∧
      Holds (some (snapshotContent entries))
        (faultless.install entries old.isSome (fresh old)).2.directory := by
  apply install_succeeds entries (settled_fresh old) not_faulty
  cases old <;> rfl

theorem not_crashSafe_of_oversized {old : Option (List Char)}
    (readable : ∀ snapshot ∈ old, snapshot.length ≤ maxSnapshot)
    (oversized : maxSnapshot < (snapshotContent entries).length) : ¬ CrashSafe old entries := by
  intro safe
  rcases install_fresh old entries with ⟨succeeded, holds⟩
  have settled := settled_fresh old
  have recovers : (fresh old).recoverSnapshotBackup = .ok (fresh old) := by
    simp only [recoverSnapshotBackup, settled.2]
  have reads := (safe (fresh old) (fresh old) .faultless (fun _ => 0) recovers
    (settled.readSnapshot_eq readable)).2 succeeded fun _ => 0
  rw [holds.recoverAndRead_oversized oversized] at reads
  cases reads

/-- Installing a snapshot is safe exactly if the new one is within the limit of the reader, as the
old one was. -/
theorem crash_safe_iff (old : Option (List Char)) (entries : List ParentEntry) :
    CrashSafe old entries ↔
      ((∀ snapshot ∈ old, snapshot.length ≤ maxSnapshot) →
        (snapshotContent entries).length ≤ maxSnapshot) := by
  constructor
  · intro safe readable
    by_contra oversized
    exact not_crashSafe_of_oversized readable (not_le.mp oversized) safe
  · intro bounded found settled kernel chunk recovers read
    rcases settled_of_readSnapshot (lookup_backup_of_recover recovers) read with
      ⟨isSettled, readable⟩
    have fits : ∀ snapshot ∈ some (snapshotContent entries), snapshot.length ≤ maxSnapshot := by
      rintro snapshot ⟨⟩
      exact bounded readable
    -- what may have failed does not matter here
    have anyway : kernel.Faulty → True := fun _ => trivial
    have spec := install_spec True entries isSettled anyway fun _ => trivial
    constructor
    · intro left isLeft chunk
      rcases spec.1 left isLeft with holds | holds
      · exact .inl (holds.recoverAndRead_eq readable)
      · exact .inr (holds.recoverAndRead_eq fits)
    · intro succeeded chunk
      have finished := spec.2
      rw [succeeded] at finished
      exact Holds.recoverAndRead_eq finished fits

/-- Their records have sixteen characters each, so that they fill the limit of the reader. -/
def liveEntries : List ParentEntry :=
  (range 65536).map fun index => ⟨Fin.ofNat _ (1000000 + index), 1000000⟩

def callerEntry : ParentEntry :=
  ⟨1065536, 1000000⟩

theorem length_toDigits_of_seven {number : ℕ} (above : 10 ^ 6 ≤ number) (below : number < 10 ^ 7) :
    (Nat.toDigits 10 number).length = 7 := by
  apply le_antisymm
  · exact (Nat.length_toDigits_le_iff (by decide) (by decide)).mpr below
  · have more := mt (Nat.length_toDigits_le_iff (by decide) (by decide)).mp (not_lt.mpr above)
    exact not_le.mp more

theorem length_snapshotContent_liveEntries :
    (snapshotContent liveEntries).length = maxSnapshot := by
  have record : ∀ entry ∈ liveEntries, entry.record.length = 16 := by
    intro entry isEntry
    rcases mem_map.mp isEntry with ⟨index, inRange, rfl⟩
    have lt := mem_range.mp inRange
    have pid : (Fin.ofNat (2 ^ 31) (1000000 + index)).val = 1000000 + index :=
      Nat.mod_eq_of_lt (by omega)
    have digits := length_toDigits_of_seven (Nat.le_add_right 1000000 index) (by omega)
    simp only [ParentEntry.record, length_append, length_cons, length_nil, pid, digits]
    rw [length_toDigits_of_seven] <;> decide
  rw [snapshotContent, length_flatMap, map_congr_left record, map_const', sum_replicate_nat,
    liveEntries, length_map, length_range]
  rfl

theorem install_oversized {old : List Char} (readable : old.length ≤ maxSnapshot)
    (oversized : maxSnapshot < (snapshotContent entries).length) :
    (∀ chunk, (fresh (some old)).recoverAndRead chunk = .ok (some old)) ∧
      (faultless.install entries true (fresh (some old))).1 = .ok () ∧
      (∀ chunk, (faultless.install entries true
        (fresh (some old))).2.directory.recoverAndRead chunk = .error .efbig) ∧
      ¬ CrashSafe (some old) entries := by
  have fits : ∀ snapshot ∈ some old, snapshot.length ≤ maxSnapshot := by
    rintro snapshot ⟨⟩
    exact readable
  rcases install_fresh (some old) entries with ⟨succeeded, holds⟩
  exact ⟨fun _ => Holds.recoverAndRead_eq (settled_fresh _).1 fits, succeeded,
    fun _ => holds.recoverAndRead_oversized oversized, not_crashSafe_of_oversized fits oversized⟩

/-- The caller is added to entries that could be read. The snapshot is installed with success, and
cannot be read again. -/
theorem oversized_snapshot_unreadable :
    let old := some (snapshotContent liveEntries)
    let entries := liveEntries ++ [callerEntry]
    (∀ chunk, (fresh old).recoverAndRead chunk = .ok old) ∧
      (RegistryKernel.faultless.install entries true (fresh old)).1 = .ok () ∧
      (∀ chunk, (RegistryKernel.faultless.install entries true
        (fresh old)).2.directory.recoverAndRead chunk = .error .efbig) ∧
      ¬ CrashSafe old entries := by
  apply install_oversized length_snapshotContent_liveEntries.le
  rw [snapshotContent, flatMap_append, length_append, ← snapshotContent,
    length_snapshotContent_liveEntries]
  simp [ParentEntry.record]

end Peak
