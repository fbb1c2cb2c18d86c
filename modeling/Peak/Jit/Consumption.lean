import Peak.Jit.Drain
import Peak.Common.Runs
import Mathlib.Order.Monotone.Defs

/-!
# Each line is consumed once

The reader commits an offset that is always the end of a line. A drain takes some of the lines
behind it, in order. It stops for ever at a line with a zero byte in the part that fits into the
buffer, since `strlen` sees no newline there. Without such lines, two drains take at least one line
while lines are left.
-/

namespace Peak.Jit

open List Lines Option

/-- The lines of a text that are ended by a newline. -/
abbrev lines (text : List UInt8) : List (List UInt8) :=
  complete newline text

def classify (line : List UInt8) : Consumed :=
  if line.length ≤ lineCapacity then .record line else .overlong

/-- The part of a line that the buffer takes has no zero byte. -/
def Readable (line : List UInt8) : Prop :=
  0 ∉ line.take lineCapacity

instance (line : List UInt8) : Decidable (Readable line) :=
  inferInstanceAs (Decidable (¬_))

/-- The readable lines `taken` stand between two positions. -/
structure Consumes (text : List UInt8) (start finish : ℕ) (taken : List (List UInt8)) : Prop where
  lines_eq : lines (text.drop start) = taken ++ lines (text.drop finish)
  finish_eq : finish = start + taken.flatten.length
  readable : ∀ line ∈ taken, Readable line

namespace Consumes

variable {text : List UInt8} {start middle finish : ℕ} {taken more : List (List UInt8)}

theorem refl (text : List UInt8) (start : ℕ) : Consumes text start start [] :=
  ⟨rfl, rfl, by simp⟩

theorem trans (first : Consumes text start middle taken)
    (second : Consumes text middle finish more) :
    Consumes text start finish (taken ++ more) where
  lines_eq := by rw [first.lines_eq, second.lines_eq, append_assoc]
  finish_eq := by
    rw [second.finish_eq, first.finish_eq, flatten_append, length_append]
    omega
  readable := forall_mem_append.mpr ⟨first.readable, second.readable⟩

theorem single {line rest : List UInt8} (behind : text.drop start = line ++ rest)
    (isLine : lines (line ++ rest) = line :: lines rest) (readable : Readable line) :
    Consumes text start (start + line.length) [line] where
  lines_eq := by
    rw [← drop_drop, behind, isLine, drop_left]
    rfl
  finish_eq := by simp
  readable := by simpa using readable

end Consumes

section Reading

variable {behind line stream : List UInt8} {shown skipShown skipped : ℕ}

theorem fgets_cases (read : fgets stream = some line) :
    (newline ∉ line ∧ line = stream.take lineCapacity) ∨
      ∃ body rest, newline ∉ body ∧ stream = body ++ newline :: rest ∧
        line = body ++ [newline] ∧ body.length < lineCapacity := by
  unfold fgets at read
  split at read
  next => cases read
  next =>
    cases read
    by_cases absent : newline ∈ stream.take lineCapacity
    · right
      rcases cases_first newline stream with without | ⟨body, rest, rfl, isBody⟩
      · exact absurd (mem_of_mem_take absent) without
      · have fits := (take_append_cons isBody absent).1
        exact ⟨body, rest, isBody, rfl, readLine_append_cons isBody fits rest, fits⟩
    · left
      rw [readLine_of_notMem absent]
      exact ⟨absent, rfl⟩

theorem newline_notMem_dropLast (read : fgets stream = some line) : newline ∉ line.dropLast := by
  rcases fgets_cases read with ⟨absent, _⟩ | ⟨_, _, isBody, _, rfl, _⟩
  · exact fun present => absent ((dropLast_sublist line).mem present)
  · simpa using isBody

theorem split_of_take {body rest : List UInt8}
    (whole : behind.take shown = body ++ newline :: rest) :
    body.length + 1 ≤ shown ∧ ∃ later, behind = body ++ newline :: later := by
  have size := congrArg List.length whole
  simp only [length_take, length_append, length_cons] at size
  refine ⟨by omega, rest ++ behind.drop shown, ?_⟩
  nth_rewrite 1 [← take_append_drop shown behind]
  simp [whole]

theorem lines_of_complete (read : fgets (behind.take shown) = some line)
    (complete : lineIsComplete line) :
    line.length ≤ shown ∧ line.length ≤ lineCapacity ∧ 0 ∉ line ∧
      ∃ rest, behind = line ++ rest ∧ lines (line ++ rest) = line :: lines rest := by
  rw [lineIsComplete_iff (newline_notMem_dropLast read)] at complete
  rcases fgets_cases read with ⟨absent, _⟩ | ⟨_, _, isBody, whole, rfl, fits⟩
  · exact absurd (mem_of_getLast? complete.2) absent
  · rcases split_of_take whole with ⟨size, later, rfl⟩
    refine ⟨by simpa using size, ?_, complete.1, later, by simp, ?_⟩
    · simpa [Nat.succ_le_iff] using fits
    · rw [append_assoc, singleton_append]
      exact complete_append_cons isBody _

theorem lines_of_overlong (read : fgets (behind.take shown) = some line)
    (incomplete : lineIsComplete line = false) (full : strlen line = lineCapacity)
    (skips : consumeOverlongLine ((behind.drop line.length).take skipShown) = some skipped) :
    0 < skipped ∧ skipped ≤ skipShown ∧ ∃ long rest, behind = long ++ rest ∧
      long.length = line.length + skipped ∧ lineCapacity < long.length ∧ Readable long ∧
      lines (long ++ rest) = long :: lines rest := by
  have capacity : line.length = lineCapacity ∧ 0 ∉ line := by
    have le : strlen line ≤ line.length := (cString_isPrefix line).length_le
    have short : line.length ≤ lineCapacity := by
      rcases fgets_cases read with ⟨_, rfl⟩ | ⟨_, _, _, _, rfl, fits⟩
      · exact length_take_le _ _
      · simpa [Nat.succ_le_iff] using fits
    have same : line.length = lineCapacity := by omega
    exact ⟨same, strlen_eq_length_iff.mp (full.trans same.symm)⟩
  have absent : newline ∉ line ∧ line = (behind.take shown).take lineCapacity := by
    rcases fgets_cases read with without | ⟨_, _, _, _, rfl, _⟩
    · exact without
    · rw [Bool.eq_false_iff] at incomplete
      exact absurd ((lineIsComplete_iff (newline_notMem_dropLast read)).mpr
        ⟨capacity.2, by simp⟩) incomplete
  have start : behind = line ++ behind.drop line.length := by
    have isStart : line <+: behind := by
      rw [absent.2]
      exact ( take_prefix _ _).trans ( take_prefix _ _)
    rcases isStart with ⟨_, rfl⟩
    rw [drop_left]
  rcases cases_first newline ((behind.drop line.length).take skipShown) with
    without | ⟨body, _, whole, isBody⟩
  · rw [consumeOverlongLine, skipLine_of_notMem without] at skips
    cases skips
  · rw [consumeOverlongLine, whole, skipLine_append_cons isBody] at skips
    cases skips
    rcases split_of_take whole with ⟨size, later, behindLine⟩
    rw [behindLine] at start
    refine ⟨Nat.succ_pos _, size, line ++ body ++ [newline], later, by simpa using start, ?_, ?_,
      ?_, ?_⟩
    · simp
    · simp only [length_append, length_cons]
      omega
    · rw [Readable, append_assoc, take_append_of_le_length (by omega), take_of_length_le (by omega)]
      exact capacity.2
    · rw [append_assoc _ [newline], singleton_append]
      refine complete_append_cons ?_ _
      rw [mem_append, not_or]
      exact ⟨absent.1, isBody⟩

theorem reads_of_readable {body : List UInt8} (isBody : newline ∉ body)
    (readable : Readable (body ++ [newline])) (rest : List UInt8) :
    ∃ line, fgets (body ++ newline :: rest) = some line ∧
      (lineIsComplete line = true ∨
        strlen line = lineCapacity ∧
          ∃ skipped, consumeOverlongLine ((body ++ newline :: rest).drop line.length) =
            some skipped) := by
  refine ⟨readLine newline lineCapacity (body ++ newline :: rest), ?_, ?_⟩
  · simp [fgets]
  by_cases fits : body.length < lineCapacity
  · left
    rw [readLine_append_cons isBody fits]
    rw [Readable, take_of_length_le (by simpa [Nat.succ_le_iff] using fits)] at readable
    rw [lineIsComplete_iff (by simpa using isBody)]
    exact ⟨readable, by simp⟩
  · right
    have inBody : (body ++ newline :: rest).take lineCapacity = body.take lineCapacity :=
      take_append_of_le_length (by omega)
    have size : (body.take lineCapacity).length = lineCapacity := by
      rw [length_take]
      omega
    rw [readLine_of_notMem (inBody ▸ fun present => isBody (mem_of_mem_take present)), inBody]
    constructor
    · nth_rewrite 2 [← size]
      rw [strlen_eq_length_iff]
      rw [Readable, take_append_of_le_length (by omega)] at readable
      exact readable
    · rw [size, drop_append_of_le_length (by omega)]
      refine ⟨_, skipLine_append_cons ?_ rest⟩
      exact fun present => isBody (mem_of_mem_drop present)

end Reading

namespace Pass

variable {World : Type} {text : List UInt8} {sizes : ℕ → ℕ} {limit : ℕ}

/-- What is read between two states of the loop, in a file of at most the size `limit`. -/
structure Advances (text : List UInt8) (limit : ℕ) (before after : Pass World)
    (taken : List (List UInt8)) : Prop where
  consumes : Consumes text before.committed after.committed taken
  consumed_eq : after.consumed = before.consumed ++ taken.map classify
  inside : after.committed ≤ max before.committed limit

namespace Advances

variable {before middle after : Pass World} {line : List UInt8} {taken : List (List UInt8)}

theorem refl (committed : after.committed = before.committed)
    (consumed : after.consumed = before.consumed) : Advances text limit before after [] where
  consumes := committed ▸ Consumes.refl text before.committed
  consumed_eq := by simpa using consumed
  inside := by
    rw [committed]
    exact le_max_left _ _

theorem cons (rest : Advances text limit middle after taken)
    (first : Consumes text before.committed middle.committed [line])
    (consumed : middle.consumed = before.consumed ++ [classify line])
    (inside : middle.committed ≤ max before.committed limit) :
    Advances text limit before after (line :: taken) where
  consumes := first.trans rest.consumes
  consumed_eq := by
    rw [rest.consumed_eq, consumed, append_assoc]
    rfl
  inside := rest.inside.trans (max_le inside (le_max_right _ _))

end Advances

variable (services : Services World) (text) (force : Bool)

theorem stream_eq (text : List UInt8) (size position : ℕ) :
    stream text size position = (text.drop position).take (size - position) := by
  rw [stream, drop_take]

theorem readLines_advances (bounded : ∀ read, sizes read ≤ limit) (budget read : ℕ)
    (pass : Pass World) :
    ∃ taken, Advances text limit pass
      (readLines services text force sizes budget read pass).1 taken := by
  induction budget generalizing read pass with
  | zero =>
    refine ⟨[], .refl ?_ ?_⟩
    · unfold readLines
      split <;> rfl
    · unfold readLines
      split <;> rfl
  | succ _ ih =>
    rw [readLines]
    cases found : fgets (stream text (sizes read) pass.committed) with
    | none => exact ⟨[], .refl rfl rfl⟩
    | some line =>
      rw [stream_eq] at found
      have visible := bounded read
      dsimp only
      cases complete : lineIsComplete line with
      | true =>
        rcases lines_of_complete found complete with
          ⟨_, short, noZero, _, behind, isLine⟩
        rcases ih (read + 1) { pass with
          committed := pass.committed + line.length
          world := (handleLine services pass.world force line).1
          pending := pass.pending || (handleLine services pass.world force line).2
          metadataConsumed := true
          consumed := pass.consumed ++ [.record line] } with
          ⟨taken, advances⟩
        refine ⟨line :: taken, advances.cons (.single behind isLine ?_) ?_ ?_⟩
        · exact fun zero => noZero (mem_of_mem_take zero)
        · rw [classify, if_pos short]
        · dsimp only
          omega
      | false =>
        rw [if_neg Bool.false_ne_true]
        split
        next full =>
          cases skips : consumeOverlongLine
              (stream text (sizes (read + 1)) (pass.committed + line.length)) with
          | none => exact ⟨[], .refl rfl rfl⟩
          | some skipped =>
            rw [stream_eq, ← drop_drop] at skips
            rcases lines_of_overlong found complete full skips with
              ⟨_, _, long, _, behind, size, _, readable, isLine⟩
            have skipVisible := bounded (read + 1)
            rcases ih (read + 2) { pass with
              committed := pass.committed + line.length + skipped
              metadataConsumed := true
              consumed := pass.consumed ++ [.overlong] } with
              ⟨taken, advances⟩
            refine ⟨long :: taken, advances.cons ?_ ?_ ?_⟩
            · have consumes := Consumes.single behind isLine readable
              rw [size, ← Nat.add_assoc] at consumes
              exact consumes
            · rw [classify, if_neg (by omega)]
            · dsimp only
              omega
        next => exact ⟨[], .refl rfl rfl⟩

theorem readLines_zero (sizes : ℕ → ℕ) (read : ℕ) (pass : Pass World) :
    (readLines services text force sizes 0 read pass).2 = 0 ∧
      (readLines services text force sizes 0 read pass).1.metadataConsumed =
        pass.metadataConsumed := by
  unfold readLines
  split
  · exact ⟨rfl, rfl⟩
  · exact ⟨rfl, rfl⟩

theorem readLines_progress (whole : ∀ read, text.length ≤ sizes read)
    (bounded : ∀ read, sizes read ≤ limit) {budget : ℕ} (positive : 0 < budget) (read : ℕ)
    (pass : Pass World) (more : lines (text.drop pass.committed) ≠ [])
    (readable : ∀ line ∈ lines (text.drop pass.committed), Readable line) :
    (readLines services text force sizes budget read pass).1.consumed ≠ pass.consumed := by
  have longer (budget read : ℕ) (next : Pass World) (one : Consumed)
      (consumed : next.consumed = pass.consumed ++ [one]) :
      (readLines services text force sizes budget read next).1.consumed ≠ pass.consumed := by
    rcases readLines_advances text services force bounded budget read next with ⟨_, advances⟩
    rw [advances.consumed_eq, consumed]
    intro same
    have lengths := congrArg List.length same
    simp at lengths
  have shows (read position : ℕ) : stream text (sizes read) position = text.drop position := by
    rw [stream_eq, take_of_length_le]
    rw [length_drop]
    exact Nat.sub_le_sub_right (whole read) position
  rcases cases_first newline (text.drop pass.committed) with
    absent | ⟨_, rest, behind, isBody⟩
  · exact absurd (complete_of_notMem absent) more
  · rw [behind, lines, complete_append_cons isBody, forall_mem_cons] at readable
    rcases reads_of_readable isBody readable.1 rest with ⟨line, found, outcome⟩
    cases budget with
    | zero => exact absurd positive (Nat.lt_irrefl 0)
    | succ =>
      rw [readLines, shows, behind, found]
      dsimp only
      cases complete : lineIsComplete line with
      | true =>
        exact longer _ _ _ _ rfl
      | false =>
        rw [complete] at outcome
        rcases outcome with impossible | ⟨full, _, skips⟩
        · cases impossible
        · rw [if_neg Bool.false_ne_true, if_pos full, shows, ← drop_drop, behind, skips]
          exact longer _ _ _ _ rfl

end Pass

/-- How a drain may find the file: the same, grown from `size` to `after`, and a regular file can be
positioned. -/
structure Source.Fits (source : Source) (identity : ℕ × ℕ) (size after : ℕ) : Prop where
  opening : ∀ stat ∈ source.opening,
    stat.identity = identity ∧ size ≤ stat.size ∧ stat.size ≤ source.sizes 0
  seekEnd : ∀ position ∈ source.seekEnd, size ≤ position
  seekSet : source.seekSet
  visible : size ≤ source.sizes 0
  grows : Monotone source.sizes
  bounded : ∀ read, source.sizes read ≤ after
  closing : ∀ stat ∈ source.closing, stat.identity = identity ∧ stat.size = after

namespace Reader

variable {World : Type} (services : Services World) {reader : Reader World}
  {identity : ℕ × ℕ} {size after : ℕ} {source : Source}

structure Current (reader : Reader World) (identity : ℕ × ℕ) (size : ℕ) : Prop where
  identity_eq : ∀ known ∈ reader.identity, known = identity
  lastSize_le : reader.lastSize ≤ size
  offset_le : reader.offset ≤ size

theorem Current.mono (current : reader.Current identity size) (grown : size ≤ after) :
    reader.Current identity after :=
  ⟨current.identity_eq, current.lastSize_le.trans grown, current.offset_le.trans grown⟩

theorem Current.expire (current : reader.Current identity size) (force : Bool) :
    (reader.expire services force).Current identity size ∧
      (reader.expire services force).offset = reader.offset ∧
      ((reader.expire services force).retryTurn = true → reader.retryTurn) := by
  cases force
  · exact ⟨current, rfl, id⟩
  · exact ⟨{ current with }, rfl, fun turn => by cases turn⟩

theorem observe_of_current (current : reader.Current identity size) {stat : FileStat}
    (same : stat.identity = identity) (grown : size ≤ stat.size) :
    reader.observe services stat =
      ({ reader with identity := some identity, lastSize := stat.size }, false) := by
  have notReplaced : reader.identity.any (· ≠ stat.identity) = false := by
    rw [any_eq_false_iff_get]
    intro known
    have stored := current.identity_eq _ (get_mem known)
    simp [stored, same]
  have notTruncated : (decide (stat.size < reader.offset) ||
      decide (stat.size < reader.lastSize)) = false := by
    have offset_le := current.offset_le
    have lastSize_le := current.lastSize_le
    simp only [Bool.or_eq_false_iff, decide_eq_false_iff_not]
    omega
  rw [observe, notReplaced, notTruncated, same]
  simp

theorem observeStat_of_current (current : reader.Current identity size) {stat : Option FileStat}
    (found : ∀ seen ∈ stat, seen.identity = identity ∧ size ≤ seen.size ∧ seen.size ≤ after)
    (grown : size ≤ after) :
    (reader.observeStat services stat).1.offset = reader.offset ∧
      (reader.observeStat services stat).1.retryTurn = reader.retryTurn ∧
      (reader.observeStat services stat).1.Current identity after := by
  cases stat with
  | none => exact ⟨rfl, rfl, current.mono grown⟩
  | some seen =>
    rcases found seen rfl with ⟨same, above, below⟩
    rw [observeStat, observe_of_current services current same above]
    exact ⟨rfl, rfl, by simp, below, current.offset_le.trans grown⟩

theorem retryFirst_leaves (reader : Reader World) (force : Bool) {budget : ℕ}
    (positive : 1 ≤ budget) :
    0 < (reader.retryFirst services force budget).2.2 ∨
      reader.retryTurn ∧ (reader.retryFirst services force budget).1.retryTurn = false := by
  unfold retryFirst
  split
  next several =>
    left
    dsimp only
    omega
  next =>
    split
    next turn =>
      by_cases kept : (services.retryPending reader.world force budget).2.2 = budget
      · left
        exact kept.symm ▸ positive
      · right
        exact ⟨turn.2.1, by simp [kept]⟩
    next => exact .inl positive

theorem retryFirst_current (force : Bool) (budget : ℕ) (current : reader.Current identity size) :
    (reader.retryFirst services force budget).1.offset = reader.offset ∧
      (reader.retryFirst services force budget).1.Current identity size := by
  unfold retryFirst
  split
  · exact ⟨rfl, { current with }⟩
  · split
    · exact ⟨rfl, { current with }⟩
    · exact ⟨rfl, current⟩

theorem seek_eq_self (offset_le : reader.offset ≤ size) (fits : source.Fits identity size after) :
    reader.seek services source = reader := by
  have reaches : source.seekEnd.any (· < reader.offset) = false := by
    rw [any_eq_false_iff_get]
    intro found
    have above := fits.seekEnd _ (get_mem found)
    simp only [decide_eq_false_iff_not]
    omega
  rw [seek, reaches, fits.seekSet]
  rfl

theorem startDrain_spec (force : Bool) (budget : ℕ) (current : reader.Current identity size)
    (fits : source.Fits identity size after) :
    (reader.startDrain services force budget source).1.offset = reader.offset ∧
      (reader.startDrain services force budget source).1.Current identity (source.sizes 0) ∧
      (1 ≤ budget → 0 < (reader.startDrain services force budget source).2.2 ∨
        reader.retryTurn ∧
          (reader.startDrain services force budget source).1.retryTurn = false) := by
  rcases observeStat_of_current services current fits.opening fits.visible with
    ⟨openedOffset, openedTurn, opened⟩
  rcases retryFirst_current services force budget opened with ⟨retriedOffset, retried⟩
  have offset := retriedOffset.trans openedOffset
  have stays := seek_eq_self services (offset.trans_le current.offset_le) fits
  unfold startDrain
  dsimp only
  rw [stays]
  refine ⟨offset, retried, fun positive => ?_⟩
  rw [← openedTurn]
  exact retryFirst_leaves services _ force positive

theorem retryLast_spec (force single consumed : Bool) (budget : ℕ)
    (current : reader.Current identity size) :
    (reader.retryLast services force single consumed budget).1.offset = reader.offset ∧
      (reader.retryLast services force single consumed budget).1.Current identity size ∧
      (consumed = false → reader.retryTurn = false →
        (reader.retryLast services force single consumed budget).1.retryTurn = false) := by
  unfold retryLast
  split
  · refine ⟨rfl, { current with }, ?_⟩
    rintro rfl turn
    simp [turn]
  · refine ⟨rfl, { current with }, ?_⟩
    rintro rfl turn
    simp [turn]

theorem finishDrain_spec (force single : Bool) {pass : Pass World} (left : ℕ)
    (current : reader.Current identity (source.sizes 0)) (fits : source.Fits identity size after)
    (inside : pass.committed ≤ after) :
    (reader.finishDrain services force single source pass left).1.offset = pass.committed ∧
      (reader.finishDrain services force single source pass left).1.Current identity after ∧
      (pass.metadataConsumed = false → reader.retryTurn = false →
        (reader.finishDrain services force single source pass left).1.retryTurn = false) := by
  have committed : ({ reader with offset := pass.committed, world := pass.world } :
      Reader World).Current identity after :=
    ⟨current.identity_eq, current.lastSize_le.trans (fits.bounded 0), inside⟩
  have found : ∀ seen ∈ source.closing,
      seen.identity = identity ∧ after ≤ seen.size ∧ seen.size ≤ after := by
    intro seen isSeen
    have closing := fits.closing seen isSeen
    exact ⟨closing.1, closing.2.ge, closing.2.le⟩
  rcases observeStat_of_current services committed found le_rfl with ⟨offset, turn, closed⟩
  rcases retryLast_spec services force single pass.metadataConsumed left closed with
    ⟨lastOffset, last, keeps⟩
  refine ⟨lastOffset.trans offset, last, ?_⟩
  intro nothing noTurn
  exact keeps nothing (turn.trans noTurn)

end Reader

section Draining

variable {World : Type} (services : Services World) {reader : Reader World}
  {identity : ℕ × ℕ} {size after : ℕ} {source : Source}

structure DrainSpec (text : List UInt8) (reader : Reader World) (identity : ℕ × ℕ) (after : ℕ)
    (result : Drained World) (taken : List (List UInt8)) : Prop where
  consumes : Consumes text reader.offset result.reader.offset taken
  consumed_eq : result.consumed = taken.map classify
  current : result.reader.Current identity after

/-- A drain gets on: it takes a line, or the retries have had their turn. -/
def GetsOn (reader : Reader World) (result : Drained World) (taken : List (List UInt8)) : Prop :=
  taken ≠ [] ∨ reader.retryTurn ∧ result.reader.retryTurn = false

theorem drainSource_spec (text : List UInt8) (force : Bool) (budget : ℕ)
    (current : reader.Current identity size)
    (fits : source.Fits identity size after) :
    ∃ taken, DrainSpec text reader identity after
        (drainSource services text reader force budget source) taken ∧
      (1 ≤ budget → text.length ≤ size → lines (text.drop reader.offset) ≠ [] →
        (∀ line ∈ lines (text.drop reader.offset), Readable line) →
        GetsOn reader (drainSource services text reader force budget source) taken) := by
  unfold drainSource
  rcases Reader.startDrain_spec services force budget current fits with
    ⟨startOffset, started, leaves⟩
  rcases begun : reader.startDrain services force budget source with ⟨start, pending, left⟩
  rw [begun] at startOffset started leaves
  dsimp only at startOffset started leaves ⊢
  rcases Pass.readLines_advances text services force fits.bounded left 0
    (start.firstPass pending) with ⟨taken, advances⟩
  have inside := advances.inside.trans
    (max_le ((startOffset.trans_le current.offset_le).trans
      (fits.visible.trans (fits.bounded 0))) le_rfl)
  have progress (positive : 0 < left) (whole : text.length ≤ size)
      (more : lines (text.drop reader.offset) ≠ [])
      (readable : ∀ line ∈ lines (text.drop reader.offset), Readable line) : taken ≠ [] := by
    have visible (read : ℕ) : text.length ≤ source.sizes read :=
      whole.trans (fits.visible.trans (fits.grows (Nat.zero_le read)))
    rw [← startOffset] at more readable
    have longer := Pass.readLines_progress text services force visible fits.bounded positive 0
      (start.firstPass pending) more readable
    rw [advances.consumed_eq] at longer
    rintro rfl
    exact longer (append_nil _)
  have zero := Pass.readLines_zero text services force source.sizes 0 (start.firstPass pending)
  rcases ran : Pass.readLines services text force source.sizes left 0
    (start.firstPass pending) with ⟨_, unspent⟩
  rw [ran] at advances inside
  rcases Reader.finishDrain_spec services force (budget = 1) unspent started fits inside with
    ⟨finishOffset, finished, keeps⟩
  refine ⟨taken, ⟨?_, ?_, finished⟩, ?_⟩
  · have consumes := advances.consumes
    rw [← finishOffset] at consumes
    exact startOffset ▸ consumes
  · exact advances.consumed_eq
  · intro positive whole more readable
    rcases leaves positive with budgetLeft | ⟨turn, taken⟩
    · exact .inl (progress budgetLeft whole more readable)
    · cases left with
      | succ left => exact .inl (progress (Nat.succ_pos left) whole more readable)
      | zero =>
        rw [ran] at zero
        exact .inr ⟨turn, keeps zero.2 taken⟩

theorem drainWithoutSource_spec (text : List UInt8) (force : Bool) (budget : ℕ)
    (current : reader.Current identity size) (grown : size ≤ after) :
    DrainSpec text reader identity after (drainWithoutSource services reader force budget) [] where
  consumes := .refl text reader.offset
  consumed_eq := rfl
  current := { current.mono grown with }

end Draining

structure System (World : Type) where
  reader : Reader World
  size : ℕ
  consumed : List Consumed

/-- Something is appended, or the file is drained. A drain ends with a file of the size
`after`. -/
inductive Event where
  | grow (size : ℕ)
  | drain (budget : ℕ) (force : Bool) (source : Option Source) (after : ℕ)

def Event.Drains : Event → Prop
  | .grow _ => False
  | .drain _ _ source _ => source.isSome

namespace System

variable {World : Type} (services : Services World) (text : List UInt8) (identity : ℕ × ℕ)

inductive Step : System World → Event → System World → Prop
  | grow {system : System World} {size : ℕ} :
      system.size ≤ size → size ≤ text.length → Step system (.grow size) { system with size }
  | drain {system : System World} {budget : ℕ} {force : Bool} {source : Option Source}
      {after : ℕ} :
      1 ≤ budget → system.size ≤ after → after ≤ text.length →
      (∀ found ∈ source, found.Fits identity system.size after) →
      Step system (.drain budget force source after)
        ⟨(drain services text system.reader force budget source).reader, after,
          system.consumed ++ (drain services text system.reader force budget source).consumed⟩

def initial (world : World) : System World where
  reader := { offset := 0, identity := none, lastSize := 0, retryTurn := false, world }
  size := 0
  consumed := []

/-- Every history of appends and drains consumes the lines of a text once and in order, and some
number of drains consumes all lines. -/
structure ExactlyOnce (world : World) : Prop where
  ordered : ∀ history system, Runs (Step services text identity) (initial world) history system →
    ∃ taken, taken <+: lines text ∧ system.consumed = taken.map classify ∧
      system.reader.offset = taken.flatten.length ∧ system.reader.offset ≤ system.size
  finishes : ∀ history system, Runs (Step services text identity) (initial world) history system →
    system.size = text.length →
    ∃ bound, ∀ drains final, Runs (Step services text identity) system drains final →
      (∀ event ∈ drains, event.Drains) → bound ≤ drains.length →
      final.consumed = (lines text).map classify ∧ final.reader.offset = (lines text).flatten.length

structure Consistent (system : System World) (taken : List (List UInt8)) : Prop where
  consumes : Consumes text 0 system.reader.offset taken
  consumed_eq : system.consumed = taken.map classify
  current : system.reader.Current identity system.size

variable {services text identity} {world : World} {system : System World}

theorem consistent_initial : Consistent text identity (initial world) [] where
  consumes := .refl text 0
  consumed_eq := rfl
  current := ⟨by simp [initial], le_rfl, le_rfl⟩

theorem Consistent.drain {taken more : List (List UInt8)} {result : Drained World} {after : ℕ}
    (consistent : Consistent text identity system taken)
    (spec : DrainSpec text system.reader identity after result more) :
    Consistent text identity ⟨result.reader, after, system.consumed ++ result.consumed⟩
      (taken ++ more) where
  consumes := consistent.consumes.trans spec.consumes
  consumed_eq := by rw [consistent.consumed_eq, spec.consumed_eq, map_append]
  current := spec.current

theorem consistent_step {event : Event} {next : System World}
    (consistent : ∃ taken, Consistent text identity system taken)
    (step : Step services text identity system event next) :
    ∃ taken, Consistent text identity next taken := by
  rcases consistent with ⟨taken, consistent⟩
  cases step with
  | grow grown =>
    exact ⟨taken, consistent.consumes, consistent.consumed_eq, consistent.current.mono grown⟩
  | @drain budget force source _ _ grown _ fits =>
    rcases consistent.current.expire services force with ⟨current, offset, _⟩
    cases source with
    | none =>
      have spec := drainWithoutSource_spec services text force budget current grown
      exact ⟨_, consistent.drain { spec with consumes := offset ▸ spec.consumes }⟩
    | some found =>
      rcases drainSource_spec services text force budget current (fits found rfl) with
        ⟨_, spec, _⟩
      exact ⟨_, consistent.drain { spec with consumes := offset ▸ spec.consumes }⟩

theorem consistent_run {start : System World} {history : List Event}
    (run : Runs (Step services text identity) start history system)
    (consistent : ∃ taken, Consistent text identity start taken) :
    ∃ taken, Consistent text identity system taken :=
  run.preserves (motive := fun state => ∃ taken, Consistent text identity state taken)
    consistent consistent_step

/-- Each drain lowers twice the number of lines that are left, with the turn of the retries
added. -/
def potential (text : List UInt8) (system : System World) : ℕ :=
  2 * (lines (text.drop system.reader.offset)).length + system.reader.retryTurn.toNat

theorem potential_step {event : Event} {next : System World}
    (consistent : ∃ taken, Consistent text identity system taken)
    (readable : ∀ line ∈ lines text, Readable line) (whole : system.size = text.length)
    (drains : event.Drains) (step : Step services text identity system event next) :
    next.size = text.length ∧
      (lines (text.drop next.reader.offset) = [] ∨
        potential text next < potential text system) := by
  rcases consistent with ⟨_, consistent⟩
  cases step with
  | grow => exact absurd drains id
  | @drain budget force source _ positive grown inside fits =>
    refine ⟨le_antisymm inside (whole ▸ grown), ?_⟩
    cases source with
    | none => exact absurd drains (by simp [Event.Drains])
    | some found =>
      rcases consistent.current.expire services force with ⟨current, offset, keepsTurn⟩
      rcases drainSource_spec services text force budget current (fits found rfl) with
        ⟨_, spec, getsOn⟩
      rw [offset] at getsOn
      have behind := spec.consumes.lines_eq
      rw [offset] at behind
      by_cases ended : lines (text.drop system.reader.offset) = []
      · left
        rw [ended] at behind
        exact (append_eq_nil_iff.mp behind.symm).2
      · right
        have left : ∀ line ∈ lines (text.drop system.reader.offset), Readable line := by
          intro line isLine
          apply readable
          have all := consistent.consumes.lines_eq
          rw [drop_zero] at all
          rw [all, mem_append]
          exact .inr isLine
        have lengths := congrArg List.length behind
        rw [length_append] at lengths
        unfold potential
        rcases getsOn positive whole.ge ended left with took | ⟨turn, noTurn⟩
        · have some := length_pos_iff.mpr took
          have one := Bool.toNat_le (drainSource services text
            (system.reader.expire services force) force budget found).reader.retryTurn
          dsimp only [drain, drainPerfmap]
          omega
        · dsimp only [drain, drainPerfmap]
          rw [keepsTurn turn, noTurn, Bool.toNat_true, Bool.toNat_false]
          omega

theorem potential_run {start : System World} {drains : List Event}
    (run : Runs (Step services text identity) start drains system)
    (consistent : ∃ taken, Consistent text identity start taken)
    (readable : ∀ line ∈ lines text, Readable line) (whole : start.size = text.length)
    (only : ∀ event ∈ drains, event.Drains) :
    system.size = text.length ∧
      (lines (text.drop system.reader.offset) = [] ∨
        potential text system + drains.length ≤ potential text start) := by
  induction run with
  | start => exact ⟨whole, .inr le_rfl⟩
  | @snoc _ _ before _ run step ih =>
    rw [forall_mem_append, forall_mem_singleton] at only
    rcases ih only.1 with ⟨size, state⟩
    have reached := consistent_run run consistent
    rcases potential_step reached readable size only.2 step with ⟨afterSize, ended | lower⟩
    · exact ⟨afterSize, .inl ended⟩
    · refine ⟨afterSize, ?_⟩
      rcases state with ended | counted
      · left
        have one := Bool.toNat_le before.reader.retryTurn
        unfold potential at lower
        rw [ended, length_nil] at lower
        apply eq_nil_of_length_eq_zero
        omega
      · right
        rw [length_append, length_singleton]
        omega

def writtenSource (text : List UInt8) : Source where
  opening := none
  seekEnd := none
  seekSet := true
  sizes _ := text.length
  closing := none

theorem writtenSource_fits (text : List UInt8) (identity : ℕ × ℕ) :
    (writtenSource text).Fits identity text.length text.length where
  opening := by simp [writtenSource]
  seekEnd := by simp [writtenSource]
  seekSet := rfl
  visible := le_rfl
  grows := fun _ _ _ => le_rfl
  bounded _ := le_rfl
  closing := by simp [writtenSource]

theorem exists_drains (services : Services World) (identity : ℕ × ℕ) (system : System World)
    (whole : system.size = text.length) (count : ℕ) :
    ∃ drains final, Runs (Step services text identity) system drains final ∧
      (∀ event ∈ drains, event.Drains) ∧ drains.length = count ∧ final.size = text.length := by
  induction count with
  | zero => exact ⟨[], system, .start, by simp, rfl, whole⟩
  | succ _ ih =>
    rcases ih with ⟨_, final, run, only, length, size⟩
    have fits : ∀ found ∈ some (writtenSource text),
        found.Fits identity final.size text.length := by
      rintro _ ⟨⟩
      rw [size]
      exact writtenSource_fits text identity
    have step : Step services text identity final
        (.drain 1 false (some (writtenSource text)) text.length) _ :=
      .drain le_rfl size.le le_rfl fits
    refine ⟨_, _, .snoc run step, ?_, ?_, rfl⟩
    · rw [forall_mem_append, forall_mem_singleton]
      exact ⟨only, rfl⟩
    · rw [length_append, length, length_singleton]

theorem readable_of_exactlyOnce (once : ExactlyOnce services text identity world)
    {line : List UInt8} (isLine : line ∈ lines text) : Readable line := by
  have written : Runs (Step services text identity) (initial world) ([] ++ [.grow text.length])
      { initial world with size := text.length } :=
    .snoc .start (.grow (Nat.zero_le _) le_rfl)
  rcases once.finishes _ _ written rfl with ⟨bound, finishes⟩
  rcases exists_drains services identity { initial world with size := text.length } rfl bound with
    ⟨drains, final, run, only, length, _⟩
  rcases consistent_run run (consistent_run written ⟨[], consistent_initial⟩) with
    ⟨taken, consistent⟩
  have all := (finishes drains final run only length.ge).1
  have parts := consistent.consumes.lines_eq
  rw [consistent.consumed_eq] at all
  rw [drop_zero] at parts
  -- as many lines are taken as there are, so every line is one of the taken ones
  have lengths := congrArg List.length all
  rw [length_map, length_map, parts, length_append] at lengths
  have ended : lines (text.drop final.reader.offset) = [] := by
    apply eq_nil_of_length_eq_zero
    omega
  rw [ended, append_nil] at parts
  rw [parts] at isLine
  exact consistent.consumes.readable line isLine

/-- The lines are consumed exactly once if no line has a zero byte among the bytes that the
buffer takes, and only then. -/
theorem exactlyOnce_iff (services : Services World) (text : List UInt8) (identity : ℕ × ℕ)
    (world : World) :
    ExactlyOnce services text identity world ↔ ∀ line ∈ lines text, Readable line := by
  constructor
  · exact fun once line isLine => readable_of_exactlyOnce once isLine
  · intro readable
    constructor
    · intro history system run
      rcases consistent_run run ⟨[], consistent_initial⟩ with ⟨taken, consistent⟩
      refine ⟨taken, ⟨_, consistent.consumes.lines_eq.symm⟩, consistent.consumed_eq, ?_,
        consistent.current.offset_le⟩
      rw [consistent.consumes.finish_eq, Nat.zero_add]
    · intro history system run whole
      refine ⟨potential text system + 1, ?_⟩
      intro drains final drained only enough
      have reached := consistent_run run ⟨[], consistent_initial⟩
      rcases consistent_run drained reached with ⟨_, consistent⟩
      rcases (potential_run drained reached readable whole only).2 with ended | counted
      · have parts := consistent.consumes.lines_eq
        rw [drop_zero, ended, append_nil] at parts
        rw [parts]
        refine ⟨consistent.consumed_eq, ?_⟩
        rw [consistent.consumes.finish_eq, Nat.zero_add]
      · omega

/-- Services that attach nothing and keep no queue. -/
def idleServices : Services Unit where
  rangeIsExecutable _ _ := ((), true)
  matchesAnyTarget _ _ := ((), false)
  attachSymbol _ _ := ((), .noMatch)
  addPending _ _ _ := ((), .ok)
  countTimeout _ _ := ()
  retryPending _ _ budget := ((), false, budget)
  pendingCount _ := 0
  advanceGeneration _ := ()
  expirePending _ := ()

/-- A zero byte in front of a newline. The drain takes the line for an unfinished one, so that it
and the empty one behind it are never consumed. -/
theorem zero_byte_stops :
    (drain idleServices [0, newline, newline] (initial ()).reader false 8
        (some (writtenSource [0, newline, newline]))).consumed = [] ∧
      ¬ExactlyOnce idleServices [0, newline, newline] (0, 0) () := by
  refine ⟨by decide, fun once => ?_⟩
  have readable : Readable [0, newline] := readable_of_exactlyOnce once (by decide)
  exact absurd readable (by decide)

end System

end Peak.Jit
