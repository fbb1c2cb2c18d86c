import Mathlib.Data.List.Nodup
import Mathlib.Data.Nat.ModEq
import Mathlib.Algebra.Order.Ring.Unbundled.Rat
import Peak.Detach.Basic

/-!
# The selection of a batch

The controller serves the requested hooks in batches. A scan begins at the cursor, wraps around, and
ends when the batch is full. The cursor then stands behind the last selected hook, so that the
distance to any other hook has become smaller by at least the size of the batch.
-/

namespace Peak

open List Nat

inductive HookState where
  | unresolved
  | attached
  | detachRequested
  | detaching
  | detached
  | reattachRequested
  | reattaching
  | shutdown
deriving DecidableEq

structure HookRecord where
  state : HookState
  /-- The hook has an address and a listener. -/
  published : Bool
  nextRetryTime : ℚ
  retryCount : ℕ
  gumDetached : Bool
  gumDetachFlushed : Bool

namespace HookRecord

variable (hook : HookRecord) (now : ℚ)

def requested : Bool :=
  hook.state = .detachRequested || hook.state = .reattachRequested

def retryReady : Bool :=
  hook.nextRetryTime ≤ 0 || hook.nextRetryTime ≤ now

/-- A reattach has to wait for the flush of an earlier detach. -/
def unflushed : Bool :=
  hook.state = .reattachRequested && hook.gumDetached && !hook.gumDetachFlushed

def Selectable : Prop :=
  hook.requested ∧ hook.published ∧ hook.retryReady now ∧ hook.unflushed = false

end HookRecord

/-- `PeakGeneralBatchCandidate`. -/
structure HookCandidate where
  hookId : ℕ
  operation : DetachOperation
  stableState : HookState
  retryCount : ℕ

namespace Hooks

section

variable (now : ℚ) (hooks : ℕ → HookRecord) (total start : ℕ)

/-- One pass through the loop of `peak_general_controller_collect_batch_unlocked`. -/
def candidate? (i : ℕ) : Option HookCandidate :=
  let hook := hooks i
  if hook.state ≠ .detachRequested ∧ hook.state ≠ .reattachRequested then none
  else if !hook.retryReady now then none
  else if !hook.published then none
  else if hook.state = .detachRequested then some ⟨i, .detach, .attached, hook.retryCount⟩
  else if hook.gumDetached && !hook.gumDetachFlushed then none
  else some ⟨i, .reattach, .detached, hook.retryCount⟩

/-- The loop, with the number of offsets that are left and the room in the batch. -/
def collect : (left room offset : ℕ) → List HookCandidate
  | 0, _, _ => []
  | _ + 1, 0, _ => []
  | left + 1, room + 1, offset =>
    match candidate? now hooks ((start + offset) % total) with
    | none => collect left (room + 1) (offset + 1)
    | some candidate => candidate :: collect left room (offset + 1)

end

/-- `peak_general_controller_collect_batch_unlocked`: the batch and the next cursor. -/
def collectBatch (now : ℚ) (hooks : ℕ → HookRecord) (total limit cursor : ℕ) :
    List HookCandidate × ℕ :=
  let start := if total > 0 then cursor % total else 0
  let batch := collect now hooks total start total limit 0
  (batch, match batch.getLast? with
    | none => cursor
    | some last => (last.hookId + 1) % total)

structure BatchCall where
  now : ℚ
  hooks : ℕ → HookRecord

def batches (total limit : ℕ) : List BatchCall → ℕ → List (List HookCandidate)
  | [], _ => []
  | call :: later, cursor =>
    let collected := collectBatch call.now call.hooks total limit cursor
    collected.1 :: batches total limit later collected.2

section

variable {now : ℚ} {hooks : ℕ → HookRecord} {total start : ℕ}

theorem hookId_of_candidate {i : ℕ} {candidate : HookCandidate}
    (found : candidate? now hooks i = some candidate) : candidate.hookId = i := by
  unfold candidate? at found
  grind

theorem selectable_iff {i : ℕ} :
    (hooks i).Selectable now ↔ (candidate? now hooks i).isSome := by
  unfold HookRecord.Selectable HookRecord.requested HookRecord.unflushed candidate?
  grind

/-- The offsets of the hooks in a batch. A selectable hook is missing only if it stands behind a
full batch. -/
structure Collected (now : ℚ) (hooks : ℕ → HookRecord) (total start left room offset : ℕ)
    (batch : List HookCandidate) (offsets : List ℕ) : Prop where
  hookIds : batch.map (·.hookId) = offsets.map fun o => (start + o) % total
  increasing : offsets.Pairwise (· < ·)
  inRange : ∀ o ∈ offsets, offset ≤ o ∧ o < offset + left
  spread : ∀ last, offsets.getLast? = some last → offset + offsets.length ≤ last + 1
  full : ∀ o, offset ≤ o → o < offset + left → (hooks ((start + o) % total)).Selectable now →
    o ∉ offsets → offsets.length = room ∧ ∀ other ∈ offsets, other < o

theorem collected (now : ℚ) (hooks : ℕ → HookRecord) (total start left room offset : ℕ) :
    ∃ offsets, Collected now hooks total start left room offset
      (collect now hooks total start left room offset) offsets := by
  induction left generalizing room offset with
  | zero => exact ⟨[], rfl, .nil, nofun, nofun, by grind⟩
  | succ _ ih =>
    cases room with
    | zero => exact ⟨[], rfl, .nil, nofun, nofun, fun _ _ _ _ _ => ⟨rfl, nofun⟩⟩
    | succ room =>
      have here : (hooks ((start + offset) % total)).Selectable now ↔ _ := selectable_iff
      unfold collect
      cases found : candidate? now hooks ((start + offset) % total) with
      | none =>
        rcases ih (room + 1) (offset + 1) with ⟨offsets, hookIds, increasing, _, _, full⟩
        refine ⟨offsets, hookIds, increasing, by grind, by grind, ?_⟩
        intro o above below selectable
        have later : o ≠ offset := by
          rintro rfl
          simp [found] at here
          exact here selectable
        exact full o (by omega) (by omega) selectable
      | some =>
        rcases ih room (offset + 1) with ⟨offsets, hookIds, increasing, inRange, _, full⟩
        refine ⟨offset :: offsets, ?_, ?_, by grind, ?_, ?_⟩
        · simp [hookIds, hookId_of_candidate found]
        · exact pairwise_cons.mpr ⟨fun o member => (inRange o member).1, increasing⟩
        · intro last isLast
          cases offsets with
          | nil => grind
          | cons => grind
        · intro o above below selectable missing
          rw [mem_cons, not_or] at missing
          rcases full o (by omega) (by omega) selectable missing.2 with ⟨size, _⟩
          exact ⟨by simp [size], by grind⟩

theorem add_mod_injective {first second : ℕ} (firstBelow : first < total)
    (secondBelow : second < total) (same : (start + first) % total = (start + second) % total) :
    first = second := by
  have equal := ModEq.add_left_cancel' start same
  rwa [ModEq, mod_eq_of_lt firstBelow, mod_eq_of_lt secondBelow] at equal

theorem exists_offset {i : ℕ} (below : i < total) (start : ℕ) :
    ∃ o < total, (start % total + o) % total = i := by
  have startBelow := mod_lt start (zero_lt_of_lt below)
  refine ⟨(i + (total - start % total)) % total, mod_lt _ (zero_lt_of_lt below), ?_⟩
  rw [add_mod_mod, show start % total + (i + (total - start % total)) = i + total by omega,
    add_mod_right, mod_eq_of_lt below]

end

variable {total limit cursor : ℕ}

theorem collectBatch_distinct_full (call : BatchCall) :
    ((collectBatch call.now call.hooks total limit cursor).1.map (·.hookId)).Nodup ∧
      ((collectBatch call.now call.hooks total limit cursor).1.length < limit →
        ∀ i < total, (call.hooks i).Selectable call.now →
          i ∈ (collectBatch call.now call.hooks total limit cursor).1.map (·.hookId)) := by
  rcases collected call.now call.hooks total (if total > 0 then cursor % total else 0)
    total limit 0 with ⟨_, hookIds, increasing, inRange, _, full⟩
  have size := congrArg length hookIds
  simp only [length_map] at size
  simp only [collectBatch, hookIds]
  constructor
  · refine Nodup.map_on ?_ (increasing.imp ne_of_lt)
    intro first firstMem second secondMem same
    exact add_mod_injective (by simpa using (inRange first firstMem).2)
      (by simpa using (inRange second secondMem).2) same
  · intro notFull i below selectable
    rw [if_pos (zero_lt_of_lt below)] at full ⊢
    rcases exists_offset below cursor with ⟨o, oBelow, rfl⟩
    rw [mem_map]
    refine ⟨o, ?_, rfl⟩
    by_contra missing
    have isFull := (full o (zero_le o) (by simpa using oBelow) selectable missing).1
    omega

theorem closer_of_not_selected (call : BatchCall) {i distance : ℕ} (positive : 0 < limit)
    (below : distance < total) (place : (cursor % total + distance) % total = i)
    (selectable : (call.hooks i).Selectable call.now)
    (missing : i ∉ (collectBatch call.now call.hooks total limit cursor).1.map (·.hookId)) :
    ∃ closer, closer + limit ≤ distance ∧
      ((collectBatch call.now call.hooks total limit cursor).2 % total + closer) % total = i := by
  rcases collected call.now call.hooks total (if total > 0 then cursor % total else 0)
    total limit 0 with ⟨offsets, hookIds, _, _, spread, full⟩
  rw [if_pos (zero_lt_of_lt below)] at hookIds full
  simp only [collectBatch, hookIds, if_pos (zero_lt_of_lt below)] at missing ⊢
  have absent : distance ∉ offsets := fun present =>
    missing (mem_map.mpr ⟨distance, present, place⟩)
  rcases full distance (zero_le _) (by simpa using below) (place ▸ selectable) absent with
    ⟨size, before⟩
  cases isLast : offsets.getLast? with
  | none =>
    rw [getLast?_eq_none_iff] at isLast
    simp [isLast] at size
    omega
  | some last =>
    have lastBefore := before last (mem_of_getLast? isLast)
    have wide := spread last isLast
    have lastId := congrArg getLast? hookIds
    rw [getLast?_map, getLast?_map, isLast] at lastId
    rcases Option.map_eq_some_iff.mp lastId with ⟨_, isCandidate, hookId⟩
    simp only [isCandidate, hookId]
    refine ⟨distance - (last + 1), by omega, ?_⟩
    rw [mod_mod, mod_add_mod, add_assoc, mod_add_mod, ← place]
    congr 1
    omega

theorem selected_within (positive : 0 < limit) {i : ℕ} (calls : List BatchCall) {distance : ℕ}
    (below : distance < total) (place : (cursor % total + distance) % total = i)
    (selectable : ∀ call ∈ calls, (call.hooks i).Selectable call.now)
    (reached : distance < calls.length * limit) :
    ∃ batch ∈ batches total limit calls cursor, i ∈ batch.map (·.hookId) := by
  induction calls generalizing cursor distance with
  | nil => simp at reached
  | cons call later ih =>
    by_cases selected : i ∈ (collectBatch call.now call.hooks total limit cursor).1.map (·.hookId)
    · exact ⟨_, mem_cons_self, selected⟩
    · rcases closer_of_not_selected call positive below place
        (selectable call mem_cons_self) selected with ⟨closer, _, placed⟩
      have reachedLater : closer < later.length * limit := by
        simp only [length_cons, add_mul] at reached
        omega
      rcases ih (by omega) placed (fun call isLater => selectable call (.tail _ isLater))
        reachedLater with ⟨batch, isBatch, member⟩
      exact ⟨batch, .tail _ isBatch, member⟩

/-- The hooks of a batch are distinct, and a batch that is not full has all selectable hooks. A hook
selectable for as many calls as it takes to serve all hooks is selected. -/
theorem batch_selection_fair (total limit cursor : ℕ) (positive : 0 < limit) :
    (∀ call : BatchCall,
      ((collectBatch call.now call.hooks total limit cursor).1.map (·.hookId)).Nodup ∧
        ((collectBatch call.now call.hooks total limit cursor).1.length < limit →
          ∀ i < total, (call.hooks i).Selectable call.now →
            i ∈ (collectBatch call.now call.hooks total limit cursor).1.map (·.hookId))) ∧
      ∀ calls : List BatchCall, calls.length = (total + limit - 1) / limit →
        ∀ i < total, (∀ call ∈ calls, (call.hooks i).Selectable call.now) →
          ∃ batch ∈ batches total limit calls cursor, i ∈ batch.map (·.hookId) := by
  refine ⟨collectBatch_distinct_full, ?_⟩
  intro calls count i below selectable
  rcases exists_offset below cursor with ⟨distance, distanceBelow, place⟩
  refine selected_within positive calls distanceBelow place selectable ?_
  have covers := lt_div_mul_add positive (a := total + limit - 1)
  rw [count]
  omega

theorem batch_selection_fair_three :
    ∃ batch ∈ batches 3 2 (replicate 2 ⟨0, fun _ => ⟨.detachRequested, true, 0, 0, false, false⟩⟩)
      0, 2 ∈ batch.map (·.hookId) :=
  (batch_selection_fair 3 2 0 (by decide)).2 _ rfl 2 (by decide)
    (by simp [HookRecord.Selectable, HookRecord.requested, HookRecord.retryReady,
      HookRecord.unflushed])

end Hooks

end Peak
