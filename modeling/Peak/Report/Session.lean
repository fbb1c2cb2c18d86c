import Peak.Common.Buffer

/-!
# The session number of the output names

In `src/general_listener/output_identity.c` the eight bytes of a session come from `getrandom`, then
from `/dev/urandom`, and otherwise from a mixture of times and numbers. A read that fails closes the
descriptor, which is closed once more behind the loop.
-/

namespace Peak.OutputIdentity

open List Fallible

/-- The result of `getrandom` or `read`, which stores as many bytes as asked for at most, and none
at the end of the file. -/
inductive EntropyReply where
  | stored (bytes : List UInt8)
  | interrupted
  | failed
deriving DecidableEq

/-- The call in progress has not returned, or a write leaves the session word. -/
inductive EntropyStop where
  | waiting
  | outOfBounds
deriving DecidableEq

inductive DescriptorEvent where
  | opened (descriptor : ℕ)
  | closed (descriptor : ℕ)
deriving DecidableEq

structure FallbackArgs where
  pid : BitVec 64
  nanoseconds : BitVec 64
  seconds : BitVec 64
  counter : BitVec 64
  address : BitVec 64

structure EntropyCalls where
  getrandom : List EntropyReply
  descriptor : Option ℕ
  read : List EntropyReply
  fallback : FallbackArgs

structure Acquired where
  bytes : List UInt8
  events : List DescriptorEvent
deriving DecidableEq

def sessionSize : ℕ := 8

/-- The bytes of the word which `peak_output_identity_fallback_session` assigns. -/
def fallbackSession (args : FallbackArgs) : List UInt8 :=
  let mix := (args.pid <<< 32) ^^^ args.nanoseconds ^^^ (args.seconds <<< 1) ^^^ args.counter ^^^
    args.address
  let session := if mix = 0#64 then 1#64 else mix
  (range sessionSize).map fun index => UInt8.ofNat (session.toNat >>> (8 * index))

/-- The loop over the calls of one source, with the bytes that remain to be assigned. -/
def fill : List EntropyReply → Buffer UInt8 → ℕ → Except EntropyStop (Buffer UInt8 × ℕ)
  | _, word, 0 => .ok (word, 0)
  | [], _, _ + 1 => .error .waiting
  | .interrupted :: replies, word, remaining => fill replies word remaining
  | .failed :: _, word, remaining => .ok (word, remaining)
  | .stored bytes :: replies, word, remaining => do
    let stored := bytes.take remaining
    if stored = [] then return (word, remaining)
    fill replies (← word.write .outOfBounds stored) (remaining - stored.length)

/-- `peak_output_identity_session_once` up to the host name. -/
def sessionOnce (calls : EntropyCalls) : Except EntropyStop Acquired := do
  let (word, remaining) ← fill calls.getrandom (Buffer.allocate sessionSize) sessionSize
  if remaining = 0 then return ⟨word.items, []⟩
  match calls.descriptor with
  | none => return ⟨fallbackSession calls.fallback, []⟩
  | some descriptor =>
    let (word, remaining) ← fill calls.read word remaining
    if remaining = 0 then return ⟨word.items, [.opened descriptor, .closed descriptor]⟩
    return ⟨fallbackSession calls.fallback,
      [.opened descriptor, .closed descriptor, .closed descriptor]⟩

/-- What a source gives before it fails or ends. -/
def delivered : List EntropyReply → List UInt8
  | [] | .failed :: _ => []
  | .interrupted :: replies => delivered replies
  | .stored bytes :: replies => if bytes = [] then [] else bytes ++ delivered replies

def EntropyCalls.delivered (calls : EntropyCalls) : List UInt8 :=
  OutputIdentity.delivered calls.getrandom ++ OutputIdentity.delivered calls.read

/-- Every descriptor is closed as often as it is opened. -/
def ClosedOnce (events : List DescriptorEvent) : Prop :=
  ∀ descriptor, events.count (.opened descriptor) = events.count (.closed descriptor)

/-- The eight bytes come from the random sources in order, or all from the fallback. -/
structure Secured (calls : EntropyCalls) (acquired : Acquired) : Prop where
  length : acquired.bytes.length = sessionSize
  origin : acquired.bytes = calls.delivered.take sessionSize ∨
    acquired.bytes = fallbackSession calls.fallback
  closed : ClosedOnce acquired.events ↔
    calls.descriptor = none ∨ sessionSize ≤ calls.delivered.length

/-- Enough calls return. -/
def Answers (replies : List EntropyReply) (needed : ℕ) : Prop :=
  needed ≤ replies.countP (· ≠ .interrupted)

variable {tolerated : EntropyStop → Prop}

theorem meets_fill {replies : List EntropyReply} {word : Buffer UInt8} {remaining : ℕ}
    (room : word.items.length + remaining = word.capacity)
    (settles : tolerated .waiting ∨ Answers replies remaining) :
    Meets tolerated (fill replies word remaining) fun (after, left) =>
      after.capacity = word.capacity ∧ left = remaining - (delivered replies).length ∧
        after.items = word.items ++ (delivered replies).take remaining := by
  unfold Answers at settles
  fun_induction fill replies word remaining with
  | case1 => simp [Meets]
  | case2 => exact settles.resolve_right (by simp)
  | case3 _ _ _ _ ih => exact ih room (by simpa using settles)
  | case4 => simp [Meets, delivered]
  | case5 bytes replies word remaining positive stored nothing =>
    have empty : bytes = [] := (take_eq_nil_iff.mp nothing).resolve_left positive
    apply meets_pure
    simp [delivered, empty]
  | case6 bytes replies word remaining positive stored something ih =>
    have nonempty : bytes ≠ [] := by
      rintro rfl
      exact something take_nil
    have progress : 0 < stored.length := length_pos_iff.mpr something
    have count : stored.length = min remaining bytes.length := length_take
    have rest : remaining - stored.length = remaining - bytes.length := by omega
    apply (Buffer.meets_write (by omega)).bind
    rintro written ⟨capacity, items⟩
    have room' : written.items.length + (remaining - stored.length) = written.capacity := by
      simp only [items, length_append]
      omega
    apply (ih written room' (settles.imp_right fun enough => ?_)).mono
    rintro ⟨after, left⟩ ⟨capacity', isLeft, items'⟩
    refine ⟨capacity'.trans capacity, ?_, ?_⟩
    · simp only [delivered, nonempty, if_false, length_append]
      omega
    · rw [items', items, rest]
      simp [delivered, nonempty, take_append, stored]
    · simp at enough ⊢
      omega

theorem exists_replies {replies : ℕ → EntropyReply}
    (goesOn : ∀ number, ∃ later ≥ number, replies later ≠ .interrupted) (needed : ℕ) :
    ∃ number, ∀ count ≥ number, Answers ((range count).map replies) needed := by
  unfold Answers
  induction needed with
  | zero => exact ⟨0, fun _ _ => Nat.zero_le _⟩
  | succ needed ih =>
    obtain ⟨number, enough⟩ := ih
    obtain ⟨later, behind, isReply⟩ := goesOn number
    refine ⟨later + 1, fun count le => ?_⟩
    obtain ⟨more, rfl⟩ := Nat.exists_eq_add_of_le le
    have before := enough later behind
    simp [range_add, isReply] at before ⊢
    omega

theorem meets_sessionOnce {calls : EntropyCalls}
    (settles : tolerated .waiting ∨
      Answers calls.getrandom sessionSize ∧ Answers calls.read sessionSize) :
    Meets tolerated (sessionOnce calls) (Secured calls) := by
  have fallback : (fallbackSession calls.fallback).length = sessionSize := by
    simp [fallbackSession]
  apply (meets_fill rfl (settles.imp_right And.left)).bind
  rintro ⟨word, remaining⟩ ⟨capacity, isLeft, items⟩
  rw [Buffer.allocate, nil_append] at items
  have length : word.items.length + remaining = word.capacity := by
    simp only [items, capacity, Buffer.allocate, length_take]
    omega
  apply meets_ite
  · intro done
    have enough : sessionSize ≤ (delivered calls.getrandom).length := by omega
    apply meets_pure
    constructor <;>
      simp [EntropyCalls.delivered, items, take_append, ClosedOnce, enough, Nat.le_add_right_of_le]
  · intro more
    cases isDescriptor : calls.descriptor with
    | none => exact meets_pure ⟨fallback, .inr rfl, by simp [ClosedOnce, isDescriptor]⟩
    | some descriptor =>
      apply (meets_fill length (settles.imp_right fun both => Nat.le_trans (by omega) both.2)).bind
      rintro ⟨word', remaining'⟩ ⟨capacity', isLeft', items'⟩
      have total : calls.delivered.length =
          (delivered calls.getrandom).length + (delivered calls.read).length := length_append
      apply meets_ite
      · intro done
        have all : word'.items = calls.delivered.take sessionSize := by
          rw [items', items, EntropyCalls.delivered, take_append, isLeft]
        have enough : sessionSize ≤ calls.delivered.length := by omega
        exact meets_pure ⟨by simp [all, enough], .inl all, by simp [ClosedOnce, enough, count_cons]⟩
      · intro missing
        have short : ¬ sessionSize ≤ calls.delivered.length := by omega
        refine meets_pure ⟨fallback, .inr rfl, ?_⟩
        simp only [isDescriptor, short, reduceCtorEq, or_self, iff_false]
        intro closed
        simpa using closed descriptor

theorem session_acquired (getrandom read : ℕ → EntropyReply) (descriptor : Option ℕ)
    (fallback : FallbackArgs)
    (goesOn : ∀ number, ∃ later ≥ number, getrandom later ≠ .interrupted)
    (readGoesOn : ∀ number, ∃ later ≥ number, read later ≠ .interrupted) :
    (∀ calls, sessionOnce calls ≠ .error .outOfBounds) ∧
      ∃ number, ∀ count ≥ number, ∃ acquired,
        let calls := ⟨(range count).map getrandom, descriptor, (range count).map read, fallback⟩
        sessionOnce calls = .ok acquired ∧ Secured calls acquired := by
  constructor
  · intro calls outside
    have meets : Meets (· = .waiting) (sessionOnce calls) _ := meets_sessionOnce (.inl rfl)
    cases meets.of_error outside
  · obtain ⟨first, answers⟩ := exists_replies goesOn sessionSize
    obtain ⟨second, readAnswers⟩ := exists_replies readGoesOn sessionSize
    refine ⟨max first second, fun count le => ?_⟩
    let calls : EntropyCalls :=
      ⟨(range count).map getrandom, descriptor, (range count).map read, fallback⟩
    have meets : Meets (fun _ => False) (sessionOnce calls) _ :=
      meets_sessionOnce (.inr ⟨answers count (by omega), readAnswers count (by omega)⟩)
    cases ends : sessionOnce calls with
    | error => cases meets.of_error ends
    | ok acquired => exact ⟨acquired, ends, meets.of_ok ends⟩

theorem session_acquired_by_reads : ∃ number, ∀ count ≥ number, ∃ acquired,
    let calls := ⟨(range count).map fun _ => .failed, some 3,
      (range count).map fun _ => .stored [1, 2], ⟨0, 0, 0, 0, 0⟩⟩
    sessionOnce calls = .ok acquired ∧ Secured calls acquired :=
  (session_acquired (fun _ => .failed) (fun _ => .stored [1, 2]) (some 3) ⟨0, 0, 0, 0, 0⟩
    (fun number => ⟨number, Nat.le_refl _, nofun⟩)
    (fun number => ⟨number, Nat.le_refl _, nofun⟩)).2

/-- The second close may hit a descriptor that another thread has opened in between. -/
theorem session_closed_twice :
    sessionOnce ⟨[.failed], some 3, [.stored []], ⟨1, 0, 0, 0, 0⟩⟩ =
      .ok ⟨[0, 0, 0, 0, 1, 0, 0, 0], [.opened 3, .closed 3, .closed 3]⟩ := by
  decide

end Peak.OutputIdentity
