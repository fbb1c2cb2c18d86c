import Mathlib.Data.Multiset.UnionInter

/-!
# Ledgers of counted references

A keeper holds references to objects beside the clients of the objects, which count all of them. It
acquires a numbered reference of its own, or takes over the one of a client, and gives each of its
references back once.
-/

namespace Peak

/-- The references which the objects count, those of the clients and those of the keeper. -/
structure ReferenceLedger (Object : Type) where
  counted : Multiset Object
  lent : Multiset Object
  held : Multiset (Object × ℕ)
  closed : Multiset (Object × ℕ)
  acquired : Multiset (Object × ℕ)
  next : ℕ

namespace ReferenceLedger

variable {Object : Type}

/-- What clients and the keeper may do. -/
inductive Step [DecidableEq Object] : ReferenceLedger Object → ReferenceLedger Object → Prop
  | stay (ledger : ReferenceLedger Object) : Step ledger ledger
  | lend (ledger : ReferenceLedger Object) (object : Object) :
      Step ledger { ledger with
        counted := object ::ₘ ledger.counted
        lent := object ::ₘ ledger.lent }
  | returned (ledger : ReferenceLedger Object) (object : Object) (rest : Multiset Object) :
      ledger.lent = object ::ₘ rest →
      Step ledger { ledger with counted := ledger.counted.erase object, lent := rest }
  | acquire (ledger : ReferenceLedger Object) (object : Object) :
      Step ledger { ledger with
        counted := object ::ₘ ledger.counted
        held := (object, ledger.next) ::ₘ ledger.held
        acquired := (object, ledger.next) ::ₘ ledger.acquired
        next := ledger.next + 1 }
  | takeOver (ledger : ReferenceLedger Object) (object : Object) (rest : Multiset Object) :
      ledger.lent = object ::ₘ rest →
      Step ledger { ledger with
        lent := rest
        held := (object, ledger.next) ::ₘ ledger.held
        acquired := (object, ledger.next) ::ₘ ledger.acquired
        next := ledger.next + 1 }
  | release (ledger : ReferenceLedger Object) (reference : Object × ℕ)
      (rest : Multiset (Object × ℕ)) : ledger.held = reference ::ₘ rest →
      Step ledger { ledger with
        counted := ledger.counted.erase reference.1
        held := rest
        closed := reference ::ₘ ledger.closed }

/-- The objects count the references of the clients and the keeper, and every reference the keeper
acquired is held or closed, once. -/
structure Balanced (ledger : ReferenceLedger Object) : Prop where
  counted : ledger.counted = ledger.lent + ledger.held.map Prod.fst
  accounted : ledger.held + ledger.closed = ledger.acquired
  distinct : ledger.acquired.Nodup
  numbered : ∀ reference ∈ ledger.acquired, reference.2 < ledger.next

variable {before after : ReferenceLedger Object}

theorem Balanced.nodup_acquire (balanced : Balanced before) (object : Object) :
    ((object, before.next) ::ₘ before.acquired).Nodup := by
  rw [Multiset.nodup_cons]
  refine ⟨?_, balanced.distinct⟩
  intro isAcquired
  exact Nat.lt_irrefl _ (balanced.numbered _ isAcquired)

theorem Balanced.numbered_acquire (balanced : Balanced before) (object : Object) :
    ∀ reference ∈ (object, before.next) ::ₘ before.acquired, reference.2 < before.next + 1 := by
  intro reference isAcquired
  rcases Multiset.mem_cons.mp isAcquired with rfl | earlier
  · exact Nat.lt_succ_self _
  · exact Nat.lt_succ_of_lt (balanced.numbered reference earlier)

theorem Balanced.step [DecidableEq Object] (balanced : Balanced before) (step : Step before after) :
    Balanced after := by
  cases step with
  | stay => exact balanced
  | lend =>
    refine ⟨?_, balanced.accounted, balanced.distinct, balanced.numbered⟩
    simp [balanced.counted]
  | returned _ _ lent =>
    refine ⟨?_, balanced.accounted, balanced.distinct, balanced.numbered⟩
    simp [balanced.counted, lent]
  | acquire object =>
    refine ⟨?_, ?_, balanced.nodup_acquire object, balanced.numbered_acquire object⟩
    · simp [balanced.counted]
    · simp [← balanced.accounted]
  | takeOver object _ lent =>
    refine ⟨?_, ?_, balanced.nodup_acquire object, balanced.numbered_acquire object⟩
    · simp [balanced.counted, lent]
    · simp [← balanced.accounted]
  | release _ _ held =>
    refine ⟨?_, ?_, balanced.distinct, balanced.numbered⟩
    · simp [balanced.counted, held]
    · simp [← balanced.accounted, held]

theorem Step.closes [DecidableEq Object] (step : Step before after) :
    after.closed = before.closed ∨
      ∃ reference ∈ before.held, after.closed = reference ::ₘ before.closed ∧
        after.held = before.held.erase reference ∧
        after.counted = before.counted.erase reference.1 := by
  cases step with
  | release reference _ held =>
    right
    refine ⟨reference, ?_, rfl, ?_, rfl⟩
    · simp [held]
    · simp [held]
  | _ => exact .inl rfl

end ReferenceLedger

end Peak
