import Mathlib.Data.UInt

/-!
# Guarded 64-bit arithmetic

Subtraction that stops at zero and addition that reports an overflow, both described by their values
as natural numbers.
-/

namespace R4OS.Numeric

/-- Subtract, stopping at zero. -/
def saturatingSub (a b : UInt64) : UInt64 := if a < b then 0 else a - b

/-- Add, unless the sum does not fit. -/
def checkedAdd (a b : UInt64) : Option UInt64 :=
  if a.toNat + b.toNat < 2 ^ 64 then some (a + b) else none

@[simp] theorem saturatingSub_toNat (a b : UInt64) :
    (saturatingSub a b).toNat = a.toNat - b.toNat := by
  unfold saturatingSub
  split
  · rename_i less
    have less : a.toNat < b.toNat := less
    have zero : (0 : UInt64).toNat = 0 := rfl
    omega
  · rename_i enough
    exact UInt64.toNat_sub_of_le _ _ (UInt64.not_lt.mp enough)

theorem toNat_max (a b : UInt64) : (max a b).toNat = max a.toNat b.toNat := by
  have value : max a b = if a ≤ b then b else a := rfl
  rw [value, max_def]
  split <;> rename_i order <;> simp_all [UInt64.le_iff_toNat_le]

theorem checkedAdd_eq_some {a b sum : UInt64} :
    checkedAdd a b = some sum ↔ sum.toNat = a.toNat + b.toNat := by
  unfold checkedAdd
  split
  · rename_i small
    have value : (a + b).toNat = a.toNat + b.toNat := by
      rw [UInt64.toNat_add, Nat.mod_eq_of_lt small]
    rw [Option.some.injEq, ← UInt64.toNat_inj, value]
    exact eq_comm
  · rename_i large
    have bound := sum.toNat_lt
    simp only [reduceCtorEq, false_iff]
    omega

theorem checkedAdd_eq_none {a b : UInt64} :
    checkedAdd a b = none ↔ 2 ^ 64 ≤ a.toNat + b.toNat := by
  unfold checkedAdd
  split <;> simp <;> omega

/-- Summing with overflow checks succeeds exactly when the sum fits. -/
theorem foldlM_checkedAdd_eq_some {Item : Type} (size : Item → UInt64) (items : List Item)
    (start total : UInt64) :
    items.foldlM (fun sum item => checkedAdd sum (size item)) start = some total ↔
      total.toNat = start.toNat + (items.map fun item => (size item).toNat).sum := by
  induction items generalizing start with
  | nil =>
    rw [List.foldlM_nil, List.map_nil, List.sum_nil, Nat.add_zero, Option.pure_def,
      Option.some.injEq, ← UInt64.toNat_inj]
    exact eq_comm
  | cons item rest induction =>
    rw [List.foldlM_cons, List.map_cons, List.sum_cons]
    cases sum : checkedAdd start (size item) with
    | none =>
      have large := checkedAdd_eq_none.mp sum
      have bound := total.toNat_lt
      simp only [Option.bind_eq_bind, Option.bind_none, reduceCtorEq, false_iff]
      omega
    | some sum_value =>
      have value := checkedAdd_eq_some.mp sum
      rw [Option.bind_eq_bind, Option.bind_some, induction, value, Nat.add_assoc]

end R4OS.Numeric
