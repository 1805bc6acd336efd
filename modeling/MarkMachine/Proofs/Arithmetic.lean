import Mathlib.Algebra.Order.Group.Unbundled.Int
import Mathlib.Data.Int.ModEq
import MarkMachine.Proofs.Failure

/-! Arithmetic on all operands of 64 bits. A sum, a difference and a product are the one number of 64 bits that
is congruent to the exact result. A quotient goes toward zero and a remainder has the sign of the dividend, and
the two fit together exactly; the one quotient that 64 bits do not hold is that of the least number by minus
one, which is the least number again. -/

namespace MarkMachine

/-- What a value is worth as a number: a character its code point, and an unset value nothing. -/
def Value.worth : Value → Int
  | .unset => 0
  | .integer n => n.toInt
  | .character c => c.toNat

theorem Value.toInt_toInteger (value : Value) : value.toInteger.toInt = value.worth := by
  cases value with
  | unset => rfl
  | integer n => rfl
  | character c =>
      have hsmall : c.toNat < 2 ^ 63 := Nat.lt_trans c.val.toNat_lt (by decide)
      exact Int64.toInt_ofNat_of_lt hsmall

namespace Operator

/-- The exact result of an operator that wraps around, without any bound. -/
def unbounded? : Operator → Option (Int → Int → Int)
  | .add => some (· + ·)
  | .sub => some (· - ·)
  | .mul => some (· * ·)
  | .div => none
  | .mod => none

/-- Of the numbers of 64 bits only one is congruent to a given number. -/
theorem modEq_iff_toInt_eq_bmod {n : Int64} {x : Int} :
    n.toInt ≡ x [ZMOD 2 ^ 64] ↔ n.toInt = x.bmod (2 ^ 64) := by
  have hn : n.toInt.bmod (2 ^ 64) = n.toInt := n.toInt_bmod
  constructor
  · intro hmod
    have hemod : n.toInt % ((2 ^ 64 : Nat) : Int) = x % ((2 ^ 64 : Nat) : Int) := hmod
    rw [← hn, ← Int.emod_bmod, hemod, Int.emod_bmod]
  · intro hbmod
    rw [hbmod]
    exact Int.bmod_emod

theorem exists_apply?_wraps {operator : Operator} {unbounded : Int → Int → Int}
    (h : operator.unbounded? = some unbounded) (left right : Int64) :
    ∃ result, operator.apply? left right = some result ∧
      result.toInt = (unbounded left.toInt right.toInt).bmod (2 ^ 64) := by
  cases operator with
  | add =>
      cases h
      exact ⟨left + right, rfl, Int64.toInt_add left right⟩
  | sub =>
      cases h
      exact ⟨left - right, rfl, Int64.toInt_sub left right⟩
  | mul =>
      cases h
      exact ⟨left * right, rfl, Int64.toInt_mul left right⟩
  | div => cases h
  | mod => cases h

/-- A quotient is the exact one, rounded toward zero, unless it is the one that 64 bits do not hold. -/
theorem toInt_div_of_fits {left right : Int64} (h : ¬(left.toInt = -2 ^ 63 ∧ right.toInt = -1)) :
    (left / right).toInt = left.toInt.tdiv right.toInt := by
  by_cases hleft : left = Int64.minValue
  · apply Int64.toInt_div_of_ne_right
    rintro rfl
    rw [hleft] at h
    exact h ⟨rfl, rfl⟩
  · exact Int64.toInt_div_of_ne_left left right hleft

theorem abs_tmod_lt (a : Int) {b : Int} (h : b ≠ 0) : |a.tmod b| < |b| := by
  have hlt : a.natAbs % b.natAbs < b.natAbs := Nat.mod_lt _ (Int.natAbs_pos.mpr h)
  rw [← Int.natAbs_tmod] at hlt
  rw [Int.abs_eq_natAbs, Int.abs_eq_natAbs]
  exact_mod_cast hlt

theorem tmod_eq_zero_or_sign_eq (a b : Int) : a.tmod b = 0 ∨ (a.tmod b).sign = a.sign := by
  by_cases hdvd : b ∣ a
  · exact .inl (Int.tmod_eq_zero_of_dvd hdvd)
  · right
    rw [Int.sign_tmod, if_neg hdvd]

end Operator

/-- An operator that has a result puts it in the place of its operands. -/
theorem Instruction.execute_arithmetic {session : Session} {right left : Value} {rest : Stack}
    (hstack : session.machine.stack = right :: left :: rest) {operator : Operator} {result : Int64}
    (hresult : operator.apply? left.toInteger right.toInteger = some result) (position : Nat) :
    (arithmetic operator).execute position session =
      .ok .running (session.withStack (.integer result :: rest)) := by
  apply execute_running
  · refine (Action.ensure_two_bind_of_cons hstack _ _ _).trans ?_
    rw [hresult]
    rfl
  · nofun

/-- **Arithmetic is exact for all operands.** Sums, differences and products are the only numbers of 64 bits congruent
to the exact results modulo 2⁶⁴. By what is not worth zero, division goes toward zero and the remainder has the
sign of the dividend; only the least number divided by minus one wraps around. Nothing but the two operands on
the stack changes. -/
theorem Instruction.arithmetic_exact {session : Session} {right left : Value} {rest : Stack}
    (hstack : session.machine.stack = right :: left :: rest) (position : Nat) :
    let a := left.worth
    let b := right.worth
    (∀ operator unbounded, Operator.unbounded? operator = some unbounded → ∃ result : Int64,
      (arithmetic operator).execute position session =
        .ok .running (session.withStack (.integer result :: rest)) ∧
      ∀ n : Int64, n.toInt ≡ unbounded a b [ZMOD 2 ^ 64] ↔ n = result) ∧
    (b ≠ 0 → ∃ q r : Int64,
      (arithmetic .div).execute position session = .ok .running (session.withStack (.integer q :: rest)) ∧
      (arithmetic .mod).execute position session = .ok .running (session.withStack (.integer r :: rest)) ∧
      |r.toInt| < |b| ∧ (r.toInt = 0 ∨ r.toInt.sign = a.sign) ∧
      (¬(a = -2 ^ 63 ∧ b = -1) → a = q.toInt * b + r.toInt) ∧
      (a = -2 ^ 63 → b = -1 → q.toInt = -2 ^ 63 ∧ r.toInt = 0)) := by
  intro a b
  have ha : left.toInteger.toInt = a := left.toInt_toInteger
  have hb : right.toInteger.toInt = b := right.toInt_toInteger
  refine ⟨?_, ?_⟩
  · intro operator unbounded hunbounded
    obtain ⟨result, happly, hresult⟩ :=
      Operator.exists_apply?_wraps hunbounded left.toInteger right.toInteger
    refine ⟨result, execute_arithmetic hstack happly position, fun n => ?_⟩
    rw [Operator.modEq_iff_toInt_eq_bmod, ← ha, ← hb, ← hresult, Int64.toInt_inj]
  · intro hzero
    have hdivisor : right.toInteger ≠ 0 := by
      intro h
      rw [h] at hb
      exact hzero hb.symm
    have hmod : (left.toInteger % right.toInteger).toInt = a.tmod b := by
      rw [Int64.toInt_mod, ha, hb]
    have hquotient : Operator.apply? .div left.toInteger right.toInteger =
        some (left.toInteger / right.toInteger) := if_neg hdivisor
    have hremainder : Operator.apply? .mod left.toInteger right.toInteger =
        some (left.toInteger % right.toInteger) := if_neg hdivisor
    refine ⟨_, _, execute_arithmetic hstack hquotient position, execute_arithmetic hstack hremainder position, ?_⟩
    rw [hmod]
    refine ⟨Operator.abs_tmod_lt a hzero, Operator.tmod_eq_zero_or_sign_eq a b, ?_, ?_⟩
    · intro hfits
      rw [← ha, ← hb] at hfits
      rw [Operator.toInt_div_of_fits hfits, ha, hb, Int.tdiv_mul_add_tmod]
    · intro hleast hminus
      have hleft : left.toInteger = Int64.minValue := Int64.toInt_inj.mp (ha.trans hleast)
      have hright : right.toInteger = -1 := Int64.toInt_inj.mp (hb.trans hminus)
      rw [hleft, hright, hleast, hminus]
      exact ⟨rfl, rfl⟩

/-- The least number divided by minus one, and a character subtracted from an unset value, above other values. -/
theorem Instruction.arithmetic_exact_least :
    let session (left right : Value) : Session :=
      ⟨{ program := [], labels := ∅, stack := [right, left, .character 'x'] }, ⟨[], none⟩, {}⟩
    (∃ q : Int64, (arithmetic .div).execute 0 (session (.integer Int64.minValue) (.integer (-1))) =
      .ok .running ((session (.integer Int64.minValue) (.integer (-1))).withStack
        [.integer q, .character 'x']) ∧ q.toInt = -2 ^ 63) ∧
    ∃ n : Int64, (arithmetic .sub).execute 0 (session .unset (.character 'A')) =
      .ok .running ((session .unset (.character 'A')).withStack [.integer n, .character 'x']) ∧ n = -65 := by
  intro session
  have hstack (left right : Value) :
      (session left right).machine.stack = [right, left, .character 'x'] := rfl
  constructor
  · obtain ⟨_, hdivision⟩ := arithmetic_exact (hstack (.integer Int64.minValue) (.integer (-1))) 0
    obtain ⟨q, r, hdiv, _, _, _, _, hleast⟩ := hdivision (by decide)
    exact ⟨q, hdiv, (hleast rfl rfl).1⟩
  · obtain ⟨hwraps, _⟩ := arithmetic_exact (hstack .unset (.character 'A')) 0
    obtain ⟨n, hsub, hunique⟩ := hwraps .sub _ rfl
    exact ⟨n, hsub, ((hunique (-65)).mp rfl).symm⟩

end MarkMachine
