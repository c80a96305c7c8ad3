import Mathlib.Data.List.Basic
import Mathlib.Tactic.Ring

/-! Numbers as fixed counts of bytes, the most significant byte first.  `bigEndian k n` keeps `n`
modulo `256 ^ k`, as a machine integer of `k` bytes does. -/

namespace XChaty.ProofKit.BigEndian

/-- The `k` low bytes of `n`, the most significant first. -/
def bigEndian : Nat → Nat → List UInt8
  | 0, _ => []
  | k + 1, n => UInt8.ofNat (n / 256 ^ k) :: bigEndian k n

def ofBigEndian : List UInt8 → Nat
  | [] => 0
  | b :: bs => b.toNat * 256 ^ bs.length + ofBigEndian bs

@[simp] theorem bigEndian_length (k n : Nat) : (bigEndian k n).length = k := by
  induction k with
  | zero => rfl
  | succ k ih => rw [bigEndian, List.length_cons, ih]

theorem ofBigEndian_lt (bs : List UInt8) : ofBigEndian bs < 256 ^ bs.length := by
  induction bs with
  | nil => exact Nat.one_pos
  | cons b bs ih =>
    have hb : b.toNat + 1 ≤ 256 := b.toNat_lt
    calc
      ofBigEndian (b :: bs) < b.toNat * 256 ^ bs.length + 256 ^ bs.length :=
        Nat.add_lt_add_left ih _
      _ = (b.toNat + 1) * 256 ^ bs.length := by ring
      _ ≤ 256 * 256 ^ bs.length := Nat.mul_le_mul_right _ hb
      _ = 256 ^ (b :: bs).length := by rw [List.length_cons, pow_succ]; ring

theorem ofBigEndian_bigEndian (k n : Nat) : ofBigEndian (bigEndian k n) = n % 256 ^ k := by
  induction k with
  | zero => simp [bigEndian, ofBigEndian, Nat.mod_one]
  | succ k ih =>
    rw [bigEndian, ofBigEndian, ih, bigEndian_length, UInt8.toNat_ofNat', Nat.pow_succ 256,
      Nat.mod_mul, Nat.add_comm, Nat.mul_comm]

theorem ofBigEndian_bigEndian_of_lt {k n : Nat} (h : n < 256 ^ k) :
    ofBigEndian (bigEndian k n) = n := by
  rw [ofBigEndian_bigEndian, Nat.mod_eq_of_lt h]

theorem bigEndian_add_mul (k n m : Nat) : bigEndian k (m * 256 ^ k + n) = bigEndian k n := by
  induction k generalizing m with
  | zero => rfl
  | succ k ih =>
    have hdiv : (m * 256 ^ (k + 1) + n) / 256 ^ k = m * 256 + n / 256 ^ k := by
      rw [pow_succ, show m * (256 ^ k * 256) + n = n + 256 ^ k * (m * 256) by ring,
        Nat.add_mul_div_left _ _ (Nat.pow_pos (by decide)), Nat.add_comm]
    rw [bigEndian, bigEndian, hdiv, pow_succ, show m * (256 ^ k * 256) = m * 256 * 256 ^ k by ring,
      ih]
    congr 1
    apply UInt8.toNat_inj.mp
    simp only [UInt8.toNat_ofNat']
    omega

theorem bigEndian_ofBigEndian (bs : List UInt8) : bigEndian bs.length (ofBigEndian bs) = bs := by
  induction bs with
  | nil => rfl
  | cons b bs ih =>
    have hlow := ofBigEndian_lt bs
    have hhigh : (b.toNat * 256 ^ bs.length + ofBigEndian bs) / 256 ^ bs.length = b.toNat := by
      rw [Nat.add_comm, Nat.add_mul_div_right _ _ (Nat.pow_pos (by decide)), Nat.div_eq_of_lt hlow,
        Nat.zero_add]
    rw [List.length_cons, bigEndian, ofBigEndian, hhigh, bigEndian_add_mul, ih, UInt8.ofNat_toNat]

theorem bigEndian_mod (k n : Nat) : bigEndian k (n % 256 ^ k) = bigEndian k n := by
  have hsplit : n / 256 ^ k * 256 ^ k + n % 256 ^ k = n := Nat.div_add_mod' n (256 ^ k)
  have hmod := bigEndian_add_mul k (n % 256 ^ k) (n / 256 ^ k)
  rw [hsplit] at hmod
  exact hmod.symm

/-- None of the `k` low bytes of `n` is zero. -/
def NonzeroBytes (k n : Nat) : Prop := ∀ i < k, n / 256 ^ i % 256 ≠ 0

instance (k n : Nat) : Decidable (NonzeroBytes k n) :=
  inferInstanceAs (Decidable (∀ i < k, n / 256 ^ i % 256 ≠ 0))

theorem zero_notMem_bigEndian (k n : Nat) : 0 ∉ bigEndian k n ↔ NonzeroBytes k n := by
  induction k with
  | zero => exact ⟨fun _ _ hi => absurd hi (Nat.not_lt_zero _), fun _ => List.not_mem_nil⟩
  | succ k ih =>
    have hhead : (0 : UInt8) = UInt8.ofNat (n / 256 ^ k) ↔ n / 256 ^ k % 256 = 0 := by
      rw [← UInt8.toNat_inj, UInt8.toNat_ofNat']
      exact eq_comm
    rw [bigEndian, List.mem_cons, not_or, ih, hhead]
    constructor
    · rintro ⟨htop, hlow⟩ i hi
      rcases Nat.lt_succ_iff_lt_or_eq.mp hi with hlt | rfl
      · exact hlow i hlt
      · exact htop
    · intro hall
      exact ⟨hall k (Nat.lt_succ_self k), fun i hi => hall i (Nat.lt_succ_of_lt hi)⟩

end XChaty.ProofKit.BigEndian
