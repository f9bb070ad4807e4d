import Mathlib.Algebra.Ring.Nat
import Mathlib.Data.List.Induction
import Mathlib.Tactic.Ring

/-!
# `Lib.BigEndian` — numbers in network byte order

## Contents
- **Writing and reading.** `encode k n`, the `k` bytes of `n` with the most significant first, and `decode`.
- **Round trips.** `decode_encode` for what fits in `k` bytes, `encode_decode`; `decode_lt`.
-/

namespace BigEndian

/-- The `k` low bytes of `n`, the most significant first. -/
def encode : ℕ → ℕ → List UInt8
  | 0, _ => []
  | k + 1, n => encode k (n / 256) ++ [UInt8.ofNat n]

/-- The number that the bytes stand for. -/
def decode (bs : List UInt8) : ℕ := bs.foldl (fun n b => n * 256 + b.toNat) 0

@[simp] theorem length_encode (k n : ℕ) : (encode k n).length = k := by
  induction k generalizing n with
  | zero => rfl
  | succ k ih => rw [encode, List.length_append, ih, List.length_singleton]

theorem decode_snoc (bs : List UInt8) (b : UInt8) : decode (bs ++ [b]) = decode bs * 256 + b.toNat := by
  rw [decode, List.foldl_append]
  rfl

theorem decode_encode {k n : ℕ} (h : n < 256 ^ k) : decode (encode k n) = n := by
  induction k generalizing n with
  | zero =>
      have hzero : n = 0 := by simpa using h
      rw [hzero]
      rfl
  | succ k ih =>
      have hdiv : n / 256 < 256 ^ k := by
        rw [Nat.div_lt_iff_lt_mul (by norm_num), ← pow_succ]
        exact h
      rw [encode, decode_snoc, ih hdiv, UInt8.toNat_ofNat']
      omega

theorem decode_lt (bs : List UInt8) : decode bs < 256 ^ bs.length := by
  induction bs using List.reverseRecOn with
  | nil => exact Nat.one_pos
  | append_singleton bs b ih =>
      have hb := b.toNat_lt
      rw [decode_snoc, List.length_append, List.length_singleton, pow_succ]
      omega

theorem encode_decode (bs : List UInt8) : encode bs.length (decode bs) = bs := by
  induction bs using List.reverseRecOn with
  | nil => rfl
  | append_singleton bs b ih =>
      have hb := b.toNat_lt
      have hdiv : (decode bs * 256 + b.toNat) / 256 = decode bs := by omega
      have hlow : UInt8.ofNat (decode bs * 256 + b.toNat) = b := by
        apply UInt8.toNat_inj.mp
        rw [UInt8.toNat_ofNat']
        omega
      rw [decode_snoc, List.length_append, List.length_singleton, encode, hdiv, ih, hlow]

end BigEndian
