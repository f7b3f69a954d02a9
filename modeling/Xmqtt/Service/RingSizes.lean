import Xmqtt.Core.PowersOfTwo
import Xmqtt.Go.Int64
import Xmqtt.Service.RingFifo
import Xmqtt.Sessions.Backlog

/-!
# The sizes of rings

The ack queue of `ackqueue.go` and the ring buffer of `buffer.go` index their rings with a
mask, so their sizes have to be powers of two.  Both packages have the same two functions
for that.  They are followed here on `int64` values, which the ring buffer of this
development has as numbers.
-/

namespace Xmqtt.Service

open Xmqtt.Core Xmqtt.Go Xmqtt.Sessions

variable {n : Int64} {k : ℕ}

/-! ## On numbers -/

namespace RingBuffer

/-- Six steps spread the bits over 64 places. -/
theorem roundUpPowerOfTwo64_eq (hle : k ≤ 2 ^ 64) :
    roundUpPowerOfTwo64 k = 2 ^ (k - 1).size := by
  have hspread : Spread (k - 1) 64 (roundUpPowerOfTwo64 k - 1) :=
    (Spread.self (k - 1)).double.double.double.double.double.double
  have heq := hspread.eq_two_pow_sub_one (by omega)
  have hpos := Nat.two_pow_pos (k - 1).size
  rw [roundUpPowerOfTwo64] at heq ⊢
  omega

end RingBuffer

/-! ## On `int64` -/

/-- The steps of `roundUpPowerOfTwo64` up to the last one. -/
theorem stands_roundUp_sub_one (hn : Stands n k) (hpos : 0 < k) :
    Stands (roundUpPowerOfTwo64 n - 1) (RingBuffer.roundUpPowerOfTwo64 k - 1) := by
  have hstep {x : Int64} {m count : ℕ} {y : Int64} (hx : Stands x m)
      (hshift : y.toBitVec = x.toBitVec.sshiftRight count) : Stands (x ||| y) (m ||| m >>> count) :=
    hx.or (hx.shiftRight hshift)
  rw [roundUpPowerOfTwo64, Int64.add_sub_cancel]
  exact hstep (hstep (hstep (hstep (hstep (hstep (hn.sub_one hpos) rfl) rfl) rfl) rfl) rfl) rfl

theorem stands_roundUp (hn : Stands n k) (hpos : 0 < k) (hle : k ≤ 2 ^ 62) :
    Stands (roundUpPowerOfTwo64 n) (RingBuffer.roundUpPowerOfTwo64 k) := by
  have hsize : RingBuffer.roundUpPowerOfTwo64 k ≤ 2 ^ 62 := by
    rw [RingBuffer.roundUpPowerOfTwo64_eq (by omega)]
    exact Nat.pow_le_pow_right Nat.two_pos (size_sub_one_le hle)
  have hsucc : RingBuffer.roundUpPowerOfTwo64 k - 1 + 1 = RingBuffer.roundUpPowerOfTwo64 k := rfl
  have hstands := (stands_roundUp_sub_one hn hpos).add_one (by omega)
  rwa [Int64.sub_add_cancel, hsucc] at hstands

theorem powerOfTwo64_eq (hn : Stands n k) (hpos : 0 < k) :
    powerOfTwo64 n = RingBuffer.powerOfTwo64 k := by
  have hzero : Stands 0 0 := rfl
  have hand := hn.and (hn.sub_one hpos)
  rw [powerOfTwo64, RingBuffer.powerOfTwo64, Bool.eq_iff_iff, Bool.and_eq_true, bne_iff_ne,
    beq_iff_eq, Bool.and_eq_true, decide_eq_true_eq, decide_eq_true_eq, Ne, hn.eq_iff hzero,
    hand.eq_iff hzero]

/-- A mask that is one less than a power of two leaves the remainder. -/
theorem toInt_and_sub_one {x m : Int64} {p : ℕ} (hm : Stands m p) (hpower : p.isPowerOfTwo)
    (hx : 0 ≤ x.toInt) : (x &&& (m - 1)).toInt = x.toInt % m.toInt := by
  have hmask := (stands_toNat hx).and (hm.sub_one (Nat.pos_of_isPowerOfTwo hpower))
  obtain ⟨e, rfl⟩ := hpower
  rw [Nat.and_two_pow_sub_one_eq_mod] at hmask
  calc (x &&& (m - 1)).toInt = ((x.toInt.toNat % 2 ^ e : ℕ) : ℤ) := hmask
    _ = x.toInt % m.toInt := by rw [Int.natCast_mod, Int.toNat_of_nonneg hx, hm]

/-- For every `int64` from 1 to 2^62 `roundUpPowerOfTwo64` is the least power of two that is
not below it, `powerOfTwo64` holds exactly of the values that are not changed by it, and a
mask of one less gives the remainder.  The functions on numbers that the ring buffer has are
the same ones. -/
theorem roundUpPowerOfTwo64_least {n : Int64} (hpos : 1 ≤ n.toInt) (hle : n.toInt ≤ 2 ^ 62) :
    IsLeast {p : ℤ | (∃ k : ℕ, p = 2 ^ k) ∧ n.toInt ≤ p} (roundUpPowerOfTwo64 n).toInt ∧
      (powerOfTwo64 n = true ↔ roundUpPowerOfTwo64 n = n) ∧
      (∀ x : Int64, 0 ≤ x.toInt →
        (x &&& (roundUpPowerOfTwo64 n - 1)).toInt = x.toInt % (roundUpPowerOfTwo64 n).toInt) ∧
      RingBuffer.powerOfTwo64 n.toInt.toNat = powerOfTwo64 n ∧
      (RingBuffer.roundUpPowerOfTwo64 n.toInt.toNat : ℤ) = (roundUpPowerOfTwo64 n).toInt := by
  obtain ⟨k, hk⟩ := Int.eq_ofNat_of_zero_le (by omega : 0 ≤ n.toInt)
  have hn : Stands n k := hk
  have hkpos : 0 < k := by omega
  have hround := stands_roundUp hn hkpos (by omega)
  have hpow := RingBuffer.roundUpPowerOfTwo64_eq (k := k) (by omega)
  have hleast := isLeast_two_pow_size hkpos
  rw [← hpow] at hleast
  have htoNat : n.toInt.toNat = k := by rw [hk]; rfl
  rw [htoNat, hk]
  refine ⟨⟨⟨?_, ?_⟩, ?_⟩, ?_, ?_, (powerOfTwo64_eq hn hkpos).symm, hround.symm⟩
  · obtain ⟨e, he⟩ := hleast.1.1
    exact ⟨e, by rw [hround, he, Nat.cast_pow, Nat.cast_ofNat]⟩
  · rw [hround]
    exact Int.ofNat_le.mpr hleast.1.2
  · rintro p ⟨⟨e, rfl⟩, hbelow⟩
    have hbelow' : k ≤ 2 ^ e := by exact_mod_cast hbelow
    rw [hround]
    exact_mod_cast hleast.2 ⟨⟨e, rfl⟩, hbelow'⟩
  · rw [powerOfTwo64_eq hn hkpos, RingBuffer.powerOfTwo64_iff, hround.eq_iff hn, hpow]
    exact isPowerOfTwo_iff_two_pow_size hkpos
  · intro x hx
    exact toInt_and_sub_one hround hleast.1.1 hx

/-- Five is rounded up to eight. -/
theorem roundUpPowerOfTwo64_least_five :
    (roundUpPowerOfTwo64 5).toInt = 8 ∧
      IsLeast {p : ℤ | (∃ k : ℕ, p = 2 ^ k) ∧ (5 : Int64).toInt ≤ p}
        (roundUpPowerOfTwo64 5).toInt :=
  ⟨by decide, (roundUpPowerOfTwo64_least (by decide) (by decide)).1⟩

/-- Above 2^62 there is no such power left, and the last step wraps around. -/
theorem roundUpPowerOfTwo64_overflows (hlt : 2 ^ 62 < n.toInt) :
    (roundUpPowerOfTwo64 n).toInt = -2 ^ 63 := by
  obtain ⟨k, hk⟩ := Int.eq_ofNat_of_zero_le (by omega : 0 ≤ n.toInt)
  have hn : Stands n k := hk
  have hlt63 := hn.lt
  have hsize : (k - 1).size = 63 :=
    le_antisymm (size_sub_one_le hlt63.le) (Nat.lt_size.mpr (by omega))
  have hround := stands_roundUp_sub_one hn (by omega)
  rw [RingBuffer.roundUpPowerOfTwo64_eq (by omega), hsize] at hround
  have hwrap := hround.add_one_of_eq rfl
  rwa [Int64.sub_add_cancel] at hwrap

/-! ## Ack queues of any size -/

/-- Whether `newAckqueue` has to round or not, it takes the least power of two. -/
theorem stands_size (hn : Stands n k) (hpos : 0 < k) (hle : k ≤ 2 ^ 62) :
    Stands (if powerOfTwo64 n then n else roundUpPowerOfTwo64 n) (2 ^ (k - 1).size) := by
  have hround := stands_roundUp hn hpos hle
  rw [RingBuffer.roundUpPowerOfTwo64_eq (by omega)] at hround
  split_ifs with hpower
  · rw [powerOfTwo64_eq hn hpos, RingBuffer.powerOfTwo64_iff,
      isPowerOfTwo_iff_two_pow_size hpos] at hpower
    rwa [hpower]
  · exact hround

theorem size_newAckqueue (hn : Stands n k) (hpos : 0 < k) (hle : k ≤ 2 ^ 62) (t : String) :
    (newAckqueue n t).size = 2 ^ (k - 1).size :=
  congrArg Int.toNat (stands_size hn hpos hle)

theorem mask_newAckqueue (hn : Stands n k) (hpos : 0 < k) (hle : k ≤ 2 ^ 62) (t : String) :
    (newAckqueue n t).mask = 2 ^ (k - 1).size - 1 :=
  congrArg Int.toNat ((stands_size hn hpos hle).sub_one (Nat.two_pow_pos _))

/-- A queue may be made for any number of entries that packet ids can tell apart. -/
theorem represents_newAckqueue (hn : Stands n k) (hpos : 0 < k) (hle : k ≤ 131072)
    (t : String) : Represents (newAckqueue n t) (.new t) := by
  have hsize := size_newAckqueue hn hpos (by omega) t
  have hlength : (newAckqueue n t).ring.length = (newAckqueue n t).size :=
    List.length_replicate
  have hpositive : 0 < (newAckqueue n t).size := by
    rw [hsize]
    exact Nat.two_pow_pos _
  exact {
    size_eq := hlength.symm
    power := ⟨_, hsize⟩
    mask_eq := by rw [hsize, mask_newAckqueue hn hpos (by omega)]
    holds := Ring.Holds.empty hpositive
    count_eq := rfl
    tail_eq := by
      rw [hlength]
      exact (Nat.mod_eq_of_lt hpositive).symm
    emap := Ring.Indexes.empty
    ids := List.forall_mem_nil _
    bounded := by
      rw [hsize]
      exact Nat.pow_le_pow_right Nat.two_pos (size_sub_one_le (show k ≤ 2 ^ 17 from hle))
    ping_eq := rfl
    bytesPool_eq := rfl }

/-- The fields of a queue of any such size fit together after every sequence of calls. -/
theorem invariant_newAckqueue (hpos : 1 ≤ n.toInt) (hle : n.toInt ≤ 131072) (t : String)
    (calls : List Ackqueue.Call) : ((newAckqueue n t).after calls).Invariant := by
  have hn := stands_toNat (by omega : 0 ≤ n.toInt)
  exact ((represents_newAckqueue hn (by omega) (by omega) t).after calls).invariant

end Xmqtt.Service
