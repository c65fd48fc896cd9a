import Mathlib.Data.Nat.Log
import Mathlib.Order.Bounds.Basic
import Squib.Virtio.System

/-!
# The size of a queue
-/

namespace Squib

open VirtioMmioTransport DeviceStatus Bytes

variable {σ η : Type}

/-! ## Rounding -/

section NextPowerOfTwo

open private Nat.nextPowerOfTwo.go from Init.Data.Nat.Power2.Basic

theorem nextPowerOfTwo_go_bounds (n p : ℕ) (h : 0 < p) (hp : p < 2 * n) :
    n ≤ Nat.nextPowerOfTwo.go n p h ∧ Nat.nextPowerOfTwo.go n p h < 2 * n := by
  fun_induction Nat.nextPowerOfTwo.go n p h with
  | case1 p h hlt ih => exact ih (by omega)
  | case2 p h hlt => omega

theorem nextPowerOfTwo_bounds {n : ℕ} (h : 0 < n) :
    n ≤ n.nextPowerOfTwo ∧ n.nextPowerOfTwo < 2 * n := by
  unfold Nat.nextPowerOfTwo
  exact nextPowerOfTwo_go_bounds n 1 _ (by omega)

end NextPowerOfTwo

theorem nextPowerOfTwo_eq {n : ℕ} (h : 0 < n) (hn : ¬ n.isPowerOfTwo) :
    n.nextPowerOfTwo = 2 * 2 ^ Nat.log 2 n := by
  obtain ⟨k, hk⟩ := n.isPowerOfTwo_nextPowerOfTwo
  obtain ⟨hle, hlt⟩ := nextPowerOfTwo_bounds h
  rw [hk] at hle hlt ⊢
  have hne : n ≠ 2 ^ k := fun e => hn ⟨k, e⟩
  cases k with
  | zero => omega
  | succ k =>
    rw [pow_succ] at hle hlt hne
    rw [Nat.log_eq_of_pow_le_of_lt_pow (b := 2) (m := k) (by omega) (by rw [pow_succ]; omega),
      pow_succ, mul_comm]

namespace Queue

theorem isPowerOfTwo_iff (x : UInt16) : isPowerOfTwo x = true ↔ x.toNat.isPowerOfTwo := by
  have hx : x ≠ 0 → (x - 1).toNat = x.toNat - 1 := by
    intro hx
    have : 1 ≤ x := by
      rw [UInt16.le_iff_toNat_le]
      have := mt UInt16.toNat_inj.1 hx
      simp at this ⊢
      omega
    rw [UInt16.toNat_sub_of_le _ _ this]
    rfl
  rw [← Nat.ne_zero_and_sub_one_eq_zero_iff_isPowerOfTwo]
  simp only [isPowerOfTwo, Bool.and_eq_true, bne_iff_ne, beq_iff_eq, ne_eq, ← UInt16.toNat_inj,
    UInt16.toNat_and]
  constructor <;> rintro ⟨h0, h⟩
  all_goals
    have := hx fun e => h0 (congrArg UInt16.toNat e)
    exact ⟨h0, by simpa [this] using h⟩

theorem toNat_setSize (q : Queue) (requested : UInt16) :
    (q.setSize requested).size.toNat = 2 ^ Nat.log 2 (min requested.toNat q.maxSize.toNat) := by
  have hmin : (min requested q.maxSize).toNat = min requested.toNat q.maxSize.toNat := by
    show (if requested ≤ q.maxSize then requested else q.maxSize).toNat = _
    split_ifs with h
    all_goals
      rw [UInt16.le_iff_toNat_le] at h
      omega
  rw [← hmin]
  unfold setSize
  generalize min requested q.maxSize = clamped
  dsimp only
  split_ifs with h0 hp
  · rw [beq_iff_eq] at h0
    simp [h0]
  · obtain ⟨k, hk⟩ := (isPowerOfTwo_iff clamped).1 hp
    rw [hk, Nat.log_pow (by norm_num)]
  · have hpos : 0 < clamped.toNat := by
      have : clamped.toNat ≠ 0 := fun e => h0 (by simp [← UInt16.toNat_inj, e])
      omega
    have hnext := nextPowerOfTwo_eq hpos fun h => hp ((isPowerOfTwo_iff clamped).2 h)
    have hle := Nat.pow_log_le_self 2 hpos.ne'
    have hone := Nat.one_le_two_pow (n := Nat.log 2 clamped.toNat)
    have hc := clamped.toNat_lt
    unfold checkedNextPowerOfTwo
    rw [hnext]
    split_ifs with hfit
    · have hhalf : (UInt16.ofNat (2 * 2 ^ Nat.log 2 clamped.toNat) >>> 1).toNat =
          2 ^ Nat.log 2 clamped.toNat := by
        rw [UInt16.toNat_shiftRight, UInt16.toNat_ofNat_of_lt' hfit, Nat.shiftRight_eq_div_pow]
        exact Nat.mul_div_cancel_left _ (by norm_num)
      show (if _ ≤ (1 : UInt16) then (1 : UInt16) else _).toNat = _
      split_ifs with h1
      · rw [UInt16.le_iff_toNat_le, hhalf] at h1
        exact le_antisymm hone h1
      · exact hhalf
    · -- the next power does not fit, so the last one is `2 ^ 15`
      have hlog : Nat.log 2 clamped.toNat = 15 := by
        rw [not_lt, ← pow_succ', Nat.pow_le_pow_iff_right (by norm_num)] at hfit
        have := (Nat.pow_lt_pow_iff_right (a := 2) (by norm_num)).1 (hle.trans_lt hc)
        omega
      rw [hlog]
      rfl

end Queue

/-! ## The register -/

def SizedFor (value maxSize size : ℕ) : Prop :=
  if value = 0 then size = 1 else IsGreatest {p | p.isPowerOfTwo ∧ p ≤ min value maxSize} size

def sizeAfter (dev : VirtioDevice (Frontend σ) η) (t : VirtioMmioTransport (Frontend σ))
    (w : World η) (value : UInt32) : Option ℕ :=
  match write dev t w 0x38 (leBytes 4 value.toNat) with
  | .ok (_, t', _) => (dev.queues t'.device)[t'.queueSelect.toNat]?.map fun q => q.size.toNat
  | .error _ => none

theorem isGreatest_pow_iff (n size : ℕ) :
    IsGreatest {p | p.isPowerOfTwo ∧ p ≤ n} size ↔ 0 < n ∧ size = 2 ^ Nat.log 2 n := by
  have hmax (h : 0 < n) : IsGreatest {p | p.isPowerOfTwo ∧ p ≤ n} (2 ^ Nat.log 2 n) := by
    refine ⟨⟨⟨_, rfl⟩, Nat.pow_log_le_self 2 h.ne'⟩, ?_⟩
    rintro p ⟨⟨k, rfl⟩, hk⟩
    exact Nat.pow_le_pow_right (by norm_num) (Nat.le_log_of_pow_le (by norm_num) hk)
  constructor
  · intro h
    have hn : 0 < n := (Nat.pos_of_isPowerOfTwo h.1.1).trans_le h.1.2
    exact ⟨hn, h.unique (hmax hn)⟩
  · rintro ⟨hn, rfl⟩
    exact hmax hn

theorem sizedFor_iff {value m : ℕ} (hm : m < 2 ^ 16) :
    SizedFor value m (2 ^ Nat.log 2 (min (value % 2 ^ 16) m)) ↔ value = 0 ∨
      0 < m ∧ (value < 2 ^ 16 ∨ Nat.log 2 m ≤ Nat.log 2 (value % 2 ^ 16)) := by
  unfold SizedFor
  split_ifs with h0
  · simp [h0]
  · rw [isGreatest_pow_iff, Nat.pow_right_inj (le_refl 2)]
    rcases lt_or_ge value (2 ^ 16) with hv | hv
    · rw [Nat.mod_eq_of_lt hv]
      omega
    · rw [min_eq_right (by omega : m ≤ value), Nat.log_monotone.map_min]
      omega

variable (M : DeviceModel σ η) (fuel : ℕ) {t : VirtioMmioTransport (Frontend σ)} (w : World η)
  {q : Queue}

theorem sizeAfter_eq (hs : t.status &&& driverOk = 0)
    (hq : t.device.queues[t.queueSelect.toNat]? = some q) (value : UInt32) :
    sizeAfter (M.vtable fuel) t w value =
      some (2 ^ Nat.log 2 (min (value.toNat % 2 ^ 16) q.maxSize.toNat)) := by
  have hw : write (M.vtable fuel) t w 0x38 (leBytes 4 value.toNat) =
      .ok (true, updateQueueField (M.vtable fuel) t fun q => q.setSize value.toUInt16, w) := by
    rw [write_eq_apply, decode_leBytes (by decide)]
    rfl
  have hset : updateQueueField (M.vtable fuel) t (fun q => q.setSize value.toUInt16) =
      { t with
        device := { t.device with
          queues := t.device.queues.set t.queueSelect.toNat (q.setSize value.toUInt16) } } := by
    unfold updateQueueField
    have hq' : ((M.vtable fuel).queues t.device)[t.queueSelect.toNat]? = some q := hq
    rw [if_neg (by simp [hs]), hq']
    rfl
  have hlt := (List.getElem?_eq_some_iff.1 hq).1
  unfold sizeAfter
  rw [hw, hset]
  show (t.device.queues.set t.queueSelect.toNat _)[t.queueSelect.toNat]?.map _ = _
  rw [List.getElem?_set_self hlt, Option.map_some, Queue.toNat_setSize, UInt32.toNat_toUInt16]

/-- **What a write of `QueueNum` does.** The size is as asked for exactly when the low half of the
value asks for it too. -/
theorem queueNum_iff (hs : t.status &&& driverOk = 0)
    (hq : t.device.queues[t.queueSelect.toNat]? = some q) :
    (∀ value : UInt32,
      (∃ size, sizeAfter (M.vtable fuel) t w value = some size ∧
        SizedFor value.toNat q.maxSize.toNat size) ↔
      value = 0 ∨ 0 < q.maxSize ∧ (value.toNat < 2 ^ 16 ∨
        Nat.log 2 q.maxSize.toNat ≤ Nat.log 2 (value.toNat % 2 ^ 16))) ∧
    ((∀ value value' : UInt32, value ≤ value' →
      ∀ size ∈ sizeAfter (M.vtable fuel) t w value,
      ∀ size' ∈ sizeAfter (M.vtable fuel) t w value', size ≤ size') ↔ q.maxSize ≤ 1) := by
  simp only [sizeAfter_eq M fuel w hs hq, Option.mem_some_iff, Option.some.injEq,
    exists_eq_left', forall_eq']
  refine ⟨fun value => ?_, fun h => ?_, fun h value value' _ => ?_⟩
  · rw [sizedFor_iff q.maxSize.toNat_lt, UInt16.lt_iff_toNat_lt, ← UInt32.toNat_inj]
    rfl
  · -- a write of `2 ^ 16` is a write of `0`
    by_contra hc
    rw [UInt16.le_iff_toNat_le, not_le] at hc
    have h2 : 2 ^ Nat.log 2 (min 2 q.maxSize.toNat) ≤ 2 ^ Nat.log 2 (min 0 q.maxSize.toNat) :=
      h 2 0x10000 (by decide)
    rw [min_eq_left (show 2 ≤ q.maxSize.toNat from hc)] at h2
    norm_num at h2
  · rw [UInt16.le_iff_toNat_le] at h
    have hlog (n : ℕ) : Nat.log 2 (min n q.maxSize.toNat) = 0 :=
      Nat.log_of_lt (lt_of_le_of_lt (min_le_right _ _) (Nat.lt_succ_of_le h))
    rw [hlog, hlog]

section Example

def smallQueue : DeviceModel Unit Unit := PmemDevice.new { guestBase := 0, sizeBytes := 0 }

def untouched : World Unit := World.start { regions := [], byte := fun _ => 0 } ()

theorem queueNum_small :
    ∃ size, sizeAfter (smallQueue.vtable 0) (.new smallQueue.new) untouched 100 = some size ∧
      SizedFor 100 64 size :=
  ((queueNum_iff smallQueue 0 (t := .new smallQueue.new) (q := Queue.new 64) untouched rfl rfl).1
    100).2 (Or.inr ⟨by decide, Or.inl (by decide)⟩)

/-- A write of `2 ^ 16` leaves one entry. -/
theorem queueNum_wraps :
    sizeAfter (smallQueue.vtable 0) (.new smallQueue.new) untouched 64 = some 64 ∧
      sizeAfter (smallQueue.vtable 0) (.new smallQueue.new) untouched 0x10000 = some 1 ∧
      ¬ SizedFor 0x10000 64 1 := by
  refine ⟨?_, ?_, ?_⟩
  · rw [sizeAfter_eq (q := Queue.new 64) smallQueue 0 untouched rfl rfl]
    decide +kernel
  · rw [sizeAfter_eq (q := Queue.new 64) smallQueue 0 untouched rfl rfl]
    decide +kernel
  · unfold SizedFor
    rw [if_neg (by norm_num), isGreatest_pow_iff]
    decide +kernel

end Example

end Squib
