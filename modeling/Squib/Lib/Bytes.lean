import Mathlib.Data.List.GetD
import Mathlib.Tactic.Ring

/-!
# Byte codecs and byte stores
-/

namespace Bytes

/-! ## Little-endian numbers -/

def leBytes : ℕ → ℕ → List UInt8
  | 0, _ => []
  | n + 1, x => UInt8.ofNat x :: leBytes n (x / 256)

def leNat : List UInt8 → ℕ
  | [] => 0
  | b :: bs => b.toNat + 256 * leNat bs

@[simp] theorem length_leBytes : ∀ n x : ℕ, (leBytes n x).length = n
  | 0, _ => rfl
  | n + 1, x => by rw [leBytes, List.length_cons, length_leBytes n]

theorem leNat_leBytes : ∀ n x : ℕ, leNat (leBytes n x) = x % 256 ^ n
  | 0, x => by simp [leBytes, leNat, Nat.mod_one]
  | n + 1, x => by
    rw [leBytes, leNat, leNat_leBytes n, UInt8.toNat_ofNat', pow_succ' 256 n, Nat.mod_mul]

theorem take_leBytes : ∀ {m n : ℕ} (x : ℕ), m ≤ n → (leBytes n x).take m = leBytes m x
  | 0, _, _, _ => rfl
  | m + 1, 0, _, h => absurd h (by omega)
  | m + 1, n + 1, x, h => by
    rw [leBytes, List.take_succ_cons, take_leBytes (x / 256) (by omega), leBytes]

theorem leNat_zeros : ∀ n : ℕ, leNat (List.replicate n 0) = 0
  | 0 => rfl
  | n + 1 => by rw [List.replicate_succ, leNat, leNat_zeros n]; rfl

theorem leNat_append_zeros (n : ℕ) : ∀ bs : List UInt8, leNat (bs ++ List.replicate n 0) = leNat bs
  | [] => leNat_zeros n
  | b :: bs => by rw [List.cons_append, leNat, leNat_append_zeros n bs, leNat]

theorem leNat_lt : ∀ bs : List UInt8, leNat bs < 256 ^ bs.length
  | [] => by simp [leNat]
  | b :: bs => by
    have hb := b.toNat_lt
    have hbs := leNat_lt bs
    rw [leNat, List.length_cons, pow_succ']
    omega

theorem leBytes_leNat : ∀ bs : List UInt8, leBytes bs.length (leNat bs) = bs
  | [] => rfl
  | b :: bs => by
    have hb := b.toNat_lt
    have hlow : UInt8.ofNat (b.toNat + 256 * leNat bs) = b := by
      refine UInt8.toNat_inj.1 ?_
      rw [UInt8.toNat_ofNat']
      omega
    rw [leNat, List.length_cons, leBytes, hlow,
      show (b.toNat + 256 * leNat bs) / 256 = leNat bs by omega, leBytes_leNat bs]

/-! ## Stores -/

def load (f : ℕ → UInt8) (addr len : ℕ) : List UInt8 :=
  (List.range len).map fun i => f (addr + i)

def store (f : ℕ → UInt8) (addr : ℕ) (bs : List UInt8) : ℕ → UInt8 :=
  fun a => if addr ≤ a ∧ a < addr + bs.length then bs.getD (a - addr) 0 else f a

def InRange (addr len a : ℕ) : Prop := addr ≤ a ∧ a < addr + len

instance (addr len a : ℕ) : Decidable (InRange addr len a) := by unfold InRange; infer_instance

@[simp] theorem length_load (f : ℕ → UInt8) (addr len : ℕ) : (load f addr len).length = len := by
  simp [load]

theorem store_of_notMem {f : ℕ → UInt8} {addr a : ℕ} {bs : List UInt8}
    (h : ¬ InRange addr bs.length a) : store f addr bs a = f a := if_neg h

theorem load_congr {f g : ℕ → UInt8} {addr len : ℕ} (h : ∀ a, InRange addr len a → f a = g a) :
    load f addr len = load g addr len := by
  refine List.map_congr_left fun i hi => h _ ⟨by omega, ?_⟩
  have := List.mem_range.1 hi
  omega

theorem load_store (f : ℕ → UInt8) (addr : ℕ) (bs : List UInt8) :
    load (store f addr bs) addr bs.length = bs := by
  refine List.ext_getElem (by simp) fun i h1 h2 => ?_
  simp only [load, store, List.getElem_map, List.getElem_range]
  rw [if_pos ⟨by omega, by omega⟩, Nat.add_sub_cancel_left, List.getD_eq_getElem _ _ h2]

end Bytes
