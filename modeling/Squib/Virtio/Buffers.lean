import Squib.Core.Arith
import Squib.Virtio.Device

/-!
# Gathering and scattering buffers
-/

namespace Squib

open Checked

variable {η : Type}

def readable (m : GuestMemory) (desc : Descriptor) : List UInt8 :=
  if desc.isWriteOnly then []
  else
    match m.read desc.addr desc.len.toNat with
    | .ok buf => buf
    | .error _ => []

def gather (m : GuestMemory) (descs : List Descriptor) : List UInt8 := descs.flatMap (readable m)

def scatter (wire : List UInt8) :
    List Descriptor → (wireOff : ℕ) → (written : UInt32) → World η → Except Panic (UInt32 × World η)
  | [], _, written, w => .ok (written, w)
  | desc :: descs, wireOff, written, w =>
    if !desc.isWriteOnly then scatter wire descs wireOff written w
    else
      let len := min desc.len.toNat (wire.length - wireOff)
      if len = 0 then scatter wire descs wireOff written w
      else do
        match w.write desc.addr (← slice wire wireOff (wireOff + len)) with
        | .error _ => .ok (written, w)
        | .ok w =>
          let wireOff := wireOff + len
          let written := saturatingAdd written (UInt32.ofNat len)
          if wire.length ≤ wireOff then .ok (written, w)
          else scatter wire descs wireOff written w

theorem scatter_returns (wire : List UInt8) : ∀ (descs : List Descriptor) (wireOff : ℕ)
    (written : UInt32) (w : World η), wireOff ≤ wire.length →
    Returns (scatter wire descs wireOff written w) fun r => w.Touches (WriteOnlySpan descs) r.2
  | [], _, _, w, _ => returns_ok (.refl _ w)
  | desc :: descs, wireOff, written, w, ho => by
    have hrest : ∀ wireOff written w, wireOff ≤ wire.length →
        Returns (scatter wire descs wireOff written w) fun r =>
          World.Touches (WriteOnlySpan (desc :: descs)) w r.2 := fun wireOff written w ho =>
      (scatter_returns wire descs wireOff written w ho).mono fun _ h => h.mono fun _ ha =>
        ha.mono (List.subset_cons_self desc descs)
    unfold scatter
    dsimp only
    split
    · exact hrest wireOff written w ho
    next hd =>
    split
    · exact hrest wireOff written w ho
    next hl =>
    refine (returns_slice (by omega) (by omega)).bind fun bs hbs => ?_
    split
    · exact returns_ok (.refl _ w)
    next w' hw =>
    have ht := touches_writeOnly (desc :: descs) hw (by simp) (by simpa using hd)
      (by rw [hbs.2]; omega)
    split
    · exact returns_ok ht
    · exact (hrest _ _ w' (by omega)).mono fun _ h => ht.trans h

/-! ## Requests and responses -/

def reqResp (descs : List Descriptor) : Option (Descriptor × Descriptor) :=
  match descs.find? fun d => !d.isWriteOnly, descs.find? fun d => d.isWriteOnly with
  | some req, some resp => some (req, resp)
  | _, _ => none

def RespSpan (n : ℕ) (descs : List Descriptor) (a : ℕ) : Prop :=
  ∃ req resp, reqResp descs = some (req, resp) ∧ GuestMemory.Span resp.addr n a

theorem RespSpan.writeOnlySpan {n a : ℕ} {descs : List Descriptor}
    (hn : ∀ req resp, reqResp descs = some (req, resp) → n ≤ resp.len.toNat)
    (h : RespSpan n descs a) : WriteOnlySpan descs a := by
  obtain ⟨req, resp, hr, ha⟩ := h
  have hlen := hn req resp hr
  unfold reqResp at hr
  split at hr
  · next hresp =>
    simp only [Option.some.injEq, Prod.mk.injEq] at hr
    obtain ⟨rfl, rfl⟩ := hr
    exact ⟨_, List.mem_of_find?_eq_some hresp, List.find?_some hresp, ha.1,
      by have := ha.2.1; omega, ha.2.2⟩
  · cases hr

end Squib
