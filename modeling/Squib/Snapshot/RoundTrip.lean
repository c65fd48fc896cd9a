import Squib.Snapshot.Restore
import Squib.Snapshot.Save

/-!
# Saving and loading back
-/

namespace Squib.Snapshot

open Fs

section RoundTrip

variable {host : Host} {codec : Codec MicrovmState} {req : SaveRequest} {w w' : World}
  {report : SaveReport}

theorem load_eq {state : MicrovmState} {disk : Disk Path} {statePath : Path} {encoded : List UInt8}
    (hread : disk.read statePath = some (Envelope.withCrc codec encoded))
    (hser : codec.serialize (Envelope.new state) = .ok encoded)
    (hcompat : state.verifyCompatible = .ok ()) :
    load codec disk statePath =
      if encoded.length + 8 ≤ SNAPSHOT_DESERIALIZATION_BYTES_LIMIT then
        .ok { state, sourceVersion := SNAPSHOT_VERSION }
      else .error (.sizeLimitExceeded SNAPSHOT_DESERIALIZATION_BYTES_LIMIT) := by
  rw [load, hread]
  dsimp only
  rw [load_withCrc hser]
  split_ifs
  · simp only [Envelope.new, hcompat]
  · rfl

end RoundTrip

section Scenario

def sampleState (mpidr : UInt64) : MicrovmState where
  vmInfo :=
    { memSizeMib := 1, smt := false, cpuTemplate := "V1N1", kernelImagePath := "vmlinux"
      initrdPath := none, bootArgs := "", trackDirtyPages := true }
  vcpuStates := [VcpuState.new mpidr]
  deviceStates := []
  gicState := .fromBytes [1]
  mmdsState := none

def sampleCodec : Codec MicrovmState where
  serialize := fun s =>
    if s = Envelope.new (sampleState 0) then .ok [0]
    else if s = Envelope.new (sampleState 1) then .ok [1] else .error "unknown state"
  deserialize := fun bs =>
    if bs = [0] then .ok (Envelope.new (sampleState 0))
    else if bs = [1] then .ok (Envelope.new (sampleState 1)) else .error "unknown bytes"
  deserialize_serialize := by
    intro s bs h
    split_ifs at h with h₀ h₁
    · cases h
      rw [h₀, if_pos rfl]
    · cases h
      rw [h₁, if_neg (by decide), if_pos rfl]
  poly := 0xC96C5795D7870F42#64

def sampleRequest (statePath memoryPath : Path) (mpidr : UInt64) (image : List UInt8) :
    SaveRequest where
  statePath := statePath
  memoryPath := memoryPath
  kind := .full
  state := sampleState mpidr
  memory := .ofVec image
  ramSize := 2
  memoryPageSize := 1
  dirty := none

end Scenario

end Squib.Snapshot
