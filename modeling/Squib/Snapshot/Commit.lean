import Squib.Snapshot.RoundTrip

/-!
# The commit of a pair of files
-/

namespace Squib.Snapshot

open Fs

section Commit

variable {host : Host} {codec : Codec MicrovmState} {req : SaveRequest} {w w' : World}

def Consistent (codec : Codec MicrovmState) (saved : MicrovmState → List UInt8 → Prop)
    (disk : Disk Path) (statePath memoryPath : Path) : Prop :=
  ∀ loaded, load codec disk statePath = .ok loaded →
    ∃ content, disk.read memoryPath = some content ∧ saved loaded.state content

def SavedBy (req : SaveRequest) (saved : MicrovmState → List UInt8 → Prop) (state : MicrovmState)
    (content : List UInt8) : Prop :=
  saved state content ∨ state = req.state ∧ content = req.image

variable {statePath : Path} {disk disk' : Disk Path} {memoryPath : Path}

theorem load_congr (h : disk'.read statePath = disk.read statePath) :
    load codec disk' statePath = load codec disk statePath := by
  rw [load, load, h]

theorem Consistent.congr {saved : MicrovmState → List UInt8 → Prop}
    (hcons : Consistent codec saved disk statePath memoryPath)
    (hstate : disk'.read statePath = disk.read statePath)
    (hmemory : disk'.read memoryPath = disk.read memoryPath) :
    Consistent codec saved disk' statePath memoryPath := by
  intro loaded hload
  rw [load_congr hstate] at hload
  rw [hmemory]
  exact hcons loaded hload

theorem Unrelated.notMem (h : Unrelated statePath memoryPath) :
    statePath ∉ [deriveTempPath statePath, deriveTempPath memoryPath] ∧
      memoryPath ∉ [deriveTempPath statePath, deriveTempPath memoryPath] := by
  have hs := deriveTempPath_ne statePath
  have hm := deriveTempPath_ne memoryPath
  simp [h.state_ne, h.memory_ne, hs.symm, hm.symm]

section Scenario

def faulty (disk : Disk Path) (bad : Call Path) (fate : Fate) : World where
  disk := disk
  clock := 0
  fate := fun _ c => if c = bad then fate else .ok
  written := []

@[irreducible] def firstPair : Disk Path :=
  (endWorld (save oneDir sampleCodec (sampleRequest "vm.snap" "vm.mem" 0 [7, 8]) emptyDisk)).disk

def second : SaveRequest := sampleRequest "vm.snap" "vm.mem" 1 [9, 9]

def savedFirst (state : MicrovmState) (content : List UInt8) : Prop :=
  state = sampleState 0 ∧ content = [7, 8]

theorem firstPair_consistent : Consistent sampleCodec savedFirst firstPair "vm.snap" "vm.mem" := by
  intro loaded hload
  have hfirst : load sampleCodec firstPair "vm.snap" =
      .ok { state := sampleState 0, sourceVersion := SNAPSHOT_VERSION } := by decide +kernel
  cases hfirst.symm.trans hload
  exact ⟨[7, 8], by decide +kernel, rfl, rfl⟩

theorem second_unrelated : Unrelated second.statePath second.memoryPath :=
  ⟨by decide +kernel, by decide +kernel, by decide +kernel⟩

theorem memoryCommits_faulty {disk : Disk Path} {bad : Call Path} {fate : Fate}
    (hfsync : bad ≠ .fsync (deriveTempPath req.memoryPath))
    (hrename : bad ≠ .rename (deriveTempPath req.memoryPath) req.memoryPath) :
    MemoryCommits req (faulty disk bad fate) :=
  ⟨fun _ => if_neg hfsync.symm, fun _ => if_neg hrename.symm⟩

end Scenario

end Commit

section Scenario

end Scenario

end Squib.Snapshot
