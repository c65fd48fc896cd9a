import Squib.Block.Backend
import Squib.Virtio.Posted

/-!
# Writing to a drive and reading back
-/

namespace Squib.BlockDevice

open Bytes Checked Fs GuestMemory HostFile

variable {η : Type}

/-! ## Arrays of bytes -/

structure ByteStore (backend : BlockBackend η) where
  Sound : η → Prop
  bytes : η → List UInt8
  size : ∀ {host}, Sound host → (bytes host).length = (backend.sizeBytes host).toNat
  readAt : ∀ {host} (off : UInt64) (len : ℕ), Sound host → off.toNat + len ≤ (bytes host).length →
    ∃ buf host', backend.readAt off len host = (.ok buf, host') ∧ Sound host' ∧
      bytes host' = bytes host ∧ buf.toList = ((bytes host).drop off.toNat).take len
  writeAt : ∀ {host} (off : UInt64) (buf : List UInt8), Sound host →
    off.toNat + buf.length ≤ (bytes host).length →
    ∃ host', backend.writeAt off buf host = (.ok (), host') ∧ Sound host' ∧
      bytes host' = overwrite (bytes host) off.toNat buf

namespace ByteStore

variable {backend : BlockBackend η} (A : ByteStore backend) {host : η}

theorem length_lt (h : A.Sound host) : (A.bytes host).length < 2 ^ 64 := by
  rw [A.size h]
  exact UInt64.toNat_lt _

end ByteStore

/-! ## Requests -/

structure RequestChain where
  header : Descriptor
  payload : List Descriptor
  status : Descriptor

def RequestChain.descs (r : RequestChain) : List Descriptor := r.header :: (r.payload ++ [r.status])

structure RequestChain.Asks (r : RequestChain) (m : GuestMemory) (reqType : UInt32) (sector : UInt64) :
    Prop where
  readable : r.header.isWriteOnly = false
  length : 16 ≤ r.header.len
  reqType : m.readU32Le r.header.addr = .ok reqType
  sector : m.readU64Le (sectorAddr r.header) = .ok sector
  status : r.status.isWriteOnly = true
  room : 1 ≤ r.status.len
  mapped : m.contains r.status.addr 1 = true

theorem RequestChain.Asks.decode {r : RequestChain} {m : GuestMemory} {reqType : UInt32}
    {sector : UInt64} (h : r.Asks m reqType sector) :
    BlockDevice.decode m r.descs = some ⟨reqType, sector, r.payload, r.status⟩ := by
  have hheader : (r.header.isWriteOnly || decide (r.header.len < 16)) = false := by
    rw [h.readable, Bool.false_or, decide_eq_false_iff_not]
    exact UInt32.not_lt.2 h.length
  have hstatus : (!r.status.isWriteOnly || decide (r.status.len < 1)) = false := by
    rw [h.status, Bool.not_true, Bool.false_or, decide_eq_false_iff_not]
    exact UInt32.not_lt.2 h.room
  obtain ⟨second, rest, hrest⟩ := List.exists_cons_of_ne_nil
    (List.append_ne_nil_of_right_ne_nil r.payload (List.cons_ne_nil r.status []))
  have hlast : (second :: rest).getLast? = some r.status := by
    rw [← hrest, List.getLast?_concat]
  have hpayload : (second :: rest).dropLast = r.payload := by
    rw [← hrest, List.dropLast_concat]
  rw [RequestChain.descs, hrest, BlockDevice.decode, hheader, h.reqType, h.sector, hlast, hpayload]
  simp only [Option.getD_some, hstatus]
  rfl

section Loops

variable {backend : BlockBackend η} (A : ByteStore backend)

theorem checkedAdd_len (off : UInt64) (len : UInt32) {n : ℕ} (hn : n < 2 ^ 64)
    (h : off.toNat + len.toNat ≤ n) :
    ∃ off', checkedAdd off len.toUInt64 = some off' ∧ off'.toNat = off.toNat + len.toNat := by
  have hlt : off.toNat + len.toUInt64.toNat < 2 ^ 64 := by
    rw [UInt32.toNat_toUInt64]
    omega
  exact ⟨_, checkedAdd_eq_some.2 ⟨hlt, rfl⟩, by rw [toNat_add_of_lt hlt, UInt32.toNat_toUInt64]⟩

def Gatherable (m : GuestMemory) (descs : List Descriptor) : Prop :=
  ∀ d ∈ descs, d.isWriteOnly = false → m.contains d.addr d.len.toNat = true

theorem doWriteFrom_bytes : ∀ (payload : List Descriptor) (off : UInt64) (w : World η),
    A.Sound w.host → Gatherable w.mem payload →
    off.toNat + (gather w.mem payload).length ≤ (A.bytes w.host).length →
    ∃ host, doWriteFrom backend payload off w = (.ok (), { w with host }) ∧ A.Sound host ∧
      A.bytes host = overwrite (A.bytes w.host) off.toNat (gather w.mem payload)
  | [], off, w, hs, _, hle => by
    refine ⟨w.host, rfl, hs, ?_⟩
    exact (overwrite_nil (Nat.le_of_add_right_le hle)).symm
  | desc :: payload, off, w, hs, hmapped, hle => by
    obtain ⟨hdesc, hpayload⟩ := List.forall_mem_cons.1 hmapped
    rw [doWriteFrom]
    rw [gather, List.flatMap_cons, ← gather] at hle ⊢
    by_cases hd : desc.isWriteOnly = true
    · have hnone : readable w.mem desc = [] := if_pos hd
      rw [if_pos hd, hnone]
      rw [hnone] at hle
      exact doWriteFrom_bytes payload off w hs hpayload hle
    · have hread : w.mem.read desc.addr desc.len.toNat =
          .ok (load w.mem.byte desc.addr.toNat desc.len.toNat) :=
        if_pos (hdesc (Bool.not_eq_true _ ▸ hd))
      have hbuf : readable w.mem desc = load w.mem.byte desc.addr.toNat desc.len.toNat := by
        rw [readable, if_neg hd, hread]
      have hlen : (load w.mem.byte desc.addr.toNat desc.len.toNat).length = desc.len.toNat :=
        length_load ..
      rw [if_neg hd, hread, hbuf]
      rw [hbuf, List.length_append] at hle
      obtain ⟨host, hwrite, hs', hbytes⟩ :=
        A.writeAt off (load w.mem.byte desc.addr.toNat desc.len.toNat) hs (by omega)
      obtain ⟨off', hadd, hoff'⟩ := checkedAdd_len off desc.len (A.length_lt hs) (by omega)
      have hsame : (A.bytes host).length = (A.bytes w.host).length := by
        rw [hbytes, length_overwrite (by omega)]
      obtain ⟨host', hrest, hs'', hbytes'⟩ :=
        doWriteFrom_bytes payload off' { w with host } hs' hpayload (by dsimp only; omega)
      refine ⟨host', ?_, hs'', ?_⟩
      · simp only [hwrite, hadd, hrest]
      · rw [hbytes', hoff', ← overwrite_overwrite (by omega), hlen, ← hbytes]

theorem doReadFrom_bytes : ∀ (payload : List Descriptor) (off : UInt64) (total : UInt32) (w : World η),
    A.Sound w.host → Fillable w.mem payload →
    off.toNat + capacity payload ≤ (A.bytes w.host).length →
    ∃ n w', doReadFrom backend payload off total w = (.ok n, w') ∧ A.Sound w'.host ∧
      A.bytes w'.host = A.bytes w.host ∧
      filled w'.mem payload = ((A.bytes w.host).drop off.toNat).take (capacity payload)
  | [], off, total, w, hs, _, _ => ⟨total, w, rfl, hs, rfl, rfl⟩
  | desc :: payload, off, total, w, hs, hfill, hle => by
    rw [doReadFrom]
    by_cases hd : desc.isWriteOnly = true
    · have hlen := hfill.mapped desc (by rw [writable_cons_of_pos hd]; exact List.mem_cons_self)
      rw [capacity_cons_of_pos hd] at hle
      obtain ⟨buf, host, hread, hs', hbytes, hbuf⟩ := A.readAt off desc.len.toNat hs (by omega)
      obtain ⟨m, hwrite, hsame, hload⟩ := write_mapped { w with host } desc.addr
        buf.toList (by rw [Vector.length_toList]; exact hlen)
      obtain ⟨off', hadd, hoff'⟩ := checkedAdd_len off desc.len (A.length_lt hs) (by omega)
      obtain ⟨n, w', hrest, hs'', hbytes', hfilled⟩ := doReadFrom_bytes payload off'
        (saturatingAdd total desc.len) { w with host, mem := m } hs'
        (hfill.of_cons hsame.regions) (by dsimp only; rw [hbytes]; omega)
      have htouches := doReadFrom_touches backend payload off' (saturatingAdd total desc.len)
        { w with host, mem := m }
      rw [hrest] at htouches
      refine ⟨n, w', ?_, hs'', hbytes'.trans hbytes, ?_⟩
      · simp [hd, hread, hwrite, hadd, hrest]
      · rw [Vector.length_toList] at hload
        rw [filled_cons_of_pos _ hd, capacity_cons_of_pos hd, hfill.load_head hd htouches.mem, hload,
          hbuf, hfilled, hoff', List.take_add, List.drop_drop]
        rw [hbytes]
    · have hcapacity : capacity (desc :: payload) = capacity payload := by
        rw [capacity, writable_cons_of_neg hd, capacity]
      have hfilled (m : GuestMemory) : filled m (desc :: payload) = filled m payload := by
        rw [filled, writable_cons_of_neg hd, filled]
      have hd' : desc.isWriteOnly = false := by simpa using hd
      rw [if_pos (by rw [hd']; rfl), hcapacity]
      rw [hcapacity] at hle
      simp only [hfilled]
      exact doReadFrom_bytes payload off total w hs (hfill.of_cons rfl) hle

/-! ## Whole requests -/

theorem checkedMul_sector (sector : UInt64) {n : ℕ} (hn : n < 2 ^ 64) (h : sector.toNat * 512 ≤ n) :
    ∃ off, checkedMul sector sectorSize = some off ∧ off.toNat = sector.toNat * 512 := by
  have hlt : sector.toNat * sectorSize.toNat < 2 ^ 64 := by
    change sector.toNat * 512 < _
    omega
  refine ⟨sector * sectorSize, if_pos hlt, ?_⟩
  rw [UInt64.toNat_mul, Nat.mod_eq_of_lt hlt]
  rfl

variable {r : RequestChain} {w : World η} {sector : UInt64}

theorem handleRequestInner_ok {driveId : String} {w' : World η} {reqType : UInt32} {n : UInt32}
    (hr : r.Asks w.mem reqType sector) (hregions : w'.mem.regions = w.mem.regions)
    (h : perform backend driveId reqType r.payload sector w = .ok ((statusOk, n), w')) :
    ∃ m, handleRequestInner backend driveId r.descs w =
        .ok ((statusOk, saturatingAdd n 1), { w' with mem := m }) ∧
      SameOutside (Span r.status.addr 1) w'.mem m ∧ m.byte r.status.addr.toNat = statusOk := by
  obtain ⟨m, hwrite, hsame, hload⟩ := write_mapped w' r.status.addr
    [statusOk] (by rw [contains_congr hregions]; exact hr.mapped)
  refine ⟨m, ?_, hsame, List.head_eq_of_cons_eq hload⟩
  rw [handleRequestInner_eq, hr.decode]
  dsimp only
  rw [h, Except.map, answer, hwrite]

theorem handle_out (driveId : String) (hs : A.Sound w.host) (hr : r.Asks w.mem reqTypeOut sector)
    (hmapped : Gatherable w.mem r.payload)
    (hle : sector.toNat * 512 + (gather w.mem r.payload).length ≤ (A.bytes w.host).length) :
    ∃ w', handleRequestInner backend driveId r.descs w = .ok ((statusOk, 1), w') ∧
      SameOutside (Span r.status.addr 1) w.mem w'.mem ∧
      w'.mem.byte r.status.addr.toNat = statusOk ∧ A.Sound w'.host ∧
      A.bytes w'.host =
        overwrite (A.bytes w.host) (sector.toNat * 512) (gather w.mem r.payload) := by
  obtain ⟨off, hmul, hoff⟩ := checkedMul_sector sector (A.length_lt hs) (Nat.le_of_add_right_le hle)
  obtain ⟨host, hwrite, hs', hbytes⟩ :=
    doWriteFrom_bytes A r.payload off w hs hmapped (by rw [hoff]; exact hle)
  have hperform : perform backend driveId reqTypeOut r.payload sector w =
      .ok ((statusOk, 0), { w with host }) := by
    simp only [perform, doWrite, hmul, hwrite]
    rfl
  have hregions : ({ w with host } : World η).mem.regions = w.mem.regions := rfl
  obtain ⟨m, hhandle, hsame, hstatus⟩ := handleRequestInner_ok hr hregions hperform
  rw [hoff] at hbytes
  exact ⟨_, hhandle, hsame, hstatus, hs', hbytes⟩

theorem handle_in (driveId : String) (hs : A.Sound w.host) (hr : r.Asks w.mem reqTypeIn sector)
    (hfill : Fillable w.mem (r.payload ++ [r.status]))
    (hle : sector.toNat * 512 + capacity r.payload ≤ (A.bytes w.host).length) :
    ∃ n w', handleRequestInner backend driveId r.descs w = .ok ((statusOk, n), w') ∧
      w'.mem.byte r.status.addr.toNat = statusOk ∧ A.Sound w'.host ∧
      A.bytes w'.host = A.bytes w.host ∧
      filled w'.mem r.payload =
        ((A.bytes w.host).drop (sector.toNat * 512)).take (capacity r.payload) := by
  obtain ⟨off, hmul, hoff⟩ := checkedMul_sector sector (A.length_lt hs) (Nat.le_of_add_right_le hle)
  obtain ⟨hpayload, -, hapart⟩ := hfill.append
  obtain ⟨n, w', hread, hs', hbytes, hfilled⟩ :=
    doReadFrom_bytes A r.payload off 0 w hs hpayload (by rw [hoff]; exact hle)
  have htouches := doReadFrom_touches backend r.payload off 0 w
  rw [hread] at htouches
  have hperform : perform backend driveId reqTypeIn r.payload sector w =
      .ok ((statusOk, n), w') := by
    simp only [perform, doRead, hmul, hread]
    rfl
  obtain ⟨m, hhandle, hsame, hstatus⟩ := handleRequestInner_ok hr htouches.mem.regions hperform
  refine ⟨_, _, hhandle, hstatus, hs', hbytes, ?_⟩
  -- the status byte lies outside of the payload
  have hspan (a : ℕ) (ha : Span r.status.addr 1 a) : ¬ WriteOnlySpan r.payload a := by
    intro hpay
    have hroom := UInt32.le_iff_toNat_le.1 hr.room
    refine hapart a hpay ⟨r.status, List.mem_singleton_self _, hr.status, ha.1, ?_, ha.2.2⟩
    exact ha.2.1.trans_le (Nat.add_le_add_left hroom _)
  have hmapped : ∀ d ∈ writable r.payload, w'.mem.contains d.addr d.len.toNat = true := by
    intro d hd
    rw [contains_congr htouches.mem.regions]
    exact hpayload.mapped d hd
  rw [hoff] at hfilled
  rw [← hfilled]
  exact filled_congr hsame hmapped hspan

/-- **What is written is read back**, however the data is cut into buffers; in between, the driver
may change the memory. -/
theorem out_in (driveId : String) {out : RequestChain} {w : World η} {sector : UInt64}
    (hs : A.Sound w.host) (hout : out.Asks w.mem reqTypeOut sector)
    (hmapped : Gatherable w.mem out.payload)
    (hle : sector.toNat * 512 + (gather w.mem out.payload).length ≤ (A.bytes w.host).length) :
    ∃ w₁, handleRequestInner backend driveId out.descs w = .ok ((statusOk, 1), w₁) ∧
      SameOutside (Span out.status.addr 1) w.mem w₁.mem ∧
      w₁.mem.byte out.status.addr.toNat = statusOk ∧
      A.bytes w₁.host =
        overwrite (A.bytes w.host) (sector.toNat * 512) (gather w.mem out.payload) ∧
      (∀ i, i < sector.toNat * 512 ∨ sector.toNat * 512 + (gather w.mem out.payload).length ≤ i →
        (A.bytes w₁.host)[i]? = (A.bytes w.host)[i]?) ∧
      ∀ (inn : RequestChain) (w₂ : World η), w₂.host = w₁.host → inn.Asks w₂.mem reqTypeIn sector →
        Fillable w₂.mem (inn.payload ++ [inn.status]) →
        capacity inn.payload = (gather w.mem out.payload).length →
        ∃ n w₃, handleRequestInner backend driveId inn.descs w₂ = .ok ((statusOk, n), w₃) ∧
          w₃.mem.byte inn.status.addr.toNat = statusOk ∧
          filled w₃.mem inn.payload = gather w.mem out.payload ∧
          A.bytes w₃.host = A.bytes w₁.host := by
  have hpos : sector.toNat * 512 ≤ (A.bytes w.host).length := Nat.le_of_add_right_le hle
  obtain ⟨w₁, hhandle, hmem, hstatus, hs₁, hbytes⟩ := handle_out A driveId hs hout hmapped hle
  refine ⟨w₁, hhandle, hmem, hstatus, hbytes, fun i hi => ?_,
    fun inn w₂ hhost hinn hfill hlength => ?_⟩
  · rw [hbytes, getElem?_overwrite hpos hi]
  · have hsame : (A.bytes w₁.host).length = (A.bytes w.host).length := by
      rw [hbytes, length_overwrite hle]
    rw [← hhost] at hs₁ hsame
    obtain ⟨n, w₃, hhandle₃, hstatus₃, -, hbytes₃, hfilled⟩ :=
      handle_in A driveId hs₁ hinn hfill (by rw [hsame, hlength]; exact hle)
    refine ⟨n, w₃, hhandle₃, hstatus₃, ?_, by rw [hbytes₃, hhost]⟩
    rw [hfilled, hlength, hhost, hbytes, take_drop_overwrite hpos]

end Loops

section Files

variable {f : File} {off len : ℕ}

theorem readExactAt_ok (hfate : ∀ n, f.fate n = .ok) (h : off + len ≤ f.data.length)
    (hlt : f.data.length < maxOffset) :
    ∃ buf f', f.readExactAt off len = (.ok buf, f') ∧ f'.fate = f.fate ∧ f'.data = f.data ∧
      buf.toList = (f.data.drop off).take len := by
  unfold File.readExactAt
  split_ifs with hlen hoff
  · subst hlen
    exact ⟨_, _, rfl, rfl, rfl, by simp⟩
  · omega
  · simp only [hfate]
    exact ⟨_, _, rfl, rfl, rfl, by simp⟩

theorem writeAllAt_ok {bs : List UInt8} (hfate : ∀ n, f.fate n = .ok)
    (h : off + bs.length ≤ f.data.length) (hlt : f.data.length < maxOffset) :
    ∃ f', f.writeAllAt off bs = (.ok (), f') ∧ f'.fate = f.fate ∧
      f'.data = overwrite f.data off bs := by
  unfold File.writeAllAt
  split_ifs with hbs hoff
  · subst hbs
    exact ⟨f, rfl, rfl, (overwrite_nil h).symm⟩
  · omega
  · simp only [hfate, File.writeLen, Fate.writeLen, List.take_length]
    exact ⟨_, rfl, rfl, if_neg hbs⟩

structure Reliable (size : UInt64) (f : File) : Prop where
  fate : ∀ n, f.fate n = .ok
  length : f.data.length = size.toNat
  lt : size.toNat < maxOffset

variable {size : UInt64}

theorem Reliable.congr {f' : File} (h : Reliable size f) (hfate : f'.fate = f.fate)
    (hlength : f'.data.length = f.data.length) : Reliable size f' :=
  ⟨fun n => by rw [hfate, h.fate], hlength.trans h.length, h.lt⟩

theorem Reliable.readAt (engine : Engine) (h : Reliable size f) (off : UInt64)
    (hle : off.toNat + len ≤ f.data.length) :
    ∃ buf f', engine.readAt off len f = (.ok buf, f') ∧ Reliable size f' ∧ f'.data = f.data ∧
      buf.toList = (f.data.drop off.toNat).take len := by
  have hlt : f.data.length < maxOffset := h.length ▸ h.lt
  cases engine with
  | async =>
    obtain ⟨buf, f', hread, hfate, hdata, hbuf⟩ := readExactAt_ok h.fate hle hlt
    refine ⟨buf, f', ?_, h.congr hfate (congrArg _ hdata), hdata, hbuf⟩
    simp only [Engine.readAt, hread, Except.mapError]
  | sync =>
    obtain ⟨buf, f', hread, hfate, hdata, hbuf⟩ :=
      readExactAt_ok (f := { f with pos := off.toNat }) h.fate hle hlt
    refine ⟨buf, { f' with pos := off.toNat + f.readLen off.toNat len }, ?_,
      h.congr hfate (congrArg _ hdata), hdata, hbuf⟩
    simp only [Engine.readAt, File.seekStart, if_neg (by omega : ¬ maxOffset ≤ off.toNat),
      File.readExact, hread]
    rfl

theorem Reliable.writeAt (engine : Engine) (h : Reliable size f) (off : UInt64) (buf : List UInt8)
    (hle : off.toNat + buf.length ≤ f.data.length) :
    ∃ f', engine.writeAt false off buf f = (.ok (), f') ∧ Reliable size f' ∧
      f'.data = overwrite f.data off.toNat buf := by
  have hlt : f.data.length < maxOffset := h.length ▸ h.lt
  cases engine with
  | async =>
    obtain ⟨f', hwrite, hfate, hdata⟩ := writeAllAt_ok h.fate hle hlt
    refine ⟨f', ?_, h.congr hfate (by rw [hdata, length_overwrite hle]), hdata⟩
    simp [Engine.writeAt, hwrite, Except.mapError]
  | sync =>
    obtain ⟨f', hwrite, hfate, hdata⟩ :=
      writeAllAt_ok (f := { f with pos := off.toNat }) h.fate hle hlt
    refine ⟨{ f' with pos := off.toNat + f.writeLen buf.length }, ?_,
      h.congr hfate (by rw [hdata, length_overwrite hle]), hdata⟩
    simp only [Engine.writeAt, File.seekStart,
      if_neg (by omega : ¬ maxOffset ≤ off.toNat), File.writeAll, hwrite]
    rfl

def FileBackend.byteStore (backend : FileBackend η) (hro : backend.readOnly = false) :
    ByteStore backend.toBlockBackend where
  Sound host := Reliable backend.size (backend.file host)
  bytes host := (backend.file host).data
  size h := by rw [h.length, backend.sizeBytes_eq]
  readAt {host} off len h hle := by
    obtain ⟨buf, f', hread, hsound, hdata, hbuf⟩ := h.readAt backend.engine off hle
    have heq := backend.readAt_eq off len host
    rw [hread, Prod.mk.injEq] at heq
    exact ⟨buf, _, Prod.ext heq.1 rfl, heq.2 ▸ hsound, by rw [heq.2, hdata], hbuf⟩
  writeAt {host} off buf h hle := by
    obtain ⟨f', hwrite, hsound, hdata⟩ := h.writeAt backend.engine off buf hle
    have heq := backend.writeAt_eq off buf host
    rw [hro, hwrite, Prod.mk.injEq] at heq
    exact ⟨_, Prod.ext heq.1 rfl, heq.2 ▸ hsound, by rw [heq.2, hdata]⟩

end Files

section Scenario

def outChain : RequestChain where
  header := ⟨0x1000, 16, virtqDescFNext, 1⟩
  payload := [⟨0x1010, 3, virtqDescFNext, 2⟩, ⟨0x1013, 5, virtqDescFNext, 3⟩]
  status := ⟨0x1018, 1, virtqDescFWrite, 0⟩

def inChain : RequestChain where
  header := ⟨0x1020, 16, virtqDescFNext, 5⟩
  payload := [⟨0x1030, 6, virtqDescFNext ||| virtqDescFWrite, 6⟩,
    ⟨0x1036, 2, virtqDescFNext ||| virtqDescFWrite, 7⟩]
  status := ⟨0x1038, 1, virtqDescFWrite, 0⟩

def bothPosted : World File :=
  .start (.fromBytes 0x1000 (leBytes 4 1 ++ List.replicate 12 0 ++ [1, 2, 3, 4, 5, 6, 7, 8] ++
    List.replicate 40 0) (by simp)) { data := List.replicate 512 0 }

def smallFile : FileBackend File := ofEngine .async false 512

def outDone : World File :=
  match handleRequestInner smallFile.toBlockBackend "rootfs" outChain.descs bothPosted with
  | .ok r => r.2
  | .error _ => bothPosted

theorem out_in_recut : ∃ w₁ n w₃,
    handleRequestInner smallFile.toBlockBackend "rootfs" outChain.descs bothPosted =
      .ok ((statusOk, 1), w₁) ∧
    handleRequestInner smallFile.toBlockBackend "rootfs" inChain.descs w₁ = .ok ((statusOk, n), w₃) ∧
    filled w₃.mem inChain.payload = [1, 2, 3, 4, 5, 6, 7, 8] := by
  have hgather : gather bothPosted.mem outChain.payload = [1, 2, 3, 4, 5, 6, 7, 8] := by
    decide +kernel
  have hasks : outChain.Asks bothPosted.mem reqTypeOut 0 :=
    ⟨rfl, by decide, by decide +kernel, by decide +kernel, rfl, by decide, by decide +kernel⟩
  obtain ⟨w₁, hout, -, -, -, -, hin⟩ := out_in (smallFile.byteStore rfl) "rootfs"
    ⟨fun _ => rfl, by decide +kernel, by decide⟩ hasks
    (by unfold Gatherable; decide +kernel) (by rw [hgather]; decide +kernel)
  have hdone : outDone = w₁ := by rw [outDone, hout]
  have hinOrder : (writable (inChain.payload ++ [inChain.status])).Pairwise fun d d' =>
      d.addr.toNat + d.len.toNat ≤ d'.addr.toNat := by
    decide +kernel
  have hfill : Fillable outDone.mem (inChain.payload ++ [inChain.status]) :=
    ⟨by decide +kernel, hinOrder.imp fun hle a ha ha' => absurd (ha.2.1.trans_le hle) ha'.1.not_gt⟩
  obtain ⟨n, w₃, hin, -, hfilled, -⟩ := hin inChain w₁ rfl
    (hdone ▸ ⟨rfl, by decide, by decide +kernel, by decide +kernel, rfl, by decide, by decide +kernel⟩)
    (hdone ▸ hfill) (by rw [hgather]; decide +kernel)
  exact ⟨w₁, n, w₃, hout, hin, hfilled.trans hgather⟩

end Scenario

end Squib.BlockDevice
