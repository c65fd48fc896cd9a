import Squib.Lib.HostFile
import Squib.Lib.Run
import Squib.Virtio.Devices.Block

/-!
# Drives on host files
-/

namespace Squib.BlockDevice

open Checked HostFile

variable {η σ : Type}

/-! ## Backends -/

inductive Engine where
  | sync
  | async
  deriving DecidableEq, Repr

namespace Engine

def readAt (engine : Engine) (byteOffset : UInt64) (len : ℕ) (f : File) :
    Except IoError (Vector UInt8 len) × File :=
  match engine with
  | .sync =>
    match f.seekStart byteOffset.toNat with
    | (.error msg, f) => (.error (.host msg), f)
    | (.ok (), f) => ((f.readExact len).1.mapError .host, (f.readExact len).2)
  | .async =>
    ((f.readExactAt byteOffset.toNat len).1.mapError .host, (f.readExactAt byteOffset.toNat len).2)

def writeAt (engine : Engine) (readOnly : Bool) (byteOffset : UInt64) (buf : List UInt8) (f : File) :
    Except IoError Unit × File :=
  if readOnly then (.error (.host "read-only block backend"), f)
  else
    match engine with
    | .sync =>
      match f.seekStart byteOffset.toNat with
      | (.error msg, f) => (.error (.host msg), f)
      | (.ok (), f) => ((f.writeAll buf).1.mapError .host, (f.writeAll buf).2)
    | .async =>
      ((f.writeAllAt byteOffset.toNat buf).1.mapError .host, (f.writeAllAt byteOffset.toNat buf).2)

def flush (_engine : Engine) (f : File) : Except IoError Unit × File :=
  (f.syncData.1.mapError .host, f.syncData.2)

end Engine

structure FileBackend (η : Type) extends BlockBackend η where
  file : η → File
  engine : Engine
  size : UInt64
  sizeBytes_eq : ∀ host, sizeBytes host = size
  readAt_eq : ∀ off len host,
    ((readAt off len host).1, file (readAt off len host).2) = engine.readAt off len (file host)
  writeAt_eq : ∀ off buf host, ((writeAt off buf host).1, file (writeAt off buf host).2) =
    engine.writeAt readOnly off buf (file host)
  flush_eq : ∀ host, ((flush host).1, file (flush host).2) = engine.flush (file host)

def ofEngine (engine : Engine) (readOnly : Bool) (size : UInt64) : FileBackend File where
  sizeBytes _ := size
  readAt := engine.readAt
  writeAt := engine.writeAt readOnly
  flush := engine.flush
  readOnly := readOnly
  file f := f
  engine := engine
  size := size
  sizeBytes_eq _ := rfl
  readAt_eq _ _ _ := rfl
  writeAt_eq _ _ _ := rfl
  flush_eq _ := rfl

def limited (acquire : UInt64 → σ → σ) (inner : FileBackend η) : FileBackend (η × σ) where
  sizeBytes host := inner.sizeBytes host.1
  readAt off len host :=
    let bucket := acquire (UInt64.ofNat len) host.2
    ((inner.readAt off len host.1).1, (inner.readAt off len host.1).2, bucket)
  writeAt off buf host :=
    let bucket := acquire (UInt64.ofNat buf.length) host.2
    ((inner.writeAt off buf host.1).1, (inner.writeAt off buf host.1).2, bucket)
  flush host := ((inner.flush host.1).1, (inner.flush host.1).2, host.2)
  readOnly := inner.readOnly
  file host := inner.file host.1
  engine := inner.engine
  size := inner.size
  sizeBytes_eq host := inner.sizeBytes_eq host.1
  readAt_eq off len host := inner.readAt_eq off len host.1
  writeAt_eq off buf host := inner.writeAt_eq off buf host.1
  flush_eq host := inner.flush_eq host.1

/-! ## Requests -/

structure Command where
  reqType : UInt32
  sector : UInt64
  payload : List Descriptor
  status : Descriptor
  deriving DecidableEq, Repr

def decode (m : GuestMemory) : List Descriptor → Option Command
  | [] | [_] => none
  | header :: second :: rest =>
    if header.isWriteOnly || header.len < 16 then none
    else
      match m.readU32Le header.addr, m.readU64Le (sectorAddr header) with
      | .ok reqType, .ok sector =>
        let status := (second :: rest).getLast?.getD header
        if !status.isWriteOnly || status.len < 1 then none
        else some { reqType, sector, payload := (second :: rest).dropLast, status }
      | _, _ => none

def answer (statusDesc : Descriptor) (r : (UInt8 × UInt32) × World η) : (UInt8 × UInt32) × World η :=
  match r.2.write statusDesc.addr [r.1.1] with
  | .error _ => ((statusIoerr, r.1.2), r.2)
  | .ok w => ((r.1.1, saturatingAdd r.1.2 1), w)

theorem slice_payload (header second : Descriptor) (rest : List Descriptor) :
    slice (header :: second :: rest) 1 ((header :: second :: rest).length - 1) =
      .ok (second :: rest).dropLast := by
  rw [slice, List.dropLast_eq_take]
  simp

theorem handleRequestInner_eq (backend : BlockBackend η) (driveId : String) (descs : List Descriptor)
    (w : World η) :
    handleRequestInner backend driveId descs w =
      match decode w.mem descs with
      | none => .ok ((statusIoerr, 0), w)
      | some c =>
        (perform backend driveId c.reqType c.payload c.sector w).map (answer c.status) := by
  match descs with
  | [] => rfl
  | [_] => rfl
  | header :: second :: rest =>
    have hlast : (header :: second :: rest).getLast? = (second :: rest).getLast? := rfl
    rw [handleRequestInner, if_neg (by simp), decode, show index (header :: second :: rest) 0 =
      .ok header from rfl, slice_payload, hlast]
    simp only [bind, Except.bind]
    by_cases hheader : (header.isWriteOnly || decide (header.len < 16)) = true
    · rw [if_pos hheader, if_pos hheader]
    rw [if_neg hheader, if_neg hheader]
    cases w.mem.readU32Le header.addr with
    | error e => rfl
    | ok reqType =>
      cases w.mem.readU64Le (sectorAddr header) with
      | error e => rfl
      | ok sector =>
        split_ifs with hstatus
        · rfl
        · dsimp only
          cases perform backend driveId reqType (second :: rest).dropLast sector w with
          | error e => rfl
          | ok r =>
            simp only [Except.map, answer]
            cases r.2.write ((second :: rest).getLast?.getD header).addr [r.1.1] <;> rfl

/-! ## What a request does to the file -/

def readAccesses (m : GuestMemory) (n : ℕ) (fate : ℕ → Fate) :
    List Descriptor → (off clock : ℕ) → List Access
  | [], _, _ => []
  | desc :: payload, off, clock =>
    if !desc.isWriteOnly then readAccesses m n fate payload off clock
    else if maxOffset ≤ off then []
    else if desc.len = 0 then
      if m.contains desc.addr 0 then readAccesses m n fate payload off clock else []
    else
      ⟨false, off, (fate clock).readLen n off desc.len.toNat⟩ ::
        if fate clock = .ok ∧ off + desc.len.toNat ≤ n ∧ m.contains desc.addr desc.len.toNat then
          readAccesses m n fate payload (off + desc.len.toNat) (clock + 1)
        else []

def writeAccesses (m : GuestMemory) (fate : ℕ → Fate) :
    List Descriptor → (off clock : ℕ) → List Access
  | [], _, _ => []
  | desc :: payload, off, clock =>
    if desc.isWriteOnly then writeAccesses m fate payload off clock
    else if maxOffset ≤ off ∨ ¬ m.contains desc.addr desc.len.toNat then []
    else if desc.len = 0 then writeAccesses m fate payload off clock
    else
      ⟨true, off, (fate clock).writeLen desc.len.toNat⟩ ::
        if fate clock = .ok then
          writeAccesses m fate payload (off + desc.len.toNat) (clock + 1)
        else []

def accesses (backend : FileBackend η) (m : GuestMemory) (descs : List Descriptor) (f : File) :
    List Access :=
  match decode m descs with
  | none => []
  | some c =>
    let off := c.sector.toNat * sectorSize.toNat
    if c.reqType = reqTypeIn then readAccesses m f.data.length f.fate c.payload off f.clock
    else if c.reqType = reqTypeOut ∧ backend.readOnly = false then
      writeAccesses m f.fate c.payload off f.clock
    else []

section Engines

def moving (off len : ℕ) (a : Access) : List Access := if len = 0 ∨ maxOffset ≤ off then [] else [a]

structure Transfers {ε α : Type} (f : File) (off len : ℕ) (a : Access) (P : Prop)
    (r : Except ε α × File) : Prop where
  moved : Moved f r.2 (moving off len a)
  clock : r.2.clock = f.clock + (moving off len a).length
  isOk : off < maxOffset → (r.1.isOk = true ↔ len = 0 ∨ P)

namespace Transfers

variable {ε δ α : Type} {f : File} {off len : ℕ} {a : Access} {P : Prop} {r : Except ε α × File}

theorem idle (h : len = 0 ∨ maxOffset ≤ off) (hfile : r.2 = f)
    (hok : off < maxOffset → r.1.isOk = true) : Transfers f off len a P r := by
  refine ⟨?_, ?_, fun hoff => ?_⟩
  · rw [moving, if_pos h, hfile]
    exact .refl f
  · rw [moving, if_pos h, hfile]
    rfl
  · exact iff_of_true (hok hoff) (.inl (h.resolve_right (not_le.2 hoff)))

theorem live (h : ¬ (len = 0 ∨ maxOffset ≤ off)) (hmoved : Moved f r.2 [a])
    (hclock : r.2.clock = f.clock + 1) (hok : r.1.isOk = true ↔ P) : Transfers f off len a P r := by
  refine ⟨?_, ?_, fun _ => hok.trans (or_iff_right (not_or.1 h).1).symm⟩
  · rwa [moving, if_neg h]
  · rwa [moving, if_neg h]

theorem mapError (h : Transfers f off len a P r) (g : ε → δ) (pos : ℕ) :
    Transfers f off len a P (r.1.mapError g, { r.2 with pos }) := by
  refine ⟨⟨h.moved.fate, h.moved.touched, h.moved.length, h.moved.same⟩, h.clock, fun hoff => ?_⟩
  rw [← h.isOk hoff]
  cases r.1 <;> rfl

end Transfers

variable (engine : Engine) (off : UInt64) (len : ℕ) (f : File) (buf : List UInt8)

theorem readExactAt_transfers (off : ℕ) :
    Transfers f off len ⟨false, off, f.readLen off len⟩
      (f.fate f.clock = .ok ∧ off + len ≤ f.data.length) (f.readExactAt off len) := by
  by_cases hidle : len = 0 ∨ maxOffset ≤ off
  · refine .idle hidle (File.readExactAt_idle hidle) fun hoff => ?_
    rw [File.readExactAt, if_pos (hidle.resolve_right (not_le.2 hoff))]
    rfl
  · obtain ⟨hlen, hoff⟩ := not_or.1 hidle
    obtain ⟨hfile, hok⟩ := File.readExactAt_live hlen (not_le.1 hoff)
    exact .live hidle (hfile ▸ .touch_read f _ _) (by rw [hfile]; rfl) hok

theorem writeAllAt_transfers (off : ℕ) :
    Transfers f off buf.length ⟨true, off, f.writeLen buf.length⟩ (f.fate f.clock = .ok)
      (f.writeAllAt off buf) := by
  by_cases hidle : buf.length = 0 ∨ maxOffset ≤ off
  · refine .idle hidle (File.writeAllAt_idle (hidle.imp_left List.length_eq_zero_iff.1)) fun hoff => ?_
    rw [File.writeAllAt, if_pos (List.length_eq_zero_iff.1 (hidle.resolve_right (not_le.2 hoff)))]
    rfl
  · obtain ⟨hlen, hoff⟩ := not_or.1 hidle
    obtain ⟨hmoved, hclock, hok⟩ := File.writeAllAt_live
      (mt List.length_eq_zero_iff.2 hlen) (not_le.1 hoff)
    exact .live hidle hmoved hclock hok

theorem readExactAt_atPos (pos off : ℕ) :
    File.readExactAt { f with pos } off len =
      ((f.readExactAt off len).1, { (f.readExactAt off len).2 with pos }) := by
  unfold File.readExactAt
  split_ifs
  · rfl
  · rfl
  all_goals
    cases f.fate f.clock <;> rfl

theorem writeAllAt_atPos (pos off : ℕ) :
    File.writeAllAt { f with pos } off buf =
      ((f.writeAllAt off buf).1, { (f.writeAllAt off buf).2 with pos }) := by
  unfold File.writeAllAt
  split_ifs
  · rfl
  · rfl
  · cases f.fate f.clock <;> rfl

theorem Engine.readAt_transfers :
    Transfers f off.toNat len ⟨false, off.toNat, f.readLen off.toNat len⟩
      (f.fate f.clock = .ok ∧ off.toNat + len ≤ f.data.length) (engine.readAt off len f) := by
  have h := readExactAt_transfers len f off.toNat
  cases engine with
  | async => exact h.mapError IoError.host (f.readExactAt off.toNat len).2.pos
  | sync =>
    simp only [readAt, File.seekStart]
    split_ifs with hoff
    · exact .idle (.inr hoff) rfl fun hlt => absurd hoff (not_le.2 hlt)
    · simp only [File.readExact, readExactAt_atPos]
      exact h.mapError IoError.host _

theorem Engine.writeAt_transfers :
    Transfers f off.toNat buf.length ⟨true, off.toNat, f.writeLen buf.length⟩ (f.fate f.clock = .ok)
      (engine.writeAt false off buf f) := by
  have h := writeAllAt_transfers f buf off.toNat
  cases engine with
  | async => exact h.mapError IoError.host (f.writeAllAt off.toNat buf).2.pos
  | sync =>
    simp only [writeAt, if_neg Bool.false_ne_true, File.seekStart]
    split_ifs with hoff
    · exact .idle (.inr hoff) rfl fun hlt => absurd hoff (not_le.2 hlt)
    · simp only [File.writeAll, writeAllAt_atPos]
      exact h.mapError IoError.host _

end Engines

section Loops

variable {m : GuestMemory} {n : ℕ} {fate : ℕ → Fate}

theorem readAccesses_of_maxOffset {off : ℕ} (hoff : maxOffset ≤ off) :
    ∀ (payload : List Descriptor) (clock : ℕ), readAccesses m n fate payload off clock = []
  | [], _ => rfl
  | desc :: payload, clock => by
    rw [readAccesses, readAccesses_of_maxOffset hoff payload clock]
    split <;> rfl

theorem writeAccesses_of_maxOffset {off : ℕ} (hoff : maxOffset ≤ off) :
    ∀ (payload : List Descriptor) (clock : ℕ), writeAccesses m fate payload off clock = []
  | [], _ => rfl
  | desc :: payload, clock => by
    rw [writeAccesses, writeAccesses_of_maxOffset hoff payload clock, if_pos (c := _ ∨ _) (.inl hoff)]
    split <;> rfl

variable {desc : Descriptor}

theorem toNat_len_eq_zero : desc.len.toNat = 0 ↔ desc.len = 0 := by
  rw [← UInt32.toNat_inj]
  rfl

variable {as : List Access} {f : File}

theorem readAccesses_cons (hd : desc.isWriteOnly = true) (payload : List Descriptor) (off clock : ℕ)
    (has : moving off desc.len.toNat ⟨false, off, (fate clock).readLen n off desc.len.toNat⟩ = as) :
    readAccesses m n fate (desc :: payload) off clock = as ++
      if off < maxOffset ∧ (desc.len.toNat = 0 ∨ fate clock = .ok ∧ off + desc.len.toNat ≤ n) ∧
          m.contains desc.addr desc.len.toNat then
        readAccesses m n fate payload (off + desc.len.toNat) (clock + as.length)
      else [] := by
  subst has
  rw [readAccesses, hd]
  by_cases hoff : maxOffset ≤ off
  · simp [moving, hoff]
  have hlt := not_le.1 hoff
  by_cases hlen : desc.len = 0
  · simp [moving, hlen, hlt]
  · have hlen' := mt toNat_len_eq_zero.1 hlen
    simp [moving, hlen, hlen', hoff, hlt, and_assoc]

theorem writeAccesses_cons (hd : desc.isWriteOnly = false)
    (hin : m.contains desc.addr desc.len.toNat = true) (payload : List Descriptor) (off clock : ℕ)
    (has : moving off desc.len.toNat ⟨true, off, (fate clock).writeLen desc.len.toNat⟩ = as) :
    writeAccesses m fate (desc :: payload) off clock = as ++
      if off < maxOffset ∧ (desc.len.toNat = 0 ∨ fate clock = .ok) then
        writeAccesses m fate payload (off + desc.len.toNat) (clock + as.length)
      else [] := by
  subst has
  rw [writeAccesses, hd, hin]
  by_cases hoff : maxOffset ≤ off
  · simp [moving, hoff]
  have hlt := not_le.1 hoff
  by_cases hlen : desc.len = 0
  · simp [moving, hlen, hoff]
  · have hlen' := mt toNat_len_eq_zero.1 hlen
    simp [moving, hlen, hlen', hoff, hlt]

theorem add_len_lt {off : ℕ} (hoff : off < maxOffset) (len : UInt32) : off + len.toNat < 2 ^ 64 := by
  have := len.toNat_lt
  unfold maxOffset at hoff
  omega

theorem doReadFrom_cases (backend : BlockBackend η) (hd : desc.isWriteOnly = true)
    (payload : List Descriptor) (off : UInt64) (total : UInt32) (w : World η) :
    (¬ ((backend.readAt off desc.len.toNat w.host).1.isOk = true ∧
          w.mem.contains desc.addr desc.len.toNat = true ∧ off.toNat + desc.len.toNat < 2 ^ 64) ∧
        (doReadFrom backend (desc :: payload) off total w).2.host =
          (backend.readAt off desc.len.toNat w.host).2) ∨
      ((backend.readAt off desc.len.toNat w.host).1.isOk = true ∧
        w.mem.contains desc.addr desc.len.toNat = true ∧ off.toNat + desc.len.toNat < 2 ^ 64 ∧
        ∃ w', w'.mem.regions = w.mem.regions ∧
          w'.host = (backend.readAt off desc.len.toNat w.host).2 ∧
          doReadFrom backend (desc :: payload) off total w =
            doReadFrom backend payload (off + desc.len.toUInt64) (saturatingAdd total desc.len) w') := by
  rw [doReadFrom, if_neg (by simp [hd])]
  rcases backend.readAt off desc.len.toNat w.host with ⟨_ | buf, host⟩
  · exact .inl ⟨by simp [Except.toBool], rfl⟩
  have hcontains := World.isOk_write { w with host } desc.addr buf.toList
  rw [Vector.length_toList] at hcontains
  dsimp only at hcontains ⊢
  rw [← hcontains]
  cases hw : World.write { w with host } desc.addr buf.toList with
  | error e => exact .inl ⟨by simp [Except.toBool], rfl⟩
  | ok w' =>
    cases hadd : checkedAdd off desc.len.toUInt64 with
    | none =>
      refine .inl ⟨fun h => ?_, World.host_of_write hw⟩
      rw [checkedAdd, if_pos (by simpa using h.2.2)] at hadd
      cases hadd
    | some off' =>
      obtain ⟨hlt, rfl⟩ := checkedAdd_eq_some.1 hadd
      exact .inr ⟨rfl, rfl, by simpa using hlt, w', (World.touches_write hw).mem.regions,
        World.host_of_write hw, rfl⟩

theorem doWriteFrom_cases (backend : BlockBackend η) (hd : desc.isWriteOnly = false)
    (payload : List Descriptor) (off : UInt64) (w : World η) :
    (w.mem.contains desc.addr desc.len.toNat = false ∧
        doWriteFrom backend (desc :: payload) off w =
          (.error (.memory (.memoryOutOfRange desc.addr desc.len.toNat)), w)) ∨
      w.mem.contains desc.addr desc.len.toNat = true ∧
        ∃ buf : List UInt8, buf.length = desc.len.toNat ∧
          ((¬ ((backend.writeAt off buf w.host).1.isOk = true ∧ off.toNat + desc.len.toNat < 2 ^ 64) ∧
              (doWriteFrom backend (desc :: payload) off w).2.host =
                (backend.writeAt off buf w.host).2) ∨
            ((backend.writeAt off buf w.host).1.isOk = true ∧
              off.toNat + desc.len.toNat < 2 ^ 64 ∧
              doWriteFrom backend (desc :: payload) off w =
                doWriteFrom backend payload (off + desc.len.toUInt64)
                  { w with host := (backend.writeAt off buf w.host).2 })) := by
  rw [doWriteFrom, if_neg (by simp [hd]), GuestMemory.read]
  split_ifs with hcontains
  · refine .inr ⟨hcontains, Bytes.load w.mem.byte desc.addr.toNat desc.len.toNat,
      Bytes.length_load _ _ _, ?_⟩
    dsimp only
    rcases backend.writeAt off (Bytes.load w.mem.byte desc.addr.toNat desc.len.toNat) w.host with
      ⟨_ | _, host⟩
    · exact .inl ⟨by simp [Except.toBool], rfl⟩
    cases hadd : checkedAdd off desc.len.toUInt64 with
    | none =>
      refine .inl ⟨fun h => ?_, rfl⟩
      rw [checkedAdd, if_pos (by simpa using h.2)] at hadd
      cases hadd
    | some off' =>
      obtain ⟨hlt, rfl⟩ := checkedAdd_eq_some.1 hadd
      exact .inr ⟨rfl, by simpa using hlt, rfl⟩
  · exact .inl ⟨by simpa using hcontains, rfl⟩

variable (backend : FileBackend η) (driveId : String) (payload : List Descriptor) (off : UInt64)

theorem FileBackend.readAt_file (len : ℕ) (host : η) :
    backend.file (backend.readAt off len host).2 =
      (backend.engine.readAt off len (backend.file host)).2 :=
  congrArg Prod.snd (backend.readAt_eq off len host)

theorem FileBackend.readAt_result (len : ℕ) (host : η) :
    (backend.readAt off len host).1 = (backend.engine.readAt off len (backend.file host)).1 :=
  congrArg Prod.fst (backend.readAt_eq off len host)

theorem FileBackend.writeAt_file (buf : List UInt8) (host : η) :
    backend.file (backend.writeAt off buf host).2 =
      (backend.engine.writeAt backend.readOnly off buf (backend.file host)).2 :=
  congrArg Prod.snd (backend.writeAt_eq off buf host)

theorem FileBackend.writeAt_result (buf : List UInt8) (host : η) :
    (backend.writeAt off buf host).1 =
      (backend.engine.writeAt backend.readOnly off buf (backend.file host)).1 :=
  congrArg Prod.fst (backend.writeAt_eq off buf host)

theorem doReadFrom_file (total : UInt32) (w : World η) (hm : w.mem.regions = m.regions)
    (hf : backend.file w.host = f) :
    Moved f (backend.file (doReadFrom backend.toBlockBackend payload off total w).2.host)
      (readAccesses m f.data.length f.fate payload off.toNat f.clock) := by
  induction payload generalizing off total w f with
  | nil =>
    rw [doReadFrom, hf]
    exact .refl _
  | cons desc payload ih =>
    by_cases hd : desc.isWriteOnly = true
    swap
    · rw [doReadFrom, readAccesses]
      simp only [hd]
      exact ih off total w hm hf
    have hgo := doReadFrom_cases backend.toBlockBackend hd payload off total w
    rw [backend.readAt_result, hf, GuestMemory.contains_congr hm] at hgo
    obtain ⟨hmoved, hclock, hok⟩ := backend.engine.readAt_transfers off desc.len.toNat f
    rw [readAccesses_cons hd payload _ _ rfl]
    obtain ⟨hstop, hhost⟩ | ⟨hread, hin, hlt, w', hregions, hhost, heq⟩ := hgo
    · -- The loop ends here, and so do the accesses.
      rw [if_neg fun h => hstop ⟨(hok h.1).2 h.2.1, h.2.2, add_len_lt h.1 _⟩, List.append_nil, hhost,
        backend.readAt_file, hf]
      exact hmoved
    · -- The loop goes on behind the buffer, with the file as this read leaves it.
      have hrest := ih (off + desc.len.toUInt64) (saturatingAdd total desc.len) w'
        (hregions.trans hm) (by rw [hhost, backend.readAt_file, hf])
      rw [hmoved.same (by unfold moving; split_ifs <;> simp), hmoved.fate, hclock,
        toNat_add_of_lt (by simpa using hlt)] at hrest
      rw [heq]
      refine hmoved.trans ?_
      by_cases hoff : off.toNat < maxOffset
      · rw [if_pos ⟨hoff, (hok hoff).1 hread, hin⟩]
        exact hrest
      · rw [readAccesses_of_maxOffset (by omega)] at hrest
        rwa [if_neg fun h => hoff h.1]

theorem doWriteFrom_file (hro : backend.readOnly = false) (payload : List Descriptor) (off : UInt64)
    (w : World η) (hf : backend.file w.host = f) :
    Moved f (backend.file (doWriteFrom backend.toBlockBackend payload off w).2.host)
      (writeAccesses w.mem f.fate payload off.toNat f.clock) := by
  induction payload generalizing off w f with
  | nil =>
    rw [doWriteFrom, hf]
    exact .refl _
  | cons desc payload ih =>
    by_cases hd : desc.isWriteOnly = true
    · rw [doWriteFrom, writeAccesses, if_pos hd, if_pos hd]
      exact ih off w hf
    have hd : desc.isWriteOnly = false := by simpa using hd
    obtain ⟨hout, heq⟩ | ⟨hin, buf, hbuf, hgo⟩ :=
      doWriteFrom_cases backend.toBlockBackend hd payload off w
    · rw [writeAccesses, if_neg (by simp [hd]), if_pos (.inr (by simp [hout])), heq, hf]
      exact .refl _
    rw [backend.writeAt_result, hf, hro] at hgo
    have hfile : backend.file (backend.writeAt off buf w.host).2 =
        (backend.engine.writeAt false off buf f).2 := by
      rw [backend.writeAt_file, hf, hro]
    obtain ⟨hmoved, hclock, hok⟩ := backend.engine.writeAt_transfers off f buf
    rw [hbuf] at hmoved hclock hok
    rw [writeAccesses_cons hd hin payload _ _ rfl]
    obtain ⟨hstop, hhost⟩ | ⟨hwrote, hlt, heq⟩ := hgo
    · rw [if_neg fun h => hstop ⟨(hok h.1).2 h.2, add_len_lt h.1 _⟩, List.append_nil, hhost, hfile]
      exact hmoved
    · have hrest := ih (off + desc.len.toUInt64)
        { w with host := (backend.writeAt off buf w.host).2 } hfile
      rw [hmoved.fate, hclock, toNat_add_of_lt (by simpa using hlt)] at hrest
      rw [heq]
      refine hmoved.trans ?_
      by_cases hoff : off.toNat < maxOffset
      · rw [if_pos ⟨hoff, (hok hoff).1 hwrote⟩]
        exact hrest
      · rw [writeAccesses_of_maxOffset (by omega)] at hrest
        rwa [if_neg fun h => hoff h.1]

theorem doWriteFrom_readOnly (hro : backend.readOnly = true) (payload : List Descriptor) (off : UInt64)
    (w : World η) :
    Moved (backend.file w.host)
      (backend.file (doWriteFrom backend.toBlockBackend payload off w).2.host) [] := by
  induction payload with
  | nil => exact .refl _
  | cons desc payload ih =>
    by_cases hd : desc.isWriteOnly = true
    · rw [doWriteFrom, if_pos hd]
      exact ih
    obtain ⟨-, heq⟩ | ⟨-, buf, -, ⟨-, hhost⟩ | ⟨hok, -⟩⟩ :=
      doWriteFrom_cases backend.toBlockBackend (by simpa using hd) payload off w
    · rw [heq]
      exact .refl _
    · rw [hhost, backend.writeAt_file, hro]
      exact .refl _
    · rw [backend.writeAt_result, hro] at hok
      cases hok

theorem doRead_file (sector : UInt64) (w : World η) :
    Moved (backend.file w.host) (backend.file (doRead backend.toBlockBackend payload sector w).2.host)
      (readAccesses w.mem (backend.file w.host).data.length (backend.file w.host).fate payload
        (sector.toNat * sectorSize.toNat) (backend.file w.host).clock) := by
  rw [doRead, checkedMul]
  split_ifs with hlt
  · have hoff : (sector * sectorSize).toNat = sector.toNat * sectorSize.toNat := by
      rw [UInt64.toNat_mul, Nat.mod_eq_of_lt hlt]
    rw [← hoff]
    exact doReadFrom_file backend payload _ 0 w rfl rfl
  · rw [readAccesses_of_maxOffset (by unfold maxOffset; omega)]
    exact .refl _

theorem doWrite_file (sector : UInt64) (w : World η) :
    Moved (backend.file w.host) (backend.file (doWrite backend.toBlockBackend payload sector w).2.host)
      (if backend.readOnly = false then
        writeAccesses w.mem (backend.file w.host).fate payload (sector.toNat * sectorSize.toNat)
          (backend.file w.host).clock
      else []) := by
  rw [doWrite, checkedMul]
  by_cases hlt : sector.toNat * sectorSize.toNat < 2 ^ 64
  · have hoff : (sector * sectorSize).toNat = sector.toNat * sectorSize.toNat := by
      rw [UInt64.toNat_mul, Nat.mod_eq_of_lt hlt]
    rw [if_pos hlt, ← hoff]
    split_ifs with hro
    · exact doWriteFrom_file backend hro payload _ w rfl
    · exact doWriteFrom_readOnly backend (by simpa using hro) payload _ w
  · rw [if_neg hlt, writeAccesses_of_maxOffset (by unfold maxOffset; omega), ite_self]
    exact .refl _

theorem doGetId_host (w : World η) :
    Returns (doGetId driveId payload w) fun r => r.2.host = w.host := by
  rw [doGetId_eq]
  refine returns_ok ?_
  cases payload with
  | nil => rfl
  | cons desc payload =>
    dsimp only
    split_ifs
    · rfl
    split
    · rfl
    · next w' hw => exact World.host_of_write hw

theorem perform_file (reqType : UInt32) (payload : List Descriptor) (sector : UInt64) (w : World η) :
    Returns (perform backend.toBlockBackend driveId reqType payload sector w) fun r =>
      Moved (backend.file w.host) (backend.file r.2.host)
        (if reqType = reqTypeIn then
          readAccesses w.mem (backend.file w.host).data.length (backend.file w.host).fate payload
            (sector.toNat * sectorSize.toNat) (backend.file w.host).clock
        else if reqType = reqTypeOut ∧ backend.readOnly = false then
          writeAccesses w.mem (backend.file w.host).fate payload (sector.toNat * sectorSize.toNat)
            (backend.file w.host).clock
        else []) := by
  rw [perform]
  by_cases hin : reqType = reqTypeIn
  · simp only [if_pos hin]
    have hmoved := doRead_file backend payload sector w
    rcases hread : doRead backend.toBlockBackend payload sector w with ⟨_ | _, w'⟩ <;>
      rw [hread] at hmoved <;> exact returns_ok hmoved
  by_cases hout : reqType = reqTypeOut
  · simp only [hout, true_and]
    have hmoved := doWrite_file backend payload sector w
    rcases hwrite : doWrite backend.toBlockBackend payload sector w with ⟨_ | _, w'⟩ <;>
      rw [hwrite] at hmoved <;> exact returns_ok hmoved
  simp only [hout, false_and, if_false]
  split_ifs
  · have hflush : backend.file (backend.flush w.host).2 = (backend.file w.host).syncData.2 :=
      congrArg Prod.snd (backend.flush_eq w.host)
    have hmoved : Moved (backend.file w.host) (backend.file (backend.flush w.host).2) [] := by
      rw [hflush, File.syncData]
      split <;> exact .of_eq rfl rfl rfl
    rcases hcall : backend.flush w.host with ⟨_ | _, host⟩ <;> rw [hcall] at hmoved <;>
      exact returns_ok hmoved
  · refine (doGetId_host driveId payload w).bind fun r hr => ?_
    rcases r with ⟨_ | _, w'⟩ <;> exact returns_ok (by rw [hr]; exact .refl _)
  · exact returns_ok (.refl _)

theorem handleRequestInner_file (descs : List Descriptor) (w : World η) :
    Returns (handleRequestInner backend.toBlockBackend driveId descs w) fun r =>
      Moved (backend.file w.host) (backend.file r.2.host)
        (accesses backend w.mem descs (backend.file w.host)) := by
  rw [handleRequestInner_eq, accesses]
  cases decode w.mem descs with
  | none => exact returns_ok (.refl _)
  | some c =>
    obtain ⟨r, hr, hmoved⟩ :=
      perform_file backend driveId c.reqType c.payload c.sector w
    dsimp only
    rw [hr]
    refine returns_ok ?_
    have hanswer : (answer c.status r).2.host = r.2.host := by
      rw [answer]
      split
      · rfl
      · next w' hw => exact World.host_of_write hw
    rw [hanswer]
    exact hmoved

end Loops

/-! ## Sequences of requests -/

structure GuestRequest where
  guest : World Unit
  descs : List Descriptor

def GuestRequest.world (r : GuestRequest) (host : η) : World η :=
  { mem := r.guest.mem, irq := r.guest.irq, host, log := r.guest.log }

def step (backend : BlockBackend η) (driveId : String) (host : η) (r : GuestRequest) : Option η :=
  match handleRequestInner backend driveId r.descs (r.world host) with
  | .error _ => none
  | .ok (_, w) => some w.host

theorem step_moved (backend : FileBackend η) (driveId : String) (host : η) (r : GuestRequest) :
    ∃ host', step backend.toBlockBackend driveId host r = some host' ∧
      Moved (backend.file host) (backend.file host')
        (accesses backend r.guest.mem r.descs (backend.file host)) := by
  obtain ⟨x, hx, hmoved⟩ := handleRequestInner_file backend driveId r.descs (r.world host)
  exact ⟨x.2.host, by rw [step, hx], hmoved⟩

theorem run_isSome (backend : FileBackend η) (driveId : String) (host : η)
    (requests : List GuestRequest) :
    (Run.run (step backend.toBlockBackend driveId) requests host).isSome := by
  refine (Run.run_isSome_iff (fun _ _ _ _ _ => trivial)
    (fun host r _ => ?_) requests trivial).2 (Run.Along.of_forall (fun _ _ _ => trivial) _)
  obtain ⟨host', h, -⟩ := step_moved backend driveId host r
  simp [h]

theorem drainRequests_run {backend : BlockBackend η} {config : BlockConfig} {fuel : ℕ}
    {fd fd' : Frontend Unit} {w w' : World η} {b : Bool}
    (h : drainRequests backend config fuel fd w = .ok (b, fd', w')) :
    ∃ requests, Run.run (step backend config.driveId) requests w.host = some w'.host := by
  refine drain_relates (fun x x' : Unit × η => ∃ requests,
    Run.run (step backend config.driveId) requests x.2 = some x'.2) (fun x => ⟨[], rfl⟩) ?_ ?_ h
  · rintro x y z ⟨rs, hrs⟩ ⟨rs', hrs'⟩
    refine ⟨rs ++ rs', ?_⟩
    rw [Run.run_append, hrs]
    exact hrs'
  · intro r own w
    cases r with
    | error e => exact returns_ok ⟨[], rfl⟩
    | ok descs =>
      obtain ⟨x, hx, -⟩ := handleRequestInner_returns backend config.driveId descs w
      simp only [onChain, hx]
      refine returns_ok ⟨[⟨{ mem := w.mem, irq := w.irq, host := (), log := w.log }, descs⟩], ?_⟩
      refine Run.run_cons ?_
      rw [step, show GuestRequest.world _ w.host = w from rfl, hx]

end Squib.BlockDevice
