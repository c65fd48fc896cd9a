import Squib.Mmds.Emission

/-!
# Packets on the wire
-/

namespace Squib.Metadata.TcpServer

open Checked Internet

variable {s : TcpServer} {body : List UInt8} {ip : Ipv4Header} {tcp : TcpHeader}
  {payload : List UInt8}

/-- **A segment is read back from its packet.** -/
theorem segment_buildOutbound (s : TcpServer) (srcPort dstPort : UInt16) (seq ack : UInt32)
    (flags : UInt8) (window : UInt16) (dst : Ipv4Addr) (payload : List UInt8)
    (hflags : flags.toNat < 2 ^ 6) (hlen : payload.length ≤ 65495) :
    ∃ ip, (new dst dstPort).segment
        (s.buildOutbound (.build srcPort dstPort seq ack flags window) dst payload).1.ethPayload =
      .ok (some (ip, .build srcPort dstPort seq ack flags window, payload)) ∧
      ip.src = s.serverIp ∧ ip.dst = dst := by
  have hmask : flags &&& 0x3F = flags := by
    rw [← UInt8.toNat_inj, UInt8.toNat_and]
    exact (Nat.and_two_pow_sub_one_eq_mod flags.toNat 6).trans (Nat.mod_eq_of_lt hflags)
  refine ⟨_, segment_eq_some_iff.2 (carries_packet (TcpHeader.plain_build hmask) rfl rfl ?_), rfl,
    rfl⟩
  omega

theorem segment_buildOutbound_fin :
    ∃ ip, (new ⟨10, 0, 0, 2⟩ 80).segment
        ((new ⟨10, 0, 0, 1⟩ 80).buildOutbound (.build 80 80 1 2 TCP_FIN 0) ⟨10, 0, 0, 2⟩ [7]).1.ethPayload =
      .ok (some (ip, .build 80 80 1 2 TCP_FIN 0, [7])) ∧ ip.src = ⟨10, 0, 0, 1⟩ ∧ ip.dst = ⟨10, 0, 0, 2⟩ :=
  segment_buildOutbound _ 80 80 1 2 TCP_FIN 0 _ _ (by decide) (by decide)

/-! ## Flipped bits -/

def covered (body : List UInt8) (ip : Ipv4Header) : List UInt8 :=
  pseudoHeader ip.src ip.dst (.ofNat (ip.totalLen.toNat - IPV4_HDR_LEN)) ++
    (body.drop IPV4_HDR_LEN).take (ip.totalLen.toNat - IPV4_HDR_LEN)

theorem Carries.residue_covered (h : s.Carries body ip tcp payload) :
    residue (wordSum (covered body ip)) = 65535 := by
  obtain ⟨hfull, hsum⟩ := (TcpHeader.parse_returns _ _ _ _).of_eq h.tcp_parse tcp rfl
  obtain ⟨hlow, hle, -⟩ := h.length
  have hend := h.header
  have hstart : IPV4_HDR_LEN ≤ tcpHdrEnd body := Nat.le_add_right _ _
  have htotal := ip.totalLen.toNat_lt
  have hsplit : ip.totalLen.toNat - IPV4_HDR_LEN = (tcpHdrEnd body - IPV4_HDR_LEN) +
      (ip.totalLen.toNat - tcpHdrEnd body) := by omega
  have hhdr : ((body.drop IPV4_HDR_LEN).take (tcpHdrEnd body - IPV4_HDR_LEN)).length =
      tcpHdrEnd body - IPV4_HDR_LEN := List.length_take_of_le (by rw [List.length_drop]; omega)
  have hrest : ((body.drop (tcpHdrEnd body)).take (ip.totalLen.toNat - tcpHdrEnd body)).length =
      ip.totalLen.toNat - tcpHdrEnd body := List.length_take_of_le (by rw [List.length_drop]; omega)
  rw [h.payload_eq, hhdr, hrest] at hsum
  rw [hhdr, TCP_HDR_LEN] at hfull
  rw [covered, hsplit, List.take_add, List.drop_drop, Nat.add_sub_cancel' hstart]
  refine hsum ?_ (by omega)
  -- the data offset is where `handle_ip_frame` finds it
  rw [List.getD_eq_getElem?_getD, List.getElem?_take_of_lt (by omega), List.getElem?_drop,
    ← List.getD_eq_getElem?_getD, tcpHdrEnd, Nat.add_sub_cancel_left]

theorem readIpv4_set {i j : ℕ} (h : j + 4 ≤ i) (a : UInt8) :
    readIpv4 (body.set i a) j = readIpv4 body j := by
  simp only [readIpv4, index]
  rw [List.getElem?_set_ne (by omega), List.getElem?_set_ne (by omega), List.getElem?_set_ne (by omega),
    List.getElem?_set_ne (by omega)]

theorem readBe16_set {i j : ℕ} (h : j + 2 ≤ i) (a : UInt8) :
    readBe16 (body.set i a) j = readBe16 body j := by
  simp only [readBe16, index]
  rw [List.getElem?_set_ne (by omega), List.getElem?_set_ne (by omega)]

theorem Carries.not_flipBit {ip' : Ipv4Header} {tcp' : TcpHeader} {payload' : List UInt8} {i : ℕ}
    {a : UInt8} (h : s.Carries body ip tcp payload) (hi : i < ip.totalLen.toNat)
    (ha : body[i]? = some a) (k : Fin 8) :
    ¬ s.Carries (body.set i (flipBit a k)) ip' tcp' payload' := by
  intro h'
  have hread := (Ipv4Header.parse_returns _).of_eq h.ip_parse ip rfl
  have hread' := (Ipv4Header.parse_returns _).of_eq h'.ip_parse ip' rfl
  by_cases hlow : i < IPV4_HDR_LEN
  · have hsum' := hread'.sum
    rw [List.take_set] at hsum'
    exact residue_set_flipBit (by rwa [List.getElem?_take_of_lt hlow]) k hread.sum hsum'
  · rw [IPV4_HDR_LEN] at hlow
    have hsrc := hread'.src
    have hdst := hread'.dst
    have htotal := hread'.totalLen
    rw [readIpv4_set (by omega), hread.src] at hsrc
    rw [readIpv4_set (by omega), hread.dst] at hdst
    rw [readBe16_set (by omega), hread.totalLen] at htotal
    have hsum' := h'.residue_covered
    rw [covered, ← Except.ok.inj hsrc, ← Except.ok.inj hdst, ← Except.ok.inj htotal, List.drop_set,
      if_neg (by rw [IPV4_HDR_LEN]; omega), List.take_set] at hsum'
    refine residue_append_flipBit _ ?_ k h.residue_covered hsum'
    rwa [List.getElem?_take_of_lt (by rw [IPV4_HDR_LEN]; omega), List.getElem?_drop,
      Nat.add_sub_cancel' (by rw [IPV4_HDR_LEN]; omega)]

/-- **No packet with a flipped bit is taken.** -/
theorem handleIpFrame_flipBit {η : Type} {checks : Bool} {handler : Handler η} {mac : MacAddr}
    {x x' : η} {s' : TcpServer} {n : UInt16}
    (h : s.handleIpFrame checks handler mac body x = .ok (true, s', x'))
    (hn : readBe16 body 2 = .ok n) {i : ℕ} (hi : i < n.toNat) (k : Fin 8) (mac' : MacAddr) (y : η) :
    s.handleIpFrame checks handler mac' (body.modify i (flipBit · k)) y = .ok (false, s, y) := by
  rw [MmdsInterceptor.handleIpFrame_eq] at h ⊢
  obtain ⟨r, hr, hcarries⟩ := s.segment_returns body
  cases r with
  | none => simp [hr] at h
  | some seg =>
    obtain ⟨ip, tcp, payload⟩ := seg
    have hc := hcarries ip tcp payload rfl
    have hread := (Ipv4Header.parse_returns _).of_eq hc.ip_parse ip rfl
    cases hn.symm.trans hread.totalLen
    have hlt : i < body.length := Nat.lt_of_lt_of_le hi hc.length.2.1
    obtain ⟨r', hr', hcarries'⟩ := s.segment_returns (body.modify i (flipBit · k))
    cases r' with
    | none => rw [hr']
    | some seg' =>
      have hc' := hcarries' seg'.1 seg'.2.1 seg'.2.2 rfl
      rw [List.modify_eq_set_get _ hlt] at hc'
      exact absurd hc' (hc.not_flipBit hi (List.getElem?_eq_getElem hlt) k)

def synPacket : List UInt8 :=
  ((new ⟨10, 0, 0, 1⟩ 80).buildOutbound (.build 80 80 1 2 TCP_SYN 0) ⟨10, 0, 0, 2⟩ []).1.ethPayload

theorem handleIpFrame_flipBit_offset :
    (new ⟨10, 0, 0, 2⟩ 80).handleIpFrame false (fun _ u => (⟨200, []⟩, u)) ⟨2, 0, 0, 0, 0, 1⟩
      (synPacket.modify 32 (flipBit · 4)) () = .ok (false, new ⟨10, 0, 0, 2⟩ 80, ()) :=
  handleIpFrame_flipBit (n := 40)
    (show handleIpFrame _ _ _ ⟨2, 0, 0, 0, 0, 1⟩ synPacket () = .ok (true, _, _) from rfl) rfl
    (by decide) 4 _ _

end Squib.Metadata.TcpServer
