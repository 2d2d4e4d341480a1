import EbpfNids.DataPlane.SynFlood
import EbpfNids.DataPlane.PortScan

/-!
# The TCP header that the detectors look at

The handler takes the TCP header to start 20 bytes after the IPv4 header does.
It really starts after the options, at `14 + 4 * ihl`, and a fragment with a
non-zero offset has none. So the detectors are run as the real header says
exactly when the 20 bytes at offset 34 show them the same as the real header
(`detectors_see_real_header_iff`): always without options in an unfragmented
packet, and otherwise by accident.
-/

set_option autoImplicit false

namespace EbpfNids.DataPlane

open Library

namespace Frame

variable (frame : Frame)

def version : ℕ := (frame.byteAt 14).toNat / 16

/-- The length of the IPv4 header in words. -/
def ihl : ℕ := (frame.byteAt 14).toNat % 16

/-- The fragment offset, the low 13 bits of `frag_off`. -/
def fragOffset : ℕ := (256 * (frame.byteAt 20).toNat + (frame.byteAt 21).toNat) % 8192

/-- Where the TCP header of an unfragmented packet starts. -/
def realTcp : ℕ := ethhdrSize + 4 * frame.ihl

/-- Where the code takes it to start. -/
def assumedTcp : ℕ := ethhdrSize + iphdrSize

/-- A complete IPv4 header of version 4. -/
structure WellFormed : Prop where
  ip : frame.isIp = true
  version : frame.version = 4
  minimal : 5 ≤ frame.ihl
  inside : ethhdrSize + 4 * frame.ihl ≤ frame.length

/-- A TCP header at an offset fits in the frame and has SYN set. -/
def ShowsSyn (tcp : ℕ) : Prop := tcp + tcphdrSize ≤ frame.length ∧ frame.syn tcp = true

end Frame

open EbpfNids.DataPlane.Frame

/-! ## Calls of the detectors -/

/-- The calls of the detectors in a record. -/
def detectorCalls (record : List Act) : List Act :=
  record.filter fun act =>
    match act with
    | .checkSynFlood _ _ => true
    | .checkPortScan _ _ _ => true
    | _ => false

/-- The calls that the TCP header at an offset asks for: none when it does not
fit in the frame. -/
def callsAt (frame : Frame) (tcp : ℕ) : List Act :=
  if frame.length < tcp + tcphdrSize then []
  else
    (if frame.syn tcp && !frame.ack tcp then [.checkSynFlood frame.saddr frame.daddr] else []) ++
      if frame.syn tcp then [.checkPortScan frame.saddr frame.daddr (frame.dest tcp)] else []

/-- The calls that the real TCP header asks for: none in a fragment with a
non-zero offset. -/
def realCalls (frame : Frame) : List Act :=
  if frame.fragOffset ≠ 0 then [] else callsAt frame frame.realTcp

theorem detectorCalls_append (first second : List Act) :
    detectorCalls (first ++ second) = detectorCalls first ++ detectorCalls second :=
  List.filter_append ..

theorem detectorCalls_detectSyn (kernel : Kernel) (cpu : Cpu) (seg : Segment) (m : SynCounter) :
    detectorCalls (detectSyn kernel cpu seg m).2 =
      if seg.pureSyn then [.checkSynFlood seg.srcIp seg.dstIp] else [] := by
  cases pure : seg.pureSyn with
  | false => simp [detectSyn, pure, detectorCalls]
  | true =>
      simp only [detectSyn, pure, if_true]
      cases found : m.lookup seg.srcIp with
      | none =>
          rw [(checkSynFlood_absent kernel cpu _ seg.dstIp found).2]
          rfl
      | some counts =>
          rw [(checkSynFlood_present kernel cpu _ seg.dstIp found).2]
          split
          · rfl
          · rfl

theorem detectorCalls_detectScan (kernel : Kernel) (cpu : Cpu) (seg : Segment) (m : PortScanMap) :
    detectorCalls (detectScan kernel cpu seg m).2 =
      if seg.syn then [.checkPortScan seg.srcIp seg.dstIp seg.dstPort] else [] := by
  cases syn : seg.syn with
  | false => simp [detectScan, syn, detectorCalls]
  | true =>
      simp only [detectScan, syn, if_true]
      rw [checkPortScan_eq, markPort]
      dsimp only
      repeat' split
      all_goals rfl

/-- The handler calls the detectors as the 20 bytes at offset 34 ask for. -/
theorem detectorCalls_xdpFirewall (kernel : Kernel) (cpu : Cpu) (frame : Frame) (maps : Maps)
    (ip : frame.isIp = true) (allowed : maps.blacklist.lookup frame.saddr ≠ some 1)
    (tcp : frame.protocol = 6) :
    detectorCalls (xdpFirewall kernel cpu frame maps).acts = callsAt frame assumedTcp := by
  by_cases fits : assumedTcp + tcphdrSize ≤ frame.length
  · have inside : inspected maps.blacklist frame =
        some ⟨frame.saddr, frame.daddr, frame.dest assumedTcp, frame.syn assumedTcp,
          frame.ack assumedTcp⟩ := if_pos ⟨ip, allowed, tcp, fits⟩
    rw [(xdpFirewall_inspected kernel cpu frame maps inside).2.2, detectorCalls_append,
      detectorCalls_detectSyn, detectorCalls_detectScan, callsAt, if_neg (Nat.not_lt.mpr fits)]
    rfl
  · have outside : inspected maps.blacklist frame = none :=
      if_neg fun inspects => fits inspects.2.2.2
    rw [(xdpFirewall_uninspected kernel cpu frame maps outside).2.2, callsAt,
      if_pos (Nat.not_le.mp fits)]
    rfl

/-! ## When two headers ask for the same calls -/

theorem callsAt_of_showsSyn {frame : Frame} {tcp : ℕ} (shows_syn : frame.ShowsSyn tcp) :
    callsAt frame tcp =
      (if frame.ack tcp then [] else [.checkSynFlood frame.saddr frame.daddr]) ++
        [.checkPortScan frame.saddr frame.daddr (frame.dest tcp)] := by
  obtain ⟨fits, syn⟩ := shows_syn
  rw [callsAt, if_neg (Nat.not_lt.mpr fits), syn]
  cases frame.ack tcp with
  | false => rfl
  | true => rfl

theorem callsAt_eq_nil {frame : Frame} {tcp : ℕ} :
    callsAt frame tcp = [] ↔ ¬ frame.ShowsSyn tcp := by
  constructor
  · intro empty shows_syn
    rw [callsAt_of_showsSyn shows_syn] at empty
    exact List.append_ne_nil_of_right_ne_nil _ (List.cons_ne_nil _ _) empty
  · intro silent
    rw [callsAt]
    split
    · rfl
    · rename_i fits
      have syn : frame.syn tcp = false :=
        Bool.not_eq_true _ ▸ fun set => silent ⟨Nat.not_lt.mp fits, set⟩
      simp [syn]

theorem callsAt_eq_iff {frame : Frame} {tcp₁ tcp₂ : ℕ} (first : frame.ShowsSyn tcp₁)
    (second : frame.ShowsSyn tcp₂) :
    callsAt frame tcp₁ = callsAt frame tcp₂ ↔
      frame.ack tcp₁ = frame.ack tcp₂ ∧ frame.dest tcp₁ = frame.dest tcp₂ := by
  rw [callsAt_of_showsSyn first, callsAt_of_showsSyn second]
  cases frame.ack tcp₁ with
  | false =>
      cases frame.ack tcp₂ with
      | false => simp
      | true => simp
  | true =>
      cases frame.ack tcp₂ with
      | false => simp
      | true => simp

/-- What the code sees of the frame agrees with its real TCP header: there is
nothing between the headers and no fragmentation, or neither shows a SYN, or
both show the same one. -/
def SeesRealHeader (frame : Frame) : Prop :=
  (frame.ihl = 5 ∧ frame.fragOffset = 0) ∨
    (¬ frame.ShowsSyn assumedTcp ∧ (frame.fragOffset ≠ 0 ∨ ¬ frame.ShowsSyn frame.realTcp)) ∨
    (frame.fragOffset = 0 ∧ frame.ShowsSyn assumedTcp ∧ frame.ShowsSyn frame.realTcp ∧
      frame.ack assumedTcp = frame.ack frame.realTcp ∧
      frame.dest assumedTcp = frame.dest frame.realTcp)

theorem callsAt_eq_realCalls_iff (frame : Frame) :
    callsAt frame assumedTcp = realCalls frame ↔ SeesRealHeader frame := by
  rw [SeesRealHeader, realCalls]
  by_cases whole : frame.fragOffset = 0
  · rw [if_neg (not_not_intro whole)]
    by_cases plain : frame.ihl = 5
    · have same : frame.realTcp = assumedTcp := by
        rw [realTcp, plain]
        rfl
      rw [same]
      exact iff_of_true rfl (Or.inl ⟨plain, whole⟩)
    · by_cases assumed : frame.ShowsSyn assumedTcp
      · by_cases real : frame.ShowsSyn frame.realTcp
        · rw [callsAt_eq_iff assumed real]
          simp [whole, plain, assumed, real]
        · rw [callsAt_eq_nil.mpr real, callsAt_eq_nil]
          simp [whole, plain, assumed, real]
      · rw [callsAt_eq_nil.mpr assumed, eq_comm, callsAt_eq_nil]
        simp [whole, plain, assumed]
  · rw [if_pos whole, callsAt_eq_nil]
    simp [whole]

/-- **When the detectors see the real TCP header.** For a well-formed frame with
protocol 6 from a source that is not blacklisted, the handler calls the
detectors as the real TCP header asks for exactly when `SeesRealHeader` holds of
the frame. -/
theorem detectors_see_real_header_iff (kernel : Kernel) (cpu : Cpu) (frame : Frame) (maps : Maps)
    (formed : frame.WellFormed) (tcp : frame.protocol = 6)
    (allowed : maps.blacklist.lookup frame.saddr ≠ some 1) :
    detectorCalls (xdpFirewall kernel cpu frame maps).acts = realCalls frame ↔
      SeesRealHeader frame := by
  rw [detectorCalls_xdpFirewall kernel cpu frame maps formed.ip allowed tcp]
  exact callsAt_eq_realCalls_iff frame

/-- A SYN without options. -/
theorem detectors_see_plain_header :
    detectorCalls (xdpFirewall (.ready 0) 0 synFrame Maps.empty).acts = realCalls synFrame :=
  (detectors_see_real_header_iff (.ready 0) 0 synFrame Maps.empty ⟨rfl, rfl, by decide, by decide⟩
    rfl (by simp [Maps.empty])).mpr (Or.inl ⟨rfl, rfl⟩)

/-- The same SYN with four bytes of IP options, all of them 1 (no operation). -/
def optionFrame : Frame :=
  [0, 0, 0, 0, 0, 0, 0, 0, 0, 0, 0, 0, 0x08, 0x00,
    0x46, 0, 0, 44, 0, 0, 0, 0, 64, 6, 0, 0, 10, 0, 0, 1, 10, 0, 0, 2, 1, 1, 1, 1,
    0, 0, 0, 80, 0, 0, 0, 0, 0, 0, 0, 0, 0x50, 0x02, 0, 0, 0, 0, 0, 0]

/-- It is well formed, its TCP header fits and asks for both detectors, and the
handler runs neither. -/
theorem options_hide_syn :
    optionFrame.WellFormed ∧ optionFrame.protocol = 6 ∧
      Maps.empty.blacklist.lookup optionFrame.saddr ≠ some 1 ∧
      realCalls optionFrame =
        [.checkSynFlood optionFrame.saddr optionFrame.daddr,
          .checkPortScan optionFrame.saddr optionFrame.daddr 80] ∧
      detectorCalls (xdpFirewall (.ready 0) 0 optionFrame Maps.empty).acts = [] :=
  ⟨⟨rfl, rfl, by decide, by decide⟩, rfl, by simp [Maps.empty], by decide, by decide⟩

end EbpfNids.DataPlane
