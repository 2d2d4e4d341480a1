import EbpfNids.DataPlane.Accounting
import EbpfNids.DataPlane.PortScan
import EbpfNids.DataPlane.SynFlood

/-!
# Verdicts, and what a frame can change

The handler drops the frames that are `Blocked`, and nothing else
(`xdpFirewall_verdict`). What it does besides is confined. A frame that is
dropped, or is not IPv4, or is too short for its headers changes nothing at all
(`xdpFirewall_untouched`), and any frame changes only the entries of its own
source (`xdpFirewall_other_entries`).
-/

set_option autoImplicit false

namespace EbpfNids.DataPlane

open Library

/-! ## Frames that are dropped and frames that are ignored -/

namespace Frame

/-- Complete Ethernet and IPv4 headers, with the EtherType of IPv4. -/
def HasIpHeader (frame : Frame) : Prop :=
  frame.isIp = true ∧ ethhdrSize + iphdrSize ≤ frame.length

instance (frame : Frame) : Decidable frame.HasIpHeader :=
  inferInstanceAs (Decidable (_ ∧ _))

/-- The frame ends before the headers that it announces do. -/
def TooShort (frame : Frame) : Prop :=
  frame.length < ethhdrSize ∨
    frame.isIp = true ∧ (frame.length < ethhdrSize + iphdrSize ∨
      frame.protocol = 6 ∧ frame.length < ethhdrSize + iphdrSize + tcphdrSize)

end Frame

/-- The frame is IPv4 and its source is blacklisted. -/
def Blocked (blacklist : Blacklist) (frame : Frame) : Prop :=
  frame.HasIpHeader ∧ blacklist.lookup frame.saddr = some 1

instance (blacklist : Blacklist) (frame : Frame) : Decidable (Blocked blacklist frame) :=
  inferInstanceAs (Decidable (_ ∧ _))

/-! ## Verdicts -/

section Handler

variable (kernel : Kernel) (cpu : Cpu) (frame : Frame) (maps : Maps)

theorem xdpFirewall_verdict :
    (xdpFirewall kernel cpu frame maps).verdict =
      if Blocked maps.blacklist frame then .drop else .pass := by
  by_cases blocked : Blocked maps.blacklist frame
  · obtain ⟨⟨ip, complete⟩, listed⟩ := blocked
    have long : ¬ frame.length < Frame.ethhdrSize := by omega
    have longIp : ¬ frame.length < Frame.ethhdrSize + Frame.iphdrSize := by omega
    simp [xdpFirewall, long, longIp, ip, listed, Blocked, Frame.HasIpHeader, complete]
  · rw [if_neg blocked, xdpFirewall]
    dsimp only
    split_ifs with short notIp shortIp listed
    all_goals try rfl
    exact absurd ⟨⟨by simpa using notIp, by omega⟩, listed⟩ blocked

/-- The handler touches nothing for a frame that it drops or gives up. -/
theorem xdpFirewall_untouched (ignored : Blocked maps.blacklist frame ∨ frame.isIp = false ∨
      frame.TooShort) :
    (xdpFirewall kernel cpu frame maps).maps = maps ∧
      (xdpFirewall kernel cpu frame maps).acts = [] := by
  rw [xdpFirewall]
  dsimp only
  by_cases short : frame.length < Frame.ethhdrSize
  · simp [short]
  · by_cases shortIp : frame.length < Frame.ethhdrSize + Frame.iphdrSize
    · cases ip : frame.isIp with
      | false => simp [short]
      | true => simp [short, shortIp]
    · rcases ignored with ⟨⟨ip, -⟩, listed⟩ | notIp | tooShort | ⟨ip, tooShort | ⟨tcp, tooShort⟩⟩
      · simp [short, shortIp, ip, listed]
      · simp [short, notIp]
      · exact absurd tooShort short
      · exact absurd tooShort shortIp
      · by_cases listed : maps.blacklist.lookup frame.saddr = some 1
        · simp [short, shortIp, ip, listed]
        · simp [short, shortIp, ip, listed, tcp, tooShort]

/-- No frame changes the entry of a source other than its own. -/
theorem xdpFirewall_other_entries {s : UInt32} (other : s ≠ frame.saddr) :
    (xdpFirewall kernel cpu frame maps).maps.flowStats.lookup s = maps.flowStats.lookup s ∧
      (xdpFirewall kernel cpu frame maps).maps.synCounter.lookup s = maps.synCounter.lookup s ∧
      (xdpFirewall kernel cpu frame maps).maps.portScanMap.lookup s =
        maps.portScanMap.lookup s := by
  rw [xdpFirewall]
  dsimp only
  split_ifs with short notIp shortIp listed tcp shortTcp pure syn syn
  all_goals refine ⟨?_, ?_, ?_⟩
  all_goals first
    | rfl
    | exact updateFlowStats_of_ne other
    | exact checkSynFlood_of_ne kernel cpu _ _ other
    | exact checkPortScan_of_ne kernel cpu _ _ _ other

end Handler

end EbpfNids.DataPlane
