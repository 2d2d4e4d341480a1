import EbpfNids.Library.Endian

/-!
# Frames

A frame is the bytes between `data` and `data_end`. The headers are read at
the offsets of `struct ethhdr`, `struct iphdr` and `struct tcphdr` on a
little-endian host: an address is the word at its place in memory, and a port
is converted to host order.

The Ethernet header is 14 bytes long, and `iphdr` and `tcphdr` are 20 bytes
long, without options.
-/

set_option autoImplicit false

namespace EbpfNids.DataPlane

open Library

/-- The bytes of a frame. -/
abbrev Frame := List UInt8

namespace Frame

def ethhdrSize : ℕ := 14

def iphdrSize : ℕ := 20

def tcphdrSize : ℕ := 20

/-- The byte at an offset. The code reads one only after checking that it is
in the frame. -/
def byteAt (frame : Frame) (offset : ℕ) : UInt8 := frame.getD offset 0

def quadAt (frame : Frame) (offset : ℕ) : Quad :=
  ⟨frame.byteAt offset, frame.byteAt (offset + 1), frame.byteAt (offset + 2),
    frame.byteAt (offset + 3)⟩

/-- `eth->h_proto == htons(ETH_P_IP)`. -/
def isIp (frame : Frame) : Bool := frame.byteAt 12 == 0x08 && frame.byteAt 13 == 0x00

def saddr (frame : Frame) : UInt32 := (frame.quadAt 26).le

def daddr (frame : Frame) : UInt32 := (frame.quadAt 30).le

def protocol (frame : Frame) : UInt8 := frame.byteAt 23

/-! ## The TCP header at an offset -/

/-- `bpf_ntohs(tcp->dest)`. -/
def dest (frame : Frame) (tcp : ℕ) : UInt16 :=
  UInt16.ofNat (256 * (frame.byteAt (tcp + 2)).toNat + (frame.byteAt (tcp + 3)).toNat)

def syn (frame : Frame) (tcp : ℕ) : Bool := (frame.byteAt (tcp + 13)).toNat.testBit 1

def ack (frame : Frame) (tcp : ℕ) : Bool := (frame.byteAt (tcp + 13)).toNat.testBit 4

/-! ## Segments without IP options -/

/-- A frame of 54 bytes: an IPv4 header without options and a TCP header. -/
def ofTcp (src dst : Quad) (portHigh portLow flags : UInt8) : Frame :=
  [0, 0, 0, 0, 0, 0, 0, 0, 0, 0, 0, 0, 0x08, 0x00,
    0x45, 0, 0, 40, 0, 0, 0, 0, 64, 6, 0, 0,
    src.b0, src.b1, src.b2, src.b3, dst.b0, dst.b1, dst.b2, dst.b3,
    0, 0, portHigh, portLow, 0, 0, 0, 0, 0, 0, 0, 0, 0x50, flags, 0, 0, 0, 0, 0, 0]

section OfTcp

variable (src dst : Quad) (portHigh portLow flags : UInt8)

@[simp] theorem length_ofTcp : (ofTcp src dst portHigh portLow flags).length = 54 := rfl

@[simp] theorem isIp_ofTcp : (ofTcp src dst portHigh portLow flags).isIp = true := rfl

@[simp] theorem saddr_ofTcp : (ofTcp src dst portHigh portLow flags).saddr = src.le := rfl

end OfTcp

end Frame

end EbpfNids.DataPlane
