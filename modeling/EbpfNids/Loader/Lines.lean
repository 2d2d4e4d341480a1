import EbpfNids.Loader.FlowCache
import EbpfNids.Net.Address

/-!
# The lines that the loader sends

`handle_alert` and `report_flow_rate` print an alert event and a flow rate as a
JSON object and a newline, into a buffer of 512 bytes. The widest values fit
(`length_pieces_lt`), so nothing is cut off (`eventLine_eq_flatten`).
-/

set_option autoImplicit false

namespace EbpfNids.Loader

open Library Library.Decimal EbpfNids.DataPlane EbpfNids.Net

/-- `snprintf` of some pieces: what fits before the terminating byte. -/
def snprintf (size : ℕ) (pieces : List Text) : Text := pieces.flatten.take (size - 1)

/-- `inet_ntop` of a word in memory: its lowest byte comes first. -/
def inetNtop (addr : UInt32) : Text := inetNtoa (Quad.ofLe addr)

def alertTypeToString (type : UInt8) : Text :=
  match type with
  | 1 => text "syn_flood"
  | 2 => text "port_scan"
  | _ => text "unknown"

theorem alertTypeToString_eq (type : UInt8) :
    alertTypeToString type =
      if type = 1 then text "syn_flood" else if type = 2 then text "port_scan"
      else text "unknown" := by
  rw [alertTypeToString.eq_def]
  split
  · rfl
  · rfl
  · rename_i other other'
    rw [if_neg other, if_neg other']

/-- What `report_flow_rate` prints. -/
@[ext]
structure FlowRate where
  ip : UInt32
  pps : UInt64
  bytesPerSec : UInt64
  totalPkts : UInt64
  totalBytes : UInt64
  timestamp : Int64
deriving DecidableEq, Repr

def Report.flowRate (r : Report) : FlowRate :=
  ⟨r.ip, r.pps, r.bps, r.totalPkts, r.totalBytes, r.now⟩

/-- An alert or a flow rate. -/
inductive LoaderEvent where
  | alert (e : AlertEvent)
  | flowRate (f : FlowRate)
deriving DecidableEq, Repr

/-- The format strings, with their values in place. -/
def pieces : LoaderEvent → List Text
  | .alert e =>
      [text "\x7b\"type\":\"alert\",\"src_ip\":\"", inetNtop e.srcIp,
        text "\",\"dst_ip\":\"", inetNtop e.dstIp,
        text "\",\"alert_type\":", decimal e.alertType.toNat,
        text ",\"alert_name\":\"", alertTypeToString e.alertType,
        text "\",\"timestamp_ns\":", decimal e.timestamp.toNat, text "\x7d\n"]
  | .flowRate f =>
      [text "\x7b\"type\":\"flow_rate\",\"ip\":\"", inetNtop f.ip,
        text "\",\"pps\":", decimal f.pps.toNat,
        text ",\"bytes_per_sec\":", decimal f.bytesPerSec.toNat,
        text ",\"total_pkts\":", decimal f.totalPkts.toNat,
        text ",\"total_bytes\":", decimal f.totalBytes.toNat,
        text ",\"timestamp\":", decimalInt f.timestamp.toInt, text "\x7d\n"]

/-- The line that `broadcast_json_line` is given. -/
def eventLine (ev : LoaderEvent) : Text := snprintf 512 (pieces ev)

/-- `sizeof(struct alert_event)`, with seven bytes of padding before the time. -/
def alertEventSize : ℕ := 24

/-- A record of the ring buffer: the line sent for it, if it is not too short. -/
def handleAlert (data : Option AlertEvent) (dataSz : ℕ) : Option Text :=
  match data with
  | none => none
  | some e => if dataSz < alertEventSize then none else some (eventLine (.alert e))

/-- The line that `report_flow_rate` sends for what it has computed, if it has a
node. -/
def reportLine (report : Option Report) : Option Text :=
  report.map fun r => eventLine (.flowRate r.flowRate)

/-! ## The buffer is large enough -/

theorem length_inetNtop_le (addr : UInt32) : (inetNtop addr).length ≤ 15 := length_inetNtoa_le _

theorem length_alertTypeToString_le (type : UInt8) : (alertTypeToString type).length ≤ 9 := by
  rw [alertTypeToString.eq_def]
  split
  · exact Nat.le_refl 9
  · exact Nat.le_refl 9
  · exact (by decide : 7 ≤ 9)

theorem length_decimal_u64_le (x : UInt64) : (decimal x.toNat).length ≤ 20 :=
  length_decimal_le (by decide) (Nat.lt_trans x.toNat_lt (by decide))

theorem natAbs_toInt_lt (x : Int64) : x.toInt.natAbs < 10 ^ 19 := by
  have := x.le_toInt
  have := x.toInt_lt
  omega

/-- The pieces together, and the terminating byte, fit the buffer. -/
theorem length_pieces_lt (ev : LoaderEvent) : (pieces ev).flatten.length < 512 := by
  cases ev with
  | alert e =>
      have := length_inetNtop_le e.srcIp
      have := length_inetNtop_le e.dstIp
      have := length_decimal_u64_le e.timestamp
      have := length_alertTypeToString_le e.alertType
      have : (decimal e.alertType.toNat).length ≤ 3 :=
        length_decimal_le (by decide) (Nat.lt_trans e.alertType.toNat_lt (by decide))
      simp only [pieces, List.flatten_cons, List.length_append]
      show 26 + (_ + (12 + (_ + (15 + (_ + (15 + (_ + (17 + (_ + (2 + 0)))))))))) < 512
      omega
  | flowRate f =>
      have := length_inetNtop_le f.ip
      have := length_decimal_u64_le f.pps
      have := length_decimal_u64_le f.bytesPerSec
      have := length_decimal_u64_le f.totalPkts
      have := length_decimal_u64_le f.totalBytes
      have := length_decimalInt_le (by decide) (natAbs_toInt_lt f.timestamp)
      simp only [pieces, List.flatten_cons, List.length_append]
      show 26 + (_ + (8 + (_ + (17 + (_ + (14 + (_ + (15 + (_ + (13 + (_ + (2 + 0)))))))))))) < 512
      omega

theorem eventLine_eq_flatten (ev : LoaderEvent) : eventLine ev = (pieces ev).flatten :=
  List.take_of_length_le (Nat.le_of_lt_succ (length_pieces_lt ev))

end EbpfNids.Loader
