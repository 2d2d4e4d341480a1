import EbpfNids.Net.Address
import EbpfNids.DataPlane.Verdicts

/-!
# The blacklist tool and the program it controls

`blacklist_ctl.py` turns an address into the number that its bytes spell from
the high end and stores it as a native word. The data plane looks up the word
that the bytes of the packet are in memory, which on a little-endian host
spells them from the low end. So what is dropped is the byte-reversed address
(`dropped_iff_reverse_wanted`), while `list`, which turns numbers back the way
they came, prints what was added.

The two agree exactly when the addresses added and not deleted since are closed
under reversing their bytes (`blacklist_agrees_iff`).
-/

set_option autoImplicit false

namespace EbpfNids.Control

open Library Library.Runs EbpfNids.Net EbpfNids.DataPlane

/-! ## The tool -/

/-- How a command ends. -/
inductive Ending where
  | returned
  | exit (code : ℕ)
  | osError
  | tableFull
deriving DecidableEq, Repr

/-- What a command leaves behind. -/
structure CtlResult where
  blacklist : Blacklist
  stdout : List Text
  ending : Ending

def ipToInt (ipStr : Text) : Option UInt32 := (inetAton ipStr).map Quad.be

def intToIp (ipInt : UInt32) : Text := inetNtoa (Quad.ofBe ipInt)

def usage : List Text :=
  [text "用法:", text "  添加黑名单: python3 blacklist_ctl.py add <IP>",
    text "  删除黑名单: python3 blacklist_ctl.py del <IP>",
    text "  查看黑名单: python3 blacklist_ctl.py list"]

/-- `blacklist[blacklist.Key(ip_int)] = blacklist.Leaf(1)`, which raises when
the map does not take the entry. -/
def add (ipStr : Text) (blacklist : Blacklist) : CtlResult :=
  match ipToInt ipStr with
  | none => ⟨blacklist, [], .osError⟩
  | some ipInt =>
      match blacklist.update ipInt 1 with
      | none => ⟨blacklist, [], .tableFull⟩
      | some stored =>
          ⟨stored, [text "✅ 已将 " ++ ipStr ++ text " 加入黑名单"], .returned⟩

/-- `del blacklist[blacklist.Key(ip_int)]`, whose `KeyError` is caught. -/
def del (ipStr : Text) (blacklist : Blacklist) : CtlResult :=
  match ipToInt ipStr with
  | none => ⟨blacklist, [], .osError⟩
  | some ipInt =>
      if (blacklist.lookup ipInt).isSome then
        ⟨blacklist.erase ipInt, [text "✅ 已将 " ++ ipStr ++ text " 从黑名单移除"], .returned⟩
      else ⟨blacklist, [text "⚠️ " ++ ipStr ++ text " 不在黑名单中"], .returned⟩

def listHeading : Text := text "📋 当前黑名单:"

def listLine (ipStr : Text) : Text := text "  ❌ " ++ ipStr

def listEmpty : Text := text "  (空)"

def list (blacklist : Blacklist) : CtlResult :=
  let lines := blacklist.keys.map fun key => listLine (intToIp key)
  ⟨blacklist, listHeading :: (lines ++ if lines.length = 0 then [listEmpty] else []), .returned⟩

/-- The script, with its arguments. -/
def main (argv : List Text) (blacklist : Blacklist) : CtlResult :=
  match argv with
  | _ :: cmd :: args =>
      if cmd = text "add" then
        match args with
        | ipStr :: _ => add ipStr blacklist
        | [] => ⟨blacklist, [text "请指定要添加的 IP"], .exit 1⟩
      else if cmd = text "del" then
        match args with
        | ipStr :: _ => del ipStr blacklist
        | [] => ⟨blacklist, [text "请指定要删除的 IP"], .exit 1⟩
      else if cmd = text "list" then list blacklist
      else ⟨blacklist, [text "未知命令: " ++ cmd], .returned⟩
  | _ => ⟨blacklist, usage, .exit 1⟩

/-! ## The plain filter -/

/-- `xdp_blacklist_filter`, which only looks the source up. -/
def xdpBlacklistFilter (frame : Frame) (blacklist : Blacklist) : Verdict :=
  if frame.length < Frame.ethhdrSize then .pass
  else if !frame.isIp then .pass
  else if frame.length < Frame.ethhdrSize + Frame.iphdrSize then .pass
  else if blacklist.lookup frame.saddr = some 1 then .drop
  else .pass

theorem xdpBlacklistFilter_verdict (frame : Frame) (blacklist : Blacklist) :
    xdpBlacklistFilter frame blacklist = if Blocked blacklist frame then .drop else .pass := by
  by_cases blocked : Blocked blacklist frame
  · obtain ⟨⟨ip, complete⟩, listed⟩ := blocked
    have long : ¬ frame.length < Frame.ethhdrSize := by omega
    have longIp : ¬ frame.length < Frame.ethhdrSize + Frame.iphdrSize := by omega
    simp [xdpBlacklistFilter, long, longIp, ip, listed, Blocked, Frame.HasIpHeader, complete]
  · rw [if_neg blocked, xdpBlacklistFilter]
    split_ifs with short notIp shortIp listed
    all_goals try rfl
    exact absurd ⟨⟨by simpa using notIp, by omega⟩, listed⟩ blocked

/-- The addresses whose frames the data plane drops. -/
def dropped (blacklist : Blacklist) : Set Quad := {q | blacklist.lookup q.le = some 1}

/-- Both programs drop a frame when it has complete Ethernet and IPv4 headers
and the source address field holds a dropped address. -/
theorem drops_iff (kernel : Kernel) (cpu : Cpu) (frame : Frame) (maps : Maps) :
    ((xdpFirewall kernel cpu frame maps).verdict = .drop ↔
        frame.isIp = true ∧ Frame.ethhdrSize + Frame.iphdrSize ≤ frame.length ∧
          frame.quadAt 26 ∈ dropped maps.blacklist) ∧
      xdpBlacklistFilter frame maps.blacklist = (xdpFirewall kernel cpu frame maps).verdict := by
  rw [xdpFirewall_verdict, xdpBlacklistFilter_verdict]
  refine ⟨?_, rfl⟩
  split
  · rename_i blocked
    exact iff_of_true rfl ⟨blocked.1.1, blocked.1.2, blocked.2⟩
  · rename_i allowed
    refine iff_of_false Verdict.noConfusion ?_
    rintro ⟨ip, complete, listed⟩
    exact allowed ⟨⟨ip, complete⟩, listed⟩

/-- **Monitoring never changes filtering.** The handler gives a frame the
verdict of the plain filter, which is to drop it exactly when it is `Blocked`.
It leaves `blacklist` alone. It changes nothing for a frame that it drops, that
is not IPv4 or that is too short for its headers, and for a frame that it
passes it changes only the entries of the frame's source. -/
theorem monitoring_keeps_filtering (kernel : Kernel) (cpu : Cpu) (frame : Frame) (maps : Maps) :
    let outcome := xdpFirewall kernel cpu frame maps
    outcome.verdict = xdpBlacklistFilter frame maps.blacklist ∧
      (outcome.verdict = .drop ↔
        frame.HasIpHeader ∧ maps.blacklist.lookup frame.saddr = some 1) ∧
      outcome.maps.blacklist = maps.blacklist ∧
      (outcome.verdict = .drop ∨ frame.isIp = false ∨ frame.TooShort →
        outcome.maps = maps ∧ outcome.acts = []) ∧
      (outcome.verdict = .pass → ∀ s, s ≠ frame.saddr →
        outcome.maps.flowStats.lookup s = maps.flowStats.lookup s ∧
          outcome.maps.synCounter.lookup s = maps.synCounter.lookup s ∧
          outcome.maps.portScanMap.lookup s = maps.portScanMap.lookup s) := by
  intro outcome
  have verdict : outcome.verdict = if Blocked maps.blacklist frame then .drop else .pass :=
    xdpFirewall_verdict kernel cpu frame maps
  have drops : outcome.verdict = .drop ↔ Blocked maps.blacklist frame := by
    rw [verdict]
    split
    · rename_i blocked
      exact iff_of_true rfl blocked
    · rename_i allowed
      exact iff_of_false Verdict.noConfusion allowed
  refine ⟨?_, drops, ?_, ?_, ?_⟩
  · rw [verdict, xdpBlacklistFilter_verdict]
  · exact xdpFirewall_blacklist kernel cpu frame maps
  · intro ignored
    exact xdpFirewall_untouched kernel cpu frame maps (ignored.imp_left drops.mp)
  · intro _ s other
    exact xdpFirewall_other_entries kernel cpu frame maps other

/-! ## Runs of the tool -/

/-- A command that changes the blacklist, with the address it names. -/
inductive Command where
  | add (q : Quad)
  | del (q : Quad)
deriving DecidableEq, Repr

def Command.argv : Command → List Text
  | .add q => [text "blacklist_ctl.py", text "add", inetNtoa q]
  | .del q => [text "blacklist_ctl.py", text "del", inetNtoa q]

def run (blacklist : Blacklist) (command : Command) : Blacklist :=
  (main command.argv blacklist).blacklist

/-- What a command asks for. A new address is refused while the map is full. -/
def want (wanted : Finset Quad) : Command → Finset Quad
  | .add q => if q ∈ wanted ∨ wanted.card < blacklistSize then insert q wanted else wanted
  | .del q => wanted.erase q

/-- The addresses added and not deleted since. -/
def wanted (commands : List Command) : Finset Quad := commands.foldl want ∅

/-- The map holds 1 for the numbers of the addresses of a set, and nothing else. -/
def Represents (wanted : Finset Quad) (blacklist : Blacklist) : Prop :=
  ∀ x, blacklist.lookup x = if Quad.ofBe x ∈ wanted then some 1 else none

theorem ipToInt_inetNtoa (q : Quad) : ipToInt (inetNtoa q) = some q.be := by
  rw [ipToInt, inetAton_inetNtoa, Option.map_some]

section Represents

variable {S : Finset Quad} {blacklist : Blacklist} (represents : Represents S blacklist)

include represents

theorem Represents.mem_keys (x : UInt32) : x ∈ blacklist.keys ↔ Quad.ofBe x ∈ S := by
  rw [← BoundedMap.lookup_isSome, represents x]
  split
  · rename_i member
    exact iff_of_true rfl member
  · rename_i absent
    exact iff_of_false nofun absent

/-- The addresses of the keys are the set, each once. -/
theorem Represents.keys_addresses :
    (blacklist.keys.map Quad.ofBe).Nodup ∧ (blacklist.keys.map Quad.ofBe).toFinset = S := by
  have injective : Function.Injective Quad.ofBe :=
    Function.LeftInverse.injective Quad.be_ofBe
  refine ⟨blacklist.keys_nodup.map injective, ?_⟩
  ext q
  rw [List.mem_toFinset, List.mem_map]
  constructor
  · rintro ⟨x, key, rfl⟩
    exact (represents.mem_keys x).mp key
  · intro member
    exact ⟨q.be, (represents.mem_keys q.be).mpr (by rwa [Quad.ofBe_be]), Quad.ofBe_be q⟩

theorem Represents.size_eq : blacklist.size = S.card := by
  obtain ⟨nodup, addresses⟩ := represents.keys_addresses
  rw [← addresses, List.toFinset_card_of_nodup nodup, List.length_map]
  rfl

/-- An update of the number of an address inserts it. -/
theorem Represents.update {stored : Blacklist} {q : Quad}
    (taken : blacklist.update q.be 1 = some stored) : Represents (insert q S) stored := by
  intro x
  by_cases same : x = q.be
  · rw [same, BoundedMap.lookup_update_self taken, Quad.ofBe_be,
      if_pos (Finset.mem_insert_self q S)]
  · have different : Quad.ofBe x ≠ q := by
      rintro rfl
      exact same (Quad.be_ofBe x).symm
    rw [BoundedMap.lookup_update_of_ne taken same, represents x]
    simp [different]

theorem Represents.erase (q : Quad) : Represents (S.erase q) (blacklist.erase q.be) := by
  intro x
  by_cases same : x = q.be
  · rw [same, BoundedMap.lookup_erase_self, Quad.ofBe_be, if_neg (Finset.notMem_erase q S)]
  · have different : Quad.ofBe x ≠ q := by
      rintro rfl
      exact same (Quad.be_ofBe x).symm
    rw [BoundedMap.lookup_erase_of_ne same, represents x]
    simp [different]

/-- **Step lemma.** A command does to the map what it asks for. -/
theorem Represents.run (command : Command) :
    Represents (want S command) (run blacklist command) := by
  cases command with
  | add q =>
      have result : Control.run blacklist (.add q) = (add (inetNtoa q) blacklist).blacklist := rfl
      rw [result, add, ipToInt_inetNtoa, want]
      dsimp only
      have room : (blacklist.update q.be 1).isSome ↔ q ∈ S ∨ S.card < blacklistSize := by
        rw [BoundedMap.update_isSome, represents.mem_keys, Quad.ofBe_be, represents.size_eq]
      cases taken : blacklist.update q.be 1 with
      | none =>
          rw [if_neg (mt room.mpr (by simp [taken]))]
          exact represents
      | some stored =>
          rw [if_pos (room.mp (by simp [taken]))]
          exact represents.update taken
  | del q =>
      have result : Control.run blacklist (.del q) = (del (inetNtoa q) blacklist).blacklist := rfl
      rw [result, del, ipToInt_inetNtoa, want]
      dsimp only
      split
      · exact represents.erase q
      · rename_i absent
        have notKey : q ∉ S := by
          rwa [BoundedMap.lookup_isSome, represents.mem_keys, Quad.ofBe_be] at absent
        rwa [Finset.erase_eq_of_notMem notKey]

end Represents

/-- **Run lemma.** After any commands the map holds the addresses added and not
deleted since. -/
theorem represents_wanted (commands : List Command) :
    Represents (wanted commands) (exec run .empty commands) := by
  induction commands using List.reverseRecOn with
  | nil => exact fun _ => rfl
  | append_singleton earlier command ih =>
      rw [wanted, List.foldl_append, exec_append]
      exact ih.run command

/-! ## What is dropped and what is listed -/

/-- The data plane drops the frames whose source is in a set, and no others. -/
def Enforces (blacklist : Blacklist) (S : Finset Quad) : Prop :=
  ∀ kernel cpu frame maps, maps.blacklist = blacklist →
    ((xdpFirewall kernel cpu frame maps).verdict = .drop ↔
      frame.isIp = true ∧ Frame.ethhdrSize + Frame.iphdrSize ≤ frame.length ∧
        frame.quadAt 26 ∈ S)

/-- The lines are those of the addresses of a set, each once in some order, or
the line that says there are none. -/
def Prints (stdout : List Text) (S : Finset Quad) : Prop :=
  ∃ order : List Quad, order.Nodup ∧ order.toFinset = S ∧
    stdout = listHeading ::
      (order.map (fun q => listLine (inetNtoa q)) ++ if S = ∅ then [listEmpty] else [])

/-- What is dropped is the wanted addresses with their bytes reversed. -/
theorem dropped_iff_reverse_wanted {S : Finset Quad} {blacklist : Blacklist}
    (represents : Represents S blacklist) (q : Quad) :
    q ∈ dropped blacklist ↔ q.reverse ∈ S := by
  show blacklist.lookup q.le = some 1 ↔ q.reverse ∈ S
  rw [represents q.le, Quad.ofBe_le]
  split
  · rename_i member
    exact iff_of_true rfl member
  · rename_i absent
    exact iff_of_false nofun absent

theorem enforces_iff {S T : Finset Quad} {blacklist : Blacklist}
    (represents : Represents S blacklist) :
    Enforces blacklist T ↔ ∀ q, q.reverse ∈ S ↔ q ∈ T := by
  constructor
  · intro enforces q
    let maps : Maps := { Maps.empty with blacklist := blacklist }
    have both := (drops_iff (.ready 0) 0 (Frame.ofTcp q q 0 0 0) maps).1.symm.trans
      (enforces (.ready 0) 0 (Frame.ofTcp q q 0 0 0) maps rfl)
    have complete : Frame.ethhdrSize + Frame.iphdrSize ≤ (Frame.ofTcp q q 0 0 0).length := by
      rw [Frame.length_ofTcp]
      decide
    simp only [Frame.isIp_ofTcp, complete, true_and] at both
    rw [← dropped_iff_reverse_wanted represents]
    exact both
  · rintro agree kernel cpu frame maps rfl
    rw [(drops_iff kernel cpu frame maps).1, dropped_iff_reverse_wanted represents, agree]

/-- `list` prints the set. -/
theorem prints_list {S : Finset Quad} {blacklist : Blacklist}
    (represents : Represents S blacklist) :
    Prints (main [text "blacklist_ctl.py", text "list"] blacklist).stdout S := by
  obtain ⟨nodup, addresses⟩ := represents.keys_addresses
  refine ⟨blacklist.keys.map Quad.ofBe, nodup, addresses, ?_⟩
  have result : (main [text "blacklist_ctl.py", text "list"] blacklist).stdout =
      (list blacklist).stdout := rfl
  have empty : blacklist.keys.length = 0 ↔ S = ∅ := by
    rw [← Finset.card_eq_zero, ← represents.size_eq]
    rfl
  rw [result, list, List.map_map, List.length_map]
  dsimp only
  simp only [empty]
  rfl

/-- **When the tool and the data plane agree.** After any commands, the data
plane drops exactly the addresses added and not deleted since, and `list` prints
exactly these, if and only if they are closed under reversing their bytes. -/
theorem blacklist_agrees_iff (commands : List Command) :
    (Enforces (exec run .empty commands) (wanted commands) ∧
        Prints (main [text "blacklist_ctl.py", text "list"] (exec run .empty commands)).stdout
          (wanted commands)) ↔
      ∀ q ∈ wanted commands, q.reverse ∈ wanted commands := by
  have represents := represents_wanted commands
  rw [enforces_iff represents]
  constructor
  · rintro ⟨agree, -⟩ q member
    exact (agree q.reverse).mp (by rwa [Quad.reverse_reverse])
  · intro closed
    refine ⟨fun q => ⟨?_, closed q⟩, prints_list represents⟩
    intro member
    exact Quad.reverse_reverse q ▸ closed q.reverse member

/-- After adding 192.168.1.10 the frames of that address pass, and those of
10.1.168.192 are dropped. -/
theorem blacklist_drops_reversed :
    let maps := { Maps.empty with blacklist := exec run .empty [.add ⟨192, 168, 1, 10⟩] }
    (xdpFirewall (.ready 0) 0 (Frame.ofTcp ⟨192, 168, 1, 10⟩ ⟨10, 0, 0, 2⟩ 0 80 2) maps).verdict =
        .pass ∧
      (xdpFirewall (.ready 0) 0 (Frame.ofTcp ⟨10, 1, 168, 192⟩ ⟨10, 0, 0, 2⟩ 0 80 2) maps).verdict =
        .drop ∧
      ¬ Enforces (exec run .empty [.add ⟨192, 168, 1, 10⟩]) (wanted [.add ⟨192, 168, 1, 10⟩]) := by
  refine ⟨by decide, by decide, ?_⟩
  intro enforces
  have agree := (enforces_iff (represents_wanted [.add ⟨192, 168, 1, 10⟩])).mp enforces
    ⟨192, 168, 1, 10⟩
  exact absurd agree (by decide)

end EbpfNids.Control
