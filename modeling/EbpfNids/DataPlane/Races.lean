import EbpfNids.DataPlane.Accesses

/-!
# Races lose, but never invent

Between the load and the store of a word other CPUs write it, and what they wrote
is then lost. Nothing else happens: what is loaded has been stored, what is
stored is what was loaded and one more execution, and an execution stores each
word once.

That is so as long as a pointer leads to an element of its own source. It may be
stale: the element may have been replaced, deleted, or used again for the same
source. When it has been used again for another source, the handler counts its
packet there (`Current` excludes it).

So in every run of which this is true, at the granularity of single loads and
stores, the counters of a source are those of some of its packets, each counted at
most once, only its own ports are marked in its bitmap, and whoever is accused of a
port scan has sent SYNs to more than twenty of the low ports
(`races_never_invent`). It is true of every run in which no insertion uses an
element again (`current_of_first`).
-/

set_option autoImplicit false

namespace EbpfNids.DataPlane

open Library Library.Runs

/-! ## What a source has sent -/

/-- The low port that an execution for the source passes to `check_port_scan`. -/
def scannedPort (s : UInt32) (e : Execution) : Option ℕ :=
  if e.srcIp = s ∧ e.pc = .scanLookup ∧ e.dstPort.toNat < 1024 then some e.dstPort.toNat
  else none

def portsSent (s : UInt32) (calls : List Execution) : Finset ℕ :=
  (calls.filterMap (scannedPort s)).toFinset

def sizeAt (calls : List Execution) (n : ℕ) : ℕ :=
  ((calls[n]?).map fun e => e.pktSize.toNat).getD 0

/-- The bytes of the executions at some places. -/
def bytesOf (calls : List Execution) (places : Finset ℕ) : ℕ := ∑ n ∈ places, sizeAt calls n

section Sent

variable {s : UInt32} {calls calls' : List Execution}

theorem mem_portsSent {port : ℕ} : port ∈ portsSent s calls ↔
    ∃ e ∈ calls, scannedPort s e = some port := by
  rw [portsSent, List.mem_toFinset, List.mem_filterMap]

theorem portsSent_mono (grown : calls <+: calls') : portsSent s calls ⊆ portsSent s calls' := by
  intro port sent
  obtain ⟨e, member, passes⟩ := mem_portsSent.mp sent
  exact mem_portsSent.mpr ⟨e, grown.subset member, passes⟩

theorem bytesOf_insert {n : ℕ} {places : Finset ℕ} (new : n ∉ places) :
    bytesOf calls (insert n places) = sizeAt calls n + bytesOf calls places :=
  Finset.sum_insert new

theorem sizeAt_eq {n : ℕ} {e : Execution} (there : calls[n]? = some e) :
    sizeAt calls n = e.pktSize.toNat := by
  rw [sizeAt, there]
  rfl

end Sent

/-! ## Elements of the source -/

/-- The bitmap that the next access loads a word of, or stores a mark in. -/
def AccessPc.bitmap : AccessPc → Option ℕ
  | .loadWord bitmap => some bitmap
  | .storeWord bitmap _ => some bitmap
  | .countWord bitmap i _ => if i < 16 then some bitmap else none
  | _ => none

/-- The entry that the next access loads a counter of, or stores one in. -/
def AccessPc.stats : AccessPc → Option ℕ
  | .loadPkts stats => some stats
  | .storePkts stats _ => some stats
  | .loadBytes stats => some stats
  | .storeBytes stats _ => some stats
  | _ => none

/-- The element that the next access counts in is one of its source. Zeros may go
anywhere. -/
structure Accesses.AtOwn (m : Accesses) (a : Access) : Prop where
  bitmap : ∀ bitmap ∈ a.pc.bitmap, m.portScanMap.key bitmap = some a.call.srcIp
  stats : ∀ stats ∈ a.pc.stats, m.flowStats.key stats = some a.call.srcIp

instance (m : Accesses) (a : Access) : Decidable (m.AtOwn a) :=
  decidable_of_iff
    ((∀ bitmap ∈ a.pc.bitmap, m.portScanMap.key bitmap = some a.call.srcIp) ∧
      ∀ stats ∈ a.pc.stats, m.flowStats.key stats = some a.call.srcIp)
    ⟨fun h => ⟨h.1, h.2⟩, fun h => ⟨h.bitmap, h.stats⟩⟩

/-- The access is made in an element of the source. -/
def Current (m : Accesses) : AccessEvent → Prop
  | .advance cpu _ => ∀ a ∈ m.running cpu, m.AtOwn a
  | _ => True

instance (m : Accesses) : (event : AccessEvent) → Decidable (Current m event)
  | .enter _ _ => isTrue trivial
  | .advance cpu _ => inferInstanceAs (Decidable (∀ a ∈ m.running cpu, m.AtOwn a))
  | .deleteFlow _ => isTrue trivial
  | .deleteScan _ => isTrue trivial
  | .setBlacklist _ => isTrue trivial

/-! ## What is counted, and what is marked -/

/-- Until its store of the packet counter. -/
def beforePkts : AccessPc → Bool
  | .loadBytes _ => false
  | .storeBytes _ _ => false
  | _ => true

/-- Until its store of the byte counter, which is its last access. -/
def beforeBytes : AccessPc → Bool := fun _ => true

/-- The execution at this place is running, and not yet past a point. -/
def Pending (before : AccessPc → Bool) (m : Accesses) (n : ℕ) : Prop :=
  ∃ cpu a, m.running cpu = some a ∧ a.id = n ∧ before a.pc = true

/-- These are executions for the source, which are past the point. -/
def Done (before : AccessPc → Bool) (m : Accesses) (s : UInt32) (places : Finset ℕ) : Prop :=
  ∀ n ∈ places, (∃ e, m.begun[n]? = some e ∧ e.srcIp = s) ∧ ¬ Pending before m n

/-- Each counter is that of some executions. They need not be the same for both. -/
def Counted (m : Accesses) (s : UInt32) (stats : FlowStats) : Prop :=
  ∃ counted weighed, Done beforePkts m s counted ∧ Done beforeBytes m s weighed ∧
    stats.pktCount = UInt64.ofNat counted.card ∧
    stats.byteCount = UInt64.ofNat (bytesOf m.begun weighed)

/-- The bits of a word are ports that the source has sent to. -/
def MarkedWord (m : Accesses) (s : UInt32) (i : ℕ) (word : BitVec 64) : Prop :=
  ∀ b < 64, word.getLsbD b = true → i * 64 + b ∈ portsSent s m.begun

def Marked (m : Accesses) (s : UInt32) (words : PortBitmap) : Prop :=
  ∀ i : Fin 16, MarkedWord m s i (words i)

/-- What an execution has loaded from elements of its source. -/
def Held (m : Accesses) (a : Access) : Prop :=
  match a.pc with
  | .scanLookup => a.call.pc = .scanLookup
  | .scanUpdate => a.call.pc = .scanLookup
  | .scanRelookup => a.call.pc = .scanLookup
  | .loadWord _ => a.call.pc = .scanLookup
  | .storeWord _ word =>
      a.call.pc = .scanLookup ∧ MarkedWord m a.call.srcIp (a.call.dstPort.toNat / 64) word
  | .countWord _ i totalPorts =>
      totalPorts ≤ ((portsSent a.call.srcIp m.begun).filter (· < i * 64)).card
  | .output _ => portScanThreshold < (portsSent a.call.srcIp m.begun).card
  | .clearWord _ _ => True
  | .flowLookup => True
  | .flowUpdate => True
  | .loadPkts _ => True
  | .storePkts _ pktCount =>
      ∃ counted, Done beforePkts m a.call.srcIp counted ∧
        pktCount = UInt64.ofNat counted.card
  | .loadBytes _ => True
  | .storeBytes _ byteCount =>
      ∃ weighed, Done beforeBytes m a.call.srcIp weighed ∧
        byteCount = UInt64.ofNat (bytesOf m.begun weighed)

/-- Nothing is invented. -/
structure Accesses.Sound (m : Accesses) : Prop where
  flows : m.flowStats.All (Counted m)
  scans : m.portScanMap.All (Marked m)
  held : ∀ cpu a, m.running cpu = some a → Held m a
  begun : ∀ cpu a, m.running cpu = some a → m.begun[a.id]? = some a.call
  apart : ∀ cpu cpu' a a', m.running cpu = some a → m.running cpu' = some a' → a.id = a'.id →
    cpu = cpu'

/-! ## What stays when others go on -/

/-- More executions may have begun, and those of before have gone on. -/
structure Later (m m' : Accesses) : Prop where
  begun : m.begun <+: m'.begun
  pkts : ∀ n < m.begun.length, Pending beforePkts m' n → Pending beforePkts m n
  bytes : ∀ n < m.begun.length, Pending beforeBytes m' n → Pending beforeBytes m n

section Later

variable {m m' : Accesses} {s : UInt32}

theorem getElem?_of_isPrefix {calls calls' : List Execution} (grown : calls <+: calls') {n : ℕ}
    {e : Execution} (there : calls[n]? = some e) : calls'[n]? = some e := by
  obtain ⟨more, rfl⟩ := grown
  obtain ⟨inside, -⟩ := List.getElem?_eq_some_iff.mp there
  rwa [List.getElem?_append_left inside]

theorem Done.mono {before : AccessPc → Bool} {places : Finset ℕ} (done : Done before m s places)
    (begun : m.begun <+: m'.begun)
    (on : ∀ n < m.begun.length, Pending before m' n → Pending before m n) :
    Done before m' s places := by
  intro n member
  obtain ⟨⟨e, there, own⟩, past⟩ := done n member
  obtain ⟨inside, -⟩ := List.getElem?_eq_some_iff.mp there
  exact ⟨⟨e, getElem?_of_isPrefix begun there, own⟩, fun pending => past (on n inside pending)⟩

theorem Done.bytesOf {before : AccessPc → Bool} {places : Finset ℕ} (done : Done before m s places)
    (begun : m.begun <+: m'.begun) : bytesOf m'.begun places = bytesOf m.begun places := by
  refine Finset.sum_congr rfl fun n member => ?_
  obtain ⟨⟨e, there, -⟩, -⟩ := done n member
  rw [sizeAt_eq there, sizeAt_eq (getElem?_of_isPrefix begun there)]

namespace Later

variable (later : Later m m')

include later

theorem counted {stats : FlowStats} (counted : Counted m s stats) : Counted m' s stats := by
  obtain ⟨pkts, bytes, donePkts, doneBytes, pktCount, byteCount⟩ := counted
  refine ⟨pkts, bytes, donePkts.mono later.begun later.pkts,
    doneBytes.mono later.begun later.bytes, pktCount, ?_⟩
  rw [doneBytes.bytesOf later.begun]
  exact byteCount

theorem markedWord {i : ℕ} {word : BitVec 64} (marked : MarkedWord m s i word) :
    MarkedWord m' s i word :=
  fun b inWord set => portsSent_mono later.begun (marked b inWord set)

theorem marked {words : PortBitmap} (marked : Marked m s words) : Marked m' s words :=
  fun i => later.markedWord (marked i)

/-- What is held stays right. -/
theorem held {a : Access} (held : Held m a) : Held m' a := by
  have sent := portsSent_mono (s := a.call.srcIp) later.begun
  rw [Held.eq_def] at held ⊢
  cases pc : a.pc with
  | scanLookup => rwa [pc] at held
  | scanUpdate => rwa [pc] at held
  | scanRelookup => rwa [pc] at held
  | loadWord bitmap => rwa [pc] at held
  | storeWord bitmap word =>
      rw [pc] at held
      exact ⟨held.1, later.markedWord held.2⟩
  | countWord bitmap i totalPorts =>
      rw [pc] at held
      exact held.trans (Finset.card_le_card (Finset.filter_subset_filter _ sent))
  | output bitmap =>
      rw [pc] at held
      exact held.trans_le (Finset.card_le_card sent)
  | clearWord bitmap i => trivial
  | flowLookup => trivial
  | flowUpdate => trivial
  | loadPkts stats => trivial
  | storePkts stats pktCount =>
      rw [pc] at held
      obtain ⟨counted, done, same⟩ := held
      exact ⟨counted, done.mono later.begun later.pkts, same⟩
  | loadBytes stats => trivial
  | storeBytes stats byteCount =>
      rw [pc] at held
      obtain ⟨weighed, done, same⟩ := held
      refine ⟨weighed, done.mono later.begun later.bytes, ?_⟩
      rw [done.bytesOf later.begun]
      exact same

end Later

end Later

/-! ## One execution goes on -/

/-- What the execution of a CPU has become, over maps that may have changed. -/
def Accesses.moved (m : Accesses) (cpu : Cpu) (flowStats : SharedMap UInt32 FlowStats)
    (portScanMap : SharedMap UInt32 PortBitmap) (next : Option Access) : Accesses :=
  { m with
    flowStats := flowStats
    portScanMap := portScanMap
    running := Function.update m.running cpu next }

/-- The next access of an execution, or none. It does not go back. -/
def GoesOn (a : Access) (next : Option Access) : Prop :=
  ∀ a', next = some a' → a'.call = a.call ∧ a'.id = a.id ∧
    (beforePkts a'.pc = true → beforePkts a.pc = true)

theorem goesOn_none (a : Access) : GoesOn a none := fun _ none => by cases none

theorem goesOn_some {a : Access} {pc : AccessPc}
    (on : beforePkts pc = true → beforePkts a.pc = true) : GoesOn a (some { a with pc := pc }) := by
  intro a' same
  obtain rfl := Option.some.inj same
  exact ⟨rfl, rfl, on⟩

section Onward

variable {m : Accesses} {cpu : Cpu} {a : Access}
  {flowStats : SharedMap UInt32 FlowStats} {portScanMap : SharedMap UInt32 PortBitmap}
  {next : Option Access}

/-- Who runs afterwards ran before, or is the next access. -/
theorem running_moved {c : Cpu} {b : Access}
    (running : (m.moved cpu flowStats portScanMap next).running c = some b) :
    c = cpu ∧ next = some b ∨ c ≠ cpu ∧ m.running c = some b := by
  change Function.update m.running cpu next c = some b at running
  by_cases here : c = cpu
  · subst here
    rw [Function.update_self] at running
    exact Or.inl ⟨rfl, running⟩
  · rw [Function.update_of_ne here] at running
    exact Or.inr ⟨here, running⟩

theorem later_moved (flowStats : SharedMap UInt32 FlowStats)
    (portScanMap : SharedMap UInt32 PortBitmap) (busy : m.running cpu = some a)
    (goesOn : GoesOn a next) :
    Later m (m.moved cpu flowStats portScanMap next) := by
  have back : ∀ before : AccessPc → Bool,
      (∀ a', next = some a' → before a'.pc = true → before a.pc = true) →
      ∀ n, Pending before (m.moved cpu flowStats portScanMap next) n → Pending before m n := by
    rintro before on n ⟨c, b, running, rfl, early⟩
    rcases running_moved running with ⟨rfl, same⟩ | ⟨-, other⟩
    · exact ⟨c, a, busy, ((goesOn b same).2.1).symm, on b same early⟩
    · exact ⟨c, b, other, rfl, early⟩
  exact ⟨List.prefix_rfl, fun n _ => back _ (fun a' same => (goesOn a' same).2.2) n,
    fun n _ => back _ (fun _ _ _ => rfl) n⟩

/-- The execution is past a point when its next access is. -/
theorem not_pending_moved (sound : m.Sound) (busy : m.running cpu = some a)
    (before : AccessPc → Bool) (past : ∀ a', next = some a' → before a'.pc = false) :
    ¬ Pending before (m.moved cpu flowStats portScanMap next) a.id := by
  rintro ⟨c, b, running, same, early⟩
  rcases running_moved running with ⟨-, now⟩ | ⟨elsewhere, other⟩
  · rw [past b now] at early
    cases early
  · exact elsewhere (sound.apart c cpu b a other busy same)

/-- One more execution is past the point. -/
theorem Done.insert (sound : m.Sound) (busy : m.running cpu = some a)
    {before : AccessPc → Bool} {places : Finset ℕ}
    (early : before a.pc = true) (past : ∀ a', next = some a' → before a'.pc = false)
    (done : Done before m a.call.srcIp places)
    (on : ∀ n < m.begun.length,
      Pending before (m.moved cpu flowStats portScanMap next) n → Pending before m n) :
    a.id ∉ places ∧
      Done before (m.moved cpu flowStats portScanMap next) a.call.srcIp (insert a.id places) := by
  refine ⟨fun member => (done a.id member).2 ⟨cpu, a, busy, rfl, early⟩, ?_⟩
  intro n member
  rcases Finset.mem_insert.mp member with rfl | before_
  · exact ⟨⟨a.call, sound.begun cpu a busy, rfl⟩, not_pending_moved sound busy before past⟩
  · obtain ⟨⟨e, there, own⟩, not⟩ := done n before_
    obtain ⟨inside, -⟩ := List.getElem?_eq_some_iff.mp there
    exact ⟨⟨e, there, own⟩, fun pending => not (on n inside pending)⟩

/-- **An execution goes on**, if the maps and what it holds are in order. -/
theorem Accesses.Sound.moved (sound : m.Sound) (busy : m.running cpu = some a)
    (goesOn : GoesOn a next)
    (flows : flowStats.All (Counted (m.moved cpu flowStats portScanMap next)))
    (scans : portScanMap.All (Marked (m.moved cpu flowStats portScanMap next)))
    (held : ∀ a', next = some a' → Held (m.moved cpu flowStats portScanMap next) a') :
    (m.moved cpu flowStats portScanMap next).Sound := by
  have later := later_moved flowStats portScanMap busy goesOn
  refine ⟨flows, scans, ?_, ?_, ?_⟩
  · intro c b running
    rcases running_moved running with ⟨-, same⟩ | ⟨-, other⟩
    · exact held b same
    · exact later.held (sound.held c b other)
  · intro c b running
    rcases running_moved running with ⟨-, same⟩ | ⟨-, other⟩
    · obtain ⟨call, id, -⟩ := goesOn b same
      rw [call, id]
      exact sound.begun cpu a busy
    · exact sound.begun c b other
  · intro c c' b b' running running' same
    rcases running_moved running with ⟨rfl, isNext⟩ | ⟨-, other⟩
    · rcases running_moved running' with ⟨rfl, -⟩ | ⟨-, other'⟩
      · rfl
      · exact sound.apart c c' a b' busy other' ((goesOn b isNext).2.1.symm.trans same)
    · rcases running_moved running' with ⟨rfl, isNext'⟩ | ⟨-, other'⟩
      · exact sound.apart c c' b a other busy (same.trans (goesOn b' isNext').2.1)
      · exact sound.apart c c' b b' other other' same

/-- An execution goes on over the same maps. -/
theorem Accesses.Sound.goto (sound : m.Sound) (busy : m.running cpu = some a)
    {pc : AccessPc} (on : beforePkts pc = true → beforePkts a.pc = true)
    (held : Held m { a with pc := pc }) : (m.goto cpu a pc).Sound := by
  have goesOn := goesOn_some on
  have later := later_moved m.flowStats m.portScanMap busy goesOn
  refine sound.moved busy goesOn (sound.flows.mono fun _ _ => later.counted)
    (sound.scans.mono fun _ _ => later.marked) ?_
  intro a' same
  obtain rfl := Option.some.inj same
  exact later.held held

end Onward

/-! ## The accesses -/

section Words

variable {m : Accesses} {s : UInt32}

theorem marked_zero (m : Accesses) (s : UInt32) : Marked m s fun _ => 0 := by
  intro i b _ set
  exact absurd set (by simp)

/-- The bits of a word are so many ports. -/
theorem cpop_add_card {i : ℕ} {word : BitVec 64} (marked : MarkedWord m s i word) :
    ((portsSent s m.begun).filter (· < i * 64)).card + word.cpop.toNat ≤
      ((portsSent s m.begun).filter (· < (i + 1) * 64)).card := by
  set bits := (Finset.range 64).filter fun b => word.getLsbD b = true with definition
  have count : word.cpop.toNat = (bits.image (i * 64 + ·)).card := by
    rw [Finset.card_image_of_injective _ fun _ _ same => Nat.add_left_cancel same, definition,
      Finset.card_filter, BitTable.toNat_cpop_eq_sum]
    refine Finset.sum_congr rfl fun b _ => ?_
    cases word.getLsbD b with
    | true => rfl
    | false => rfl
  have apart : Disjoint ((portsSent s m.begun).filter (· < i * 64)) (bits.image (i * 64 + ·)) := by
    rw [Finset.disjoint_left]
    intro port before inWord
    obtain ⟨b, -, rfl⟩ := Finset.mem_image.mp inWord
    have := (Finset.mem_filter.mp before).2
    omega
  rw [count, ← Finset.card_union_of_disjoint apart]
  apply Finset.card_le_card
  intro port member
  rcases Finset.mem_union.mp member with before | inWord
  · obtain ⟨sent, below⟩ := Finset.mem_filter.mp before
    exact Finset.mem_filter.mpr ⟨sent, by omega⟩
  · obtain ⟨b, isBit, rfl⟩ := Finset.mem_image.mp inWord
    rw [definition, Finset.mem_filter, Finset.mem_range] at isBit
    exact Finset.mem_filter.mpr ⟨marked b isBit.1 isBit.2, by omega⟩

/-- A store of the word of a port that the source has sent to. -/
theorem Marked.stored {a : Access} {word : BitVec 64} {words : PortBitmap}
    (marked : Marked m a.call.srcIp words) (begun : a.call ∈ m.begun)
    (scans : a.call.pc = .scanLookup)
    (loaded : MarkedWord m a.call.srcIp (a.call.dstPort.toNat / 64) word) :
    Marked m a.call.srcIp (a.stored word words) := by
  rw [Access.stored]
  by_cases low : a.call.dstPort.toNat < 1024
  · rw [dif_pos low]
    intro i
    by_cases here : i = wordIdx low
    · subst here
      intro b inWord set
      rw [Function.update_self, BitVec.getLsbD_or, Bool.or_eq_true] at set
      rcases set with before | bit
      · exact loaded b inWord before
      · rw [BitTable.getLsbD_one_shiftLeft inWord, decide_eq_true_eq] at bit
        rw [bit, Nat.div_add_mod']
        exact mem_portsSent.mpr ⟨a.call, begun, if_pos ⟨rfl, scans, low⟩⟩
    · rw [Function.update_of_ne here]
      exact marked i
  · rw [dif_neg low]
    exact marked

end Words

section Advance

variable {m : Accesses} {cpu : Cpu} {a : Access}

theorem Accesses.Sound.mem_begun (sound : m.Sound) (busy : m.running cpu = some a) :
    a.call ∈ m.begun :=
  List.mem_of_getElem? (sound.begun cpu a busy)

/-- What a pointer leads to. -/
theorem Accesses.Sound.bitmapAt (sound : m.Sound) {bitmap : ℕ} {s : UInt32}
    (owns : m.portScanMap.key bitmap = some s) : Marked m s (m.bitmapAt bitmap) := by
  rw [Accesses.bitmapAt]
  cases found : m.portScanMap.read bitmap with
  | none => exact marked_zero m s
  | some words => exact sound.scans.read owns found

theorem Accesses.Sound.statsAt (sound : m.Sound) {stats : ℕ} {s : UInt32}
    (owns : m.flowStats.key stats = some s) : Counted m s (m.statsAt stats) := by
  rw [Accesses.statsAt]
  cases found : m.flowStats.read stats with
  | none =>
      exact ⟨∅, ∅, fun _ member => absurd member (Finset.notMem_empty _),
        fun _ member => absurd member (Finset.notMem_empty _), rfl, rfl⟩
  | some value => exact sound.flows.read owns found

/-- Where `check_port_scan` goes on with a bitmap. -/
theorem Accesses.Sound.onBitmap (sound : m.Sound) (busy : m.running cpu = some a)
    (early : beforePkts a.pc = true) (scans : a.call.pc = .scanLookup) (bitmap : ℕ) :
    (m.goto cpu a (a.onBitmap bitmap)).Sound := by
  rw [Access.onBitmap]
  by_cases low : a.call.dstPort.toNat < 1024
  · rw [if_pos low]
    exact sound.goto busy (fun _ => early) scans
  · rw [if_neg low]
    exact sound.goto busy (fun _ => early) trivial

/-- The store of a marked word. -/
theorem Accesses.Sound.storeWord (sound : m.Sound) (busy : m.running cpu = some a)
    {bitmap : ℕ} {word : BitVec 64} (pc : a.pc = .storeWord bitmap word)
    (owns : m.portScanMap.key bitmap = some a.call.srcIp) :
    ((m.setScan (m.portScanMap.modify bitmap (a.stored word))).goto cpu a
      (.countWord bitmap 0 0)).Sound := by
  have held := sound.held cpu a busy
  rw [Held.eq_def, pc] at held
  obtain ⟨scans, loaded⟩ := held
  have goesOn : GoesOn a (some { a with pc := .countWord bitmap 0 0 }) :=
    goesOn_some fun _ => by rw [pc]; rfl
  have later := later_moved m.flowStats (m.portScanMap.modify bitmap (a.stored word)) busy goesOn
  refine sound.moved busy goesOn (sound.flows.mono fun _ _ => later.counted) ?_ ?_
  · refine (sound.scans.mono fun _ _ => later.marked).modify fun s own words marked => ?_
    obtain rfl := Option.some.inj (own.symm.trans owns)
    exact marked.stored (sound.mem_begun busy) scans (later.markedWord loaded)
  · intro a' same
    obtain rfl := Option.some.inj same
    exact Nat.zero_le _

/-- The store of a zero, wherever it goes. -/
theorem Accesses.Sound.clearWord (sound : m.Sound) (busy : m.running cpu = some a)
    {bitmap i : ℕ} (more : i < 16) (pc : a.pc = .clearWord bitmap i) :
    ((m.setScan (m.portScanMap.modify bitmap fun words =>
      Function.update words ⟨i, more⟩ 0)).goto cpu a (.clearWord bitmap (i + 1))).Sound := by
  have goesOn : GoesOn a (some { a with pc := .clearWord bitmap (i + 1) }) :=
    goesOn_some fun _ => by rw [pc]; rfl
  have later := later_moved m.flowStats
    (m.portScanMap.modify bitmap fun words => Function.update words ⟨i, more⟩ 0) busy goesOn
  refine sound.moved busy goesOn (sound.flows.mono fun _ _ => later.counted) ?_ ?_
  · refine (sound.scans.mono fun _ _ => later.marked).modify fun s _ words marked j => ?_
    by_cases here : j = ⟨i, more⟩
    · subst here
      rw [Function.update_self]
      exact marked_zero _ _ ⟨i, more⟩
    · rw [Function.update_of_ne here]
      exact marked j
  · intro a' same
    obtain rfl := Option.some.inj same
    trivial

/-- The insertion of an empty bitmap. -/
theorem Accesses.Sound.scanUpdate (sound : m.Sound) (busy : m.running cpu = some a)
    (pc : a.pc = .scanUpdate) (room : Room) :
    ((m.setScan (m.portScanMap.insert a.call.srcIp (fun _ => 0) room)).goto cpu a
      .scanRelookup).Sound := by
  have held := sound.held cpu a busy
  rw [Held.eq_def, pc] at held
  have goesOn : GoesOn a (some { a with pc := .scanRelookup }) :=
    goesOn_some fun _ => by rw [pc]; rfl
  have later := later_moved m.flowStats
    (m.portScanMap.insert a.call.srcIp (fun _ => 0) room) busy goesOn
  refine sound.moved busy goesOn (sound.flows.mono fun _ _ => later.counted) ?_ ?_
  · exact (sound.scans.mono fun _ _ => later.marked).insert (marked_zero _ _) room
  · intro a' same
    obtain rfl := Option.some.inj same
    exact held

/-- The store of the packet counter. -/
theorem Accesses.Sound.storePkts (sound : m.Sound) (busy : m.running cpu = some a)
    {stats : ℕ} {pktCount : UInt64} (pc : a.pc = .storePkts stats pktCount)
    (owns : m.flowStats.key stats = some a.call.srcIp) :
    ((m.setFlow (m.flowStats.modify stats fun value =>
      { value with pktCount := pktCount + 1 })).goto cpu a (.loadBytes stats)).Sound := by
  have held := sound.held cpu a busy
  rw [Held.eq_def, pc] at held
  obtain ⟨counted, done, rfl⟩ := held
  have goesOn : GoesOn a (some { a with pc := .loadBytes stats }) :=
    goesOn_some fun late => by cases late
  have later := later_moved (m.flowStats.modify stats fun value =>
    { value with pktCount := UInt64.ofNat counted.card + 1 }) m.portScanMap busy goesOn
  have past : ∀ a', some { a with pc := .loadBytes stats } = some a' →
      beforePkts a'.pc = false := by
    intro a' same
    obtain rfl := Option.some.inj same
    rfl
  obtain ⟨new, more⟩ := done.insert sound busy (by rw [pc]; rfl) past later.pkts
  refine sound.moved busy goesOn ?_ (sound.scans.mono fun _ _ => later.marked) ?_
  · refine (sound.flows.mono fun _ _ => later.counted).modify fun s own value known => ?_
    obtain rfl := Option.some.inj (own.symm.trans owns)
    obtain ⟨-, weighed, -, doneBytes, -, byteCount⟩ := known
    refine ⟨insert a.id counted, weighed, more, doneBytes, ?_, byteCount⟩
    rw [Finset.card_insert_of_notMem new, UInt64.ofNat_add]
    rfl
  · intro a' same
    obtain rfl := Option.some.inj same
    trivial

/-- The store of the byte counter, with which the execution ends. -/
theorem Accesses.Sound.storeBytes (sound : m.Sound) (busy : m.running cpu = some a)
    {stats : ℕ} {byteCount : UInt64} (pc : a.pc = .storeBytes stats byteCount)
    (owns : m.flowStats.key stats = some a.call.srcIp) :
    ((m.setFlow (m.flowStats.modify stats fun value =>
      { value with byteCount := byteCount + a.call.pktSize })).finish cpu).Sound := by
  have held := sound.held cpu a busy
  rw [Held.eq_def, pc] at held
  obtain ⟨weighed, done, rfl⟩ := held
  have goesOn := goesOn_none a
  have later := later_moved (m.flowStats.modify stats fun value =>
    { value with byteCount := UInt64.ofNat (bytesOf m.begun weighed) + a.call.pktSize })
    m.portScanMap busy goesOn
  obtain ⟨new, more⟩ := done.insert sound busy rfl (fun a' none => by cases none) later.bytes
  refine sound.moved busy goesOn ?_ (sound.scans.mono fun _ _ => later.marked)
    fun a' none => by cases none
  refine (sound.flows.mono fun _ _ => later.counted).modify fun s own value known => ?_
  obtain rfl := Option.some.inj (own.symm.trans owns)
  obtain ⟨counted, -, donePkts, -, pktCount, -⟩ := known
  refine ⟨counted, insert a.id weighed, donePkts, more, pktCount, ?_⟩
  change _ = UInt64.ofNat (bytesOf m.begun (insert a.id weighed))
  rw [bytesOf_insert new, sizeAt_eq (sound.begun cpu a busy), UInt64.ofNat_add,
    UInt64.ofNat_toNat, UInt64.add_comm]

/-- A first entry for the source, or one in the place of another. -/
theorem Accesses.Sound.flowUpdate (sound : m.Sound) (busy : m.running cpu = some a)
    (room : Room) :
    ((m.setFlow (m.flowStats.insert a.call.srcIp ⟨1, a.call.pktSize⟩ room)).finish cpu).Sound := by
  have goesOn := goesOn_none a
  have later := later_moved (m.flowStats.insert a.call.srcIp ⟨1, a.call.pktSize⟩ room)
    m.portScanMap busy goesOn
  refine sound.moved busy goesOn ?_ (sound.scans.mono fun _ _ => later.marked)
    fun a' none => by cases none
  refine (sound.flows.mono fun _ _ => later.counted).insert ?_ room
  have alone : ∀ before : AccessPc → Bool, Done before
      (m.moved cpu (m.flowStats.insert a.call.srcIp ⟨1, a.call.pktSize⟩ room) m.portScanMap none)
      a.call.srcIp {a.id} := by
    intro before n member
    obtain rfl := Finset.mem_singleton.mp member
    exact ⟨⟨a.call, sound.begun cpu a busy, rfl⟩,
      not_pending_moved sound busy before fun a' none => by cases none⟩
  refine ⟨{a.id}, {a.id}, alone _, alone _, rfl, ?_⟩
  change _ = UInt64.ofNat (bytesOf m.begun {a.id})
  rw [bytesOf, Finset.sum_singleton, sizeAt_eq (sound.begun cpu a busy), UInt64.ofNat_toNat]

/-- **Step lemma.** -/
theorem Accesses.Sound.advance (sound : m.Sound) (busy : m.running cpu = some a)
    (current : m.AtOwn a) (room : Room) : (m.advance cpu a room).Sound := by
  have held := sound.held cpu a busy
  have onBitmap := current.bitmap
  have onStats := current.stats
  rw [Held.eq_def] at held
  rw [Accesses.advance.eq_def]
  cases pc : a.pc with
  | scanLookup =>
      rw [pc] at held
      dsimp only
      cases m.portScanMap.index a.call.srcIp with
      | some bitmap => exact sound.onBitmap busy (by rw [pc]; rfl) held bitmap
      | none => exact sound.goto busy (fun _ => by rw [pc]; rfl) held
  | scanUpdate => exact sound.scanUpdate busy pc room
  | scanRelookup =>
      rw [pc] at held
      dsimp only
      cases m.portScanMap.index a.call.srcIp with
      | some bitmap => exact sound.onBitmap busy (by rw [pc]; rfl) held bitmap
      | none => exact sound.goto busy (fun _ => by rw [pc]; rfl) trivial
  | loadWord bitmap =>
      rw [pc] at held onBitmap
      refine sound.goto busy (fun _ => by rw [pc]; rfl) ⟨held, ?_⟩
      have marked := sound.bitmapAt (onBitmap bitmap rfl)
      dsimp only
      rw [Access.loaded]
      split
      · rename_i low
        exact marked (wordIdx low)
      · exact fun b _ set => absurd set (by simp)
  | storeWord bitmap word =>
      rw [pc] at onBitmap
      exact sound.storeWord busy pc (onBitmap bitmap rfl)
  | countWord bitmap i totalPorts =>
      rw [pc] at held onBitmap
      dsimp only
      split
      · rename_i more
        refine sound.goto busy (fun _ => by rw [pc]; rfl) ?_
        have word := cpop_add_card (sound.bitmapAt (onBitmap bitmap (if_pos more)) ⟨i, more⟩)
        exact (Nat.add_le_add_right held _).trans word
      · rw [Access.onCount]
        split
        · rename_i exceeds
          refine sound.goto busy (fun _ => by rw [pc]; rfl) ?_
          exact (Nat.lt_of_lt_of_le exceeds held).trans_le (Finset.card_filter_le _ _)
        · exact sound.goto busy (fun _ => by rw [pc]; rfl) trivial
  | output bitmap => exact sound.goto busy (fun _ => by rw [pc]; rfl) trivial
  | clearWord bitmap i =>
      dsimp only
      split
      · rename_i more
        exact sound.clearWord busy more pc
      · exact sound.goto busy (fun _ => by rw [pc]; rfl) trivial
  | flowLookup =>
      dsimp only
      cases m.flowStats.index a.call.srcIp with
      | some stats => exact sound.goto busy (fun _ => by rw [pc]; rfl) trivial
      | none => exact sound.goto busy (fun _ => by rw [pc]; rfl) trivial
  | flowUpdate => exact sound.flowUpdate busy room
  | loadPkts stats =>
      rw [pc] at onStats
      obtain ⟨counted, -, done, -, pktCount, -⟩ := sound.statsAt (onStats stats rfl)
      exact sound.goto busy (fun _ => by rw [pc]; rfl) ⟨counted, done, pktCount⟩
  | storePkts stats pktCount =>
      rw [pc] at onStats
      exact sound.storePkts busy pc (onStats stats rfl)
  | loadBytes stats =>
      rw [pc] at onStats
      obtain ⟨-, weighed, -, done, -, byteCount⟩ := sound.statsAt (onStats stats rfl)
      exact sound.goto busy (fun late => by cases late) ⟨weighed, done, byteCount⟩
  | storeBytes stats byteCount =>
      rw [pc] at onStats
      exact sound.storeBytes busy pc (onStats stats rfl)

/-- An execution begins. -/
theorem Accesses.Sound.begin (sound : m.Sound) (cpu : Cpu) (e : Execution) :
    (m.begin cpu e).Sound := by
  set pc := if e.pc = .scanLookup then AccessPc.scanLookup else .flowLookup with definition
  have running : ∀ c b, (m.begin cpu e).running c = some b →
      c = cpu ∧ b = ⟨e, m.begun.length, pc⟩ ∨ c ≠ cpu ∧ m.running c = some b := by
    intro c b busy
    change Function.update m.running cpu (some ⟨e, m.begun.length, pc⟩) c = some b at busy
    by_cases here : c = cpu
    · rw [here, Function.update_self] at busy
      exact Or.inl ⟨here, (Option.some.inj busy).symm⟩
    · rw [Function.update_of_ne here] at busy
      exact Or.inr ⟨here, busy⟩
  have earlier : ∀ c b, m.running c = some b → b.id < m.begun.length := by
    intro c b busy
    exact (List.getElem?_eq_some_iff.mp (sound.begun c b busy)).1
  have back : ∀ before, ∀ n < m.begun.length,
      Pending before (m.begin cpu e) n → Pending before m n := by
    rintro before n inside ⟨c, b, busy, rfl, early⟩
    rcases running c b busy with ⟨-, rfl⟩ | ⟨-, other⟩
    · exact absurd inside (Nat.lt_irrefl _)
    · exact ⟨c, b, other, rfl, early⟩
  have later : Later m (m.begin cpu e) := ⟨List.prefix_append _ _, back _, back _⟩
  refine ⟨sound.flows.mono fun _ _ => later.counted, sound.scans.mono fun _ _ => later.marked,
    ?_, ?_, ?_⟩
  · intro c b busy
    rcases running c b busy with ⟨-, rfl⟩ | ⟨-, other⟩
    · rw [Held.eq_def]
      by_cases scan : e.pc = .scanLookup
      · rw [definition, if_pos scan]
        exact scan
      · rw [definition, if_neg scan]
        trivial
    · exact later.held (sound.held c b other)
  · intro c b busy
    rcases running c b busy with ⟨-, rfl⟩ | ⟨-, other⟩
    · exact List.getElem?_concat_length
    · exact getElem?_of_isPrefix later.begun (sound.begun c b other)
  · intro c c' b b' busy busy' same
    rcases running c b busy with ⟨here, rfl⟩ | ⟨-, other⟩
    · rcases running c' b' busy' with ⟨here', -⟩ | ⟨-, other'⟩
      · exact here.trans here'.symm
      · exact absurd same (Nat.ne_of_gt (earlier c' b' other'))
    · rcases running c' b' busy' with ⟨-, rfl⟩ | ⟨-, other'⟩
      · exact absurd same (Nat.ne_of_lt (earlier c b other))
      · exact sound.apart c c' b b' other other' same

/-- **Step lemma.** -/
theorem Accesses.Sound.step (sound : m.Sound) (event : AccessEvent) (current : Current m event) :
    (accessStep m event).Sound := by
  cases event with
  | enter cpu frame =>
      rw [accessStep]
      dsimp only [entered]
      cases m.running cpu with
      | some a => exact sound
      | none =>
          dsimp only
          cases Execution.entry m.blacklist frame with
          | none => exact sound
          | some e => exact sound.begin cpu e
  | advance cpu room =>
      rw [accessStep]
      cases busy : m.running cpu with
      | none => exact sound
      | some a => exact sound.advance busy (current a busy) room
  | deleteFlow key =>
      exact ⟨sound.flows.remove key, sound.scans, sound.held, sound.begun, sound.apart⟩
  | deleteScan key =>
      exact ⟨sound.flows, sound.scans.remove key, sound.held, sound.begun, sound.apart⟩
  | setBlacklist blacklist =>
      exact ⟨sound.flows, sound.scans, sound.held, sound.begun, sound.apart⟩

end Advance

/-! ## Runs -/

/-- The executions that a run begins, in their order. -/
def callsIn (blacklist : Blacklist) (events : List AccessEvent) : List Execution :=
  (steps accessStep (.start blacklist) events).filterMap fun p => entered p.1 p.2

theorem begun_advance (m : Accesses) (cpu : Cpu) (a : Access) (room : Room) :
    (m.advance cpu a room).begun = m.begun := by
  rw [Accesses.advance.eq_def]
  split
  all_goals first | rfl | (split <;> rfl)

theorem begun_step (m : Accesses) (event : AccessEvent) :
    (accessStep m event).begun = m.begun ++ (entered m event).toList := by
  cases event with
  | enter cpu frame =>
      rw [accessStep]
      cases entered m (.enter cpu frame) with
      | none => exact (List.append_nil _).symm
      | some e => rfl
  | advance cpu room =>
      rw [accessStep]
      cases m.running cpu with
      | none => exact (List.append_nil _).symm
      | some a => exact (begun_advance m cpu a room).trans (List.append_nil _).symm
  | deleteFlow key => exact (List.append_nil _).symm
  | deleteScan key => exact (List.append_nil _).symm
  | setBlacklist blacklist => exact (List.append_nil _).symm

theorem begun_run (m : Accesses) (events : List AccessEvent) :
    (exec accessStep m events).begun =
      m.begun ++ (steps accessStep m events).filterMap fun p => entered p.1 p.2 := by
  induction events generalizing m with
  | nil => exact (List.append_nil _).symm
  | cons event rest ih =>
      rw [exec_cons, ih, begun_step, steps_cons, List.filterMap_cons, List.append_assoc]
      cases entered m event with
      | none => rfl
      | some e => rfl

theorem sound_start (blacklist : Blacklist) : (Accesses.start blacklist).Sound where
  flows := SharedMap.all_empty _
  scans := SharedMap.all_empty _
  held _ _ busy := by cases busy
  begun _ _ busy := by cases busy
  apart _ _ _ _ busy := by cases busy

/-- **Run lemma.** -/
theorem sound_run (blacklist : Blacklist) (events : List AccessEvent)
    (current : ∀ p ∈ steps accessStep (.start blacklist) events, Current p.1 p.2) :
    (exec accessStep (.start blacklist) events).Sound :=
  exec_invariant (P := Accesses.Sound) (sound_start blacklist)
    fun p step sound => sound.step p.2 (current p step)

/-! ## Runs in which no element is used again -/

/-- If the event inserts, it uses no element again. -/
def AccessEvent.First : AccessEvent → Prop
  | .advance _ room => ∀ i, room ≠ .again i
  | _ => True

/-- Every access to come is made in an element of its source. -/
def Accesses.AllAtOwn (m : Accesses) : Prop := ∀ cpu a, m.running cpu = some a → m.AtOwn a

section First

variable {m : Accesses} {cpu : Cpu} {a : Access}

/-- The elements keep their keys, and the next access is made in one of its source. -/
theorem Accesses.AllAtOwn.moved {flowStats : SharedMap UInt32 FlowStats}
    {portScanMap : SharedMap UInt32 PortBitmap} {next : Option Access} (own : m.AllAtOwn)
    (scans : ∀ i s, m.portScanMap.key i = some s → portScanMap.key i = some s)
    (flows : ∀ i s, m.flowStats.key i = some s → flowStats.key i = some s)
    (held : ∀ a', next = some a' → m.AtOwn a') :
    (m.moved cpu flowStats portScanMap next).AllAtOwn := by
  have kept : ∀ a', m.AtOwn a' → (m.moved cpu flowStats portScanMap next).AtOwn a' :=
    fun _ there => ⟨fun i here => scans i _ (there.bitmap i here),
      fun i here => flows i _ (there.stats i here)⟩
  intro c b running
  rcases running_moved running with ⟨-, same⟩ | ⟨-, other⟩
  · exact kept b (held b same)
  · exact kept b (own c b other)

/-- Only who runs and the keys of the elements matter. -/
theorem Accesses.AllAtOwn.kept {m' : Accesses} (own : m.AllAtOwn)
    (running : m'.running = m.running) (scans : m'.portScanMap.key = m.portScanMap.key)
    (flows : m'.flowStats.key = m.flowStats.key) : m'.AllAtOwn := by
  intro c b busy
  rw [running] at busy
  refine ⟨?_, ?_⟩
  · rw [scans]
    exact (own c b busy).bitmap
  · rw [flows]
    exact (own c b busy).stats

theorem Accesses.AllAtOwn.goto (own : m.AllAtOwn) {pc : AccessPc}
    (held : m.AtOwn { a with pc := pc }) : (m.goto cpu a pc).AllAtOwn := by
  refine own.moved (fun _ _ kept => kept) (fun _ _ kept => kept) ?_
  intro a' same
  obtain rfl := Option.some.inj same
  exact held

/-- An access that needs no element. -/
theorem atOwn_free {pc : AccessPc} (noBitmap : pc.bitmap = none) (noStats : pc.stats = none) :
    m.AtOwn { a with pc := pc } := by
  refine ⟨?_, ?_⟩
  · intro bitmap here
    cases noBitmap.symm.trans here
  · intro stats here
    cases noStats.symm.trans here

theorem atOwn_bitmap {pc : AccessPc} {bitmap : ℕ} (here : ∀ b ∈ pc.bitmap, b = bitmap)
    (noStats : pc.stats = none) (owns : m.portScanMap.key bitmap = some a.call.srcIp) :
    m.AtOwn { a with pc := pc } := by
  refine ⟨?_, ?_⟩
  · intro b at_
    obtain rfl := here b at_
    exact owns
  · intro stats at_
    cases noStats.symm.trans at_

theorem atOwn_stats {pc : AccessPc} {stats : ℕ} (noBitmap : pc.bitmap = none)
    (here : pc.stats = some stats) (owns : m.flowStats.key stats = some a.call.srcIp) :
    m.AtOwn { a with pc := pc } := by
  refine ⟨?_, ?_⟩
  · intro bitmap at_
    cases noBitmap.symm.trans at_
  · intro s at_
    obtain rfl := Option.some.inj (here.symm.trans at_)
    exact owns

/-- A lookup leads to an element of the source. -/
theorem atOwn_onBitmap {bitmap : ℕ} (found : m.portScanMap.index a.call.srcIp = some bitmap) :
    m.AtOwn { a with pc := a.onBitmap bitmap } := by
  rw [Access.onBitmap]
  split
  · refine atOwn_bitmap ?_ rfl (SharedMap.key_of_index found)
    intro b at_
    exact (Option.some.inj at_).symm
  · exact atOwn_free rfl rfl

theorem Accesses.AllAtOwn.advance (own : m.AllAtOwn) (busy : m.running cpu = some a)
    {room : Room} (first : ∀ i, room ≠ .again i) : (m.advance cpu a room).AllAtOwn := by
  have onBitmap := (own cpu a busy).bitmap
  have onStats := (own cpu a busy).stats
  rw [Accesses.advance.eq_def]
  cases pc : a.pc with
  | scanLookup =>
      dsimp only
      cases found : m.portScanMap.index a.call.srcIp with
      | some bitmap => exact own.goto (atOwn_onBitmap found)
      | none => exact own.goto (atOwn_free rfl rfl)
  | scanUpdate =>
      refine own.moved (fun i s owns => SharedMap.key_insert owns _ _ first)
        (fun _ _ owns => owns) ?_
      intro a' same
      obtain rfl := Option.some.inj same
      exact atOwn_free rfl rfl
  | scanRelookup =>
      dsimp only
      cases found : m.portScanMap.index a.call.srcIp with
      | some bitmap => exact own.goto (atOwn_onBitmap found)
      | none => exact own.goto (atOwn_free rfl rfl)
  | loadWord bitmap =>
      rw [pc] at onBitmap
      exact own.goto ⟨onBitmap, fun _ at_ => by cases at_⟩
  | storeWord bitmap word =>
      rw [pc] at onBitmap
      refine own.moved (fun i s owns => (SharedMap.key_modify ..).trans owns)
        (fun _ _ owns => owns) ?_
      intro a' same
      obtain rfl := Option.some.inj same
      exact ⟨onBitmap, fun _ at_ => by cases at_⟩
  | countWord bitmap i totalPorts =>
      rw [pc] at onBitmap
      dsimp only
      split
      · rename_i more
        refine own.goto (atOwn_bitmap ?_ rfl (onBitmap bitmap (if_pos more)))
        intro b at_
        rw [AccessPc.bitmap] at at_
        split at at_
        · exact (Option.some.inj at_).symm
        · cases at_
      · rw [Access.onCount]
        split
        · exact own.goto (atOwn_free rfl rfl)
        · exact own.goto (atOwn_free rfl rfl)
  | output bitmap => exact own.goto (atOwn_free rfl rfl)
  | clearWord bitmap i =>
      dsimp only
      split
      · refine own.moved (fun i s owns => (SharedMap.key_modify ..).trans owns)
          (fun _ _ owns => owns) ?_
        intro a' same
        obtain rfl := Option.some.inj same
        exact atOwn_free rfl rfl
      · exact own.goto (atOwn_free rfl rfl)
  | flowLookup =>
      dsimp only
      cases found : m.flowStats.index a.call.srcIp with
      | some stats => exact own.goto (atOwn_stats rfl rfl (SharedMap.key_of_index found))
      | none => exact own.goto (atOwn_free rfl rfl)
  | flowUpdate =>
      exact own.moved (fun _ _ owns => owns)
        (fun i s owns => SharedMap.key_insert owns _ _ first) fun a' none => by cases none
  | loadPkts stats =>
      rw [pc] at onStats
      exact own.goto (atOwn_stats rfl rfl (onStats stats rfl))
  | storePkts stats pktCount =>
      rw [pc] at onStats
      refine own.moved (fun _ _ owns => owns)
        (fun i s owns => (SharedMap.key_modify ..).trans owns) ?_
      intro a' same
      obtain rfl := Option.some.inj same
      exact atOwn_stats rfl rfl (onStats stats rfl)
  | loadBytes stats =>
      rw [pc] at onStats
      exact own.goto (atOwn_stats rfl rfl (onStats stats rfl))
  | storeBytes stats byteCount =>
      exact own.moved (fun _ _ owns => owns)
        (fun i s owns => (SharedMap.key_modify ..).trans owns) fun a' none => by cases none

/-- **Step lemma.** -/
theorem Accesses.AllAtOwn.step (own : m.AllAtOwn) {event : AccessEvent} (first : event.First) :
    (accessStep m event).AllAtOwn := by
  cases event with
  | enter cpu frame =>
      rw [accessStep]
      cases entered m (.enter cpu frame) with
      | none => exact own
      | some e =>
          set pc := if e.pc = .scanLookup then AccessPc.scanLookup else .flowLookup
            with definition
          have begins : m.AtOwn ⟨e, m.begun.length, pc⟩ := by
            rw [definition]
            split
            · exact atOwn_free (a := ⟨e, m.begun.length, .flowLookup⟩) rfl rfl
            · exact atOwn_free (a := ⟨e, m.begun.length, .flowLookup⟩) rfl rfl
          have next : (m.moved cpu m.flowStats m.portScanMap
              (some ⟨e, m.begun.length, pc⟩)).AllAtOwn :=
            own.moved (fun _ _ owns => owns) (fun _ _ owns => owns) fun a' same =>
              Option.some.inj same ▸ begins
          exact next.kept rfl rfl rfl
  | advance cpu room =>
      rw [accessStep]
      cases busy : m.running cpu with
      | none => exact own
      | some a => exact own.advance busy first
  | deleteFlow key => exact own.kept rfl rfl rfl
  | deleteScan key => exact own.kept rfl rfl rfl
  | setBlacklist blacklist => exact own.kept rfl rfl rfl

end First

/-- In a run in which no insertion uses an element again, every handler counts in
an element of its source, however stale its pointer is. -/
theorem current_of_first (blacklist : Blacklist) (events : List AccessEvent)
    (first : ∀ event ∈ events, event.First) :
    ∀ p ∈ steps accessStep (.start blacklist) events, Current p.1 p.2 := by
  have own : ∀ p ∈ steps accessStep (.start blacklist) events, p.1.AllAtOwn :=
    steps_invariant (P := Accesses.AllAtOwn) (fun _ _ busy => by cases busy)
      fun p member own => own.step (first p.2 (event_mem_of_mem_steps _ member))
  rintro ⟨m, event⟩ member
  cases event with
  | advance cpu room => exact fun a busy => own _ member cpu a busy
  | enter cpu frame => trivial
  | deleteFlow key => trivial
  | deleteScan key => trivial
  | setBlacklist blacklist => trivial

/-! ## What the maps can show -/

/-- The counters are those of some executions for the source, each counted at most
once by each of them. -/
def CountsSome (calls : List Execution) (s : UInt32) (stats : FlowStats) : Prop :=
  ∃ counted weighed : Finset ℕ,
    (∀ n ∈ counted ∪ weighed, ∃ e, calls[n]? = some e ∧ e.srcIp = s) ∧
      stats.pktCount = UInt64.ofNat counted.card ∧
      stats.byteCount = UInt64.ofNat (bytesOf calls weighed)

/-- **Races lose, but never invent.** In every run from empty maps, in which single
loads and stores of several CPUs, refused insertions, deletions, elements used again
and changes of the blacklist come in any order, and no handler counts in an element
that has been used again for another source: the counters of a source are those of some of its
executions, its bitmap has marks of low ports only that it has sent a SYN to, and
a CPU that is about to output an alert for a source has counted more than twenty
such ports. No handler does so where no insertion uses an element again. -/
theorem races_never_invent (blacklist : Blacklist) (events : List AccessEvent) :
    ((∀ event ∈ events, event.First) →
      ∀ p ∈ steps accessStep (.start blacklist) events, Current p.1 p.2) ∧
    ((∀ p ∈ steps accessStep (.start blacklist) events, Current p.1 p.2) →
      let m := exec accessStep (.start blacklist) events
      let calls := callsIn blacklist events
      (∀ s stats, m.flowStats.value s = some stats → CountsSome calls s stats) ∧
        (∀ s words, m.portScanMap.value s = some words →
          BitTable.members words ⊆ portsSent s calls) ∧
        ∀ cpu a bitmap, m.running cpu = some a → a.pc = .output bitmap →
          portScanThreshold < (portsSent a.call.srcIp calls).card) := by
  refine ⟨current_of_first blacklist events, ?_⟩
  intro current m calls
  have sound := sound_run blacklist events current
  have begun : m.begun = calls := (begun_run _ _).trans (List.nil_append _)
  refine ⟨?_, ?_, ?_⟩
  · intro s stats found
    obtain ⟨counted, weighed, donePkts, doneBytes, pktCount, byteCount⟩ := sound.flows.value found
    rw [← begun]
    refine ⟨counted, weighed, ?_, pktCount, byteCount⟩
    intro n member
    rcases Finset.mem_union.mp member with inCounted | inWeighed
    · exact (donePkts n inCounted).1
    · exact (doneBytes n inWeighed).1
  · intro s words found port member
    obtain ⟨below, set⟩ := BitTable.mem_members.mp member
    have marked := sound.scans.value found
    rw [← begun]
    have word : port / 64 < 16 := by omega
    rw [BitTable.testBit, dif_pos word] at set
    have sent := marked ⟨port / 64, word⟩ (port % 64) (Nat.mod_lt _ (by decide)) set
    rwa [Nat.div_add_mod'] at sent
  · intro cpu a bitmap busy pc
    have held := sound.held cpu a busy
    rw [Held.eq_def, pc] at held
    rw [← begun]
    exact held

/-- A packet that is not a SYN. -/
def ackFrame (source : Quad) : Frame := Frame.ofTcp source ⟨10, 0, 0, 9⟩ 0 80 0x10

/-- CPU 0 makes an entry for 10.0.0.1, in the first element. -/
def firstEntry : List AccessEvent :=
  [.enter 0 (ackFrame ⟨10, 0, 0, 1⟩), .advance 0 .fresh, .advance 0 .fresh]

/-- Then CPUs 0 and 1 count a packet each, access by access in turn. -/
def racingCounts : List AccessEvent :=
  firstEntry ++ [.enter 0 (ackFrame ⟨10, 0, 0, 1⟩), .enter 1 (ackFrame ⟨10, 0, 0, 1⟩)] ++
    (List.replicate 5 [.advance 0 .fresh, .advance 1 .fresh]).flatten

/-- Then CPU 0 has looked the entry up when it is deleted and CPU 1 uses its element
again. CPU 0 counts its packet there. -/
def staleCount (again : Quad) : List AccessEvent :=
  firstEntry ++ [.enter 0 (ackFrame ⟨10, 0, 0, 1⟩), .advance 0 .fresh,
    .deleteFlow (Quad.le ⟨10, 0, 0, 1⟩), .enter 1 (ackFrame again), .advance 1 .fresh,
    .advance 1 (.again 0)] ++ List.replicate 4 (.advance 0 .fresh)

/-- Two of the three racing packets are counted, and two of the three packets of the
source whose element is used again for itself. -/
theorem races_counted :
    CountsSome (callsIn .empty racingCounts) (Quad.le ⟨10, 0, 0, 1⟩) ⟨2, 108⟩ ∧
      CountsSome (callsIn .empty (staleCount ⟨10, 0, 0, 1⟩)) (Quad.le ⟨10, 0, 0, 1⟩) ⟨2, 108⟩ := by
  have first : ∀ event ∈ racingCounts, event.First := by
    simp [racingCounts, firstEntry, AccessEvent.First]
  have own : ∀ p ∈ steps accessStep (.start .empty) (staleCount ⟨10, 0, 0, 1⟩),
      Current p.1 p.2 := by decide +kernel
  refine ⟨?_, ?_⟩
  · have racing := races_never_invent .empty racingCounts
    exact (racing.2 (racing.1 first)).1 _ _ (by decide +kernel)
  · exact ((races_never_invent .empty _).2 own).1 _ _ (by decide +kernel)

-- An element used again for another source shows a packet that it has not sent.
example :
    ((exec accessStep (.start .empty) (staleCount ⟨10, 0, 0, 2⟩)).flowStats.value
        (Quad.le ⟨10, 0, 0, 2⟩)).map FlowStats.pktCount = some 2 ∧
      ((callsIn .empty (staleCount ⟨10, 0, 0, 2⟩)).filter
        (·.srcIp == Quad.le ⟨10, 0, 0, 2⟩)).length = 1 := by
  decide +kernel

end EbpfNids.DataPlane
