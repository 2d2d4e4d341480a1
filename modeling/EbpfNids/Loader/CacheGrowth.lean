import EbpfNids.DataPlane.PassedFrames
import EbpfNids.DataPlane.Isolation
import EbpfNids.Loader.StatsPass

/-!
# How far the loader's cache grows

`ip_cache` gets a node when a pass first reads the entry of a source, if there is
memory for it, and no operation removes one while the loader runs. Its length is
therefore the number of sources read so far, whatever `flow_stats` holds by then.

While every source with a node keeps its entry, the entries bound the nodes, and
there are at most `STATS_SIZE` of them. The map cleaner takes that away: it
deletes entries to keep the maps small, the nodes stay, and new sources take the
places of the deleted ones. The bound holds in a run if and only if its passes
read at most `STATS_SIZE` sources (`cache_bounded_iff`).
-/

set_option autoImplicit false

namespace EbpfNids.Loader

open Library Library.Runs EbpfNids.DataPlane

/-- A loader before its first pass, over any maps. -/
def startedLoader (maps : Maps) (statsIntervalSec : ℤ) : System :=
  { maps := maps, cacheHead := [], stage := .idle, statsIntervalSec := statsIntervalSec }

/-- The sources that have a node. -/
def cachedSources (sys : System) : Finset UInt32 := (sys.cacheHead.map IpCache.ip).toFinset

/-- The source whose entry has been read and is now to be reported, when there is
memory for a node. -/
def sourceRead (p : System × SysEvent) : Option UInt32 :=
  match p.2, p.1.stage with
  | .reportFlowRate true _, .report key _ => some key
  | _, _ => none

/-- The sources that the passes of a run read. -/
def sourcesRead (run : List (System × SysEvent)) : Finset UInt32 :=
  (run.filterMap sourceRead).toFinset

/-- In every state of a run the cache has at most as many nodes as `flow_stats`
can have entries. -/
def CacheWithin (start : System) (events : List SysEvent) : Prop :=
  ∀ before, before <+: events → (exec sysStep start before).cacheHead.length ≤ statsSize

/-- The step deletes no entry of a source that has a node or is about to be
reported. -/
def SparesCached (p : System × SysEvent) : Prop :=
  ∀ key, p.2 = .data (.mapDelete .flowStats key) →
    key ∉ cachedSources p.1 ∧ ∀ value, p.1.stage ≠ .report key value

/-! ## Nodes are the sources read -/

section Nodes

variable {start : System}

theorem mem_cachedSources {sys : System} {k : UInt32} :
    k ∈ cachedSources sys ↔ k ∈ sys.cacheHead.map IpCache.ip := List.mem_toFinset

/-- A report adds the node of its source if there is memory for it, and removes
none. -/
theorem mem_reportFlowRate (allocated : Bool) (statsIntervalSec : ℤ) (now : Int64) (ip : UInt32)
    (cur : FlowStats) (cacheHead : List IpCache) (k : UInt32) :
    k ∈ (reportFlowRate allocated statsIntervalSec now ip cur cacheHead).1.map IpCache.ip ↔
      k ∈ cacheHead.map IpCache.ip ∨ allocated = true ∧ ip = k := by
  rw [reportFlowRate, findOrCreateCache]
  cases found : findCache cacheHead ip with
  | some node =>
      dsimp only
      rw [map_ip_setCache]
      have cached : ip ∈ cacheHead.map IpCache.ip := by
        by_contra absent
        rw [findCache_eq_none.mpr absent] at found
        cases found
      exact (or_iff_left_of_imp fun own => own.2 ▸ cached).symm
  | none =>
      cases allocated with
      | true => simp [or_comm, eq_comm]
      | false => simp

/-- A source that is read is reported. -/
theorem reportOf_of_sourceRead {p : System × SysEvent} {k : UInt32} (read : sourceRead p = some k) :
    (∃ value, p.1.stage = .report k value) ∧ reportOf p ≠ none := by
  obtain ⟨sys, event⟩ := p
  rw [sourceRead] at read
  split at read
  · rename_i now key value event stage
    obtain rfl := Option.some.inj read
    dsimp only at event stage
    subst event
    refine ⟨⟨value, stage⟩, ?_⟩
    simp only [reportOf, stage, reportFlowRate, findOrCreateCache]
    cases findCache sys.cacheHead key with
    | some node => exact Option.some_ne_none _
    | none => exact Option.some_ne_none _
  · cases read

/-- **One step.** A source that is read gets a node, and no node goes away. -/
theorem mem_cachedSources_step (p : System × SysEvent) (k : UInt32) :
    k ∈ cachedSources (sysStep p.1 p.2) ↔ k ∈ cachedSources p.1 ∨ sourceRead p = some k := by
  obtain ⟨sys, event⟩ := p
  rw [mem_cachedSources, mem_cachedSources]
  rcases sysStep_cases sys event with ⟨change, rfl⟩ | ⟨key, value, rfl, -, -, next⟩ |
    ⟨allocated, now, key, value, rfl, stage⟩ | ⟨silent, -, ⟨same, -⟩ | ⟨stage, -, next⟩⟩
  · simp [sourceRead, sysStep]
  · simp [sourceRead, next]
  · simp only [sysStep, stage]
    rw [mem_reportFlowRate]
    cases allocated with
    | true => simp [sourceRead, stage]
    | false => simp [sourceRead]
  · have unread : sourceRead (sys, event) ≠ some k := fun read =>
      (reportOf_of_sourceRead read).2 silent
    simp [same, unread]
  · have unread : sourceRead (sys, event) ≠ some k := fun read =>
      (reportOf_of_sourceRead read).2 silent
    simp [next, unread]

/-- **Run lemma.** -/
theorem mem_cachedSources_exec (events : List SysEvent) (k : UInt32) :
    k ∈ cachedSources (exec sysStep start events) ↔
      k ∈ cachedSources start ∨ k ∈ sourcesRead (steps sysStep start events) := by
  induction events generalizing start with
  | nil => simp [sourcesRead]
  | cons event rest ih =>
      rw [exec_cons, ih, mem_cachedSources_step (start, event), or_assoc, steps_cons]
      refine or_congr_right ?_
      rw [sourcesRead, sourcesRead, List.filterMap_cons]
      cases sourceRead (start, event) with
      | none => simp
      | some key => simp [eq_comm]

theorem length_cacheHead {sys : System} (nodup : (sys.cacheHead.map IpCache.ip).Nodup) :
    sys.cacheHead.length = (cachedSources sys).card := by
  rw [cachedSources, List.toFinset_card_of_nodup nodup, List.length_map]

theorem nodup_exec (maps : Maps) (statsIntervalSec : ℤ) (events : List SysEvent) :
    ((exec sysStep (startedLoader maps statsIntervalSec) events).cacheHead.map
      IpCache.ip).Nodup :=
  exec_invariant (P := fun sys : System => (sys.cacheHead.map IpCache.ip).Nodup)
    List.nodup_nil fun _ _ => nodup_step

/-- **The length of the cache** is the number of sources read so far. -/
theorem length_cacheHead_exec (maps : Maps) (statsIntervalSec : ℤ) (events : List SysEvent) :
    (exec sysStep (startedLoader maps statsIntervalSec) events).cacheHead.length =
      (sourcesRead (steps sysStep (startedLoader maps statsIntervalSec) events)).card := by
  rw [length_cacheHead (nodup_exec maps statsIntervalSec events)]
  congr 1
  ext k
  rw [mem_cachedSources_exec]
  exact or_iff_right (Finset.notMem_empty k)

theorem sourcesRead_earlier {before events : List SysEvent} (earlier : before <+: events) :
    sourcesRead (steps sysStep start before) ⊆ sourcesRead (steps sysStep start events) := by
  obtain ⟨rest, rfl⟩ := earlier
  intro k member
  rw [sourcesRead, steps_append, List.filterMap_append, List.toFinset_append]
  exact Finset.mem_union_left _ member

end Nodes

/-! ## While entries are not deleted -/

/-- Every source that has a node or is about to be reported has an entry. -/
def Covered (sys : System) : Prop :=
  ∀ k, (k ∈ cachedSources sys ∨ ∃ value, sys.stage = .report k value) →
    (sys.maps.flowStats.lookup k).isSome

section Coverage

variable {sys : System} {event : SysEvent}

/-- **Step lemma.** A step that deletes no entry in use keeps the nodes
covered. -/
theorem covered_step (covered : Covered sys) (spares : SparesCached (sys, event)) :
    Covered (sysStep sys event) := by
  intro k used
  rw [mem_cachedSources_step (sys, event)] at used
  -- What is in use after the step and not read at it was in use before, or is about to be read.
  have before : (k ∈ cachedSources sys ∨ sourceRead (sys, event) = some k) →
      k ∈ cachedSources sys ∨ ∃ value, sys.stage = .report k value :=
    Or.imp_right fun read => (reportOf_of_sourceRead read).1
  rcases sysStep_cases sys event with ⟨change, rfl⟩ | ⟨key, value, rfl, stage, found, next⟩ |
    ⟨allocated, now, key, value, rfl, stage⟩ | ⟨-, -, ⟨same, -⟩ | ⟨stage, quiet, next⟩⟩
  · have inUse : k ∈ cachedSources sys ∨ ∃ value, sys.stage = .report k value :=
      used.elim before Or.inr
    refine flow_entry_stays (p := (sys.maps, change)) ?_ (covered k inUse)
    rintro rfl
    obtain ⟨uncached, unreported⟩ := spares k rfl
    rcases inUse with cached | ⟨value, pending⟩
    · exact uncached cached
    · exact unreported value pending
  · rw [next] at used ⊢
    rcases used with earlier | ⟨other, pending⟩
    · exact covered k (before earlier)
    · obtain ⟨rfl, -⟩ := Stage.report.inj pending
      exact Option.isSome_iff_exists.mpr ⟨value, found⟩
  · have maps : (sysStep sys (.reportFlowRate allocated now)).maps = sys.maps := by
      simp [sysStep, stage]
    rw [maps]
    rcases used with earlier | ⟨other, pending⟩
    · exact covered k (before earlier)
    · simp [sysStep, stage] at pending
  · rw [same] at used ⊢
    exact covered k (used.elim before Or.inr)
  · rw [next] at used ⊢
    rcases used with earlier | ⟨value, pending⟩
    · exact covered k (before earlier)
    · exact absurd pending (quiet k value)

/-- Covered nodes are no more than the map has room for. -/
theorem Covered.length_le (covered : Covered sys)
    (nodup : (sys.cacheHead.map IpCache.ip).Nodup) : sys.cacheHead.length ≤ statsSize := by
  have keys : sys.cacheHead.map IpCache.ip ⊆ sys.maps.flowStats.keys := by
    intro k member
    exact BoundedMap.lookup_isSome.mp (covered k (Or.inl (List.mem_toFinset.mpr member)))
  calc sys.cacheHead.length = (sys.cacheHead.map IpCache.ip).length := (List.length_map _).symm
    _ ≤ sys.maps.flowStats.keys.length := (List.subperm_of_subset nodup keys).length_le
    _ ≤ statsSize := sys.maps.flowStats.bounded

end Coverage

/-- **The cache is bounded.** In a run from the start of the loader the cache
never has more than `STATS_SIZE` nodes if and only if the passes read at most
`STATS_SIZE` sources. That is so whenever no entry in use is deleted. -/
theorem cache_bounded_iff (maps : Maps) (statsIntervalSec : ℤ) (events : List SysEvent) :
    let start := startedLoader maps statsIntervalSec
    (CacheWithin start events ↔ (sourcesRead (steps sysStep start events)).card ≤ statsSize) ∧
      ((∀ p ∈ steps sysStep start events, SparesCached p) → CacheWithin start events) := by
  intro start
  have exact_ : CacheWithin start events ↔
      (sourcesRead (steps sysStep start events)).card ≤ statsSize := by
    constructor
    · intro within
      rw [← length_cacheHead_exec]
      exact within events (List.prefix_refl events)
    · intro few before earlier
      rw [length_cacheHead_exec]
      exact (Finset.card_le_card (sourcesRead_earlier earlier)).trans few
  refine ⟨exact_, fun spares => exact_.mpr ?_⟩
  have covered : Covered (exec sysStep start events) := by
    refine exec_invariant (P := Covered) ?_ fun p member covered =>
      covered_step covered (spares p member)
    rintro k (cached | ⟨value, pending⟩)
    · exact absurd cached (Finset.notMem_empty k)
    · cases pending
  rw [← length_cacheHead_exec]
  exact covered.length_le (nodup_exec maps statsIntervalSec events)

/-! ## Entries that are deleted -/

/-- A packet of a new source, a pass that reports it, and the deletion of its
entry. -/
def passingSource (i : ℕ) : List SysEvent :=
  [.data (.packet 0 (fillFrame i) (.ready 0)), .firstKey (some (UInt32.ofNat i)), .lookupElem,
    .reportFlowRate true 0, .nextKey none, .data (.mapDelete .flowStats (UInt32.ofNat i))]

/-- The sources with the addresses 1 to `n`. -/
def passingSources (n : ℕ) : List SysEvent :=
  (List.range n).flatMap fun i => passingSource (i + 1)

theorem accounted_fillFrame (i : ℕ) :
    ∃ size, accounted .empty (fillFrame i) = some (UInt32.ofNat i, size) := by
  have long : Frame.ethhdrSize + Frame.iphdrSize ≤ (fillFrame i).length := by
    rw [fillFrame, Frame.length_ofTcp]
    decide
  have tcp : Frame.ethhdrSize + Frame.iphdrSize + Frame.tcphdrSize ≤ (fillFrame i).length := by
    rw [fillFrame, Frame.length_ofTcp]
    decide
  have source : (fillFrame i).saddr = UInt32.ofNat i := by
    rw [fillFrame, Frame.saddr_ofTcp, Quad.le_ofLe]
  refine ⟨UInt64.ofNat (fillFrame i).length, ?_⟩
  rw [accounted, if_pos ⟨rfl, long, by simp, fun _ => tcp⟩, source]

/-- Nothing is in the maps that matter, and the cache has the first `n`
sources. -/
structure Passed (n : ℕ) (sys : System) : Prop where
  idle : sys.stage = .idle
  open_ : sys.maps.blacklist = .empty
  empty : ∀ k, sys.maps.flowStats.lookup k = none
  cached : sys.cacheHead.length = n
  known : ∀ k ∈ sys.cacheHead.map IpCache.ip, ∃ i ≤ n, k = UInt32.ofNat i

/-- The packet of a new source makes its entry, the only one. -/
theorem flowStats_fillFrame {n : ℕ} {sys : System} (passed : Passed n sys) (i : ℕ) :
    ∃ value, ∀ k,
      (step sys.maps (.packet 0 (fillFrame i) (.ready 0))).flowStats.lookup k =
        if k = UInt32.ofNat i then some value else none := by
  obtain ⟨size, account⟩ := accounted_fillFrame i
  have noKeys : sys.maps.flowStats.keys = [] :=
    List.eq_nil_iff_forall_not_mem.mpr fun k =>
      BoundedMap.lookup_eq_none.mp (passed.empty k)
  have room : sys.maps.flowStats.size < statsSize := by
    rw [BoundedMap.size]
    rw [BoundedMap.keys] at noKeys
    rw [noKeys]
    decide
  refine ⟨⟨1, size⟩, fun k => ?_⟩
  rw [step, xdpFirewall_flowStats, passed.open_, account]
  dsimp only
  by_cases own : k = UInt32.ofNat i
  · rw [if_pos own, own, updateFlowStats, passed.empty]
    exact bpfMapUpdateElem_stored ⟨rfl, room⟩ (passed.empty _)
  · rw [if_neg own, updateFlowStats_of_ne own, passed.empty]

/-- What the events of a new source come to. -/
theorem exec_passingSource {n : ℕ} {sys : System} (passed : Passed n sys) {i : ℕ}
    (uncached : findCache sys.cacheHead (UInt32.ofNat i) = none) :
    ∃ value, exec sysStep sys (passingSource i) =
      { sys with
        maps := (step sys.maps (.packet 0 (fillFrame i) (.ready 0))).delete (UInt32.ofNat i)
          .flowStats
        cacheHead := value :: sys.cacheHead } ∧ value.ip = UInt32.ofNat i := by
  obtain ⟨value, entries⟩ := flowStats_fillFrame passed i
  have found := entries (UInt32.ofNat i)
  rw [if_pos rfl] at found
  refine ⟨⟨UInt32.ofNat i, value.pktCount, value.byteCount⟩, ?_, rfl⟩
  rw [passingSource]
  simp only [exec_cons, exec_nil, sysStep, passed.idle, Stage.toKey, found, reportFlowRate,
    findOrCreateCache, uncached, if_true]
  rfl

theorem passed_step {n : ℕ} (small : n + 1 < 2 ^ 32) {sys : System} (passed : Passed n sys) :
    Passed (n + 1) (exec sysStep sys (passingSource (n + 1))) := by
  have uncached : findCache sys.cacheHead (UInt32.ofNat (n + 1)) = none := by
    rw [findCache_eq_none]
    intro member
    obtain ⟨i, below, same⟩ := passed.known _ member
    have values := congrArg UInt32.toNat same
    rw [UInt32.toNat_ofNat', UInt32.toNat_ofNat'] at values
    omega
  obtain ⟨value, entries⟩ := flowStats_fillFrame passed (n + 1)
  obtain ⟨node, after, source⟩ := exec_passingSource passed uncached
  rw [after]
  refine ⟨passed.idle, ?_, ?_, ?_, ?_⟩
  · show (step sys.maps (.packet 0 (fillFrame (n + 1)) (.ready 0))).blacklist = .empty
    rw [step, xdpFirewall_blacklist, passed.open_]
  · intro k
    show ((step sys.maps (.packet 0 (fillFrame (n + 1)) (.ready 0))).flowStats.erase _).lookup k =
      none
    by_cases own : k = UInt32.ofNat (n + 1)
    · rw [own, BoundedMap.lookup_erase_self]
    · rw [BoundedMap.lookup_erase_of_ne own, entries, if_neg own]
  · exact congrArg Nat.succ passed.cached
  · intro k member
    rcases List.mem_cons.mp member with rfl | earlier
    · exact ⟨n + 1, Nat.le_refl _, source⟩
    · obtain ⟨i, below, same⟩ := passed.known k earlier
      exact ⟨i, Nat.le_succ_of_le below, same⟩

theorem passed_run {n : ℕ} (small : n < 2 ^ 32) :
    Passed n (exec sysStep idleLoader (passingSources n)) := by
  induction n with
  | zero =>
      exact ⟨rfl, rfl, fun _ => rfl, rfl, fun _ member => absurd member List.not_mem_nil⟩
  | succ n ih =>
      have more : passingSources (n + 1) = passingSources n ++ passingSource (n + 1) := by
        rw [passingSources, List.range_succ, List.flatMap_append, List.flatMap_singleton]
        rfl
      rw [more, exec_append]
      exact passed_step small (ih (Nat.lt_of_succ_lt small))

/-- With every entry deleted as soon as it was reported, the cache has one node
more than `flow_stats` has room for, though the map never had a second entry. -/
theorem cache_exceeds_map :
    ¬ CacheWithin (startedLoader Maps.empty 1) (passingSources (statsSize + 1)) := by
  intro within
  have bound := within _ (List.prefix_refl _)
  have cached := (passed_run (n := statsSize + 1) (by decide)).cached
  rw [show startedLoader Maps.empty 1 = idleLoader from rfl, cached] at bound
  exact Nat.not_succ_le_self statsSize bound

end EbpfNids.Loader
