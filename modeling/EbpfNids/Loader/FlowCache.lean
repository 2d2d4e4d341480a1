import EbpfNids.DataPlane.Detectors

/-!
# The loader's cache of the last counters

`ip_cache` is a list of nodes, newest first, one for every source reported so
far. `report_flow_rate` finds or creates the node, takes the growth of both
counters since the node was last written, and writes the new counters to it.
The growth is taken only when the counter has not fallen, so the subtraction
does not wrap (`toNat_increase`).
-/

set_option autoImplicit false

namespace EbpfNids.Loader

open EbpfNids.DataPlane

structure IpCache where
  ip : UInt32
  pkts : UInt64
  bytes : UInt64
deriving DecidableEq, Repr

/-- What `report_flow_rate` computes for one source, and when. -/
structure Report where
  ip : UInt32
  dpkts : UInt64
  dbytes : UInt64
  pps : UInt64
  bps : UInt64
  totalPkts : UInt64
  totalBytes : UInt64
  now : Int64
deriving DecidableEq, Repr

/-- The node of a source. -/
def findCache (cacheHead : List IpCache) (ip : UInt32) : Option IpCache :=
  cacheHead.find? fun p => p.ip == ip

/-- The node and whether it is new, and the list with it in front if it is.
There is none when `calloc` fails. -/
def findOrCreateCache (allocated : Bool) (ip : UInt32) (pkts bytes : UInt64)
    (cacheHead : List IpCache) : Option (IpCache × Bool) × List IpCache :=
  match findCache cacheHead ip with
  | some p => (some (p, false), cacheHead)
  | none =>
      if allocated then (some (⟨ip, pkts, bytes⟩, true), ⟨ip, pkts, bytes⟩ :: cacheHead)
      else (none, cacheHead)

/-- Write the counters of a source to its node. -/
def setCache (ip : UInt32) (pkts bytes : UInt64) : List IpCache → List IpCache
  | [] => []
  | p :: next =>
      if p.ip == ip then ⟨p.ip, pkts, bytes⟩ :: next else p :: setCache ip pkts bytes next

/-- The growth of a counter since the node was written, zero when it has
fallen. -/
def increase (cur cached : UInt64) : UInt64 := if cur ≥ cached then cur - cached else 0

/-- The seconds that a rate is taken over. -/
def divisor (statsIntervalSec : ℤ) : UInt64 :=
  if statsIntervalSec > 0 then UInt64.ofNat statsIntervalSec.toNat else 1

def reportFlowRate (allocated : Bool) (statsIntervalSec : ℤ) (now : Int64) (ip : UInt32)
    (cur : FlowStats) (cacheHead : List IpCache) : List IpCache × Option Report :=
  match findOrCreateCache allocated ip cur.pktCount cur.byteCount cacheHead with
  | (none, cacheHead) => (cacheHead, none)
  | (some (_, true), cacheHead) =>
      (cacheHead, some ⟨ip, 0, 0, 0, 0, cur.pktCount, cur.byteCount, now⟩)
  | (some (cache, false), cacheHead) =>
      let dpkts := increase cur.pktCount cache.pkts
      let dbytes := increase cur.byteCount cache.bytes
      (setCache ip cur.pktCount cur.byteCount cacheHead,
        some ⟨ip, dpkts, dbytes, dpkts / divisor statsIntervalSec,
          dbytes / divisor statsIntervalSec, cur.pktCount, cur.byteCount, now⟩)

/-- **The subtraction does not wrap.** -/
theorem toNat_increase (cur cached : UInt64) :
    (increase cur cached).toNat = cur.toNat - cached.toNat := by
  rw [increase]
  split
  · rename_i grown
    exact UInt64.toNat_sub_of_le _ _ grown
  · rename_i fallen
    have less : cur.toNat < cached.toNat := by
      rw [ge_iff_le, UInt64.le_iff_toNat_le] at fallen
      omega
    rw [Nat.sub_eq_zero_of_le (Nat.le_of_lt less)]
    rfl

/-! ## The node of a source -/

theorem findCache_setCache_self {cacheHead : List IpCache} {ip : UInt32} {node : IpCache}
    (pkts bytes : UInt64) (found : findCache cacheHead ip = some node) :
    findCache (setCache ip pkts bytes cacheHead) ip = some ⟨ip, pkts, bytes⟩ := by
  induction cacheHead with
  | nil => cases found
  | cons p next ih =>
      by_cases same : p.ip = ip
      · simp [setCache, findCache, same]
      · have later : findCache next ip = some node := by
          rw [findCache, List.find?_cons_of_neg (by simp [same])] at found
          exact found
        rw [setCache, if_neg (by simp [same]), findCache, List.find?_cons_of_neg (by simp [same])]
        exact ih later

theorem findCache_setCache_of_ne {cacheHead : List IpCache} {ip other : UInt32}
    (pkts bytes : UInt64) (different : other ≠ ip) :
    findCache (setCache ip pkts bytes cacheHead) other = findCache cacheHead other := by
  induction cacheHead with
  | nil => rfl
  | cons p next ih =>
      rw [setCache]
      split
      · rename_i same
        have notOther : ¬ p.ip = other := fun here =>
          different (here.symm.trans (beq_iff_eq.mp same))
        rw [findCache, findCache, List.find?_cons_of_neg (by simp [notOther]),
          List.find?_cons_of_neg (by simp [notOther])]
      · by_cases here : p.ip = other
        · rw [findCache, findCache, List.find?_cons_of_pos (by simp [here]),
            List.find?_cons_of_pos (by simp [here])]
        · rw [findCache, findCache, List.find?_cons_of_neg (by simp [here]),
            List.find?_cons_of_neg (by simp [here])]
          exact ih

theorem map_ip_setCache (ip : UInt32) (pkts bytes : UInt64) (cacheHead : List IpCache) :
    (setCache ip pkts bytes cacheHead).map IpCache.ip = cacheHead.map IpCache.ip := by
  induction cacheHead with
  | nil => rfl
  | cons p next ih =>
      rw [setCache]
      split
      · rfl
      · rw [List.map_cons, List.map_cons, ih]

theorem findCache_eq_none {cacheHead : List IpCache} {ip : UInt32} :
    findCache cacheHead ip = none ↔ ip ∉ cacheHead.map IpCache.ip := by
  rw [findCache, List.find?_eq_none, List.mem_map]
  constructor
  · rintro none ⟨p, member, rfl⟩
    exact none p member (by simp)
  · intro absent p member same
    exact absent ⟨p, member, beq_iff_eq.mp same⟩

section Report

variable {allocated : Bool} {statsIntervalSec : ℤ} {now : Int64} {ip : UInt32}
  {cur : FlowStats} {cacheHead cacheHead' : List IpCache}

/-- Without memory for a new node nothing changes and nothing is reported. -/
theorem reportFlowRate_none
    (outcome : reportFlowRate allocated statsIntervalSec now ip cur cacheHead =
      (cacheHead', none)) : cacheHead' = cacheHead := by
  rw [reportFlowRate, findOrCreateCache] at outcome
  cases found : findCache cacheHead ip with
  | some node => simp [found] at outcome
  | none =>
      cases allocated with
      | true => simp [found] at outcome
      | false => simpa [found] using outcome.symm

/-- **Report lemma.** A report gives the counters read and their growth over the
node, none for a new one, and leaves the node with them; no other source's node
changes, and there is no second node. -/
theorem reportFlowRate_some {r : Report}
    (outcome : reportFlowRate allocated statsIntervalSec now ip cur cacheHead =
      (cacheHead', some r)) :
    (r.ip = ip ∧ r.totalPkts = cur.pktCount ∧ r.totalBytes = cur.byteCount) ∧
      (r.dpkts.toNat = (findCache cacheHead ip).elim 0 fun node =>
        cur.pktCount.toNat - node.pkts.toNat) ∧
      (r.dbytes.toNat = (findCache cacheHead ip).elim 0 fun node =>
        cur.byteCount.toNat - node.bytes.toNat) ∧
      findCache cacheHead' ip = some ⟨ip, cur.pktCount, cur.byteCount⟩ ∧
      (∀ other, other ≠ ip → findCache cacheHead' other = findCache cacheHead other) ∧
      ((cacheHead.map IpCache.ip).Nodup → (cacheHead'.map IpCache.ip).Nodup) := by
  rw [reportFlowRate, findOrCreateCache] at outcome
  cases found : findCache cacheHead ip with
  | some node =>
      simp only [found, Prod.mk.injEq, Option.some.injEq] at outcome
      obtain ⟨rfl, rfl⟩ := outcome
      refine ⟨⟨rfl, rfl, rfl⟩, toNat_increase _ _, toNat_increase _ _,
        findCache_setCache_self _ _ found, fun other => findCache_setCache_of_ne _ _, ?_⟩
      rw [map_ip_setCache]
      exact id
  | none =>
      cases allocated with
      | false => simp [found] at outcome
      | true =>
          simp only [found, if_true, Prod.mk.injEq, Option.some.injEq] at outcome
          obtain ⟨rfl, rfl⟩ := outcome
          refine ⟨⟨rfl, rfl, rfl⟩, rfl, rfl, by simp [findCache], ?_,
            ?_⟩
          · intro other different
            rw [findCache, List.find?_cons_of_neg (by simp [Ne.symm different]), findCache]
          · intro nodup
            rw [List.map_cons, List.nodup_cons]
            exact ⟨findCache_eq_none.mp found, nodup⟩

/-- The rates of a report are its growths over the seconds of the interval. -/
theorem reportFlowRate_rates {r : Report}
    (outcome : reportFlowRate allocated statsIntervalSec now ip cur cacheHead =
      (cacheHead', some r)) :
    r.pps = r.dpkts / divisor statsIntervalSec ∧ r.bps = r.dbytes / divisor statsIntervalSec := by
  rw [reportFlowRate, findOrCreateCache] at outcome
  cases found : findCache cacheHead ip with
  | some node =>
      simp only [found, Prod.mk.injEq, Option.some.injEq] at outcome
      obtain ⟨-, rfl⟩ := outcome
      exact ⟨rfl, rfl⟩
  | none =>
      cases allocated with
      | false => simp [found] at outcome
      | true =>
          simp only [found, if_true, Prod.mk.injEq, Option.some.injEq] at outcome
          obtain ⟨-, rfl⟩ := outcome
          simp

end Report

end EbpfNids.Loader
