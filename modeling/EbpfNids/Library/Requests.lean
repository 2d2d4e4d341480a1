import Mathlib.Data.List.Nodup
import Mathlib.Logic.Function.Basic

/-!
# Numbered requests

Requests are begun on connections, one at a time on each, and every request gets
the next number. A request is running until it is finished, committed or dropped.
The committed ones are the history, in the order of their commits.

In a sound record every number belongs to its request, and no request is in two
places. A request that matters is in one of them: it is committed, or has failed,
or is running (`Sound.complete`). Finishing a request forgets it, so only one that
does not matter may be finished; the other operations keep a record sound
(`Sound.begin`, `Sound.commit`, `Sound.drop`).
-/

set_option autoImplicit false

namespace Library

variable {κ P : Type*}

/-- A request with its number. -/
abbrev Numbered (P : Type*) := ℕ × P

/-- The requests begun so far in the order of their numbers, those that are
running, those that have failed, and those that are committed. -/
structure Requests (κ P : Type*) where
  opened : List P
  running : κ → Option (Numbered P)
  failed : List (Numbered P)
  history : List (Numbered P)

namespace Requests

def none : Requests κ P := ⟨[], fun _ => .none, [], []⟩

/-! ## Sound records -/

/-- Every number has been given to its request. No request is in two places, and
one that matters is in one of them. -/
structure Sound (matters : P → Prop) (r : Requests κ P) : Prop where
  running : ∀ conn request, r.running conn = some request → r.opened[request.1]? = some request.2
  failed : ∀ request ∈ r.failed, r.opened[request.1]? = some request.2
  history : ∀ request ∈ r.history, r.opened[request.1]? = some request.2
  once : (r.history.map Prod.fst).Nodup
  apart : ∀ request ∈ r.failed, request.1 ∉ r.history.map Prod.fst
  runningApart : ∀ conn request, r.running conn = some request →
    request.1 ∉ r.history.map Prod.fst ∧ request.1 ∉ r.failed.map Prod.fst
  runningOnce : ∀ conn other request, r.running conn = some request →
    r.running other = some request → conn = other
  complete : ∀ request : Numbered P, r.opened[request.1]? = some request.2 → matters request.2 →
    request ∈ r.history ∨ request ∈ r.failed ∨ ∃ conn, r.running conn = some request

variable {matters : P → Prop} {r : Requests κ P} {conn : κ} {request : Numbered P}

theorem sound_none : (none : Requests κ P).Sound matters where
  running _ _ impossible := by cases impossible
  failed _ impossible := by cases impossible
  history _ impossible := by cases impossible
  once := List.nodup_nil
  apart _ impossible := by cases impossible
  runningApart _ _ impossible := by cases impossible
  runningOnce _ _ _ impossible := by cases impossible
  complete _ impossible := by cases impossible

theorem Sound.lt {number : ℕ} {value : P} (given : r.opened[number]? = some value) :
    number < r.opened.length := (List.getElem?_eq_some_iff.mp given).1

/-- Two running requests have different numbers. -/
theorem Sound.ne_of_running (sound : r.Sound matters) (found : r.running conn = some request)
    {c : κ} {q : Numbered P} (different : c ≠ conn) (here : r.running c = some q) :
    q.1 ≠ request.1 := by
  intro same
  have value : some q.2 = some request.2 := by
    rw [← sound.running c q here, ← sound.running conn request found, same]
  rw [Prod.ext same (Option.some.inj value)] at here
  exact different (sound.runningOnce c conn request here found)

/-! ## Operations -/

variable [DecidableEq κ]

section Operations

variable (requests : Requests κ P) (conn : κ)

def begin (request : P) : Requests κ P :=
  { requests with
    opened := requests.opened ++ [request]
    running := Function.update requests.running conn (some (requests.opened.length, request)) }

def finish : Requests κ P :=
  { requests with running := Function.update requests.running conn .none }

def commit : Requests κ P :=
  { requests.finish conn with history := requests.history ++ (requests.running conn).toList }

def drop : Requests κ P :=
  { requests.finish conn with failed := requests.failed ++ (requests.running conn).toList }

end Operations

theorem running_finish (c : κ) (found : (r.finish conn).running c = some request) :
    c ≠ conn ∧ r.running c = some request := by
  rw [finish] at found
  dsimp only at found
  by_cases same : c = conn
  · rw [same, Function.update_self] at found
    cases found
  · rw [Function.update_of_ne same] at found
    exact ⟨same, found⟩

theorem Sound.begin (sound : r.Sound matters) (free : r.running conn = .none) (value : P) :
    (r.begin conn value).Sound matters := by
  have kept : ∀ {number other}, r.opened[number]? = some other →
      (r.opened ++ [value])[number]? = some other := fun given => by
    rwa [List.getElem?_append_left (Sound.lt given)]
  have elsewhere : ∀ {c request}, c ≠ conn → r.running c = some request →
      (r.begin conn value).running c = some request := fun different found => by
    rw [Requests.begin]
    exact (Function.update_of_ne different _ _).trans found
  have split : ∀ {c request}, (r.begin conn value).running c = some request →
      c = conn ∧ request = (r.opened.length, value) ∨ c ≠ conn ∧ r.running c = some request := by
    intro c request found
    rw [Requests.begin] at found
    dsimp only at found
    by_cases same : c = conn
    · rw [same, Function.update_self, Option.some.injEq] at found
      exact Or.inl ⟨same, found.symm⟩
    · rw [Function.update_of_ne same] at found
      exact Or.inr ⟨same, found⟩
  have fresh : ∀ {requests : List (Numbered P)},
      (∀ request ∈ requests, r.opened[request.1]? = some request.2) →
      r.opened.length ∉ requests.map Prod.fst := by
    intro requests given member
    obtain ⟨request, inRequests, same⟩ := List.mem_map.mp member
    exact absurd (Sound.lt (given request inRequests)) (by omega)
  refine ⟨?_, fun q member => kept (sound.failed q member),
    fun q member => kept (sound.history q member), sound.once, sound.apart, ?_, ?_, ?_⟩
  · intro c request found
    rcases split found with ⟨-, rfl⟩ | ⟨-, before⟩
    · exact List.getElem?_concat_length
    · exact kept (sound.running c request before)
  · intro c request found
    rcases split found with ⟨-, rfl⟩ | ⟨-, before⟩
    · exact ⟨fresh sound.history, fresh sound.failed⟩
    · exact sound.runningApart c request before
  · intro c d request first second
    rcases split first with ⟨rfl, isNew⟩ | ⟨-, before⟩
    · rcases split second with ⟨same, -⟩ | ⟨-, before⟩
      · exact same.symm
      · have := Sound.lt (sound.running d request before)
        rw [isNew] at this
        exact absurd this (Nat.lt_irrefl _)
    · rcases split second with ⟨-, isNew⟩ | ⟨-, before'⟩
      · have := Sound.lt (sound.running c request before)
        rw [isNew] at this
        exact absurd this (Nat.lt_irrefl _)
      · exact sound.runningOnce c d request before before'
  · intro request given matter
    rcases Nat.lt_or_ge request.1 r.opened.length with older | newer
    · have before : r.opened[request.1]? = some request.2 := by
        rw [← given]
        exact (List.getElem?_append_left older).symm
      rcases sound.complete request before matter with here | here | ⟨c, here⟩
      · exact Or.inl here
      · exact Or.inr (Or.inl here)
      · refine Or.inr (Or.inr ⟨c, elsewhere ?_ here⟩)
        rintro rfl
        rw [free] at here
        cases here
    · have bound := Sound.lt (r := r.begin conn value) given
      rw [Requests.begin] at bound given
      dsimp only at bound given
      rw [List.length_append, List.length_singleton] at bound
      have number : request.1 = r.opened.length := by omega
      rw [number, List.getElem?_concat_length, Option.some.injEq] at given
      refine Or.inr (Or.inr ⟨conn, ?_⟩)
      rw [Requests.begin, number.symm, given]
      exact Function.update_self ..

/-- Nothing is kept of a request that does not matter. -/
theorem Sound.finish (sound : r.Sound matters)
    (idle : ∀ request, r.running conn = some request → ¬ matters request.2) :
    (r.finish conn).Sound matters := by
  refine ⟨?_, sound.failed, sound.history, sound.once, sound.apart, ?_, ?_, ?_⟩
  · exact fun c request found => sound.running c request (running_finish c found).2
  · exact fun c request found => sound.runningApart c request (running_finish c found).2
  · intro c d request first second
    exact sound.runningOnce c d request (running_finish c first).2 (running_finish d second).2
  · intro request given matter
    rcases sound.complete request given matter with here | here | ⟨c, here⟩
    · exact Or.inl here
    · exact Or.inr (Or.inl here)
    · refine Or.inr (Or.inr ⟨c, ?_⟩)
      have different : c ≠ conn := by
        rintro rfl
        exact idle request here matter
      exact (Function.update_of_ne different _ _).trans here

theorem Sound.commit (sound : r.Sound matters) (found : r.running conn = some request) :
    (r.commit conn).Sound matters := by
  obtain ⟨notCommitted, notFailed⟩ := sound.runningApart conn request found
  have history : (r.commit conn).history = r.history ++ [request] := by
    rw [Requests.commit, found]
    rfl
  have numbers : (r.commit conn).history.map Prod.fst = r.history.map Prod.fst ++ [request.1] := by
    rw [history, List.map_append]
    rfl
  refine ⟨?_, sound.failed, ?_, ?_, ?_, ?_, ?_, ?_⟩
  · exact fun c q here => sound.running c q (running_finish c here).2
  · intro q member
    rw [history] at member
    rcases List.mem_append.mp member with before | new
    · exact sound.history q before
    · rw [List.mem_singleton.mp new]
      exact sound.running conn request found
  · rw [numbers]
    exact sound.once.append (List.nodup_singleton _)
      (List.disjoint_singleton.mpr notCommitted)
  · intro q member
    rw [numbers, List.mem_append, List.mem_singleton, not_or]
    refine ⟨sound.apart q member, fun same => notFailed ?_⟩
    rw [← same]
    exact List.mem_map_of_mem member
  · intro c q here
    obtain ⟨different, before⟩ := running_finish c here
    obtain ⟨apart, apartFailed⟩ := sound.runningApart c q before
    refine ⟨?_, apartFailed⟩
    rw [numbers, List.mem_append, List.mem_singleton, not_or]
    refine ⟨apart, sound.ne_of_running found different before⟩
  · intro c d q first second
    exact sound.runningOnce c d q (running_finish c first).2 (running_finish d second).2
  · intro q given matter
    rw [history]
    rcases sound.complete q given matter with here | here | ⟨c, here⟩
    · exact Or.inl (List.mem_append_left _ here)
    · exact Or.inr (Or.inl here)
    · by_cases same : c = conn
      · rw [same, found, Option.some.injEq] at here
        rw [← here]
        exact Or.inl List.mem_concat_self
      · exact Or.inr (Or.inr ⟨c, (Function.update_of_ne same _ _).trans here⟩)

theorem Sound.drop (sound : r.Sound matters) (found : r.running conn = some request) :
    (r.drop conn).Sound matters := by
  obtain ⟨notCommitted, notFailed⟩ := sound.runningApart conn request found
  have failed : (r.drop conn).failed = r.failed ++ [request] := by
    rw [Requests.drop, found]
    rfl
  refine ⟨?_, ?_, sound.history, sound.once, ?_, ?_, ?_, ?_⟩
  · exact fun c q here => sound.running c q (running_finish c here).2
  · intro q member
    rw [failed] at member
    rcases List.mem_append.mp member with before | new
    · exact sound.failed q before
    · rw [List.mem_singleton.mp new]
      exact sound.running conn request found
  · intro q member
    rw [failed] at member
    rcases List.mem_append.mp member with before | new
    · exact sound.apart q before
    · rw [List.mem_singleton.mp new]
      exact notCommitted
  · intro c q here
    obtain ⟨different, before⟩ := running_finish c here
    obtain ⟨apart, apartFailed⟩ := sound.runningApart c q before
    refine ⟨apart, ?_⟩
    rw [failed, List.map_append, List.map_singleton, List.mem_append, List.mem_singleton, not_or]
    refine ⟨apartFailed, sound.ne_of_running found different before⟩
  · intro c d q first second
    exact sound.runningOnce c d q (running_finish c first).2 (running_finish d second).2
  · intro q given matter
    rw [failed]
    rcases sound.complete q given matter with here | here | ⟨c, here⟩
    · exact Or.inl here
    · exact Or.inr (Or.inl (List.mem_append_left _ here))
    · by_cases same : c = conn
      · rw [same, found, Option.some.injEq] at here
        rw [← here]
        exact Or.inr (Or.inl List.mem_concat_self)
      · exact Or.inr (Or.inr ⟨c, (Function.update_of_ne same _ _).trans here⟩)

/-- Dropping a connection that executes nothing. -/
theorem drop_of_none (free : r.running conn = .none) : r.drop conn = r.finish conn := by
  rw [Requests.drop, free]
  exact congrArg (fun failed => { r.finish conn with failed := failed }) (List.append_nil _)

end Requests

end Library
