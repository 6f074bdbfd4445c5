/-
This file translates the map that remembers an answer for a while, as requests of threads.

A lookup, a store, a forgetting and a clearing each hold the lock, so each is one request. Reading
the clock, and the beginning and the end of a load, happen outside it. The entry with the latest
store of its key comes first.
-/

import Mathlib
import Euclid.Interleaving

namespace Euclid.Core

open List Program

/-! ### The cache -/

structure Entry (Value : Type) where
  value : Option Value
  expiresAt : Int

/-- `TtlCache`: its settings, its map and its generation. -/
structure TtlCache (Key Value : Type) where
  ttl : Int
  maxEntries : ℕ
  cacheMisses : Bool
  entries : List (Key × Entry Value)
  generation : ℕ

/-- What a lookup under the lock finds: a fresh entry, or the generation to load under. -/
inductive Lookup (Value : Type) where
  | hit (value : Option Value)
  | miss (generation : ℕ)

namespace TtlCache

variable {Key Value : Type} [DecidableEq Key]

def empty (ttl : Int) (maxEntries : ℕ) (cacheMisses : Bool) : TtlCache Key Value :=
  ⟨ttl, maxEntries, cacheMisses, [], 0⟩

section

variable (cache : TtlCache Key Value)

/-- The time to live of a cache on its clock, which counts nanoseconds. -/
def lifetime : Int := cache.ttl * 1000000

def find (key : Key) : Option (Entry Value) :=
  (cache.entries.find? (·.1 = key)).map (·.2)

/-- The first part of `get` under the lock. -/
def lookUp (key : Key) (now : Int) : Lookup Value :=
  match cache.find key with
  | some entry => if entry.expiresAt > now then .hit entry.value else .miss cache.generation
  | none => .miss cache.generation

def evict (now : Int) : TtlCache Key Value :=
  let kept := { cache with entries := cache.entries.filter fun entry => ¬entry.2.expiresAt ≤ now }
  if kept.entries.length ≥ kept.maxEntries then { kept with entries := [] } else kept

def assign (key : Key) (entry : Entry Value) : TtlCache Key Value :=
  { cache with entries := (key, entry) :: cache.entries.filter fun entry => entry.1 ≠ key }

/-- The second part of `get` under the lock. -/
def store (key : Key) (loaded : Option Value) (now : Int) (generation : ℕ) : TtlCache Key Value :=
  if generation ≠ cache.generation then cache
  else if loaded.isNone ∧ cache.cacheMisses = false then cache
  else
    let roomy := if cache.entries.length ≥ cache.maxEntries then cache.evict now else cache
    roomy.assign key { value := loaded, expiresAt := now + cache.lifetime }

def clear : TtlCache Key Value :=
  { cache with entries := [], generation := cache.generation + 1 }

def erase (key : Key) : TtlCache Key Value :=
  { cache with
    entries := cache.entries.filter fun entry => entry.1 ≠ key
    generation := cache.generation + 1 }

end

/-! ### What each operation keeps -/

variable {cache : TtlCache Key Value} {key : Key} {loaded : Option Value} {now : Int}
  {generation : ℕ}

theorem find_mem {entry : Entry Value} (found : cache.find key = some entry) :
    (key, entry) ∈ cache.entries := by
  obtain ⟨pair, first, rfl⟩ := Option.map_eq_some_iff.mp found
  have same : pair.1 = key := by simpa using List.find?_some first
  rw [← same]
  exact mem_of_find?_eq_some first

theorem lookUp_hit {value : Option Value} (hit : cache.lookUp key now = .hit value) :
    ∃ entry, (key, entry) ∈ cache.entries ∧ entry.value = value ∧ now < entry.expiresAt := by
  unfold lookUp at hit
  split at hit
  · rename_i entry found
    split at hit
    · rename_i fresh
      exact ⟨entry, find_mem found, Lookup.hit.inj hit, fresh⟩
    · nomatch hit
  · nomatch hit

theorem lookUp_miss {current : ℕ} (miss : cache.lookUp key now = .miss current) :
    current = cache.generation := by
  unfold lookUp at miss
  split at miss
  · split at miss
    · nomatch miss
    · exact (Lookup.miss.inj miss).symm
  · exact (Lookup.miss.inj miss).symm

variable {entry : Key × Entry Value}

omit [DecidableEq Key] in
theorem mem_of_mem_evict (mem : entry ∈ (cache.evict now).entries) : entry ∈ cache.entries := by
  unfold evict at mem
  dsimp only at mem
  split at mem
  · nomatch mem
  · exact (mem_filter.mp mem).1

omit [DecidableEq Key] in
theorem evict_room (positive : 0 < cache.maxEntries) :
    (cache.evict now).entries.length < cache.maxEntries := by
  unfold evict
  dsimp only
  split
  · exact positive
  · rename_i roomy
    exact not_le.mp roomy

theorem mem_of_mem_store (mem : entry ∈ (cache.store key loaded now generation).entries) :
    entry ∈ cache.entries ∨
      (generation = cache.generation ∧ entry = (key, ⟨loaded, now + cache.lifetime⟩)) := by
  unfold store at mem
  split at mem
  · exact .inl mem
  rename_i unchanged
  split at mem
  · exact .inl mem
  rcases mem_cons.mp mem with same | others
  · exact .inr ⟨not_not.mp unchanged, same⟩
  · have earlier := (mem_filter.mp others).1
    split at earlier
    · exact .inl (mem_of_mem_evict earlier)
    · exact .inl earlier

theorem store_fields : (cache.store key loaded now generation).lifetime = cache.lifetime ∧
      (cache.store key loaded now generation).ttl = cache.ttl ∧
      (cache.store key loaded now generation).maxEntries = cache.maxEntries ∧
      (cache.store key loaded now generation).generation = cache.generation := by
  unfold store assign evict
  dsimp only
  split
  · exact ⟨rfl, rfl, rfl, rfl⟩
  split
  · exact ⟨rfl, rfl, rfl, rfl⟩
  split
  · split <;> exact ⟨rfl, rfl, rfl, rfl⟩
  · exact ⟨rfl, rfl, rfl, rfl⟩

theorem store_length (positive : 0 < cache.maxEntries)
    (within : cache.entries.length ≤ cache.maxEntries) :
    (cache.store key loaded now generation).entries.length ≤ cache.maxEntries := by
  unfold store
  split
  · exact within
  split
  · exact within
  refine length_cons.trans_le (Nat.succ_le_of_lt ?_)
  refine (length_filter_le ..).trans_lt ?_
  split
  · exact evict_room positive
  · rename_i roomy
    exact not_le.mp roomy

end TtlCache

/-! ### Requests and calls -/

section Requests

variable (Key Value : Type)

/-- What a thread does at once. -/
inductive Req where
  | now
  | lookUp (key : Key) (reading : Int)
  | beginLoad (key : Key)
  | endLoad (key : Key)
  | store (key : Key) (loaded : Option Value) (reading : Int) (generation : ℕ)
  | erase (key : Key)
  | clear

/-- What comes back. The end of a load is an answer, or nothing when the loader throws. -/
def Req.Answer : Req Key Value → Type
  | .now => Int
  | .lookUp _ _ => Lookup Value
  | .endLoad _ => Option (Option Value)
  | _ => Unit

/-- The cache, and how many requests have been made. -/
structure World where
  cache : TtlCache Key Value
  moment : ℕ

/-- A steady clock, and what the loader of a thread answers at a moment. -/
structure Env (Thread : Type) where
  clock : ℕ → Int
  steady : Monotone clock
  load : Thread → Key → ℕ → Option (Option Value)

end Requests

variable {Thread Key Value : Type} [DecidableEq Key]

/-- What a request does to the cache. -/
def Req.effect : Req Key Value → TtlCache Key Value → TtlCache Key Value
  | .store key loaded reading generation, cache => cache.store key loaded reading generation
  | .erase key, cache => cache.erase key
  | .clear, cache => cache.clear
  | _, cache => cache

def Env.answer (env : Env Key Value Thread) (tid : Thread)
    (world : World Key Value) : (req : Req Key Value) → req.Answer
  | .now => env.clock world.moment
  | .lookUp key now => world.cache.lookUp key now
  | .beginLoad _ => ()
  | .endLoad key => env.load tid key world.moment
  | .store .. => ()
  | .erase _ => ()
  | .clear => ()

/-- One request of a thread. Every request is a moment of its own. -/
def machine (env : Env Key Value Thread) (tid : Thread) :
    Machine (Req Key Value) (Req.Answer Key Value) (World Key Value) :=
  fun req world =>
    (env.answer tid world req, ⟨req.effect world.cache, world.moment + 1⟩)

inductive Fault where
  | loader

abbrev Op (Key Value Result : Type) : Type :=
  Program (Req Key Value) (Req.Answer Key Value) Fault Result

/-- `steady_clock::now`. -/
def readClock : Op Key Value Int := issue Req.now

/-- The first part of `get` under the lock. -/
def lookUp (key : Key) (reading : Int) : Op Key Value (Lookup Value) :=
  issue (Req.lookUp key reading)

def endLoad (key : Key) : Op Key Value (Option (Option Value)) :=
  issue (Req.endLoad key)

/-- `loader(key)`. -/
def load (key : Key) : Op Key Value (Option Value) := do
  let _ ← issue (.beginLoad key)
  match ← endLoad key with
  | some loaded => pure loaded
  | none => raise .loader

def get (ttl : Int) (key : Key) : Op Key Value (Option Value) :=
  if ttl ≤ 0 then load key
  else do
    let now ← readClock
    match ← lookUp key now with
    | .hit value => pure value
    | .miss generation =>
      let loaded ← load key
      let _ ← issue (.store key loaded now generation)
      pure loaded

inductive Call (Key : Type) where
  | get (key : Key)
  | erase (key : Key)
  | clear

def Call.program (ttl : Int) : Call Key → Op Key Value (Option Value)
  | .get key => Core.get ttl key
  | .erase key => do
    let _ ← issue (.erase key)
    pure none
  | .clear => do
    let _ ← issue .clear
    pure none

end Euclid.Core
