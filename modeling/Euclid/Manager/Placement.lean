/-
This file translates the decision of the manager on which node the next instance of an application
goes, and whether one that is placed is to be moved to a better one.

The nodes are looked through in the order they come in, and the best so far is kept. Core counts are
what the nodes report, and a product of one that is too large wraps around. Load averages and the
overcommit ratio are rational numbers here.
-/

import Mathlib.Data.Rat.Floor
import Euclid.Bytes
import Euclid.Collection

namespace Euclid.Manager.Placement

open Collection

/-! ### Nodes and constraints -/

/-- One node placement may choose, and what it is judged on. -/
structure Candidate where
  name : String
  labels : List (String × String)
  cpuCount : Int
  loadAverage : ℚ
  instancesOfApplication : Int
  acceptsWork : Bool
  memoryMb : Int
  committedMemoryMb : Int
  deriving DecidableEq

open Candidate

/-- What an application will accept. -/
structure Constraints where
  nodes : List String
  labels : List (String × String)
  memoryMb : Int
  overcommitRatio : ℚ

/-- `Fits`: one more instance, on top of what is committed. -/
def Candidate.fits (constraints : Constraints) (cand : Candidate) : Bool :=
  if constraints.memoryMb ≤ 0 ∨ cand.memoryMb ≤ 0 then true
  else
    let ratio : ℚ := if 0 < constraints.overcommitRatio then constraints.overcommitRatio else 1
    decide ((int64 (cand.committedMemoryMb + constraints.memoryMb) : ℚ) ≤ cand.memoryMb * ratio)

def Candidate.satisfies (constraints : Constraints) (cand : Candidate) : Bool :=
  cand.acceptsWork && (constraints.nodes.isEmpty || constraints.nodes.contains cand.name) &&
    constraints.labels.all fun required => cand.labels.lookup required.1 == some required.2

/-- A node that reported no core count is taken as one core. -/
def Candidate.cores (cand : Candidate) : Int := max 1 cand.cpuCount

def Candidate.normalisedLoad (cand : Candidate) : ℚ :=
  cand.loadAverage / cand.cores

/-- Loads closer together than this are the same. -/
def kSameLoad : ℚ := 1 / 100

/-- `CompareDensity`: negative when the first would be the sparser, with so many more instances on
each. -/
def compareDensity (a : Candidate) (addA : Int) (b : Candidate) (addB : Int) : Int :=
  int64 (int64 (int64 (a.instancesOfApplication + addA) * b.cores) -
    int64 (int64 (b.instancesOfApplication + addB) * a.cores))

/-! ### Choosing -/

def keepBest (eligible : Candidate → Bool) (replaces : Candidate → Candidate → Bool) :
    Option Candidate → List Candidate → Option Candidate
  | best, [] => best
  | best, cand :: rest =>
    if eligible cand then
      match best with
      | none => keepBest eligible replaces (some cand) rest
      | some found =>
        keepBest eligible replaces (some (if replaces cand found then cand else found)) rest
    else keepBest eligible replaces best rest

/-- The node is one the instance may be added to. -/
def Candidate.admits (constraints : Constraints) (cand : Candidate) : Bool :=
  cand.satisfies constraints && cand.fits constraints

/-- Sparsest per core with the instance on it, then least loaded per core, then the name. -/
def Candidate.isBetter (cand best : Candidate) : Bool :=
  if compareDensity cand 1 best 1 ≠ 0 then decide (compareDensity cand 1 best 1 < 0)
  else
    let difference := cand.normalisedLoad - best.normalisedLoad
    if kSameLoad < |difference| then decide (difference < 0) else decide (cand.name < best.name)

section

variable (constraints : Constraints)

/-- `Choose`, with the node it has found. -/
def chooseNode (cands : List Candidate) : Option Candidate :=
  keepBest (admits constraints) isBetter none cands

def choose (cands : List Candidate) : Option String :=
  (chooseNode constraints cands).map name

/-! ### Rebalancing -/

structure Move where
  fromNode : String
  toNode : String
  deriving DecidableEq

/-- A holder that must be left goes before one that may keep its instance, then the densest per
core, then the name. -/
def Candidate.isWorse (cand worst : Candidate) : Bool :=
  let mustLeave := !cand.satisfies constraints
  let worstMustLeave := !worst.satisfies constraints
  if mustLeave ≠ worstMustLeave then mustLeave
  else if compareDensity cand 0 worst 0 ≠ 0 then
    decide (0 < compareDensity cand 0 worst 0)
  else decide (cand.name < worst.name)

/-- The holder an instance would be taken from. -/
def worstHolder (cands : List Candidate) : Option Candidate :=
  keepBest (fun cand => decide (0 < cand.instancesOfApplication))
    (isWorse constraints) none cands

def chooseRebalance (cands : List Candidate) : Option Move :=
  match worstHolder constraints cands, choose constraints cands with
  | some holder, some chosen =>
    if chosen = holder.name then none
    else if holder.satisfies constraints then
      match cands.find? fun cand => cand.name = chosen with
      | none => none
      | some found =>
        if compareDensity holder 0 found 1 ≤ 0 then none else some ⟨holder.name, chosen⟩
    else some ⟨holder.name, chosen⟩
  | _, _ => none

/-! ### Carrying a move out -/

/-- A node with so many more instances of the application. -/
def Candidate.adding (instances : Int) (cand : Candidate) : Candidate :=
  { cand with
    instancesOfApplication := cand.instancesOfApplication + instances
    committedMemoryMb := cand.committedMemoryMb + instances * max 0 constraints.memoryMb }

end

def Candidate.isNamed (name : String) (cand : Candidate) : Bool := decide (cand.name = name)

/-- One instance of the application taken off a node. -/
def withdrawn (constraints : Constraints) (name : String) (cands : List Candidate) :
    List Candidate :=
  updateFirst (isNamed name) (adding constraints (-1)) cands

/-- One instance of the application put on a node. -/
def placed (constraints : Constraints) (name : String) (cands : List Candidate) : List Candidate :=
  updateFirst (isNamed name) (adding constraints 1) cands

/-- The nodes after the move that is proposed, if there is one. -/
def rebalanced (constraints : Constraints) (cands : List Candidate) : List Candidate :=
  match chooseRebalance constraints cands with
  | none => cands
  | some move => placed constraints move.toNode (withdrawn constraints move.fromNode cands)

end Euclid.Manager.Placement
