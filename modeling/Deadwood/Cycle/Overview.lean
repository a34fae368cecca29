import Deadwood.Cycle.Classified
import Deadwood.Text.Case

/-!
# Overview of the cycles of a code base

Cycles are searched, classified, filtered, ranked and counted. A cycle that is filtered out is
counted for the first filter that rejects it.

## Main definitions

* `CycleOptions`: bounds, filters and the length of the list.
* `CycleFilter`, `CycleOptions.rejectedBy?`: why a cycle is left out.
* `CycleOverview`, `cycleOverview`: the cycles of a code base.
-/

namespace Deadwood

open Text

/-! ## Clean-up functions -/

/-- Whether a function is named like one that only cleans up: one of the known words in any case, or
one of them followed by an upper-case ASCII letter. -/
def isCleanupName (name : String) : Bool :=
  let lowered := lower name
  ["clear", "reset", "dispose", "destroy", "close", "cleanup", "teardown"].any fun word =>
    lowered = word
      || (startsWith word lowered
        && ((utf8 name)[byteLength word]?).any fun b => 65 ≤ b && b ≤ 90)

/-! ## Filters -/

/-- Bounds, filters and the length of the list. -/
structure CycleOptions where
  minSize : Int := 1
  maxLength : Int := 20
  maxCycles : Int := 1000
  excludeRecursive : Bool := false
  excludeClear : Bool := false
  /-- The smallest number of functions; no bound if it is not positive. -/
  minComplexity : Int := 0
  crossLayerOnly : Bool := false
  recursiveOnly : Bool := false
  /-- The longest list; no bound if it is not positive. -/
  limit : Int := 0
  rootDir : String := ""
  layers : List LayerRule := []

/-- Reasons to leave out a cycle, in the order in which they are tried. -/
inductive CycleFilter where
  | recursive
  | clear
  | minComplexity
  | crossLayerOnly
  | recursiveOnly
  deriving Repr, DecidableEq

/-- The positive ones of some bounds, and the usual bounds for the others. -/
def CycleLimits.ofBounds (maxCycles maxLength maxSteps minSize : Int) : CycleLimits :=
  let usual : CycleLimits := {}
  { maxCycles := if 0 < maxCycles then maxCycles.toNat else usual.maxCycles
    maxLength := if 0 < maxLength then maxLength.toNat else usual.maxLength
    maxSteps := if 0 < maxSteps then maxSteps.toNat else usual.maxSteps
    minSize := if 0 < minSize then minSize.toNat else usual.minSize }

namespace CycleOptions

def limits (o : CycleOptions) : CycleLimits :=
  .ofBounds o.maxCycles o.maxLength 0 o.minSize

def boundaries (o : CycleOptions) : Boundaries :=
  .ofRoot o.rootDir o.layers

def rejects (o : CycleOptions) (idx : FunctionIndex) (c : ClassifiedCycle) : CycleFilter → Bool
  | .recursive => o.excludeRecursive && c.type = .recursive
  | .clear => o.excludeClear && c.nodes.any fun id => (idx.get? id).any (isCleanupName ·.name)
  | .minComplexity => 0 < o.minComplexity && (c.size : Int) < o.minComplexity
  | .crossLayerOnly => o.crossLayerOnly && !c.crossLayer
  | .recursiveOnly => o.recursiveOnly && c.type ≠ .recursive

def rejectedBy? (o : CycleOptions) (idx : FunctionIndex) (c : ClassifiedCycle) :
    Option CycleFilter :=
  [.recursive, .clear, .minComplexity, .crossLayerOnly, .recursiveOnly].find? (o.rejects idx c)

/-- The first cycles of a list, as many as the options allow. -/
def shorten (o : CycleOptions) (cs : List ClassifiedCycle) : List ClassifiedCycle :=
  if 0 < o.limit then cs.take o.limit.toNat else cs

end CycleOptions

/-! ## Overview -/

/-- How many cycles there were, how many are listed, and where the others went. -/
structure FilterStats where
  total : Nat
  listed : Nat
  byRecursive : Nat
  byClear : Nat
  byMinComplexity : Nat
  byCrossLayerOnly : Nat
  byRecursiveOnly : Nat
  limitedOut : Nat

/-- Cycles per importance and per type. -/
structure CycleCounts where
  critical : Nat
  high : Nat
  medium : Nat
  low : Nat
  recursive : Nat
  mutualCalls : Nat
  complex : Nat

def CycleCounts.of (cs : List ClassifiedCycle) : CycleCounts :=
  let importance (i : Importance) := cs.countP (·.importance = i)
  let type (t : CycleType) := cs.countP (·.type = t)
  { critical := importance .critical
    high := importance .high
    medium := importance .medium
    low := importance .low
    recursive := type .recursive
    mutualCalls := type .mutualCalls
    complex := type .complex }

/-- The cycles of a code base. -/
structure CycleOverview where
  cycles : List ClassifiedCycle
  stats : FilterStats
  counts : CycleCounts
  truncated : Bool

/-- Search, classify, filter, rank and count the cycles of a code base. -/
def cycleOverview {R : Type} (o : CycleOptions) (fs : List FunctionRecord)
    (edges : List (CallEdge R)) : CycleOverview :=
  let idx := FunctionIndex.ofList fs
  let search := findCycles o.limits (idx.validEdges edges)
  let all := search.cycles.map (ClassifiedCycle.ofCycle idx o.boundaries)
  let kept := ClassifiedCycle.ranked (all.filter fun c => (o.rejectedBy? idx c).isNone)
  let listed := o.shorten kept
  let rejected (f : CycleFilter) := all.countP fun c => o.rejectedBy? idx c = some f
  { cycles := listed
    stats :=
      { total := all.length
        listed := listed.length
        byRecursive := rejected .recursive
        byClear := rejected .clear
        byMinComplexity := rejected .minComplexity
        byCrossLayerOnly := rejected .crossLayerOnly
        byRecursiveOnly := rejected .recursiveOnly
        limitedOut := kept.length - listed.length }
    counts := .of listed
    truncated := search.truncated }

/-! ## Written form -/

def FilterStats.toJson (s : FilterStats) : Json :=
  .object [
    ("total_cycles", .nat s.total),
    ("filtered_cycles", .nat s.listed),
    ("excluded_by_recursive", .nat s.byRecursive),
    ("excluded_by_clear", .nat s.byClear),
    ("excluded_by_min_complexity", .nat s.byMinComplexity),
    ("excluded_by_cross_layer_only", .nat s.byCrossLayerOnly),
    ("excluded_by_recursive_only", .nat s.byRecursiveOnly),
    ("limited_out", .nat s.limitedOut)]

def CycleCounts.toJson (c : CycleCounts) : Json :=
  .object [
    ("critical", .nat c.critical),
    ("high", .nat c.high),
    ("medium", .nat c.medium),
    ("low", .nat c.low),
    ("recursive", .nat c.recursive),
    ("mutual", .nat c.mutualCalls),
    ("complex", .nat c.complex)]

def CycleOverview.toJson (o : CycleOverview) : Json :=
  .object [
    ("cycles", .list (o.cycles.map (·.toJson))),
    ("filter_stats", o.stats.toJson),
    ("summary", o.counts.toJson),
    ("truncated", .bool o.truncated)]

end Deadwood
