/-! # Similar names

When a command line names something unknown, the parser suggests known names that are close to it
by Jaro similarity: the share of characters the two names have in common within a window, less
half the common characters that appear out of order. The score is computed in the same
floating-point steps as the usual implementation, so the cut-off (a score above 0.7) and the
ranking fall on the same side for every pair of names.
-/
namespace ChangeLedger

def matchWithin (b : List Char) (taken : List Bool) (c : Char) (lo hi : Nat) :
    Option (List Bool) :=
  match (List.range' lo (hi - lo)).find? (fun j => b[j]? == some c && !(taken[j]?.getD true)) with
  | some j => some (taken.set j true)
  | none => none

def jaroMatches (a b : List Char) : List Char × List Char :=
  let window := max a.length b.length / 2 - 1
  let (aHits, taken) := (a.zip (List.range a.length)).foldl
    (fun (acc : List Char × List Bool) (p : Char × Nat) =>
      let (c, i) := p
      match matchWithin b acc.2 c (i - window) (min b.length (i + window + 1)) with
      | some taken => (acc.1 ++ [c], taken)
      | none => acc)
    ([], List.replicate b.length false)
  let bHits := (b.zip taken).filterMap fun (c, t) => if t then some c else none
  (aHits, bHits)

/-- Jaro similarity of two names, between 0 and 1. -/
def jaroSimilarity (a b : String) : Float :=
  let as := a.toList
  let bs := b.toList
  if as.isEmpty && bs.isEmpty then 1.0
  else if as.isEmpty || bs.isEmpty then 0.0
  else
    let (aHits, bHits) := jaroMatches as bs
    let m := aHits.length
    if m = 0 then 0.0
    else
      let t := ((aHits.zip bHits).filter fun (x, y) => x ≠ y).length / 2
      (Float.ofNat m / Float.ofNat as.length + Float.ofNat m / Float.ofNat bs.length +
        Float.ofNat (m - t) / Float.ofNat m) / 3.0

/-- The candidates scoring above 0.7, least similar first, ties in the candidates' order. -/
def similarNames (v : String) (candidates : List String) : List String :=
  let scored := (candidates.map fun c => (jaroSimilarity v c, c)).filter fun p => p.1 > 0.7
  (scored.mergeSort fun p q => p.1 ≤ q.1).map (·.2)

def closestName (v : String) (candidates : List String) : Option String :=
  (similarNames v candidates).getLast?

end ChangeLedger
