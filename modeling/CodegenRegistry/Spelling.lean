import CodegenRegistry.Choice
import CodegenRegistry.Text.EditDistance
/-!
# Spelling hints

A hint names the candidate nearest to a misspelt word, if one is near enough. Of candidates at
one distance the smaller string wins, so a hint does not depend on the order of the candidates.
-/

namespace CodegenRegistry

inductive Cutoff
  | byLength
  | fixed (bound : Nat)
deriving DecidableEq, Repr

namespace Cutoff

def limit : Cutoff → Nat → Nat
  | fixed bound, _ => bound
  | byLength, length =>
    if length ≤ 2 then 0 else if length ≤ 4 then 1 else if length ≤ 6 then 2 else 3

/-- The cutoffs are written `by-length`, which carries nothing, and `fixed`, which carries its
bound. -/
def ofChoice? (c : Choice) : Option Cutoff :=
  if c.name = "by-length" then c.bare?.map fun _ => byLength
  else if c.name = "fixed" then c.word?.map fixed
  else none

end Cutoff

namespace Spelling

def distance (v w : String) : Nat :=
  Text.EditDistance.byRows v.toList w.toList

/-- Nearer candidates come first, and of equally near ones the smaller. -/
def Precedes (p q : Nat × String) : Prop :=
  p.1 < q.1 ∨ p.1 = q.1 ∧ p.2 < q.2

instance : DecidableRel Precedes :=
  fun p q => inferInstanceAs (Decidable (p.1 < q.1 ∨ p.1 = q.1 ∧ p.2 < q.2))

def first : List (Nat × String) → Option (Nat × String)
  | [] => none
  | p :: ps =>
    match first ps with
    | none => some p
    | some q => if Precedes q p then some q else some p

/-- The candidates that may be hinted at for a word, each with its distance. A word is no hint
for itself. -/
def eligible (cutoff : Cutoff) (word : String) (candidates : List String) :
    List (Nat × String) :=
  ((candidates.filter (· ≠ word)).map fun c => (distance word c, c)).filter
    fun p => p.1 ≤ cutoff.limit word.length

def suggest (cutoff : Cutoff) (word : String) (candidates : List String) : Option String :=
  (first (eligible cutoff word candidates)).map Prod.snd

end Spelling

end CodegenRegistry
