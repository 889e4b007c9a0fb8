/-!
# Written choices

Settings files and messages write a choice among alternatives as a name, alone or with one
payload. What carries nothing may be written either way.
-/

namespace CodegenRegistry

inductive Payload
  | absent
  | empty
  | number (n : Int)
  | other
deriving DecidableEq, Repr

structure Choice where
  name : String
  payload : Payload := .absent
deriving DecidableEq, Repr

namespace Choice

def bare? (c : Choice) : Option String :=
  match c.payload with
  | .absent | .empty => some c.name
  | .number _ | .other => none

/-- The number that a choice carries, when it is an unsigned word of 64 bits. -/
def word? (c : Choice) : Option Nat :=
  match c.payload with
  | .number (.ofNat n) => if n < UInt64.size then some n else none
  | _ => none

end Choice

end CodegenRegistry
