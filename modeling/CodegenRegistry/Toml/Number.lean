import CodegenRegistry.Toml.Token
/-!
# TOML integers

An integer is written in decimal with an optional sign, or in base 16, 8 or 2 behind a mark.
Single underscores may stand between digits.
-/

namespace CodegenRegistry.Toml

namespace Number

def digit? (base : Nat) (c : Char) : Option Nat :=
  (hexDigit? c).filter (· < base)

/-- Reads digits with single underscores between them, after digits of the given value. -/
def digits? (base : Nat) : Nat → Bool → List Char → Option Nat
  | value, afterDigit, [] => if afterDigit then some value else none
  | value, afterDigit, c :: cs =>
    if c = '_' then if afterDigit then digits? base value false cs else none
    else (digit? base c).bind fun d => digits? base (value * base + d) true cs

/-- A decimal number has no superfluous zero in front. -/
def decimal? (cs : List Char) : Option Nat :=
  match cs with
  | '0' :: _ :: _ => none
  | _ => digits? 10 0 false cs

def integer? : List Char → Option Int
  | '0' :: 'x' :: cs => (digits? 16 0 false cs).map Int.ofNat
  | '0' :: 'o' :: cs => (digits? 8 0 false cs).map Int.ofNat
  | '0' :: 'b' :: cs => (digits? 2 0 false cs).map Int.ofNat
  | '+' :: cs => (decimal? cs).map Int.ofNat
  | '-' :: cs => (decimal? cs).map fun n => -(n : Int)
  | cs => (decimal? cs).map Int.ofNat

end Number

end CodegenRegistry.Toml
