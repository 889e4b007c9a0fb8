import CodegenRegistry.Text.Printable
/-!
# Quoted text

The inspection form of a string stands between double quotes. Quotes, backslashes and characters
that cannot be printed are escaped, so that it fills one line.
-/

namespace CodegenRegistry.Text.Quoted

def escape (c : Char) : List Char :=
  if c = '"' then ['\\', '"']
  else if c = '\\' then ['\\', '\\']
  else if c = '\t' then ['\\', 't']
  else if c = '\n' then ['\\', 'n']
  else if c = '\r' then ['\\', 'r']
  else if c = '\x00' then ['\\', '0']
  else if Printable.isPrintable c then [c]
  else ['\\', 'u', '\x7b'] ++ Nat.toDigits 16 c.toNat ++ ['\x7d']

def quote (s : String) : String :=
  "\"" ++ String.ofList (s.toList.flatMap escape) ++ "\""

def enclose (opening closing : String) (items : List String) : String :=
  opening ++ ", ".intercalate items ++ closing

def bracketed (items : List String) : String :=
  enclose "[" "]" (items.map quote)

def braced (items : List String) : String :=
  enclose "\x7b" "\x7d" (items.map quote)

/-- The inspection form of a record whose further fields are not shown. -/
def record (name : String) (fields : List (String × String)) : String :=
  name ++ " " ++
    enclose "\x7b " " \x7d" (fields.map (fun f => f.1 ++ ": " ++ f.2) ++ [".."])

end CodegenRegistry.Text.Quoted
