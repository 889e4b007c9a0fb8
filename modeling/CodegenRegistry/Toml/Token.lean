/-!
# TOML tokens

The text of a TOML document as words, quoted strings and punctuation. Blanks and comments are
dropped; line ends are kept. The reader takes one character at a time, and its `Mode` is all that
it remembers of those before.
-/

namespace CodegenRegistry.Toml

/-- A word is a run of letters, digits and `_`, `-`, `+`. A text is quoted on one line, a block
between triple marks. -/
inductive Token
  | word (s : String)
  | text (s : String)
  | block (s : String)
  | dot
  | equals
  | comma
  | openBracket
  | closeBracket
  | openBrace
  | closeBrace
  | newline
deriving DecidableEq, Repr

inductive Quote
  | basic
  | literal
deriving DecidableEq, Repr

def Quote.mark : Quote → Char
  | basic => '"'
  | literal => '\x27'

/-- Where the reader stands. The characters read so far are held in reverse. -/
inductive Mode
  | between
  | comment
  | word (read : List Char)
  | opened (q : Quote)
  | openedTwice (q : Quote)
  | blockStart (q : Quote)
  | line (q : Quote) (read : List Char)
  | block (q : Quote) (read : List Char)
  | closing (q : Quote) (read : List Char) (marks : Nat)
  | escape (inBlock : Bool) (read : List Char)
  | digits (inBlock : Bool) (read : List Char) (left value : Nat)
  | folding (read : List Char) (broken : Bool)
deriving DecidableEq, Repr

def isWordChar (c : Char) : Bool :=
  c.isAlphanum || c = '_' || c = '-' || c = '+'

def isPlain (c : Char) : Bool :=
  c = '\t' || (0x20 ≤ c.toNat && c.toNat ≠ 0x7f)

def hexDigit? (c : Char) : Option Nat :=
  if '0' ≤ c ∧ c ≤ '9' then some (c.toNat - '0'.toNat)
  else if 'a' ≤ c ∧ c ≤ 'f' then some (c.toNat - 'a'.toNat + 10)
  else if 'A' ≤ c ∧ c ≤ 'F' then some (c.toNat - 'A'.toNat + 10)
  else none

namespace Mode

/-- What one character leads to: the next mode, and the tokens that it completes. -/
abbrev Step := Option (Mode × List Token)

private def stringOf (read : List Char) : String :=
  String.ofList read.reverse

def stepBetween (c : Char) : Step :=
  if c = ' ' ∨ c = '\t' then some (between, [])
  else if c = '\n' then some (between, [.newline])
  else if c = '#' then some (comment, [])
  else if c = '"' then some (opened .basic, [])
  else if c = '\x27' then some (opened .literal, [])
  else if c = '.' then some (between, [.dot])
  else if c = '=' then some (between, [.equals])
  else if c = ',' then some (between, [.comma])
  else if c = '[' then some (between, [.openBracket])
  else if c = ']' then some (between, [.closeBracket])
  else if c = '\x7b' then some (between, [.openBrace])
  else if c = '\x7d' then some (between, [.closeBrace])
  else if isWordChar c then some (word [c], [])
  else none

def stepAfter (t : Token) (c : Char) : Step :=
  (stepBetween c).map fun (m, ts) => (m, t :: ts)

def stepLine (q : Quote) (read : List Char) (c : Char) : Step :=
  if c = q.mark then some (between, [.text (stringOf read)])
  else if q = .basic ∧ c = '\\' then some (escape false read, [])
  else if isPlain c then some (line q (c :: read), [])
  else none

def stepBlock (q : Quote) (read : List Char) (c : Char) : Step :=
  if c = q.mark then some (closing q read 1, [])
  else if q = .basic ∧ c = '\\' then some (escape true read, [])
  else if c = '\n' ∨ isPlain c then some (block q (c :: read), [])
  else none

def resume (inBlock : Bool) (read : List Char) : Mode :=
  if inBlock then block .basic read else line .basic read

/-- The character after a backslash. In a block the backslash may end the line: it drops all
blanks and line ends that follow. -/
def stepEscape (inBlock : Bool) (read : List Char) (c : Char) : Step :=
  let put (d : Char) : Step := some (resume inBlock (d :: read), [])
  if c = '"' ∨ c = '\\' then put c
  else if c = 'b' then put '\x08'
  else if c = 't' then put '\t'
  else if c = 'n' then put '\n'
  else if c = 'f' then put '\x0c'
  else if c = 'r' then put '\r'
  else if c = 'e' then put '\x1b'
  else if c = 'x' then some (digits inBlock read 2 0, [])
  else if c = 'u' then some (digits inBlock read 4 0, [])
  else if c = 'U' then some (digits inBlock read 8 0, [])
  else if inBlock ∧ (c = ' ' ∨ c = '\t') then some (folding read false, [])
  else if inBlock ∧ c = '\n' then some (folding read true, [])
  else none

def stepDigits (inBlock : Bool) (read : List Char) (left value : Nat) (c : Char) : Step :=
  (hexDigit? c).bind fun d =>
    let n := value * 16 + d
    if 1 < left then some (digits inBlock read (left - 1) n, [])
    else if n.isValidChar then some (resume inBlock (Char.ofNat n :: read), [])
    else none

/-- A mark inside a block: three in a row end it, and up to two before those belong to it. -/
def stepClosing (q : Quote) (read : List Char) (marks : Nat) (c : Char) : Step :=
  if c = q.mark ∧ marks < 5 then some (closing q read (marks + 1), [])
  else if marks < 3 then stepBlock q (List.replicate marks q.mark ++ read) c
  else stepAfter (.block (stringOf (List.replicate (marks - 3) q.mark ++ read))) c

def step : Mode → Char → Step
  | between, c => stepBetween c
  | comment, c =>
    if c = '\n' then some (between, [.newline])
    else if isPlain c then some (comment, [])
    else none
  | word read, c =>
    if isWordChar c then some (word (c :: read), [])
    else stepAfter (.word (stringOf read)) c
  | opened q, c => if c = q.mark then some (openedTwice q, []) else stepLine q [] c
  | openedTwice q, c =>
    if c = q.mark then some (blockStart q, []) else stepAfter (.text "") c
  | blockStart q, c => if c = '\n' then some (block q [], []) else stepBlock q [] c
  | line q read, c => stepLine q read c
  | block q read, c => stepBlock q read c
  | closing q read marks, c => stepClosing q read marks c
  | escape inBlock read, c => stepEscape inBlock read c
  | digits inBlock read left value, c => stepDigits inBlock read left value c
  | folding read broken, c =>
    if c = ' ' ∨ c = '\t' then some (folding read broken, [])
    else if c = '\n' then some (folding read true, [])
    else if broken then stepBlock .basic read c
    else none

def finish : Mode → Option (List Token)
  | between | comment => some []
  | word read => some [.word (stringOf read)]
  | openedTwice _ => some [.text ""]
  | closing q read marks =>
    if marks < 3 then none
    else some [.block (stringOf (List.replicate (marks - 3) q.mark ++ read))]
  | opened _ | blockStart _ | line .. | block .. | escape .. | digits .. | folding .. => none

def run : Mode → List Char → Step
  | m, [] => some (m, [])
  | m, c :: cs =>
    (m.step c).bind fun (m', ts) => (run m' cs).map fun (m'', us) => (m'', ts ++ us)

end Mode

namespace Token

/-- Lines end with a line feed, perhaps after a carriage return, which stands nowhere else. -/
def lineFeeds : List Char → Option (List Char)
  | [] => some []
  | '\r' :: '\n' :: cs => (lineFeeds cs).map ('\n' :: ·)
  | c :: cs => if c = '\r' then none else (lineFeeds cs).map (c :: ·)

/-- A byte order mark may stand at the start of a document. -/
def dropMark : List Char → List Char
  | '\ufeff' :: cs => cs
  | cs => cs

def scan (s : String) : Option (List Token) :=
  (lineFeeds (dropMark s.toList)).bind fun cs =>
    (Mode.between.run cs).bind fun (m, ts) => m.finish.map (ts ++ ·)

end Token

end CodegenRegistry.Toml
