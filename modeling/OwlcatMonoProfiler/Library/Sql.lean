import Mathlib.Data.List.Basic

/-!
# A part of SQL

The texts of simple commands and what they say: one table, conditions that compare a column with a
parameter or a number, an order, a limit, and rows that are inserted with all values given.

* `Token`, `tokens`: the lexer;
* `Reader`: reading from the front of a list of tokens, with alternatives;
* `Command`, `CreateTable`, `CreateIndex`: what a text says;
* `readCommand`, `readCreateTable`, `readCreateIndex`: the texts that are known;
* `parameters`, `columnNames`: the names of the parameters of a text, by their positions, and those
  of the columns of its result.

Names are compared as they are written, keywords are not.
-/

namespace Sql

/-! ### Tokens -/

/-- The comparisons. -/
inductive Comparison
  | le
  | ge
  | eq
  deriving DecidableEq

inductive Token
  /-- A name, a keyword or a number. -/
  | word (name : List Char)
  /-- A parameter, with the symbol in front. -/
  | parameter (name : List Char)
  | comparison (c : Comparison)
  | symbol (c : Char)
  deriving DecidableEq

/-- A character of a name. -/
def isNameChar (c : Char) : Bool := c.isAlphanum || c = '_'

/-- The token of the characters that were read last, if there are any. -/
def wordToken : List Char → Option (List Token)
  | [] => some []
  | ['$'] => none
  | '$' :: name => some [.parameter ('$' :: name)]
  | name => some [.word name]

/-- The tokens of a text; `word` has been read before it. -/
def lex (word : List Char) : List Char → Option (List Token)
  | [] => wordToken word
  | '<' :: '=' :: l => do return (← wordToken word) ++ .comparison .le :: (← lex [] l)
  | '>' :: '=' :: l => do return (← wordToken word) ++ .comparison .ge :: (← lex [] l)
  | c :: l =>
    if isNameChar c ∨ c = '$' ∧ word = [] then lex (word ++ [c]) l
    else if c = ' ' then do return (← wordToken word) ++ (← lex [] l)
    else if c = '=' then do return (← wordToken word) ++ .comparison .eq :: (← lex [] l)
    else if c ∈ ['(', ')', ',', '*', ';'] then do
      return (← wordToken word) ++ .symbol c :: (← lex [] l)
    else none

def tokens : List Char → Option (List Token) := lex []

/-- The names of the parameters; a name has only one position. -/
def parameters (text : List Char) : Option (List String) := do
  return ((← tokens text).filterMap fun
    | .parameter name => some (String.ofList name)
    | _ => none).eraseDups

/-! ### Reading tokens -/

abbrev Reader := StateT (List Token) Option

namespace Reader

variable {α : Type}

/-- The next token. -/
def next : Reader Token
  | [] => none
  | t :: ts => some (t, ts)

def expect (t : Token) : Reader Unit := do
  if (← next) = t then return () else failure

def symbol (c : Char) : Reader Unit := expect (.symbol c)

def keyword (k : String) : Reader Unit := do
  match ← next with
  | .word w => if String.ofList (w.map Char.toUpper) = k then return () else failure
  | _ => failure

def keywords (ks : List String) : Reader Unit := ks.forM keyword

/-- A name does not start with a digit. -/
def name : Reader String := do
  match ← next with
  | .word (c :: w) => if c.isDigit then failure else return String.ofList (c :: w)
  | _ => failure

def number : Reader ℕ := do
  match ← next with
  | .word w =>
    if w.all Char.isDigit then return w.foldl (fun n c => 10 * n + (c.toNat - 48)) 0 else failure
  | _ => failure

/-- Whether it can be read; nothing is read when it cannot. -/
def given (r : Reader Unit) : Reader Bool := (do r; return true) <|> return false

/-- At most `n` items with separators between them. -/
def sepBy (item : Reader α) (separator : Reader Unit) : ℕ → Reader (List α)
  | 0 => failure
  | n + 1 => do
    let a ← item
    if ← given separator then
      let as ← sepBy item separator n
      return a :: as
    else return [a]

/-- Items with separators between them. -/
def separated (item : Reader α) (separator : Reader Unit) : Reader (List α) := fun ts =>
  sepBy item separator (ts.length + 1) ts

/-- Items in brackets. -/
def bracketed (item : Reader α) : Reader (List α) := do
  symbol '('
  let as ← separated item (symbol ',')
  symbol ')'
  return as

/-- A whole text. -/
def all (r : Reader α) (text : List Char) : Option α := do
  match r (← tokens text) with
  | some (a, []) => return a
  | some (a, [.symbol ';']) => return a
  | _ => none

end Reader

/-! ### Commands -/

/-- What a column is compared with, or a value of a new row. -/
inductive Operand
  | number (n : ℕ)
  | parameter (name : String)
  deriving DecidableEq

structure Condition where
  column : String
  comparison : Comparison
  operand : Operand
  deriving DecidableEq

/-- A column of the result; the last argument is its name. -/
inductive Output
  | column (name : String)
  | min (column name : String)
  | max (column name : String)
  | count (name : String)
  deriving DecidableEq

def Output.name : Output → String
  | .column name => name
  | .min _ name => name
  | .max _ name => name
  | .count name => name

structure Order where
  column : String
  descending : Bool
  deriving DecidableEq

structure Select where
  outputs : List Output
  table : String
  conditions : List Condition := []
  order : Option Order := none
  limit : Option ℕ := none
  deriving DecidableEq

structure Insert where
  orReplace : Bool := false
  table : String
  columns : List String
  values : List Operand
  deriving DecidableEq

inductive Command
  | select (s : Select)
  | insert (i : Insert)
  deriving DecidableEq

/-- A column of a table; `isKey` is an integer primary key. -/
structure ColumnDef where
  name : String
  type : String
  isKey : Bool
  notNull : Bool
  unique : Bool
  deriving DecidableEq

structure CreateTable where
  name : String
  columns : List ColumnDef
  deriving DecidableEq

/-- An index on one column. -/
structure CreateIndex where
  table : String
  column : String
  deriving DecidableEq

/-! ### Reading commands -/

open Reader

def readOperand : Reader Operand := fun
  | .parameter name :: ts => some (.parameter (String.ofList name), ts)
  | ts => (Operand.number <$> number) ts

def readComparison : Reader Comparison := fun
  | .comparison c :: ts => some (c, ts)
  | _ => none

def readCondition : Reader Condition := do
  return ⟨← name, ← readComparison, ← readOperand⟩

/-- A function of a column, with the name of the result. -/
def readFunction (k : String) : Reader (String × String) := do
  keyword k
  symbol '('
  let column ← name
  symbol ')'
  keyword "AS"
  return (column, ← name)

def readCount : Reader String := do
  keyword "COUNT"
  symbol '('
  symbol '*'
  symbol ')'
  keyword "AS"
  name

def readOutput : Reader Output :=
  (fun p => .min p.1 p.2) <$> readFunction "MIN" <|>
  (fun p => .max p.1 p.2) <$> readFunction "MAX" <|>
  .count <$> readCount <|>
  .column <$> name

def readOrder : Reader Order := do
  keywords ["ORDER", "BY"]
  let column ← name
  if ← given (keyword "DESC") then return ⟨column, true⟩
  else
    let _ ← given (keyword "ASC")
    return ⟨column, false⟩

def readSelect : Reader Select := do
  keyword "SELECT"
  let outputs ← separated readOutput (symbol ',')
  keyword "FROM"
  let table ← name
  let conditions ← optional do
    keyword "WHERE"
    separated readCondition (keyword "AND")
  let order ← optional readOrder
  let limit ← optional do
    keyword "LIMIT"
    number
  return ⟨outputs, table, conditions.getD [], order, limit⟩

def readInsert : Reader Insert := do
  keyword "INSERT"
  let orReplace ← given (keywords ["OR", "REPLACE"])
  keyword "INTO"
  let table ← name
  let columns ← bracketed name
  keyword "VALUES"
  return ⟨orReplace, table, columns, ← bracketed readOperand⟩

def readCommand : List Char → Option Command :=
  Reader.all (.select <$> readSelect <|> .insert <$> readInsert)

/-- The names of the columns of the result. -/
def columnNames (text : List Char) : List String :=
  match readCommand text with
  | some (.select s) => s.outputs.map Output.name
  | _ => []

def readColumnDef : Reader ColumnDef := do
  let column ← name
  let type ← name
  let isKey ← given (keywords ["PRIMARY", "KEY"])
  let notNull ← given (keywords ["NOT", "NULL"])
  return ⟨column, type, isKey, notNull, ← given (keyword "UNIQUE")⟩

def readCreateTable : List Char → Option CreateTable :=
  Reader.all do
    keywords ["CREATE", "TABLE"]
    return ⟨← name, ← bracketed readColumnDef⟩

def readCreateIndex : List Char → Option CreateIndex :=
  Reader.all do
    keywords ["CREATE", "INDEX"]
    let _ ← name
    keyword "ON"
    let table ← name
    symbol '('
    let column ← name
    let _ ← given (keyword "ASC")
    symbol ')'
    return ⟨table, column⟩

end Sql
