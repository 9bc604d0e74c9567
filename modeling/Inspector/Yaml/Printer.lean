import Inspector.Json.Printer
import Inspector.Text.Basic
import Inspector.Tree
import Inspector.Yaml.Cursor
import Inspector.Yaml.Implicit

/-!
# YAML text of a tree

Objects and lists are written in block style: a field on each line, what belongs to it two columns
further in, and the items of a list below its field. Scalars are plain where they can be; a text that
would be read as something else is quoted, and one with line feeds is written as a literal block.

    style t = .plain → allowsPlain t = true                                 (allowsPlain_of_style)
-/

namespace Inspector.Yaml

open Text

/-! ## What a scalar may be written as -/

/-- A character that is written as it is. -/
def isPrintable (c : Char) : Bool :=
  let n := c.toNat
  n = 0x0A || (0x20 ≤ n && n ≤ 0x7E) || (0xA0 ≤ n && n ≤ 0xD7FF) ||
    (0xE000 ≤ n && n ≤ 0xFFFD && n ≠ 0xFEFF) || 0x10000 ≤ n

/-- Whether a character with one property stands right before one with another. -/
def hasPair (p q : Char → Bool) (t : Text) : Bool := (t.zip t.tail).any fun (a, b) => p a && q b

def isSpace (c : Char) : Bool := c = ' '

/-- A colon before a blank or at the end, which would end a plain key. -/
def hasKeyColon : Text → Bool
  | [] => false
  | c :: r => (c = ':' && startsWhite r) || hasKeyColon r

/-- A first character that begins something else than a plain scalar. -/
def startsOther (t : Text) : Bool :=
  match t with
  | [] => false
  | c :: r =>
    ("#,[]\x7b\x7d&*!|>'\"%@`" : Text).contains c || ((c = '?' || c = '-') && startsWhite r)

/-- A text that has a meaning of its own in a block. -/
def hasIndicator (t : Text) : Bool :=
  startsOther t || hasKeyColon t || hasPair isWhite (· = '#') t ||
    (after? "---" t).isSome || (after? "..." t).isSome

def isMultiline (t : Text) : Bool := t.any isBreak

def hasSpecial (t : Text) : Bool := t.any (!isPrintable ·) || hasPair isSpace isBreak t

def allowsPlain (t : Text) : Bool :=
  !hasSpecial t && !isMultiline t && !hasIndicator t && !t.head?.any isSpace &&
    !t.getLast?.any isSpace

def allowsSingle (t : Text) : Bool := !hasSpecial t && !hasPair isBreak isSpace t

def allowsLiteral (t : Text) : Bool := !hasSpecial t && !t.getLast?.any isSpace

/-- The forms of a scalar. -/
inductive Style where
  | plain
  | single
  | double
  | literal
  deriving DecidableEq, Repr

def style (t : Text) : Style :=
  if t.contains '\n' then if allowsLiteral t then .literal else .double
  else if !isImplicit t && allowsPlain t then .plain
  else if allowsSingle t then .single
  else .double

theorem allowsPlain_of_style {t : Text} (h : style t = .plain) : allowsPlain t = true := by
  unfold style at h
  split at h
  · split at h <;> simp at h
  · split at h
    · next hp => simpa using (Bool.and_eq_true_iff.1 hp).2
    · split at h <;> simp at h

/-! ## Scalars -/

def pad (column : Nat) : Text := List.replicate column ' '

/-- The lines of a scalar, of which those behind a break begin at a column. -/
def lines (write : Char → Text) (column : Nat) (broken : Bool) : Text → Text
  | [] => []
  | c :: r =>
    if isBreak c then c :: lines write column true r
    else (if broken then pad column else []) ++ write c ++ lines write column false r

def single (column : Nat) (t : Text) : Text :=
  "'" ++ lines (fun c => if c = '\'' then ['\'', '\''] else [c]) column false t ++
    (if t.getLast?.any isBreak then pad column else []) ++ "'"

/-- The escapes of one letter. -/
def shortEscapes : List (Char × Char) :=
  [('\x00', '0'), ('\x07', 'a'), ('\x08', 'b'), ('\t', 't'), ('\n', 'n'), ('\x0b', 'v'),
    ('\x0c', 'f'), ('\r', 'r'), ('\x1b', 'e'), ('"', '"'), ('\\', '\\'), ('\u0085', 'N'),
    ('\u2028', 'L'), ('\u2029', 'P')]

/-- A number in hexadecimal digits, filled up with zeros. -/
def hexPadded (width n : Nat) : Text :=
  let digits := (Nat.toDigits 16 n).map Char.toUpper
  List.replicate (width - digits.length) '0' ++ digits

/-- A character in double quotes. -/
def escaped (c : Char) : Text :=
  match shortEscapes.lookup c with
  | some letter => ['\\', letter]
  | none =>
    if isPrintable c then [c]
    else if c.toNat ≤ 0xFF then "\\x" ++ hexPadded 2 c.toNat
    else if c.toNat ≤ 0xFFFF then "\\u" ++ hexPadded 4 c.toNat
    else "\\U" ++ hexPadded 8 c.toNat

def double (t : Text) : Text := "\"" ++ t.flatMap escaped ++ "\""

/-- The signs in the header of a literal block: an indentation where the text begins with white space,
and what becomes of the breaks at its end. -/
def literalSigns (t : Text) : Text :=
  let indentation : Text := if t.head?.any fun c => isSpace c || isBreak c then ['2'] else []
  let chomping : Text :=
    match t.reverse with
    | a :: b :: _ => if !isBreak a then ['-'] else if isBreak b then ['+'] else []
    | [a] => if isBreak a then ['+'] else ['-']
    | [] => ['-']
  indentation ++ chomping

def literal (column : Nat) (t : Text) : Text :=
  "|" ++ literalSigns t ++ "\n" ++ lines (fun c => [c]) column true t

/-- A scalar, of which further lines begin at a column. -/
def scalar (column : Nat) (t : Text) : Text :=
  match style t with
  | .plain => t
  | .single => single column t
  | .double => double t
  | .literal => literal column t

/-- A text as a whole line, or several. -/
def line (t : Text) : Text := if t.getLast?.any isBreak then t else t ++ "\n"

/-! ## Objects and lists -/

/-- A name that can stand before its colon without a `?`. -/
def isSimpleKey (name : Text) : Bool := !isMultiline name && (String.ofList name).utf8ByteSize ≤ 128

/-- Lines or groups of them that begin at a column, of which the first one is already there. -/
def stacked (column : Nat) (items : List Text) : Text := joined (pad column) items

/-- The items of a list at a column. -/
def items (column : Nat) (ts : List Text) : List Text :=
  ts.map fun t => "- " ++ line (scalar (column + 2) t)

/-- A name and its colon, with what is written behind it in the same line and what in lines of their
own from a column on, of which only one is not empty. -/
def field (column : Nat) (name : Text) (value : Text) (inner : Nat) (block : List Text) : Text :=
  let key :=
    if isSimpleKey name then scalar (column + 2) name ++ ":"
    else "? " ++ line (scalar (column + 2) name) ++ pad column ++ ":"
  if block.isEmpty then key ++ " " ++ line value
  else if isSimpleKey name then key ++ "\n" ++ pad inner ++ stacked inner block
  else key ++ " " ++ stacked (column + 2) block

mutual

/-- A field of an object at a column. -/
def fieldText (column : Nat) (name : Text) : Tree → Text
  | .bool b => field column name (Json.boolText b) column []
  | .text t => field column name (scalar (column + 2) t) column []
  | .texts ts =>
    let inner := if isSimpleKey name then column else column + 2
    field column name "[]" inner (items inner ts)
  | .object fs => field column name "\x7b\x7d" (column + 2) (fieldTexts (column + 2) fs)

def fieldTexts (column : Nat) : List (Text × Tree) → List Text
  | [] => []
  | (name, v) :: fs => fieldText column name v :: fieldTexts column fs

end

/-- The text of a tree. -/
def document : Tree → Text
  | .bool b => line (Json.boolText b)
  | .text t => line (scalar 2 t)
  | .texts ts => if ts.isEmpty then "[]\n" else stacked 0 (items 0 ts)
  | .object fs => if fs.isEmpty then "\x7b\x7d\n" else stacked 0 (fieldTexts 0 fs)

end Inspector.Yaml
