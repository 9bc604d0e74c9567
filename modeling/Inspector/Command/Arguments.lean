import Inspector.Rendering

/-!
# Arguments of the command line

    translate [--layout S] [--position S] [--appearance S] [--fill S] [--stroke S]
              [--format F] [--deny-errors]
    sheet FILE [--format F] [--deny-errors]

The arguments are taken from left to right, and the first one that is wrong, or that asks for the
version or for help, decides. An option may be given once; its value stands behind `=` or is the next
argument, which then may not begin with `-` unless it is `-` alone. Behind `--` no argument is an
option. `-v` is allowed everywhere.
-/

namespace Inspector

open Text

/-- What a command line asks for besides the command. -/
structure Settings where
  format : Format := .text
  denyErrors : Bool := false
  deriving DecidableEq, Repr

inductive Command where
  | translate (e : Element) (s : Settings)
  | sheet (file : Text) (s : Settings)
  deriving DecidableEq, Repr

/-- What a command line comes to. -/
inductive Request where
  | version
  | help
  | run (c : Command)
  deriving DecidableEq, Repr

/-! ## Arguments -/

inductive Verb where
  | translate
  | sheet
  deriving DecidableEq, Repr

namespace Verb

def name : Verb → Text
  | .translate => "translate"
  | .sheet => "sheet"

def ofName? (t : Text) : Option Verb := [translate, sheet].find? (·.name == t)

end Verb

/-- Options without a value. -/
inductive Flag where
  | verbose
  | version
  | help
  | denyErrors
  deriving DecidableEq, Repr

/-- Options with a value. -/
inductive Setting where
  | property (p : Property)
  | format
  deriving DecidableEq, Repr

/-- A flag by its name; only the help and the verbosity are asked for everywhere. -/
def Flag.ofName? (verb : Option Verb) (name : Text) : Option Flag :=
  if name = "verbose" then some .verbose
  else if name = "help" then some .help
  else if name = "version" ∧ verb = none then some .version
  else if name = "deny-errors" ∧ verb ≠ none then some .denyErrors
  else none

def Flag.ofLetter? (verb : Option Verb) (letter : Char) : Option Flag :=
  if letter = 'v' then some .verbose
  else if letter = 'h' then some .help
  else if letter = 'V' ∧ verb = none then some .version
  else none

def Setting.ofName? (verb : Option Verb) (name : Text) : Option Setting :=
  match verb with
  | none => none
  | some .sheet => if name = "format" then some .format else none
  | some .translate =>
    if name = "format" then some .format else (Property.ofName? name).map .property

/-- The arguments taken so far. -/
structure Arguments where
  verb : Option Verb := none
  element : Element := {}
  file : Option Text := none
  format : Option Format := none
  denyErrors : Bool := false
  deriving DecidableEq, Repr

namespace Arguments

/-- What comes of an argument: an answer that needs no further ones, or what has been taken. -/
abbrev Outcome := Request ⊕ Arguments

def flag (a : Arguments) : Flag → Option Outcome
  | .verbose => some (.inr a)
  | .version => some (.inl .version)
  | .help => some (.inl .help)
  | .denyErrors => if a.denyErrors then none else some (.inr { a with denyErrors := true })

/-- Flags of one letter each. -/
def letters (a : Arguments) : Text → Option Outcome
  | [] => some (.inr a)
  | c :: r => do
    match ← a.flag (← Flag.ofLetter? a.verb c) with
    | .inl request => return .inl request
    | .inr a => letters a r

/-- A setting with its value. -/
def set (a : Arguments) (s : Setting) (value : Text) : Option Arguments :=
  match s with
  | .property p =>
    if (a.element.get p).isSome then none
    else some { a with element := a.element.set p (some value) }
  | .format =>
    if a.format.isSome then none
    else (Format.ofName? value).map fun f => { a with format := some f }

/-- An argument that is no option. -/
def operand (a : Arguments) (t : Text) : Option Arguments :=
  match a.verb with
  | none => (Verb.ofName? t).map fun v => { a with verb := some v }
  | some .translate => none
  | some .sheet => if a.file.isSome ∨ t.isEmpty then none else some { a with file := some t }

/-- Arguments behind `--`, of which none can be a command. -/
def operands (a : Arguments) (ts : List Text) : Option Arguments :=
  if a.verb = none ∧ !ts.isEmpty then none else ts.foldlM operand a

/-- What all arguments come to. -/
def request? (a : Arguments) : Option Request :=
  let settings : Settings := ⟨a.format.getD .text, a.denyErrors⟩
  match a.verb with
  | none => none
  | some .translate => some (.run (.translate a.element settings))
  | some .sheet => a.file.map fun f => .run (.sheet f settings)

/-- A name and the value behind its first `=`. -/
def named (t : Text) : Text × Option Text :=
  match t.dropWhile (· ≠ '=') with
  | [] => (t, none)
  | _ :: value => (t.takeWhile (· ≠ '='), some value)

/-- The names of commands to help with. -/
def helps (ts : List Text) : Bool :=
  match ts with
  | [] => true
  | [t] => (Verb.ofName? t).isSome || t = "help"
  | _ => false

/-- Whether an argument can be the value of the option before it. -/
def isValue (t : Text) : Bool := t.head? ≠ some '-' || t = "-"

/-- The rest of the arguments. -/
def read? (a : Arguments) : List Text → Option Request
  | [] => a.request?
  | ['-', '-'] :: rest => (a.operands rest).bind request?
  | ('-' :: '-' :: option) :: rest =>
    let (name, value) := named option
    match Flag.ofName? a.verb name, Setting.ofName? a.verb name with
    | some f, _ =>
      match value, a.flag f with
      | none, some (.inl request) => some request
      | none, some (.inr a) => read? a rest
      | _, _ => none
    | none, some s =>
      match value with
      | some v => (a.set s v).bind fun a => read? a rest
      | none =>
        match rest with
        | [] => none
        | v :: rest => if isValue v then (a.set s v).bind fun a => read? a rest else none
    | none, none => none
  | ('-' :: c :: r) :: rest =>
    match a.letters (c :: r) with
    | some (.inl request) => some request
    | some (.inr a) => read? a rest
    | none => none
  | t :: rest =>
    if a.verb = none ∧ t = "help" then if helps rest then some .help else none
    else (a.operand t).bind fun a => read? a rest

end Arguments

/-- What a command line asks for, unless it is wrong. -/
def Request.ofArguments? (ts : List Text) : Option Request := Arguments.read? {} ts

end Inspector
