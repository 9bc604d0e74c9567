import Inspector.Token

/-!
# Layout modes

The mode holds for a whole layout and is settled before any of its tokens is applied: by a wrapper
around the value, by a wrapper at its head, by a marker among its tokens, or else by inference from
words that only Auto layout knows. The last two ways but one need no advice; a wrapper that does
not enclose the value, and an inference, are warned about.
-/

namespace Inspector.Layout

open Text

inductive Mode where
  | standard
  | auto
  /-- Nothing was written. -/
  | unknown
  deriving DecidableEq, Repr

def Mode.name : Mode → Text
  | .standard => "standard"
  | .auto => "auto"
  | .unknown => "unknown"

/-- How a mode was settled, where that deserves advice. -/
inductive Advice where
  | looseWrapper
  | inferredAuto
  | assumedStandard
  deriving DecidableEq, Repr

/-- The mode of a layout, its tokens, and the advice on how the mode was settled. -/
structure Resolution where
  mode : Mode
  tokens : List Token
  advice : Option Advice := none
  deriving DecidableEq, Repr

namespace Mode

/-- The mode and the text inside of a value that a wrapper encloses. -/
def wrapper? (value : Text) : Option (Mode × Text) :=
  match Group.stripNamed? "Auto" value, Group.stripNamed? "Standard" value with
  | some inner, _ => some (.auto, inner)
  | none, some inner => some (.standard, inner)
  | none, none => none

/-- A wrapper at the head of a longer value. -/
def leading? : Token → Option (Mode × Text)
  | .bare text => wrapper? text
  | .pair _ _ => none

/-- Whether a token is the mode of this name, bare or as `mode=name`. -/
def isMarker (name : Text) : Token → Bool
  | .bare text => sameWord text name
  | .pair key value => sameWord key "mode" && sameWord value name

/-- The parts of a value that only Auto layout knows. -/
def autoWords : List Text := ["fill", "hug", "↓", "→", "↵", "↔"]

def hintsAuto (t : Token) : Bool :=
  t.key?.any (fun key => sameWord key "flow" || sameWord key "gap") ||
    autoWords.any fun w => has w (lower t.text)

/-- The resolution of a list of tokens that no wrapper encloses. -/
def ofTokens (ts : List Token) : Resolution :=
  match ts.head?.bind leading? with
  | some (mode, inner) => ⟨mode, tokenize inner ++ ts.tail, some .looseWrapper⟩
  | none =>
    if ts.any (isMarker "auto") then ⟨.auto, ts, none⟩
    else if ts.any (isMarker "standard") then ⟨.standard, ts, none⟩
    else if ts.any hintsAuto then ⟨.auto, ts, some .inferredAuto⟩
    else ⟨.standard, ts, some .assumedStandard⟩

def resolve (input : Option Text) : Resolution :=
  match trim (input.getD []) with
  | [] => ⟨.unknown, [], none⟩
  | c :: r =>
    match wrapper? (c :: r) with
    | some (mode, inner) => ⟨mode, tokenize inner, none⟩
    | none => ofTokens (tokenize (c :: r))

end Mode

end Inspector.Layout
