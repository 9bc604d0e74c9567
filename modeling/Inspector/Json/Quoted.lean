import Inspector.Text.Basic

/-!
# JSON strings

A string is written between double quotes, with `"`, `\` and the control characters escaped and all
else as it is. Reading takes every escape of the format; a surrogate escape has to come in a pair,
and control characters have to be escaped.

    readQuoted t = some (s, rest) → rest.length < t.length                       (length_readQuoted_lt)
-/

namespace Inspector.Json

/-! ## Reading -/

def hexDigit? (c : Char) : Option Nat :=
  if c.isDigit then some (c.toNat - '0'.toNat)
  else if 'a' ≤ c ∧ c ≤ 'f' then some (c.toNat - 'a'.toNat + 10)
  else if 'A' ≤ c ∧ c ≤ 'F' then some (c.toNat - 'A'.toNat + 10)
  else none

/-- The number that four hexadecimal digits write. -/
def hex4? (a b c d : Char) : Option Nat := do
  return ((← hexDigit? a) * 16 + (← hexDigit? b)) * 256 + ((← hexDigit? c) * 16 + (← hexDigit? d))

/-- The character that an escape of one letter stands for. -/
def shortEscape? (c : Char) : Option Char :=
  if c = '"' ∨ c = '\\' ∨ c = '/' then some c
  else if c = 'b' then some '\x08'
  else if c = 'f' then some '\x0c'
  else if c = 'n' then some '\n'
  else if c = 'r' then some '\r'
  else if c = 't' then some '\t'
  else none

/-- The character of a pair of surrogates. -/
def pair? (high low : Nat) : Option Char :=
  if high < 0xDC00 ∧ 0xDC00 ≤ low ∧ low < 0xE000 then
    some (Char.ofNat (0x10000 + (high - 0xD800) * 0x400 + (low - 0xDC00)))
  else none

/-- The character that `\u` and four digits stand for, with the rest behind it; a surrogate takes
the escape of its partner along. -/
def unicodeEscape? : Text → Option (Char × Text)
  | a :: b :: c :: d :: r =>
    (hex4? a b c d).bind fun n =>
      if n < 0xD800 ∨ 0xE000 ≤ n then some (Char.ofNat n, r)
      else
        match r with
        | '\\' :: 'u' :: a' :: b' :: c' :: d' :: r' =>
          ((hex4? a' b' c' d').bind (pair? n)).map fun ch => (ch, r')
        | _ => none
  | _ => none

/-- The next character of a string, escaped or not, with the rest behind it. -/
def character? : Text → Option (Char × Text)
  | [] => none
  | '\\' :: 'u' :: r => unicodeEscape? r
  | '\\' :: c :: r => (shortEscape? c).map fun ch => (ch, r)
  | ['\\'] => none
  | c :: r => if c.toNat < 0x20 then none else some (c, r)

theorem length_unicodeEscape?_lt {t r : Text} {c : Char} (h : unicodeEscape? t = some (c, r)) :
    r.length < t.length := by
  unfold unicodeEscape? at h
  split at h
  · simp only [Option.bind_eq_some_iff] at h
    obtain ⟨n, _, h⟩ := h
    split at h
    · simp only [Option.some.injEq, Prod.mk.injEq] at h
      simp only [← h.2, List.length_cons]; omega
    · split at h
      · simp only [Option.map_eq_some_iff, Prod.mk.injEq] at h
        obtain ⟨_, _, _, rfl⟩ := h
        simp only [List.length_cons]; omega
      · simp at h
  · simp at h

theorem length_character?_lt {t r : Text} {c : Char} (h : character? t = some (c, r)) :
    r.length < t.length := by
  unfold character? at h
  split at h
  · simp at h
  · have := length_unicodeEscape?_lt h
    simp only [List.length_cons]; omega
  · simp only [Option.map_eq_some_iff, Prod.mk.injEq] at h
    obtain ⟨_, _, _, rfl⟩ := h
    simp only [List.length_cons]; omega
  · simp at h
  · split at h
    · simp at h
    · simp only [Option.some.injEq, Prod.mk.injEq] at h
      simp [h.2]

/-- The string up to its closing quote, with the rest behind that. -/
def readQuoted (t : Text) : Option (Text × Text) :=
  if t.head? = some '"' then some ([], t.tail)
  else
    match h : character? t with
    | none => none
    | some (c, r) =>
      have := length_character?_lt h
      (readQuoted r).map fun (s, rest) => (c :: s, rest)
termination_by t.length

theorem length_readQuoted_lt {t s rest : Text} (h : readQuoted t = some (s, rest)) :
    rest.length < t.length := by
  fun_induction readQuoted t generalizing s with
  | case1 t ht =>
    simp only [Option.some.injEq, Prod.mk.injEq] at h
    cases t with
    | nil => simp at ht
    | cons c r => simp [← h.2]
  | case2 => simp at h
  | case3 t _ c r hc this ih =>
    simp only [Option.map_eq_some_iff, Prod.mk.injEq] at h
    obtain ⟨⟨s', rest'⟩, h', _, rfl⟩ := h
    have := ih h'
    omega

/-! ## Writing -/

def hexChar (n : Nat) : Char := (Nat.toDigits 16 n).headD '0'

/-- A character inside a string. -/
def escaped (c : Char) : Text :=
  if c = '"' then "\\\""
  else if c = '\\' then "\\\\"
  else if c = '\x08' then "\\b"
  else if c = '\x0c' then "\\f"
  else if c = '\n' then "\\n"
  else if c = '\r' then "\\r"
  else if c = '\t' then "\\t"
  else if c.toNat < 0x20 then "\\u00" ++ [hexChar (c.toNat / 16), hexChar (c.toNat % 16)]
  else [c]

def quoted (t : Text) : Text := "\"" ++ t.flatMap escaped ++ "\""

end Inspector.Json
