import Inspector.Json.Quoted

/-!
# Strings read as they are written

Every character is written in a form that is read as that character and that does not begin with a
quote, so the first quote behind a string is the one that closes it.

    character? (escaped c ++ r) = some (c, r)                                 (character?_escaped)
    readQuoted (t.flatMap escaped ++ '"' :: r) = some (t, r)                 (readQuoted_escaped)
-/

namespace Inspector.Json

theorem hexDigit?_hexChar_all : ∀ n < 16, hexDigit? (hexChar n) = some n := by decide

theorem hex4?_hexChar {n : Nat} (h : n < 0x20) :
    hex4? '0' '0' (hexChar (n / 16)) (hexChar (n % 16)) = some n := by
  have high : hexDigit? (hexChar (n / 16)) = some (n / 16) := hexDigit?_hexChar_all _ (by omega)
  have low : hexDigit? (hexChar (n % 16)) = some (n % 16) := hexDigit?_hexChar_all _ (by omega)
  have zero : hexDigit? '0' = some 0 := by decide
  simp only [hex4?, high, low, zero, Option.bind_eq_bind, Option.bind_some, Option.pure_def,
    Option.some.injEq]
  omega

/-- A character that is written as it is. -/
theorem character?_cons {c : Char} (hc : c ≠ '\\') (h : ¬ c.toNat < 0x20) (r : Text) :
    character? (c :: r) = some (c, r) := by
  rw [character?.eq_def]
  split
  · next heq => simp at heq
  · next heq => exact absurd (List.cons.inj heq).1 hc
  · next heq => exact absurd (List.cons.inj heq).1 hc
  · next heq => exact absurd (List.cons.inj heq).1 hc
  · next heq =>
    obtain ⟨rfl, rfl⟩ := List.cons.inj heq
    rw [if_neg h]

theorem character?_escaped (c : Char) (r : Text) : character? (escaped c ++ r) = some (c, r) := by
  unfold escaped
  split
  · next h => subst h; rfl
  split
  · next h => subst h; rfl
  split
  · next h => subst h; rfl
  split
  · next h => subst h; rfl
  split
  · next h => subst h; rfl
  split
  · next h => subst h; rfl
  split
  · next h => subst h; rfl
  split
  · next h =>
    have escape : character? ("\\u00" ++ [hexChar (c.toNat / 16), hexChar (c.toNat % 16)] ++ r) =
        unicodeEscape? ('0' :: '0' :: hexChar (c.toNat / 16) :: hexChar (c.toNat % 16) :: r) := rfl
    have plain : c.toNat < 0xD800 ∨ 0xE000 ≤ c.toNat := .inl (by omega)
    rw [escape, unicodeEscape?, hex4?_hexChar h, Option.bind_some, if_pos plain, Char.ofNat_toNat]
  · next hc _ _ _ _ _ h => exact character?_cons hc h r

theorem head?_escaped_append (c : Char) (r : Text) : (escaped c ++ r).head? ≠ some '"' := by
  unfold escaped
  repeat' split
  all_goals simp_all

/-- What is written between two quotes is read up to the second one. -/
theorem readQuoted_escaped (t r : Text) :
    readQuoted (t.flatMap escaped ++ '"' :: r) = some (t, r) := by
  induction t with
  | nil =>
    rw [readQuoted]
    rfl
  | cons c t ih =>
    rw [List.flatMap_cons, List.append_assoc, readQuoted,
      if_neg (head?_escaped_append c _)]
    split
    · next h =>
      rw [character?_escaped] at h
      cases h
    · next c' r' h =>
      rw [character?_escaped, Option.some.injEq, Prod.mk.injEq] at h
      obtain ⟨rfl, rfl⟩ := h
      rw [ih]
      rfl

end Inspector.Json
