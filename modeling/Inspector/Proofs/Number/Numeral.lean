import Inspector.Proofs.Text
import Inspector.Quantity

/-!
# Numerals as they are written

A numeral is read off the beginning of a text exactly if the text begins with it as it is written
and does not continue it. A quantity is a numeral with the spelling of its unit behind it, so that
both consist of few characters.

    Numeral.read? t = some (n, rest) → t = n.written point ++ rest                     (eq_of_read?)
    Numeral.read? (n.written point ++ rest) = some (n, rest), if rest does not continue n
                                                                                    (read?_written)
    Measure.ofSuffix? t = some unit ↔ lower t = suffix unit                  (ofSuffix?_eq_some_iff)
    Quantity.ofText? t = some q → c ∈ trim t → c is a sign, a point, a digit or in a unit
                                                                                      (char_of_mem)
    Quantity.ofText? t = some q → Quantity.ofText? (lower t) = some q                (ofText?_lower)
    isStray c → c ∈ t → Quantity.ofText? t = none                              (ofText?_of_isStray)
-/

namespace Inspector

open Text

namespace Numeral

/-- A numeral with its sign and, if it has one, its point. -/
def written (n : Numeral) (point : Bool) : Text :=
  (if n.negative then ['-'] else []) ++ n.whole ++ (if point then '.' :: n.fraction else [])

/-- Nothing but digits before and behind the point, and one at least. -/
structure IsDigits (n : Numeral) : Prop where
  whole : n.whole.all Char.isDigit
  fraction : n.fraction.all Char.isDigit
  some_digit : n.whole ++ n.fraction ≠ []

theorem eq_of_read? {t rest : Text} {n : Numeral} (h : read? t = some (n, rest)) :
    n.IsDigits ∧ ∃ point, t = n.written point ++ rest ∧ (point = false → n.fraction = []) := by
  have digits (t : Text) : (t.takeWhile Char.isDigit).all Char.isDigit := List.all_takeWhile
  have sign : t = (if t.head? == some '-' then ['-'] else []) ++
      (if t.head? == some '-' then t.tail else t) := by
    cases t with
    | nil => rfl
    | cons c t =>
      by_cases hc : c = '-'
      · rw [hc]
        rfl
      · simp [hc]
  unfold read? at h
  dsimp only at h
  generalize (if t.head? == some '-' then t.tail else t) = u at h sign
  have parts := List.takeWhile_append_dropWhile (p := Char.isDigit) (l := u)
  split at h
  · next r hr =>
    have fraction := List.takeWhile_append_dropWhile (p := Char.isDigit) (l := r)
    split at h
    · cases h
    · next some_digit =>
      obtain ⟨rfl, rfl⟩ := Prod.mk.inj (Option.some.inj h)
      rw [Bool.and_eq_true, List.isEmpty_iff, List.isEmpty_iff] at some_digit
      rw [hr, ← fraction] at parts
      refine ⟨⟨digits u, digits r, fun empty => some_digit (List.append_eq_nil_iff.1 empty)⟩, true,
        sign.trans ((congrArg _ parts.symm).trans ?_), nofun⟩
      simp [written]
  · next r hr =>
    split at h
    · cases h
    · next some_digit =>
      obtain ⟨rfl, rfl⟩ := Prod.mk.inj (Option.some.inj h)
      rw [List.isEmpty_iff] at some_digit
      refine ⟨⟨digits u, rfl, fun empty => some_digit (List.append_eq_nil_iff.1 empty).1⟩, false,
        sign.trans ((congrArg _ parts.symm).trans ?_), fun _ => rfl⟩
      simp [written]

/-- Digits are taken off up to the first character that is none. -/
theorem takeWhile_digits {digits rest : Text} (h : digits.all Char.isDigit)
    (stop : ∀ c ∈ rest.head?, c.isDigit = false) :
    (digits ++ rest).takeWhile Char.isDigit = digits ∧
      (digits ++ rest).dropWhile Char.isDigit = rest := by
  rw [List.takeWhile_append_of_pos (List.all_eq_true.1 h),
    List.dropWhile_append_of_pos (List.all_eq_true.1 h)]
  cases rest with
  | nil => simp
  | cons c rest => simp [stop c rfl]

/-- The point of a numeral with the digits behind it. -/
def behindWhole (n : Numeral) (point : Bool) : Text := if point then '.' :: n.fraction else []

/-- Without its sign, a numeral does not begin with one. -/
theorem head?_ne_minus {n : Numeral} (digits : n.IsDigits) {point : Bool}
    (noPoint : point = false → n.fraction = []) (rest : Text) :
    (n.whole ++ n.behindWhole point ++ rest).head? ≠ some '-' := by
  intro minus
  cases hw : n.whole with
  | nil =>
    cases point with
    | true => simp [hw, behindWhole] at minus
    | false => exact digits.some_digit (by rw [hw, noPoint rfl, List.append_nil])
  | cons c whole =>
    obtain rfl : c = '-' := by simpa [hw] using minus
    have digit := List.all_eq_true.1 digits.whole '-' (by rw [hw]; exact List.mem_cons_self)
    exact absurd digit (by decide)

/-- A numeral is read off the text that writes it, up to what does not continue it. -/
theorem read?_written {n : Numeral} (digits : n.IsDigits) {point : Bool} {rest : Text}
    (noPoint : point = false → n.fraction = [])
    (stop : ∀ c ∈ rest.head?, c.isDigit = false ∧ c ≠ '.') :
    read? (n.written point ++ rest) = some (n, rest) := by
  have ends : ∀ c ∈ rest.head?, c.isDigit = false := fun c hc => (stop c hc).1
  have parts : n.written point ++ rest =
      (if n.negative then ['-'] else []) ++ (n.whole ++ (n.behindWhole point ++ rest)) := by
    simp [written, behindWhole]
  have unsigned := head?_ne_minus digits noPoint rest
  rw [List.append_assoc] at unsigned
  have sign : ((n.written point ++ rest).head? == some '-') = n.negative := by
    rw [parts]
    cases n.negative with
    | true => rfl
    | false => exact beq_eq_false_iff_ne.2 unsigned
  have body : (if n.negative then (n.written point ++ rest).tail else n.written point ++ rest) =
      n.whole ++ (n.behindWhole point ++ rest) := by
    rw [parts]
    cases n.negative <;> rfl
  have wholeEnds : ∀ c ∈ (n.behindWhole point ++ rest).head?, c.isDigit = false := by
    cases point with
    | true =>
      rintro c ⟨⟩
      decide
    | false => exact ends
  obtain ⟨taken, left⟩ := takeWhile_digits digits.whole wholeEnds
  unfold read?
  dsimp only
  rw [sign, body, taken, left]
  cases point with
  | true =>
    obtain ⟨taken, left⟩ := takeWhile_digits digits.fraction ends
    have nonempty : (n.whole.isEmpty && n.fraction.isEmpty) = false := by
      rw [Bool.and_eq_false_iff, List.isEmpty_eq_false_iff, List.isEmpty_eq_false_iff]
      by_contra empty
      rw [not_or, not_not, not_not] at empty
      exact digits.some_digit (by rw [empty.1, empty.2]; rfl)
    simp [behindWhole, taken, left, nonempty]
  | false =>
    have whole : n.whole ≠ [] := by
      have := digits.some_digit
      rwa [noPoint rfl, List.append_nil] at this
    have plain : n = ⟨n.negative, n.whole, []⟩ := by rw [← noPoint rfl]
    have behind : n.behindWhole false ++ rest = rest := rfl
    rw [behind]
    split
    · exact absurd rfl (stop '.' rfl).2
    · rw [if_neg (by simpa using whole), ← plain]

/-- A numeral has no other characters. -/
theorem mem_written {n : Numeral} (h : n.IsDigits) {point : Bool} {c : Char}
    (hc : c ∈ n.written point) : c = '-' ∨ c = '.' ∨ c.isDigit := by
  rw [written, List.mem_append, List.mem_append] at hc
  rcases hc with (sign | whole) | fraction
  · split at sign
    · exact .inl (List.mem_singleton.1 sign)
    · cases sign
  · exact .inr (.inr (List.all_eq_true.1 h.whole c whole))
  · split at fraction
    · exact .inr ((List.mem_cons.1 fraction).imp_right (List.all_eq_true.1 h.fraction c))
    · cases fraction

theorem exists_digit {n : Numeral} (h : n.IsDigits) {point : Bool}
    (noPoint : point = false → n.fraction = []) : ∃ c ∈ n.written point, c.isDigit := by
  obtain ⟨c, hc⟩ := List.exists_mem_of_ne_nil _ h.some_digit
  rcases List.mem_append.1 hc with whole | fraction
  · refine ⟨c, ?_, List.all_eq_true.1 h.whole c whole⟩
    exact List.mem_append_left _ (List.mem_append_right _ whole)
  · refine ⟨c, ?_, List.all_eq_true.1 h.fraction c fraction⟩
    cases point with
    | true => exact List.mem_append_right _ (List.mem_cons_of_mem _ fraction)
    | false =>
      rw [noPoint rfl] at fraction
      cases fraction

end Numeral

/-! ## Units -/

namespace Measure

/-- How a unit is spelled, or nothing where there is none. -/
def suffix (unit : Option Measure) : Text := unit.elim [] spelling

/-- The unit that a text spells in any case is read off it. -/
theorem ofSuffix?_eq_some_iff {t : Text} {unit : Option Measure} :
    ofSuffix? t = some unit ↔ lower t = suffix unit := by
  constructor
  · intro h
    unfold ofSuffix? at h
    split_ifs at h with nothing px deg percent
    · rw [nothing, ← Option.some.inj h]
      rfl
    · rw [px, ← Option.some.inj h]
      rfl
    · rw [deg, ← Option.some.inj h]
      rfl
    · rw [percent, ← Option.some.inj h]
      rfl
  · intro spelled
    unfold ofSuffix?
    rw [spelled]
    match unit with
    | none => rw [if_pos (List.map_eq_nil_iff.1 spelled)]
    | some unit =>
      have some_text : t ≠ [] := by
        rintro rfl
        cases unit <;> cases spelled
      rw [if_neg some_text]
      cases unit <;> rfl

/-- No unit begins with a character that continues a numeral. -/
theorem head?_of_lower_eq_suffix {t : Text} {unit : Option Measure} (h : lower t = suffix unit) :
    ∀ c ∈ t.head?, c.isDigit = false ∧ c ≠ '.' := by
  intro c hc
  have first : c.toLower ∈ (suffix unit).head? := by
    rw [← h, lower, List.head?_map, hc]
    rfl
  have each : ∀ unit, ∀ d ∈ (suffix unit).head?, d.isDigit = false ∧ d ≠ '.' := by
    rintro (_ | _ | _ | _) d ⟨⟩ <;> decide
  obtain ⟨noDigit, noPoint⟩ := each unit _ first
  constructor
  · rw [Bool.eq_false_iff]
    intro digit
    rw [toLower_of_isDigit digit, digit] at noDigit
    cases noDigit
  · rintro rfl
    exact noPoint rfl

theorem toLower_mem_of_ofSuffix? {t : Text} {unit : Option Measure} (h : ofSuffix? t = some unit)
    {c : Char} (hc : c ∈ t) : c.toLower ∈ "pxdeg%".toList := by
  have each : ∀ unit, suffix unit ⊆ "pxdeg%".toList := by
    rintro (_ | _ | _ | _) <;> decide
  have inside : c.toLower ∈ lower t := List.mem_map_of_mem hc
  rw [ofSuffix?_eq_some_iff.1 h] at inside
  exact each unit inside

end Measure

/-! ## Quantities -/

/-- The text is the numeral and the unit behind it, and nothing else. -/
structure IsWritten (t : Text) (n : Numeral) (unit : Option Measure) : Prop where
  digits : n.IsDigits
  whole : ∃ point suffix, (point = false → n.fraction = []) ∧ lower suffix = Measure.suffix unit ∧
    t = n.written point ++ suffix

namespace Quantity

/-- What a quantity is read off: a numeral and the spelling of its unit. -/
theorem exists_numeral {t : Text} {q : Quantity} (h : ofText? t = some q) :
    ∃ n rest, Numeral.read? (trim t) = some (n, rest) ∧ Measure.ofSuffix? rest = some q.unit ∧
      q.magnitude = n.value := by
  unfold ofText? at h
  obtain ⟨⟨n, rest⟩, hn, h⟩ := Option.bind_eq_some_iff.1 h
  obtain ⟨u, hu, h⟩ := Option.bind_eq_some_iff.1 h
  have parts := Option.some.inj h
  exact ⟨n, rest, hn, by rw [hu, ← parts], by rw [← parts]⟩

theorem ofText?_of_read? {t rest : Text} {n : Numeral} {unit : Option Measure}
    (hn : Numeral.read? (trim t) = some (n, rest)) (hunit : Measure.ofSuffix? rest = some unit) :
    ofText? t = some ⟨n.value, unit⟩ := by
  unfold ofText?
  simp only [hn, hunit, Option.bind_eq_bind, Option.bind_some]

theorem exists_isWritten {t : Text} {q : Quantity} (h : ofText? t = some q) :
    ∃ n, IsWritten (trim t) n q.unit ∧ q.magnitude = n.value := by
  obtain ⟨n, rest, hn, hunit, hvalue⟩ := exists_numeral h
  obtain ⟨digits, point, ht, noPoint⟩ := Numeral.eq_of_read? hn
  exact ⟨n, ⟨digits, point, rest, noPoint, Measure.ofSuffix?_eq_some_iff.1 hunit, ht⟩, hvalue⟩

theorem ofText?_of_isWritten {t : Text} {n : Numeral} {unit : Option Measure}
    (h : IsWritten (trim t) n unit) : ofText? t = some ⟨n.value, unit⟩ := by
  obtain ⟨digits, point, suffix, noPoint, spelled, ht⟩ := h
  refine ofText?_of_read? ?_ (Measure.ofSuffix?_eq_some_iff.2 spelled)
  rw [ht, Numeral.read?_written digits noPoint (Measure.head?_of_lower_eq_suffix spelled)]

theorem char_of_mem {t : Text} {q : Quantity} (h : ofText? t = some q) {c : Char}
    (hc : c ∈ trim t) : c = '-' ∨ c = '.' ∨ c.isDigit ∨ c.toLower ∈ "pxdeg%".toList := by
  obtain ⟨n, rest, hn, hu, -⟩ := exists_numeral h
  obtain ⟨digits, point, ht, -⟩ := Numeral.eq_of_read? hn
  rw [ht, List.mem_append] at hc
  rcases hc with numeral | unit
  · rcases Numeral.mem_written digits numeral with minus | dot | digit
    · exact .inl minus
    · exact .inr (.inl dot)
    · exact .inr (.inr (.inl digit))
  · exact .inr (.inr (.inr (Measure.toLower_mem_of_ofSuffix? hu unit)))

/-! ## Quantities in lower case -/

variable {t : Text} {q : Quantity}

theorem ofText?_trim (hq : ofText? t = some q) : ofText? (trim t) = some q := by
  rwa [ofText?, trim_trim]

/-- The case of its unit is all that a quantity loses in lower case. -/
theorem ofText?_lower (hq : ofText? t = some q) : ofText? (lower t) = some q := by
  obtain ⟨n, ⟨digits, point, suffix, noPoint, spelled, ht⟩, value⟩ := exists_isWritten hq
  have numeral : lower (n.written point) = n.written point := by
    refine (List.map_congr_left fun c hc => ?_).trans (List.map_id _)
    rcases n.mem_written digits hc with rfl | rfl | digit
    · rfl
    · rfl
    · exact toLower_of_isDigit digit
  have lowered : trim (lower t) = n.written point ++ lower suffix := by
    rw [trim_lower, ht, lower, List.map_append]
    exact congrArg (· ++ lower suffix) numeral
  have written : IsWritten (trim (lower t)) n q.unit :=
    ⟨digits, point, lower suffix, noPoint, (lower_lower suffix).trans spelled, lowered⟩
  rw [ofText?_of_isWritten written, ← value]

/-! ## What is no quantity -/

/-- A quantity is none of these words, in any case. -/
theorem lower_not_mem (words : List Text) (other : ∀ w ∈ words, ofText? w = none)
    (hq : ofText? t = some q) : lower t ∉ words := by
  intro h
  have word := other _ h
  rw [ofText?_lower hq] at word
  cases word

theorem ofText?_of_lower_mem {words : List Text} (other : ∀ w ∈ words, ofText? w = none)
    (h : lower t ∈ words) : ofText? t = none :=
  Option.eq_none_iff_forall_ne_some.2 fun _ hq => lower_not_mem words other hq h

/-- A character that neither a number nor a unit has, and that no blank is. -/
def isStray (c : Char) : Bool :=
  !(isBlank c || c == '-' || c == '.' || c.isDigit || "pxdeg%".toList.contains c.toLower)

theorem any_isStray (hq : ofText? t = some q) : t.any isStray = false := by
  rw [List.any_eq_false]
  intro c hc stray
  simp only [isStray, Bool.not_eq_true', Bool.or_eq_false_iff, beq_eq_false_iff_ne] at stray
  obtain ⟨⟨⟨⟨blank, minus⟩, point⟩, digit⟩, unit⟩ := stray
  rcases char_of_mem hq (mem_trim blank hc) with rfl | rfl | own | own
  · exact minus rfl
  · exact point rfl
  · rw [digit] at own
    cases own
  · rw [List.contains_iff_mem.2 own] at unit
    cases unit

theorem ofText?_of_isStray {c : Char} (stray : isStray c) (h : c ∈ t) : ofText? t = none :=
  Option.eq_none_iff_forall_ne_some.2 fun _ hq =>
    absurd stray (List.any_eq_false.1 (any_isStray hq) c h)

/-- A quantity does not begin with a word that has a stray character. -/
theorem after?_of_isStray (hq : ofText? t = some q) {head : Text} (stray : head.any isStray) :
    after? head t = none := by
  cases h : after? head t with
  | none => rfl
  | some rest =>
    have clean := any_isStray hq
    rw [eq_append_of_after? h, List.any_append, stray] at clean
    cases clean

theorem afterWord?_of_isStray (hq : ofText? t = some q) {head : Text}
    (stray : (lower head).any isStray) : afterWord? head t = none := by
  cases h : afterWord? head t with
  | none => rfl
  | some rest =>
    have clean := any_isStray (ofText?_lower hq)
    rw [lower_of_afterWord? h, List.any_append, stray] at clean
    cases clean

end Quantity

end Inspector
