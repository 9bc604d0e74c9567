import Inspector.Proofs.Offset.Token
import Inspector.Proofs.Text.Solid
import Inspector.Appearance.Entry
import Inspector.Fill.Image
import Inspector.Layout.Size
import Inspector.Stroke.Entry

/-!
# Values cut at offsets

A group is cut behind its opener and before the offset of its last character, a group behind a name
at the octets of the name, an image reference behind `url(` and between its quotes, and an item
behind the name of its part. Each cut rests on a test made before it, and none is a fault. So no cut
of any reading, of streams and segments as well, lies outside of its text, within a character or the
wrong way round.

    strip value = .ok (Group.strip? value)                                               (strip_eq)
    stripNamed name value = .ok (Group.stripNamed? name value)                      (stripNamed_eq)
    image value = .ok (Fill.Image.ofText? value)                                         (image_eq)
    dimension item = .ok (Layout.Dimension.ofItem? item)                             (dimension_eq)
    part P item = .ok (P.ofItem? item)                                                    (part_eq)
    every reading over offsets is .ok of the reading over characters       (cuts_between_characters)
-/

namespace Inspector

namespace Offset

open Text Inspector.Group

/-! ## Algorithm -/

/-- Whether a closer at another offset than `last` brings the depth to zero. -/
def closesBefore (last depth : Nat) : List (Nat × Char) → Bool
  | [] => false
  | (i, c) :: r =>
    isCloser c && shift depth c == 0 && i != last || closesBefore last (shift depth c) r

/-- The text inside one group that wraps the whole value. -/
def strip (value : Text) : Except Fault (Option Text) :=
  match trim value with
  | [] => .ok none
  | o :: rest =>
    match closerOf? o with
    | none => .ok none
    | some c =>
      if octetCount (o :: rest) < 2 ∨ (o :: rest).getLast? ≠ some c then .ok none
      else do
        let last ← minus (octetCount (o :: rest)) c.utf8Size
        if closesBefore last 0 (offsets 0 (o :: rest)) then return none
        let inner ← slice (o :: rest) o.utf8Size last
        return some inner

/-- The text inside a group behind a name. -/
def stripNamed (name value : Text) : Except Fault (Option Text) := do
  match ← behind name (trim value) with
  | none => return none
  | some rest => strip rest

/-- The text inside `url(...)`, or the whole text. -/
def unwrapped (t : Text) : Except Fault Text :=
  if beginsWith "url(" t ∧ 4 < octetCount t ∧ t.getLast? = some ')' then do
    let last ← minus (octetCount t) 1
    let inner ← slice t 4 last
    return trim inner
  else .ok t

/-- The text between the first of the quotes that stands at both of its ends, or the whole text. -/
def unquoted (t : Text) : List Char → Except Fault Text
  | [] => .ok t
  | q :: quotes =>
    if 2 ≤ octetCount t ∧ t.head? = some q ∧ t.getLast? = some q then do
      let last ← minus (octetCount t) 1
      slice t 1 last
    else unquoted t quotes

/-- An image reference as a class name spells it. -/
def image (value : Text) : Except Fault (Option Text) := do
  let inner ← unwrapped (trim value)
  let url ← unquoted inner ['"', '\'']
  if (trim url).isEmpty then return none
  else return some (joined "_" (words (trim url)))

/-- The dimension and the value of an item. -/
def dimension (item : Text) : Except Fault (Option (Layout.Dimension × Text)) :=
  Layout.Dimension.all.findSomeM? fun d => do
    let value ← behind (d.short ++ "-") item
    return value.map fun value => (d, value)

/-- The part and the value of an item of a bundle. -/
def part {κ : Type} (P : Parts κ) (item : Text) : Except Fault (Option (κ × Text)) :=
  P.order.findSomeM? fun k => (P.aliases k).findSomeM? fun name => do
    let rest ← behind name item
    return (rest.bind (after? "-")).map fun value => (k, value)

/-! ## Groups -/

theorem utf8Size_of_closerOf? {o c : Char} (h : closerOf? o = some c) :
    o.utf8Size = 1 ∧ c.utf8Size = 1 := by
  rcases brackets_of_closerOf? h with ⟨rfl, rfl⟩ | ⟨rfl, rfl⟩ | ⟨rfl, rfl⟩ <;> exact ⟨rfl, rfl⟩

/-- As long as something is open, only a closer can bring the depth to zero. -/
theorem closesBefore_eq {d : Nat} (hd : 0 < d) (n : Nat) (t : Text) (c : Char) :
    closesBefore (n + octetCount t) d (offsets n (t ++ [c])) = !staysOpen d t := by
  induction t generalizing n d with
  | nil => simp [offsets, closesBefore, staysOpen]
  | cons e t ih =>
    have size := e.utf8Size_pos
    have early : (n != n + octetCount (e :: t)) = true := by
      rw [octetCount_cons, bne_iff_ne]
      omega
    rw [List.cons_append, offsets, closesBefore, staysOpen, early, Bool.and_true]
    rcases Nat.eq_zero_or_pos (shift d e) with zero | held
    · have closer : isCloser e := by
        unfold shift at zero
        split at zero
        · omega
        · split at zero
          · assumption
          · omega
      simp [zero, closer]
    · rw [octetCount_cons, ← Nat.add_assoc, ih held]
      simp [held, Nat.ne_of_gt held]

/-- Of a value between brackets of one kind, the cut is what stands between them. -/
theorem strip_brackets {o c : Char} (hoc : closerOf? o = some c) (mid : Text) :
    octetCount (o :: (mid ++ [c])) = 1 + octetCount mid + 1 ∧
    closesBefore (1 + octetCount mid) 0 (offsets 0 (o :: (mid ++ [c]))) = !staysOpen 1 mid ∧
    slice (o :: (mid ++ [c])) o.utf8Size (1 + octetCount mid) = .ok mid := by
  obtain ⟨ho, hc⟩ := utf8Size_of_closerOf? hoc
  refine ⟨?count, ?scan, ?cut⟩
  case count =>
    rw [octetCount_cons, octetCount_append, octetCount_cons, ho, hc, octetCount_nil, Nat.add_zero,
      Nat.add_assoc]
  case scan =>
    have opens : isCloser o = false ∧ shift 0 o = 1 := by
      rcases brackets_of_closerOf? hoc with ⟨rfl, -⟩ | ⟨rfl, -⟩ | ⟨rfl, -⟩ <;> exact ⟨rfl, rfl⟩
    rw [offsets, closesBefore, opens.1, opens.2, ho, Nat.zero_add, Bool.false_and, Bool.false_and,
      Bool.false_or]
    exact closesBefore_eq Nat.one_pos 1 mid c
  case cut =>
    have cut := slice_append [o] mid [c]
    rw [octetCount_append, octetCount_cons, octetCount_nil, Nat.add_zero, ho] at cut
    rw [ho]
    exact cut

theorem strip_eq (value : Text) : strip value = .ok (Group.strip? value) := by
  unfold strip Group.strip?
  cases trim value with
  | nil => rfl
  | cons o rest =>
    dsimp only
    cases hoc : closerOf? o with
    | none => rfl
    | some c =>
      dsimp only
      obtain ⟨ho, hc⟩ := utf8Size_of_closerOf? hoc
      rcases List.eq_nil_or_concat' rest with rfl | ⟨mid, l, rfl⟩
      · -- an opener alone is one octet
        rw [if_pos (.inl (by rw [octetCount_cons, ho]; decide))]
        rfl
      · have ends : (o :: (mid ++ [l])).getLast? = some l := by
          rw [← List.cons_append, List.getLast?_concat]
        rw [List.getLast?_concat, List.dropLast_concat, ends]
        dsimp only
        by_cases hl : l = c
        · obtain ⟨count, scan, cut⟩ := strip_brackets hoc mid
          subst hl
          have long : ¬ (octetCount (o :: (mid ++ [l])) < 2 ∨ some l ≠ some l) := by
            rintro (short | other)
            · omega
            · exact other rfl
          rw [if_neg long, count, hc, minus_add_left]
          simp only [bind, Except.bind]
          rw [scan]
          cases staysOpen 1 mid with
          | true => simp [cut, pure, Except.pure]
          | false => simp [pure, Except.pure]
        · rw [if_pos (.inr (by simpa using hl))]
          simp [hl]

theorem stripNamed_eq (name value : Text) :
    stripNamed name value = .ok (Group.stripNamed? name value) := by
  rw [stripNamed, behind_eq, Group.stripNamed?]
  cases afterWord? name (trim value) with
  | none => rfl
  | some rest => exact strip_eq rest

/-! ## Images -/

theorem unwrapped_eq (t : Text) : unwrapped t = .ok (Fill.Image.unwrapped t) := by
  unfold unwrapped Fill.Image.unwrapped
  by_cases hb : beginsWith "url(" t
  · obtain ⟨head, rest, rfl, same, count⟩ := beginsWith_iff.1 hb
    have four : octetCount head = 4 := count
    rw [afterWord?_of_lower same]
    dsimp only
    rcases List.eq_nil_or_concat' rest with rfl | ⟨mid, l, rfl⟩
    · have short : ¬ 4 < octetCount (head ++ []) := by
        rw [List.append_nil, four]
        exact Nat.lt_irrefl 4
      rw [if_neg fun h => short h.2.1]
      rfl
    · rw [← List.append_assoc, List.getLast?_concat, List.getLast?_concat, List.dropLast_concat]
      by_cases hl : l = ')'
      · subst hl
        have long : octetCount (head ++ mid ++ [')']) = octetCount (head ++ mid) + 1 := by
          rw [octetCount_append]
          rfl
        have cut := slice_append head mid [')']
        have more : 4 < octetCount (head ++ mid ++ [')']) := by
          rw [long, octetCount_append, four]
          omega
        rw [four] at cut
        rw [← List.append_assoc] at hb
        rw [if_pos ⟨hb, more, rfl⟩, if_pos rfl, long, minus_add_left]
        simp only [bind, Except.bind]
        rw [cut]
        rfl
      · rw [if_neg fun h => hl (Option.some.inj h.2.2), if_neg fun h => hl (Option.some.inj h)]
  · rw [if_neg fun h => hb h.1, afterWord?_of_not_beginsWith hb]

/-- What begins and ends with a character is that character alone or stands between two of them. -/
theorem ends_iff {q : Char} {t : Text} :
    t.head? = some q ∧ t.getLast? = some q ↔ t = [q] ∨ ∃ mid, t = q :: (mid ++ [q]) := by
  constructor
  · rintro ⟨front, back⟩
    cases t with
    | nil => cases front
    | cons c r =>
      obtain rfl : c = q := Option.some.inj front
      rcases List.eq_nil_or_concat' r with rfl | ⟨mid, l, rfl⟩
      · exact .inl rfl
      · rw [← List.cons_append, List.getLast?_concat] at back
        exact .inr ⟨mid, by rw [Option.some.inj back]⟩
  · rintro (rfl | ⟨mid, rfl⟩)
    · exact ⟨rfl, rfl⟩
    · exact ⟨rfl, by rw [← List.cons_append, List.getLast?_concat]⟩

/-- A quote is one octet, so that two octets are needed for two of them. -/
theorem quoted_iff {q : Char} (hq : q.utf8Size = 1) {t : Text} :
    2 ≤ octetCount t ∧ t.head? = some q ∧ t.getLast? = some q ↔ Fill.Image.isQuotedBy q t := by
  unfold Fill.Image.isQuotedBy
  rw [Bool.and_eq_true, Bool.and_eq_true, decide_eq_true_iff, beq_iff_eq, beq_iff_eq, and_assoc]
  refine and_congr_left fun ends => ?_
  rcases ends_iff.1 ends with rfl | ⟨mid, rfl⟩
  · rw [octetCount_cons, hq]
    rfl
  · rw [octetCount_cons, octetCount_append, octetCount_cons, hq]
    simp
    omega

/-- The cut between two quotes. -/
theorem slice_quoted {q : Char} (hq : q.utf8Size = 1) {t : Text} (h : Fill.Image.isQuotedBy q t) :
    (minus (octetCount t) 1 >>= slice t 1) = .ok t.tail.dropLast := by
  obtain ⟨two, ends⟩ := (quoted_iff hq).2 h
  rcases ends_iff.1 ends with rfl | ⟨mid, rfl⟩
  · rw [octetCount_cons, hq] at two
    exact absurd two (by decide)
  · have count : octetCount (q :: (mid ++ [q])) = octetCount ([q] ++ mid) + 1 := by
      rw [octetCount_append, octetCount_cons, octetCount_append, octetCount_cons, hq]
      rfl
    have cut := slice_append [q] mid [q]
    rw [count, minus_add_left, List.tail_cons, List.dropLast_concat]
    rw [octetCount_cons, hq] at cut
    exact cut

theorem unquoted_eq (t : Text) : unquoted t ['"', '\''] = .ok (Fill.Image.unquoted t) := by
  have double : ('"' : Char).utf8Size = 1 := rfl
  have single : ('\'' : Char).utf8Size = 1 := rfl
  unfold Fill.Image.unquoted
  rw [unquoted]
  simp only [quoted_iff double]
  cases hd : Fill.Image.isQuotedBy '"' t with
  | true => exact slice_quoted double hd
  | false =>
    rw [if_neg Bool.false_ne_true, unquoted]
    simp only [quoted_iff single]
    cases hs : Fill.Image.isQuotedBy '\'' t with
    | true => exact slice_quoted single hs
    | false => rfl

theorem image_eq (value : Text) : image value = .ok (Fill.Image.ofText? value) := by
  rw [image, unwrapped_eq]
  simp only [bind, Except.bind]
  rw [unquoted_eq, Fill.Image.ofText?]
  simp only [words_trim]
  generalize Fill.Image.unquoted (Fill.Image.unwrapped (trim value)) = url
  cases hw : words url with
  | nil =>
    rw [words_eq_nil_iff.1 hw]
    rfl
  | cons w ws =>
    have some_left : (trim url).isEmpty = false := by
      rw [List.isEmpty_eq_false_iff]
      intro blank
      rw [words_eq_nil_iff.2 blank] at hw
      cases hw
    rw [some_left]
    rfl

/-! ## Items -/

/-- A search in which every test goes through finds what the tests find. -/
theorem findSomeM?_eq {α β : Type} {f : α → Except Fault (Option β)} {g : α → Option β}
    (h : ∀ a, f a = .ok (g a)) (l : List α) : l.findSomeM? f = .ok (l.findSome? g) := by
  induction l with
  | nil => rfl
  | cons a l ih =>
    rw [List.findSomeM?, h, List.findSome?_cons]
    cases hg : g a with
    | none => exact ih
    | some b => rfl

theorem dimension_eq (item : Text) : dimension item = .ok (Layout.Dimension.ofItem? item) :=
  findSomeM?_eq (fun d => by rw [behind_eq]; rfl) _

theorem part_eq {κ : Type} (P : Parts κ) (item : Text) : part P item = .ok (P.ofItem? item) :=
  findSomeM?_eq (fun _ => findSomeM?_eq (fun _ => by rw [behind_eq]; rfl) _) _

end Offset

/-! ## All cuts -/

open Text Offset

/-- An offset lies between characters just if it counts the octets of a start of the text. A cut
goes through just if both its ends lie in the text, between characters and in order, and it takes
the octets between them. Whatever the text and the name, every cut asked for goes through: those of
a stream, at every offset it comes by and after any number of reads, those of a segment, of a group,
of a group behind a name, of an image reference, and of the items of a layout, an appearance and a
stroke. And the readings end as they do over characters. -/
theorem cuts_between_characters (s name : Text) (n : Nat) :
    (∀ t i, isBoundary t i ↔ ∃ a b, t = a ++ b ∧ i = octetCount a) ∧
    (∀ t i j, (∃ u, slice t i j = .ok u) ↔
      i ≤ j ∧ j ≤ octetCount t ∧ isBoundary t i ∧ isBoundary t j) ∧
    (∀ t i j u, slice t i j = .ok u → octets u = (octets t).extract i j) ∧
    (∃ p, reads s 0 n = .ok (Token.reads s n, p) ∧ Reached s p) ∧
    (∀ p, Reached s p → (isBoundary s p ∨ p = octetCount s + 1) ∧
      (p < octetCount s → ∃ step, pass s p = .ok step)) ∧
    ofSegment s = .ok (Token.ofSegment s) ∧
    strip s = .ok (Group.strip? s) ∧
    stripNamed name s = .ok (Group.stripNamed? name s) ∧
    image s = .ok (Fill.Image.ofText? s) ∧
    dimension s = .ok (Layout.Dimension.ofItem? s) ∧
    part Appearance.Corner.parts s = .ok (Appearance.Corner.parts.ofItem? s) ∧
    part Stroke.Side.parts s = .ok (Stroke.Side.parts.ofItem? s) := by
  refine ⟨fun _ _ => isBoundary_iff, fun _ _ _ => slice_ok_iff, fun _ _ _ _ => octets_slice, ?reads,
    ?passes, ofSegment_eq s, strip_eq s, stripNamed_eq name s, image_eq s, dimension_eq s,
    part_eq _ s, part_eq _ s⟩
  case reads => exact reads_eq .start (stands_zero s) n
  case passes =>
    intro p reached
    obtain ⟨rest, stands⟩ := reached.stands
    exact ⟨stands.isBoundary, fun more => ⟨_, pass_eq stands (stands.lt_iff.1 more)⟩⟩

/-- Characters of two and three octets stand before, between and behind the cuts, and the second
pass steps one beyond the end. -/
theorem cuts_around_wide_characters :
    (slice "é=ü,↖-4px" 0 2 = .ok "é".toList ∧ octets "é" = (octets "é=ü,↖-4px").extract 0 2) ∧
    (∃ p, reads "é=ü,↖-4px" 0 3 = .ok (Token.reads "é=ü,↖-4px" 3, p)) ∧
    (Reached "é=ü,↖-4px" 6 ∧ 6 < octetCount "é=ü,↖-4px" ∧ ∃ step, pass "é=ü,↖-4px" 6 = .ok step) ∧
    (Reached "é=ü,↖-4px" 14 ∧ (isBoundary "é=ü,↖-4px" 14 ∨ 14 = octetCount "é=ü,↖-4px" + 1)) ∧
    part Appearance.Corner.parts "↖-4px" = .ok (some (.topLeft, "4px".toList)) := by
  obtain ⟨-, -, octets, ⟨p, reads, -⟩, passes, -⟩ := cuts_between_characters "é=ü,↖-4px" [] 3
  obtain ⟨-, -, -, -, -, -, -, -, -, -, corner, -⟩ := cuts_between_characters "↖-4px" [] 0
  have first : slice "é=ü,↖-4px" 0 2 = .ok "é".toList := by decide
  have more : 6 < octetCount "é=ü,↖-4px" := by decide
  have six : Reached "é=ü,↖-4px" 6 :=
    .pass (t := some (.pair "é" "ü")) .start (by decide) (by decide)
  have beyond : Reached "é=ü,↖-4px" 14 :=
    .pass (t := some (.bare "↖-4px")) six more (by decide)
  exact ⟨⟨first, octets _ 0 2 _ first⟩, ⟨p, reads⟩, ⟨six, more, (passes 6 six).2 more⟩,
    ⟨beyond, (passes 14 beyond).1⟩, corner⟩

end Inspector
