import Inspector.Proofs.Token.Written

/-!
# Plain values

A plain value is trimmed and has none of the characters that part tokens: no comma, no equals sign
and no bracket. Behind a key, or behind a key in a group, it is one token; and a text that is one
token keeps to itself among others.

    IsPlain key → IsPlain v → IsToken (keyed key v) (.pair key v)                    (IsToken.keyed)
    List.Forall₂ IsToken texts ts → tokenize (joined "," texts) = ts           (tokenize_joined)
    IsToken text t →
      tokenize (amid before after text) =
        before.flatMap tokenize ++ t :: tokenize (joined "," after)                 (tokenize_amid)
-/

namespace Inspector

open Text Inspector.Group

/-- Trimmed, and without the characters that part tokens; it may be empty. -/
structure IsPlain (v : Text) : Prop where
  trimmed : trim v = v
  plain : ∀ c ∈ v, c ∉ delimiters

instance (v : Text) : Decidable (IsPlain v) :=
  decidable_of_iff (trim v = v ∧ v.all (!delimiters.contains ·))
    ⟨fun h => ⟨h.1, by simpa using h.2⟩, fun h => ⟨h.1, by simpa using h.2⟩⟩

/-- The text is one token, and it closes what it opens. -/
structure IsToken (text : Text) (t : Token) : Prop where
  tokens : tokenize text = [t]
  balanced : isBalanced 0 text

def keyed (key value : Text) : Text := key ++ "=" ++ value

/-- A group behind a key, between the brackets `o` and `c`. -/
def grouped (o c : Char) (key inner : Text) : Text := keyed key (o :: inner ++ [c])

/-- The text among others, parted by commas. -/
def amid (before after : List Text) (text : Text) : Text := joined "," (before ++ text :: after)

/-! ## Plain texts -/

namespace IsPlain

variable {v : Text} (h : IsPlain v)

include h

theorem not_mem {c : Char} (hc : c ∈ delimiters) : c ∉ v := fun hv => h.plain c hv hc

theorem not_mem_brackets : ∀ c ∈ v, c ∉ brackets := fun c hv hc =>
  h.plain c hv (List.mem_cons_of_mem _ (List.mem_cons_of_mem _ hc))

theorem isBalanced : isBalanced 0 v := isBalanced_of_not_mem h.not_mem_brackets

theorem isWhole {sep : Char} (hsep : sep ∈ delimiters) : isWhole sep 0 v :=
  isWhole_of_not_mem (h.not_mem hsep) 0

theorem trimLeft_eq : trimLeft v = v := by rw [← h.trimmed, trimLeft_trim]

theorem trimRight_eq : trimRight v = v := by rw [← h.trimmed, trimRight_trim]

theorem strip?_eq_none : strip? v = none :=
  strip?_eq_none_of_not_mem fun c hc => h.not_mem_brackets c (h.trimmed ▸ hc)

end IsPlain

/-- Two plain texts with a character between them that is neither blank nor parts tokens. -/
theorem IsPlain.append_cons {a b : Text} {c : Char} (ha : IsPlain a) (hb : IsPlain b)
    (blank : isBlank c = false) (hc : c ∉ delimiters) : IsPlain (a ++ c :: b) where
  trimmed := by rw [trim_append_cons blank, ha.trimLeft_eq, hb.trimRight_eq]
  plain := List.forall_mem_append.2 ⟨ha.plain, List.forall_mem_cons.2 ⟨hc, hb.plain⟩⟩

/-! ## Texts that are one token -/

namespace IsToken

variable {text : Text} {t : Token}

theorem bare (h : IsPlain text) (written : text ≠ []) : IsToken text (.bare text) where
  tokens := by
    rw [tokenize_of_isWhole (h.isWhole (by decide)), h.trimmed, if_neg written,
      Token.ofSegment_of_isWhole (h.isWhole (by decide))]
  balanced := h.isBalanced

theorem of_value {key value : Text} (hk : IsPlain key) (trimmed : trimRight value = value)
    (commas : isWhole ',' 0 value) (equals : isWhole '=' 0 value) (hv : isBalanced 0 value) :
    IsToken (Inspector.keyed key value) (.pair key (trim value)) := by
  have closed : depthAfter 0 key = 0 := depthAfter_of_isBalanced hk.isBalanced
  have shape : Inspector.keyed key value = key ++ '=' :: value := by simp [Inspector.keyed]
  rw [shape]
  constructor
  · have whole : isWhole ',' 0 (key ++ '=' :: value) := by
      rw [isWhole_append, hk.isWhole (by decide), closed]
      exact commas
    rw [tokenize_of_isWhole whole, trim_append_cons (by decide), hk.trimLeft_eq, trimmed,
      if_neg (by simp), Token.ofSegment_pair (hk.isWhole (by decide)) closed equals, hk.trimmed]
  · rw [isBalanced_append hk.isBalanced]
    exact hv

theorem keyed {key v : Text} (hk : IsPlain key) (hv : IsPlain v) :
    IsToken (keyed key v) (.pair key v) := by
  have pair := of_value hk hv.trimRight_eq (hv.isWhole (by decide)) (hv.isWhole (by decide))
    hv.isBalanced
  rwa [hv.trimmed] at pair

/-- A group behind a key is one token, whose value is a group with the same text inside. -/
theorem exists_grouped {o c : Char} (hoc : closerOf? o = some c) {key inner : Text}
    (hk : IsPlain key) (hi : isBalanced 0 inner) :
    ∃ value, IsToken (grouped o c key inner) (.pair key value) ∧ strip? value = some inner := by
  obtain ⟨ho, hc⟩ := not_isBlank_of_closerOf? hoc
  have stays := (staysOpen_succ_of_isBalanced hi).1
  have pair := of_value hk (trimRight_concat hc (o :: inner))
    (isWhole_enclosed hoc stays (by decide)) (isWhole_enclosed hoc stays (by decide))
    (isBalanced_enclosed hoc hi)
  rw [trim_enclosed ho hc] at pair
  exact ⟨o :: inner ++ [c], pair, strip?_enclosed ho hc hoc hi⟩

end IsToken

/-! ## Among other tokens -/

theorem joined_cons_of_ne_nil (text : Text) {texts : List Text} (h : texts ≠ []) :
    joined "," (text :: texts) = text ++ ',' :: joined "," texts := by
  cases texts with
  | nil => exact absurd rfl h
  | cons text' texts => simp [joined]

/-- A text that leaves nothing open, before others. -/
theorem tokenize_joined_cons {text : Text} (closed : depthAfter 0 text = 0) (texts : List Text) :
    tokenize (joined "," (text :: texts)) = tokenize text ++ tokenize (joined "," texts) := by
  cases texts with
  | nil => rw [joined, joined, tokenize_nil, List.append_nil]
  | cons text' texts =>
    rw [joined_cons_of_ne_nil text (List.cons_ne_nil _ _), tokenize_append closed]

theorem tokenize_joined {texts : List Text} {ts : List Token} (h : List.Forall₂ IsToken texts ts) :
    tokenize (joined "," texts) = ts ∧ isBalanced 0 (joined "," texts) := by
  induction h with
  | nil => exact ⟨tokenize_nil, rfl⟩
  | @cons text t texts ts ht hts ih =>
    refine ⟨?_, ?_⟩
    · rw [tokenize_joined_cons (depthAfter_of_isBalanced ht.balanced), ht.tokens, ih.1,
        List.singleton_append]
    · cases texts with
      | nil => exact ht.balanced
      | cons text' texts =>
        rw [joined_cons_of_ne_nil text (List.cons_ne_nil _ _), isBalanced_append ht.balanced]
        exact ih.2

/-- A text that is one token, among others. -/
theorem tokenize_amid {before : List Text} (closed : ∀ p ∈ before, depthAfter 0 p = 0)
    {text : Text} {t : Token} (h : IsToken text t) (after : List Text) :
    tokenize (amid before after text) =
      before.flatMap tokenize ++ t :: tokenize (joined "," after) := by
  induction before with
  | nil =>
    show tokenize (joined "," (text :: after)) = _
    rw [tokenize_joined_cons (depthAfter_of_isBalanced h.balanced), h.tokens]
    rfl
  | cons p before ih =>
    obtain ⟨hp, hps⟩ := List.forall_mem_cons.1 closed
    show tokenize (joined "," (p :: (before ++ text :: after))) = _
    rw [tokenize_joined_cons hp, show tokenize (joined "," (before ++ text :: after)) = _ from
      ih hps, List.flatMap_cons, List.append_assoc]

end Inspector
