import Inspector.Proofs.Group
import Inspector.Token

/-!
# Tokens of joined, trimmed and single texts

Blanks around a property string change no token, a comma behind a text that leaves nothing open
parts the tokens, and the value of a token is not cut again.

    tokenize (trim s) = tokenize s                                                 (tokenize_trim)
    isBlank c → tokenize (c :: s) = tokenize s                            (tokenize_cons_of_blank)
    depthAfter 0 a = 0 → tokenize (a ++ "," ++ b) = tokenize a ++ tokenize b    (tokenize_append)
    .pair key value ∈ tokenize s → tokenize value ⊆ [.bare value]           (tokenize_of_mem_pair)
-/

namespace Inspector

open Text Inspector.Group

theorem tokenize_trim (s : Text) : tokenize (trim s) = tokenize s := by
  rw [tokenize, map_trim_cut_trim (by decide), tokenize]

theorem tokenize_cons_of_blank {c : Char} (hc : isBlank c) (s : Text) :
    tokenize (c :: s) = tokenize s := by
  rw [← tokenize_trim, trim_cons_of_blank hc, tokenize_trim]

theorem tokenize_append {a : Text} (h : depthAfter 0 a = 0) (b : Text) :
    tokenize (a ++ ',' :: b) = tokenize a ++ tokenize b := by
  have hcut : cut ',' 0 (a ++ ',' :: b) = cut ',' 0 a ++ cut ',' 0 b :=
    cut_append_cons (by decide) h b
  simp [tokenize, hcut]

theorem Token.ofSegment_of_isWhole {s : Text} (h : isWhole '=' 0 s) : ofSegment s = .bare s := by
  rw [ofSegment, cut_eq_singleton_iff.2 h]

/-- A text without a comma at depth zero is one segment, unless it is blank. -/
theorem tokenize_of_isWhole {s : Text} (h : isWhole ',' 0 s) :
    tokenize s = if trim s = [] then [] else [Token.ofSegment (trim s)] := by
  rw [tokenize, cut_eq_singleton_iff.2 h]
  split <;> simp_all

/-- The value of a pair, read as a property string, is at most one bare token. -/
theorem tokenize_of_mem_pair {s key value : Text} (h : .pair key value ∈ tokenize s) :
    tokenize value = [] ∨ tokenize value = [.bare value] := by
  simp only [tokenize, List.mem_map, List.mem_filter] at h
  obtain ⟨seg, ⟨⟨piece, hpiece, rfl⟩, -⟩, hseg⟩ := h
  have commas : isWhole ',' 0 (trim piece) := isWhole_trim (isWhole_of_mem_cut hpiece)
  unfold Token.ofSegment at hseg
  split at hseg
  · next k v hkv =>
    obtain ⟨-, rfl⟩ := Token.pair.inj hseg
    -- The value stands behind the only `=` at depth zero, so no comma stands at depth zero in it.
    obtain ⟨hp, -, hdepth, hv⟩ := eq_of_cut_eq_pair hkv
    have comma : isWhole ',' 0 v := by
      rw [hp, isWhole_append, Bool.and_eq_true, hdepth] at commas
      simpa [isWhole, show shift 0 '=' = 0 by decide] using commas.2
    rw [tokenize_of_isWhole (isWhole_trim comma), trim_trim]
    split
    · exact .inl rfl
    · exact .inr (by rw [Token.ofSegment_of_isWhole (isWhole_trim hv)])
  · simp at hseg

/-- The characters that a name may not have, for a group behind it to be one bare token. -/
def delimiters : List Char := ',' :: '=' :: brackets

/-- A separator that a name does not have stands nowhere at depth zero if a group follows. -/
theorem isWhole_of_stripNamed? {sep : Char} (hlow : sep.toLower = sep)
    (hblank : isBlank sep = false) (hbracket : sep ∉ brackets) {name value inner : Text}
    (hsep : sep ∉ lower name) (hname : depthAfter 0 (lower name) = 0)
    (h : stripNamed? name value = some inner) : isWhole sep 0 (trim value) := by
  obtain ⟨rest, hrest, hinner⟩ := Option.bind_eq_some_iff.1 h
  obtain ⟨word, hvalue, hword⟩ := eq_append_of_afterWord? hrest
  obtain ⟨l, r, hlr, hl, hr⟩ := exists_blanks rest
  obtain ⟨o, c, hoc, hstays, hgroup⟩ := eq_of_strip? hinner
  have parts : trim value = (word ++ l) ++ (o :: inner ++ [c]) ++ r := by
    rw [hvalue, hlr, hgroup]
    simp
  have notBlank {u : Text} (hu : ∀ c ∈ u, isBlank c) : sep ∉ u := by
    intro hc
    rw [hu sep hc] at hblank
    cases hblank
  have notWord : sep ∉ word := fun hc => hsep (hword ▸ List.mem_map.2 ⟨sep, hc, hlow⟩)
  have notFront : sep ∉ word ++ l := by
    rw [List.mem_append]
    exact not_or.2 ⟨notWord, notBlank hl⟩
  have depth : depthAfter 0 (word ++ l) = 0 := by
    rw [depthAfter_append, depthAfter_of_blank hl, ← depthAfter_lower, hword, hname]
  rw [parts]
  exact isWhole_group (isWhole_of_not_mem notFront 0) depth hoc hstays hbracket (notBlank hr)

theorem trim_ne_nil_of_stripNamed? {name value inner : Text}
    (h : stripNamed? name value = some inner) : trim value ≠ [] := by
  obtain ⟨rest, hrest, hinner⟩ := Option.bind_eq_some_iff.1 h
  obtain ⟨word, hvalue, -⟩ := eq_append_of_afterWord? hrest
  have := length_strip? hinner
  intro hnil
  rw [hnil] at hvalue
  have empty : rest = [] := (List.append_eq_nil_iff.1 hvalue.symm).2
  rw [empty, List.length_nil] at this
  omega

/-- A group behind a name is one bare token. -/
theorem tokenize_of_stripNamed? {name value inner : Text}
    (hname : (lower name).all (!delimiters.contains ·))
    (h : stripNamed? name value = some inner) : tokenize value = [.bare (trim value)] := by
  have free {c : Char} (hc : c ∈ delimiters) : c ∉ lower name := by
    intro hc'
    have := List.all_eq_true.1 hname c hc'
    simp [hc] at this
  have depth : depthAfter 0 (lower name) = 0 := by
    refine depthAfter_of_not_mem (fun c hc hb => ?_) 0
    exact free (List.mem_cons_of_mem _ (List.mem_cons_of_mem _ hb)) hc
  have comma : isWhole ',' 0 (trim value) :=
    isWhole_of_stripNamed? (by decide) (by decide) (by decide) (free (by decide)) depth h
  have equals : isWhole '=' 0 (trim value) :=
    isWhole_of_stripNamed? (by decide) (by decide) (by decide) (free (by decide)) depth h
  rw [← tokenize_trim, tokenize_of_isWhole comma, trim_trim, if_neg (trim_ne_nil_of_stripNamed? h),
    Token.ofSegment_of_isWhole equals]

end Inspector
