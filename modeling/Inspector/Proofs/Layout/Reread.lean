import Inspector.Proofs.Layout.Complete
import Inspector.Proofs.Layout.Numbers
import Inspector.Proofs.Layout.Required
import Inspector.Proofs.Layout.Spelling
import Inspector.Proofs.Number.Extent
import Inspector.Proofs.Token.Plain
import Inspector.Proofs.Token.Written

/-!
# Sizes read again

A size is emitted as a word, a fraction, or text in square brackets, and each of them is passed
through when it is read as a size again. So the class of a dimension, given to a layout as an item,
sets that dimension to the same class. This holds of the text of a layout too: what stands behind the
lead of an item that was read once has no comma outside groups, nor exactly one `=`.

    ofSize? v = some f → ofSize? f = some f                                     (ofSize?_ofSize?)
    ofSize? v = some f → s.step mode (.bare (d.short ++ "-" ++ f)) = s.setSize d v
                                                                              (step_of_ofSize?)
    c ∈ (read input).report.classes → d.short ++ "-" <+: c →
      (read (some ("Auto, " ++ c))).report.classes = [c]                         (read_size_class)
-/

namespace Inspector

open Text Inspector.Group

/-! ## Sizes -/

namespace Fragment

variable {v f : Text}

theorem isBracketed_enclosed {t : Text} (ne : t ≠ [])
    (h : ∀ c ∈ t, c ≠ '[' ∧ c ≠ ']' ∧ isBlank c = false) : isBracketed ('[' :: (t ++ [']'])) := by
  have inside : (t.all fun c => c != '[' && c != ']' && !isBlank c) = true := by
    refine List.all_eq_true.2 fun c hc => ?_
    obtain ⟨opener, closer, blank⟩ := h c hc
    simp [opener, closer, blank]
  have long : 0 < t.length := List.length_pos_iff.2 ne
  simp [isBracketed, inside, long]

/-- A number with a unit behind it, in square brackets. -/
theorem isBracketed_spelled (x : Binary64) {unit : Text} (nonempty : unit ≠ [])
    (h : unit.all fun c => c ∉ brackets ∧ isBlank c = false) :
    isBracketed ('[' :: (x.spelled ++ unit ++ [']'])) := by
  have plain {c : Char} (hc : c ∉ brackets) : c ≠ '[' ∧ c ≠ ']' :=
    ⟨fun own => hc (own ▸ by decide), fun own => hc (own ▸ by decide)⟩
  refine isBracketed_enclosed (by simp [nonempty]) fun c hc => ?_
  rw [← and_assoc]
  rcases List.mem_append.1 hc with number | unit
  · exact ⟨plain (x.not_mem_brackets number), x.solid_spelled c number⟩
  · obtain ⟨noBracket, noBlank⟩ := of_decide_eq_true (List.all_eq_true.1 h c unit)
    exact ⟨plain noBracket, noBlank⟩

theorem isBracketed_inPixels (x : Binary64) : isBracketed (inPixels x) := by
  have parts : inPixels x = '[' :: (x.spelled ++ "px".toList ++ [']']) := by simp [inPixels]
  rw [parts]
  exact isBracketed_spelled x (by decide) (by decide)

theorem isBracketed_inPercent (x : Binary64) : isBracketed (inPercent x) := by
  have parts : inPercent x = '[' :: (x.spelled ++ "%".toList ++ [']']) := by simp [inPercent]
  rw [parts]
  exact isBracketed_spelled x (by decide) (by decide)

/-- A size is one of two words, a length, or the value itself. -/
theorem ofSize?_cases (h : ofSize? v = some f) :
    f = "full" ∨ f = "auto" ∨ (∃ x, f = inPixels x ∨ f = inPercent x) ∨ f = v := by
  unfold ofSize? at h
  split at h
  · exact .inl (Option.some.inj h).symm
  · split at h
    · exact .inr (.inl (Option.some.inj h).symm)
    · split at h
      · next fragment length =>
        obtain rfl := Option.some.inj h
        obtain ⟨q, -, length⟩ :=
          Option.bind_eq_some_iff.1 (Option.eq_some_of_filter_eq_some length)
        refine .inr (.inr (.inl ⟨q.magnitude, ?_⟩))
        split at length
        · exact .inl (Option.some.inj length).symm
        · exact .inl (Option.some.inj length).symm
        · exact .inr (Option.some.inj length).symm
        · cases length
      · split at h
        · exact .inr (.inr (.inr (Option.some.inj h).symm))
        · cases h

/-- Bracketed text is no keyword and no quantity, so it is passed through. -/
theorem ofSize?_of_isBracketed (h : isBracketed v) : ofSize? v = some v := by
  have passed : isPassThrough v := by rw [isPassThrough, h, Bool.or_true]
  have opener : v.head? = some '[' := by
    unfold isBracketed at h
    split at h
    · rfl
    · cases h
  have word {w : Text} (hw : w.head? ≠ some '[') : lower v ≠ w := by
    intro same
    rw [← same, lower, List.head?_map, opener] at hw
    exact hw rfl
  have length : ofLength? v = none := by
    rw [ofLength?, not_quantity_of_isPassThrough passed, Option.bind_none]
  rw [ofSize?, if_neg (word (by decide)), if_neg (word (by decide)), length]
  show (if isFraction v || isPassThrough v then some v else none) = some v
  rw [passed, Bool.or_true, if_pos rfl]

/-- What a size comes to is a size, and comes to itself. -/
theorem ofSize?_ofSize? (h : ofSize? v = some f) : ofSize? f = some f := by
  rcases ofSize?_cases h with rfl | rfl | ⟨x, rfl | rfl⟩ | rfl
  · decide
  · decide
  · exact ofSize?_of_isBracketed (isBracketed_inPixels x)
  · exact ofSize?_of_isBracketed (isBracketed_inPercent x)
  · exact h

end Fragment

/-! ## Values of items -/

theorem Group.length_cut_append {w : Text} (h : ∀ c ∈ w, c ∉ delimiters) (v : Text) :
    (cut '=' 0 (w ++ v)).length = (cut '=' 0 v).length := by
  induction w with
  | nil => rfl
  | cons c w ih =>
    obtain ⟨hc, hw⟩ := List.forall_mem_cons.1 h
    have bracket : c ∉ brackets := fun own =>
      hc (List.mem_cons_of_mem _ (List.mem_cons_of_mem _ own))
    have equals : ¬ (c = '=' ∧ 0 = 0) := fun own => hc (own.1 ▸ by decide)
    rw [List.cons_append, cut_cons equals, List.length_modifyHead, shift_of_not_mem bracket, ih hw]

theorem Token.ofSegment_eq_bare_iff {p text : Text} :
    ofSegment p = .bare text ↔ p = text ∧ (cut '=' 0 p).length ≠ 2 := by
  unfold ofSegment
  split
  · next k v h => simp [h]
  · next other =>
    have length : (cut '=' 0 p).length ≠ 2 := by
      intro two
      obtain ⟨k, v, hkv⟩ := List.length_eq_two.1 two
      exact other k v hkv
    simp [length]

/-- The value of an item: behind a plain lead it is part of one bare token. -/
structure IsItemValue (v : Text) : Prop where
  comma : isWhole ',' 0 v
  equals : (cut '=' 0 v).length ≠ 2

namespace IsItemValue

variable {w v : Text}

theorem iff_append (hw : ∀ c ∈ w, c ∉ delimiters) :
    IsItemValue (w ++ v) ↔ IsItemValue v := by
  have comma : isWhole ',' 0 (w ++ v) = isWhole ',' 0 v := by
    have lead : isWhole ',' 0 w := isWhole_of_not_mem (fun hc => hw _ hc (by decide)) 0
    have closed : depthAfter 0 w = 0 := depthAfter_of_not_mem
      (fun c hc own => hw c hc (List.mem_cons_of_mem _ (List.mem_cons_of_mem _ own))) 0
    rw [isWhole_append, lead, closed, Bool.true_and]
  constructor
  · rintro ⟨hc, he⟩
    rw [comma] at hc
    rw [length_cut_append hw] at he
    exact ⟨hc, he⟩
  · rintro ⟨hc, he⟩
    rw [← comma] at hc
    rw [← length_cut_append hw] at he
    exact ⟨hc, he⟩

theorem of_whole (comma : isWhole ',' 0 v) (equals : isWhole '=' 0 v) : IsItemValue v := by
  refine ⟨comma, ?_⟩
  rw [cut_eq_singleton_iff.2 equals, List.length_singleton]
  decide

theorem of_not_mem (comma : ',' ∉ v) (equals : '=' ∉ v) : IsItemValue v :=
  of_whole (isWhole_of_not_mem comma 0) (isWhole_of_not_mem equals 0)

/-- A solid item is one bare token. -/
theorem tokenize_eq (h : IsItemValue v) (solid : IsSolid v) (ne : v ≠ []) :
    tokenize v = [.bare v] := by
  rw [tokenize_of_isWhole h.comma, solid.trim_eq, if_neg ne,
    Token.ofSegment_eq_bare_iff.2 ⟨rfl, h.equals⟩]

/-- What is emitted for the value of an item is one as well. -/
theorem of_ofSize? {f : Text} (h : IsItemValue v) (hf : Fragment.ofSize? v = some f) :
    IsItemValue f := by
  have number {x : Binary64} {unit : Text} (comma : ',' ∉ unit) (equals : '=' ∉ unit) :
      IsItemValue ("[" ++ x.spelled ++ unit) := by
    have noComma := x.not_mem_spelled (c := ',') (by decide) (by decide)
    have noEquals := x.not_mem_spelled (c := '=') (by decide) (by decide)
    exact of_not_mem (by simp [noComma, comma]) (by simp [noEquals, equals])
  rcases Fragment.ofSize?_cases hf with rfl | rfl | ⟨x, rfl | rfl⟩ | rfl
  · exact of_not_mem (by decide) (by decide)
  · exact of_not_mem (by decide) (by decide)
  · exact number (by decide) (by decide)
  · exact number (by decide) (by decide)
  · exact h

end IsItemValue

/-! ## Items of a layout -/

namespace Layout

theorem Dimension.plain_short (d : Dimension) : ∀ c ∈ d.short ++ "-", c ∉ delimiters := by
  have each : (d.short ++ "-").all (· ∉ delimiters) := by cases d <;> decide
  exact fun c hc => of_decide_eq_true (List.all_eq_true.1 each c hc)

/-- The head of an item has no delimiter in any case. -/
theorem Dimension.isItemValue_of_ofItem? {d : Dimension} {text v : Text}
    (h : Dimension.ofItem? text = some (d, v)) (whole : IsItemValue text) : IsItemValue v := by
  obtain ⟨word, rfl, hword⟩ :=
    eq_append_of_afterWord? (Dimension.ofItem?_eq_some_iff.1 h)
  have small : lower (d.short ++ "-") = d.short ++ "-" := by cases d <;> decide
  have fixed : delimiters.all fun c => c.toLower = c := by decide
  refine (IsItemValue.iff_append fun c hc own => ?_).1 whole
  have low : c ∈ d.short ++ "-" := by
    have same : c.toLower = c := of_decide_eq_true (List.all_eq_true.1 fixed c own)
    have inside : c.toLower ∈ lower word := List.mem_map_of_mem hc
    rwa [same, hword, small] at inside
  exact d.plain_short c low own

theorem isItemValue_of_bare {s text : Text} (h : .bare text ∈ tokenize s) : IsItemValue text := by
  obtain ⟨p, hp, hbare⟩ := List.mem_map.1 (tokenize_eq_map s ▸ h)
  obtain ⟨rfl, equals⟩ := Token.ofSegment_eq_bare_iff.1 hbare
  exact ⟨(isSegment_of_mem hp).whole, equals⟩

theorem isItemValue_of_pair {s key v : Text} (h : .pair key v ∈ tokenize s) : IsItemValue v := by
  obtain ⟨p, hp, hpair⟩ := List.mem_map.1 (tokenize_eq_map s ▸ h)
  rcases Token.ofSegment_cases p with bare | ⟨k, u, rfl, -, closed, equals, pair⟩
  · rw [bare] at hpair
    cases hpair
  · obtain ⟨-, rfl⟩ := Token.pair.inj (pair.symm.trans hpair)
    have comma : isWhole ',' 0 u := by
      have whole := (isSegment_of_mem hp).whole
      rw [isWhole_append, closed, Bool.and_eq_true] at whole
      simpa [isWhole, show shift 0 '=' = 0 by decide] using whole.2
    exact .of_whole (isWhole_trim comma) (isWhole_trim equals)

namespace Entry

variable {t t' : Token} {d : Dimension} {v : Text}

theorem isItemValue_of_ofDimensionItem {s : Text} (ht : t ∈ tokenize s)
    (h : ofDimensionItem t = .size t' d v) : IsItemValue v := by
  unfold ofDimensionItem at h
  dsimp only at h
  split at h
  · next d' v' item =>
    cases h
    cases t with
    | bare text => exact Dimension.isItemValue_of_ofItem? item (isItemValue_of_bare ht)
    | pair key value =>
      obtain ⟨d', -, same⟩ := Option.map_eq_some_iff.1 item
      obtain ⟨-, rfl⟩ := Prod.mk.inj same
      exact isItemValue_of_pair ht
  · cases h

theorem ofItem?_of_ofBare {text : Text} (h : ofBare text = .size t' d v) :
    Dimension.ofItem? text = some (d, v) := by
  have own := isSizeOf_ofBare d text
  rw [h, isItemOf_bare] at own
  cases item : Dimension.ofItem? text with
  | none => simp [item, isSizeOf] at own
  | some found =>
    obtain ⟨d', v'⟩ := found
    rw [ofBare_of_item item] at h
    cases h
    rfl

/-- The value that a token gives to a dimension is the value of an item. -/
theorem isItemValue_of_mem {s : Text} (ht : t ∈ tokenize s) (h : .size t' d v ∈ ofToken t) :
    IsItemValue v := by
  cases t with
  | bare text =>
    have own : ofBare text = .size t' d v := (List.mem_singleton.1 h).symm
    exact Dimension.isItemValue_of_ofItem? (ofItem?_of_ofBare own) (isItemValue_of_bare ht)
  | pair key value =>
    rw [ofToken, ofPair] at h
    split_ifs at h with mode group clip spaceY spaceX flow align gap settings
    · exact absurd (List.mem_singleton.1 h) (by unfold ofMode; split_ifs <;> simp)
    · obtain ⟨i, hi, own⟩ := List.mem_map.1 h
      exact isItemValue_of_ofDimensionItem hi own
    · exact absurd (List.mem_singleton.1 h) (by unfold ofClip; split <;> simp)
    · cases List.mem_singleton.1 h
    · cases List.mem_singleton.1 h
    · cases List.mem_singleton.1 h
    · cases List.mem_singleton.1 h
    · cases List.mem_singleton.1 h
    · cases List.mem_singleton.1 h
    · have own : ofNamed (.pair key value) (lower key) value = .size t' d v :=
        (List.mem_singleton.1 h).symm
      unfold ofNamed at own
      split at own
      · cases own
      · cases own
      · cases own
        exact isItemValue_of_pair ht
      · cases own

/-- Of the entries, those of a dimension give it classes. -/
theorem exists_size_of_given {e : Entry} {mode : Mode} {flow : Option Flow}
    {u : ClassMap.Update Concern} (hu : u ∈ e.updates mode flow) {cs : List Text}
    (given : u.given? = some (.size d, cs)) :
    ∃ t v f, e = .size t d v ∧ Fragment.ofSize? v = some f ∧ cs = [d.short ++ "-" ++ f] := by
  cases e with
  | clip on =>
    cases on <;> obtain rfl := List.mem_singleton.1 hu <;> cases given
  | size t d' v =>
    simp only [updates] at hu
    split at hu
    · cases hu
    · obtain ⟨f, hf, hu⟩ := ClassMap.mem_elim_nil_iff.1 hu
      obtain rfl := List.mem_singleton.1 hu
      cases given
      exact ⟨t, v, f, rfl, hf, rfl⟩
  | spacing t axis v =>
    simp only [updates] at hu
    split at hu
    · cases hu
    · obtain ⟨f, -, hu⟩ := ClassMap.mem_elim_nil_iff.1 hu
      obtain rfl := List.mem_singleton.1 hu
      cases given
  | auto t a =>
    simp only [updates] at hu
    split at hu
    · cases a with
      | flow v => rcases mem_flowUpdates hu with rfl | rfl | rfl | rfl <;> cases given
      | gap v =>
        simp only [AutoEntry.updates, gapUpdates] at hu
        split_ifs at hu
        · obtain rfl := List.mem_singleton.1 hu
          cases given
        · obtain ⟨f, -, hu⟩ := ClassMap.mem_elim_nil_iff.1 hu
          obtain rfl := List.mem_singleton.1 hu
          cases given
      | padding items =>
        obtain ⟨i, -, hu⟩ := List.mem_flatMap.1 hu
        cases i with
        | value kind v =>
          obtain ⟨f, -, hu⟩ := ClassMap.mem_elim_nil_iff.1 hu
          rcases List.mem_append.1 hu with erased | last
          · obtain ⟨k, -, rfl⟩ := List.mem_map.1 erased
            cases given
          · obtain rfl := List.mem_singleton.1 last
            cases given
        | unknown token => cases hu
      | align v | settings items => cases hu
    · cases hu
  | marker | unclearClip | unread => cases hu

end Entry

theorem Mode.exists_tokenize_of_mem_resolve {input : Option Text} {t : Token}
    (h : t ∈ (Mode.resolve input).tokens) : ∃ s, t ∈ tokenize s := by
  unfold Mode.resolve at h
  split at h
  · cases h
  · split at h
    · exact ⟨_, h⟩
    · unfold Mode.ofTokens at h
      split at h
      · rcases List.mem_append.1 h with inner | rest
        · exact ⟨_, inner⟩
        · exact ⟨_, List.mem_of_mem_tail rest⟩
      · split_ifs at h <;> exact ⟨_, h⟩

/-! ## Classes read again -/

/-- The class of a dimension, as an item, sets the dimension to what it was set to. -/
theorem State.step_of_ofSize? {v f : Text} (h : Fragment.ofSize? v = some f) {d : Dimension}
    {mode : Mode} (admits : d.isBound → mode = .auto) (s : State) :
    s.step mode (.bare (d.short ++ "-" ++ f)) = s.setSize d v := by
  have item : Dimension.ofItem? (d.short ++ "-" ++ f) = some (d, f) :=
    Dimension.ofItem?_eq_some_iff.2 (afterWord?_append _ f)
  have free : ¬ ((d.isBound && mode != .auto) = true) := by
    rw [Bool.and_eq_true, bne_iff_ne]
    exact fun ⟨bound, other⟩ => other (admits bound)
  rw [State.step, Entry.ofToken, Entry.ofBare_of_item item, List.foldl_cons, List.foldl_nil,
    State.apply, if_neg free, State.setSize, State.setSize, h, Fragment.ofSize?_ofSize? h]

/-- One item in Auto layout is all that the layout has. -/
theorem reading_of_size {v f : Text} (h : Fragment.ofSize? v = some f) (d : Dimension) :
    (Resolution.reading ⟨.auto, [.bare (d.short ++ "-" ++ f)], none⟩).report.classes =
      [d.short ++ "-" ++ f] := by
  have run : run ⟨.auto, [.bare (d.short ++ "-" ++ f)], none⟩ = State.setSize {} d v :=
    State.step_of_ofSize? h (fun _ => rfl) {}
  rw [Resolution.reading, run, State.setSize, h]
  cases d <;> rfl

theorem read_auto_item {c : Text} (h : tokenize c = [.bare c]) :
    read (some ("Auto, " ++ c)) = Resolution.reading ⟨.auto, [.bare c], none⟩ := by
  have parts : ("Auto, " ++ c : Text) = "Auto".toList ++ ',' :: ' ' :: c := by simp
  have tokens : tokenize ("Auto, " ++ c) = [.bare "Auto", .bare c] := by
    rw [parts, tokenize_append (by decide), tokenize_cons_of_blank (by decide), h]
    rfl
  have unwrapped : [Token.bare "Auto", Token.bare c].head?.bind Mode.leading? = none := by
    show Mode.leading? (.bare "Auto") = none
    decide
  have head : (tokenize ("Auto, " ++ c)).head?.bind Mode.leading? = none := by
    rw [tokens, unwrapped]
  have some_text : trim ("Auto, " ++ c) ≠ [] := by
    intro empty
    rw [← tokenize_trim, empty] at tokens
    cases tokens
  rw [read_eq, resolve_of_wrapper?_eq_none some_text (wrapper?_eq_none_of_head head), tokens,
    ofTokens_of_autoMarker unwrapped (by rw [List.any_cons]; rfl), reading_marker (by decide)]

/-- The class of a dimension, however it was come by, is a layout that has that class. -/
theorem read_size_class {input : Option Text} {c : Text} {d : Dimension}
    (hc : c ∈ (read input).report.classes) (lead : d.short ++ "-".toList <+: c) :
    (read (some ("Auto, " ++ c))).report.classes = [c] := by
  obtain ⟨k, hk, -, spells⟩ := (shaped_read (Mode.resolve input)).exists_of_mem hc
  obtain rfl := eq_size_of_prefix spells lead
  rw [get?_finish_of_not_late (by cases d <;> decide), run_entries] at hk
  rcases ClassMap.exists_of_get?_foldl (fun s : State => s.draft.classes)
    (fun s e => s.classes_apply _ e) hk with empty | ⟨e, he, s, u, hu, given⟩
  · cases empty
  · obtain ⟨t', v, f, rfl, hf, hcs⟩ := Entry.exists_size_of_given hu given
    obtain rfl := List.singleton_inj.1 hcs
    obtain ⟨t, ht, he⟩ := List.mem_flatMap.1 he
    obtain ⟨s, hs⟩ := Mode.exists_tokenize_of_mem_resolve ht
    have value := (Entry.isItemValue_of_mem hs he).of_ofSize? hf
    have item : IsItemValue (d.short ++ "-" ++ f) := (IsItemValue.iff_append d.plain_short).2 value
    have tokens := item.tokenize_eq spells.solid (by cases d <;> simp [Dimension.short])
    rw [read_auto_item tokens, reading_of_size hf]

end Layout

end Inspector
