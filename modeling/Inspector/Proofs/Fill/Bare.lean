import Inspector.Proofs.Fill.Keys
import Inspector.Proofs.Fill.Run
import Inspector.Proofs.Token.Lower
import Inspector.Proofs.Token.Stream

/-!
# Bare references

A reference that starts with a slash or a scheme needs no key: as a bare token it is no color and
not enclosed in anything, so it is an image, spelled with an underscore for each run of blanks. But
a segment with exactly one `=` outside groups is a pair before the fill sees it, and a reference
with one such `=` is taken for a value behind an unknown key. With none, or with more, it is read.

    Image.isBare u → trim u = u → Entry.ofBare u = .image u                      (ofBare_of_isBare)
    Image.isBare u → trim u = u → Image.ofText? u = some (joined "_" (words u)) (ofText?_of_isBare)
    (read (some (imageFill u))).errors = [] ↔ equalSigns u ≠ 1                  (bare_image_read)
-/

namespace Inspector.Fill

open Text Inspector.Group

/-! ## What a bare reference is not -/

section

variable {u : Text}

/-- A reference without a key starts with a slash, or with a letter and a colon behind it. -/
theorem isBare_cases (h : Image.isBare u) :
    (∃ rest, u = '/' :: rest) ∨ ∃ c rest, u = c :: rest ∧ c.isAlpha ∧ ':' ∈ rest := by
  obtain ⟨behind, root⟩ : ∃ behind, Image.afterRoot? u = some behind := by
    unfold Image.isBare at h
    split at h
    · exact ⟨_, ‹_›⟩
    · cases h
  unfold Image.afterRoot? at root
  split at root
  · exact .inl ⟨_, rfl⟩
  · next c rest _ =>
    split_ifs at root with alpha
    have colon : ':' ∈ rest.dropWhile Image.isSchemeChar := by
      rw [eq_append_of_after? root]
      exact List.mem_cons_self
    exact .inr ⟨c, rest, rfl, alpha, (List.dropWhile_sublist _).subset colon⟩
  · cases root

theorem not_color_of_isBare (h : Image.isBare u) (trimmed : trim u = u) :
    Color.ofText? u "bg" = none := by
  rcases isBare_cases h with ⟨rest, rfl⟩ | ⟨c, rest, rfl, -, colon⟩
  · unfold Color.ofText?
    rw [trimmed]
    rfl
  · cases hc : Color.ofText? (c :: rest) "bg" with
    | none => rfl
    | some color =>
      have chars := Color.all_isClassChar (by decide) hc
      rw [trimmed] at chars
      exact absurd (List.all_eq_true.1 chars ':' (List.mem_cons_of_mem _ colon)) (by decide)

theorem not_enclosed_of_isBare (h : Image.isBare u) : afterWord? "url(" u = none := by
  cases hr : afterWord? "url(" u with
  | none => rfl
  | some rest =>
    obtain ⟨word, rfl, hword⟩ := eq_append_of_afterWord? hr
    obtain ⟨front, back, rfl, hfront, hback⟩ := List.map_eq_append_iff.1
      (show word.map Char.toLower = "url".toList ++ "(".toList from hword)
    obtain ⟨d, rfl, hd⟩ := List.map_eq_singleton_iff.1 hback
    obtain rfl : d = '(' := (toLower_eq_iff (by decide) d).1 hd
    have notIn {c : Char} (hc : c.toLower = c) (hne : c ∉ lower "url(") : c ∉ front ++ ['('] := by
      intro hmem
      have low : c.toLower ∈ lower "url(" := hword ▸ List.mem_map_of_mem hmem
      rw [hc] at low
      exact hne low
    have bare := isBare_of_not_scheme (by decide) (notIn (c := '/') (by decide) (by decide))
      (notIn (c := ':') (by decide) (by decide)) rest
    rw [List.append_assoc] at h
    exact absurd (h.symm.trans bare) (by decide)

theorem unquoted_of_isBare (h : Image.isBare u) : Image.unquoted u = u := by
  have quotes (q : Char) (hq : q = '"' ∨ q = '\'') : Image.isQuotedBy q u = false := by
    rcases isBare_cases h with ⟨rest, rfl⟩ | ⟨c, rest, rfl, alpha, -⟩
    · rcases hq with rfl | rfl <;> simp [Image.isQuotedBy]
    · have hc : c ≠ q := by
        rintro rfl
        rcases hq with rfl | rfl <;> exact absurd alpha (by decide)
      simp [Image.isQuotedBy, hc]
  rw [Image.unquoted, quotes '"' (.inl rfl), quotes '\'' (.inr rfl)]
  rfl

theorem ofText?_of_isBare (h : Image.isBare u) (trimmed : trim u = u) :
    Image.ofText? u = some (joined "_" (words u)) := by
  have enclosed : Image.unwrapped u = u := by rw [Image.unwrapped, not_enclosed_of_isBare h]
  have some_word : words u ≠ [] := by
    rcases isBare_cases h with ⟨rest, rfl⟩ | ⟨c, rest, rfl, alpha, -⟩
    · exact words_ne_nil (by decide) rest
    · exact words_ne_nil (not_isBlank_of_isAlphanum (Color.isAlphanum_of_isAlpha alpha)) rest
  rw [Image.ofText?, trimmed, enclosed, unquoted_of_isBare h]
  cases hw : words u with
  | nil => exact absurd hw some_word
  | cons w ws => rfl

theorem ofBare_of_isBare (h : Image.isBare u) (trimmed : trim u = u) :
    Entry.ofBare u = .image u := by
  rw [Entry.ofBare, not_color_of_isBare h trimmed, trimmed, h, Bool.or_true]
  rfl

/-! ## What a reference with a `=` is taken for -/

def knownKeys : List Text := ["type", "color", "fill", "opacity", "url", "image", "src"]

theorem ofPair_of_not_mem {key : Text} (h : key ∉ knownKeys) (value : Text) :
    Entry.ofPair key value = .unknownKey key := by
  have other {known : Text} (hk : known ∈ knownKeys) : key ≠ known := fun he => h (he ▸ hk)
  have image : Entry.isImageKey key = false := by
    rw [Entry.isImageKey, decide_eq_false (other (by decide)), decide_eq_false (other (by decide)),
      decide_eq_false (other (by decide))]
    rfl
  rw [Entry.ofPair, if_neg (other (by decide)),
    if_neg (not_or.2 ⟨other (by decide), other (by decide)⟩), if_neg (other (by decide)), image]
  rfl

/-- What stands before a `=` in a reference is no key that fills know. -/
theorem not_knownKey_of_isBare {front rest : Text} (h : Image.isBare (front ++ '=' :: rest)) :
    lower (trim front) ∉ knownKeys := by
  have mark : ∃ c, (c = '/' ∨ c = ':') ∧ c ∈ front := by
    by_contra none
    simp only [not_exists, not_and] at none
    have bare := isBare_of_not_scheme (d := '=') (by decide)
      (by simpa using none '/' (.inl rfl)) (by simpa using none ':' (.inr rfl)) rest
    exact absurd (h.symm.trans bare) (by decide)
  obtain ⟨c, hc, hmem⟩ := mark
  have each : ∀ key ∈ knownKeys, '/' ∉ key ∧ ':' ∉ key := by decide
  intro known
  obtain ⟨slash, colon⟩ := each _ known
  have inTrim : c ∈ trim front := mem_trim (by rcases hc with rfl | rfl <;> decide) hmem
  rcases hc with rfl | rfl
  · exact slash (List.mem_map.2 ⟨'/', inTrim, rfl⟩)
  · exact colon (List.mem_map.2 ⟨':', inTrim, rfl⟩)

/-! ## Fills with a bare reference -/

/-- A fill of type image and of full opacity with one value between them. -/
def imageFill (u : Text) : Text := "type=image, " ++ u ++ ", opacity=100"

theorem tokenize_imageFill (trimmed : trim u = u) (hne : u ≠ []) (balanced : isBalanced 0 u)
    (whole : isWhole ',' 0 u) : tokenize (imageFill u) =
      [.pair "type" "image", Token.ofSegment u, .pair "opacity" "100"] := by
  have parts : imageFill u = "type=image" ++ ',' :: ((' ' :: u) ++ ',' :: " opacity=100") := by
    have front : "type=image, ".toList = "type=image".toList ++ [',', ' '] := by decide
    have back : ", opacity=100".toList = ',' :: " opacity=100".toList := by decide
    unfold imageFill
    rw [front, back]
    simp only [List.append_assoc, List.cons_append, List.nil_append]
  have closed : depthAfter 0 (' ' :: u) = 0 := depthAfter_of_isBalanced balanced
  have middle : tokenize (' ' :: u) = [Token.ofSegment u] := by
    rw [tokenize_of_isWhole (show isWhole ',' 0 (' ' :: u) from whole),
      trim_cons_of_blank (by decide), trimmed, if_neg hne]
  have first : tokenize "type=image" = [.pair "type" "image"] := by decide
  have last : tokenize " opacity=100" = [.pair "opacity" "100"] := by decide
  rw [parts, tokenize_append (by decide), tokenize_append closed, first, middle, last]
  rfl

theorem hundred : Fragment.ofPercent? "100" = some "100".toList := by decide +kernel

/-- At its end a fill of type image and with an opacity lacks the image at most. -/
theorem finish_of_image {s : State} (kind : s.decision = some ⟨.image, true⟩)
    (seen : s.opacitySeen) (held : s.draft.contains .opacity) :
    s.finish.draft = if s.draft.contains .url then s.draft else s.draft.error .missingImage := by
  have known : s.checkKind = s := by
    rw [State.checkKind, kind]
    rfl
  have value : s.checkValue =
      if s.draft.contains .url then s else s.error .missingImage := by
    rw [State.checkValue, kind]
  have full {r : State} (hs : r.opacitySeen) (hh : r.draft.contains .opacity) :
      r.checkOpacity = r := by
    rw [State.checkOpacity, if_pos hs, if_pos hh]
  rw [State.finish, known, value]
  split
  · rw [full seen held]
  · rw [full (r := s.error .missingImage) seen held]
    rfl

/-- A fill of type image and of full opacity whose other token leads to the state `s`. -/
theorem reading_of_step {t : Token} {s : State}
    (step : State.step { decision := some ⟨.image, true⟩ } t = s)
    (kind : s.decision = some ⟨.image, true⟩) (unset : s.draft.classes.get? .opacity = none) :
    reading [.pair "type" "image", t, .pair "opacity" "100"] =
      (if s.draft.contains .url then s.draft.insert .opacity "bg-opacity-100"
        else (s.draft.insert .opacity "bg-opacity-100").error .missingImage).report .fill
          Error.message Warning.message := by
  have first : ({} : State).step (.pair "type" "image") =
      { decision := some ⟨.image, true⟩ } := by decide
  have last : s.step (.pair "opacity" "100") =
      ⟨s.draft.insert .opacity "bg-opacity-100", s.decision, true, s.seeded⟩ := by
    show s.setOpacity "100" = _
    rw [State.setOpacity, hundred]
    dsimp only
    rw [Draft.put, unset]
    rfl
  have url : (s.draft.insert .opacity "bg-opacity-100").contains .url = s.draft.contains .url := by
    simp
  have finished := finish_of_image
    (s := ⟨s.draft.insert .opacity "bg-opacity-100", s.decision, true, s.seeded⟩) kind rfl (by simp)
  show (run _).finish.draft.report .fill Error.message Warning.message = _
  rw [run, List.foldl_cons, first, List.foldl_cons, step, List.foldl_cons, last, List.foldl_nil,
    finished, url]

theorem reading_of_image {t : Token} (ht : Entry.ofToken t = .image u) {r : Text}
    (h : Image.ofText? u = some r) :
    reading [.pair "type" "image", t, .pair "opacity" "100"] =
      ⟨["bg-[url(" ++ r ++ ")]", "bg-cover", "bg-center", "bg-no-repeat", "bg-opacity-100"], [],
        []⟩ := by
  have step : State.step { decision := some ⟨.image, true⟩ } t =
      ⟨⟨⟨[(.url, ["bg-[url(" ++ r ++ ")]"]), (.size, ["bg-cover"]), (.position, ["bg-center"]),
        (.tiling, ["bg-no-repeat"])]⟩, [], []⟩, some ⟨.image, true⟩, false, true⟩ := by
    rw [State.step, ht, State.apply, State.setImage, h]
    rfl
  rw [reading_of_step step rfl rfl]
  refine congrArg (Report.mk · [] []) (eraseDups_of_nodup ?_)
  have others : ∀ c ∈ (["bg-cover", "bg-center", "bg-no-repeat", "bg-opacity-100"] : List Text),
      ¬ "bg-[".toList <+: c := by decide
  exact List.nodup_cons.2 ⟨fun hc => others _ hc ⟨"url(".toList ++ r ++ ")]".toList, rfl⟩,
    by decide⟩

theorem reading_of_unknownKey {t : Token} {key : Text} (ht : Entry.ofToken t = .unknownKey key) :
    reading [.pair "type" "image", t, .pair "opacity" "100"] =
      ⟨["bg-opacity-100"], ["fill: image fill requires a url"],
        ["fill: unknown key '" ++ key ++ "'"]⟩ := by
  have step : State.step { decision := some ⟨.image, true⟩ } t =
      ⟨⟨{}, [], [.unknownKey key]⟩, some ⟨.image, true⟩, false, false⟩ := by
    rw [State.step, ht]
    rfl
  rw [reading_of_step step rfl rfl]
  rfl

/-- The number of `=` outside groups. -/
def equalSigns (u : Text) : Nat := (levels 0 u).countP (isCut '=')

theorem ofSegment_of_equalSigns (h : equalSigns u ≠ 1) : Token.ofSegment u = .bare u := by
  have pieces : (cut '=' 0 u).length ≠ 2 := by
    rw [length_cut (by decide)]
    exact fun two => h (Nat.succ.inj two)
  unfold Token.ofSegment
  split
  · next k v hkv => exact absurd (congrArg List.length hkv) pieces
  · rfl

theorem exists_cut_of_equalSigns (h : equalSigns u = 1) : ∃ k v, cut '=' 0 u = [k, v] :=
  List.length_eq_two.1 ((length_cut (by decide) 0 u).trans (congrArg (· + 1) h))

/-- A bare reference in a fill of type image and of full opacity: with exactly one `=` outside
groups it is the value of an unknown key, and the fill has no image; otherwise it is the image. -/
theorem bare_image_read (u : Text) (trimmed : trim u = u) (balanced : isBalanced 0 u)
    (whole : isWhole ',' 0 u) (bare : Image.isBare u) :
    (equalSigns u ≠ 1 → read (some (imageFill u)) =
      ⟨["bg-[url(" ++ joined "_" (words u) ++ ")]", "bg-cover", "bg-center", "bg-no-repeat",
        "bg-opacity-100"], [], []⟩) ∧
    (∀ key value, cut '=' 0 u = [key, value] → read (some (imageFill u)) =
      ⟨["bg-opacity-100"], ["fill: image fill requires a url"],
        ["fill: unknown key '" ++ lower (trim key) ++ "'"]⟩) ∧
    ((read (some (imageFill u))).errors = [] ↔ equalSigns u ≠ 1) := by
  have hne : u ≠ [] := by
    rintro rfl
    cases bare
  have entries : read (some (imageFill u)) =
      reading [.pair "type" "image", Token.ofSegment u, .pair "opacity" "100"] := by
    rw [read_eq]
    exact congrArg reading (tokenize_imageFill trimmed hne balanced whole)
  have taken (h : equalSigns u ≠ 1) : read (some (imageFill u)) =
      ⟨["bg-[url(" ++ joined "_" (words u) ++ ")]", "bg-cover", "bg-center", "bg-no-repeat",
        "bg-opacity-100"], [], []⟩ := by
    rw [entries, ofSegment_of_equalSigns h]
    exact reading_of_image (t := .bare u) (ofBare_of_isBare bare trimmed)
      (ofText?_of_isBare bare trimmed)
  have refused (key value : Text) (h : cut '=' 0 u = [key, value]) : read (some (imageFill u)) =
      ⟨["bg-opacity-100"], ["fill: image fill requires a url"],
        ["fill: unknown key '" ++ lower (trim key) ++ "'"]⟩ := by
    have split := (eq_of_cut_eq_pair h).1
    rw [split] at bare
    rw [entries, Token.ofSegment, h]
    exact reading_of_unknownKey (ofPair_of_not_mem (not_knownKey_of_isBare bare) (trim value))
  refine ⟨taken, refused, fun accepted one => ?_, fun h => ?_⟩
  · obtain ⟨key, value, h⟩ := exists_cut_of_equalSigns one
    rw [refused key value h] at accepted
    cases accepted
  · rw [taken h]

/-- Two references: two fields in the query, and one inside a group beside a blank. -/
theorem images_with_queries :
    read (some (imageFill "/a?b=c&d=e")) =
      ⟨["bg-[url(/a?b=c&d=e)]", "bg-cover", "bg-center", "bg-no-repeat", "bg-opacity-100"], [],
        []⟩ ∧
    read (some (imageFill "https://x.test/a b?(c=d)")) =
      ⟨["bg-[url(https://x.test/a_b?(c=d))]", "bg-cover", "bg-center", "bg-no-repeat",
        "bg-opacity-100"], [], []⟩ :=
  ⟨(bare_image_read "/a?b=c&d=e" (by decide) (by decide) (by decide) (by decide)).1 (by decide),
    (bare_image_read "https://x.test/a b?(c=d)" (by decide) (by decide) (by decide)
      (by decide)).1 (by decide)⟩

/-- A reference with one field in its query is refused, where one with none or two is taken. -/
theorem query_of_one_field_refused :
    trim "/a?b=c" = "/a?b=c".toList ∧ isBalanced 0 "/a?b=c" ∧ isWhole ',' 0 "/a?b=c" ∧
      Image.isBare "/a?b=c" ∧
    read (some (imageFill "/a?b=c")) = ⟨["bg-opacity-100"], ["fill: image fill requires a url"],
      ["fill: unknown key '/a?b'"]⟩ := by
  decide +kernel

end

end Inspector.Fill
