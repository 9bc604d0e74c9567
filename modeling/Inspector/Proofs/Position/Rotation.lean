import Inspector.Proofs.Number.Numeral
import Inspector.Proofs.Position.Outcome
import Inspector.Proofs.Token.Keys
import Inspector.Proofs.Token.Written

/-!
# Rotations in nested groups

A rotation is a turn in one word or a group of rotations, nested to any depth. The entries of a
group that stands as a value are read one by one, but a group among them is stripped and what it
holds is read as a value again, for which it has to be a group once more: two entries side by side
are one item then, which is no turn. So a rotation is read as its words in order exactly if every
group that is an entry of a group holds one rotation.

    v.isPlain → rotationItems v.written = v.items.map .bare                 (rotationItems_written)
    v.alternates → v.items = v.leaves                                       (items_of_alternates)
    read (some (rotated v)) = read (some (rotated (v.flat l r))) ↔ v.alternates
                                                                        (nested_rotation_read)
-/

namespace Inspector.Position

open Text Inspector.Group

/-- A rotation as it is written: a word, or a group of rotations. -/
inductive Turns where
  | word (text : Text)
  | group (left right : Char) (entries : List Turns)

namespace Turns

/-! ## Texts -/

mutual

/-- The text of a rotation, with a comma and a blank between the entries of a group. -/
def written : Turns → Text
  | .word text => text
  | .group left right entries => left :: writtenAll entries ++ [right]

def writtenAll : List Turns → Text
  | [] => []
  | [t] => t.written
  | t :: u :: ts => t.written ++ ',' :: ' ' :: writtenAll (u :: ts)

end

/-- One word, without blanks around it and without delimiters. -/
def isWord (text : Text) : Bool :=
  !text.isEmpty && trim text == text && text.all (!delimiters.contains ·)

mutual

/-- The words are words, and the brackets of a group are of one kind. -/
def isPlain : Turns → Bool
  | .word text => isWord text
  | .group left right entries => closerOf? left == some right && arePlain entries

def arePlain : List Turns → Bool
  | [] => true
  | t :: ts => t.isPlain && arePlain ts

end

mutual

/-- The words in order. -/
def leaves : Turns → List Text
  | .word text => [text]
  | .group _ _ entries => leavesAll entries

def leavesAll : List Turns → List Text
  | [] => []
  | t :: ts => t.leaves ++ leavesAll ts

end

/-- One group of the words in order. -/
def flat (left right : Char) (v : Turns) : Turns := .group left right (v.leaves.map .word)

mutual

/-- The items of a rotation that stands as a value: those of the entries, if it is a group. -/
def items : Turns → List Text
  | .word text => [text]
  | .group _ _ entries => itemsAll entries

def itemsAll : List Turns → List Text
  | [] => []
  | t :: ts => t.entryItems ++ itemsAll ts

/-- The items of an entry: a group that holds one rotation is that rotation as a value, and any
other group is one item, as it is written inside. -/
def entryItems : Turns → List Text
  | .word text => [text]
  | .group _ _ [t] => t.items
  | .group _ _ entries => [writtenAll entries]

end

mutual

/-- As a value, a rotation of which every group that is an entry holds one rotation. -/
def alternates : Turns → Bool
  | .word _ => true
  | .group _ _ entries => alternatesAll entries

def alternatesAll : List Turns → Bool
  | [] => true
  | t :: ts => t.alternatesAsEntry && alternatesAll ts

def alternatesAsEntry : Turns → Bool
  | .word _ => true
  | .group _ _ [t] => t.alternates
  | .group _ _ _ => false

end

/-! ## What is written is read apart -/

/-- A text that stands for one entry wherever it is put. -/
structure IsUnit (t : Text) : Prop where
  ne_nil : t ≠ []
  trimmed : trim t = t
  balanced : isBalanced 0 t
  commas : isWhole ',' 0 t
  equals : isWhole '=' 0 t

theorem IsUnit.of_isWord {t : Text} (h : isWord t) : IsUnit t := by
  simp only [isWord, Bool.and_eq_true, Bool.not_eq_true', List.isEmpty_eq_false_iff, beq_iff_eq] at h
  obtain ⟨⟨hne, trimmed⟩, chars⟩ := h
  have free {d : Char} (hd : d ∈ delimiters) : d ∉ t := by
    intro hmem
    have := List.all_eq_true.1 chars d hmem
    simp [hd] at this
  have closed : ∀ c ∈ t, c ∉ brackets := fun c hc hb =>
    free (List.mem_cons_of_mem _ (List.mem_cons_of_mem _ hb)) hc
  exact ⟨hne, trimmed, isBalanced_of_not_mem closed, isWhole_of_not_mem (free (by decide)) 0,
    isWhole_of_not_mem (free (by decide)) 0⟩

theorem IsUnit.of_group {l r : Char} (h : closerOf? l = some r) {t : Text}
    (ht : isBalanced 0 t) : IsUnit (l :: t ++ [r]) := by
  obtain ⟨hl, hr⟩ := not_isBlank_of_closerOf? h
  have whole {sep : Char} : sep ∉ brackets → isWhole sep 0 (l :: t ++ [r]) :=
    isWhole_enclosed h (staysOpen_succ_of_isBalanced ht).1
  exact ⟨by simp, trim_enclosed hl hr t, isBalanced_enclosed h ht, whole (by decide),
    whole (by decide)⟩

theorem strip?_of_isWord {t : Text} (h : isWord t) : strip? t = none := by
  simp only [isWord, Bool.and_eq_true, beq_iff_eq] at h
  obtain ⟨⟨-, trimmed⟩, chars⟩ := h
  refine strip?_eq_none_of_not_mem fun c hc bracket => ?_
  rw [trimmed] at hc
  have delimiter : c ∈ delimiters := List.mem_cons_of_mem _ (List.mem_cons_of_mem _ bracket)
  have := List.all_eq_true.1 chars c hc
  simp [delimiter] at this

mutual

theorem isUnit_written : (v : Turns) → v.isPlain → IsUnit v.written
  | .word _, h => .of_isWord h
  | .group _ _ entries, h => by
    rw [isPlain, Bool.and_eq_true, beq_iff_eq] at h
    exact .of_group h.1 (isBalanced_writtenAll entries h.2)

theorem isBalanced_writtenAll : (ts : List Turns) → arePlain ts → isBalanced 0 (writtenAll ts)
  | [], _ => rfl
  | [t], h => by
    rw [arePlain, Bool.and_eq_true] at h
    exact (isUnit_written t h.1).balanced
  | t :: u :: ts, h => by
    rw [arePlain, Bool.and_eq_true] at h
    rw [writtenAll, isBalanced_append (isUnit_written t h.1).balanced]
    exact isBalanced_writtenAll (u :: ts) h.2

end

/-- The entries of a group are its tokens, each of them bare. -/
theorem tokenize_writtenAll {ts : List Turns} (h : arePlain ts) :
    tokenize (writtenAll ts) = ts.map fun t => .bare t.written := by
  have single {t : Turns} (ht : t.isPlain) : tokenize t.written = [.bare t.written] := by
    have unit := isUnit_written t ht
    rw [tokenize_of_isWhole unit.commas, unit.trimmed, if_neg unit.ne_nil,
      Token.ofSegment_of_isWhole unit.equals]
  induction ts with
  | nil => exact tokenize_nil
  | cons t ts ih =>
    rw [arePlain, Bool.and_eq_true] at h
    cases ts with
    | nil => exact single h.1
    | cons u ts =>
      have closed := depthAfter_of_isBalanced (isUnit_written t h.1).balanced
      rw [writtenAll, tokenize_append closed, tokenize_cons_of_blank (by decide), single h.1, ih h.2]
      rfl

/-! ## The items of a rotation -/

theorem rotationItems_of_group {value inner : Text} (h : strip? value = some inner) :
    rotationItems value = (tokenize inner).flatMap fun t => t.group?.elim [t] rotationItems := by
  rw [rotationItems]
  split
  · next none =>
    rw [h] at none
    cases none
  · next inner' h' =>
    obtain rfl := Option.some.inj (h.symm.trans h')
    let read (t : Token) : List Token := t.group?.elim [t] rotationItems
    refine Eq.trans ?_ (attach_flatMap _ read)
    refine congrArg (List.flatMap · _) (funext fun ⟨t, ht⟩ => ?_)
    dsimp only [read]
    split
    · next nested hg => rw [hg, Option.elim_some]
    · next hg => rw [hg, Option.elim_none]

/-- A text with two tokens is no group. -/
theorem strip?_eq_none_of_tokens {s : Text} (h : 1 < (tokenize s).length) : strip? s = none := by
  cases hs : strip? s with
  | none => rfl
  | some inner =>
    obtain ⟨o, c, hoc, stays, hv⟩ := eq_of_strip? hs
    have commas : isWhole ',' 0 (trim s) := hv ▸ isWhole_enclosed hoc stays (by decide)
    rw [← tokenize_trim, tokenize_of_isWhole commas] at h
    split at h
    · exact absurd h (by decide)
    · exact absurd h (Nat.lt_irrefl 1)

theorem strip?_written {l r : Char} {entries : List Turns} (h : (group l r entries).isPlain) :
    strip? (group l r entries).written = some (writtenAll entries) := by
  rw [isPlain, Bool.and_eq_true, beq_iff_eq] at h
  obtain ⟨hl, hr⟩ := not_isBlank_of_closerOf? h.1
  exact strip?_enclosed hl hr h.1 (isBalanced_writtenAll entries h.2)

theorem arePlain_of_isPlain {l r : Char} {entries : List Turns} (h : (group l r entries).isPlain) :
    arePlain entries :=
  (Bool.and_eq_true _ _ ▸ h).2

mutual

theorem rotationItems_written : (v : Turns) → v.isPlain →
    rotationItems v.written = v.items.map .bare
  | .word _, h => Entry.rotationItems_of_plain (strip?_of_isWord h)
  | .group _ _ entries, h => by
    rw [rotationItems_of_group (strip?_written h), tokenize_writtenAll (arePlain_of_isPlain h), items]
    exact flatMap_entries entries (arePlain_of_isPlain h)

theorem flatMap_entries : (ts : List Turns) → arePlain ts →
    (ts.map fun t => Token.bare t.written).flatMap
      (fun t => t.group?.elim [t] rotationItems) = (itemsAll ts).map .bare
  | [], _ => rfl
  | t :: ts, h => by
    rw [arePlain, Bool.and_eq_true] at h
    rw [List.map_cons, List.flatMap_cons, itemsAll, List.map_append, flatMap_entries ts h.2]
    exact congrArg (· ++ _) (rotationItems_entry t h.1)

/-- A group among the entries of a group is stripped, and a value is made of what it holds. -/
theorem rotationItems_entry : (v : Turns) → v.isPlain →
    (strip? v.written).elim [.bare v.written] rotationItems = v.entryItems.map .bare
  | .word text, h => by
    rw [written, strip?_of_isWord h]
    rfl
  | .group _ _ [], h => by
    rw [strip?_written h]
    exact Entry.rotationItems_of_plain rfl
  | .group _ _ [t], h => by
    have plain := arePlain_of_isPlain h
    rw [arePlain, Bool.and_eq_true] at plain
    rw [strip?_written h]
    exact rotationItems_written t plain.1
  | .group _ _ (t :: u :: ts), h => by
    have several : 1 < (tokenize (writtenAll (t :: u :: ts))).length := by
      rw [tokenize_writtenAll (arePlain_of_isPlain h), List.length_map]
      exact Nat.succ_lt_succ (Nat.succ_pos _)
    rw [strip?_written h]
    exact Entry.rotationItems_of_plain (strip?_eq_none_of_tokens several)

end

/-! ## Items and words -/

mutual

theorem items_of_alternates : (v : Turns) → v.alternates → v.items = v.leaves
  | .word _, _ => rfl
  | .group _ _ entries, h => itemsAll_of_alternates entries h

theorem itemsAll_of_alternates : (ts : List Turns) → alternatesAll ts → itemsAll ts = leavesAll ts
  | [], _ => rfl
  | t :: ts, h => by
    rw [alternatesAll, Bool.and_eq_true] at h
    rw [itemsAll, leavesAll, entryItems_of_alternates t h.1, itemsAll_of_alternates ts h.2]

theorem entryItems_of_alternates : (v : Turns) → v.alternatesAsEntry → v.entryItems = v.leaves
  | .word _, _ => rfl
  | .group _ _ [t], h => by
    rw [leaves, leavesAll, leavesAll, List.append_nil]
    exact items_of_alternates t h
  | .group _ _ [], h => nomatch h
  | .group _ _ (_ :: _ :: _), h => nomatch h

end

/-- Nothing, or more than one entry, taken for an item. -/
def IsLumped (item : Text) : Prop := item = [] ∨ ',' ∈ item

mutual

theorem exists_lumped : (v : Turns) → v.alternates = false → ∃ i ∈ v.items, IsLumped i
  | .word _, h => nomatch h
  | .group _ _ entries, h => exists_lumpedAll entries h

theorem exists_lumpedAll : (ts : List Turns) → alternatesAll ts = false →
    ∃ i ∈ itemsAll ts, IsLumped i
  | [], h => nomatch h
  | t :: ts, h => by
    rw [itemsAll]
    rcases Bool.and_eq_false_iff.1 h with head | tail
    · obtain ⟨i, hi, lumped⟩ := exists_lumped_entry t head
      exact ⟨i, List.mem_append_left _ hi, lumped⟩
    · obtain ⟨i, hi, lumped⟩ := exists_lumpedAll ts tail
      exact ⟨i, List.mem_append_right _ hi, lumped⟩

theorem exists_lumped_entry : (v : Turns) → v.alternatesAsEntry = false →
    ∃ i ∈ v.entryItems, IsLumped i
  | .word _, h => nomatch h
  | .group _ _ [], _ => ⟨[], List.mem_singleton_self _, .inl rfl⟩
  | .group _ _ [t], h => exists_lumped t h
  | .group _ _ (t :: u :: ts), _ => by
    refine ⟨writtenAll (t :: u :: ts), List.mem_singleton_self _, .inr ?_⟩
    rw [writtenAll]
    exact List.mem_append_right _ List.mem_cons_self

end

mutual

theorem isWord_of_mem_leaves : (v : Turns) → v.isPlain → ∀ w ∈ v.leaves, isWord w
  | .word _, h, _, hw => List.mem_singleton.1 hw ▸ h
  | .group _ _ entries, h, w, hw => isWord_of_mem_leavesAll entries (arePlain_of_isPlain h) w hw

theorem isWord_of_mem_leavesAll : (ts : List Turns) → arePlain ts → ∀ w ∈ leavesAll ts, isWord w
  | t :: ts, h, w, hw => by
    rw [arePlain, Bool.and_eq_true] at h
    rcases List.mem_append.1 hw with head | tail
    · exact isWord_of_mem_leaves t h.1 w head
    · exact isWord_of_mem_leavesAll ts h.2 w tail

end

theorem not_lumped_of_isWord {t : Text} (h : isWord t) : ¬ IsLumped t := by
  have unit := IsUnit.of_isWord h
  simp only [isWord, Bool.and_eq_true] at h
  rintro (empty | comma)
  · exact unit.ne_nil empty
  · exact absurd (List.all_eq_true.1 h.2 ',' comma) (by decide)

section

variable {ws : List Text}

theorem arePlain_words (h : ∀ w ∈ ws, isWord w) : arePlain (ws.map .word) := by
  induction ws with
  | nil => rfl
  | cons w ws ih =>
    obtain ⟨head, tail⟩ := List.forall_mem_cons.1 h
    rw [List.map_cons, arePlain, ih tail, isPlain, head]
    rfl

theorem itemsAll_words (ws : List Text) : itemsAll (ws.map .word) = ws := by
  induction ws with
  | nil => rfl
  | cons w ws ih =>
    rw [List.map_cons, itemsAll, ih]
    rfl

end

variable {v : Turns} {l r : Char}

theorem isPlain_flat (h : v.isPlain) (hlr : closerOf? l = some r) : (v.flat l r).isPlain := by
  rw [flat, isPlain, hlr, beq_self_eq_true, Bool.true_and]
  exact arePlain_words (isWord_of_mem_leaves v h)

theorem items_flat : (v.flat l r).items = v.leaves := itemsAll_words v.leaves

end Turns

/-! ## Turns -/

/-- What holds a comma is no turn. -/
theorem Turn.ofText?_of_comma {text : Text} (h : ',' ∈ text) : ofText? text = none := by
  have comma : ',' ∈ lower (trim text) :=
    List.mem_map.2 ⟨',', mem_trim (by decide) h, by decide⟩
  have other {words : List Text} (hw : ∀ w ∈ words, ',' ∉ w) : lower (trim text) ∉ words :=
    fun known => hw _ known comma
  have keyword : lower (trim text) ≠ "none".toList := fun h => absurd (h ▸ comma) (by decide)
  have horizontal : lower (trim text) ∉ (["flip-h", "flip-x", "mirror-h", "horizontal"] : List Text) :=
    other (by decide)
  have vertical : lower (trim text) ∉ (["flip-v", "flip-y", "mirror-v", "vertical"] : List Text) :=
    other (by decide)
  simp only [List.mem_cons, List.not_mem_nil, or_false] at horizontal vertical
  have inside : ',' ∈ (after? "r-" (lower (trim text))).getD (lower (trim text)) := by
    cases hr : after? "r-" (lower (trim text)) with
    | none => exact comma
    | some rest =>
      rw [eq_append_of_after? hr, List.mem_append] at comma
      exact comma.resolve_left (by decide)
  unfold ofText?
  dsimp only
  rw [if_neg keyword, if_neg horizontal, if_neg vertical,
    Quantity.ofText?_of_isStray (by decide) inside]
  rfl

theorem Turn.ofText?_of_isLumped {text : Text} (h : Turns.IsLumped text) : ofText? text = none := by
  rcases h with rfl | comma
  · decide
  · exact ofText?_of_comma comma

/-! ## Positions -/

/-- A position in the layout that is turned. -/
def rotated (v : Turns) : Text := "detached=false, rotation=" ++ v.written

/-- The position in the layout with these items for its rotation. -/
def turned (items : List Text) : State :=
  (items.map Token.bare).foldl State.setRotationItem { flagSeen := true, rotationSeen := true }

variable {v : Turns}

theorem tokenize_rotated (h : v.isPlain) :
    tokenize (rotated v) = [.pair "detached" "false", .pair "rotation" v.written] := by
  have unit := Turns.isUnit_written v h
  have parts : rotated v = "detached=false" ++ ',' :: ' ' :: ("rotation" ++ '=' :: v.written) := by
    have front : "detached=false, rotation=".toList =
        "detached=false".toList ++ [',', ' '] ++ "rotation".toList ++ ['='] := by decide
    unfold rotated
    rw [front]
    simp only [List.append_assoc, List.cons_append, List.nil_append]
  have whole : isWhole ',' 0 ("rotation" ++ '=' :: v.written) := unit.commas
  have key : trimLeft "rotation" = "rotation".toList ∧ trim "rotation" = "rotation".toList := by
    decide
  have value : trimRight v.written = v.written := by
    rw [← unit.trimmed, trimRight_trim]
  have trimmed : trim ("rotation" ++ '=' :: v.written) = "rotation" ++ '=' :: v.written := by
    rw [trim_append_cons (by decide), key.1, value]
  have pair : Token.ofSegment ("rotation" ++ '=' :: v.written) = .pair "rotation" v.written := by
    rw [Token.ofSegment_pair (by decide) (by decide) unit.equals, key.2, unit.trimmed]
  have first : tokenize "detached=false" = [.pair "detached" "false"] := by decide
  rw [parts, tokenize_append (by decide), tokenize_cons_of_blank (by decide),
    tokenize_of_isWhole whole, trimmed, pair, first, if_neg (by simp)]
  rfl

theorem read_rotated (h : v.isPlain) : read (some (rotated v)) =
    ⟨(turned v.items).finish.draft.report .position Error.message Warning.message,
      (turned v.items).finish.detached⟩ := by
  have flags : flagged [.pair "detached" "false", .pair "rotation" v.written] =
      { flagSeen := true } := rfl
  have flag (s : State) : s.step (.pair "detached" "false") = s := rfl
  have rotation (s : State) : s.step (.pair "rotation" v.written) =
      (rotationItems v.written).foldl State.setRotationItem { s with rotationSeen := true } := rfl
  have state : run [.pair "detached" "false", .pair "rotation" v.written] = turned v.items := by
    show List.foldl State.step (flagged _) _ = _
    rw [flags, List.foldl_cons, flag, List.foldl_cons, rotation, List.foldl_nil,
      v.rotationItems_written h]
    rfl
  show reading (tokenize (rotated v)) = _
  rw [tokenize_rotated h, reading, state]

/-- The error about an item that is no turn. -/
def itemErrors (item : Text) : List Error :=
  if (Turn.ofText? item).isNone then [.invalidRotation (.bare item)] else []

theorem errors_turned (items : List Text) :
    (turned items).finish.draft.errors = items.flatMap itemErrors := by
  have item (s : State) (i : Text) :
      (s.setRotationItem (.bare i)).draft.errors = s.draft.errors ++ itemErrors i := by
    simp only [State.setRotationItem, itemErrors]
    cases Turn.ofText? i with
    | none => rfl
    | some t => exact (s.errors_setTurn t).trans (List.append_nil _).symm
  have marks : (turned items).marks = (false, true, true) :=
    kept_foldl State.marks State.marks_setRotationItem _ _
  simp only [State.marks, Prod.mk.injEq] at marks
  rw [State.finish, marks.2.1, if_pos rfl, marks.2.2, if_pos rfl, State.errors_setFrame, turned,
    List.foldl_map]
  exact log_foldl (fun s : State => s.draft.errors) item items _

theorem mem_errors_rotated (h : v.isPlain) {e : Text} :
    e ∈ (read (some (rotated v))).report.errors ↔
      ∃ i ∈ v.items, Turn.ofText? i = none ∧ "position: invalid rotation '" ++ i ++ "'" = e := by
  have message (i : Text) : Property.position.name ++ ": " ++
      (Error.invalidRotation (.bare i)).message = "position: invalid rotation '" ++ i ++ "'" := rfl
  rw [read_rotated h]
  show e ∈ List.map _ (turned v.items).finish.draft.errors ↔ _
  rw [errors_turned]
  simp only [itemErrors, List.mem_map, List.mem_flatMap, Option.isNone_iff_eq_none,
    List.mem_ite_nil_right, List.mem_singleton]
  constructor
  · rintro ⟨_, ⟨i, hi, none, rfl⟩, rfl⟩
    exact ⟨i, hi, none, (message i).symm⟩
  · rintro ⟨i, hi, none, rfl⟩
    exact ⟨_, ⟨i, hi, none, rfl⟩, message i⟩

/-- A rotation in nested groups is read as one group of its words exactly if every group that is an
entry of a group holds one rotation; with another group the position has an error about an item
that is none of the words. -/
theorem nested_rotation_read (v : Turns) (h : v.isPlain) :
    rotationItems v.written = v.items.map .bare ∧
    (v.alternates → v.items = v.leaves) ∧
    (v.alternates = false → ∃ i ∈ v.items, i ∉ v.leaves ∧
      "position: invalid rotation '" ++ i ++ "'" ∈ (read (some (rotated v))).report.errors) ∧
    ∀ l r, closerOf? l = some r →
      (read (some (rotated v)) = read (some (rotated (v.flat l r))) ↔ v.alternates) := by
  have lumped (nested : v.alternates = false) : ∃ i ∈ v.items, i ∉ v.leaves ∧
      "position: invalid rotation '" ++ i ++ "'" ∈ (read (some (rotated v))).report.errors := by
    obtain ⟨i, hi, lumped⟩ := v.exists_lumped nested
    have notLeaf : i ∉ v.leaves := fun leaf =>
      Turns.not_lumped_of_isWord (v.isWord_of_mem_leaves h i leaf) lumped
    exact ⟨i, hi, notLeaf,
      (mem_errors_rotated h).2 ⟨i, hi, Turn.ofText?_of_isLumped lumped, rfl⟩⟩
  refine ⟨v.rotationItems_written h, v.items_of_alternates, lumped, fun l r hlr => ?_⟩
  have flat := Turns.isPlain_flat h hlr
  constructor
  · intro same
    by_contra nested
    obtain ⟨i, -, notLeaf, invalid⟩ := lumped (Bool.eq_false_iff.2 nested)
    rw [same, mem_errors_rotated flat, Turns.items_flat] at invalid
    obtain ⟨w, leaf, -, message⟩ := invalid
    have word : w = i := List.append_cancel_left (List.append_cancel_right message)
    exact notLeaf (word ▸ leaf)
  · intro alternates
    rw [read_rotated h, read_rotated flat, Turns.items_flat, v.items_of_alternates alternates]

/-- A group of one group of two turns counts as the two, and a turn after it is read as well. -/
theorem single_groups_vanish :
    read (some "detached=false, rotation=([(r-90, flip-h)], none)") =
      read (some "detached=false, rotation=(r-90, flip-h, none)") :=
  ((nested_rotation_read (.group '(' ')' [.group '[' ']' [.group '(' ')'
    [.word "r-90", .word "flip-h"]], .word "none"]) (by decide)).2.2.2 '(' ')' rfl).2 (by decide)

/-- A group of two turns is no turn where it is the only entry of a group itself. -/
theorem group_of_two_refused :
    Turns.isPlain (.group '(' ')' [.group '(' ')' [.word "r-90", .word "flip-h"]]) ∧
    rotated (.group '(' ')' [.group '(' ')' [.word "r-90", .word "flip-h"]]) =
      "detached=false, rotation=((r-90, flip-h))".toList ∧
    read (some "detached=false, rotation=((r-90, flip-h))") =
      ⟨⟨[], ["position: invalid rotation 'r-90, flip-h'"], []⟩, false⟩ ∧
    read (some "detached=false, rotation=(r-90, flip-h)") =
      ⟨⟨["rotate-90", "-scale-x-100"], [], []⟩, false⟩ := by
  decide +kernel

end Inspector.Position
