import Inspector.Proofs.Appearance.Lines
import Inspector.Proofs.Element.Attribute
import Inspector.Proofs.Element.Blocks
import Inspector.Proofs.Fill.Lines
import Inspector.Proofs.Layout.Lines
import Inspector.Proofs.Position.Lines
import Inspector.Proofs.Stroke.Lines
import Inspector.Rendering

/-!
# The lines of a rendering

The text form of an inspection has the class attribute on its first line, and one line for each
problem, as long as no problem holds a line feed. The messages quote the properties as they are
written: if the properties stand on one line each, so do the messages, and if one of them does not,
a message may run over several lines of the text, of which none but the first shows what it is.

    IsLine l for all l ∈ ls ↔ (unlines ls).splitOn '\n' = ls ++ [[]]           (splitOn_unlines_iff)
    IsLine s for every property s of e → IsLine m for every message m       (isLine_of_mem_problems)
-/

namespace Inspector

open Text

/-! ## Texts of lines -/

theorem unlines_eq_intercalate (ls : List Text) : unlines ls = ['\n'].intercalate (ls ++ [[]]) := by
  induction ls with
  | nil => rfl
  | cons l ls ih =>
    rw [unlines, List.flatMap_cons, ← unlines, ih, List.cons_append,
      List.intercalate_cons_of_ne_nil (by simp)]

/-- A text of lines is cut into these lines, and nothing behind the last, exactly if no line holds a
line feed. -/
theorem splitOn_unlines_iff {ls : List Text} :
    (unlines ls).splitOn '\n' = ls ++ [[]] ↔ ∀ l ∈ ls, IsLine l := by
  constructor
  · intro h l hl hn
    have piece : l ∈ (unlines ls).splitOn '\n' := h ▸ List.mem_append_left _ hl
    rw [List.splitOn_eq_splitOnP] at piece
    simpa using not_of_mem_splitOnP piece '\n' hn
  · intro h
    rw [unlines_eq_intercalate]
    refine List.splitOn_intercalate '\n' (fun l hl => ?_) (by simp)
    rcases List.mem_append.1 hl with hl | hl
    · exact h l hl
    · simp [List.mem_singleton.1 hl]

theorem forall_isLine_iff {ls : List Text} :
    (∀ l ∈ ls, IsLine l) ↔ ls.flatten.count '\n' = 0 := by
  simp [IsLine, List.count_eq_zero]

theorem count_unlines (ls : List Text) :
    (unlines ls).count '\n' = ls.length + ls.flatten.count '\n' := by
  induction ls with
  | nil => rfl
  | cons l ls ih =>
    have ending : (l ++ ['\n']).count '\n' = l.count '\n' + 1 := by
      rw [List.count_append, List.count_singleton_self]
    rw [unlines, List.flatMap_cons, ← unlines, List.count_append, ending, ih, List.length_cons,
      List.flatten_cons, List.count_append]
    omega

/-- A label on one line adds no line feed. -/
theorem count_labelled {label : Text} (h : IsLine label) (ms : List Text) :
    (ms.map (label ++ ·)).flatten.count '\n' = ms.flatten.count '\n' := by
  induction ms with
  | nil => rfl
  | cons m ms ih =>
    rw [List.map_cons, List.flatten_cons, List.flatten_cons, List.count_append, List.count_append,
      List.count_append, List.count_eq_zero.2 h, ih, Nat.zero_add]

/-! ## Messages -/

theorem Property.inLines_read (p : Property) {s : Option Text} (h : ∀ t ∈ s, IsLine t) :
    (p.read s).InLines := by
  cases p with
  | layout => exact Layout.inLines_read h
  | position => exact Position.inLines_read h
  | appearance => exact Appearance.inLines_read h
  | fill => exact Fill.inLines_read h
  | stroke => exact Stroke.inLines_read h

namespace Inspection

/-- The errors and the warnings. -/
def problems (t : Inspection) : List Text := t.errors ++ t.warnings

/-- The lines where nothing is set off. -/
theorem lines_plain (t : Inspection) :
    t.lines .plain =
      [t.classAttribute] ++ (if t.isFixed then ["fixed: true".toList] else []) ++
        t.errors.map ("error: ".toList ++ ·) ++ t.warnings.map ("warning: ".toList ++ ·) := rfl

end Inspection

namespace Element

variable {e : Element}

/-- The problems of properties on one line stand on one line each. -/
theorem isLine_of_mem_problems (h : ∀ p, ∀ s ∈ e.get p, IsLine s) {m : Text}
    (hm : m ∈ e.inspect.problems) : IsLine m := by
  rw [Inspection.problems, errors_inspect, warnings_inspect, List.mem_append, List.mem_flatMap,
    List.mem_flatMap] at hm
  rcases hm with ⟨p, -, hm⟩ | ⟨p, -, hm⟩
  · exact (p.inLines_read (h p)).errors m hm
  · exact (p.inLines_read (h p)).warnings m hm

theorem isLine_classAttribute (e : Element) : IsLine e.inspect.classAttribute :=
  fun hn => absurd (eq_space_of_mem_classAttribute hn (by decide)) (by decide)

/-- The line feeds in what is shown are those of the messages. -/
theorem count_lines (e : Element) :
    (e.inspect.lines .plain).flatten.count '\n' = e.inspect.problems.flatten.count '\n' := by
  have first : e.inspect.classAttribute.count '\n' = 0 :=
    List.count_eq_zero.2 e.isLine_classAttribute
  have fixed :
      (if e.inspect.isFixed then ["fixed: true".toList] else []).flatten.count '\n' = 0 := by
    split <;> decide
  have errors := count_labelled (by decide : IsLine "error: ".toList) e.inspect.errors
  have warnings := count_labelled (by decide : IsLine "warning: ".toList) e.inspect.warnings
  rw [Inspection.lines_plain, Inspection.problems, List.flatten_append, List.flatten_append,
    List.flatten_append, List.flatten_append, List.count_append, List.count_append,
    List.count_append, List.count_append, List.flatten_singleton, first, fixed, errors, warnings,
    Nat.zero_add]

/-- What is shown breaks no line but where a message does. -/
theorem isLine_lines_iff :
    (∀ l ∈ e.inspect.lines .plain, IsLine l) ↔ ∀ m ∈ e.inspect.problems, IsLine m := by
  rw [forall_isLine_iff, forall_isLine_iff, count_lines]

/-- The lines after the first that begin like an error are those of the errors. -/
theorem countP_error_lines (t : Inspection) :
    ((t.lines .plain).tail ++ [[]]).countP "error: ".toList.isPrefixOf = t.errors.length := by
  have fixed : (if t.isFixed then ["fixed: true".toList] else []).countP
      "error: ".toList.isPrefixOf = 0 := by
    split <;> decide
  have errors : (t.errors.map ("error: ".toList ++ ·)).countP "error: ".toList.isPrefixOf =
      t.errors.length := by
    rw [List.countP_eq_length.2, List.length_map]
    exact List.forall_mem_map.2 fun m _ => List.isPrefixOf_iff_prefix.2 (List.prefix_append _ m)
  have warnings : (t.warnings.map ("warning: ".toList ++ ·)).countP
      "error: ".toList.isPrefixOf = 0 :=
    List.countP_eq_zero.2 (List.forall_mem_map.2 fun m _ => by simp)
  rw [Inspection.lines_plain, List.append_assoc, List.append_assoc, List.singleton_append,
    List.tail_cons, List.countP_append, List.countP_append, List.countP_append, fixed, errors,
    warnings]
  simp

/-- The text form has one line feed for the class attribute, one if the element is fixed, one for
each problem, and those that the messages hold. So it falls into the class attribute, the mark of a
fixed element and one line for each problem exactly if no message holds a line feed. This is so
wherever the properties stand on one line each, and then as many lines begin like an error, after
the first, as there are errors. -/
theorem one_line_per_problem (e : Element) :
    let t := e.inspect
    let text := t.render .text .plain
    let lines := [t.classAttribute] ++ (if t.isFixed then ["fixed: true".toList] else []) ++
      t.errors.map ("error: ".toList ++ ·) ++ t.warnings.map ("warning: ".toList ++ ·)
    text.count '\n' = 1 + (if t.isFixed then 1 else 0) + t.errors.length + t.warnings.length +
        t.problems.flatten.count '\n' ∧
      (text.splitOn '\n' = lines ++ [[]] ↔ ∀ m ∈ t.problems, IsLine m) ∧
      ((∀ p, ∀ s ∈ e.get p, IsLine s) →
        text.splitOn '\n' = lines ++ [[]] ∧
          (text.splitOn '\n').tail.countP "error: ".toList.isPrefixOf = t.errors.length) := by
  intro t text lines
  have exactly : text.splitOn '\n' = lines ++ [[]] ↔ ∀ m ∈ t.problems, IsLine m :=
    splitOn_unlines_iff.trans isLine_lines_iff
  refine ⟨?_, exactly, fun h => ?_⟩
  · have length : (t.lines .plain).length =
        1 + (if t.isFixed then 1 else 0) + t.errors.length + t.warnings.length := by
      rw [t.lines_plain]
      cases t.isFixed <;> simp <;> omega
    rw [← length, ← count_lines]
    exact count_unlines _
  · have shown := exactly.2 fun m hm => isLine_of_mem_problems h hm
    refine ⟨shown, ?_⟩
    rw [shown]
    exact countP_error_lines t

/-- A misspelt layout on one line is shown in two. -/
theorem lines_of_misspelt_layout :
    let e : Element :=
      { layout := some "Standard\x7bw-1, h-1, wide\x7d"
        position := some "detached=false, rotation=none"
        appearance := some "visible, opacity=100" }
    (∀ p, ∀ s ∈ e.get p, IsLine s) ∧
      (e.inspect.render .text .plain).splitOn '\n' =
        ["w-[1px] h-[1px] opacity-100".toList,
          "warning: layout: unrecognized token 'wide'".toList, []] := by
  intro e
  have line : ∀ p, ∀ s ∈ e.get p, IsLine s := by
    intro p
    cases p <;> decide
  refine ⟨line, ?_⟩
  rw [((one_line_per_problem e).2.2 line).1]
  decide +kernel

/-- A line feed in a token of the layout breaks the warning that quotes it, and what stands behind
it passes for an error where there is none. -/
theorem line_feed_in_layout_breaks_warning :
    let e : Element :=
      { layout := some "Standard\x7bw-1, h-1, a\nerror: b\x7d"
        position := some "detached=false, rotation=none"
        appearance := some "visible, opacity=100" }
    e.inspect.isFixed = false ∧ e.inspect.errors = [] ∧ e.inspect.warnings.length = 1 ∧
      (e.inspect.render .text .plain).splitOn '\n' =
        ["w-[1px] h-[1px] opacity-100".toList,
          "warning: layout: unrecognized token 'a".toList, "error: b'".toList, []] := by
  decide +kernel

end Element

end Inspector
