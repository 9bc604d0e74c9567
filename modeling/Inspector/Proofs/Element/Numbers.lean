import Inspector.Proofs.Appearance.Numbers
import Inspector.Proofs.Fill.Numbers
import Inspector.Proofs.Layout.Numbers
import Inspector.Proofs.Position.Numbers
import Inspector.Proofs.Stroke.Numbers

/-!
# Numbers in the classes of an element

Every class of every property is made by an entry of one of the tokens, a few fixed ones aside that
are settled at the end, so each number in a class is that of a literal which an entry gives. It is a
decimal numeral exactly if the literal is less than the midpoint from which on numbers overflow, as
those of all opacities are. Nothing refuses a longer literal: its class has an infinity for a
number, and the class of an angle has what is left of an infinity, which is not a number.

    Built lead literal c → (Fits literal ↔ a numeral stands behind the lead)   (numbers_of_classes)
-/

namespace Inspector.Element

open Text

/-- Where the classes of an element come from, and what their numbers are. -/
theorem numbers_of_classes (input : Option Text) :
    (∀ c ∈ (Layout.read input).report.classes, (∃ k ∈ Layout.lateConcerns, k.Spells c) ∨
      ∃ e ∈ (Layout.Mode.resolve input).tokens.flatMap Layout.Entry.ofToken, e.Makes c) ∧
    (∀ c ∈ (Position.read input).report.classes, c ∈ Position.frameClasses ∨
      ∃ t ∈ tokens input, (Position.Entry.ofToken t).Makes c) ∧
    (∀ c ∈ (Appearance.read input).classes, c = "opacity-100" ∨
      ∃ e ∈ Appearance.entries (tokens input), e.Makes c) ∧
    (∀ c ∈ (Fill.read input).classes, c = "bg-opacity-100" ∨
      ∃ t ∈ tokens input, (Fill.Entry.ofToken t).Makes c) ∧
    (∀ c ∈ (Stroke.read input).classes, ∃ e ∈ Stroke.entries (tokens input), e.Makes c) ∧
    ∀ lead literal c, Built lead literal c →
      ∃ number, Shows lead number c ∧ (IsNumeral number ↔ Fits literal) ∧
        (¬ Fits literal → number ∈ Binary64.overflowWords) := by
  refine ⟨fun _ => Layout.exists_maker_of_mem_read, fun _ => Position.exists_maker_of_mem_read,
    fun _ => Appearance.exists_maker_of_mem_read, fun _ => Fill.exists_maker_of_mem_read,
    fun _ => Stroke.exists_maker_of_mem_read, fun lead literal c built => ?_⟩
  obtain ⟨number, shown, numeral, word⟩ := built.shown
  refine ⟨number, shown, ⟨fun h => ?_, numeral⟩, word⟩
  by_contra overflows
  exact Binary64.not_isNumeral_of_mem (word overflows) h

/-- A size, a weight and a gap, each with its literal. -/
theorem numbers_of_short_literals :
    ((∃ k ∈ Layout.lateConcerns, k.Spells "w-[12.5px]") ∨
      ∃ e ∈ (Layout.Mode.resolve (some "Standard\x7bw-12.5, h-1\x7d")).tokens.flatMap
        Layout.Entry.ofToken, e.Makes "w-[12.5px]") ∧
    (∃ e ∈ Stroke.entries (tokens (some "color=#fff, weight=3")), e.Makes "border-[3px]") ∧
    ∃ number, Shows "gap-" number "gap-[12px]" ∧ (IsNumeral number ↔ Fits "12") ∧
      (¬ Fits "12" → number ∈ Binary64.overflowWords) :=
  ⟨(numbers_of_classes (some "Standard\x7bw-12.5, h-1\x7d")).1 "w-[12.5px]" (by decide +kernel),
    (numbers_of_classes (some "color=#fff, weight=3")).2.2.2.2.1 "border-[3px]" (by decide +kernel),
    (numbers_of_classes none).2.2.2.2.2 "gap-" "12" "gap-[12px]"
      (Fragment.built_ofExtent? "gap-" (f := "[12px]") (by decide +kernel))⟩

/-- Four hundred nines. -/
def nines : Text := List.replicate 400 '9'

/-- Literals that do not fit: the class of an angle, of a size, of a radius and of a weight. -/
theorem long_literals_overflow :
    ¬ IsNumeral "inf" ∧ ¬ IsNumeral "NaN" ∧
    Position.read (some ("detached=false, rotation=" ++ nines)) =
      ⟨⟨["rotate-[NaNdeg]"], [], []⟩, false⟩ ∧
    Layout.read (some ("Standard\x7bw-" ++ nines ++ ", h-1\x7d")) =
      ⟨.standard, ⟨["w-[infpx]", "h-[1px]"], [], []⟩⟩ ∧
    Appearance.read (some ("visible, opacity=100, radius=" ++ nines)) =
      ⟨["opacity-100", "rounded-[infpx]"], [], []⟩ ∧
    Stroke.read (some ("color=#fff, weight=" ++ nines)) =
      ⟨["border-[#fff]", "border-[infpx]"], [], []⟩ := by
  refine ⟨Binary64.not_isNumeral_of_mem (by decide), Binary64.not_isNumeral_of_mem (by decide), ?_⟩
  decide +kernel

end Inspector.Element
