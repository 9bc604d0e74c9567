import Inspector.Proofs.Appearance.Keys
import Inspector.Proofs.Fill.Keys
import Inspector.Proofs.Layout.Keys
import Inspector.Proofs.Position.Keys
import Inspector.Proofs.Stroke.Keys

/-!
# Keys in any case, in every property

The case of a key, at the top of a property string or in a group of it whose items have keys,
changes neither the classes nor how many errors and warnings there are; nor does it change the mode
of a layout or whether an element is fixed. Messages may quote the key as it is written.

    ts.Forall₂ SameToken us → (reading ts).Matches (reading us)               (reading_of_same_keys)
-/

namespace Inspector.Element

open Text

/-- Two lists of tokens that differ in the case of keys alone, those in the groups of dimensions,
paddings, settings, constraints, radii and weights among them, are read to the same classes, as many
errors and as many warnings; a layout is in the same mode, whether it is settled around the tokens
or among them, and a position is fixed or not. A property string is read by its tokens, a layout by
the tokens behind its wrapper. -/
theorem keys_count_in_any_case (ts us : List Token) :
    (List.Forall₂ Stroke.SameToken ts us → (Stroke.reading ts).Matches (Stroke.reading us)) ∧
    (List.Forall₂ Appearance.SameToken ts us →
      (Appearance.reading ts).Matches (Appearance.reading us)) ∧
    (List.Forall₂ Fill.SameToken ts us → (Fill.reading ts).Matches (Fill.reading us)) ∧
    (List.Forall₂ Position.SameToken ts us →
      (Position.reading ts).report.Matches (Position.reading us).report ∧
      (Position.reading ts).isFixed = (Position.reading us).isFixed) ∧
    (List.Forall₂ Layout.SameToken ts us →
      (∀ mode advice, (Layout.Resolution.reading ⟨mode, ts, advice⟩).report.Matches
        (Layout.Resolution.reading ⟨mode, us, advice⟩).report) ∧
      (Layout.Mode.ofTokens ts).reading.mode = (Layout.Mode.ofTokens us).reading.mode ∧
      (Layout.Mode.ofTokens ts).reading.report.Matches
        (Layout.Mode.ofTokens us).reading.report) ∧
    (∀ input, tokens input = ts →
      Stroke.read input = Stroke.reading ts ∧
      Appearance.read input = Appearance.reading ts ∧
      Fill.read input = Fill.reading ts ∧
      Position.read input = Position.reading ts) ∧
    ∀ s s', lower s = lower s' →
      List.Forall₂ Layout.SameToken (Layout.Mode.resolve (some s)).tokens
        (Layout.Mode.resolve (some s')).tokens →
      (Layout.read (some s)).mode = (Layout.read (some s')).mode ∧
      (Layout.read (some s)).report.Matches (Layout.read (some s')).report := by
  refine ⟨Stroke.reading_of_same_keys, Appearance.reading_of_same_keys, fun h => ?fill,
    Position.reading_of_same_keys, fun h => ⟨fun mode advice => ?settled, ?among⟩, ?read,
    fun s s' hcase h => ?layout⟩
  case fill =>
    rw [Fill.reading_of_same_keys h]
    exact .refl _
  case settled =>
    have same : Layout.Resolution.Same ⟨mode, ts, advice⟩ ⟨mode, us, advice⟩ := ⟨rfl, h, rfl⟩
    exact (Layout.reading_of_same_keys same).2
  case among => exact Layout.reading_of_same_keys (Layout.same_ofTokens h)
  case read =>
    intro input h
    rw [Stroke.read_eq, Appearance.read_eq, Fill.read_eq, Position.read_eq, h]
    exact ⟨rfl, rfl, rfl, rfl⟩
  case layout =>
    rw [Layout.read_eq, Layout.read_eq]
    exact Layout.reading_of_same_keys (Layout.same_resolve hcase h)

/-- Weights and radii of single parts, an image behind a bare key, a constraint, and a layout whose
dimensions, padding and flow have their keys in capitals. -/
theorem keys_in_capitals :
    (Stroke.reading [.pair "WEIGHT" "(T=1,2)", .pair "Color" "#f00"]).Matches
      (Stroke.reading [.pair "weight" "(t=1,2)", .pair "color" "#f00"]) ∧
    (Appearance.reading [.pair "Radius" "((TL=1),2)", .bare "visible"]).Matches
      (Appearance.reading [.pair "radius" "((tl=1),2)", .bare "visible"]) ∧
    (Fill.reading [.pair "TYPE" "image", .bare "URL=/a?b=c"]).Matches
      (Fill.reading [.pair "type" "image", .bare "url=/a?b=c"]) ∧
    (Position.reading [.bare "detached", .pair "Constraints" "(X=left)"]).isFixed =
      (Position.reading [.bare "detached", .pair "constraints" "(x=left)"]).isFixed ∧
    (Layout.Mode.ofTokens [.pair "Mode" "auto", .pair "Padding" "(X=1)"]).reading.report.Matches
      (Layout.Mode.ofTokens [.pair "mode" "auto", .pair "padding" "(x=1)"]).reading.report ∧
    (Layout.read (some "Auto\x7bSIZE=(W=1,H=1),Flow=row\x7d")).report.Matches
      (Layout.read (some "Auto\x7bsize=(w=1,h=1),flow=row\x7d")).report := by
  have stroke : List.Forall₂ Stroke.SameToken [.pair "WEIGHT" "(T=1,2)", .pair "Color" "#f00"]
      [.pair "weight" "(t=1,2)", .pair "color" "#f00"] := by
    refine .cons (.pair (by decide) ?_) (.cons (.pair (by decide) rfl) .nil)
    exact @SameBundle.group _ _ "T=1,2" "t=1,2" (by decide) (by decide)
      (.cons (.pair (by decide) rfl) (.cons (.bare (.same "2")) .nil))
  have appearance : List.Forall₂ Appearance.SameToken
      [.pair "Radius" "((TL=1),2)", .bare "visible"]
      [.pair "radius" "((tl=1),2)", .bare "visible"] := by
    have nested : SameBundle "(TL=1)" "(tl=1)" :=
      @SameBundle.group _ _ "TL=1" "tl=1" (by decide) (by decide)
        (.cons (.pair (by decide) rfl) .nil)
    refine .cons (.pair (by decide) ?_) (.cons (.bare rfl) .nil)
    exact @SameBundle.group _ _ "(TL=1),2" "(tl=1),2" (by decide) (by decide)
      (.cons (.bare nested) (.cons (.bare (.same "2")) .nil))
  have fill : List.Forall₂ Fill.SameToken [.pair "TYPE" "image", .bare "URL=/a?b=c"]
      [.pair "type" "image", .bare "url=/a?b=c"] :=
    .cons (.pair (by decide) rfl)
      (.cons (.bare (@Fill.SameBare.image "URL" "url" (by decide) (by decide) "/a?b=c")) .nil)
  have position : List.Forall₂ Position.SameToken
      [.bare "detached", .pair "Constraints" "(X=left)"]
      [.bare "detached", .pair "constraints" "(x=left)"] := by
    refine .cons (.bare rfl) (.cons (.pair (by decide) ?_) .nil)
    exact .cons (@Token.SameButKey.pair _ _ "X" "x" _ _ (by decide) rfl) .nil
  have layout : List.Forall₂ Layout.SameToken [.pair "Mode" "auto", .pair "Padding" "(X=1)"]
      [.pair "mode" "auto", .pair "padding" "(x=1)"] := by
    refine .cons (.pair (by decide) ⟨rfl, rfl⟩) (.cons (.pair (by decide) ⟨by decide, ?_⟩) .nil)
    exact @Layout.SamePadding.group _ _ "X=1" "x=1" (by decide) (by decide)
      (.cons (.pair (by decide) (.same "1")) .nil)
  have wrapped : List.Forall₂ Layout.SameToken
      (Layout.Mode.resolve (some "Auto\x7bSIZE=(W=1,H=1),Flow=row\x7d")).tokens
      (Layout.Mode.resolve (some "Auto\x7bsize=(w=1,h=1),flow=row\x7d")).tokens := by
    show List.Forall₂ Layout.SameToken [.pair "SIZE" "(W=1,H=1)", .pair "Flow" "row"]
      [.pair "size" "(w=1,h=1)", .pair "flow" "row"]
    refine .cons (.pair (by decide) ⟨by decide, ?_⟩) (.cons (.pair (by decide) ⟨rfl, rfl⟩) .nil)
    exact .cons (@Token.SameButKey.pair _ _ "W" "w" _ _ (by decide) rfl)
      (.cons (@Token.SameButKey.pair _ _ "H" "h" _ _ (by decide) rfl) .nil)
  exact ⟨(keys_count_in_any_case _ _).1 stroke, (keys_count_in_any_case _ _).2.1 appearance,
    (keys_count_in_any_case _ _).2.2.1 fill, ((keys_count_in_any_case _ _).2.2.2.1 position).2,
    ((keys_count_in_any_case _ _).2.2.2.2.1 layout).2.2,
    ((keys_count_in_any_case [] []).2.2.2.2.2.2 _ _ (by decide) wrapped).2⟩

end Inspector.Element
