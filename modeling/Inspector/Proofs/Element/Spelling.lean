import Inspector.Proofs.Appearance.Spelling
import Inspector.Proofs.Layout.Sizes
import Inspector.Proofs.Stroke.Spelling

/-!
# Corners, sides and dimensions however they are spelled

The radius of a corner, the weight of a side and the size of a dimension read the same in every
spelling, whatever stands around it and whether the value is valid or not. Radii and weights in
order are those of the corners and sides by name, and those behind the fourth are warned about.

    k.IsSpelled v text → k.IsSpelled v text' → the readings of both are equal    (spellings_agree)
-/

namespace Inspector.Element

open Text Inspector.Group

/-- All spellings of a plain value for a corner, a side or a dimension are read alike among any
other texts, of dimensions in an Auto wrapper. A bundle of plain values in order is read as the
bundle by name, but for one warning about each value behind the fourth. -/
theorem spellings_agree {before : List Text} (closed : ∀ p ∈ before, depthAfter 0 p = 0)
    (after : List Text) :
    (∀ v, IsPlain v →
      (∀ (k : Appearance.Corner) text text', k.IsSpelled v text → k.IsSpelled v text' →
        Appearance.read (some (amid before after text)) =
          Appearance.read (some (amid before after text'))) ∧
      (∀ (k : Stroke.Side) text text', k.IsSpelled v text → k.IsSpelled v text' →
        Stroke.read (some (amid before after text)) =
          Stroke.read (some (amid before after text'))) ∧
      ∀ (d : Layout.Dimension) text text' w w', d.IsSpelled v text → d.IsSpelled v text' →
        Layout.Mode.wrapper? w = some (.auto, amid before after text) →
        Layout.Mode.wrapper? w' = some (.auto, amid before after text') →
        Layout.read (some w) = Layout.read (some w')) ∧
    ∀ vs o c, (∀ v ∈ vs, IsPlain v) → (∀ v ∈ vs, v ≠ []) → closerOf? o = some c →
      ((∀ v ∈ vs, Appearance.Corner.parts.ofItem? v = none) → ∀ key ∈ Appearance.radiusKeys,
        (Appearance.read (some (amid before after (grouped o c key
          (Appearance.Corner.parts.assigned Appearance.Corner.short vs))))).Gains
          ((vs.drop 4).map fun v =>
            "appearance: corner radius takes at most four values; '" ++ v ++ "' was ignored")
          (Appearance.read (some (amid before after (grouped o c key (joined "," vs)))))) ∧
      ((∀ v ∈ vs, Stroke.Side.parts.ofItem? v = none) → ∀ key ∈ Stroke.weightKeys,
        (Stroke.read (some (amid before after (grouped o c key
          (Stroke.Side.parts.assigned Stroke.Side.short vs))))).Gains
          ((vs.drop 4).map fun v =>
            "stroke: stroke weight takes at most four values; '" ++ v ++ "' was ignored")
          (Stroke.read (some (amid before after (grouped o c key (joined "," vs)))))) := by
  refine ⟨fun v plain => ⟨?_, ?_, ?_⟩, fun vs o c plain written hoc => ⟨?_, ?_⟩⟩
  · exact fun k text text' h h' => Appearance.read_spelled closed after plain h h'
  · exact fun k text text' h h' => Stroke.read_spelled closed after plain h h'
  · exact fun d text text' w w' h h' => Layout.read_spelled plain h h' closed
  · exact fun free key hkey => Appearance.gains_bundle closed after hoc hkey plain written free
  · exact fun free key hkey => Stroke.gains_bundle closed after hoc hkey plain written free

/-- A corner by key and as an item, a side by key and as a pair, a width as an item and in a group;
and five weights in order, of which one is no weight and one is too many. -/
theorem corner_spellings_agree :
    (∀ p ∈ (["visible"] : List Text), depthAfter 0 p = 0) ∧
    Appearance.read (some (amid ["visible"] ["opacity=50"] "radius-tl=4px")) =
      Appearance.read (some (amid ["visible"] ["opacity=50"] "rounded=(↖-4px)")) ∧
    Stroke.read (some (amid ["visible"] ["opacity=50"] "weight-top=4px")) =
      Stroke.read (some (amid ["visible"] ["opacity=50"] "width=[t=4px]")) ∧
    Layout.read (some "Auto\x7bvisible,w-4px,opacity=50\x7d") =
      Layout.read (some "Auto\x7bvisible,size=(width=4px),opacity=50\x7d") ∧
    (Stroke.read (some (amid ["visible"] ["opacity=50"] "weight=(t=1px,r=wide,b=3px,l=4px)"))).Gains
      ["stroke: stroke weight takes at most four values; '5px' was ignored".toList]
      (Stroke.read (some (amid ["visible"] ["opacity=50"] "weight=(1px,wide,3px,4px,5px)"))) := by
  have closed : ∀ p ∈ (["visible"] : List Text), depthAfter 0 p = 0 := by decide
  obtain ⟨alone, bundles⟩ := spellings_agree closed ["opacity=50"]
  obtain ⟨corners, sides, dimensions⟩ := alone "4px" (by decide)
  obtain ⟨-, weights⟩ := bundles ["1px", "wide", "3px", "4px", "5px"] '(' ')' (by decide) (by decide)
    rfl
  have gains := weights (by decide) "weight" (by decide)
  have byName : grouped '(' ')' "weight" (Stroke.Side.parts.assigned Stroke.Side.short
      ["1px", "wide", "3px", "4px", "5px"]) = "weight=(t=1px,r=wide,b=3px,l=4px)" := by decide
  have inOrder : grouped '(' ')' "weight" (joined "," ["1px", "wide", "3px", "4px", "5px"]) =
      "weight=(1px,wide,3px,4px,5px)" := by decide
  have surplus : (["1px", "wide", "3px", "4px", "5px"] : List Text).drop 4 = ["5px".toList] := rfl
  have line : "stroke: stroke weight takes at most four values; '".toList ++ "5px".toList ++
      "' was ignored".toList =
        "stroke: stroke weight takes at most four values; '5px' was ignored".toList := by
    decide +kernel
  rw [byName, inOrder, surplus, List.map_singleton, line] at gains
  refine ⟨closed, ?_, ?_, ?_, gains⟩
  · exact corners .topLeft "radius-tl=4px" "rounded=(↖-4px)"
      (.key (a := "tl") (by decide : "radius-".toList ∈ Appearance.Corner.leads) (by decide))
      (.item (o := '(') (c := ')') (a := "↖") rfl
        (by decide : "rounded".toList ∈ Appearance.radiusKeys) (by decide))
  · exact sides .top "weight-top=4px" "width=[t=4px]"
      (.key (a := "top") (by decide : "weight-".toList ∈ Stroke.Side.leads) (by decide))
      (.pair (o := '[') (c := ']') (a := "t") rfl
        (by decide : "width".toList ∈ Stroke.weightKeys) (by decide))
  · exact dimensions .width "w-4px" "size=(width=4px)" _ _ (.alone .item)
      (.grouped (o := '(') (c := ')') rfl (by decide : "size".toList ∈ Layout.Dimension.groupKeys)
        (.key (.inr rfl)))
      (by decide) (by decide)

end Inspector.Element
