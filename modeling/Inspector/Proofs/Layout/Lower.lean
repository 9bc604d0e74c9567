import Inspector.Layout.Mode
import Inspector.Proofs.Token.Lower

/-!
# Modes in lower case

Wrappers, markers and the words that hint at Auto layout are known in any case. So a layout is
resolved in lower case as it is as it stands: to the same mode, with the same advice, and to the
same tokens, in lower case.

    wrapper? (lower s) = (wrapper? s).map (·.1, lower ·.2)                        (wrapper?_lower)
    resolve (some (lower s)) = (resolve (some s)).lowered                          (resolve_lower)
-/

namespace Inspector.Layout

open Text

/-- The resolution with its tokens in lower case. -/
def Resolution.lowered (r : Resolution) : Resolution :=
  { r with tokens := r.tokens.map Token.lowered }

namespace Mode

theorem wrapper?_lower (s : Text) :
    wrapper? (lower s) = (wrapper? s).map fun w => (w.1, lower w.2) := by
  rw [wrapper?, Group.stripNamed?_lower, Group.stripNamed?_lower, wrapper?]
  cases Group.stripNamed? "Auto" s with
  | some inner => rfl
  | none =>
    cases Group.stripNamed? "Standard" s with
    | some inner => rfl
    | none => rfl

theorem leading?_lowered (t : Token) :
    leading? t.lowered = (leading? t).map fun w => (w.1, lower w.2) := by
  cases t with
  | bare text => exact wrapper?_lower text
  | pair key value => rfl

theorem sameWord_lower (s t : Text) : sameWord (lower s) t = sameWord s t := by
  rw [sameWord, lower_lower, sameWord]

theorem isMarker_lowered (name : Text) (t : Token) : isMarker name t.lowered = isMarker name t := by
  cases t with
  | bare text => exact sameWord_lower text name
  | pair key value =>
    show (sameWord (lower key) "mode" && sameWord (lower value) name) = _
    rw [sameWord_lower, sameWord_lower]
    rfl

theorem hintsAuto_lowered (t : Token) : hintsAuto t.lowered = hintsAuto t := by
  cases t with
  | bare text =>
    show (false || autoWords.any fun w => has w (lower (lower text))) = _
    rw [lower_lower]
    rfl
  | pair key value =>
    show ((sameWord (lower key) "flow" || sameWord (lower key) "gap") ||
      autoWords.any fun w => has w (lower (lower value))) = _
    rw [sameWord_lower, sameWord_lower, lower_lower]
    rfl

theorem ofTokens_lowered (ts : List Token) :
    ofTokens (ts.map Token.lowered) = (ofTokens ts).lowered := by
  have head : (ts.map Token.lowered).head?.bind leading? =
      (ts.head?.bind leading?).map fun w => (w.1, lower w.2) := by
    cases ts with
    | nil => rfl
    | cons t ts => exact leading?_lowered t
  have marked (name : Text) :
      (ts.map Token.lowered).any (isMarker name) = ts.any (isMarker name) := by
    have each : isMarker name ∘ Token.lowered = isMarker name := funext (isMarker_lowered name)
    rw [List.any_map, each]
  have hinted : (ts.map Token.lowered).any hintsAuto = ts.any hintsAuto := by
    have each : hintsAuto ∘ Token.lowered = hintsAuto := funext hintsAuto_lowered
    rw [List.any_map, each]
  rw [ofTokens, head, marked, marked, hinted, ofTokens]
  cases ts.head?.bind leading? with
  | none =>
    dsimp only [Option.map_none]
    split_ifs
    all_goals rfl
  | some w =>
    obtain ⟨mode, inner⟩ := w
    dsimp only [Option.map_some]
    rw [tokenize_lower, ← List.map_tail, ← List.map_append]
    rfl

theorem resolve_lower (s : Text) : resolve (some (lower s)) = (resolve (some s)).lowered := by
  unfold resolve
  rw [Option.getD_some, Option.getD_some, trim_lower]
  cases trim s with
  | nil => rfl
  | cons c r =>
    have whole : lower (c :: r) = c.toLower :: lower r := rfl
    rw [whole]
    dsimp only
    rw [← whole, wrapper?_lower, tokenize_lower, ofTokens_lowered]
    cases wrapper? (c :: r) with
    | none => rfl
    | some w =>
      simp only [Option.map_some, tokenize_lower]
      rfl

end Mode

end Inspector.Layout
