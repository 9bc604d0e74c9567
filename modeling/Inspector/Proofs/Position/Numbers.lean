import Inspector.Proofs.Number.Built
import Inspector.Proofs.Position.Family
import Inspector.Proofs.Position.Outcome
import Inspector.Proofs.Position.Vocabulary

/-!
# Numbers in the classes of a position

Each class of a position is made by the entry of one of its tokens, or belongs to the frame that is
set at the end. Offsets and angles make classes with numbers. An angle that overflows is infinite,
and what is left of it is not a number.

    c ∈ (read input).report.classes →
      c ∈ frameClasses ∨ ∃ t ∈ tokens input, (Entry.ofToken t).Makes c    (exists_maker_of_mem_read)
-/

namespace Inspector.Position

open Text

/-- The text behind the `r-` that an angle may begin with. -/
def angleLiteral (text : Text) : Text := (after? "r-" (lower (trim text))).getD (lower (trim text))

/-- The class is one that the item of a rotation makes. -/
def rotationMakes (c : Text) : Token → Prop
  | .bare text => c = "-scale-x-100" ∨ c = "-scale-y-100" ∨
    Built "rotate-" (angleLiteral text) c ∨ Built "-rotate-" (angleLiteral text) c
  | .pair _ _ => False

/-- The class is one that the entry makes. -/
def Entry.Makes (c : Text) : Entry → Prop
  | .placement _ (.edge value) => ∃ axis, edge? value = some (axis, c)
  | .placement _ (.offset axis value) => Built (offsetLead axis) value c
  | .placement _ (.constrain items) =>
    ∃ axis value cs, .on axis value ∈ items ∧ constraint? axis value = some cs ∧ c ∈ cs
  | .rotation items => ∃ i ∈ items, rotationMakes c i
  | .depth value => depthClass? value = some c
  | .flag | .unknownKey _ | .unrecognized _ => False

/-- The classes of the frame that is set at the end, and of the layer that it has then. -/
def frameClasses : List Text := ["fixed", "relative", "z-50"]

/-! ## Angles -/

theorem Angle.isFinite_wrapped (degrees : Binary64) :
    (Angle.wrapped degrees).isFinite = degrees.isFinite := by
  cases degrees with
  | finite negative u =>
    unfold Angle.wrapped
    dsimp only
    split_ifs <;> rfl
  | _ => rfl

theorem built_class? {literal : Text} {q : Quantity} (hq : Quantity.ofText? literal = some q)
    {c : Text} (h : Angle.class? q.magnitude = some c) :
    Built "rotate-" literal c ∨ Built "-rotate-" literal c := by
  have wrapped := Angle.isFinite_wrapped q.magnitude
  unfold Angle.class? at h
  dsimp only at h
  generalize Angle.wrapped q.magnitude = x at wrapped h
  have spelled : Built "rotate-" literal ("rotate-[" ++ x.spelled ++ "deg]") := by
    have shown : "rotate-[".toList ++ x.spelled ++ "deg]" =
        "rotate-" ++ ("[" ++ x.spelled ++ Measure.deg.spelling ++ "]") := by
      simp [Measure.spelling]
    exact .of_spelled hq wrapped (shown ▸ .bracketed .deg)
  split at h
  · cases h
  · split at h
    · next negative u _ =>
      split at h
      · have digits : IsNumeral (Nat.toDigits 10 (u / Binary64.unitsPerOne)) :=
          show IsNumeral (Binary64.signText false ++ _) from
            .of_digits (all_isDigit_toDigits _) Nat.toDigits_ne_nil
        obtain rfl := Option.some.inj h
        cases negative with
        | false => exact .inl (.of_numeral hq wrapped.symm digits .plain)
        | true => exact .inr (.of_numeral hq wrapped.symm digits .plain)
      · exact .inl (Option.some.inj h ▸ spelled)
    · exact .inl (Option.some.inj h ▸ spelled)

theorem exists_of_angle {text : Text} {degrees : Binary64}
    (h : Turn.ofText? text = some (.angle degrees)) :
    ∃ q, Quantity.ofText? (angleLiteral text) = some q ∧ q.magnitude = degrees := by
  unfold Turn.ofText? at h
  dsimp only at h
  split at h
  · cases h
  · split at h
    · cases h
    · split at h
      · cases h
      · obtain ⟨q, hq, h⟩ := Option.bind_eq_some_iff.1 h
        split at h
        · cases h
          exact ⟨q, hq, rfl⟩
        · cases h

theorem makes_of_turn {text : Text} {t : Turn} (ht : Turn.ofText? text = some t)
    {u : ClassMap.Update Concern} (hu : u ∈ t.updates) {k : Concern} {cs : List Text}
    (given : u.given? = some (k, cs)) {c : Text} (hc : c ∈ cs) : rotationMakes c (.bare text) := by
  cases t with
  | angle degrees =>
    obtain ⟨q, hq, rfl⟩ := exists_of_angle ht
    simp only [Turn.updates] at hu
    split at hu <;> obtain rfl := List.mem_singleton.1 hu <;> cases given
    next a ha =>
      rw [List.mem_singleton.1 hc]
      exact .inr (.inr (built_class? hq ha))
  | upright =>
    obtain rfl := List.mem_singleton.1 hu
    cases given
  | flipX =>
    obtain rfl := List.mem_singleton.1 hu
    cases given
    exact .inl (List.mem_singleton.1 hc)
  | flipY =>
    obtain rfl := List.mem_singleton.1 hu
    cases given
    exact .inr (.inl (List.mem_singleton.1 hc))

/-! ## Entries -/

theorem makes_of_placement {token : Token} {p : Placement} {u : ClassMap.Update Concern}
    (hu : u ∈ p.updates) {k : Concern} {cs : List Text} (given : u.given? = some (k, cs))
    {c : Text} (hc : c ∈ cs) : (Entry.placement token p).Makes c := by
  cases p with
  | edge value =>
    obtain ⟨⟨axis, edge⟩, he, rfl⟩ := ClassMap.exists_value_of_given [] hu given hc
    exact ⟨axis, he⟩
  | offset axis value =>
    obtain ⟨f, hf, rfl⟩ := ClassMap.exists_value_of_given [] hu given hc
    exact Fragment.built_ofLength? _ hf
  | constrain items =>
    obtain ⟨i, hi, hu⟩ := List.mem_flatMap.1 hu
    cases i with
    | on axis value =>
      obtain ⟨ds, hd, hu⟩ := ClassMap.mem_elim_nil_iff.1 hu
      obtain rfl := List.mem_singleton.1 hu
      cases given
      exact ⟨axis, value, _, hi, hd, hc⟩
    | unknown item => cases hu

theorem Entry.makes_of_given {e : Entry} {detached : Bool} {u : ClassMap.Update Concern}
    (hu : u ∈ e.updates detached) {k : Concern} {cs : List Text}
    (given : u.given? = some (k, cs)) {c : Text} (hc : c ∈ cs) : e.Makes c := by
  cases e with
  | placement token p =>
    simp only [updates] at hu
    split at hu
    · exact makes_of_placement hu given hc
    · cases hu
  | rotation items =>
    obtain ⟨i, hi, hu⟩ := List.mem_flatMap.1 hu
    cases i with
    | bare text =>
      obtain ⟨t, ht, hu⟩ := ClassMap.mem_elim_nil_iff.1 hu
      exact ⟨.bare text, hi, makes_of_turn ht hu given hc⟩
    | pair key value => cases hu
  | depth value =>
    obtain ⟨z, hz, rfl⟩ := ClassMap.exists_value_of_given [] hu given hc
    exact hz
  | flag | unknownKey key | unrecognized text => cases hu

/-! ## Positions -/

/-- What is held at the end of a position belongs to its frame, or was held before. -/
theorem get?_finish {s : State} {k : Concern} {cs : List Text}
    (h : s.finish.draft.classes.get? k = some cs) :
    (∃ c ∈ frameClasses, cs = [c]) ∨ s.draft.classes.get? k = some cs := by
  have inserted {m : ClassMap Concern} {j : Concern} {c : Text} (hc : c ∈ frameClasses)
      (h : (if k = j then some [c] else m.get? k) = some cs) :
      (∃ c ∈ frameClasses, cs = [c]) ∨ m.get? k = some cs := by
    split at h
    · exact .inl ⟨c, hc, (Option.some.inj h).symm⟩
    · exact .inr h
  have framed {detached : Bool} {d : Draft Concern Error Warning}
      (h : (State.framed detached d).classes.get? k = some cs) :
      (∃ c ∈ frameClasses, cs = [c]) ∨ d.classes.get? k = some cs := by
    unfold State.framed at h
    split at h
    · have fixed (h : (d.prepend .frame "fixed").classes.get? k = some cs) :=
        inserted (c := "fixed") (by decide) ((d.classes.get?_prepend _ k _).symm.trans h)
      dsimp only at h
      split at h
      · exact fixed h
      · rcases inserted (c := "z-50") (by decide)
          ((ClassMap.get?_insert _ _ k _).symm.trans h) with layer | h
        · exact .inl layer
        · exact fixed h
    · split at h
      · exact inserted (c := "relative") (by decide) ((d.classes.get?_prepend _ k _).symm.trans h)
      · exact .inr h
  rw [State.draft_finish] at h
  refine (framed h).imp_right fun held => ?_
  cases hf : s.flagSeen <;> cases hr : s.rotationSeen <;> simpa [hf, hr] using held

theorem exists_maker_of_mem_read {input : Option Text} {c : Text}
    (hc : c ∈ (read input).report.classes) :
    c ∈ frameClasses ∨ ∃ t ∈ tokens input, (Entry.ofToken t).Makes c := by
  have shaped := State.shaped_finish (shaped_run (tokens input))
  obtain ⟨k, cs, hk, hcs⟩ := shaped.mem_classes_iff.1 hc
  rcases get?_finish hk with ⟨f, hf, rfl⟩ | hk
  · exact .inl (List.mem_singleton.1 hcs ▸ hf)
  · rcases ClassMap.exists_of_get?_foldl (fun s : State => s.draft.classes)
      (fun s t => s.classes_apply (Entry.ofToken t)) hk with empty | ⟨t, ht, s, u, hu, given⟩
    · have start : (flagged (tokens input)).draft.classes.get? k = some cs := empty
      rw [classes_flagged] at start
      cases start
    · exact .inr ⟨t, ht, Entry.makes_of_given hu given hcs⟩

end Inspector.Position
