import Inspector.Proofs.Element.Union

/-!
# Classes in a class attribute

The classes of an element are joined by spaces. Each of them is a word, whatever the properties were
written like, so the attribute falls apart into the same classes again, and all blanks in it are the
spaces between them.

    c ∈ (p.read s).classes → c ≠ [] ∧ IsSolid c                                  (word_of_mem_read)
    words e.inspect.classAttribute = e.inspect.classes                           (classes_are_words)
-/

namespace Inspector

open Text

namespace Property

theorem solid_of_mem_read {p : Property} {s : Option Text} {c : Text}
    (hc : c ∈ (p.read s).classes) : IsSolid c := by
  cases p with
  | layout =>
    obtain ⟨k, -, hk⟩ := Layout.spelled_of_mem_read hc
    exact hk.solid
  | position => exact Position.solid_of_mem_read hc
  | appearance =>
    obtain ⟨k, hk⟩ := Appearance.spelled_of_mem_read hc
    exact hk.solid
  | fill =>
    obtain ⟨k, hk⟩ := Fill.spelled_of_mem_read hc
    exact hk.solid
  | stroke =>
    obtain ⟨k, hk⟩ := Stroke.spelled_of_mem_read hc
    exact hk.solid

theorem ne_nil_of_mem_read {p : Property} {s : Option Text} {c : Text}
    (hc : c ∈ (p.read s).classes) : c ≠ [] := by
  have leads : ∀ p ∈ all, ∀ l ∈ p.leads, l ≠ [] := by decide
  have full : ∀ c ∈ Position.fullSizes, c ≠ [] := by decide
  rcases beginsWith_of_mem_read hc with ⟨l, hl, hlc⟩ | ⟨-, hfull⟩
  · exact fun hc => leads p p.mem_all l hl (List.prefix_nil.1 (hc ▸ hlc))
  · exact full c hfull

/-- Every class of a property is a word. -/
theorem word_of_mem_read {p : Property} {s : Option Text} {c : Text}
    (hc : c ∈ (p.read s).classes) : c ≠ [] ∧ IsSolid c :=
  ⟨ne_nil_of_mem_read hc, solid_of_mem_read hc⟩

end Property

namespace Element

theorem word_of_mem_classes {e : Element} {c : Text} (hc : c ∈ e.inspect.classes) :
    c ≠ [] ∧ IsSolid c := by
  obtain ⟨p, hp⟩ := (e.mem_classes_inspect_iff c).1 hc
  exact Property.word_of_mem_read hp

theorem eq_space_of_mem_classAttribute {e : Element} {c : Char}
    (hc : c ∈ e.inspect.classAttribute) (blank : isBlank c) : c = ' ' :=
  eq_space_of_mem_joined (fun _ hw => (word_of_mem_classes hw).2) hc blank

/-- Every class of an element is a word of its class attribute: none is empty or has a blank in it,
so that the attribute, cut at its spaces or at all its blanks, is the list of the classes again; and
no blank of it, such as the end of a line, is anything but a space. -/
theorem classes_are_words (e : Element) :
    (∀ c ∈ e.inspect.classes, c ≠ [] ∧ ∀ x ∈ c, isBlank x = false) ∧
      (e.inspect.classes ≠ [] →
        e.inspect.classAttribute.splitOn ' ' = e.inspect.classes) ∧
      words e.inspect.classAttribute = e.inspect.classes ∧
      ∀ x ∈ e.inspect.classAttribute, isBlank x → x = ' ' := by
  have word : ∀ c ∈ e.inspect.classes, c ≠ [] ∧ IsSolid c := fun _ hc => word_of_mem_classes hc
  exact ⟨word, splitOn_joined fun c hc => (word c hc).2, words_joined word,
    fun _ hx => eq_space_of_mem_classAttribute hx⟩

/-- An image with blanks in its name, and a size in brackets. -/
theorem words_of_image_and_size :
    let e : Element :=
      { layout := some "Standard\x7bw-[calc(1px+2px)],h-1/2\x7d"
        fill := some "type=image,url=\"my \t photo.png\"" }
    e.inspect.classes ≠ [] ∧
      e.inspect.classAttribute.splitOn ' ' = e.inspect.classes ∧
      "bg-[url(my_photo.png)]".toList ∈ e.inspect.classes := by
  intro e
  have nonempty : e.inspect.classes ≠ [] := by decide +kernel
  exact ⟨nonempty, e.classes_are_words.2.1 nonempty, by decide +kernel⟩

end Element

end Inspector
