import Inspector.Text.Basic

/-!
# Trees

What is written to a file for other programs: truth values, texts, lists of texts, and objects whose
fields keep their order.
-/

namespace Inspector

inductive Tree where
  | bool (b : Bool)
  | text (t : Text)
  | texts (ts : List Text)
  | object (fields : List (Text × Tree))
  deriving Repr

end Inspector
