import Inspector.Text.Blank

/-!
# On and off

The words for a setting that is on or off, in any case and with blanks around them.
-/

namespace Inspector

open Text

def onWords : List Text := ["true", "yes", "on", "1"]

def offWords : List Text := ["false", "no", "off", "0"]

/-- Whether a text says on or off, if it says either. -/
def toggle? (t : Text) : Option Bool :=
  if onWords.contains (lower (trim t)) then some true
  else if offWords.contains (lower (trim t)) then some false
  else none

end Inspector
