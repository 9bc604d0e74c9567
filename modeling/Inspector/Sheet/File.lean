import Inspector.Sheet.Json
import Inspector.Sheet.Yaml

/-!
# Sheet files

A file is read as JSON if its name ends in `.json`, in any case, and as YAML otherwise. What a file
holds has to be UTF-8.

    ofFile path content = .error .unreadable ↔ content.bind String.fromUTF8? = none
                                                               (ofFile_eq_unreadable_iff)
-/

namespace Inspector

/-- The languages that sheets are written in. -/
inductive SheetForm where
  | yaml
  | json
  deriving DecidableEq, Repr

/-- How a sheet cannot be had. -/
inductive SheetError where
  /-- There is no such file, or it does not hold text. -/
  | unreadable
  | yaml
  | json (e : Sheet.JsonError)
  deriving DecidableEq, Repr

/-- What is wrong with a sheet, in words. -/
def SheetError.message : SheetError → Text
  | .unreadable => "failed to read style sheet"
  | .yaml => "invalid YAML style sheet"
  | .json e => e.message?.getD "invalid JSON style sheet"

namespace SheetForm

/-- The text behind the last point of a file name, if there is more than that. -/
def extension? (name : Text) : Option Text :=
  let ext := (name.reverse.takeWhile (· ≠ '.')).reverse
  if name = ".." ∨ name.length ≤ ext.length + 1 then none else some ext

/-- The name of a file, which is the last part of its path. -/
def fileName (path : Text) : Text := (path.reverse.takeWhile (· ≠ '/')).reverse

def ofPath (path : Text) : SheetForm :=
  if (extension? (fileName path)).any (Text.sameWord · "json") then .json else .yaml

def ofName? (t : Text) : Option SheetForm :=
  if t = "yaml" then some .yaml else if t = "json" then some .json else none

end SheetForm

namespace Sheet

/-- The sheet that a text describes. -/
def ofText (f : SheetForm) (t : Text) : Except SheetError Sheet :=
  match f with
  | .yaml => (readYaml t).elim (.error .yaml) .ok
  | .json => (readJson t).mapError .json

/-- The sheet of a file that holds these octets; none if it could not be read. -/
def ofFile (path : Text) (content : Option ByteArray) : Except SheetError Sheet :=
  match content.bind String.fromUTF8? with
  | none => .error .unreadable
  | some s => ofText (.ofPath path) s

/-! ## Lemmas -/

theorem ofText_ne_unreadable (f : SheetForm) (t : Text) : ofText f t ≠ .error .unreadable := by
  cases f with
  | yaml =>
    cases h : readYaml t <;> simp [ofText, h]
  | json =>
    intro h
    cases hr : readJson t <;> rw [ofText, hr] at h <;> cases h

theorem ofFile_eq_unreadable_iff (path : Text) (content : Option ByteArray) :
    ofFile path content = .error .unreadable ↔ content.bind String.fromUTF8? = none := by
  unfold ofFile
  split
  · next h => simp [h]
  · next s h => simp [h, ofText_ne_unreadable]

end Sheet

end Inspector
