import Inspector.Proofs.ClassMap
import Inspector.Report

/-!
# Drafts after a change

What each change of a draft does to its classes and to its errors. Errors are only ever added; the
classes change as those of a class map do.

    (d.discard k w).classes = d.classes.erase k                              (classes_discard)
    (d.discard k w).errors = d.errors                                         (errors_discard)
    (d.report p f g).errors = [] ↔ d.errors = []                       (errors_report_eq_nil_iff)
    (d.report p f g).errors.filter q = the lines of the errors with p      (filter_errors_report)
    kind b → (message a = message b ↔ a = b), where q tells the kind      (message_eq_iff_of_kind)
-/

namespace Inspector.Draft

variable {κ ε ω : Type} [DecidableEq κ] (d : Draft κ ε ω)

/-! ## Classes -/

attribute [simp] classes_put

omit [DecidableEq κ] in
@[simp] theorem classes_error (e : ε) : (d.error e).classes = d.classes := rfl

omit [DecidableEq κ] in
@[simp] theorem classes_warn (w : ω) : (d.warn w).classes = d.classes := rfl

@[simp] theorem classes_insert (k : κ) (c : Text) :
    (d.insert k c).classes = d.classes.insert k c := rfl

@[simp] theorem classes_prepend (k : κ) (c : Text) :
    (d.prepend k c).classes = d.classes.prepend k c := rfl

@[simp] theorem classes_erase (k : κ) : (d.erase k).classes = d.classes.erase k := rfl

@[simp] theorem classes_eraseAll (ks : List κ) :
    (d.eraseAll ks).classes = d.classes.eraseAll ks := rfl

@[simp] theorem classes_discard (k : κ) (w : ω) :
    (d.discard k w).classes = d.classes.erase k := by
  unfold discard
  split
  · rfl
  · next h => rw [ClassMap.erase_of_not_contains (by simpa using h)]

@[simp] theorem contains_eq (k : κ) : d.contains k = d.classes.contains k := rfl

/-! ## Errors -/

attribute [simp] errors_put

omit [DecidableEq κ] in
@[simp] theorem errors_error (e : ε) : (d.error e).errors = d.errors ++ [e] := rfl

omit [DecidableEq κ] in
/-- An error is never lost among the earlier ones. -/
theorem errors_error_ne (e : ε) : (d.error e).errors ≠ d.errors := by
  intro h
  exact List.cons_ne_nil _ _ (List.append_right_eq_self.1 h)

omit [DecidableEq κ] in
@[simp] theorem errors_warn (w : ω) : (d.warn w).errors = d.errors := rfl

@[simp] theorem errors_insert (k : κ) (c : Text) : (d.insert k c).errors = d.errors := rfl

@[simp] theorem errors_prepend (k : κ) (c : Text) : (d.prepend k c).errors = d.errors := rfl

@[simp] theorem errors_erase (k : κ) : (d.erase k).errors = d.errors := rfl

@[simp] theorem errors_eraseAll (ks : List κ) : (d.eraseAll ks).errors = d.errors := rfl

@[simp] theorem errors_discard (k : κ) (w : ω) : (d.discard k w).errors = d.errors := by
  unfold discard
  split <;> rfl

/-! ## Changes up to their warnings -/

theorem put_eq (k : κ) (cs : List Text) (again : ω) :
    ∃ ws, d.put k cs again = ⟨d.classes.set k cs, d.errors, ws⟩ :=
  ⟨(d.put k cs again).warnings, by rw [← classes_put, ← errors_put d k cs again]⟩

theorem discard_eq (k : κ) (w : ω) : ∃ ws, d.discard k w = ⟨d.classes.erase k, d.errors, ws⟩ :=
  ⟨(d.discard k w).warnings, by rw [← classes_discard d k w, ← errors_discard d k w]⟩

/-! ## Changes made again -/

/-- A value that is there already moves to the end. -/
theorem put_of_get? {k : κ} {cs : List Text} (h : d.classes.get? k = some cs) (again : ω) :
    d.put k cs again = { d with classes := d.classes.set k cs } := by
  rw [put, h]
  exact if_pos rfl

theorem put_put (k : κ) (cs : List Text) (again again' : ω) :
    (d.put k cs again).put k cs again' = d.put k cs again := by
  generalize hd : d.put k cs again = d'
  have hc : d'.classes = d.classes.set k cs := by rw [← hd, classes_put]
  have held : d'.classes.get? k = some cs := by rw [hc, ClassMap.get?_set_self]
  have same : d'.classes.set k cs = d'.classes := by rw [hc, ClassMap.set_set]
  rw [put_of_get? d' held, same]

theorem erase_erase (k : κ) : (d.erase k).erase k = d.erase k :=
  congrArg (fun m => { d with classes := m }) (d.classes.erase_erase k)

theorem insert_insert (k : κ) (c : Text) : (d.insert k c).insert k c = d.insert k c :=
  congrArg (fun m => { d with classes := m }) (d.classes.set_set k [c])

theorem erase_of_not_contains {k : κ} (h : d.classes.contains k = false) : d.erase k = d :=
  congrArg (fun m => { d with classes := m }) (ClassMap.erase_of_not_contains h)

theorem eraseAll_of_not_contains {ks : List κ} (h : ∀ k ∈ ks, d.classes.contains k = false) :
    d.eraseAll ks = d := by
  have keep : d.classes.eraseAll ks = d.classes := by
    induction ks with
    | nil => rfl
    | cons k ks ih =>
      obtain ⟨hk, hks⟩ := List.forall_mem_cons.1 h
      show (d.classes.erase k).eraseAll ks = d.classes
      rw [ClassMap.erase_of_not_contains hk, ih hks]
  exact congrArg (fun m => { d with classes := m }) keep

theorem discard_of_not_contains {k : κ} (h : d.classes.contains k = false) (w : ω) :
    d.discard k w = d :=
  if_neg (by simp [h])

/-- A value that replaces others finds none of them left when it is given again. -/
theorem eraseAll_put_again {ks : List κ} {k : κ} (hk : k ∉ ks) (cs : List Text) (again : ω) :
    (((d.eraseAll ks).put k cs again).eraseAll ks).put k cs again =
      (d.eraseAll ks).put k cs again := by
  have gone : ∀ k' ∈ ks, ((d.eraseAll ks).put k cs again).classes.contains k' = false := by
    intro k' hk'
    have hne : k' ≠ k := fun h => hk (h ▸ hk')
    simp [hne, hk']
  rw [eraseAll_of_not_contains _ gone, put_put]

theorem discard_put_again {k k' : κ} (hk : k' ≠ k) (w : ω) (cs : List Text) (again : ω) :
    (((d.discard k w).put k' cs again).discard k w).put k' cs again =
      (d.discard k w).put k' cs again := by
  have gone : ((d.discard k w).put k' cs again).classes.contains k = false := by
    simp [hk.symm]
  rw [discard_of_not_contains _ gone, put_put]

/-! ## Values taken or refused -/

/-- What a value makes of a draft: the class it comes to is all that `k` has then, and no error is
found; if it comes to none, one is. -/
structure Answers (k : κ) (class? : Option Text) (d d' : Draft κ ε ω) : Prop where
  taken : ∀ c, class? = some c → d'.errors = d.errors ∧ d'.classes.get? k = some [c]
  refused : class? = none → d'.errors ≠ d.errors

section

variable {d} {d' : Draft κ ε ω} {k : κ}

theorem answers_put (h : d'.errors = d.errors) (c : Text) (again : ω) :
    Answers k (some c) d (d'.put k [c] again) where
  taken := by
    rintro _ ⟨⟩
    rw [errors_put, classes_put, ClassMap.get?_set_self]
    exact ⟨h, rfl⟩
  refused := nofun

theorem answers_error (h : d'.errors = d.errors) (e : ε) :
    Answers k none d (d'.error e) where
  taken := nofun
  refused _ := h ▸ errors_error_ne d' e

theorem Answers.errors_eq_iff {class? : Option Text} (h : Answers k class? d d') :
    d'.errors = d.errors ↔ class?.isSome := by
  cases class? with
  | none => exact iff_of_false (h.refused rfl) Bool.false_ne_true
  | some c => exact iff_of_true (h.taken c rfl).1 rfl

end

/-! ## Warnings of a kind -/

/-- The warnings of the kind `p`. -/
def noted (p : ω → Bool) (d : Draft κ ε ω) : List ω := d.warnings.filter p

section

variable {p : ω → Bool}

omit [DecidableEq κ] in
@[simp] theorem noted_error (e : ε) : (d.error e).noted p = d.noted p := rfl

omit [DecidableEq κ] in
theorem noted_warn (w : ω) : (d.warn w).noted p = d.noted p ++ [w].filter p :=
  List.filter_append _ _

omit [DecidableEq κ] in
theorem noted_warn_of_pos {w : ω} (h : p w) : (d.warn w).noted p = d.noted p ++ [w] := by
  rw [noted_warn, List.filter_cons_of_pos h, List.filter_nil]

omit [DecidableEq κ] in
theorem noted_warn_of_neg {w : ω} (h : p w = false) : (d.warn w).noted p = d.noted p := by
  rw [noted_warn, List.filter_cons_of_neg (by simp [h]), List.filter_nil, List.append_nil]

theorem noted_put (k : κ) (cs : List Text) {again : ω} (h : p again = false) :
    (d.put k cs again).noted p = d.noted p := by
  unfold put
  split
  · split
    · rfl
    · exact noted_warn_of_neg _ h
  · rfl

@[simp] theorem noted_insert (k : κ) (c : Text) : (d.insert k c).noted p = d.noted p := rfl

@[simp] theorem noted_erase (k : κ) : (d.erase k).noted p = d.noted p := rfl

@[simp] theorem noted_eraseAll (ks : List κ) : (d.eraseAll ks).noted p = d.noted p := rfl

theorem noted_discard (k : κ) {w : ω} (h : p w = false) :
    (d.discard k w).noted p = d.noted p := by
  unfold discard
  split
  · exact noted_warn_of_neg _ h
  · rfl

end

/-! ## Warnings in front -/

/-- The draft with further warnings before its own. -/
def preceded (ws : List ω) (d : Draft κ ε ω) : Draft κ ε ω :=
  { d with warnings := ws ++ d.warnings }

section

variable (ws : List ω)

omit [DecidableEq κ] in
@[simp] theorem classes_preceded : (d.preceded ws).classes = d.classes := rfl

omit [DecidableEq κ] in
@[simp] theorem preceded_error (e : ε) : (d.preceded ws).error e = (d.error e).preceded ws := rfl

omit [DecidableEq κ] in
@[simp] theorem preceded_warn (w : ω) : (d.preceded ws).warn w = (d.warn w).preceded ws := by
  simp [preceded, warn]

@[simp] theorem preceded_put (k : κ) (cs : List Text) (again : ω) :
    (d.preceded ws).put k cs again = (d.put k cs again).preceded ws := by
  unfold put
  rw [classes_preceded]
  split
  · split
    · rfl
    · exact preceded_warn { d with classes := d.classes.set k cs } ws again
  · rfl

@[simp] theorem preceded_insert (k : κ) (c : Text) :
    (d.preceded ws).insert k c = (d.insert k c).preceded ws := rfl

@[simp] theorem preceded_prepend (k : κ) (c : Text) :
    (d.preceded ws).prepend k c = (d.prepend k c).preceded ws := rfl

@[simp] theorem preceded_erase (k : κ) : (d.preceded ws).erase k = (d.erase k).preceded ws := rfl

@[simp] theorem preceded_eraseAll (ks : List κ) :
    (d.preceded ws).eraseAll ks = (d.eraseAll ks).preceded ws := rfl

@[simp] theorem preceded_discard (k : κ) (w : ω) :
    (d.preceded ws).discard k w = (d.discard k w).preceded ws := by
  unfold discard
  rw [classes_preceded]
  split
  · exact preceded_warn (d.erase k) ws w
  · rfl

end

/-! ## Reports -/

omit [DecidableEq κ] in
@[simp] theorem classes_report (p : Property) (errorText : ε → Text) (warningText : ω → Text) :
    (d.report p errorText warningText).classes = d.classes.classes := rfl

omit [DecidableEq κ] in
theorem mem_errors_report_iff (p : Property) (errorText : ε → Text) (warningText : ω → Text)
    (t : Text) :
    p.name ++ ": " ++ t ∈ (d.report p errorText warningText).errors ↔
      ∃ e ∈ d.errors, errorText e = t := by
  unfold report
  rw [List.mem_map]
  simp only [List.append_cancel_left_eq]

omit [DecidableEq κ] in
theorem mem_warnings_report_iff (p : Property) (errorText : ε → Text) (warningText : ω → Text)
    (t : Text) :
    p.name ++ ": " ++ t ∈ (d.report p errorText warningText).warnings ↔
      ∃ w ∈ d.warnings, warningText w = t := by
  unfold report
  rw [List.mem_map]
  simp only [List.append_cancel_left_eq]

omit [DecidableEq κ] in
@[simp] theorem errors_report_eq_nil_iff (p : Property) (errorText : ε → Text)
    (warningText : ω → Text) :
    (d.report p errorText warningText).errors = [] ↔ d.errors = [] := by
  simp [report]

/-- Errors or warnings of one kind have messages of their own, if these are told from all others
by `q` and differ among themselves. -/
theorem message_eq_iff_of_kind {α : Type} {message : α → Text} {kind : α → Bool} {own : List α}
    {q : Text → Prop} (complete : ∀ {a}, kind a → a ∈ own) (inside : ∀ a ∈ own, q (message a))
    (outside : ∀ {a}, kind a = false → ¬ q (message a))
    (apart : ∀ a ∈ own, ∀ b ∈ own, message a = message b → a = b) {b : α} (h : kind b) (a : α) :
    message a = message b ↔ a = b := by
  refine ⟨fun same => ?_, congrArg message⟩
  have alike : kind a := by
    by_contra other
    refine outside (Bool.eq_false_iff.2 other) ?_
    rw [same]
    exact inside b (complete h)
  exact apart a (complete alike) b (complete h) same

section

variable (P : Property) (errorText : ε → Text) (warningText : ω → Text)

omit [DecidableEq κ] in
/-- The lines of a report with `q`, if they are those of the errors with `p`. -/
theorem filter_errors_report {p : ε → Bool} {q : Text → Bool}
    (h : ∀ e, q (P.name ++ ": " ++ errorText e) = p e) :
    (d.report P errorText warningText).errors.filter q =
      (d.errors.filter p).map fun e => P.name ++ ": " ++ errorText e :=
  List.filter_map.trans (congrArg _ (List.filter_congr fun e _ => h e))

omit [DecidableEq κ] in
theorem filter_warnings_report {p : ω → Bool} {q : Text → Bool}
    (h : ∀ w, q (P.name ++ ": " ++ warningText w) = p w) :
    (d.report P errorText warningText).warnings.filter q =
      (d.noted p).map fun w => P.name ++ ": " ++ warningText w :=
  List.filter_map.trans (congrArg _ (List.filter_congr fun w _ => h w))

end

end Inspector.Draft
