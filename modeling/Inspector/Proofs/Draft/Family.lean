import Inspector.Proofs.Draft
import Inspector.Proofs.Family

/-!
# The parts of a draft

Concerns, errors and warnings fall into families, and the part of a draft that belongs to a family
holds what is of that family. A change within a family looks at its own part only. Two drafts with
the same parts hold the same, in another order at most, and so do their reports.

    (d.part F g).classes.get? k = d.classes.get? k if k is of the family g            (get?_part)
    (∀ f, d.part F f = d'.part F f) → d.Alike d'                                (alike_of_parts)
-/

namespace Inspector

theorem filter_filter_of_imp {α : Type} {p q : α → Bool} (h : ∀ a, p a → q a) (l : List α) :
    (l.filter q).filter p = l.filter p := by
  rw [List.filter_filter]
  refine List.filter_congr fun a _ => ?_
  cases hp : p a with
  | true => rw [h a hp, Bool.and_self]
  | false => rfl

/-! ## Parts of a class map -/

namespace ClassMap

variable {κ : Type} {p : κ → Bool}

/-- The entries of the concerns with `p`. -/
def restrict (p : κ → Bool) (m : ClassMap κ) : ClassMap κ := ⟨m.entries.filter fun e => p e.1⟩

variable [DecidableEq κ]

theorem get?_restrict (m : ClassMap κ) {k : κ} (h : p k) : (m.restrict p).get? k = m.get? k := by
  show (m.entries.filter fun e => p e.1).lookup k = m.entries.lookup k
  induction m.entries with
  | nil => rfl
  | cons e es ih =>
    cases he : p e.1 with
    | true => rw [List.filter_cons_of_pos (by simpa using he), List.lookup_cons, List.lookup_cons, ih]
    | false =>
      have : (k == e.1) = false := beq_false_of_ne fun hk => by simp [← hk, h] at he
      rw [List.filter_cons_of_neg (by simp [he]), List.lookup_cons, this, ih]

omit [DecidableEq κ] in
/-- The classes with `q`, if they are those of the concerns with `p`. -/
theorem filter_classes_eq_restrict {m : ClassMap κ} {q : Text → Bool}
    (h : ∀ e ∈ m.entries, ∀ c ∈ e.2, q c = p e.1) :
    m.classes.filter q = (m.restrict p).classes := by
  have each : ∀ e ∈ m.entries, e.2.filter q = if p e.1 then e.2 else [] := by
    intro e he
    split
    · next hp => exact List.filter_eq_self.2 fun c hc => (h e he c hc).trans hp
    · next hp => exact List.filter_eq_nil_iff.2 fun c hc hq => hp ((h e he c hc).symm.trans hq)
  have kept (es : List (κ × List Text)) : (es.flatMap fun e => if p e.1 then e.2 else []) =
      (es.filter fun e => p e.1).flatMap (·.2) := by
    induction es with
    | nil => rfl
    | cons e es ih => cases hp : p e.1 <;> simp [hp, ih]
  rw [classes, filter_eraseDups, List.filter_flatMap, List.flatMap_congr each, kept]
  rfl

theorem restrict_erase (m : ClassMap κ) (k : κ) :
    (m.erase k).restrict p = (m.restrict p).erase k := by
  unfold restrict erase
  rw [List.filter_filter, List.filter_filter]
  simp only [Bool.and_comm]

theorem restrict_erase_of_not (m : ClassMap κ) {k : κ} (h : p k = false) :
    (m.erase k).restrict p = m.restrict p := by
  have others : ∀ e ∈ (m.restrict p).entries, (e.1 != k) = true := by
    intro e he
    have hp : p e.1 = true := (List.mem_filter.1 he).2
    have : e.1 ≠ k := fun hk => by simp [hk, h] at hp
    simpa using this
  rw [restrict_erase]
  exact congrArg mk (List.filter_eq_self.2 others)

theorem entries_restrict_set (m : ClassMap κ) (k : κ) (cs : List Text) :
    ((m.set k cs).restrict p).entries =
      ((m.erase k).restrict p).entries ++ [(k, cs)].filter fun e => p e.1 :=
  List.filter_append _ _

theorem restrict_set (m : ClassMap κ) {k : κ} (h : p k) (cs : List Text) :
    (m.set k cs).restrict p = (m.restrict p).set k cs := by
  have entries := m.entries_restrict_set (p := p) k cs
  rw [List.filter_cons_of_pos (by simpa using h), List.filter_nil, restrict_erase] at entries
  exact congrArg mk entries

theorem restrict_set_of_not (m : ClassMap κ) {k : κ} (h : p k = false) (cs : List Text) :
    (m.set k cs).restrict p = m.restrict p := by
  have entries := m.entries_restrict_set (p := p) k cs
  rw [List.filter_cons_of_neg (by simp [h]), List.filter_nil, List.append_nil,
    restrict_erase_of_not m h] at entries
  exact congrArg mk entries

theorem restrict_prepend_of_not (m : ClassMap κ) {k : κ} (h : p k = false) (c : Text) :
    (m.prepend k c).restrict p = m.restrict p := by
  rw [← restrict_erase_of_not m h]
  exact congrArg mk (List.filter_cons_of_neg (by simp [h]))

end ClassMap

/-! ## Parts of a draft -/

/-- The families of the concerns, the errors and the warnings of a draft. -/
structure Families (κ ε ω φ : Type) where
  ofConcern : κ → φ
  ofError : ε → φ
  ofWarning : ω → φ

namespace Draft

variable {κ ε ω φ : Type} [DecidableEq φ]

/-- What a draft holds of the family `f`. -/
def part (F : Families κ ε ω φ) (f : φ) (d : Draft κ ε ω) : Draft κ ε ω where
  classes := d.classes.restrict fun k => F.ofConcern k = f
  errors := d.errors.filter fun e => F.ofError e = f
  warnings := d.warnings.filter fun w => F.ofWarning w = f

variable {F : Families κ ε ω φ} {g : φ}

theorem acts_error {e : ε} (he : F.ofError e = g) : ActsWithin (part F) g (·.error e) where
  here d := by simp [part, error, List.filter_append, he]
  elsewhere hf d := by simp [part, error, List.filter_append, he, hf.symm]

theorem acts_warn {w : ω} (hw : F.ofWarning w = g) : ActsWithin (part F) g (·.warn w) where
  here d := by simp [part, warn, List.filter_append, hw]
  elsewhere hf d := by simp [part, warn, List.filter_append, hw, hf.symm]

variable [DecidableEq κ]

theorem get?_part (d : Draft κ ε ω) {k : κ} (hk : F.ofConcern k = g) :
    (d.part F g).classes.get? k = d.classes.get? k :=
  d.classes.get?_restrict (by simpa using hk)

omit [DecidableEq κ] in
/-- Errors of one family are all in its part. -/
theorem filter_errors_part (d : Draft κ ε ω) {p : ε → Bool} (hp : ∀ e, p e → F.ofError e = g) :
    (d.part F g).errors.filter p = d.errors.filter p :=
  filter_filter_of_imp (fun e he => decide_eq_true (hp e he)) d.errors

omit [DecidableEq κ] in
/-- Warnings of one family are all in its part. -/
theorem noted_part (d : Draft κ ε ω) {p : ω → Bool} (hp : ∀ w, p w → F.ofWarning w = g) :
    (d.part F g).noted p = d.noted p :=
  filter_filter_of_imp (fun w hw => decide_eq_true (hp w hw)) d.warnings

theorem contains_part (d : Draft κ ε ω) {k : κ} (hk : F.ofConcern k = g) :
    (d.part F g).classes.contains k = d.classes.contains k :=
  congrArg Option.isSome (d.get?_part hk)

/-- The classes of `k` set, and nothing else. -/
theorem acts_set {k : κ} (hk : F.ofConcern k = g) (cs : List Text) :
    ActsWithin (part F) g fun d => { d with classes := d.classes.set k cs } where
  here d := by
    have := d.classes.restrict_set (p := fun k => F.ofConcern k = g) (by simpa using hk) cs
    simp [part, this]
  elsewhere {f} hf d := by
    have hk' : F.ofConcern k ≠ f := fun h => hf (h.symm.trans hk)
    have := d.classes.restrict_set_of_not (p := fun k => F.ofConcern k = f) (by simpa using hk') cs
    simp [part, this]

theorem acts_insert {k : κ} (hk : F.ofConcern k = g) (c : Text) :
    ActsWithin (part F) g (·.insert k c) :=
  acts_set hk [c]

theorem acts_erase {k : κ} (hk : F.ofConcern k = g) : ActsWithin (part F) g (·.erase k) where
  here d := by simp [part, erase, ClassMap.restrict_erase]
  elsewhere {f} hf d := by
    have hk' : F.ofConcern k ≠ f := fun h => hf (h.symm.trans hk)
    have := d.classes.restrict_erase_of_not (p := fun k => F.ofConcern k = f) (by simpa using hk')
    simp [part, erase, this]

theorem eraseAll_eq_foldl (d : Draft κ ε ω) (ks : List κ) : d.eraseAll ks = ks.foldl erase d := by
  induction ks generalizing d with
  | nil => rfl
  | cons k ks ih =>
    rw [List.foldl_cons, ← ih]
    rfl

theorem acts_eraseAll {ks : List κ} (hks : ∀ k ∈ ks, F.ofConcern k = g) :
    ActsWithin (part F) g (·.eraseAll ks) := by
  simp only [eraseAll_eq_foldl]
  exact .foldl fun k hk => acts_erase (hks k hk)

theorem put_eq_ite (d : Draft κ ε ω) (k : κ) (cs : List Text) (again : ω) :
    d.put k cs again =
      if (d.classes.get? k).any (· ≠ cs) then { d with classes := d.classes.set k cs }.warn again
      else { d with classes := d.classes.set k cs } := by
  unfold put
  cases d.classes.get? k with
  | none => rfl
  | some previous => by_cases h : previous = cs <;> simp [h]

theorem acts_put {k : κ} {again : ω} (hk : F.ofConcern k = g) (hw : F.ofWarning again = g)
    (cs : List Text) : ActsWithin (part F) g (·.put k cs again) := by
  simp only [put_eq_ite]
  refine .ite (fun d => ?_) ((acts_set hk cs).andThen (acts_warn hw)) (acts_set hk cs)
  rw [d.get?_part hk]

theorem acts_discard {k : κ} {w : ω} (hk : F.ofConcern k = g) (hw : F.ofWarning w = g) :
    ActsWithin (part F) g (·.discard k w) := by
  refine .ite (fun d => ?_) ((acts_erase hk).andThen (acts_warn hw)) .nothing
  rw [d.contains_part hk]

/-! ## Drafts that hold the same -/

omit [DecidableEq φ] [DecidableEq κ] in
/-- Two drafts that hold the same in different orders. -/
structure Alike (d d' : Draft κ ε ω) : Prop where
  classes : d.classes.entries.Perm d'.classes.entries
  errors : d.errors.Perm d'.errors
  warnings : d.warnings.Perm d'.warnings

omit [DecidableEq κ] in
theorem alike_of_parts {d d' : Draft κ ε ω} (h : ∀ f, d.part F f = d'.part F f) :
    d.Alike d' := by
  have classes : SameFamilies (fun e => F.ofConcern e.1) d.classes.entries d'.classes.entries :=
    fun f => congrArg (·.classes.entries) (h f)
  have errors : SameFamilies F.ofError d.errors d'.errors := fun f => congrArg errors (h f)
  have warnings : SameFamilies F.ofWarning d.warnings d'.warnings :=
    fun f => congrArg warnings (h f)
  exact ⟨classes.perm, errors.perm, warnings.perm⟩

namespace Alike

variable {d d' : Draft κ ε ω}

omit [DecidableEq κ] in
theorem error (h : d.Alike d') (e : ε) : (d.error e).Alike (d'.error e) :=
  { h with errors := h.errors.append_right [e] }

omit [DecidableEq κ] in
theorem warn (h : d.Alike d') (w : ω) : (d.warn w).Alike (d'.warn w) :=
  { h with warnings := h.warnings.append_right [w] }

omit [DecidableEq κ] in
/-- A choice that falls in the same way for both. -/
theorem ite {e e' : Draft κ ε ω} {b b' : Bool} (hb : b = b') (h : d.Alike d') (he : e.Alike e') :
    Draft.Alike (if b then d else e) (if b' then d' else e') := by
  rw [hb]
  split
  · exact h
  · exact he

theorem insert (h : d.Alike d') (k : κ) (c : Text) : (d.insert k c).Alike (d'.insert k c) :=
  { h with classes := (h.classes.filter _).append_right [(k, [c])] }

theorem prepend (h : d.Alike d') (k : κ) (c : Text) : (d.prepend k c).Alike (d'.prepend k c) :=
  { h with classes := (h.classes.filter _).cons (k, [c]) }

theorem contains_eq (h : d.Alike d') (k : κ) : d.contains k = d'.contains k := by
  have held (m : ClassMap κ) : m.contains k = true ↔ ∃ e ∈ m.entries, k == e.1 :=
    List.lookup_isSome_iff
  rw [Bool.eq_iff_iff]
  show d.classes.contains k = true ↔ d'.classes.contains k = true
  simp only [held, h.classes.mem_iff]

end Alike

end Draft

/-! ## Reports that say the same -/

/-- Two reports with the same set of classes, the same errors and the same warnings, each as often
in the one as in the other. -/
structure Report.Alike (r r' : Report) : Prop where
  classes : r.classes.Perm r'.classes
  errors : r.errors.Perm r'.errors
  warnings : r.warnings.Perm r'.warnings

theorem Report.Alike.refl (r : Report) : r.Alike r := ⟨.refl _, .refl _, .refl _⟩

theorem ClassMap.perm_classes {κ : Type} {m m' : ClassMap κ} (h : m.entries.Perm m'.entries) :
    m.classes.Perm m'.classes := by
  rw [List.perm_ext_iff_of_nodup (nodup_classes m) (nodup_classes m')]
  intro c
  simp only [mem_classes_iff, h.mem_iff]

theorem Draft.Alike.report {κ ε ω : Type} {d d' : Draft κ ε ω} (h : d.Alike d') (p : Property)
    (errorText : ε → Text) (warningText : ω → Text) :
    (d.report p errorText warningText).Alike (d'.report p errorText warningText) :=
  ⟨ClassMap.perm_classes h.classes, h.errors.map _, h.warnings.map _⟩

end Inspector
