/-!
# What a run lets one observe

A run folds a step over a list. An observation of the state to which every step only adds is the
sum of what the members of the list add, whatever else the state holds; one that no step changes
stays what it was, and one that some steps replace is what the last of them gave. A relation between
the state and what the members have added so far is carried through the run by its steps.

    seen (f s a) = (seen s || p a) → seen (l.foldl f s) = (seen s || l.any p)          (seen_foldl)
    log (f s a) = log s ++ g a → log (l.foldl f s) = log s ++ l.flatMap g               (log_foldl)
    log s ⊆ log (f s a), b ∈ log (f s a) for a member a of l → b ∈ log (l.foldl f s)
                                                                            (mem_foldl_of_kept)
    o (f s a) = o s → o (l.foldl f s) = o s                                         (kept_foldl)
    o (f s a) = (g a).getD (o s) → o (l.foldl f s) = the last value of g, or o s  (latest_foldl)
    o (f s a) = (g a).or (o s) → o (l.foldl f s) = the last value of g, if any  (latest?_foldl)
    R s bs → R (f s a) (bs ++ g a) is true of all steps →
      R s bs → R (l.foldl f s) (bs ++ l.flatMap g)                               (tracked_foldl)
    eachBefore g before (l ++ [a]) = eachBefore g before l ++ g (before ++ l) a
                                                                            (eachBefore_concat)
    p a = (g a).isSome → l.any p = !(l.filterMap g).isEmpty     (any_eq_not_isEmpty_filterMap)
    the neighbours in l ++ [a] = those in l, and the last of l with a           (zip_tail_concat)
-/

namespace Inspector

variable {σ α β : Type} {f : σ → α → σ}

theorem seen_foldl (seen : σ → Bool) {p : α → Bool}
    (h : ∀ s a, seen (f s a) = (seen s || p a)) (l : List α) (s : σ) :
    seen (l.foldl f s) = (seen s || l.any p) := by
  induction l generalizing s with
  | nil => simp
  | cons a l ih => rw [List.foldl_cons, ih, h, List.any_cons, Bool.or_assoc]

theorem log_foldl (log : σ → List β) {g : α → List β}
    (h : ∀ s a, log (f s a) = log s ++ g a) (l : List α) (s : σ) :
    log (l.foldl f s) = log s ++ l.flatMap g := by
  induction l generalizing s with
  | nil => simp
  | cons a l ih => rw [List.foldl_cons, ih, h, List.flatMap_cons, List.append_assoc]

/-- What a member of the list adds is there in the end. -/
theorem mem_log_foldl (log : σ → List β) {g : α → List β} (h : ∀ s a, log (f s a) = log s ++ g a)
    {l : List α} {a : α} (ha : a ∈ l) {b : β} (hb : b ∈ g a) (s : σ) : b ∈ log (l.foldl f s) := by
  rw [log_foldl log h]
  exact List.mem_append_right _ (List.mem_flatMap_of_mem ha hb)

/-- What is never lost, and found with a member of the list, is there in the end. -/
theorem mem_foldl_of_kept (log : σ → List β) (kept : ∀ s a, log s ⊆ log (f s a)) {l : List α}
    {a : α} (ha : a ∈ l) {b : β} (found : ∀ s, b ∈ log (f s a)) (s : σ) :
    b ∈ log (l.foldl f s) := by
  obtain ⟨before, behind, rfl⟩ := List.append_of_mem ha
  rw [List.foldl_append, List.foldl_cons]
  exact List.foldlRecOn behind f (found _) fun s hb a _ => kept s a hb

/-- What a run adds, some member of the list adds. -/
theorem exists_of_log_ne (log : σ → List β) {g : α → List β}
    (h : ∀ s a, log (f s a) = log s ++ g a) {l : List α} {s : σ} (hne : log (l.foldl f s) ≠ log s) :
    ∃ a ∈ l, g a ≠ [] := by
  have added : l.flatMap g ≠ [] := fun none => hne (by rw [log_foldl log h, none, List.append_nil])
  obtain ⟨b, hb⟩ := List.exists_mem_of_ne_nil _ added
  obtain ⟨a, ha, hba⟩ := List.mem_flatMap.1 hb
  exact ⟨a, ha, List.ne_nil_of_mem hba⟩

theorem kept_foldl (o : σ → β) (h : ∀ s a, o (f s a) = o s) (l : List α) (s : σ) :
    o (l.foldl f s) = o s := by
  induction l generalizing s with
  | nil => rfl
  | cons a l ih => rw [List.foldl_cons, ih, h]

theorem latest_foldl (o : σ → β) {g : α → Option β}
    (h : ∀ s a, o (f s a) = (g a).getD (o s)) (l : List α) (s : σ) :
    o (l.foldl f s) = (l.filterMap g).getLast?.getD (o s) := by
  induction l generalizing s with
  | nil => rfl
  | cons a l ih =>
    rw [List.foldl_cons, ih, h]
    cases hg : g a with
    | none => rw [List.filterMap_cons_none hg, Option.getD_none]
    | some b => rw [List.filterMap_cons_some hg, List.getLast?_cons, Option.getD_some,
        Option.getD_some]

theorem latest?_foldl (o : σ → Option β) {g : α → Option β}
    (h : ∀ s a, o (f s a) = (g a).or (o s)) (l : List α) (s : σ) :
    o (l.foldl f s) = (l.filterMap g).getLast?.or (o s) := by
  induction l generalizing s with
  | nil => rfl
  | cons a l ih =>
    rw [List.foldl_cons, ih, h]
    cases hg : g a with
    | none => rw [List.filterMap_cons_none hg, Option.none_or]
    | some b => rw [List.filterMap_cons_some hg, List.getLast?_cons, Option.some_or, Option.some_or,
        Option.or_some]

/-- A relation to what has been added that no step breaks. -/
theorem tracked_foldl {R : σ → List β → Prop} {g : α → List β} {l : List α}
    (h : ∀ {s bs}, ∀ a ∈ l, R s bs → R (f s a) (bs ++ g a)) {s : σ} {bs : List β}
    (start : R s bs) : R (l.foldl f s) (bs ++ l.flatMap g) := by
  induction l generalizing s bs with
  | nil => rwa [List.flatMap_nil, List.append_nil]
  | cons a l ih =>
    rw [List.foldl_cons, List.flatMap_cons, ← List.append_assoc]
    exact ih (fun b hb => h b (List.mem_cons_of_mem a hb)) (h a List.mem_cons_self start)

/-- Some member has a value exactly if the list of values is not empty. -/
theorem any_eq_not_isEmpty_filterMap {p : α → Bool} {g : α → Option β}
    (h : ∀ a, p a = (g a).isSome) (l : List α) : l.any p = !(l.filterMap g).isEmpty := by
  induction l with
  | nil => rfl
  | cons a l ih =>
    rw [List.any_cons, h, ih]
    cases hg : g a with
    | none => rw [List.filterMap_cons_none hg, Option.isSome_none, Bool.false_or]
    | some b => rw [List.filterMap_cons_some hg, Option.isSome_some, Bool.true_or]; rfl

/-- Members that no step heeds may be left out. -/
theorem foldl_filter_of_unheeded {p : α → Bool} (h : ∀ s a, p a = false → f s a = s) (l : List α)
    (s : σ) : (l.filter p).foldl f s = l.foldl f s := by
  have heeded : (fun s a => if p a then f s a else s) = f := by
    funext s a
    cases hp : p a with
    | true => rw [if_pos rfl]
    | false => rw [if_neg Bool.false_ne_true, h s a hp]
  rw [List.foldl_filter, heeded]

/-! ## Members and those before them -/

/-- What `g` makes of each member of a list and of those before it, one after the other. -/
def eachBefore (g : List α → α → List β) (before : List α) : List α → List β
  | [] => []
  | a :: l => g before a ++ eachBefore g (before ++ [a]) l

theorem eachBefore_concat (g : List α → α → List β) (before l : List α) (a : α) :
    eachBefore g before (l ++ [a]) = eachBefore g before l ++ g (before ++ l) a := by
  induction l generalizing before with
  | nil => simp [eachBefore]
  | cons b l ih => simp [eachBefore, ih]

theorem map_eachBefore {γ : Type} (h : β → γ) (g : List α → α → List β) (before l : List α) :
    (eachBefore g before l).map h = eachBefore (fun before a => (g before a).map h) before l := by
  induction l generalizing before with
  | nil => rfl
  | cons a l ih => rw [eachBefore, List.map_append, ih, eachBefore]

theorem map_eachBefore_ite {γ : Type} (h : β → γ) (P : List α → α → Prop)
    [∀ before a, Decidable (P before a)] (b : β) (before l : List α) :
    (eachBefore (fun before a => if P before a then [b] else []) before l).map h =
      eachBefore (fun before a => if P before a then [h b] else []) before l := by
  rw [map_eachBefore]
  refine congrArg (eachBefore · before l) ?_
  funext before a
  split <;> rfl

/-! ## Neighbours -/

theorem zip_tail_concat (l : List α) (a : α) :
    (l ++ [a]).zip (l ++ [a]).tail = l.zip l.tail ++ l.getLast?.toList.map (·, a) := by
  induction l with
  | nil => rfl
  | cons b l ih =>
    cases l with
    | nil => rfl
    | cons c l =>
      rw [List.getLast?_cons_cons]
      exact congrArg ((b, c) :: ·) ih

end Inspector
