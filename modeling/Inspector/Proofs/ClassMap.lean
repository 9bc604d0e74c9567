import Inspector.ClassMap
import Mathlib.Data.List.Induction
import Mathlib.Data.List.Nodup

/-!
# Class maps after a change

What a look-up finds after each change, and the invariant that every reader keeps of its class map:
no concern stands in it twice, and the classes of each concern have the shape `R` that the concern
demands.

    (m.set k cs).get? k' = if k' = k then some cs else m.get? k'                       (get?_set)
    (m.erase k).get? k' = if k' = k then none else m.get? k'                         (get?_erase)
    (m.after us).entries = front ++ what us does not name in m ++ back         (entries_after)
    us names no concern that vs does not → (m.after us).after vs = m.after vs
                                                                            (after_overwritten)
    DiffersIn ks m m' → DiffersIn ks (m.after us) (m'.after us)                 (DiffersIn.after)
    Writes k p us → Writes k q vs → q → us names no concern that vs does not  (Writes.subset)
    (m.after us).after us = m.after us                                            (after_after)
    (m.after us).get? k = some cs → m or some u in us gives cs to k        (exists_of_get?_after)
    m.Obeys R → R k cs → (m.set k cs).Obeys R                                       (Obeys.set)
    m.Obeys R → (c ∈ m.classes ↔ ∃ k cs, m.get? k = some cs ∧ c ∈ cs)   (Obeys.mem_classes_iff)
    m.Obeys (Single spells) → c ∈ m.classes → ∃ k, m.get? k = some [c] ∧ spells k c
                                                                         (Obeys.exists_of_mem)
    c is the class of k alone → (c ∈ m.classes ↔ m.contains k)  (Obeys.mem_classes_iff_contains)
-/

namespace Inspector

/-! ## First occurrences -/

section

variable {α : Type} [BEq α] [LawfulBEq α]

theorem nodup_eraseDups (l : List α) : l.eraseDups.Nodup := by
  induction h : l.length using Nat.strongRecOn generalizing l with
  | _ n ih =>
    cases l with
    | nil => simp
    | cons a l =>
      rw [List.eraseDups_cons, List.nodup_cons]
      refine ⟨by simp, ih _ ?_ _ rfl⟩
      rw [← h, List.length_cons]
      exact Nat.lt_succ_of_le (List.length_filter_le _ _)

theorem eraseDups_of_nodup {l : List α} (h : l.Nodup) : l.eraseDups = l := by
  induction l with
  | nil => rfl
  | cons a l ih =>
    obtain ⟨ha, hl⟩ := List.nodup_cons.1 h
    have keep : l.filter (fun b => !b == a) = l := by
      rw [List.filter_eq_self]
      intro b hb
      have : b ≠ a := fun e => ha (e ▸ hb)
      simpa using this
    rw [List.eraseDups_cons, keep, ih hl]

theorem filter_eraseDups (p : α → Bool) (l : List α) :
    l.eraseDups.filter p = (l.filter p).eraseDups := by
  induction h : l.length using Nat.strongRecOn generalizing l with
  | _ n ih =>
    cases l with
    | nil => rfl
    | cons a l =>
      have shorter : (l.filter fun b => !b == a).length < n := by
        rw [← h, List.length_cons]
        exact Nat.lt_succ_of_le (List.length_filter_le _ _)
      have rest : (l.filter fun b => !b == a).eraseDups.filter p =
          ((l.filter p).filter fun b => !b == a).eraseDups := by
        rw [ih _ shorter _ rfl, List.filter_filter, List.filter_filter]
        simp only [Bool.and_comm]
      rw [List.eraseDups_cons, List.filter_cons, List.filter_cons, rest]
      split
      · rw [List.eraseDups_cons]
      · next hp =>
        -- No member with `p` equals the first one.
        rw [List.filter_eq_self.2]
        intro b hb
        have other : b ≠ a := fun hba => hp (hba ▸ (List.mem_filter.1 hb).2)
        simpa using other

/-- Two lists without duplicates, joined: the second loses what the first has. -/
theorem eraseDups_append_of_nodup {l₁ l₂ : List α} (h₁ : l₁.Nodup) (h₂ : l₂.Nodup) :
    (l₁ ++ l₂).eraseDups = l₁ ++ l₂.filter fun a => !l₁.contains a := by
  have h : (l₂.removeAll l₁).eraseDups = l₂.removeAll l₁ := eraseDups_of_nodup (h₂.filter _)
  rw [List.eraseDups_append, eraseDups_of_nodup h₁, h]
  rfl

omit [BEq α] [LawfulBEq α] in
/-- A member that is the only one with `p` in a list without duplicates. -/
theorem filter_eq_singleton {p : α → Bool} {l : List α} {a : α} (hl : l.Nodup) (ha : a ∈ l)
    (hp : p a) (only : ∀ b ∈ l, p b → b = a) : l.filter p = [a] := by
  induction l with
  | nil => simp at ha
  | cons b l ih =>
    obtain ⟨hb, hl⟩ := List.nodup_cons.1 hl
    by_cases hba : b = a
    · subst hba
      have none : l.filter p = [] := by
        rw [List.filter_eq_nil_iff]
        intro c hc hpc
        exact hb (only c (List.mem_cons_of_mem _ hc) hpc ▸ hc)
      rw [List.filter_cons_of_pos hp, none]
    · have hpb : ¬ p b := fun h => hba (only b List.mem_cons_self h)
      have ha' : a ∈ l := (List.mem_cons.1 ha).resolve_left (Ne.symm hba)
      rw [List.filter_cons_of_neg hpb]
      exact ih hl ha' fun c hc => only c (List.mem_cons_of_mem _ hc)

end

namespace ClassMap

variable {κ : Type} [DecidableEq κ]

/-! ## Look-ups -/

theorem lookup_filter_ne (es : List (κ × List Text)) {k k' : κ} (h : k' ≠ k) :
    (es.filter (·.1 != k)).lookup k' = es.lookup k' := by
  induction es with
  | nil => rfl
  | cons e es ih =>
    obtain ⟨j, cs⟩ := e
    by_cases hj : j = k
    · subst hj
      rw [List.filter_cons_of_neg (by simp), ih, List.lookup_cons, beq_false_of_ne h]
    · rw [List.filter_cons_of_pos (by simpa using hj), List.lookup_cons, List.lookup_cons, ih]

theorem get?_erase (m : ClassMap κ) (k k' : κ) :
    (m.erase k).get? k' = if k' = k then none else m.get? k' := by
  split
  · next h => rw [h, get?_erase_self]
  · next h => exact lookup_filter_ne m.entries h

theorem get?_set (m : ClassMap κ) (k k' : κ) (cs : List Text) :
    (m.set k cs).get? k' = if k' = k then some cs else m.get? k' := by
  split
  · next h => rw [h, get?_set_self]
  · next h =>
    have hk : (m.erase k).get? k' = m.get? k' := by rw [get?_erase, if_neg h]
    unfold get? at hk ⊢
    rw [set, List.lookup_append, hk, List.lookup_cons, beq_false_of_ne h]
    simp

theorem get?_insert (m : ClassMap κ) (k k' : κ) (c : Text) :
    (m.insert k c).get? k' = if k' = k then some [c] else m.get? k' :=
  get?_set m k k' [c]

theorem get?_prepend (m : ClassMap κ) (k k' : κ) (c : Text) :
    (m.prepend k c).get? k' = if k' = k then some [c] else m.get? k' := by
  show List.lookup k' ((k, [c]) :: (m.erase k).entries) = _
  rw [List.lookup_cons]
  by_cases h : k' = k
  · simp [h]
  · have hk : (m.erase k).get? k' = m.get? k' := by rw [get?_erase, if_neg h]
    rw [beq_false_of_ne h, if_neg h]
    exact hk

theorem get?_eraseAll (m : ClassMap κ) (ks : List κ) (k' : κ) :
    (m.eraseAll ks).get? k' = if k' ∈ ks then none else m.get? k' := by
  unfold eraseAll
  induction ks generalizing m with
  | nil => simp
  | cons k ks ih =>
    rw [List.foldl_cons, ih, get?_erase]
    by_cases h : k' = k <;> by_cases h' : k' ∈ ks <;> simp [h, h']

@[simp] theorem contains_empty (k : κ) : ({} : ClassMap κ).contains k = false := rfl

@[simp] theorem contains_erase (m : ClassMap κ) (k k' : κ) :
    (m.erase k).contains k' = (!decide (k' = k) && m.contains k') := by
  unfold contains
  rw [get?_erase]
  by_cases h : k' = k <;> simp [h]

@[simp] theorem contains_set (m : ClassMap κ) (k k' : κ) (cs : List Text) :
    (m.set k cs).contains k' = (decide (k' = k) || m.contains k') := by
  unfold contains
  rw [get?_set]
  by_cases h : k' = k <;> simp [h]

@[simp] theorem contains_insert (m : ClassMap κ) (k k' : κ) (c : Text) :
    (m.insert k c).contains k' = (decide (k' = k) || m.contains k') :=
  contains_set m k k' [c]

@[simp] theorem contains_prepend (m : ClassMap κ) (k k' : κ) (c : Text) :
    (m.prepend k c).contains k' = (decide (k' = k) || m.contains k') := by
  unfold contains
  rw [get?_prepend]
  by_cases h : k' = k <;> simp [h]

@[simp] theorem contains_eraseAll (m : ClassMap κ) (ks : List κ) (k' : κ) :
    (m.eraseAll ks).contains k' = (!decide (k' ∈ ks) && m.contains k') := by
  unfold contains
  rw [get?_eraseAll]
  by_cases h : k' ∈ ks <;> simp [h]

theorem erase_of_not_contains {m : ClassMap κ} {k : κ} (h : m.contains k = false) :
    m.erase k = m := by
  have hk : ∀ e ∈ m.entries, e.1 ≠ k := by
    intro e he hek
    have : m.entries.lookup k = none := by simpa [contains, get?] using h
    rw [List.lookup_eq_none_iff] at this
    simpa [hek] using this e he
  have keep : m.entries.filter (·.1 != k) = m.entries := by
    rw [List.filter_eq_self]
    intro e he
    simpa using hk e he
  unfold erase
  rw [keep]

/-! ## Sequences of updates -/

/-- The map after a sequence of updates. -/
def after (m : ClassMap κ) (us : List (Update κ)) : ClassMap κ :=
  us.foldl (fun m u => (m.update u).2) m

theorem after_append (m : ClassMap κ) (us vs : List (Update κ)) :
    m.after (us ++ vs) = (m.after us).after vs :=
  List.foldl_append

theorem after_concat (m : ClassMap κ) (us : List (Update κ)) (u : Update κ) :
    m.after (us ++ [u]) = ((m.after us).update u).2 :=
  m.after_append us [u]

/-- Updates leave alone what they do not name. -/
theorem get?_after_of_not_mem (m : ClassMap κ) {us : List (Update κ)} {k : κ}
    (h : k ∉ us.map Update.concern) : (m.after us).get? k = m.get? k := by
  induction us using List.reverseRecOn with
  | nil => rfl
  | append_singleton us u ih =>
    rw [List.map_append, List.mem_append, not_or] at h
    have last : k ≠ u.concern := fun hk => h.2 (hk ▸ List.mem_singleton_self _)
    rw [after_concat, ← ih h.1]
    cases u with
    | set j cs => exact (get?_set _ j k cs).trans (if_neg last)
    | insert j c => exact (get?_insert _ j k c).trans (if_neg last)
    | prepend j c => exact (get?_prepend _ j k c).trans (if_neg last)
    | erase j => exact (get?_erase _ j k).trans (if_neg last)

theorem after_erases (m : ClassMap κ) (ks : List κ) :
    m.after (ks.map .erase) = m.eraseAll ks := by
  rw [after, List.foldl_map]
  rfl

/-- A run whose steps update the classes by what their own members say. -/
theorem after_foldl {σ α : Type} {f : σ → α → σ} (classes : σ → ClassMap κ)
    {g : α → List (Update κ)} (h : ∀ s a, classes (f s a) = (classes s).after (g a)) (l : List α)
    (s : σ) : classes (l.foldl f s) = (classes s).after (l.flatMap g) := by
  induction l generalizing s with
  | nil => rfl
  | cons a l ih => rw [List.foldl_cons, ih, h, List.flatMap_cons, after_append]

omit [DecidableEq κ] in
/-- The updates for a value, where there are none without it. -/
theorem mem_elim_nil_iff {α : Type} {o : Option α} {g : α → List (Update κ)} {u : Update κ} :
    u ∈ o.elim [] g ↔ ∃ a, o = some a ∧ u ∈ g a := by
  cases o <;> simp

/-- The classes that an update gives, and to which concern. -/
def Update.given? : Update κ → Option (κ × List Text)
  | .set k cs => some (k, cs)
  | .insert k c | .prepend k c => some (k, [c])
  | .erase _ => none

omit [DecidableEq κ] in
/-- A value that is written in place of some concerns gives its own class and no other. -/
theorem exists_value_of_given {α : Type} {o : Option α} (replaced : List κ) {j : α → κ}
    {g : α → Text} {u : Update κ}
    (hu : u ∈ o.elim [] fun a => replaced.map .erase ++ [.set (j a) [g a]]) {k : κ}
    {cs : List Text} (given : u.given? = some (k, cs)) {c : Text} (hc : c ∈ cs) :
    ∃ a, o = some a ∧ c = g a := by
  obtain ⟨a, ha, hu⟩ := mem_elim_nil_iff.1 hu
  rcases List.mem_append.1 hu with erased | last
  · obtain ⟨k, -, rfl⟩ := List.mem_map.1 erased
    cases given
  · obtain rfl := List.mem_singleton.1 last
    cases given
    exact ⟨a, ha, List.mem_singleton.1 hc⟩

/-- The classes of a concern are those it had, or some update gave them. -/
theorem exists_of_get?_after {m : ClassMap κ} {us : List (Update κ)} {k : κ} {cs : List Text}
    (h : (m.after us).get? k = some cs) :
    m.get? k = some cs ∨ ∃ u ∈ us, u.given? = some (k, cs) := by
  induction us using List.reverseRecOn with
  | nil => exact .inl h
  | append_singleton us u ih =>
    have earlier (h : (m.after us).get? k = some cs) :
        m.get? k = some cs ∨ ∃ v ∈ us ++ [u], v.given? = some (k, cs) :=
      (ih h).imp_right fun ⟨v, hv, hg⟩ => ⟨v, List.mem_append_left _ hv, hg⟩
    have last (h : u.given? = some (k, cs)) :
        m.get? k = some cs ∨ ∃ v ∈ us ++ [u], v.given? = some (k, cs) :=
      .inr ⟨u, List.mem_append_right _ (List.mem_singleton_self u), h⟩
    rw [after_concat] at h
    cases u with
    | set j _ | insert j _ | prepend j _ =>
      simp only [update, get?_set, get?_insert, get?_prepend] at h
      split at h
      · next hk => exact last (by rw [hk, ← Option.some.inj h]; rfl)
      · exact earlier h
    | erase j =>
      simp only [update, get?_erase] at h
      split at h
      · cases h
      · exact earlier h

/-- The same for a run whose steps update the classes by what the state and their own members
say. -/
theorem exists_of_get?_foldl {σ α : Type} {f : σ → α → σ} (classes : σ → ClassMap κ)
    {g : σ → α → List (Update κ)} (h : ∀ s a, classes (f s a) = (classes s).after (g s a))
    {l : List α} {s : σ} {k : κ} {cs : List Text}
    (hk : (classes (l.foldl f s)).get? k = some cs) :
    (classes s).get? k = some cs ∨ ∃ a ∈ l, ∃ s', ∃ u ∈ g s' a, u.given? = some (k, cs) := by
  induction l using List.reverseRecOn with
  | nil => exact .inl hk
  | append_singleton l a ih =>
    rw [List.foldl_concat, h] at hk
    rcases exists_of_get?_after hk with earlier | ⟨u, hu, given⟩
    · exact (ih earlier).imp_right fun ⟨b, hb, found⟩ => ⟨b, List.mem_append_left _ hb, found⟩
    · exact .inr ⟨a, List.mem_append_right _ (List.mem_singleton_self a), _, u, hu, given⟩

/-- The entries of a map whose concern none of the updates names. -/
def unnamed (m : ClassMap κ) (us : List (Update κ)) : List (κ × List Text) :=
  m.entries.filter fun e => !(us.map Update.concern).contains e.1

/-- What an update leaves of the entries. -/
theorem entries_erase_after {m : ClassMap κ} {us : List (Update κ)}
    {front back : List (κ × List Text)}
    (h : (m.after us).entries = front ++ m.unnamed us ++ back) (u : Update κ) :
    ((m.after us).erase u.concern).entries =
      front.filter (·.1 != u.concern) ++ m.unnamed (us ++ [u]) ++
        back.filter (·.1 != u.concern) := by
  have rest : (m.unnamed us).filter (·.1 != u.concern) = m.unnamed (us ++ [u]) := by
    unfold unnamed
    rw [List.filter_filter]
    refine List.filter_congr fun e _ => ?_
    by_cases he : e.1 = u.concern <;> simp [he]
  rw [erase, h, List.filter_append, List.filter_append, rest]

/-- The normal form of a sequence of updates: what it does not name keeps its order, and what it
names stands before or behind that, in an order that the map does not matter for. -/
theorem entries_after (us : List (Update κ)) :
    ∃ front back : List (κ × List Text),
      (∀ e ∈ front ++ back, e.1 ∈ us.map Update.concern) ∧
      ∀ m : ClassMap κ, (m.after us).entries = front ++ m.unnamed us ++ back := by
  induction us using List.reverseRecOn with
  | nil => exact ⟨[], [], by simp, fun m => by simp [after, unnamed]⟩
  | append_singleton us u ih =>
    obtain ⟨front, back, hnamed, hform⟩ := ih
    have erased (m : ClassMap κ) := entries_erase_after (hform m) u
    have named : ∀ e ∈ front.filter (·.1 != u.concern) ++ back.filter (·.1 != u.concern),
        e.1 ∈ (us ++ [u]).map Update.concern := by
      intro e he
      rw [← List.filter_append] at he
      rw [List.map_append]
      exact List.mem_append_left _ (hnamed e (List.mem_of_mem_filter he))
    have last (cs : List Text) : ∀ e ∈ [(u.concern, cs)], e.1 ∈ (us ++ [u]).map Update.concern := by
      simp
    cases u with
    | erase k =>
      refine ⟨_, _, named, fun m => ?_⟩
      rw [after_concat]
      exact erased m
    | set k cs =>
      refine ⟨front.filter (·.1 != k), back.filter (·.1 != k) ++ [(k, cs)], ?_, fun m => ?_⟩
      · rw [← List.append_assoc]
        exact List.forall_mem_append.2 ⟨named, last cs⟩
      · rw [after_concat, ← List.append_assoc]
        exact congrArg (· ++ [(k, cs)]) (erased m)
    | insert k c =>
      refine ⟨front.filter (·.1 != k), back.filter (·.1 != k) ++ [(k, [c])], ?_, fun m => ?_⟩
      · rw [← List.append_assoc]
        exact List.forall_mem_append.2 ⟨named, last [c]⟩
      · rw [after_concat, ← List.append_assoc]
        exact congrArg (· ++ [(k, [c])]) (erased m)
    | prepend k c =>
      refine ⟨(k, [c]) :: front.filter (·.1 != k), back.filter (·.1 != k), ?_, fun m => ?_⟩
      · exact List.forall_mem_cons.2 ⟨last [c] _ (List.mem_singleton_self _), named⟩
      · rw [after_concat]
        exact congrArg ((k, [c]) :: ·) (erased m)

/-- Updates leave no trace behind later ones that name all their concerns. -/
theorem after_overwritten (m : ClassMap κ) {us vs : List (Update κ)}
    (h : us.map Update.concern ⊆ vs.map Update.concern) : (m.after us).after vs = m.after vs := by
  obtain ⟨front, back, hnamed, hform⟩ := entries_after us
  obtain ⟨front', back', -, hform'⟩ := entries_after vs
  have drop {es : List (κ × List Text)} (hes : ∀ e ∈ es, e.1 ∈ us.map Update.concern) :
      es.filter (fun e => !(vs.map Update.concern).contains e.1) = [] := by
    rw [List.filter_eq_nil_iff]
    intro e he
    simpa using h (hes e he)
  have narrower : (m.unnamed us).filter (fun e => !(vs.map Update.concern).contains e.1) =
      m.unnamed vs := by
    unfold unnamed
    rw [List.filter_filter]
    refine List.filter_congr fun e _ => ?_
    by_cases he : e.1 ∈ us.map Update.concern
    · simp only [List.contains_iff_mem.2 (h he), Bool.not_true, Bool.false_and]
    · have : (us.map Update.concern).contains e.1 = false := by simpa using he
      rw [this, Bool.not_false, Bool.and_true]
  obtain ⟨hfront, hback⟩ := List.forall_mem_append.1 hnamed
  have keep : (m.after us).unnamed vs = m.unnamed vs := by
    rw [unnamed, hform m, List.filter_append, List.filter_append, drop hfront, drop hback, narrower,
      List.nil_append, List.append_nil]
  have same : ((m.after us).after vs).entries = (m.after vs).entries := by
    rw [hform', keep, ← hform']
  exact congrArg ClassMap.mk same

/-- A member whose updates a later member makes good may be left out. -/
theorem after_flatMap_without {α : Type} (m : ClassMap κ) (g : α → List (Update κ)) {a b : α}
    (h : (g a).map Update.concern ⊆ (g b).map Update.concern) (xs ys zs : List α) :
    m.after ((xs ++ a :: ys ++ b :: zs).flatMap g) = m.after ((xs ++ ys ++ b :: zs).flatMap g) := by
  have later : (g a).map Update.concern ⊆
      (ys.flatMap g ++ (g b ++ zs.flatMap g)).map Update.concern := by
    intro k hk
    rw [List.map_append, List.map_append]
    exact List.mem_append_right _ (List.mem_append_left _ (h hk))
  simp only [List.flatMap_append, List.flatMap_cons, List.append_assoc]
  rw [after_append, after_append, after_overwritten _ later, ← after_append]

/-- The maps differ at most in what they hold of the concerns `ks`. -/
def DiffersIn (ks : List κ) (m m' : ClassMap κ) : Prop := m.eraseAll ks = m'.eraseAll ks

omit [DecidableEq κ] in
theorem concerns_erases (ks : List κ) :
    (ks.map (Update.erase : κ → Update κ)).map Update.concern = ks := by
  rw [List.map_map]
  exact List.map_id ks

theorem differsIn_after (m : ClassMap κ) {ks : List κ} {us : List (Update κ)}
    (h : us.map Update.concern ⊆ ks) : DiffersIn ks (m.after us) m := by
  rw [← concerns_erases ks] at h
  unfold DiffersIn
  rw [← after_erases, ← after_erases]
  exact m.after_overwritten h

/-- Updates that name all concerns in which two maps differ make the maps equal. -/
theorem DiffersIn.overwritten {ks : List κ} {m m' : ClassMap κ} (h : DiffersIn ks m m')
    {us : List (Update κ)} (named : ks ⊆ us.map Update.concern) : m.after us = m'.after us := by
  have named' : (ks.map Update.erase).map Update.concern ⊆ us.map Update.concern := by
    rw [concerns_erases]
    exact named
  rw [← m.after_overwritten named', ← m'.after_overwritten named', after_erases, after_erases, h]

theorem DiffersIn.after {ks : List κ} {m m' : ClassMap κ} (h : DiffersIn ks m m')
    (us : List (Update κ)) : DiffersIn ks (m.after us) (m'.after us) := by
  have named : ks ⊆ (us ++ ks.map Update.erase).map Update.concern := by
    rw [List.map_append, concerns_erases]
    exact List.subset_append_right _ _
  have same := h.overwritten named
  rwa [after_append, after_append, after_erases, after_erases] at same

/-- The updates that a value of the concern `k` makes: one of `k` if it is taken, and else none. -/
def Writes (k : κ) (taken : Prop) (us : List (Update κ)) : Prop :=
  taken ∧ us.map Update.concern = [k] ∨ ¬ taken ∧ us = []

omit [DecidableEq κ] in
/-- A value that is taken makes good every other one of its concern. -/
theorem Writes.subset {k : κ} {p q : Prop} {us vs : List (Update κ)} (hu : Writes k p us)
    (hv : Writes k q vs) (taken : q) : us.map Update.concern ⊆ vs.map Update.concern := by
  rcases hv with ⟨-, hv⟩ | ⟨refused, -⟩
  · rw [hv]
    rcases hu with ⟨-, hu⟩ | ⟨-, rfl⟩
    · rw [hu]
      exact List.Subset.refl _
    · exact List.nil_subset _
  · exact absurd taken refused

/-- A sequence of updates, made once more, changes nothing. -/
theorem after_after (m : ClassMap κ) (us : List (Update κ)) :
    (m.after us).after us = m.after us :=
  m.after_overwritten (List.Subset.refl _)

theorem set_set (m : ClassMap κ) (k : κ) (cs : List Text) :
    (m.set k cs).set k cs = m.set k cs :=
  m.after_after [.set k cs]

theorem erase_erase (m : ClassMap κ) (k : κ) : (m.erase k).erase k = m.erase k :=
  m.after_after [.erase k]

/-! ## The invariant of a reader's class map -/

/-- No concern stands in the map twice, and the classes of each have the shape `R`. -/
structure Obeys (R : κ → List Text → Prop) (m : ClassMap κ) : Prop where
  distinct : (m.entries.map (·.1)).Nodup
  shaped : ∀ e ∈ m.entries, R e.1 e.2

variable {R : κ → List Text → Prop} {m : ClassMap κ}

omit [DecidableEq κ] in
theorem Obeys.empty : Obeys R {} := ⟨List.nodup_nil, by simp⟩

theorem Obeys.erase (h : m.Obeys R) (k : κ) : (m.erase k).Obeys R :=
  ⟨h.distinct.sublist (List.filter_sublist.map _), fun e he =>
    h.shaped e ((mem_entries_erase_iff m k e).1 he).1⟩

theorem Obeys.eraseAll (h : m.Obeys R) (ks : List κ) : (m.eraseAll ks).Obeys R :=
  List.foldlRecOn ks ClassMap.erase h fun _ h k _ => h.erase k

theorem not_mem_concerns_erase (m : ClassMap κ) (k : κ) :
    k ∉ (m.erase k).entries.map (·.1) := by
  intro hk
  obtain ⟨e, he, hek⟩ := List.mem_map.1 hk
  exact ((mem_entries_erase_iff m k e).1 he).2 hek

theorem Obeys.set (h : m.Obeys R) {k : κ} {cs : List Text} (hk : R k cs) :
    (m.set k cs).Obeys R := by
  have h' := h.erase k
  constructor
  · show (((m.erase k).entries ++ [(k, cs)]).map (·.1)).Nodup
    rw [List.map_append, List.nodup_append]
    refine ⟨h'.distinct, by simp, fun a ha b hb hab => ?_⟩
    have hbk : b = k := by simpa using hb
    rw [hab, hbk] at ha
    exact not_mem_concerns_erase m k ha
  · intro e he
    rcases List.mem_append.1 he with he | he
    · exact h'.shaped e he
    · rw [List.mem_singleton.1 he]
      exact hk

theorem Obeys.insert (h : m.Obeys R) {k : κ} {c : Text} (hk : R k [c]) :
    (m.insert k c).Obeys R :=
  h.set hk

theorem Obeys.prepend (h : m.Obeys R) {k : κ} {c : Text} (hk : R k [c]) :
    (m.prepend k c).Obeys R := by
  have h' := h.erase k
  refine ⟨List.nodup_cons.2 ⟨not_mem_concerns_erase m k, h'.distinct⟩, fun e he => ?_⟩
  rcases List.mem_cons.1 he with rfl | he
  · exact hk
  · exact h'.shaped e he

theorem Obeys.get?_eq_some_iff (h : m.Obeys R) {k : κ} {cs : List Text} :
    m.get? k = some cs ↔ (k, cs) ∈ m.entries := by
  constructor
  · intro hk
    obtain ⟨l₁, l₂, he, -⟩ := List.lookup_eq_some_iff.1 hk
    simp [he]
  · intro hk
    have hs : (m.entries.lookup k).isSome := List.lookup_isSome_iff.2 ⟨_, hk, by simp⟩
    obtain ⟨cs', hcs'⟩ := Option.isSome_iff_exists.1 hs
    obtain ⟨l₁, l₂, he, -⟩ := List.lookup_eq_some_iff.1 hcs'
    have hk' : (k, cs') ∈ m.entries := by simp [he]
    have := List.inj_on_of_nodup_map h.distinct hk hk' rfl
    simp only [Prod.mk.injEq, true_and] at this
    rw [this]
    exact hcs'

theorem Obeys.of_get? (h : m.Obeys R) {k : κ} {cs : List Text} (hk : m.get? k = some cs) :
    R k cs :=
  h.shaped _ (h.get?_eq_some_iff.1 hk)

/-- The classes of a map are those that a look-up finds. -/
theorem Obeys.mem_classes_iff (h : m.Obeys R) {c : Text} :
    c ∈ m.classes ↔ ∃ k cs, m.get? k = some cs ∧ c ∈ cs := by
  rw [ClassMap.mem_classes_iff]
  constructor
  · rintro ⟨⟨k, cs⟩, he, hc⟩
    exact ⟨k, cs, h.get?_eq_some_iff.2 he, hc⟩
  · rintro ⟨k, cs, hk, hc⟩
    exact ⟨(k, cs), h.get?_eq_some_iff.1 hk, hc⟩

/-- One class, which the concern spells. -/
def Single (spells : κ → Text → Prop) (k : κ) (cs : List Text) : Prop :=
  ∃ c, cs = [c] ∧ spells k c

omit [DecidableEq κ] in
theorem Single.intro {spells : κ → Text → Prop} {k : κ} {c : Text} (h : spells k c) :
    Single spells k [c] :=
  ⟨c, rfl, h⟩

/-- If each concern has one class, every class is one that a concern spells. -/
theorem Obeys.exists_of_mem {spells : κ → Text → Prop} (h : m.Obeys (Single spells)) {c : Text}
    (hc : c ∈ m.classes) : ∃ k, m.get? k = some [c] ∧ spells k c := by
  obtain ⟨k, cs, hk, hcs⟩ := h.mem_classes_iff.1 hc
  obtain ⟨c', rfl, hs⟩ := h.of_get? hk
  rw [List.mem_singleton.1 hcs]
  exact ⟨k, hk, hs⟩

/-- The class of a concern that has no other, if no other concern has it. -/
theorem Obeys.mem_classes_iff_contains {spells : κ → Text → Prop} (h : m.Obeys (Single spells))
    {k : κ} {c : Text} (only : ∀ k', spells k' c → k' = k) (alone : ∀ c', spells k c' → c' = c) :
    c ∈ m.classes ↔ m.contains k := by
  constructor
  · intro hc
    obtain ⟨k', hk, hs⟩ := h.exists_of_mem hc
    rw [only k' hs] at hk
    exact Option.isSome_of_eq_some hk
  · intro held
    obtain ⟨cs, hk⟩ := Option.isSome_iff_exists.1 held
    obtain ⟨c', rfl, hs⟩ := h.of_get? hk
    rw [alone c' hs] at hk
    exact h.mem_classes_iff.2 ⟨k, [c], hk, List.mem_singleton_self c⟩

omit [DecidableEq κ] in
theorem nodup_classes (m : ClassMap κ) : m.classes.Nodup := nodup_eraseDups _

/-- The classes with `p`, if one concern alone spells such classes and spells no others. -/
theorem Obeys.filter_classes {spells : κ → Text → Prop} (h : m.Obeys (Single spells)) {k : κ}
    (hk : m.contains k) {p : Text → Bool} (sure : ∀ c, spells k c → p c)
    (only : ∀ k' c, spells k' c → p c → k' = k) :
    ∃ c, m.get? k = some [c] ∧ m.classes.filter p = [c] := by
  obtain ⟨cs, hcs⟩ := Option.isSome_iff_exists.1 hk
  obtain ⟨c, rfl, hc⟩ := h.of_get? hcs
  refine ⟨c, hcs, filter_eq_singleton (nodup_classes m) ?_ (sure c hc) fun c' hc' hp => ?_⟩
  · exact h.mem_classes_iff.2 ⟨k, [c], hcs, List.mem_singleton_self c⟩
  · obtain ⟨k', hk', hs⟩ := h.exists_of_mem hc'
    rw [only k' c' hs hp, hcs] at hk'
    simpa using hk'.symm

/-- The same for a concern that the map may not hold. -/
theorem Obeys.filter_classes_eq {spells : κ → Text → Prop} (h : m.Obeys (Single spells)) {k : κ}
    {p : Text → Bool} (sure : ∀ c, spells k c → p c) (only : ∀ k' c, spells k' c → p c → k' = k) :
    m.classes.filter p = (m.get? k).getD [] := by
  cases hk : m.get? k with
  | none =>
    refine List.filter_eq_nil_iff.2 fun c hc hp => ?_
    obtain ⟨k', hk', hs⟩ := h.exists_of_mem hc
    rw [only k' c hs hp, hk] at hk'
    cases hk'
  | some cs =>
    have held : m.contains k := Option.isSome_iff_exists.2 ⟨cs, hk⟩
    obtain ⟨c, hc, hp⟩ := h.filter_classes held sure only
    rw [hp, Option.getD_some]
    exact Option.some.inj (hc.symm.trans hk)

theorem head?_classes_prepend (m : ClassMap κ) (k : κ) (c : Text) :
    (m.prepend k c).classes.head? = some c := by
  simp [classes, prepend, List.eraseDups_cons]

end ClassMap

end Inspector
