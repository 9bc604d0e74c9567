import Inspector.Proofs.Bundle.Keys
import Inspector.Proofs.Token.Plain

/-!
# The spellings of the parts of a bundle

The value of a part is written by a key of its own, as a pair in a group, or as an item in a group,
each time under any of the names of the part. Values alone are given to the parts in order, as if
each had been written with the name of its part; those behind the last part are surplus.

    P.IsSpelled leads keys k v text → text is one token, and it gives v to k    (IsSpelled.token)
    entries P (joined "," vs) =
      entries P (P.assigned name vs) ++ (vs.drop P.order.length).map .surplus    (entries_joined)
-/

namespace Inspector

open Text Inspector.Group

variable {κ : Type}

namespace Parts

/-- The names of the parts can be told apart: as words of their own, and at the head of an item. -/
structure Clear (P : Parts κ) : Prop where
  complete : ∀ k, k ∈ P.order
  plain : ∀ k, ∀ a ∈ P.aliases k, IsPlain a
  named : ∀ k, ∀ a ∈ P.aliases k, P.ofName? a = some k
  apart : ∀ k j, ∀ a ∈ P.aliases k, ∀ b ∈ P.aliases j,
    lower (a ++ "-") <+: lower (b ++ "-") → k = j ∧ a = b
  unwrapped : ∀ {value}, strip? value = none → P.unwrapped value = value

/-- How the value `v` of a part is written: by a key behind one of the `leads`, or in a group behind
one of the `keys`, as a pair or as an item. -/
inductive IsSpelled (P : Parts κ) (leads keys : List Text) (k : κ) (v : Text) : Text → Prop where
  | key {lead a : Text} (hlead : lead ∈ leads) (ha : a ∈ P.aliases k) :
    IsSpelled P leads keys k v (keyed (lead ++ a) v)
  | pair {o c : Char} {key a : Text} (hoc : closerOf? o = some c) (hkey : key ∈ keys)
    (ha : a ∈ P.aliases k) : IsSpelled P leads keys k v (grouped o c key (keyed a v))
  | item {o c : Char} {key a : Text} (hoc : closerOf? o = some c) (hkey : key ∈ keys)
    (ha : a ∈ P.aliases k) : IsSpelled P leads keys k v (grouped o c key (a ++ "-" ++ v))

/-- The parts by name with the values in order, as many as there are of both. -/
def assigned (P : Parts κ) (name : κ → Text) (vs : List Text) : Text :=
  joined "," ((P.order.zip vs).map fun p => keyed (name p.1) p.2)

variable {P : Parts κ} (clear : P.Clear)

include clear

/-! ## Items -/

theorem Clear.eq_of_item {k j : κ} {a b text v w : Text} (ha : a ∈ P.aliases k)
    (hb : b ∈ P.aliases j) (hv : (afterWord? a text).bind (after? "-") = some v)
    (hw : (afterWord? b text).bind (after? "-") = some w) : k = j ∧ v = w := by
  have begins {a v : Text} (h : (afterWord? a text).bind (after? "-") = some v) :
      lower (a ++ "-") <+: lower text := by
    obtain ⟨rest, hrest, hrest'⟩ := Option.bind_eq_some_iff.1 h
    obtain ⟨word, rfl, hword⟩ := eq_append_of_afterWord? hrest
    rw [eq_append_of_after? hrest']
    refine ⟨lower v, ?_⟩
    simp only [lower, List.map_append] at hword ⊢
    rw [hword, List.append_assoc]
  have same : k = j ∧ a = b := by
    rcases List.prefix_or_prefix_of_prefix (begins hv) (begins hw) with le | le
    · exact clear.apart k j a ha b hb le
    · exact (clear.apart j k b hb a ha le).imp Eq.symm Eq.symm
  refine ⟨same.1, ?_⟩
  rw [same.2] at hv
  exact Option.some.inj (hv.symm.trans hw)

/-- An item is of the part whose name it begins with. -/
theorem Clear.ofItem?_of_alias {k : κ} {a : Text} (ha : a ∈ P.aliases k) (v : Text) :
    P.ofItem? (a ++ "-" ++ v) = some (k, v) := by
  have own : (afterWord? a (a ++ "-" ++ v)).bind (after? "-") = some v := by
    rw [List.append_assoc, afterWord?_append]
    rfl
  have found : (P.ofItem? (a ++ "-" ++ v)).isSome := by
    rw [ofItem?, List.findSome?_isSome_iff]
    refine ⟨k, clear.complete k, ?_⟩
    rw [List.findSome?_isSome_iff]
    exact ⟨a, ha, by rw [own]; rfl⟩
  obtain ⟨⟨j, w⟩, hi⟩ := Option.isSome_iff_exists.1 found
  obtain ⟨j', -, hj⟩ := List.exists_of_findSome?_eq_some hi
  obtain ⟨b, hb, hw⟩ := List.exists_of_findSome?_eq_some hj
  obtain ⟨w', hw', heq⟩ := Option.map_eq_some_iff.1 hw
  obtain ⟨rfl, rfl⟩ := Prod.mk.inj heq
  obtain ⟨rfl, rfl⟩ := clear.eq_of_item ha hb own hw'
  exact hi

end Parts

namespace Bundle

variable {P : Parts κ}

/-- A bundle without groups in it is as its slots are. -/
theorem entries_of_slots {inner : Text} {es : List (Entry κ)}
    (h : slots P P.order (tokenize inner) = es.map .entry) : entries P inner = es := by
  rw [entries_eq, h, List.flatMap_map]
  exact List.flatMap_singleton' es

/-! ## Values in order -/

theorem slots_values {vs : List Text} (plain : ∀ v ∈ vs, strip? v = none)
    (free : ∀ v ∈ vs, P.ofItem? v = none) (ks : List κ) :
    slots P ks (vs.map .bare) =
      (((ks.zip vs).map fun p : κ × Text => Entry.value p.1 p.2) ++
        (vs.drop ks.length).map Entry.surplus).map .entry := by
  induction vs generalizing ks with
  | nil => simp [slots]
  | cons v vs ih =>
    obtain ⟨hv, hvs⟩ := List.forall_mem_cons.1 plain
    obtain ⟨hf, hfs⟩ := List.forall_mem_cons.1 free
    cases ks with
    | nil => simp [slots, hv, hf, ih hvs hfs]
    | cons k ks => simp [slots, hv, hf, ih hvs hfs]

theorem slots_pairs {ps : List (κ × Text)} {name : κ → Text}
    (named : ∀ p ∈ ps, P.ofName? (name p.1) = some p.1)
    (plain : ∀ p ∈ ps, P.unwrapped p.2 = p.2) (free : List κ) :
    slots P free (ps.map fun p => .pair (name p.1) p.2) =
      (ps.map fun p => Entry.value p.1 p.2).map .entry := by
  induction ps with
  | nil => rfl
  | cons p ps ih =>
    obtain ⟨hn, hns⟩ := List.forall_mem_cons.1 named
    obtain ⟨hp, hps⟩ := List.forall_mem_cons.1 plain
    rw [List.map_cons, slots, hn, hp, ih hns hps]
    rfl

variable (clear : P.Clear) {name : κ → Text} (hname : ∀ k, name k ∈ P.aliases k) {vs : List Text}
  (plain : ∀ v ∈ vs, IsPlain v)

include clear hname plain

theorem isToken_assigned : List.Forall₂ IsToken
    ((P.order.zip vs).map fun p => keyed (name p.1) p.2)
    ((P.order.zip vs).map fun p => .pair (name p.1) p.2) := by
  rw [List.forall₂_map_left_iff, List.forall₂_map_right_iff, List.forall₂_same]
  intro p hp
  exact .keyed (clear.plain p.1 _ (hname p.1)) (plain p.2 (List.of_mem_zip hp).2)

theorem isBalanced_assigned : isBalanced 0 (P.assigned name vs) :=
  (tokenize_joined (isToken_assigned clear hname plain)).2

theorem entries_assigned : entries P (P.assigned name vs) =
    (P.order.zip vs).map fun p => Entry.value p.1 p.2 := by
  refine entries_of_slots ?_
  rw [Parts.assigned, (tokenize_joined (isToken_assigned clear hname plain)).1]
  refine slots_pairs (fun p _ => clear.named p.1 _ (hname p.1)) (fun p hp => ?_) P.order
  exact clear.unwrapped (plain p.2 (List.of_mem_zip hp).2).strip?_eq_none

omit clear hname in
theorem isToken_values (written : ∀ v ∈ vs, v ≠ []) :
    List.Forall₂ IsToken vs (vs.map .bare) := by
  rw [List.forall₂_map_right_iff, List.forall₂_same]
  exact fun v hv => .bare (plain v hv) (written v hv)

/-- Values in order are those of the parts by name, and the rest of them are surplus. -/
theorem entries_joined (written : ∀ v ∈ vs, v ≠ []) (free : ∀ v ∈ vs, P.ofItem? v = none) :
    entries P (joined "," vs) =
      entries P (P.assigned name vs) ++ (vs.drop P.order.length).map .surplus := by
  rw [entries_assigned clear hname plain]
  refine entries_of_slots ?_
  rw [(tokenize_joined (isToken_values plain written)).1]
  exact slots_values (fun v hv => (plain v hv).strip?_eq_none) free P.order

end Bundle

/-! ## Spellings -/

namespace Parts

variable {P : Parts κ} {leads keys : List Text} {k : κ} {v text : Text}

/-- A group with a single token in it. -/
theorem isToken_grouped {o c : Char} (hoc : closerOf? o = some c) {key inner : Text}
    (hkey : IsPlain key) {t : Token} (ht : IsToken inner t) {e : Bundle.Entry κ}
    (hs : Bundle.slots P P.order [t] = [.entry e]) :
    ∃ value, IsToken (grouped o c key inner) (.pair key value) ∧
      strip? value = some inner ∧ Bundle.entries P inner = [e] := by
  obtain ⟨value, htoken, hstrip⟩ := IsToken.exists_grouped hoc hkey ht.balanced
  refine ⟨value, htoken, hstrip, Bundle.entries_of_slots ?_⟩
  rw [ht.tokens, hs]
  rfl

/-- A spelling is one token: a key of the part with the value, or a group that comes to it. -/
theorem IsSpelled.token (clear : P.Clear)
    (hleads : ∀ lead ∈ leads, ∀ a ∈ P.aliases k, IsPlain (lead ++ a))
    (hkeys : ∀ key ∈ keys, IsPlain key) (hv : IsPlain v) (h : P.IsSpelled leads keys k v text) :
    (∃ lead ∈ leads, ∃ a ∈ P.aliases k, IsToken text (.pair (lead ++ a) v)) ∨
      ∃ key ∈ keys, ∃ value inner, IsToken text (.pair key value) ∧
        strip? value = some inner ∧ Bundle.entries P inner = [.value k v] := by
  cases h with
  | @key lead a hlead ha =>
    exact .inl ⟨lead, hlead, a, ha, .keyed (hleads lead hlead a ha) hv⟩
  | @pair o c key a hoc hkey ha =>
    have slot : Bundle.slots P P.order [.pair a v] = [.entry (.value k v)] := by
      rw [Bundle.slots, clear.named k a ha, clear.unwrapped hv.strip?_eq_none, Bundle.slots]
    obtain ⟨value, ht, hs, he⟩ :=
      isToken_grouped hoc (hkeys key hkey) (.keyed (clear.plain k a ha) hv) slot
    exact .inr ⟨key, hkey, value, _, ht, hs, he⟩
  | @item o c key a hoc hkey ha =>
    have item : IsPlain (a ++ "-" ++ v) := by
      simpa using (clear.plain k a ha).append_cons hv (c := '-') (by decide) (by decide)
    have slot : Bundle.slots P P.order [.bare (a ++ "-" ++ v)] = [.entry (.value k v)] := by
      simp only [Bundle.slots, item.strip?_eq_none, clear.ofItem?_of_alias ha]
    obtain ⟨value, ht, hs, he⟩ :=
      isToken_grouped hoc (hkeys key hkey) (.bare item (by simp)) slot
    exact .inr ⟨key, hkey, value, _, ht, hs, he⟩

end Parts

end Inspector
