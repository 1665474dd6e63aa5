import Mathlib.Data.List.Forall2
import Mathlib.Data.List.Nodup

/-! # Lists, and values that may be missing

    What the theory says of lists without saying anything of scripts: splits at an
    element, elements that are the only ones of their kind, and lookups by a key.  At the
    end stands what concerns options and results. -/

namespace HotReload

/-! ## Section 1 - splits -/

section splits
variable {α β : Type} {l : List α} {x : α}

theorem mem_split {front back : List α} {y : α} : y ∈ front ++ x :: back ↔ y = x ∨ y ∈ front ++ back := by
  simp only [List.mem_append, List.mem_cons]
  exact or_left_comm

/-- What is erased is the element that is found. -/
theorem eraseP_split {p : α → Bool} (h : l.find? p = some x) :
    p x = true ∧ ∃ front back, l = front ++ x :: back ∧ l.eraseP p = front ++ back := by
  obtain ⟨hx, front, back, rfl, hfront⟩ := List.find?_eq_some_iff_append.1 h
  have hnone : ∀ y ∈ front, ¬ p y = true := fun y hy => by simpa using hfront y hy
  refine ⟨hx, front, back, rfl, ?_⟩
  rw [List.eraseP_append_right _ hnone, List.eraseP_cons_of_pos hx]

/-- It has a place. -/
theorem eraseP_of_find? {p : α → Bool} (h : l.find? p = some x) :
    ∃ i : Nat, l[i]? = some x ∧ l.eraseP p = l.eraseIdx i := by
  obtain ⟨-, front, back, rfl, herase⟩ := eraseP_split h
  refine ⟨front.length, by simp, ?_⟩
  rw [herase, List.eraseIdx_append_of_length_le (Nat.le_refl _)]
  simp

/-- Two elements stand in one order only in a list without repetitions. -/
theorem not_sublist_swap {a b : α} (hl : l.Nodup) (h : [a, b].Sublist l) : ¬ [b, a].Sublist l := by
  induction l with
  | nil => cases h
  | cons x l ih =>
    obtain ⟨hx, hl⟩ := List.nodup_cons.1 hl
    intro h'
    cases h with
    | cons _ h =>
      cases h' with
      | cons _ h' => exact ih hl h h'
      | cons_cons _ h' => exact hx (h.subset (by simp))
    | cons_cons _ h =>
      cases h' with
      | cons _ h' => exact hx (h'.subset (by simp))
      | cons_cons _ h' => exact hx (List.singleton_sublist.1 h)

theorem forall₂_snoc {R : α → β → Prop} {m : List β} (h : List.Forall₂ R (l ++ [x]) m) :
    ∃ m' b, m = m' ++ [b] ∧ List.Forall₂ R l m' ∧ R x b := by
  induction l generalizing m with
  | nil =>
    cases h with
    | cons hab hnil =>
      cases hnil
      exact ⟨[], _, rfl, .nil, hab⟩
  | cons y l ih =>
    cases h with
    | cons hxy htail =>
      obtain ⟨m', b, rfl, hm, hab⟩ := ih htail
      exact ⟨_ :: m', b, rfl, .cons hxy hm, hab⟩

end splits

/-! ## Section 2 - one of a kind -/

section kinds
variable {α β κ : Type} {key : α → κ} {l : List α}

/-- If no two elements are of one kind, an element is the only one of its kind. -/
theorem filter_eq_singleton [DecidableEq κ] (hnd : (l.map key).Nodup) {a : α} (ha : a ∈ l) :
    l.filter (fun b => key b = key a) = [a] := by
  induction l with
  | nil => cases ha
  | cons b rest ih =>
    obtain ⟨hb, hrest⟩ := List.nodup_cons.1 hnd
    rcases List.mem_cons.1 ha with rfl | ha
    · rw [List.filter_cons_of_pos (by simp)]
      congr 1
      rw [List.filter_eq_nil_iff]
      intro c hc hkind
      exact hb (of_decide_eq_true hkind ▸ List.mem_map_of_mem hc)
    · have hne : key b ≠ key a := by
        intro hkind
        exact hb (hkind ▸ List.mem_map_of_mem ha)
      rw [List.filter_cons_of_neg (by simpa using hne)]
      exact ih hrest ha

/-- A list of one kind, in which no two elements are of one kind, is not long. -/
theorem length_le_one (hnd : (l.map key).Nodup) (hsame : ∀ a ∈ l, ∀ b ∈ l, key a = key b) : l.length ≤ 1 := by
  match l with
  | [] => simp
  | [_] => simp
  | a :: b :: rest =>
    have heq : key a = key b := hsame a (by simp) b (by simp)
    simp [heq] at hnd

/-- If all elements but one bring nothing, the one brings everything. -/
theorem flatMap_eq_of_unique {f : α → List β} (hnd : (l.map key).Nodup) {a : α} (ha : a ∈ l)
    (hothers : ∀ b ∈ l, key b ≠ key a → f b = []) : l.flatMap f = f a := by
  induction l with
  | nil => cases ha
  | cons b rest ih =>
    obtain ⟨hb, hrest⟩ := List.nodup_cons.1 hnd
    rw [List.flatMap_cons]
    rcases List.mem_cons.1 ha with rfl | ha
    · have hnone : rest.flatMap f = [] := List.flatMap_eq_nil_iff.2 fun c hc =>
        hothers c (List.mem_cons_of_mem _ hc) fun hkey => hb (hkey ▸ List.mem_map_of_mem hc)
      rw [hnone, List.append_nil]
    · rw [hothers b List.mem_cons_self fun hkey => hb (hkey ▸ List.mem_map_of_mem ha), List.nil_append]
      exact ih hrest ha fun c hc => hothers c (List.mem_cons_of_mem _ hc)

/-- One hit for each element that passes a test, and none for the others. -/
theorem countP_flatMap_of_hits {p : β → Bool} {q : α → Bool} {f : α → List β}
    (h : ∀ x ∈ l, (f x).countP p = if q x then 1 else 0) : (l.flatMap f).countP p = l.countP q := by
  induction l with
  | nil => rfl
  | cons x rest ih =>
    obtain ⟨hx, hrest⟩ := List.forall_mem_cons.1 h
    rw [List.flatMap_cons, List.countP_append, List.countP_cons, ih hrest, hx, Nat.add_comm]

end kinds

/-! ## Section 3 - lookups -/

section lookups
variable {κ β : Type} [BEq κ] [LawfulBEq κ] {l : List (κ × β)} {k : κ} {b : β}

theorem lookup_eq_some_of_mem (honce : (l.map Prod.fst).Nodup) (h : (k, b) ∈ l) : l.lookup k = some b := by
  induction l with
  | nil => cases h
  | cons entry l ih =>
    obtain ⟨k', b'⟩ := entry
    rw [List.map_cons, List.nodup_cons] at honce
    rw [List.lookup_cons]
    rcases List.mem_cons.1 h with heq | hmem
    · rw [Prod.mk.injEq] at heq
      rw [heq.1, heq.2, beq_self_eq_true]
    · have hne : k ≠ k' := by
        rintro rfl
        exact honce.1 (List.mem_map.2 ⟨_, hmem, rfl⟩)
      rw [beq_false_of_ne hne]
      exact ih honce.2 hmem

theorem mem_of_lookup_eq_some (h : l.lookup k = some b) : (k, b) ∈ l := by
  obtain ⟨front, back, hsplit, -⟩ := List.lookup_eq_some_iff.1 h
  rw [hsplit]
  exact List.mem_append_right _ List.mem_cons_self

theorem lookup_eq_none_iff : l.lookup k = none ↔ k ∉ l.map Prod.fst := by
  rw [List.lookup_eq_none_iff]
  constructor
  · intro h hmem
    obtain ⟨entry, hentry, heq⟩ := List.mem_map.1 hmem
    have hne := h entry hentry
    rw [heq] at hne
    simp at hne
  · intro h entry hentry
    have hne : k ≠ entry.1 := by
      rintro rfl
      exact h (List.mem_map.2 ⟨entry, hentry, rfl⟩)
    simpa using hne

omit [BEq κ] [LawfulBEq κ] in
theorem map_fst_zip_of_le {ks : List κ} {bs : List β} (h : bs.length ≤ ks.length) :
    (ks.zip bs).map Prod.fst = ks.take bs.length := by
  induction bs generalizing ks with
  | nil => simp
  | cons b bs ih =>
    cases ks with
    | nil => simp at h
    | cons k ks =>
      rw [List.zip_cons_cons, List.map_cons, List.length_cons, List.take_succ_cons]
      rw [ih (by simpa using h)]

end lookups

/-! ## Section 4 - options and results -/

section missing
variable {α β ε : Type}

theorem bind_eq_of_rel {R : α → α → Prop} {a a' : Option α} {f : α → Option β} (h : Option.Rel R a a')
    (hf : ∀ x x', R x x' → f x = f x') : a.bind f = a'.bind f := by
  cases h with
  | none => rfl
  | some hrel => exact hf _ _ hrel

theorem toOption_map (f : α → β) (e : Except ε α) : (e.map f).toOption = e.toOption.map f := by
  cases e with
  | error error => rfl
  | ok a => rfl

/-- What an option holds, if it is known to hold something. -/
theorem eq_some_of_isSome [Inhabited α] {o : Option α} (h : o.isSome = true) : o = some (o.getD default) := by
  cases o with
  | none => cases h
  | some a => rfl

/-- What a result holds, if it is known to be no error. -/
theorem eq_ok_of_isOk [Inhabited α] {r : Except ε α} (h : r.isOk = true) : r = .ok (r.toOption.getD default) := by
  cases r with
  | error error => cases h
  | ok a => rfl

end missing

end HotReload
