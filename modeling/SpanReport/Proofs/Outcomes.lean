import Mathlib.Data.List.Forall2

/-!
# Computations that can fail

When a sequence of steps succeeds, every step of it does. A list of
computations run in order stops at the first that fails.
-/

namespace SpanReport

theorem ok_bind (a : α) (f : α → Except ε β) : (Except.ok a >>= f) = f a := rfl

theorem bind_ok {x : Except ε α} {f : α → Except ε β} :
    x >>= f = .ok b ↔ ∃ a, x = .ok a ∧ f a = .ok b := by
  cases x <;> simp [bind, Except.bind]

theorem map_ok {x : Except ε α} {f : α → β} : f <$> x = .ok b ↔ ∃ a, x = .ok a ∧ f a = b := by
  cases x <;> simp [Functor.map, Except.map]

theorem exists_bind_ok {x : Except ε α} {f : α → Except ε β} :
    (∃ b, x >>= f = .ok b) ↔ ∃ a, x = .ok a ∧ ∃ b, f a = .ok b := by
  cases x <;> simp [bind, Except.bind]

theorem exists_map_ok {x : Except ε α} {f : α → β} :
    (∃ b, f <$> x = .ok b) ↔ ∃ a, x = .ok a := by
  cases x <;> simp [Functor.map, Except.map]

theorem map_error {x : Except ε α} {f : α → β} : f <$> x = .error e ↔ x = .error e := by
  cases x <;> simp [Functor.map, Except.map]

theorem bind_pure_error {x : Except ε α} {f : α → β} :
    (x >>= fun a => .ok (f a)) = .error e ↔ x = .error e := by
  cases x <;> simp [bind, Except.bind]

theorem mapM_ok {f : α → Except ε β} {xs : List α} :
    xs.mapM f = .ok ys ↔ List.Forall₂ (fun x y => f x = .ok y) xs ys := by
  induction xs generalizing ys with
  | nil => cases ys <;> simp [pure, Except.pure]
  | cons x xs ih =>
    rw [List.mapM_cons]
    simp only [bind_ok, ih]
    constructor
    · rintro ⟨y, hy, ys, hys, h⟩
      cases h
      exact .cons hy hys
    · rintro (_ | ⟨hy, hys⟩)
      exact ⟨_, hy, _, hys, rfl⟩

theorem exists_mapM_ok {f : α → Except ε β} {xs : List α} :
    (∃ ys, xs.mapM f = .ok ys) ↔ ∀ x ∈ xs, ∃ y, f x = .ok y := by
  induction xs with
  | nil => exact iff_of_true ⟨[], rfl⟩ (by simp)
  | cons x xs ih =>
    rw [List.mapM_cons, exists_bind_ok, List.forall_mem_cons, ← ih]
    constructor
    · rintro ⟨y, hy, ys, h⟩
      obtain ⟨ys, hys, -⟩ := bind_ok.mp h
      exact ⟨⟨y, hy⟩, ys, hys⟩
    · rintro ⟨⟨y, hy⟩, ys, hys⟩
      exact ⟨y, hy, y :: ys, bind_ok.mpr ⟨ys, hys, rfl⟩⟩

theorem ok_of_mem_mapM {f : α → Except ε β} {xs : List α} (h : xs.mapM f = .ok ys) (hy : y ∈ ys) :
    ∃ x ∈ xs, f x = .ok y := by
  have hall := mapM_ok.mp h
  clear h
  induction hall with
  | nil => cases hy
  | cons hx _ ih =>
    rcases List.mem_cons.mp hy with rfl | hy
    · exact ⟨_, List.mem_cons_self, hx⟩
    · obtain ⟨x, hm, hx⟩ := ih hy
      exact ⟨x, List.mem_cons_of_mem _ hm, hx⟩

theorem exists_error {x : Except ε α} : (∃ e, x = .error e) ↔ ¬∃ a, x = .ok a := by
  cases x <;> simp

/-- Some element has the property `Q`, and all elements before it have `P`. -/
def First (P Q : α → Prop) (xs : List α) : Prop :=
  ∃ before x after, xs = before ++ x :: after ∧ (∀ y ∈ before, P y) ∧ Q x

theorem first_nil {P Q : α → Prop} : ¬First P Q [] := by
  rintro ⟨before, x, after, h, -⟩
  exact List.cons_ne_nil x after (List.append_eq_nil_iff.mp h.symm).2

theorem first_cons : First P Q (x :: xs) ↔ Q x ∨ P x ∧ First P Q xs := by
  constructor
  · rintro ⟨before, y, after, h, hbefore, hy⟩
    cases before with
    | nil =>
      cases h
      exact .inl hy
    | cons first before =>
      cases h
      rw [List.forall_mem_cons] at hbefore
      exact .inr ⟨hbefore.1, before, y, after, rfl, hbefore.2, hy⟩
  · rintro (hx | ⟨hx, before, y, after, rfl, hbefore, hy⟩)
    · exact ⟨[], x, xs, rfl, List.forall_mem_nil _, hx⟩
    · exact ⟨x :: before, y, after, rfl, List.forall_mem_cons.mpr ⟨hx, hbefore⟩, hy⟩

theorem first_append : First P Q (xs ++ ys) ↔ First P Q xs ∨ (∀ x ∈ xs, P x) ∧ First P Q ys := by
  induction xs with
  | nil => simp [first_nil]
  | cons x xs ih =>
    rw [List.cons_append, first_cons, first_cons, ih, List.forall_mem_cons]
    tauto

theorem first_map {P Q : β → Prop} {f : α → β} :
    First P Q (xs.map f) ↔ First (fun x => P (f x)) (fun x => Q (f x)) xs := by
  induction xs with
  | nil => exact iff_of_false first_nil first_nil
  | cons x xs ih => rw [List.map_cons, first_cons, first_cons, ih]

theorem first_toList {P Q : α → Prop} {o : Option α} : First P Q o.toList ↔ ∃ x, o = some x ∧ Q x := by
  cases o <;> simp [first_nil, first_cons]

theorem first_exists {P : α → Prop} {Q : α → β → Prop} {R : β → Prop} {xs : List α} :
    First P (fun x => ∃ y, Q x y ∧ R y) xs ↔ ∃ y, First P (Q · y) xs ∧ R y := by
  constructor
  · rintro ⟨before, x, after, hxs, hbefore, y, hq, hr⟩
    exact ⟨y, ⟨before, x, after, hxs, hbefore, hq⟩, hr⟩
  · rintro ⟨y, ⟨before, x, after, hxs, hbefore, hq⟩, hr⟩
    exact ⟨before, x, after, hxs, hbefore, y, hq, hr⟩

/-- The elements before the first one that is found are the first elements. -/
theorem first_zipIdx {P Q : α × Nat → Prop} {xs : List α} :
    First P Q xs.zipIdx ↔ ∃ before x after, xs = before ++ x :: after ∧
      (∀ numbered ∈ before.zipIdx, P numbered) ∧ Q (x, before.length) := by
  constructor
  · rintro ⟨before, ⟨x, i⟩, after, hxs, hbefore, hx⟩
    obtain ⟨first, rest, rfl, rfl, hrest⟩ := List.zipIdx_eq_append_iff.mp hxs
    obtain ⟨y, last, rfl, hy, -⟩ := List.zipIdx_eq_cons_iff.mp hrest.symm
    obtain ⟨rfl, rfl⟩ := Prod.mk.inj hy
    exact ⟨first, x, last, rfl, hbefore, by simpa using hx⟩
  · rintro ⟨before, x, after, rfl, hbefore, hx⟩
    refine ⟨before.zipIdx, (x, before.length), after.zipIdx (before.length + 1), ?_, hbefore, hx⟩
    simp [List.zipIdx_append]

theorem mapM_error {f : α → Except ε β} {xs : List α} : xs.mapM f = .error e ↔
    First (fun x => ∃ y, f x = .ok y) (fun x => f x = .error e) xs := by
  induction xs with
  | nil => exact iff_of_false nofun first_nil
  | cons x xs ih =>
    rw [List.mapM_cons, first_cons, ← ih]
    cases hx : f x with
    | error other => simp [bind, Except.bind]
    | ok y => cases xs.mapM f <;> simp [bind, Except.bind, pure, Except.pure]

end SpanReport
