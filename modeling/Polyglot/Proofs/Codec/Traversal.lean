import Mathlib.Data.List.Forall2

/-!
# Traversals that may fail

What one thing after another makes succeeds when both do (`bind_eq_ok_iff`), and fails as the first
does that fails (`bind_eq_error_iff`).  So `mapM` with a function that may fail gives the results of
all items (`mapM_eq_ok_iff`), or the failure of the first item that has one (`mapM_eq_error_iff`).

Two outcomes are `Alike` when both are results that are related or both are failures that are, and
traversals keep this (`Alike.mapM`, `Alike.foldlM`).
-/

namespace Polyglot.Traversal

variable {ε α β : Type}

/-! ### One thing after another -/

theorem bind_eq_ok_iff {x : Except ε α} {f : α → Except ε β} {b : β} :
    (x >>= f) = .ok b ↔ ∃ a, x = .ok a ∧ f a = .ok b := by
  cases x with
  | error e =>
    constructor
    · rintro ⟨⟩
    · rintro ⟨_, ⟨⟩, -⟩
  | ok a =>
    constructor
    · intro h
      exact ⟨a, rfl, h⟩
    · rintro ⟨_, h, hb⟩
      exact Except.ok.inj h ▸ hb

theorem map_eq_ok_iff {x : Except ε α} {f : α → β} {b : β} :
    x.map f = .ok b ↔ ∃ a, x = .ok a ∧ f a = b := by
  cases x with
  | error e =>
    constructor
    · rintro ⟨⟩
    · rintro ⟨_, ⟨⟩, -⟩
  | ok a =>
    constructor
    · intro h
      exact ⟨a, rfl, Except.ok.inj h⟩
    · rintro ⟨_, h, rfl⟩
      exact Except.ok.inj h ▸ rfl

theorem bind_eq_error_iff {x : Except ε α} {f : α → Except ε β} {e : ε} :
    (x >>= f) = .error e ↔ x = .error e ∨ ∃ a, x = .ok a ∧ f a = .error e := by
  cases x with
  | error d =>
    refine ⟨fun h => .inl (Except.error.inj h ▸ rfl), ?_⟩
    rintro (h | ⟨_, h, -⟩)
    · exact Except.error.inj h ▸ rfl
    · cases h
  | ok a =>
    refine ⟨fun h => .inr ⟨a, rfl, h⟩, ?_⟩
    rintro (h | ⟨_, h, he⟩)
    · cases h
    · exact Except.ok.inj h ▸ he

/-- Two results make a pair exactly when neither fails. -/
theorem pair_eq_ok_iff {x : Except ε α} {y : Except ε β} {z : α × β} :
    (do let a ← x; let b ← y; pure (a, b)) = Except.ok z ↔ x = .ok z.1 ∧ y = .ok z.2 := by
  constructor
  · intro h
    obtain ⟨a, ha, h⟩ := bind_eq_ok_iff.mp h
    obtain ⟨b, hb, h⟩ := bind_eq_ok_iff.mp h
    obtain rfl := Except.ok.inj h
    exact ⟨ha, hb⟩
  · rintro ⟨hx, hy⟩
    rw [hx, hy]
    rfl

theorem exists_bind_pure_iff {x : Except ε α} {f : α → β} :
    (∃ b, (do pure (f (← x))) = Except.ok b) ↔ ∃ a, x = .ok a := by
  constructor
  · rintro ⟨b, h⟩
    obtain ⟨a, ha, -⟩ := bind_eq_ok_iff.mp h
    exact ⟨a, ha⟩
  · rintro ⟨a, rfl⟩
    exact ⟨f a, rfl⟩

theorem exists_pair_iff {x : Except ε α} {y : Except ε β} :
    (∃ z, (do let a ← x; let b ← y; pure (a, b)) = Except.ok z) ↔
      (∃ a, x = .ok a) ∧ ∃ b, y = .ok b := by
  simp only [pair_eq_ok_iff, Prod.exists, exists_and_left, exists_and_right]

/-! ### The results of all items -/

theorem mapM_eq_ok_iff {f : α → Except ε β} {xs : List α} {ys : List β} :
    xs.mapM f = .ok ys ↔ List.Forall₂ (fun x y => f x = .ok y) xs ys := by
  induction xs generalizing ys with
  | nil =>
    rw [List.mapM_nil, List.forall₂_nil_left_iff]
    exact ⟨fun h => (Except.ok.inj h).symm, fun h => h ▸ rfl⟩
  | cons x xs ih =>
    rw [List.mapM_cons, List.forall₂_cons_left_iff]
    constructor
    · intro h
      obtain ⟨y, hy, h⟩ := bind_eq_ok_iff.mp h
      obtain ⟨zs, hzs, h⟩ := bind_eq_ok_iff.mp h
      exact ⟨y, zs, hy, ih.mp hzs, (Except.ok.inj h).symm⟩
    · rintro ⟨y, zs, hx, hxs, rfl⟩
      rw [hx, ih.mpr hxs]
      rfl

theorem exists_mem_zip_of_mem {R : α → β → Prop} {xs : List α} {ys : List β}
    (h : List.Forall₂ R xs ys) {x : α} (hx : x ∈ xs) : ∃ y, (x, y) ∈ xs.zip ys := by
  induction h with
  | nil => cases hx
  | @cons _ y _ _ _ _ ih =>
    rcases List.mem_cons.mp hx with rfl | hx
    · exact ⟨y, List.mem_cons_self⟩
    · obtain ⟨z, hz⟩ := ih hx
      exact ⟨z, List.mem_cons_of_mem _ hz⟩

theorem exists_mem_zip_of_mem_right {R : α → β → Prop} {xs : List α} {ys : List β}
    (h : List.Forall₂ R xs ys) {y : β} (hy : y ∈ ys) : ∃ x, (x, y) ∈ xs.zip ys := by
  induction h with
  | nil => cases hy
  | @cons x _ _ _ _ _ ih =>
    rcases List.mem_cons.mp hy with rfl | hy
    · exact ⟨x, List.mem_cons_self⟩
    · obtain ⟨z, hz⟩ := ih hy
      exact ⟨z, List.mem_cons_of_mem _ hz⟩

/-- What goes with equal images has the same images. -/
theorem map_eq_map_of_forall₂ {γ : Type} {f : α → γ} {g : β → γ} {xs : List α} {ys : List β}
    (h : List.Forall₂ (fun x y => g y = f x) xs ys) : ys.map g = xs.map f := by
  induction h with
  | nil => rfl
  | cons hxy _ ih => rw [List.map_cons, List.map_cons, hxy, ih]

/-- Lists whose members go with each other are related pair by pair in the same way. -/
theorem pairwise_iff_of_forall₂ {R : α → β → Prop} {P : α → α → Prop} {Q : β → β → Prop}
    {xs : List α} {ys : List β} (h : List.Forall₂ R xs ys)
    (hiff : ∀ x y x' y', R x y → R x' y' → (P x x' ↔ Q y y')) : xs.Pairwise P ↔ ys.Pairwise Q := by
  induction h with
  | nil => exact iff_of_true .nil .nil
  | @cons x y xs ys hxy hrest ih =>
    rw [List.pairwise_cons, List.pairwise_cons, ih]
    refine and_congr_left fun _ => ⟨fun hx y' hy' => ?_, fun hy x' hx' => ?_⟩
    · obtain ⟨x', hzip⟩ := exists_mem_zip_of_mem_right hrest hy'
      exact (hiff x y x' y' hxy (List.forall₂_zip hrest hzip)).mp (hx x' (List.of_mem_zip hzip).1)
    · obtain ⟨y', hzip⟩ := exists_mem_zip_of_mem hrest hx'
      exact (hiff x y x' y' hxy (List.forall₂_zip hrest hzip)).mpr (hy y' (List.of_mem_zip hzip).2)

/-- What holds of the results of members holds all along a traversal. -/
theorem forall₂_of_mapM_eq_ok {f : α → Except ε β} {R : α → β → Prop} {xs : List α} {ys : List β}
    (h : xs.mapM f = .ok ys) (hR : ∀ x ∈ xs, ∀ y, f x = .ok y → R x y) : List.Forall₂ R xs ys := by
  have hall := mapM_eq_ok_iff.mp h
  clear h
  induction hall with
  | nil => exact .nil
  | cons hx _ ih =>
    obtain ⟨hhead, htail⟩ := List.forall_mem_cons.mp hR
    exact .cons (hhead _ hx) (ih htail)

/-- What holds of the result of each member holds of all results. -/
theorem forall_mem_of_mapM_eq_ok {f : α → Except ε β} {Q : β → Prop} {xs : List α} {ys : List β}
    (h : xs.mapM f = .ok ys) (hQ : ∀ x ∈ xs, ∀ y, f x = .ok y → Q y) : ∀ y ∈ ys, Q y := by
  have hall : List.Forall₂ (fun _ y => Q y) xs ys := forall₂_of_mapM_eq_ok h hQ
  clear h hQ
  induction hall with
  | nil => rintro _ ⟨⟩
  | cons hy _ ih => exact List.forall_mem_cons.mpr ⟨hy, ih⟩

theorem forall_mem_of_mapM_eq_some {f : α → Option β} {Q : β → Prop} {xs : List α} {ys : List β}
    (h : xs.mapM f = some ys) (hQ : ∀ x ∈ xs, ∀ y, f x = some y → Q y) : ∀ y ∈ ys, Q y := by
  induction xs generalizing ys with
  | nil =>
    obtain rfl := Option.some.inj h
    rintro _ ⟨⟩
  | cons x xs ih =>
    obtain ⟨hx, hxs⟩ := List.forall_mem_cons.mp hQ
    rw [List.mapM_cons] at h
    obtain ⟨y, hy, h⟩ := Option.bind_eq_some_iff.mp h
    obtain ⟨zs, hzs, h⟩ := Option.bind_eq_some_iff.mp h
    obtain rfl := Option.some.inj h
    exact List.forall_mem_cons.mpr ⟨hx y hy, ih hzs hxs⟩

/-- A traversal fails with the first item that fails. -/
theorem mapM_eq_error_iff {f : α → Except ε β} {xs : List α} {e : ε} :
    xs.mapM f = .error e ↔ ∃ before x after, xs = before ++ x :: after ∧
      (∀ y ∈ before, ∃ z, f y = .ok z) ∧ f x = .error e := by
  induction xs with
  | nil =>
    rw [List.mapM_nil]
    constructor
    · intro h
      cases h
    · rintro ⟨before, x, after, h, -⟩
      simp at h
  | cons x xs ih =>
    rw [List.mapM_cons]
    constructor
    · intro h
      obtain hx | ⟨z, hz, h⟩ := bind_eq_error_iff.mp h
      · exact ⟨[], x, xs, rfl, by simp, hx⟩
      · obtain h | ⟨_, _, h⟩ := bind_eq_error_iff.mp h
        · obtain ⟨before, y, after, rfl, hb, hy⟩ := ih.mp h
          exact ⟨x :: before, y, after, rfl, List.forall_mem_cons.mpr ⟨⟨z, hz⟩, hb⟩, hy⟩
        · cases h
    · rintro ⟨before, y, after, h, hb, hy⟩
      cases before with
      | nil =>
        obtain ⟨rfl, rfl⟩ := List.cons.inj h
        rw [hy]
        rfl
      | cons w before =>
        obtain ⟨rfl, rfl⟩ := List.cons.inj h
        obtain ⟨⟨z, hz⟩, hb⟩ := List.forall_mem_cons.mp hb
        rw [hz, ih.mpr ⟨before, y, after, rfl, hb, hy⟩]
        rfl

theorem exists_mapM_eq_ok_iff {f : α → Except ε β} {xs : List α} :
    (∃ ys, xs.mapM f = .ok ys) ↔ ∀ x ∈ xs, ∃ y, f x = .ok y := by
  constructor
  · rintro ⟨ys, h⟩ x hx
    have hall := mapM_eq_ok_iff.mp h
    obtain ⟨y, hzip⟩ := exists_mem_zip_of_mem hall hx
    exact ⟨y, List.forall₂_zip hall hzip⟩
  · intro h
    cases hxs : xs.mapM f with
    | ok ys => exact ⟨ys, rfl⟩
    | error e =>
      obtain ⟨before, x, after, rfl, -, hx⟩ := mapM_eq_error_iff.mp hxs
      obtain ⟨y, hy⟩ := h x (List.mem_append_right _ List.mem_cons_self)
      rw [hy] at hx
      cases hx

/-! ### Traversals that agree -/

/-- Two functions that agree wherever the first does not fail in a given way agree on a traversal
that does not fail in that way. -/
theorem mapM_eq_of_ne_error {f g : α → Except ε β} {e : ε} {xs : List α}
    (hfg : ∀ x ∈ xs, f x ≠ .error e → g x = f x) (h : xs.mapM f ≠ .error e) :
    xs.mapM g = xs.mapM f := by
  induction xs with
  | nil => rfl
  | cons x xs ih =>
    obtain ⟨hx, hxs⟩ := List.forall_mem_cons.mp hfg
    rw [List.mapM_cons] at h ⊢
    rw [List.mapM_cons, hx fun he => h (by rw [he]; rfl)]
    cases hy : f x with
    | error d => rfl
    | ok y =>
      rw [hy] at h
      rw [ih hxs fun he => h (by rw [he]; rfl)]

theorem bind_eq_of_ne_error {x y : Except ε α} {f g : α → Except ε β} {e : ε}
    (hxy : x ≠ .error e → y = x) (hfg : ∀ a, x = .ok a → f a ≠ .error e → g a = f a)
    (h : (x >>= f) ≠ .error e) : (y >>= g) = (x >>= f) := by
  rw [hxy fun he => h (by rw [he]; rfl)]
  cases x with
  | error d => rfl
  | ok a => exact hfg a rfl h

/-! ### Outcomes that are alike -/

/-- Whether two outcomes are both results that are related, or both failures that are. -/
inductive Alike (E : ε → ε → Prop) (R : α → β → Prop) : Except ε α → Except ε β → Prop
  | ok {a : α} {b : β} (h : R a b) : Alike E R (.ok a) (.ok b)
  | error {d e : ε} (h : E d e) : Alike E R (.error d) (.error e)

namespace Alike

variable {α' β' : Type} {E : ε → ε → Prop} {R : α → β → Prop} {S : α' → β' → Prop}

theorem refl {R : α → α → Prop} (hE : ∀ e, E e e) (hR : ∀ a, R a a) (x : Except ε α) :
    Alike E R x x := by
  cases x with
  | error e => exact .error (hE e)
  | ok a => exact .ok (hR a)

theorem symm {R : α → α → Prop} (hE : ∀ d e, E d e → E e d) (hR : ∀ a b, R a b → R b a)
    {x y : Except ε α} (h : Alike E R x y) : Alike E R y x := by
  cases h with
  | ok h => exact .ok (hR _ _ h)
  | error h => exact .error (hE _ _ h)

theorem trans {R : α → α → Prop} (hE : ∀ c d e, E c d → E d e → E c e)
    (hR : ∀ a b c, R a b → R b c → R a c) {x y z : Except ε α} (hxy : Alike E R x y)
    (hyz : Alike E R y z) : Alike E R x z := by
  cases hxy with
  | ok hab =>
    cases hyz with
    | ok hbc => exact .ok (hR _ _ _ hab hbc)
  | error hcd =>
    cases hyz with
    | error hde => exact .error (hE _ _ _ hcd hde)

theorem exists_of_ok {x : Except ε α} {y : Except ε β} (h : Alike E R x y) {a : α}
    (hx : x = .ok a) : ∃ b, y = .ok b ∧ R a b := by
  subst hx
  cases h with
  | ok h => exact ⟨_, rfl, h⟩

theorem bind {x : Except ε α} {y : Except ε β} {f : α → Except ε α'} {g : β → Except ε β'}
    (h : Alike E R x y) (hfg : ∀ a b, R a b → Alike E S (f a) (g b)) :
    Alike E S (x >>= f) (y >>= g) := by
  cases h with
  | ok h => exact hfg _ _ h
  | error h => exact .error h

theorem map {x : Except ε α} {y : Except ε β} {f : α → α'} {g : β → β'}
    (h : Alike E R x y) (hfg : ∀ a b, R a b → S (f a) (g b)) : Alike E S (x.map f) (y.map g) := by
  cases h with
  | ok h => exact .ok (hfg _ _ h)
  | error h => exact .error h

theorem mapM {f : α → Except ε α'} {g : β → Except ε β'} {xs : List α} {ys : List β}
    (h : List.Forall₂ (fun x y => Alike E S (f x) (g y)) xs ys) :
    Alike E (List.Forall₂ S) (xs.mapM f) (ys.mapM g) := by
  induction h with
  | nil => exact .ok .nil
  | cons hxy _ ih =>
    rw [List.mapM_cons, List.mapM_cons]
    exact hxy.bind fun a b hab => ih.bind fun as bs habs => .ok (.cons hab habs)

/-- A fold whose steps keep outcomes alike. -/
theorem foldlM {f : α' → α → Except ε α'} {g : β' → β → Except ε β'} {xs : List α} {ys : List β}
    (h : List.Forall₂ R xs ys)
    (hstep : ∀ a b x y, S a b → R x y → Alike E S (f a x) (g b y)) {a : α'} {b : β'} (hab : S a b) :
    Alike E S (xs.foldlM f a) (ys.foldlM g b) := by
  induction h generalizing a b with
  | nil => exact .ok hab
  | cons hxy _ ih =>
    rw [List.foldlM_cons, List.foldlM_cons]
    exact (hstep _ _ _ _ hab hxy).bind fun _ _ => ih

end Alike

end Polyglot.Traversal
