/-! # Steps that may fail

Evaluation, symbolic differentiation and the checks of a brick are `do` blocks in `Except`:
these rewrite a bind whose first step is known, and invert a bind that succeeded into the
success of both steps. -/

namespace Elasto

@[simp] theorem except_ok_bind {ε α β : Type} (a : α) (f : α → Except ε β) :
    (Except.ok a >>= f) = f a := rfl

@[simp] theorem except_error_bind {ε α β : Type} (e : ε) (f : α → Except ε β) :
    (Except.error e >>= f) = .error e := rfl

@[simp] theorem except_pure {ε α : Type} (a : α) : (pure a : Except ε α) = .ok a := rfl

theorem except_bind_eq_ok {ε α β : Type} {x : Except ε α} {f : α → Except ε β} {b : β} :
    (x >>= f) = .ok b ↔ ∃ a, x = .ok a ∧ f a = .ok b := by
  cases x <;> simp

theorem except_map_eq_ok {ε α β : Type} {x : Except ε α} {f : α → β} {b : β} :
    (f <$> x) = .ok b ↔ ∃ a, x = .ok a ∧ f a = b := by
  cases x <;> simp [Functor.map, Except.map]

theorem except_bind_eq_error {ε α β : Type} {x : Except ε α} {f : α → Except ε β} {e : ε} :
    (x >>= f) = .error e ↔ x = .error e ∨ ∃ a, x = .ok a ∧ f a = .error e := by
  cases x <;> simp

theorem except_map_eq_error {ε α β : Type} {x : Except ε α} {f : α → β} {e : ε} :
    (f <$> x) = .error e ↔ x = .error e := by
  cases x <;> simp [Functor.map, Except.map]

theorem except_bind_pure_eq_ok {ε α β : Type} {x : Except ε α} {f : α → β} {b : β} :
    (x >>= fun a => pure (f a)) = .ok b ↔ ∃ a, x = .ok a ∧ f a = b := by
  cases x <;> simp

theorem except_bind_pure_ok_iff {ε α β : Type} {x : Except ε α} {f : α → β} :
    (∃ b, (x >>= fun a => pure (f a)) = .ok b) ↔ ∃ a, x = .ok a := by
  cases x <;> simp

theorem except_bind₂_pure_ok_iff {ε α β γ : Type} {x : Except ε α} {y : Except ε β}
    {f : α → β → γ} :
    (∃ c, (x >>= fun a => y >>= fun b => pure (f a b)) = .ok c) ↔
      (∃ a, x = .ok a) ∧ ∃ b, y = .ok b := by
  cases x <;> cases y <;> simp

theorem except_bind₂_pure_eq_ok {ε α β γ : Type} {x : Except ε α} {y : Except ε β}
    {f : α → β → γ} {c : γ} :
    (x >>= fun a => y >>= fun b => pure (f a b)) = .ok c ↔
      ∃ a, x = .ok a ∧ ∃ b, y = .ok b ∧ f a b = c := by
  cases x <;> cases y <;> simp

/-- A value mapped out of a step on one operand is read off the operand's value: whatever
gives the same operation on that value gives the same mapped value. -/
theorem except_map_bind_pure_of_ok {ε α γ δ : Type} {x : Except ε α} {f : α → γ} {g : γ → δ}
    {r : Except ε γ} {v : δ} (h : (g <$> (x >>= fun a => pure (f a))) = .ok v)
    (hr : ∀ a, x = .ok a → r = .ok (f a)) : g <$> r = .ok v := by
  obtain ⟨_, hx, rfl⟩ := except_map_eq_ok.mp h
  obtain ⟨a, ha, rfl⟩ := except_bind_pure_eq_ok.mp hx
  rw [hr a ha]
  rfl

theorem except_map_bind₂_pure_of_ok {ε α β γ δ : Type} {x : Except ε α} {y : Except ε β}
    {f : α → β → γ} {g : γ → δ} {r : Except ε γ} {v : δ}
    (h : (g <$> (x >>= fun a => y >>= fun b => pure (f a b))) = .ok v)
    (hr : ∀ a b, x = .ok a → y = .ok b → r = .ok (f a b)) : g <$> r = .ok v := by
  obtain ⟨_, hxy, rfl⟩ := except_map_eq_ok.mp h
  obtain ⟨a, ha, b, hb, rfl⟩ := except_bind₂_pure_eq_ok.mp hxy
  rw [hr a b ha hb]
  rfl

theorem except_bind_exists_ok {ε α β : Type} {x : Except ε α} {f : α → Except ε β}
    (hx : ∃ a, x = .ok a) (hf : ∀ a, ∃ b, f a = .ok b) : ∃ b, (x >>= f) = .ok b := by
  obtain ⟨a, rfl⟩ := hx
  exact hf a

theorem except_mapM_ok {ε α β : Type} {f : α → Except ε β} :
    ∀ {xs : List α}, (∀ a ∈ xs, ∃ b, f a = .ok b) → ∃ bs, xs.mapM f = .ok bs
  | [], _ => ⟨[], rfl⟩
  | a :: as, h => by
    obtain ⟨b, hb⟩ := h a List.mem_cons_self
    obtain ⟨bs, hbs⟩ := except_mapM_ok fun a' ha' => h a' (List.mem_cons_of_mem _ ha')
    exact ⟨b :: bs, by simp [List.mapM_cons, hb, hbs]⟩

theorem except_mapM_eq_ok {ε α β : Type} {f : α → Except ε β} :
    ∀ {xs : List α} {ys : List β}, xs.mapM f = .ok ys →
      (∀ y ∈ ys, ∃ x ∈ xs, f x = .ok y) ∧ ∀ x ∈ xs, ∃ y ∈ ys, f x = .ok y
  | [], ys, h => by
    obtain rfl : [] = ys := Except.ok.inj h
    simp
  | a :: as, ys, h => by
    simp only [List.mapM_cons, except_bind_eq_ok, except_pure, Except.ok.injEq] at h
    obtain ⟨b, hb, bs, hbs, rfl⟩ := h
    obtain ⟨hfrom, hto⟩ := except_mapM_eq_ok hbs
    refine ⟨fun y hy => ?_, fun x hx => ?_⟩
    · rcases List.mem_cons.mp hy with rfl | hy
      · exact ⟨a, List.mem_cons_self, hb⟩
      · obtain ⟨x, hx, hfx⟩ := hfrom y hy
        exact ⟨x, List.mem_cons_of_mem a hx, hfx⟩
    · rcases List.mem_cons.mp hx with rfl | hx
      · exact ⟨b, List.mem_cons_self, hb⟩
      · obtain ⟨y, hy, hfy⟩ := hto x hx
        exact ⟨y, List.mem_cons_of_mem b hy, hfy⟩

theorem except_mapM_ok_iff {ε α β : Type} {f : α → Except ε β} {xs : List α} :
    (∃ bs, xs.mapM f = .ok bs) ↔ ∀ a ∈ xs, ∃ b, f a = .ok b := by
  refine ⟨fun ⟨_, h⟩ a ha => ?_, except_mapM_ok⟩
  obtain ⟨b, -, hb⟩ := (except_mapM_eq_ok h).2 a ha
  exact ⟨b, hb⟩

theorem except_mapM_map_eq {ε α β γ : Type} {f : α → Except ε β} {g : β → γ} {h : α → γ}
    (hfg : ∀ x y, f x = .ok y → g y = h x) :
    ∀ {xs : List α} {ys : List β}, xs.mapM f = .ok ys → ys.map g = xs.map h
  | [], ys, hm => by
    obtain rfl : [] = ys := Except.ok.inj hm
    rfl
  | a :: as, ys, hm => by
    simp only [List.mapM_cons, except_bind_eq_ok, except_pure, Except.ok.injEq] at hm
    obtain ⟨b, hb, bs, hbs, rfl⟩ := hm
    rw [List.map_cons, List.map_cons, hfg a b hb, except_mapM_map_eq hfg hbs]

theorem except_forM_eq_ok {ε α : Type} {f : α → Except ε Unit} :
    ∀ {xs : List α}, xs.forM f = .ok () ↔ ∀ x ∈ xs, f x = .ok ()
  | [] => by simp [List.forM]
  | a :: as => by
    rw [List.forM, except_bind_eq_ok, List.forall_mem_cons, ← except_forM_eq_ok]
    constructor
    · rintro ⟨⟨⟩, ha, has⟩
      exact ⟨ha, has⟩
    · rintro ⟨ha, has⟩
      exact ⟨(), ha, has⟩

theorem except_forM_eq_error {ε α : Type} {f : α → Except ε Unit} {e : ε} :
    ∀ {xs : List α}, xs.forM f = .error e ↔
      ∃ pre x post, xs = pre ++ x :: post ∧ (∀ y ∈ pre, f y = .ok ()) ∧ f x = .error e
  | [] => by simp [List.forM]
  | a :: as => by
    rw [List.forM, except_bind_eq_error, except_forM_eq_error]
    constructor
    · rintro (ha | ⟨⟨⟩, ha, pre, x, post, rfl, hpre, hx⟩)
      · exact ⟨[], a, as, rfl, by simp, ha⟩
      · exact ⟨a :: pre, x, post, rfl, List.forall_mem_cons.mpr ⟨ha, hpre⟩, hx⟩
    · rintro ⟨_ | ⟨b, pre⟩, x, post, h, hpre, hx⟩
      · obtain ⟨rfl, rfl⟩ := List.cons_eq_cons.mp h
        exact .inl hx
      · obtain ⟨rfl, rfl⟩ := List.cons_eq_cons.mp h
        obtain ⟨hb, hpre⟩ := List.forall_mem_cons.mp hpre
        exact .inr ⟨(), hb, pre, x, post, rfl, hpre, hx⟩

end Elasto
