import Mathlib.Data.List.Forall2
import Mathlib.Tactic.Lemma

/-!
Going through lists. What is made of a list element by element is related to it row by row. Where a
step can fail there are results only if it failed at no element, and then they are those of the
steps.
-/
namespace EdgeScan

variable {ε α β γ : Type}

/-! Rows -/

lemma exists_of_mem_right {R : α → β → Prop} {l : List α} {bs : List β} (h : List.Forall₂ R l bs) :
    ∀ b ∈ bs, ∃ a ∈ l, R a b := by
  induction h with
  | nil => simp
  | cons hab _ ih =>
    refine List.forall_mem_cons.mpr ⟨⟨_, List.mem_cons_self, hab⟩, fun y hy => ?_⟩
    obtain ⟨x, hx, hR⟩ := ih y hy
    exact ⟨x, List.mem_cons_of_mem _ hx, hR⟩

lemma exists_of_mem_left {R : α → β → Prop} {l : List α} {bs : List β} (h : List.Forall₂ R l bs) :
    ∀ a ∈ l, ∃ b ∈ bs, R a b :=
  exists_of_mem_right h.flip

lemma forall₂_iff_eq_map {R : α → β → Prop} {f : α → β} (h : ∀ a b, R a b ↔ b = f a) {l : List α}
    {bs : List β} : List.Forall₂ R l bs ↔ bs = l.map f := by
  induction l generalizing bs with
  | nil => simp
  | cons a l ih => simp [List.forall₂_cons_left_iff, h, ih]

/-! Steps that can fail -/

lemma bind_eq_ok_iff {x : Except ε α} {f : α → Except ε β} {b : β} :
    (do f (← x)) = .ok b ↔ ∃ a, x = .ok a ∧ f a = .ok b := by
  cases x <;> simp [bind, Except.bind]

lemma mapError_eq_ok_iff {x : Except ε α} {f : ε → β} {a : α} :
    x.mapError f = .ok a ↔ x = .ok a := by
  cases x with
  | error e => exact iff_of_false nofun nofun
  | ok b =>
    change (Except.ok b : Except β α) = .ok a ↔ _
    rw [Except.ok.injEq, Except.ok.injEq]

lemma mapError_eq_error_iff {x : Except ε α} {f : ε → β} {b : β} :
    x.mapError f = .error b ↔ ∃ e, x = .error e ∧ f e = b := by
  cases x <;> simp [Except.mapError]

lemma ite_error_eq_ok_iff {c : Prop} [Decidable c] {e : ε} {x : Except ε α} {a : α} :
    (if c then .error e else x) = .ok a ↔ ¬c ∧ x = .ok a := by
  by_cases h : c <;> simp [h]

theorem forall₂_of_mapM_eq_ok {read : α → Except ε β} {l : List α} {bs : List β}
    (h : l.mapM read = .ok bs) : List.Forall₂ (fun a b => read a = .ok b) l bs := by
  induction l generalizing bs with
  | nil =>
    rw [← Except.ok.inj h]
    exact .nil
  | cons a l ih =>
    rw [List.mapM_cons, bind_eq_ok_iff] at h
    obtain ⟨b, first, h⟩ := h
    obtain ⟨rest, others, h⟩ := bind_eq_ok_iff.mp h
    rw [← Except.ok.inj h]
    exact .cons first (ih others)

theorem mapM_eq_ok_of_forall₂ {read : α → Except ε β} {l : List α} {bs : List β}
    (h : List.Forall₂ (fun a b => read a = .ok b) l bs) : l.mapM read = .ok bs := by
  induction h with
  | nil => rfl
  | cons first _ others =>
    rw [List.mapM_cons, first, others]
    rfl

/-- A list that cannot be read is given up at its first element that cannot. -/
theorem exists_error_of_not_forall₂ {read : α → Except ε β} {l : List α}
    (h : ¬∃ bs, List.Forall₂ (fun a b => read a = .ok b) l bs) :
    ∃ before a after e, l = before ++ a :: after ∧ (∀ x ∈ before, ∃ b, read x = .ok b) ∧
      read a = .error e ∧ l.mapM read = .error e := by
  induction l with
  | nil => exact absurd ⟨[], .nil⟩ h
  | cons a l ih =>
    cases first : read a with
    | error e =>
      refine ⟨[], a, l, e, rfl, nofun, first, ?_⟩
      rw [List.mapM_cons, first]
      rfl
    | ok b =>
      have others : ¬∃ bs, List.Forall₂ (fun a b => read a = .ok b) l bs :=
        fun ⟨bs, hbs⟩ => h ⟨b :: bs, .cons first hbs⟩
      obtain ⟨before, x, after, e, rfl, fine, error, whole⟩ := ih others
      refine ⟨a :: before, x, after, e, rfl, List.forall_mem_cons.mpr ⟨⟨b, first⟩, fine⟩, error, ?_⟩
      rw [List.mapM_cons, first, whole]
      rfl

lemma forall_mem_of_mapM_eq_ok {read : α → Except ε β} {P : β → Prop} {l : List α} {bs : List β}
    (h : l.mapM read = .ok bs) (each : ∀ a b, read a = .ok b → P b) : ∀ b ∈ bs, P b := by
  intro b hb
  obtain ⟨a, -, ha⟩ := exists_of_mem_right (forall₂_of_mapM_eq_ok h) b hb
  exact each a b ha

/-- A fold that reads an item in each step reads all of them first. -/
theorem foldlM_eq_mapM_bind (read : α → Except ε β) (step : γ → β → γ) (l : List α) (c : γ) :
    l.foldlM (fun c a => return step c (← read a)) c =
      (do let read ← l.mapM read; return read.foldl step c) := by
  induction l generalizing c with
  | nil => rfl
  | cons a l ih =>
    simp only [List.foldlM_cons, List.mapM_cons, bind_assoc, pure_bind, ih, List.foldl_cons]

end EdgeScan
