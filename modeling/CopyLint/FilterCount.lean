/-! How many members of a list pass a test: searches stop because this number falls. -/
namespace CopyLint

theorem length_filter_le_of_imp {α : Type} {p q : α → Bool} {xs : List α}
    (h : ∀ x ∈ xs, p x → q x) : (xs.filter p).length ≤ (xs.filter q).length := by
  simpa [List.countP_eq_length_filter] using List.countP_mono_left h

theorem length_filter_lt_of_imp {α : Type} {p q : α → Bool} {a : α} (hq : q a) (hp : ¬p a) :
    ∀ {xs : List α}, a ∈ xs → (∀ x ∈ xs, p x → q x) →
      (xs.filter p).length < (xs.filter q).length
  | x :: xs, ha, h => by
    have htail : ∀ y ∈ xs, p y → q y := fun y hy => h y (List.mem_cons_of_mem x hy)
    have hle := length_filter_le_of_imp htail
    have hx := h x List.mem_cons_self
    rcases List.mem_cons.mp ha with rfl | ha
    · simp [hp, hq]
      omega
    · have ih := length_filter_lt_of_imp hq hp ha htail
      by_cases hpx : p x
      · simp [hpx, hx hpx, ih]
      · by_cases hqx : q x
        · simp [hpx, hqx]
          omega
        · simp [hpx, hqx, ih]

end CopyLint
