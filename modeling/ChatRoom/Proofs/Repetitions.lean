import Mathlib.Data.List.Nodup

/-!
# Lists without repetitions

What is left of a list when of each element only the first occurrence is kept (`KeepsFirst`). There
is one such list, and `List.eraseDups` is it (`keepsFirst_iff`).
-/

namespace ChatRoom

variable {α : Type} [DecidableEq α] {l kept : List α}

/-- `kept` is `l` without repetitions: the same elements, each once, in the order in which they
first occur. -/
structure KeepsFirst (l kept : List α) : Prop where
  mem_iff : ∀ a, a ∈ kept ↔ a ∈ l
  ordered : kept.Pairwise fun a b => l.idxOf a < l.idxOf b

theorem KeepsFirst.nodup (h : KeepsFirst l kept) : kept.Nodup :=
  h.ordered.imp fun {a b} (hlt : l.idxOf a < l.idxOf b) (heq : a = b) =>
    Nat.lt_irrefl _ (heq ▸ hlt)

theorem idxOf_lt_of_filter {p : α → Bool} {a b : α} (ha : p a = true) (hb : p b = true)
    (h : (l.filter p).idxOf a < (l.filter p).idxOf b) : l.idxOf a < l.idxOf b := by
  induction l with
  | nil => exact absurd h (Nat.lt_irrefl _)
  | cons x l ih =>
    by_cases hx : p x = true
    · rw [List.filter_cons_of_pos hx] at h
      by_cases hxb : x = b
      · rw [hxb, List.idxOf_cons_self] at h
        exact absurd h (Nat.not_lt_zero _)
      · rw [List.idxOf_cons_ne _ hxb] at h ⊢
        by_cases hxa : x = a
        · rw [hxa, List.idxOf_cons_self]
          exact Nat.succ_pos _
        · rw [List.idxOf_cons_ne _ hxa] at h ⊢
          exact Nat.succ_lt_succ (ih (Nat.lt_of_succ_lt_succ h))
    · have hxa : x ≠ a := fun hxa => hx (hxa ▸ ha)
      have hxb : x ≠ b := fun hxb => hx (hxb ▸ hb)
      rw [List.filter_cons_of_neg hx] at h
      rw [List.idxOf_cons_ne _ hxa, List.idxOf_cons_ne _ hxb]
      exact Nat.succ_lt_succ (ih h)

theorem keepsFirst_eraseDups : (l : List α) → KeepsFirst l l.eraseDups
  | [] => ⟨by simp, List.Pairwise.nil⟩
  | a :: l => by
    have h := keepsFirst_eraseDups (l.filter fun b => !b == a)
    refine ⟨fun b => List.mem_eraseDups, ?_⟩
    rw [List.eraseDups_cons, List.pairwise_cons]
    refine ⟨fun b hb => ?_, h.ordered.imp_of_mem fun {b c} hb hc hlt => ?_⟩
    · have hne : b ≠ a := by simpa using ((List.mem_filter.1 ((h.mem_iff b).1 hb)).2)
      rw [List.idxOf_cons_self, List.idxOf_cons_ne _ hne.symm]
      exact Nat.succ_pos _
    · have hb' := (List.mem_filter.1 ((h.mem_iff b).1 hb)).2
      have hc' := (List.mem_filter.1 ((h.mem_iff c).1 hc)).2
      have hba : b ≠ a := by simpa using hb'
      have hca : c ≠ a := by simpa using hc'
      rw [List.idxOf_cons_ne _ hba.symm, List.idxOf_cons_ne _ hca.symm]
      exact Nat.succ_lt_succ (idxOf_lt_of_filter hb' hc' hlt)
termination_by l => l.length
decreasing_by exact Nat.lt_succ_of_le (List.length_filter_le _ _)

/-- Repetitions are left out in one way. -/
theorem keepsFirst_iff : KeepsFirst l kept ↔ l.eraseDups = kept := by
  constructor
  · intro h
    have he := keepsFirst_eraseDups l
    have hperm : l.eraseDups.Perm kept :=
      (List.perm_ext_iff_of_nodup he.nodup h.nodup).2 fun a => by rw [he.mem_iff, h.mem_iff]
    refine hperm.eq_of_pairwise (fun a b _ _ hab hba => ?_) he.ordered h.ordered
    omega
  · rintro rfl
    exact keepsFirst_eraseDups l

theorem nodup_eraseDups (l : List α) : l.eraseDups.Nodup := (keepsFirst_eraseDups l).nodup

/-- A list without repetitions stays as it is. -/
theorem keepsFirst_self (h : l.Nodup) : KeepsFirst l l := by
  refine ⟨fun _ => Iff.rfl, List.pairwise_iff_getElem.2 fun i j hi hj hij => ?_⟩
  rw [h.idxOf_getElem i hi, h.idxOf_getElem j hj]
  exact hij

end ChatRoom
