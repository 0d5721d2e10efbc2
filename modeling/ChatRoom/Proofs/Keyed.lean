import Mathlib.Data.List.Nodup

/-!
# Lists with keys

A list whose elements have different keys holds at most one element of a key, so a search by key
does not depend on the order of the list (`find?_key_perm`).
-/

namespace ChatRoom

variable {α κ : Type} [DecidableEq κ] {key : α → κ} {l : List α}

theorem find?_key_eq_some_iff (h : (l.map key).Nodup) {a : α} {k : κ} :
    l.find? (fun x => key x = k) = some a ↔ a ∈ l ∧ key a = k := by
  constructor
  · intro hf
    exact ⟨List.mem_of_find?_eq_some hf, by simpa using List.find?_some hf⟩
  · rintro ⟨hm, rfl⟩
    obtain ⟨b, hb⟩ : ∃ b, l.find? (fun x => key x = key a) = some b :=
      Option.isSome_iff_exists.1 (List.find?_isSome.2 ⟨a, hm, by simp⟩)
    have hk : key b = key a := by simpa using List.find?_some hb
    rw [hb, List.inj_on_of_nodup_map h (List.mem_of_find?_eq_some hb) hm hk]

/-- A search by key does not depend on the order. -/
theorem find?_key_perm (h : (l.map key).Nodup) {l' : List α} (hp : l'.Perm l) (k : κ) :
    l'.find? (fun x => key x = k) = l.find? (fun x => key x = k) := by
  have h' : (l'.map key).Nodup := (hp.map key).nodup_iff.2 h
  refine Option.ext fun a => ?_
  rw [find?_key_eq_some_iff h', find?_key_eq_some_iff h, hp.mem_iff]

end ChatRoom
