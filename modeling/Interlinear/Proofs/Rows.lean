import Interlinear.Proofs.Outcome
import Mathlib.Data.List.Forall2

/-!
# Rows that are read one after the other

What is read from a row is a row of what its places are read as.  A row can be read where each place
can, and a reader that takes one place after the other and stops at the first fault reads just such
rows.
-/

namespace Interlinear

open Outcome

variable {ε α β : Type}

theorem exists_forall₂_iff {R : α → β → Prop} {as : List α} :
    (∃ bs, List.Forall₂ R as bs) ↔ ∀ a ∈ as, ∃ b, R a b := by
  induction as with
  | nil => simp
  | cons a as ih =>
      rw [List.forall_mem_cons, ← ih]
      simp only [List.forall₂_cons_left_iff]
      constructor
      · rintro ⟨_, b, bs, hb, hbs, -⟩
        exact ⟨⟨b, hb⟩, bs, hbs⟩
      · rintro ⟨⟨b, hb⟩, bs, hbs⟩
        exact ⟨_, b, bs, hb, hbs, rfl⟩

theorem readAll_eq_ok_iff (read : α → Except ε β) (readAll : List α → Except ε (List β))
    (hnil : readAll [] = .ok [])
    (hcons : ∀ a as, readAll (a :: as) =
      read a >>= fun b => readAll as >>= fun bs => .ok (b :: bs))
    {R : α → β → Prop} {as : List α} (h : ∀ a ∈ as, ∀ b, read a = .ok b ↔ R a b) {bs : List β} :
    readAll as = .ok bs ↔ List.Forall₂ R as bs := by
  induction as generalizing bs with
  | nil => simp [hnil, eq_comm]
  | cons a as ih =>
      obtain ⟨ha, has⟩ := List.forall_mem_cons.mp h
      rw [hcons, bind_eq_ok_iff, List.forall₂_cons_left_iff]
      simp only [bind_eq_ok_iff, ih has, ha, Except.ok.injEq]
      constructor
      · rintro ⟨b, hb, bs, hbs, rfl⟩
        exact ⟨b, bs, hb, hbs, rfl⟩
      · rintro ⟨b, bs, hb, hbs, rfl⟩
        exact ⟨b, hb, bs, hbs, rfl⟩

end Interlinear
