import Mathlib
import TaskRelay.Json.Members

/-!
# Members in the order of their names

Names are compared as lists of bytes. Setting members one after the other keeps them in this order,
each name once, with the value that was set last. Members in order are known from what is found
among them.
-/

namespace TaskRelay.Text

theorem bytes_injective {s t : String} (h : bytes s = bytes t) : s = t := by
  apply String.toByteArray_inj.mp
  apply ByteArray.ext
  exact Array.toList_inj.mp h

/-- The order of bytes is the lexicographic one. -/
theorem bytesBefore_iff (as bs : List UInt8) : bytesBefore as bs ↔ as < bs := by
  induction as generalizing bs with
  | nil =>
    cases bs with
    | nil => exact iff_of_false Bool.false_ne_true (List.not_lt_nil _)
    | cons b bs => exact iff_of_true rfl (List.nil_lt_cons b bs)
  | cons a as ih =>
    cases bs with
    | nil => exact iff_of_false Bool.false_ne_true (List.not_lt_nil _)
    | cons b bs =>
      rw [bytesBefore, List.cons_lt_cons_iff, UInt8.lt_iff_toNat_lt, ← ih]
      simp only [Bool.or_eq_true, Bool.and_eq_true, decide_eq_true_eq, beq_iff_eq]

theorem before_iff (s t : String) : before s t ↔ bytes s < bytes t := bytesBefore_iff _ _

end TaskRelay.Text

namespace TaskRelay.Json

open Text

variable {α : Type} {k : String} {v : α} {m n : List (String × α)}

/-- The names are in the order of their bytes, each once. -/
def Ordered (m : List (String × α)) : Prop := m.Pairwise fun p q => bytes p.1 < bytes q.1

/-! ## Setting a member -/

theorem mem_of_mem_insertMember {p : String × α} (h : p ∈ insertMember k v m) :
    p = (k, v) ∨ p ∈ m := by
  induction m with
  | nil => exact .inl (List.mem_singleton.mp h)
  | cons q m ih =>
    rw [insertMember] at h
    split_ifs at h
    · exact (List.mem_cons.mp h).imp_right (List.mem_cons_of_mem _)
    · exact List.mem_cons.mp h
    · rcases List.mem_cons.mp h with h | h
      · exact .inr (h ▸ List.mem_cons_self ..)
      · exact (ih h).imp_right (List.mem_cons_of_mem _)

theorem Ordered.insertMember (h : Ordered m) (k : String) (v : α) :
    Ordered (insertMember k v m) := by
  induction m with
  | nil => exact List.pairwise_singleton _ _
  | cons q m ih =>
    obtain ⟨hq, hm⟩ := List.pairwise_cons.mp h
    rw [Json.insertMember]
    split_ifs with heq hlt
    · subst heq
      exact List.pairwise_cons.mpr ⟨hq, hm⟩
    · have hkq := (before_iff _ _).mp hlt
      apply List.pairwise_cons.mpr
      refine ⟨fun p hp => ?_, h⟩
      rcases List.mem_cons.mp hp with rfl | hp
      · exact hkq
      · exact List.lt_trans hkq (hq p hp)
    · have hqk : bytes q.1 < bytes k := by
        rcases Std.lt_trichotomy (bytes q.1) (bytes k) with h' | h' | h'
        · exact h'
        · exact absurd (bytes_injective h').symm heq
        · exact absurd ((before_iff _ _).mpr h') hlt
      apply List.pairwise_cons.mpr
      refine ⟨fun p hp => ?_, ih hm⟩
      rcases mem_of_mem_insertMember hp with rfl | hp
      · exact hqk
      · exact hq p hp

theorem member?_cons (l : String) (q : String × α) (m : List (String × α)) :
    member? l (q :: m) = if l = q.1 then some q.2 else member? l m := rfl

/-- The value that was set last is found. -/
theorem member?_insertMember (k : String) (v : α) (m : List (String × α)) (l : String) :
    member? l (insertMember k v m) = if l = k then some v else member? l m := by
  induction m with
  | nil => rfl
  | cons q m ih =>
    rw [insertMember]
    by_cases hkq : k = q.1
    · subst hkq
      rw [if_pos rfl, member?_cons, member?_cons]
      by_cases hl : l = q.1
      · rw [if_pos hl, if_pos hl]
      · rw [if_neg hl, if_neg hl, if_neg hl]
    · rw [if_neg hkq]
      split
      · rfl
      · rw [member?_cons, member?_cons, ih]
        by_cases hl : l = q.1
        · have hne : l ≠ k := fun h => hkq (h.symm.trans hl)
          rw [if_pos hl, if_neg hne, if_pos hl]
        · rw [if_neg hl, if_neg hl]

/-! ## Members in order -/

theorem Ordered.nodup (h : Ordered m) : (m.map Prod.fst).Nodup := by
  apply List.pairwise_map.mpr
  refine h.imp fun hpq heq => ?_
  rw [heq] at hpq
  exact List.lt_irrefl _ hpq

theorem Ordered.mem_iff (h : Ordered m) : (k, v) ∈ m ↔ member? k m = some v := by
  induction m with
  | nil => exact iff_of_false List.not_mem_nil (Option.some_ne_none v).symm
  | cons q m ih =>
    obtain ⟨hq, hm⟩ := List.pairwise_cons.mp h
    rw [member?_cons, List.mem_cons]
    by_cases hk : k = q.1
    · have hnot : (k, v) ∉ m := fun hmem => by
        have hlt := hq _ hmem
        rw [hk] at hlt
        exact List.lt_irrefl _ hlt
      rw [if_pos hk, Option.some_inj, or_iff_left hnot, Prod.ext_iff, and_iff_right hk, eq_comm]
    · have hne : (k, v) ≠ q := fun heq => hk (congrArg Prod.fst heq)
      rw [if_neg hk, or_iff_right hne, ih hm]

/-- Members in order are the same if the same values are found among them. -/
theorem Ordered.eq_of_member? (hm : Ordered m) (hn : Ordered n)
    (h : ∀ k, member? k m = member? k n) : m = n := by
  have hperm : m.Perm n := by
    apply (List.perm_ext_iff_of_nodup (List.Nodup.of_map _ hm.nodup)
      (List.Nodup.of_map _ hn.nodup)).mpr
    rintro ⟨k, v⟩
    rw [hm.mem_iff, hn.mem_iff, h]
  refine hperm.eq_of_pairwise (fun p q _ _ hpq hqp => ?_) hm hn
  exact absurd hqp (List.lt_asymm hpq)

end TaskRelay.Json
