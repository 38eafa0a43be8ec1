import Mathlib.Data.List.Induction
import Mathlib.Data.List.Nodup

/-!
# First occurrences

A list without its repetitions keeps of equal elements the first one. What is recorded once, in the order
in which it came up first, is such a list.
-/

namespace HostDecl

variable {α : Type} [BEq α] [LawfulBEq α]

/-- An element at the end is kept unless it stands before. -/
theorem eraseDups_concat [DecidableEq α] (list : List α) (last : α) :
    (list ++ [last]).eraseDups =
      if last ∈ list then list.eraseDups else list.eraseDups ++ [last] := by
  rw [List.eraseDups_append]
  split
  next mem => simp [List.removeAll, mem]
  next fresh => simp [List.removeAll, fresh, List.eraseDups_cons]

theorem nodup_eraseDups [DecidableEq α] (list : List α) : list.eraseDups.Nodup := by
  induction list using List.reverseRecOn with
  | nil => exact List.nodup_nil
  | append_singleton list last ih =>
    rw [eraseDups_concat]
    split
    next => exact ih
    next fresh =>
      refine List.nodup_append.mpr ⟨ih, List.nodup_singleton _, ?_⟩
      rintro a mem _ single rfl
      cases List.mem_singleton.mp single
      exact fresh (List.mem_eraseDups.mp mem)

/-- One element is left, at most, of a list whose elements are all equal. -/
theorem length_eraseDups_le_one_iff [DecidableEq α] {list : List α} :
    list.eraseDups.length ≤ 1 ↔ ∀ a ∈ list, ∀ b ∈ list, a = b := by
  constructor
  · intro short a first b second
    rw [← List.mem_eraseDups] at first second
    match kept : list.eraseDups with
    | [] =>
      rw [kept] at first
      cases first
    | [c] =>
      rw [kept] at first second
      rw [List.mem_singleton.mp first, List.mem_singleton.mp second]
    | c :: d :: rest =>
      rw [kept] at short
      simp at short
  · intro same
    match kept : list.eraseDups with
    | [] => exact Nat.zero_le 1
    | [c] => exact Nat.le_refl 1
    | c :: d :: rest =>
      have distinct := nodup_eraseDups list
      have among : ∀ e ∈ list.eraseDups, e ∈ list := fun e => List.mem_eraseDups.mp
      rw [kept] at distinct among
      have equal := same c (among c (by simp)) d (among d (by simp))
      exact absurd equal (by simp at distinct; exact distinct.1.1)

end HostDecl
