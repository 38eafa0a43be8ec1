import HostDecl.TypeScript.Reserved
import Mathlib.Data.List.Nodup

/-!
# Escaped names

An identifier is escaped by a mark in front of it if it is a reserved word, and not otherwise. The mark begins
with an underscore, and no reserved word does; so what was escaped is no reserved word and is not escaped again.

**What is lost** (`escaped_alike_iff`): two different identifiers are escaped to one text exactly if they clash,
that is one is a reserved word and the other one is that word with the mark. So the identifiers of a list stay
apart exactly if they were apart and no two of them clash.

**What it does not establish.** An escaped identifier is not reserved; it need not be an identifier otherwise.
Nothing is asked of the texts.
-/

namespace HostDecl.TypeScript

/-! ## Reserved words and the mark -/

theorem isReserved_iff {word : String} : isReserved word = true ↔ word ∈ reservedWords := decide_eq_true_iff

/-- No reserved word begins as the mark does. -/
theorem head?_ne_of_reserved : ∀ word ∈ reservedWords, word.toList.head? ≠ some '_' := by decide

/-- Nothing with the mark in front is reserved. -/
theorem marked_not_mem (word : String) : "__" ++ word ∉ reservedWords := by
  intro reserved
  have first : ("__" ++ word).toList.head? = some '_' := by
    rw [String.toList_append]
    rfl
  exact head?_ne_of_reserved _ reserved first

theorem escapeReserved_of_mem {identifier : String} (reserved : identifier ∈ reservedWords) :
    escapeReserved identifier = "__" ++ identifier := if_pos (isReserved_iff.mpr reserved)

theorem escapeReserved_of_not_mem {identifier : String} (free : identifier ∉ reservedWords) :
    escapeReserved identifier = identifier := if_neg (mt isReserved_iff.mp free)

/-! ## Escaping -/

theorem escapeReserved_not_mem (identifier : String) : escapeReserved identifier ∉ reservedWords := by
  by_cases reserved : identifier ∈ reservedWords
  · rw [escapeReserved_of_mem reserved]
    exact marked_not_mem identifier
  · rw [escapeReserved_of_not_mem reserved]
    exact reserved

/-- The identifiers that are left alone are the free ones. -/
theorem escapeReserved_eq_self_iff {identifier : String} :
    escapeReserved identifier = identifier ↔ identifier ∉ reservedWords :=
  ⟨fun kept => kept ▸ escapeReserved_not_mem identifier, escapeReserved_of_not_mem⟩

/-- One of two identifiers is a reserved word, and the other one is that word with the mark. -/
def Clash (a b : String) : Prop :=
  ∃ word ∈ reservedWords, (a = word ∧ b = "__" ++ word) ∨ (a = "__" ++ word ∧ b = word)

instance (a b : String) : Decidable (Clash a b) :=
  inferInstanceAs
    (Decidable (∃ word ∈ reservedWords, (a = word ∧ b = "__" ++ word) ∨ (a = "__" ++ word ∧ b = word)))

/-- Identifiers that clash are escaped to one text. -/
theorem Clash.escapeReserved_eq {a b : String} (clash : Clash a b) :
    escapeReserved a = escapeReserved b := by
  obtain ⟨word, reserved, sides⟩ := clash
  have alike : escapeReserved word = escapeReserved ("__" ++ word) := by
    rw [escapeReserved_of_mem reserved, escapeReserved_of_not_mem (marked_not_mem word)]
  rcases sides with ⟨rfl, rfl⟩ | ⟨rfl, rfl⟩
  · exact alike
  · exact alike.symm

/-- Identifiers that clash are different, as one of them is reserved and the other one is free. -/
theorem Clash.ne {a b : String} (clash : Clash a b) : a ≠ b := by
  rintro rfl
  obtain ⟨word, reserved, ⟨rfl, marked⟩ | ⟨marked, rfl⟩⟩ := clash
  · exact marked_not_mem _ (marked ▸ reserved)
  · exact marked_not_mem _ (marked ▸ reserved)

/-- **The fibres of escaping.** Apart from an identifier itself, only one that it clashes with is escaped to the
same text. -/
theorem escapeReserved_eq_iff {a b : String} :
    escapeReserved a = escapeReserved b ↔ a = b ∨ Clash a b := by
  constructor
  · intro same
    by_cases reserved : a ∈ reservedWords <;> by_cases reserved' : b ∈ reservedWords
    · rw [escapeReserved_of_mem reserved, escapeReserved_of_mem reserved'] at same
      exact .inl ((String.append_right_inj "__").mp same)
    · rw [escapeReserved_of_mem reserved, escapeReserved_of_not_mem reserved'] at same
      exact .inr ⟨a, reserved, .inl ⟨rfl, same.symm⟩⟩
    · rw [escapeReserved_of_not_mem reserved, escapeReserved_of_mem reserved'] at same
      exact .inr ⟨b, reserved', .inr ⟨same, rfl⟩⟩
    · rw [escapeReserved_of_not_mem reserved, escapeReserved_of_not_mem reserved'] at same
      exact .inl same
  · rintro (rfl | clash)
    · rfl
    · exact clash.escapeReserved_eq

/-! ## Lists of identifiers -/

/-- Escaping free words changes nothing. -/
theorem map_escapeReserved_eq_self {words : List String} (free : ∀ word ∈ words, word ∉ reservedWords) :
    words.map escapeReserved = words :=
  (List.map_congr_left fun word mem => escapeReserved_eq_self_iff.mpr (free word mem)).trans (List.map_id _)

/-- Identifiers stay apart exactly if they were apart and no two of them clash. -/
theorem nodup_map_escapeReserved_iff {identifiers : List String} :
    (identifiers.map escapeReserved).Nodup ↔
      identifiers.Nodup ∧ ∀ a ∈ identifiers, ∀ b ∈ identifiers, ¬Clash a b := by
  constructor
  · intro apart
    have injective := List.inj_on_of_nodup_map apart
    refine ⟨.of_map _ apart, fun a first b second clash => ?_⟩
    exact clash.ne (injective first second clash.escapeReserved_eq)
  · rintro ⟨apart, peaceful⟩
    refine apart.map_on fun a first b second same => ?_
    exact (escapeReserved_eq_iff.mp same).resolve_right (peaceful a first b second)

/-- **Escaped identifiers, and which of them are alike.** Whatever the identifiers of a list are, none of them
is a reserved word once it is escaped, and to escape all of them again changes nothing. Two different ones are
escaped to one text exactly if they clash; so all of them stay apart exactly if they were apart and no two of
them clash. -/
theorem escaped_alike_iff (identifiers : List String) :
    (∀ word ∈ identifiers.map escapeReserved, isReserved word = false) ∧
    (identifiers.map escapeReserved).map escapeReserved = identifiers.map escapeReserved ∧
    (∀ a ∈ identifiers, ∀ b ∈ identifiers, a ≠ b →
      (escapeReserved a = escapeReserved b ↔ Clash a b)) ∧
    ((identifiers.map escapeReserved).Nodup ↔
      identifiers.Nodup ∧ ∀ a ∈ identifiers, ∀ b ∈ identifiers, ¬Clash a b) := by
  have free : ∀ word ∈ identifiers.map escapeReserved, word ∉ reservedWords :=
    List.forall_mem_map.mpr fun identifier _ => escapeReserved_not_mem identifier
  refine ⟨fun word mem => ?_, map_escapeReserved_eq_self free, fun a _ b _ different => ?_,
    nodup_map_escapeReserved_iff⟩
  · exact Bool.eq_false_iff.mpr (mt isReserved_iff.mp (free word mem))
  · exact escapeReserved_eq_iff.trans (or_iff_right different)

/-- A reserved word and its escaped form do not stay apart. With more underscores they do. -/
theorem escaped_alike_iff_class :
    let identifiers := ["class", "Class", "__class", "fooBar"]
    "class" ∈ identifiers ∧ "__class" ∈ identifiers ∧ "class" ≠ "__class" ∧
      escapeReserved "class" = escapeReserved "__class" ∧
      ¬(identifiers.map escapeReserved).Nodup ∧
      (["class", "Class", "____class", "fooBar"].map escapeReserved).Nodup := by
  intro identifiers
  have word : "class" ∈ identifiers := by decide
  have marked : "__class" ∈ identifiers := by decide
  have clash : Clash "class" "__class" := by decide
  obtain ⟨-, -, alike, apart⟩ := escaped_alike_iff identifiers
  obtain ⟨-, -, -, others⟩ := escaped_alike_iff ["class", "Class", "____class", "fooBar"]
  refine ⟨word, marked, by decide, ?_, fun distinct => ?_, others.mpr ⟨by decide, by decide⟩⟩
  · exact (alike "class" word "__class" marked (by decide)).mpr clash
  · exact (apart.mp distinct).2 "class" word "__class" marked clash

end HostDecl.TypeScript
