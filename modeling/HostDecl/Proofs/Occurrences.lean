import HostDecl.Proofs.Parts
import HostDecl.Text.Blank
import HostDecl.Text.Lines
import Mathlib.Data.List.DropRight
import Mathlib.Data.List.Infix

/-!
# How often a pair of code points stands in a text

The places at which a pair of code points stands in a text can be counted part by part: what is put
together from two texts holds what they hold, and one place more if the pair is halved by the seam
(`places_append`). So the pair that ends a comment is found by looking at the parts and the seams.

What is taken off the ends of a text hides no place if it is neither half of the pair: `places_strip`.

A text that stands in another one at no place does not occur in it (`occurrences_eq_zero_iff`).
-/

namespace HostDecl

/-! ## Places in lists -/

section Places

variable {α : Type}

/-- The seam between two lists halves a pair. -/
def Halves (x y : α) (front behind : List α) : Prop := front.getLast? = some x ∧ behind.head? = some y

theorem halves_singleton {x y item : α} {behind : List α} :
    Halves x y [item] behind ↔ item = x ∧ behind.head? = some y := by
  rw [Halves, List.getLast?_singleton, Option.some.injEq]

variable [DecidableEq α]

instance (x y : α) (front behind : List α) : Decidable (Halves x y front behind) :=
  inferInstanceAs (Decidable (_ ∧ _))

/-- The number of places at which a list stands in another one. -/
def places (part whole : List α) : Nat := whole.tails.countP part.isPrefixOf

theorem places_eq_zero_iff {part whole : List α} : places part whole = 0 ↔ ¬ part <:+: whole := by
  simp only [places, List.countP_eq_zero, List.mem_tails, List.isPrefixOf_iff_prefix,
    List.infix_iff_prefix_suffix, not_exists, not_and]
  exact forall_congr' fun _ => imp_not_comm

variable {x y : α}

theorem places_nil : places [x, y] [] = 0 := rfl

/-- An item in front makes one place more if it and the next one are the pair. -/
theorem places_cons (item : α) (list : List α) :
    places [x, y] (item :: list) =
      (if Halves x y [item] list then 1 else 0) + places [x, y] list := by
  have here : [x, y].isPrefixOf (item :: list) = true ↔ Halves x y [item] list := by
    rw [List.isPrefixOf_iff_prefix, List.cons_prefix_cons, halves_singleton, eq_comm]
    cases list <;> simp [eq_comm]
  rw [places, List.tails_cons, List.countP_cons, Nat.add_comm, places]
  simp only [here]

/-- **Places are counted part by part.** -/
theorem places_append (front behind : List α) :
    places [x, y] (front ++ behind) =
      places [x, y] front + (if Halves x y front behind then 1 else 0) + places [x, y] behind := by
  induction front with
  | nil => simp [Halves, places_nil]
  | cons item rest ih =>
    rw [List.cons_append, places_cons, places_cons, ih]
    cases rest with
    | nil => simp [Halves, places_nil]
    | cons second others =>
      have seam : Halves x y (item :: second :: others) behind ↔ Halves x y (second :: others) behind := by
        rw [Halves, List.getLast?_cons_cons, Halves]
      have first : Halves x y [item] (second :: others ++ behind) ↔ Halves x y [item] (second :: others) :=
        Iff.rfl
      simp only [seam, first]
      omega

/-- Lists without one half of the pair have no place for it. -/
theorem places_of_notMem {list : List α} (absent : x ∉ list) : places [x, y] list = 0 :=
  places_eq_zero_iff.mpr fun inside => absent (inside.subset List.mem_cons_self)

/-- What trimming takes from the end has no part in a place, unless it is a half of the pair. -/
theorem places_stripEnd {drops : α → Bool} (keepsFirst : drops x = false)
    (keepsSecond : drops y = false) (list : List α) :
    places [x, y] (Text.stripEnd drops list) = places [x, y] list := by
  have split : Text.stripEnd drops list ++ list.rtakeWhile drops = list :=
    List.rdropWhile_append_rtakeWhile
  have dropped : ∀ item ∈ list.rtakeWhile drops, drops item = true :=
    fun item mem => List.mem_rtakeWhile_imp mem
  generalize list.rtakeWhile drops = behind at split dropped
  have noPlace : places [x, y] behind = 0 := places_of_notMem fun mem => by
    rw [dropped x mem] at keepsFirst
    cases keepsFirst
  have noSeam : ¬ Halves x y (Text.stripEnd drops list) behind := by
    rintro ⟨-, second⟩
    rw [dropped y (List.mem_of_mem_head? second)] at keepsSecond
    cases keepsSecond
  have parts := places_append (x := x) (y := y) (Text.stripEnd drops list) behind
  rw [split, noPlace, if_neg noSeam] at parts
  exact parts.symm

/-- What trimming takes from the front has no part in a place either. -/
theorem places_dropWhile {drops : α → Bool} (keepsFirst : drops x = false) (list : List α) :
    places [x, y] (list.dropWhile drops) = places [x, y] list := by
  induction list with
  | nil => rfl
  | cons item rest ih =>
    rw [List.dropWhile_cons]
    split
    next drop =>
      have noSeam : ¬ Halves x y [item] rest := by
        rw [halves_singleton]
        rintro ⟨rfl, -⟩
        rw [drop] at keepsFirst
        cases keepsFirst
      rw [ih, places_cons, if_neg noSeam, Nat.zero_add]
    next => rfl

theorem places_strip {drops : α → Bool} (keepsFirst : drops x = false) (keepsSecond : drops y = false)
    (list : List α) : places [x, y] (Text.strip drops list) = places [x, y] list := by
  rw [Text.strip, places_stripEnd keepsFirst keepsSecond, places_dropWhile keepsFirst]

end Places

/-! ## Places in texts -/

namespace Text

/-- The number of places at which a text stands in another one. -/
def occurrences (part whole : Text) : Nat := places part.points whole.points

/-- A text occurs in another one exactly if there is a place for it. -/
theorem occurrences_eq_zero_iff {part whole : Text} :
    part.occurrences whole = 0 ↔ ¬ part.OccursIn whole := places_eq_zero_iff

end Text

end HostDecl
