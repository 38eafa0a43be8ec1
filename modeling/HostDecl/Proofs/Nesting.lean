import HostDecl.Proofs.Parts

/-!
# Brackets and operators

The marks of a text are its brackets, the arrows of its function types, and every other code point as
it is. Brackets are read against a stack; the `>` of an arrow is no bracket, and to see that is all
that reading marks instead of code points is for.

A text is **balanced** if its brackets are nested and all closed, and **compound** if the operator of
a union or of a function type stands in it outside all brackets. Both are settled by the parts that
a text is put together from:

- `Balanced.append` and `Balanced.enclosed`: what is put together from balanced texts is balanced;
- `compound_append`: two texts in a row are compound if one of them is, where the first is balanced;
- `Balanced.not_compound_enclosed`: a text in brackets is not compound.

A mark may be lost where texts meet, because `=` and `>` make one arrow. A balanced text does not end
in `=`, so nothing is lost behind it.
-/

namespace HostDecl

/-! ## Marks -/

/-- A pair of brackets. -/
inductive Bracket where
  | round
  | square
  | curly
  | angle
  deriving DecidableEq, Repr

namespace Bracket

def all : List Bracket := [round, square, curly, angle]

def left : Bracket → CodePoint
  | round => .char '('
  | square => .char '['
  | curly => .char '\x7b'
  | angle => .char '<'

def right : Bracket → CodePoint
  | round => .char ')'
  | square => .char ']'
  | curly => .char '\x7d'
  | angle => .char '>'

end Bracket

/-- What a text is made of, as far as nesting goes. -/
inductive Mark where
  | opening (bracket : Bracket)
  | closing (bracket : Bracket)
  | arrow
  | sign (point : CodePoint)
  deriving DecidableEq, Repr

namespace Mark

/-- The operator of a union. -/
def bar : Mark := sign (.char '|')

/-- The brackets by their code points. -/
def brackets : List (CodePoint × Mark) :=
  Bracket.all.flatMap fun bracket => [(bracket.left, opening bracket), (bracket.right, closing bracket)]

/-- The mark of a code point alone. -/
def ofPoint (point : CodePoint) : Mark := (brackets.lookup point).getD (sign point)

/-- The marks with a code point in front of them. In front of `>` the code point `=` makes an arrow. -/
def cons (point : CodePoint) : List Mark → List Mark
  | closing .angle :: behind =>
    if point = .char '=' then arrow :: behind else ofPoint point :: closing .angle :: behind
  | marks => ofPoint point :: marks

/-- The open brackets, innermost first, after a mark; none if the mark closes another bracket than the
innermost one. -/
def read (stack : List Bracket) : Mark → Option (List Bracket)
  | opening bracket => some (bracket :: stack)
  | closing bracket =>
    match stack with
    | innermost :: outer => if innermost = bracket then some outer else none
    | [] => none
  | arrow | sign _ => some stack

/-- The open brackets after marks. -/
def readAll (stack : List Bracket) (marks : List Mark) : Option (List Bracket) := marks.foldlM read stack

/-- A mark stands outside all brackets: whatever was opened before it was closed before it. -/
def AtTop (mark : Mark) (marks : List Mark) : Prop :=
  ∃ front behind, marks = front ++ mark :: behind ∧ readAll [] front = some []

/-- A code point is a bracket or stands for itself. -/
theorem ofPoint_cases (point : CodePoint) :
    (∃ bracket, point = bracket.left ∧ ofPoint point = opening bracket) ∨
      (∃ bracket, point = bracket.right ∧ ofPoint point = closing bracket) ∨
      ofPoint point = sign point := by
  unfold ofPoint
  cases found : brackets.lookup point with
  | none => exact .inr (.inr rfl)
  | some mark =>
    obtain ⟨before, after, split, -⟩ := List.lookup_eq_some_iff.mp found
    have mem : (point, mark) ∈ brackets := by rw [split]; simp
    obtain ⟨bracket, -, entry⟩ := List.mem_flatMap.mp mem
    rcases List.mem_pair.mp entry with same | same
    · cases same
      exact .inl ⟨bracket, rfl, rfl⟩
    · cases same
      exact .inr (.inl ⟨bracket, rfl, rfl⟩)

theorem ofPoint_ne_arrow (point : CodePoint) : ofPoint point ≠ arrow := by
  rcases ofPoint_cases point with ⟨_, -, eq⟩ | ⟨_, -, eq⟩ | eq <;> rw [eq] <;> nofun

theorem eq_of_ofPoint_eq_sign {point other : CodePoint} (same : ofPoint point = sign other) :
    point = other := by
  rcases ofPoint_cases point with ⟨_, -, eq⟩ | ⟨_, -, eq⟩ | eq
  · cases eq.symm.trans same
  · cases eq.symm.trans same
  · cases eq.symm.trans same
    rfl

/-- A code point in front of marks sees the first of them only. -/
theorem cons_append {marks : List Mark} (some_mark : marks ≠ []) (point : CodePoint)
    (behind : List Mark) : cons point marks ++ behind = cons point (marks ++ behind) := by
  cases marks with
  | nil => exact absurd rfl some_mark
  | cons first rest =>
    rw [List.cons_append]
    cases first with
    | closing bracket =>
      cases bracket with
      | angle =>
        simp only [cons]
        split <;> rfl
      | _ => rfl
    | _ => rfl

theorem cons_ne_nil (point : CodePoint) (marks : List Mark) : cons point marks ≠ [] := by
  unfold cons
  split
  · split <;> exact List.cons_ne_nil _ _
  · exact List.cons_ne_nil _ _

/-- Only `=` does more than stand in front. -/
theorem cons_of_ne {point : CodePoint} (other : point ≠ .char '=') (marks : List Mark) :
    cons point marks = ofPoint point :: marks := by
  unfold cons
  split
  · rw [if_neg other]
  · rfl

/-- A mark is that of the code point in front, or the arrow that begins with it, or one behind it. -/
theorem mem_cons {mark : Mark} {point : CodePoint} {marks : List Mark}
    (mem : mark ∈ cons point marks) :
    (mark = arrow ∧ point = .char '=') ∨ mark = ofPoint point ∨ mark ∈ marks := by
  unfold cons at mem
  split at mem
  next behind =>
    split at mem
    next equals =>
      rcases List.mem_cons.mp mem with rfl | below
      · exact .inl ⟨rfl, equals⟩
      · exact .inr (.inr (List.mem_cons_of_mem _ below))
    next => exact .inr (List.mem_cons.mp mem)
  next => exact .inr (List.mem_cons.mp mem)

/-! ## Reading -/

theorem readAll_append (stack : List Bracket) (front behind : List Mark) :
    readAll stack (front ++ behind) = (readAll stack front).bind fun after => readAll after behind :=
  List.foldlM_append

theorem readAll_cons (stack : List Bracket) (mark : Mark) (behind : List Mark) :
    readAll stack (mark :: behind) = (mark.read stack).bind fun after => readAll after behind :=
  List.foldlM_cons

/-- Brackets that are open already do not matter to marks that do not close them. -/
theorem readAll_below {stack after : List Bracket} {marks : List Mark}
    (reads : readAll stack marks = some after) (below : List Bracket) :
    readAll (stack ++ below) marks = some (after ++ below) := by
  induction marks generalizing stack with
  | nil =>
    cases reads
    rfl
  | cons mark rest ih =>
    rw [readAll_cons] at reads ⊢
    obtain ⟨next, readsFirst, readsRest⟩ := Option.bind_eq_some_iff.mp reads
    have first : mark.read (stack ++ below) = some (next ++ below) := by
      cases mark with
      | opening bracket =>
        cases readsFirst
        rfl
      | closing bracket =>
        cases stack with
        | nil => cases readsFirst
        | cons innermost outer =>
          simp only [read, List.cons_append] at readsFirst ⊢
          split at readsFirst
          next same =>
            cases readsFirst
            rw [if_pos same]
          next => cases readsFirst
      | arrow | sign =>
        cases readsFirst
        rfl
    rw [first]
    exact ih readsRest

/-- Marks that close what they open leave every stack as it is. -/
theorem readAll_of_closed {marks : List Mark} (closed : readAll [] marks = some [])
    (stack : List Bracket) : readAll stack marks = some stack :=
  readAll_below closed stack

theorem AtTop.mem {mark : Mark} {marks : List Mark} (top : AtTop mark marks) : mark ∈ marks := by
  obtain ⟨front, behind, rfl, -⟩ := top
  exact List.mem_append_right front List.mem_cons_self

/-- What stands outside all brackets, behind marks that close what they open, stands so in them or
behind them. -/
theorem atTop_append {mark : Mark} {front behind : List Mark} (closed : readAll [] front = some []) :
    AtTop mark (front ++ behind) ↔ AtTop mark front ∨ AtTop mark behind := by
  constructor
  · rintro ⟨before, after, split, reads⟩
    rcases List.append_eq_append_iff.mp split with ⟨between, rfl, rest⟩ | ⟨between, rfl, rest⟩
    · rw [readAll_append, closed] at reads
      exact .inr ⟨between, after, rest, reads⟩
    · cases between with
      | nil => exact .inr ⟨[], after, rest.symm, rfl⟩
      | cons first others =>
        cases rest
        exact .inl ⟨before, others, rfl, reads⟩
  · rintro (⟨before, after, rfl, reads⟩ | ⟨before, after, rfl, reads⟩)
    · exact ⟨before, after ++ behind, by simp, reads⟩
    · refine ⟨front ++ before, after, by simp, ?_⟩
      rw [readAll_append, closed]
      exact reads

/-- Within brackets nothing stands outside them. -/
theorem not_atTop_enclosed {mark : Mark} {bracket : Bracket} {inside : List Mark}
    (closed : readAll [] inside = some []) (open_ne : mark ≠ opening bracket)
    (close_ne : mark ≠ closing bracket) :
    ¬ AtTop mark (opening bracket :: (inside ++ [closing bracket])) := by
  rintro ⟨front, behind, split, reads⟩
  cases front with
  | nil => exact open_ne (List.cons.inj split).1.symm
  | cons first before =>
    obtain ⟨rfl, rest⟩ := List.cons.inj split
    -- What was read in front of the mark is part of the inside, so the outer bracket is still open.
    have inner : ∃ others, inside = before ++ others := by
      rcases List.append_eq_append_iff.mp rest with ⟨between, rfl, last⟩ | ⟨between, rfl, -⟩
      · cases between with
        | nil => exact absurd (List.cons.inj last).1.symm close_ne
        | cons head tail => cases tail <;> cases (List.cons.inj last).2
      · exact ⟨between, rfl⟩
    obtain ⟨others, rfl⟩ := inner
    rw [readAll_append] at closed
    obtain ⟨stack, readsBefore, -⟩ := Option.bind_eq_some_iff.mp closed
    have stillOpen := readAll_below readsBefore [bracket]
    rw [readAll_cons] at reads
    change readAll [bracket] before = some [] at reads
    rw [List.nil_append, reads] at stillOpen
    simp at stillOpen

end Mark

namespace Text

/-- The marks of a text. -/
def marks (t : Text) : List Mark := t.points.foldr Mark.cons []

/-- Brackets are nested and all closed, and nothing is left that would join what comes behind. -/
structure Balanced (t : Text) : Prop where
  closed : Mark.readAll [] t.marks = some []
  ended : t.points.getLast? ≠ some (.char '=')

instance (t : Text) : Decidable t.Balanced :=
  decidable_of_iff (Mark.readAll [] t.marks = some [] ∧ t.points.getLast? ≠ some (.char '='))
    ⟨fun both => ⟨both.1, both.2⟩, fun balanced => ⟨balanced.closed, balanced.ended⟩⟩

/-- The operator of a union or of a function type stands outside all brackets. -/
def Compound (t : Text) : Prop := Mark.AtTop .bar t.marks ∨ Mark.AtTop .arrow t.marks

/-- None of some characters occurs in a text. -/
def Avoids (t : Text) (signs : List Char) : Prop := ∀ sign ∈ signs, .char sign ∉ t.points

-- The characters are gone through one by one, not all characters that there are.
instance (t : Text) (signs : List Char) : Decidable (t.Avoids signs) := List.decidableBAll _ signs

/-- The characters that nesting depends on. -/
def nestingSigns : List Char := ['(', ')', '[', ']', '\x7b', '\x7d', '<', '>', '=']

/-- The characters that operators are made of. -/
def operatorSigns : List Char := ['|', '=']

/-- A name that leaves the nesting and the operators of the text around it as they are. -/
structure IsPlain (name : Text) : Prop where
  nesting : name.Avoids nestingSigns
  operators : name.Avoids operatorSigns

/-- Whether a code point is a letter, a digit, `_`, `$` or `.`, or beyond ASCII. -/
def isNameSign : CodePoint → Bool
  | .char c => c.isAlphanum || c = '_' || c = '$' || c = '.' || 0x80 ≤ c.toNat
  | .half _ => true

/-- A text in brackets. -/
def enclosed (bracket : Bracket) (t : Text) : Text := ⟨[bracket.left]⟩ ++ (t ++ ⟨[bracket.right]⟩)

/-! ## The marks of joined texts -/

theorem marks_append {a : Text} (ended : a.points.getLast? ≠ some (.char '=')) (b : Text) :
    (a ++ b).marks = a.marks ++ b.marks := by
  obtain ⟨points⟩ := a
  unfold marks
  rw [points_append, List.foldr_append]
  induction points with
  | nil => rfl
  | cons point rest ih =>
    cases rest with
    | nil =>
      have other : point ≠ .char '=' := fun same => ended (by rw [same]; rfl)
      simp only [List.foldr_cons, List.foldr_nil, Mark.cons_of_ne other, List.cons_append,
        List.nil_append]
    | cons second others =>
      have behind := ih (by simpa only [List.getLast?_cons_cons] using ended)
      dsimp only at behind ⊢
      rw [List.foldr_cons, behind, List.foldr_cons (a := point), Mark.cons_append]
      exact Mark.cons_ne_nil _ _

theorem marks_enclosed {t : Text} (balanced : t.Balanced) (bracket : Bracket) :
    (t.enclosed bracket).marks = .opening bracket :: (t.marks ++ [.closing bracket]) := by
  have left : marks ⟨[bracket.left]⟩ = [.opening bracket] := by cases bracket <;> rfl
  have right : marks ⟨[bracket.right]⟩ = [.closing bracket] := by cases bracket <;> rfl
  rw [enclosed, marks_append (by cases bracket <;> decide), marks_append balanced.ended, left, right]
  rfl

/-- A mark of a text is that of one of its code points, or the arrow that begins with `=`. -/
theorem mem_marks {mark : Mark} {t : Text} (mem : mark ∈ t.marks) :
    (mark = .arrow ∧ .char '=' ∈ t.points) ∨ ∃ point ∈ t.points, mark = Mark.ofPoint point := by
  obtain ⟨points⟩ := t
  unfold marks at mem
  dsimp only at mem ⊢
  induction points with
  | nil => cases mem
  | cons point rest ih =>
    rw [List.foldr_cons] at mem
    rcases Mark.mem_cons mem with ⟨rfl, rfl⟩ | rfl | below
    · exact .inl ⟨rfl, List.mem_cons_self⟩
    · exact .inr ⟨point, List.mem_cons_self, rfl⟩
    · rcases ih below with ⟨rfl, among⟩ | ⟨other, among, eq⟩
      · exact .inl ⟨rfl, List.mem_cons_of_mem _ among⟩
      · exact .inr ⟨other, List.mem_cons_of_mem _ among, eq⟩

theorem mem_points_of_bar {t : Text} (mem : Mark.bar ∈ t.marks) : .char '|' ∈ t.points := by
  rcases mem_marks mem with ⟨eq, -⟩ | ⟨point, among, eq⟩
  · cases eq
  · rw [← Mark.eq_of_ofPoint_eq_sign eq.symm]
    exact among

theorem mem_points_of_arrow {t : Text} (mem : Mark.arrow ∈ t.marks) : .char '=' ∈ t.points := by
  rcases mem_marks mem with ⟨-, equals⟩ | ⟨point, -, eq⟩
  · exact equals
  · exact absurd eq.symm (Mark.ofPoint_ne_arrow point)

/-! ## Balanced texts -/

theorem balanced_of_avoids {t : Text} (plain : t.Avoids nestingSigns) : t.Balanced := by
  have signs : ∀ mark ∈ t.marks, ∃ point, mark = .sign point := by
    intro mark mem
    rcases mem_marks mem with ⟨-, equals⟩ | ⟨point, among, rfl⟩
    · exact absurd equals (plain '=' (by decide))
    · rcases Mark.ofPoint_cases point with ⟨bracket, rfl, -⟩ | ⟨bracket, rfl, -⟩ | same
      · cases bracket <;> exact absurd among (plain _ (by decide))
      · cases bracket <;> exact absurd among (plain _ (by decide))
      · exact ⟨point, same⟩
  constructor
  · generalize t.marks = marks at signs
    induction marks with
    | nil => rfl
    | cons mark rest ih =>
      obtain ⟨⟨point, rfl⟩, others⟩ := List.forall_mem_cons.mp signs
      exact ih others
  · intro last
    exact plain '=' (by decide) (List.mem_of_getLast? last)

theorem Balanced.append {a b : Text} (front : a.Balanced) (behind : b.Balanced) :
    (a ++ b).Balanced := by
  constructor
  · rw [marks_append front.ended, Mark.readAll_append, front.closed]
    exact behind.closed
  · rw [points_append, List.getLast?_append]
    cases last : b.points.getLast? with
    | none => exact front.ended
    | some point =>
      rw [Option.some_or, ← last]
      exact behind.ended

theorem Balanced.enclosed {t : Text} (inside : t.Balanced) (bracket : Bracket) :
    (t.enclosed bracket).Balanced := by
  constructor
  · rw [marks_enclosed inside, Mark.readAll_cons, Mark.read, Option.bind_some, Mark.readAll_append,
      Mark.readAll_of_closed inside.closed]
    cases bracket <;> rfl
  · rw [Text.enclosed, ← append_assoc, points_append, List.getLast?_append]
    cases bracket <;> nofun

theorem balanced_intercalate {separator : Text} {texts : List Text} (between : separator.Balanced)
    (each : ∀ t ∈ texts, t.Balanced) : (intercalate separator texts).Balanced := by
  induction texts with
  | nil => exact ⟨rfl, nofun⟩
  | cons first rest ih =>
    obtain ⟨head, others⟩ := List.forall_mem_cons.mp each
    cases rest with
    | nil => exact head
    | cons second more => exact (head.append between).append (ih others)

theorem avoids_of_nameSigns {name : Text} {special : List Char}
    (signs : ∀ point ∈ name.points, isNameSign point = true)
    (others : special.all fun sign => !isNameSign (.char sign)) : name.Avoids special := by
  intro sign among mem
  have other := List.all_eq_true.mp others sign among
  rw [signs _ mem] at other
  cases other

/-- The names of a host language are plain. -/
theorem isPlain_of_nameSigns {name : Text} (signs : ∀ point ∈ name.points, isNameSign point = true) :
    name.IsPlain where
  nesting := avoids_of_nameSigns signs (by decide)
  operators := avoids_of_nameSigns signs (by decide)

/-- A name without counterpart stands in a comment, which is balanced if the name is. -/
theorem balanced_unmappedText {name : Text} (balanced : name.Balanced) :
    (TypeScript.unmappedText name).Balanced :=
  (Balanced.append (by decide) balanced).append (by decide)

/-! ## Compound texts -/

/-- A text without the characters of operators is not compound. -/
theorem not_compound_of_avoids {t : Text} (plain : t.Avoids operatorSigns) : ¬ t.Compound := by
  rintro (bar | arrow)
  · exact plain '|' (by decide) (mem_points_of_bar bar.mem)
  · exact plain '=' (by decide) (mem_points_of_arrow arrow.mem)

/-- Two texts in a row are compound if one of them is. -/
theorem compound_append {a b : Text} (front : a.Balanced) :
    (a ++ b).Compound ↔ a.Compound ∨ b.Compound := by
  unfold Compound
  rw [marks_append front.ended, Mark.atTop_append front.closed, Mark.atTop_append front.closed]
  exact or_or_or_comm

/-- What begins with an arrow is compound. -/
theorem compound_arrow (t : Text) : (" => " ++ t).Compound := by
  rw [compound_append (by decide)]
  exact .inl (.inr ⟨[.sign (.char ' ')], [.sign (.char ' ')], rfl, rfl⟩)

/-- What begins with a bar is compound. -/
theorem compound_bar (t : Text) : (" | " ++ t).Compound := by
  rw [compound_append (by decide)]
  exact .inl (.inl ⟨[.sign (.char ' ')], [.sign (.char ' ')], rfl, rfl⟩)

/-- A plain name without counterpart makes no compound text. -/
theorem not_compound_unmappedText {name : Text} (plain : name.IsPlain) :
    ¬ (TypeScript.unmappedText name).Compound := by
  have front : ("any /* " ++ name).Balanced :=
    .append (by decide) (balanced_of_avoids plain.nesting)
  unfold TypeScript.unmappedText
  rw [compound_append front, compound_append (by decide)]
  rintro ((before | inside) | behind)
  · exact not_compound_of_avoids (by decide) before
  · exact not_compound_of_avoids plain.operators inside
  · exact not_compound_of_avoids (by decide) behind

/-- A text in brackets is not compound. -/
theorem Balanced.not_compound_enclosed {t : Text} (inside : t.Balanced) (bracket : Bracket) :
    ¬ (t.enclosed bracket).Compound := by
  unfold Compound
  rw [marks_enclosed inside]
  rintro (bar | arrow)
  · exact Mark.not_atTop_enclosed inside.closed (by nofun) (by nofun) bar
  · exact Mark.not_atTop_enclosed inside.closed (by nofun) (by nofun) arrow

end Text

end HostDecl
