import HostDecl.SideFile
import Mathlib.Logic.Basic

/-!
# Line breaks in JSON texts

A text that is read from a file has other line ends than its bytes have, and an included text ends in a
blank line that the file does not have. Neither matters to JSON, of whatever kind the text is.

**The law** (`limit?_parse_included`): a text and its included form are read as the same value, or both
are refused. A text that is refused for going beyond a limit goes beyond the same limit in both forms; of
a text that is refused for its syntax only the place and the wording may differ. They do differ: a string
that the text ends in is not terminated, and with a line break behind it holds a control character.

A line break ends every token but a string, and is a fault in every string (`unplaced_step_lineBreak`).
So what the machine has found after a line break is what it would have found if the text ended there,
which covers both the line breaks inside of a text and those behind it. The tokens of the two texts are
compared without their places (`unplaced`), in one machine: the step of a machine without places is a
machine's step without places (`unplaced_step`).
-/

namespace HostDecl

/-- An included text has at most two line feeds more, and has some if there is a text. -/
theorem withBlankLine_eq (cs : List Char) :
    ∃ count, (cs ≠ [] → 1 ≤ count) ∧ count ≤ 2 ∧
      withBlankLine cs = cs ++ List.replicate count '\n' := by
  unfold withBlankLine
  split
  next empty => exact ⟨0, fun some_char => absurd empty some_char, by omega, by rw [empty]; rfl⟩
  next =>
    split
    next => exact ⟨1, by omega, by omega, rfl⟩
    next => exact ⟨2, by omega, by omega, rfl⟩

namespace Json

/-! ## Places -/

/-- A token without places. A fault in a string is only known to be one. -/
def Token.unplaced : Token → Token
  | .faultyText _ _ => .faultyText .unterminated 0
  | token => token

@[inherit_doc Token.unplaced]
def Placed.unplaced (t : Placed) : Placed := ⟨t.token.unplaced, 0⟩

/-- Tokens without places. -/
def unplacedAll (found : List Placed) : List Placed := found.map Placed.unplaced

/-- A part of a number without places. -/
def NumberPart.unplaced : NumberPart → NumberPart
  | .point whole _ => .point whole 0
  | .mark whole places _ sign => .mark whole places 0 sign
  | part => part

/-- What is being read, without places. A string forgets the escape that it has just read, which only
says how a fault is worded. -/
def Mode.unplaced : Mode → Mode
  | .between => .between
  | .string _ read _ => .string 0 read none
  | .escape _ read => .escape 0 read
  | .unicode _ read _ owed value => .unicode 0 read 0 owed value
  | .word _ owed value => .word 0 owed value
  | .number _ negative part => .number 0 negative part.unplaced
  | .stopped => .stopped

/-- The outcome of a step without places. -/
def unplacedPair (scanned : Mode × List Placed) : Mode × List Placed :=
  (scanned.1.unplaced, unplacedAll scanned.2)

/-- The machine without places. -/
def Scan.unplaced (s : Scan) : Scan := ⟨0, s.mode.unplaced, unplacedAll s.found⟩

theorem unplacedAll_unplacedAll (found : List Placed) :
    unplacedAll (unplacedAll found) = unplacedAll found := by
  unfold unplacedAll
  rw [List.map_map]
  apply List.map_congr_left
  rintro ⟨token, position⟩ -
  cases token <;> rfl

theorem unplacedAll_emit (found : List Placed) (token : Token) (position : Nat) :
    unplacedAll (emit found token position) = emit (unplacedAll found) token.unplaced 0 := rfl

attribute [local simp] unplacedPair Token.unplaced NumberPart.unplaced Mode.unplaced
  unplacedAll_unplacedAll unplacedAll_emit

section Steps

variable (position start : Nat) (found : List Placed) (c : Char)

theorem unplaced_betweenStep :
    unplacedPair (betweenStep position found c) =
      unplacedPair (betweenStep 0 (unplacedAll found) c) := by
  unfold betweenStep
  dsimp only
  split
  next => simp
  next =>
    split
    -- What is none of the signs is a digit or starts no token.
    case h_15 => split <;> simp
    all_goals simp

theorem unplaced_stringStep (read : Decoded) :
    unplacedPair (stringStep position start read found c) =
      unplacedPair (stringStep 0 0 read (unplacedAll found) c) := by
  unfold stringStep
  repeat' split
  all_goals simp

theorem unplaced_escapeStep (read : Decoded) :
    unplacedPair (escapeStep position start read found c) =
      unplacedPair (escapeStep 0 0 read (unplacedAll found) c) := by
  unfold escapeStep
  repeat' split
  all_goals simp

theorem unplaced_unicodeStep (read : Decoded) (escape owed value : Nat) :
    unplacedPair (unicodeStep start read escape owed value found c) =
      unplacedPair (unicodeStep 0 read 0 owed value (unplacedAll found) c) := by
  unfold unicodeStep
  repeat' split
  all_goals simp

theorem unplaced_wordStep (owed : List Char) (value : Json) :
    unplacedPair (wordStep start owed value found c) =
      unplacedPair (wordStep 0 owed value (unplacedAll found) c) := by
  unfold wordStep
  repeat' split
  all_goals simp

theorem unplaced_closeNumber (negative : Bool) (part : NumberPart) :
    (closeNumber start negative part found).1 =
        (closeNumber 0 negative part.unplaced (unplacedAll found)).1 ∧
      unplacedAll (closeNumber start negative part found).2 =
        unplacedAll (closeNumber 0 negative part.unplaced (unplacedAll found)).2 := by
  cases part with
  | mark whole places mark sign => cases places <;> simp [closeNumber]
  | _ => simp [closeNumber]

theorem unplaced_extend? (part : NumberPart) :
    (part.extend? position c).map NumberPart.unplaced =
      (part.unplaced.extend? 0 c).map NumberPart.unplaced := by
  cases part <;> simp only [NumberPart.unplaced, NumberPart.extend?]
  all_goals
    repeat' split
    all_goals simp

/-- A number goes on, or it is closed and the character is read behind it. -/
theorem numberStep_eq {negative : Bool} {part : NumberPart} (plain : part ≠ .minus ∨ c ≠ 'I') :
    numberStep position start negative part found c =
      match part.extend? position c with
      | some longer => (.number start negative longer, found)
      | none =>
        if (closeNumber start negative part found).1 then
          (.stopped, (closeNumber start negative part found).2)
        else betweenStep position (closeNumber start negative part found).2 c := by
  unfold numberStep
  split
  next => simp at plain
  next =>
    cases part.extend? position c with
    | some longer => rfl
    | none =>
      dsimp only
      cases closeNumber start negative part found with
      | mk ends closed => cases ends <;> rfl

theorem unplaced_numberStep (negative : Bool) (part : NumberPart) :
    unplacedPair (numberStep position start negative part found c) =
      unplacedPair (numberStep 0 0 negative part.unplaced (unplacedAll found) c) := by
  by_cases infinity : part = .minus ∧ c = 'I'
  · obtain ⟨rfl, rfl⟩ := infinity
    simp [numberStep]
  · rw [not_and_or] at infinity
    have unplaced : part.unplaced ≠ .minus ∨ c ≠ 'I' :=
      infinity.imp_left fun other => by cases part <;> simp_all
    rw [numberStep_eq _ _ _ _ infinity, numberStep_eq _ _ _ _ unplaced]
    have extended := unplaced_extend? position c part
    obtain ⟨ends, closed⟩ := unplaced_closeNumber start found negative part
    cases longer : part.extend? position c with
    | some next =>
      rw [longer] at extended
      obtain ⟨other, otherLonger, same⟩ := Option.map_eq_some_iff.mp extended.symm
      rw [otherLonger]
      simp only [unplacedPair, Mode.unplaced, same, unplacedAll_unplacedAll]
    | none =>
      rw [longer] at extended
      rw [Option.map_eq_none_iff.mp extended.symm]
      dsimp only
      rw [← ends]
      split
      next => simp [closed]
      next => rw [unplaced_betweenStep, closed, ← unplaced_betweenStep]

end Steps

/-- A machine that has no places takes the same step, but for the places. -/
theorem unplaced_step (s : Scan) (c : Char) : (s.step c).unplaced = (s.unplaced.step c).unplaced := by
  obtain ⟨position, mode, found⟩ := s
  have of_pair : ∀ scanned other : Mode × List Placed, unplacedPair scanned = unplacedPair other →
      (⟨position + 1, scanned.1, scanned.2⟩ : Scan).unplaced =
        (⟨1, other.1, other.2⟩ : Scan).unplaced := by
    intro scanned other same
    rw [unplacedPair, unplacedPair, Prod.mk.injEq] at same
    simp only [Scan.unplaced, same]
  cases mode with
  | between => exact of_pair _ _ (unplaced_betweenStep ..)
  | string start read escape => exact of_pair _ _ (unplaced_stringStep ..)
  | escape start read => exact of_pair _ _ (unplaced_escapeStep ..)
  | unicode start read escape owed value => exact of_pair _ _ (unplaced_unicodeStep ..)
  | word start owed value => exact of_pair _ _ (unplaced_wordStep ..)
  | number start negative part => exact of_pair _ _ (unplaced_numberStep ..)
  | stopped => exact of_pair (.stopped, found) (.stopped, unplacedAll found) (by simp)

theorem unplaced_foldl {s t : Scan} (same : s.unplaced = t.unplaced) (cs : List Char) :
    (cs.foldl Scan.step s).unplaced = (cs.foldl Scan.step t).unplaced := by
  induction cs generalizing s t with
  | nil => exact same
  | cons c cs ih =>
    apply ih
    rw [unplaced_step, same, ← unplaced_step]

/-! ## One line break -/

/-- A character that ends a line. -/
def IsLineBreak (c : Char) : Prop := c = '\n' ∨ c = '\r'

/-- The tokens found if the text ends here. -/
def Scan.closed (s : Scan) : List Placed :=
  match s.mode with
  | .between | .stopped => s.found
  | .string start _ none | .escape start _ =>
    emit s.found (.faultyText .unterminated start) start
  | .string start _ (some escape) | .unicode start _ escape _ _ =>
    emit s.found (.faultyText .invalidUnicodeEscape escape) start
  | .word start _ _ => emit s.found .stray start
  | .number start negative part => (closeNumber start negative part s.found).2

theorem Scan.finish_eq (s : Scan) : s.finish = (emit s.closed .ending s.position).reverse := rfl

/-- What is being read behind a line break: nothing, and the machine has stopped if something was being
read that may not end there. -/
def Mode.broken : Mode → Mode
  | .between => .between
  | .number start negative part =>
    if (closeNumber start negative part []).1 then .stopped else .between
  | _ => .stopped

theorem Mode.broken_cases (mode : Mode) : mode.broken = .between ∨ mode.broken = .stopped := by
  unfold broken
  repeat' split
  all_goals simp

/-- The letters owed of a word are no line breaks. That holds of the words that a text can start, not
of the words that the type allows. -/
def Mode.PlainWord : Mode → Prop
  | .word _ owed _ => ∀ c ∈ owed, ¬ IsLineBreak c
  | _ => True

theorem plainWord_betweenStep (position : Nat) (found : List Placed) (c : Char) :
    (betweenStep position found c).1.PlainWord := by
  unfold betweenStep
  dsimp only
  repeat' split
  all_goals simp [Mode.PlainWord, IsLineBreak]

theorem Mode.PlainWord.step {s : Scan} (plain : s.mode.PlainWord) (c : Char) :
    (s.step c).mode.PlainWord := by
  obtain ⟨position, mode, found⟩ := s
  cases mode <;> simp only [Scan.step]
  case between => exact plainWord_betweenStep ..
  case word start owed value =>
    unfold wordStep
    repeat' split
    all_goals simp_all [Mode.PlainWord]
  case number start negative part =>
    unfold numberStep
    repeat' split
    next => simp [Mode.PlainWord, IsLineBreak]
    next => trivial
    next => trivial
    next => exact plainWord_betweenStep ..
  case stopped => trivial
  case string | escape | unicode =>
    simp only [stringStep, escapeStep, unicodeStep]
    repeat' split
    all_goals trivial

theorem Mode.PlainWord.foldl {s : Scan} (plain : s.mode.PlainWord) (cs : List Char) :
    (cs.foldl Scan.step s).mode.PlainWord := by
  induction cs generalizing s with
  | nil => exact plain
  | cons c cs ih => exact ih (plain.step c)

section LineBreak

variable {c : Char} (lineBreak : IsLineBreak c)
include lineBreak

theorem betweenStep_lineBreak (position : Nat) (found : List Placed) :
    betweenStep position found c = (.between, found) := by
  rcases lineBreak with rfl | rfl <;> rfl

theorem extend?_lineBreak (position : Nat) (part : NumberPart) : part.extend? position c = none := by
  cases part with
  | mark whole places start sign => rcases lineBreak with rfl | rfl <;> cases sign <;> rfl
  | _ => rcases lineBreak with rfl | rfl <;> rfl

/-- Behind a line break the machine has found what it finds if the text ends there. -/
theorem unplaced_step_lineBreak {s : Scan} (plain : s.mode.PlainWord) :
    (s.step c).unplaced = ⟨0, s.mode.broken, unplacedAll s.closed⟩ := by
  obtain ⟨position, mode, found⟩ := s
  cases mode with
  | between =>
    simp only [Scan.step, betweenStep_lineBreak lineBreak]
    rfl
  | string start read escape => rcases lineBreak with rfl | rfl <;> cases escape <;> rfl
  | escape start read => rcases lineBreak with rfl | rfl <;> rfl
  | unicode start read escape owed value => rcases lineBreak with rfl | rfl <;> rfl
  | word start owed value =>
    cases owed with
    | nil => rfl
    | cons next rest =>
      have other : c ≠ next := fun same => plain next List.mem_cons_self (same ▸ lineBreak)
      simp only [Scan.step, wordStep, if_pos other]
      rfl
  | number start negative part =>
    have noInfinity : part ≠ .minus ∨ c ≠ 'I' := by
      right
      rcases lineBreak with rfl | rfl <;> decide
    have ends : (closeNumber start negative part found).1 =
        (closeNumber start negative part []).1 := by cases part <;> rfl
    simp only [Scan.step, numberStep_eq _ _ _ _ noInfinity, extend?_lineBreak lineBreak, ends,
      betweenStep_lineBreak lineBreak]
    simp only [Scan.closed, Mode.broken]
    split <;> rfl
  | stopped => rfl

/-- A line break behind a line break changes nothing. -/
theorem unplaced_step_lineBreaks {s : Scan} (plain : s.mode.PlainWord) {d : Char}
    (second : IsLineBreak d) : ((s.step c).step d).unplaced = (s.step c).unplaced := by
  rw [unplaced_step, unplaced_step_lineBreak lineBreak plain]
  rcases s.mode.broken_cases with between | stopped
  · rw [between]
    simp only [Scan.step, betweenStep_lineBreak second]
    simp only [Scan.unplaced, Mode.unplaced, unplacedAll_unplacedAll]
  · rw [stopped]
    simp only [Scan.step]
    simp only [Scan.unplaced, Mode.unplaced, unplacedAll_unplacedAll]

end LineBreak

/-! ## All line breaks -/

/-- One kind of line break is as good as the other. -/
theorem unplaced_foldl_unifyNewlines (cs : List Char) {s : Scan} (plain : s.mode.PlainWord) :
    ((Text.unifyNewlines cs).foldl Scan.step s).unplaced = (cs.foldl Scan.step s).unplaced := by
  have alike : ∀ {s : Scan}, s.mode.PlainWord → (s.step '\n').unplaced = (s.step '\r').unplaced := by
    intro s plain
    rw [unplaced_step_lineBreak (.inl rfl) plain, unplaced_step_lineBreak (.inr rfl) plain]
  induction cs generalizing s with
  | nil => rfl
  | cons c rest ih =>
    by_cases same : c = '\r'
    · rw [same, Text.unifyNewlines_return]
      split
      next head =>
        -- The line feed behind the carriage return is the one that stays.
        obtain ⟨others, rfl⟩ := List.head?_eq_some_iff.mp head
        rw [ih plain, List.foldl_cons, List.foldl_cons, List.foldl_cons]
        apply unplaced_foldl
        rw [unplaced_step_lineBreaks (.inr rfl) plain (.inl rfl), alike plain]
      next =>
        rw [List.foldl_cons, List.foldl_cons, ih (plain.step '\n')]
        exact unplaced_foldl (alike plain) rest
    · rw [Text.unifyNewlines_cons same, List.foldl_cons, List.foldl_cons]
      exact ih (plain.step c)

theorem unplacedAll_closed (s : Scan) : unplacedAll s.closed = unplacedAll s.unplaced.closed := by
  obtain ⟨position, mode, found⟩ := s
  cases mode with
  | string start read escape => cases escape <;> simp [Scan.closed, Scan.unplaced]
  | number start negative part => exact (unplaced_closeNumber ..).2
  | _ => simp [Scan.closed, Scan.unplaced]

theorem unplacedAll_finish (s : Scan) :
    unplacedAll s.finish = (emit (unplacedAll s.closed) .ending 0).reverse := by
  rw [Scan.finish_eq, unplacedAll, List.map_reverse, ← unplacedAll, unplacedAll_emit]
  rfl

/-- A text and the text with line feeds behind it end in the same tokens. -/
theorem unplacedAll_finish_replicate (count : Nat) {s : Scan} (plain : s.mode.PlainWord) :
    unplacedAll ((List.replicate count '\n').foldl Scan.step s).finish = unplacedAll s.finish := by
  induction count generalizing s with
  | zero => rfl
  | succ count ih =>
    rw [List.replicate_succ, List.foldl_cons, ih (plain.step '\n'), unplacedAll_finish,
      unplacedAll_finish, unplacedAll_closed, unplaced_step_lineBreak (.inl rfl) plain]
    rcases s.mode.broken_cases with between | stopped
    · rw [between, Scan.closed, unplacedAll_unplacedAll]
    · rw [stopped, Scan.closed, unplacedAll_unplacedAll]

/-- The tokens of a text do not tell its line breaks apart. -/
theorem unplacedAll_tokens_unifyNewlines (cs : List Char) :
    unplacedAll (tokens (Text.unifyNewlines cs)) = unplacedAll (tokens cs) := by
  have plain : Scan.start.mode.PlainWord := trivial
  rw [tokens, tokens, unplacedAll_finish, unplacedAll_finish, unplacedAll_closed,
    unplaced_foldl_unifyNewlines cs plain, ← unplacedAll_closed]

/-- The tokens of an included text. -/
theorem unplacedAll_tokens_included (cs : List Char) :
    unplacedAll (tokens (withBlankLine (Text.unifyNewlines cs))) = unplacedAll (tokens cs) := by
  obtain ⟨count, -, -, appended⟩ := withBlankLine_eq (Text.unifyNewlines cs)
  have plain : Scan.start.mode.PlainWord := trivial
  rw [← unplacedAll_tokens_unifyNewlines cs, appended, tokens, tokens, List.foldl_append,
    unplacedAll_finish_replicate _ (plain.foldl _)]

/-! ## Values -/

/-- The limit that a text goes beyond; none if its syntax is wrong. -/
def Fault.limit? : Fault → Option LimitFault
  | .malformed _ _ => none
  | .beyond limit => some limit

@[inherit_doc Fault.limit?]
def ReadFault.limit? : ReadFault → Option LimitFault
  | .malformed .. => none
  | .beyond limit => some limit

/-- Two outcomes that differ in their faults at most. -/
theorem cases_of_mapError_eq {ε ε' δ α : Type} {f : ε → δ} {g : ε' → δ} {x : Except ε α}
    {y : Except ε' α} (same : x.mapError f = y.mapError g) :
    (∃ value, x = .ok value ∧ y = .ok value) ∨
      ∃ fault other, x = .error fault ∧ y = .error other ∧ f fault = g other := by
  cases x with
  | ok value =>
    cases y with
    | ok other =>
      cases same
      exact .inl ⟨value, rfl, rfl⟩
    | error other => cases same
  | error fault =>
    cases y with
    | ok other => cases same
    | error other => exact .inr ⟨fault, other, rfl, rfl, Except.error.inj same⟩

theorem Token.cases_of_unplaced_eq {t u : Token} (same : t.unplaced = u.unplaced) :
    t = u ∨ ∃ fault position other otherPosition,
      t = .faultyText fault position ∧ u = .faultyText other otherPosition := by
  cases t <;> cases u <;> simp_all

/-- A step of the reader sees no places. -/
theorem State.limit?_step {t u : Placed} (same : t.unplaced = u.unplaced) (s : State) :
    (s.step t).mapError Fault.limit? = (s.step u).mapError Fault.limit? := by
  obtain ⟨token, position⟩ := t
  obtain ⟨other, otherPosition⟩ := u
  rcases Token.cases_of_unplaced_eq (congrArg Placed.token same) with
    equal | ⟨_, _, _, _, faulty, otherFaulty⟩
  · dsimp only at equal
    subst equal
    cases s <;> simp only [State.step]
    all_goals
      repeat' split
      all_goals rfl
  · dsimp only at faulty otherFaulty
    subst faulty otherFaulty
    cases s <;> rfl

theorem State.limit?_run {ts us : List Placed} (same : unplacedAll ts = unplacedAll us) (s : State) :
    (s.run ts).mapError Fault.limit? = (s.run us).mapError Fault.limit? := by
  induction ts generalizing us s with
  | nil =>
    cases us with
    | nil => rfl
    | cons u us => cases same
  | cons t ts ih =>
    cases us with
    | nil => cases same
    | cons u us =>
      obtain ⟨here, behind⟩ := List.cons.inj same
      rw [run, run]
      rcases cases_of_mapError_eq (limit?_step here s) with
        ⟨next, left, right⟩ | ⟨fault, other, left, right, limit⟩
      · rw [left, right]
        exact ih behind next
      · rw [left, right]
        exact congrArg Except.error limit

theorem limit?_ofTokens {ts us : List Placed} (same : unplacedAll ts = unplacedAll us) :
    (ofTokens ts).mapError Fault.limit? = (ofTokens us).mapError Fault.limit? := by
  rw [ofTokens, ofTokens]
  rcases cases_of_mapError_eq (State.limit?_run same (.awaitValue [] false)) with
    ⟨last, left, right⟩ | ⟨fault, other, left, right, limit⟩
  · rw [left, right]
  · rw [left, right]
    exact congrArg Except.error limit

/-- A byte order mark in front of a text stays in front of it, whatever the line breaks are. -/
theorem head?_unifyNewlines_iff (cs : List Char) :
    (Text.unifyNewlines cs).head? = some '\ufeff' ↔ cs.head? = some '\ufeff' := by
  rw [Text.head?_unifyNewlines]
  cases cs with
  | nil => rfl
  | cons c cs =>
    simp only [List.head?_cons, Option.map_some, Option.some.injEq]
    split
    next same =>
      rw [same]
      decide
    next => rfl

/-- So it does if the text is included. -/
theorem head?_included (cs : List Char) :
    (withBlankLine (Text.unifyNewlines cs)).head? = some '\ufeff' ↔ cs.head? = some '\ufeff' := by
  obtain ⟨count, -, -, appended⟩ := withBlankLine_eq (Text.unifyNewlines cs)
  rw [appended, ← head?_unifyNewlines_iff cs]
  cases Text.unifyNewlines cs with
  | nil => cases count <;> simp [List.replicate_succ]
  | cons c rest => rfl

theorem ofChars_eq (cs : List Char) :
    ofChars cs =
      if cs.head? = some '\ufeff' then .error (.malformed .byteOrderMark 0)
      else ofTokens (tokens cs) := by
  unfold ofChars
  split
  next => rfl
  next other =>
    rw [if_neg]
    intro head
    obtain ⟨rest, rfl⟩ := List.head?_eq_some_iff.mp head
    exact other rest rfl

theorem limit?_parse (text : String) :
    (parse text).mapError ReadFault.limit? = (ofChars text.toList).mapError Fault.limit? := by
  rw [parse]
  cases ofChars text.toList with
  | ok value => rfl
  | error fault => cases fault <;> rfl

/-- Texts with the same tokens are read alike. -/
theorem limit?_parse_congr {cs : List Char} {text : String}
    (head : cs.head? = some '\ufeff' ↔ text.toList.head? = some '\ufeff')
    (same : unplacedAll (tokens cs) = unplacedAll (tokens text.toList)) :
    (parse (String.ofList cs)).mapError ReadFault.limit? = (parse text).mapError ReadFault.limit? := by
  rw [limit?_parse, limit?_parse, String.toList_ofList, ofChars_eq, ofChars_eq]
  by_cases mark : text.toList.head? = some '\ufeff'
  · rw [if_pos mark, if_pos (head.mpr mark)]
  · rw [if_neg mark, if_neg (mt head.mp mark)]
    exact limit?_ofTokens same

/-- Reading a text with one kind of line end. -/
theorem limit?_parse_unifyNewlines (text : String) :
    (parse (String.ofList (Text.unifyNewlines text.toList))).mapError ReadFault.limit? =
      (parse text).mapError ReadFault.limit? :=
  limit?_parse_congr (head?_unifyNewlines_iff _) (unplacedAll_tokens_unifyNewlines _)

/-- Reading a text and reading its included form. -/
theorem limit?_parse_included (text : String) :
    (parse (String.ofList (withBlankLine (Text.unifyNewlines text.toList)))).mapError
        ReadFault.limit? =
      (parse text).mapError ReadFault.limit? :=
  limit?_parse_congr (head?_included _) (unplacedAll_tokens_included _)

end Json

end HostDecl
