import HostDecl.Json.Reader
import HostDecl.Proofs.FirstOccurrences

/-!
# The grammar of JSON documents

`Spells` says which tokens spell which value, without a machine: an array is spelled by its items with
commas between them, an object by its members. A member that is written again under its key replaces the
value and keeps the first place (`putAll`): the keys of an object are the first occurrences among the
keys written (`keys_putAll`), and each has the last value written for it (`member?_putAll`).

**The law** (`spells_of_parse`, and `writesObject_of_parse` for objects): a text that is read as a value
spells it. What the machine has taken of a document is the tokens of the arrays and objects that are
open, each with what it has got by then (`Opened`), and one step of the machine is one rule of the
grammar (`Reached.step`).

**What it does not establish.** Not every text that spells a value is read: the machine has a limit for
depth, and one for digits.
-/

namespace HostDecl.Json

/-! ## Members that are written again -/

/-- The members of an object, as they are written one after the other. -/
def putAll (written : List (Text × Json)) : List (Text × Json) :=
  written.foldl (fun members member => put member.1 member.2 members) []

theorem putAll_concat (written : List (Text × Json)) (key : Text) (value : Json) :
    putAll (written ++ [(key, value)]) = put key value (putAll written) := by
  rw [putAll, List.foldl_append]
  rfl

/-- The keys of an object are those that are written, each in its first place. -/
theorem keys_putAll (written : List (Text × Json)) :
    (putAll written).map Prod.fst = (written.map Prod.fst).eraseDups := by
  induction written using List.reverseRecOn with
  | nil => rfl
  | append_singleton written member ih =>
    obtain ⟨key, value⟩ := member
    rw [putAll_concat, keys_put, ih, List.map_append, List.map_singleton, eraseDups_concat]
    simp only [List.mem_eraseDups]

/-- A key has the last value that is written for it. -/
theorem member?_putAll (written : List (Text × Json)) (key : Text) :
    member? key (putAll written) = written.reverse.lookup key := by
  induction written using List.reverseRecOn with
  | nil => rfl
  | append_singleton written member ih =>
    obtain ⟨other, value⟩ := member
    rw [putAll_concat, member?_put, ih, List.reverse_concat, List.lookup_cons]
    by_cases same : other = key
    · rw [if_pos same, same, BEq.rfl]
    · rw [if_neg same, beq_false_of_ne (Ne.symm same)]

/-! ## Spelling -/

mutual

/-- Tokens that spell a value. -/
inductive Spells : List Token → Json → Prop
  | scalar {token : Token} {value : Json} (read : scalar? token = some (.ok value)) :
    Spells [token] value
  | emptyArray : Spells [.openBracket, .closeBracket] (.arr [])
  | array {ts : List Token} {items : List Json} (inside : SpellsItems ts items) :
    Spells (.openBracket :: ts ++ [.closeBracket]) (.arr items)
  | emptyObject : Spells [.openBrace, .closeBrace] (.obj [])
  | object {ts : List Token} {written : List (Text × Json)} (inside : SpellsMembers ts written) :
    Spells (.openBrace :: ts ++ [.closeBrace]) (.obj (putAll written))

/-- Tokens that spell values with commas between them. -/
inductive SpellsItems : List Token → List Json → Prop
  | one {ts : List Token} {value : Json} (item : Spells ts value) : SpellsItems ts [value]
  | more {ts us : List Token} {items : List Json} {value : Json} (before : SpellsItems ts items)
    (item : Spells us value) : SpellsItems (ts ++ .comma :: us) (items ++ [value])

/-- Tokens that spell members with commas between them. -/
inductive SpellsMembers : List Token → List (Text × Json) → Prop
  | one {ts : List Token} {key : Text} {value : Json} (member : Spells ts value) :
    SpellsMembers (.text key :: .colon :: ts) [(key, value)]
  | more {ts us : List Token} {written : List (Text × Json)} {key : Text} {value : Json}
    (before : SpellsMembers ts written) (member : Spells us value) :
    SpellsMembers (ts ++ .comma :: .text key :: .colon :: us) (written ++ [(key, value)])

end

/-! ## The machine -/

/-- The tokens behind which a value is awaited inside of open arrays and objects. -/
inductive Opened : List Token → List Frame → Prop
  | top : Opened [] []
  | array {ts : List Token} {frames : List Frame} (outer : Opened ts frames) :
    Opened (ts ++ [.openBracket]) (.array [] :: frames)
  | item {ts us : List Token} {frames : List Frame} {items : List Json} (outer : Opened ts frames)
    (before : SpellsItems us items) :
    Opened (ts ++ .openBracket :: (us ++ [.comma])) (.array items.reverse :: frames)
  | object {ts : List Token} {frames : List Frame} {key : Text} (outer : Opened ts frames) :
    Opened (ts ++ [.openBrace, .text key, .colon]) (.object [] key :: frames)
  | member {ts us : List Token} {frames : List Frame} {written : List (Text × Json)} {key : Text}
    (outer : Opened ts frames) (before : SpellsMembers us written) :
    Opened (ts ++ .openBrace :: (us ++ [.comma, .text key, .colon]))
      (.object (putAll written) key :: frames)

/-- The tokens behind which the machine is in a state. -/
inductive Reached : List Token → State → Prop
  | value {ts : List Token} {frames : List Frame} (opened : Opened ts frames) :
    Reached ts (.awaitValue frames false)
  | firstItem {ts : List Token} {frames : List Frame} (outer : Opened ts frames) :
    Reached (ts ++ [.openBracket]) (.awaitValue (.array [] :: frames) true)
  | firstKey {ts : List Token} {frames : List Frame} (outer : Opened ts frames) :
    Reached (ts ++ [.openBrace]) (.awaitKey frames [] true)
  | key {ts us : List Token} {frames : List Frame} {written : List (Text × Json)}
    (outer : Opened ts frames) (before : SpellsMembers us written) :
    Reached (ts ++ .openBrace :: (us ++ [.comma])) (.awaitKey frames (putAll written) false)
  | colon {ts : List Token} {frames : List Frame} {members : List (Text × Json)} {key : Text}
    (opened : Opened (ts ++ [.colon]) (.object members key :: frames)) :
    Reached ts (.awaitColon frames members key)
  | items {ts us : List Token} {frames : List Frame} {items : List Json} (outer : Opened ts frames)
    (read : SpellsItems us items) :
    Reached (ts ++ .openBracket :: us) (.afterItem frames items.reverse)
  | members {ts us : List Token} {frames : List Frame} {written : List (Text × Json)}
    (outer : Opened ts frames) (read : SpellsMembers us written) :
    Reached (ts ++ .openBrace :: us) (.afterMember frames (putAll written))
  | done {ts : List Token} {value : Json} (read : Spells ts value) : Reached ts (.done value)
  | ending {ts : List Token} {value : Json} (ended : Reached ts (.done value)) :
    Reached (ts ++ [.ending]) (.done value)

/-- A value that is spelled goes to the innermost open array or object. -/
theorem Opened.give {ts us : List Token} {frames : List Frame} {value : Json}
    (opened : Opened ts frames) (spelled : Spells us value) :
    Reached (ts ++ us) (.give value frames) := by
  cases opened with
  | top => exact .done spelled
  | @array ts frames outer =>
    rw [List.append_assoc]
    exact .items outer (.one spelled)
  | @item ts before frames items outer read =>
    have more := Reached.items outer (.more read spelled)
    rw [List.reverse_concat] at more
    simpa [State.give] using more
  | @object ts frames key outer =>
    rw [List.append_assoc]
    exact .members outer (.one spelled)
  | @member ts before frames written key outer read =>
    have more := Reached.members outer (@SpellsMembers.more _ _ _ key _ read spelled)
    rw [putAll_concat] at more
    simpa [State.give] using more

/-- Where a value may stand, the machine has all that opens around it. -/
theorem Reached.opened {read : List Token} {frames : List Frame} {first : Bool}
    (reached : Reached read (.awaitValue frames first)) : Opened read frames := by
  cases reached with
  | value opened => exact opened
  | firstItem outer => exact .array outer

/-- A token where a value may stand. -/
theorem Reached.step_awaitValue {read : List Token} {frames : List Frame} {first : Bool} {t : Placed}
    {next : State} (reached : Reached read (.awaitValue frames first))
    (taken : (State.awaitValue frames first).step t = .ok next) : Reached (read ++ [t.token]) next := by
  simp only [State.step] at taken
  split at taken
  next bracket =>
    rw [bracket]
    split at taken <;> cases taken
    exact .firstItem reached.opened
  next brace =>
    rw [brace]
    split at taken <;> cases taken
    exact .firstKey reached.opened
  next close =>
    rw [close]
    split at taken <;> cases taken
    cases reached with
    | firstItem outer =>
      rw [List.append_assoc]
      exact outer.give .emptyArray
  next =>
    split at taken <;> cases taken
    next value read => exact reached.opened.give (.scalar read)

/-- A token where a key may stand. -/
theorem Reached.step_awaitKey {read : List Token} {frames : List Frame}
    {members : List (Text × Json)} {first : Bool} {t : Placed} {next : State}
    (reached : Reached read (.awaitKey frames members first))
    (taken : (State.awaitKey frames members first).step t = .ok next) :
    Reached (read ++ [t.token]) next := by
  simp only [State.step] at taken
  split at taken
  next key text =>
    rw [text]
    cases taken
    refine .colon ?_
    cases reached with
    | firstKey outer => simpa using @Opened.object _ _ key outer
    | key outer before => simpa using @Opened.member _ _ _ _ key outer before
  next => cases taken
  next close =>
    rw [close]
    split at taken <;> cases taken
    next isFirst =>
      cases reached with
      | firstKey outer =>
        rw [List.append_assoc]
        exact outer.give .emptyObject
      | key => cases isFirst
  next => cases taken

/-- One token more is one step of the machine more. -/
theorem Reached.step {read : List Token} {s next : State} {t : Placed} (reached : Reached read s)
    (taken : s.step t = .ok next) : Reached (read ++ [t.token]) next := by
  cases s with
  | awaitValue frames first => exact reached.step_awaitValue taken
  | awaitKey frames members first => exact reached.step_awaitKey taken
  | awaitColon frames members key =>
    simp only [State.step] at taken
    split at taken <;> cases taken
    next colon =>
      rw [colon]
      cases reached with
      | colon opened => exact .value opened
  | afterItem frames items =>
    cases reached with
    | @items ts us _ items outer read =>
      simp only [State.step] at taken
      split at taken <;> cases taken
      next comma =>
        rw [comma, List.append_assoc, List.cons_append]
        exact .value (.item outer read)
      next close =>
        rw [close, List.append_assoc, List.reverse_reverse]
        exact outer.give (.array read)
  | afterMember frames members =>
    cases reached with
    | members outer read =>
      simp only [State.step] at taken
      split at taken <;> cases taken
      next comma =>
        rw [comma, List.append_assoc, List.cons_append]
        exact .key outer read
      next close =>
        rw [close, List.append_assoc]
        exact outer.give (.object read)
  | done value =>
    simp only [State.step] at taken
    split at taken <;> cases taken
    next ending =>
      rw [ending]
      exact .ending reached

/-- Many tokens more are many steps more. -/
theorem Reached.run {read : List Token} {s last : State} {placed : List Placed}
    (reached : Reached read s) (taken : s.run placed = .ok last) :
    Reached (read ++ placed.map Placed.token) last := by
  induction placed generalizing read s with
  | nil =>
    cases taken
    simpa using reached
  | cons t rest ih =>
    rw [State.run] at taken
    split at taken
    next => cases taken
    next next stepped => simpa using ih (reached.step stepped) taken

/-- Behind a value there are only endings. -/
theorem Reached.spells {read : List Token} {value : Json} (reached : Reached read (.done value)) :
    ∃ ts endings, read = ts ++ endings ∧ (∀ t ∈ endings, t = Token.ending) ∧ Spells ts value := by
  generalize last : State.done value = s at reached
  induction reached with
  | done spelled =>
    cases last
    exact ⟨_, [], (List.append_nil _).symm, by simp, spelled⟩
  | ending ended ih =>
    obtain ⟨ts, endings, rfl, only, spelled⟩ := ih last
    refine ⟨ts, endings ++ [.ending], List.append_assoc .., fun t mem => ?_, spelled⟩
    rcases List.mem_append.mp mem with mem | mem
    · exact only t mem
    · exact List.mem_singleton.mp mem
  | value | firstItem | firstKey | key | colon | items | members => cases last

/-! ## Words

The type of tokens lets a word stand for any value. The words of a text stand for values without parts,
so no object comes from a word.
-/

/-- Values that words stand for. -/
def IsWord : Json → Prop
  | .null | .bool _ | .float _ => True
  | _ => False

/-- The words among tokens stand for what words stand for. -/
def WordsFound (found : List Placed) : Prop :=
  ∀ t ∈ found, ∀ value, t.token = .word value → IsWord value

/-- So do those found, and the word that is being read. -/
def WordsScanned (scanned : Mode × List Placed) : Prop :=
  (∀ start owed value, scanned.1 = .word start owed value → IsWord value) ∧ WordsFound scanned.2

theorem wordsFound_emit {found : List Placed} {token : Token} {position : Nat} :
    WordsFound (emit found token position) ↔
      (∀ value, token = .word value → IsWord value) ∧ WordsFound found :=
  List.forall_mem_cons

theorem WordsFound.betweenStep {found : List Placed} (before : WordsFound found) (position : Nat)
    (c : Char) : WordsScanned (betweenStep position found c) := by
  unfold Json.betweenStep
  dsimp only
  repeat' split
  all_goals simp +contextual [WordsScanned, wordsFound_emit, IsWord, before]

/-- A number is no word. -/
theorem WordsFound.closeNumber {found : List Placed} (before : WordsFound found) (start : Nat)
    (negative : Bool) (part : NumberPart) :
    WordsFound (closeNumber start negative part found).2 := by
  cases part with
  | mark whole fraction place sign =>
    refine wordsFound_emit.mpr ⟨by simp, wordsFound_emit.mpr ⟨fun value word => ?_, before⟩⟩
    split at word <;> cases word
  | _ => simp [Json.closeNumber, wordsFound_emit, before]

/-- One character more. -/
theorem WordsScanned.step {s : Scan} (before : WordsScanned (s.mode, s.found)) (c : Char) :
    WordsScanned ((s.step c).mode, (s.step c).found) := by
  obtain ⟨position, mode, list⟩ := s
  obtain ⟨word, found⟩ := before
  dsimp only at word found
  cases mode <;> simp only [Scan.step]
  case between => exact found.betweenStep position c
  case word start owed value =>
    have isWord := word _ _ _ rfl
    unfold wordStep
    repeat' split
    all_goals simp +contextual [WordsScanned, wordsFound_emit, isWord, found]
  case number start negative part =>
    have closed := found.closeNumber start negative part
    unfold numberStep
    repeat' split
    next => exact ⟨by simp +contextual [IsWord], found⟩
    next => exact ⟨by simp, found⟩
    next finished =>
      rw [finished] at closed
      exact ⟨by simp, closed⟩
    next finished =>
      rw [finished] at closed
      exact closed.betweenStep position c
  case stopped => exact ⟨by simp, found⟩
  case string | escape | unicode =>
    simp only [stringStep, escapeStep, unicodeStep]
    repeat' split
    all_goals simp [WordsScanned, wordsFound_emit, found]

/-- A whole text. -/
theorem words_tokens (cs : List Char) : WordsFound (tokens cs) := by
  have scanned : ∀ (s : Scan), WordsScanned (s.mode, s.found) →
      WordsFound (cs.foldl Scan.step s).found := by
    induction cs with
    | nil => exact fun s before => before.2
    | cons c cs ih => exact fun s before => ih _ (before.step c)
  have all := scanned .start ⟨by simp [Scan.start], by simp [Scan.start, WordsFound]⟩
  unfold tokens Scan.finish
  intro t mem
  rw [List.mem_reverse] at mem
  refine wordsFound_emit.mpr ⟨by simp, ?_⟩ t mem
  split
  -- A number that the text ends in has its token still to come.
  case h_8 => exact all.closeNumber _ _ _
  all_goals simp [wordsFound_emit, all]

/-! ## The texts of values -/

/-- The tokens of a text, up to its ending. -/
def TokensOf (text : String) (ts : List Token) : Prop :=
  ∃ endings, (tokens text.toList).map Placed.token = ts ++ endings ∧
    ∀ t ∈ endings, t = Token.ending

/-- A text is read as a value that it spells. -/
theorem spells_of_parse {text : String} {value : Json} (read : parse text = .ok value) :
    ∃ ts, TokensOf text ts ∧ Spells ts value := by
  unfold parse at read
  split at read <;> cases read
  next given =>
    unfold ofChars at given
    split at given
    next => cases given
    next =>
      unfold ofTokens at given
      split at given <;> cases given
      next taken =>
        obtain ⟨ts, endings, split, only, spelled⟩ := ((Reached.value .top).run taken).spells
        exact ⟨ts, ⟨endings, split, only⟩, spelled⟩

/-- A text that is an object with members written one after the other, keys that come again among
them. -/
inductive WritesObject (text : String) : List (Text × Json) → Prop
  | empty (all : TokensOf text [.openBrace, .closeBrace]) : WritesObject text []
  | members {ts : List Token} {written : List (Text × Json)}
    (all : TokensOf text (.openBrace :: ts ++ [.closeBrace])) (inside : SpellsMembers ts written) :
    WritesObject text written

/-- The members of an object that is read are those that are written, the last value of each key at
the first place of the key. -/
theorem writesObject_of_parse {text : String} {members : List (Text × Json)}
    (read : parse text = .ok (.obj members)) :
    ∃ written, WritesObject text written ∧ members = putAll written := by
  obtain ⟨ts, all, spelled⟩ := spells_of_parse read
  cases spelled with
  | @scalar token _ read =>
    -- A single token would have to be a word.
    obtain ⟨endings, split, -⟩ := all
    obtain ⟨t, mem, rfl⟩ : ∃ t ∈ tokens text.toList, t.token = token :=
      List.mem_map.mp (by rw [split]; exact List.mem_append_left _ (List.mem_singleton.mpr rfl))
    have word := words_tokens text.toList t mem
    unfold scalar? at read
    split at read <;> try cases read
    next value token => exact (word _ token).elim
    next =>
      split at read <;> cases read
  | emptyObject => exact ⟨[], .empty all, rfl⟩
  | @object _ written inside => exact ⟨written, .members all inside, rfl⟩

end HostDecl.Json
